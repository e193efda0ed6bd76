import HostScript.Proofs.Dispatch.Alike
import HostScript.Proofs.Dispatch.Throughout
import HostScript.Proofs.Machine.Course
import HostScript.Proofs.Machine.Entries

/-!
# Proofs/Dispatch/Offered — what a runtime offers is settled when it is built

A runtime lists the types that describe values without a type of their own, and the instances whose
methods can be called by name, both in the order in which they are loaded.  Nothing that a host or a
script does later changes these lists (`offered_course`), so whatever is chosen for a dynamic operation,
at once or from what is remembered, is chosen from what the runtime has been built with
(`decide_of_built`).
-/

namespace HostScript

/-! ## The types that are listed -/

/-- The first type of each identity, in order. -/
def firstOfEach : List TypeInfo → List TypeInfo
  | [] => []
  | info :: rest => info :: (firstOfEach rest).filter (·.id ≠ info.id)

/-- The types of libraries that describe values without a type of their own, in the order of loading,
each of them once. -/
def boundTypes (libraries : List (List TypeInfo)) : List TypeInfo :=
  firstOfEach (libraries.flatten.filter (·.primitive?.isSome))

/-- What a runtime offers besides its names. -/
def Runtime.offered (runtime : Runtime) : List TypeInfo × List HostObject :=
  (runtime.bound, runtime.instances)

/-- Lists a type among those that are bound, if it is to be. -/
def listing (info : TypeInfo) (offered : List TypeInfo × List HostObject) :
    List TypeInfo × List HostObject :=
  (if info.primitive?.isSome && !offered.1.any (·.id = info.id) then offered.1 ++ [info] else offered.1,
    offered.2)

/-- **Listing types one after another** lists the first of each identity. -/
theorem foldl_listing (infos : List TypeInfo) (offered : List TypeInfo × List HostObject) :
    infos.foldl (fun offered info => listing info offered) offered =
      (offered.1 ++ (firstOfEach (infos.filter (·.primitive?.isSome))).filter
        (fun info => !offered.1.any (·.id = info.id)), offered.2) := by
  obtain ⟨bound, instances⟩ := offered
  induction infos generalizing bound with
  | nil => exact Prod.ext (List.append_nil bound).symm rfl
  | cons info rest ih =>
    rw [List.foldl_cons, List.filter_cons]
    by_cases kind : info.primitive?.isSome
    · rw [if_pos kind, firstOfEach, List.filter_cons]
      by_cases known : bound.any (·.id = info.id)
      · have skipped : listing info (bound, instances) = (bound, instances) := by
          simp only [listing, known, Bool.not_true, Bool.and_false, Bool.false_eq_true, if_false]
        rw [skipped, ih, if_neg (by simp [known]), List.filter_filter]
        refine congrArg (fun l => (bound ++ l, instances)) (List.filter_congr fun other _ => ?_)
        by_cases same : other.id = info.id
        · simp only [same, known, Bool.not_true, Bool.false_and]
        · simp only [ne_eq, same, not_false_eq_true, decide_true, Bool.and_true]
      · have listed : listing info (bound, instances) = (bound ++ [info], instances) := by
          simp only [listing, kind, known, Bool.not_false, Bool.and_true, if_true]
        rw [listed, ih, if_pos (by simp [known]), List.append_assoc, List.singleton_append,
          List.filter_filter]
        refine congrArg (fun l => (bound ++ info :: l, instances)) (List.filter_congr fun other _ => ?_)
        simp only [List.any_append, List.any_cons, List.any_nil, Bool.or_false, Bool.not_or, eq_comm,
          ne_eq, decide_not]
    · have skipped : listing info (bound, instances) = (bound, instances) := by
        simp only [listing, kind, Bool.false_and, Bool.false_eq_true, if_false]
      rw [skipped, ih, if_neg kind]

/-! ## What runtimes offer -/

namespace Store

variable {registry : Registry} {s t : Store} {rt : RuntimeId}

/-- What the runtimes offer. -/
def offered (s : Store) : Array (List TypeInfo × List HostObject) := s.runtimes.map Runtime.offered

theorem offered_of_runtimes (same : t.runtimes = s.runtimes) : t.offered = s.offered :=
  congrArg (Array.map Runtime.offered) same

/-- The surface of a runtime is what it offers. -/
theorem surface_of_offered {bound : List TypeInfo} {instances : List HostObject}
    (h : s.offered[rt.index]? = some (bound, instances)) (registry : Registry) :
    (s.runtime rt).surface registry = ⟨registry, bound, instances⟩ := by
  unfold offered at h
  rw [Array.getElem?_map] at h
  obtain ⟨runtime, found, same⟩ := Option.map_eq_some_iff.1 h
  obtain ⟨rfl, rfl⟩ := Prod.mk.inj same
  unfold Store.runtime
  rw [found]
  rfl

/-! ## Building a runtime -/

theorem offered_publish (s : Store) (rt : RuntimeId) (info : TypeInfo) :
    (s.publish rt info).offered = s.offered.modify rt.index (listing info) := by
  unfold publish
  dsimp only
  have listed : (s.changeRuntime rt fun runtime =>
      if info.primitive?.isSome && !(runtime.bound.any (·.id = info.id)) then
        { runtime with bound := runtime.bound ++ [info] }
      else runtime).offered = s.offered.modify rt.index (listing info) :=
    Alike.map_changeRuntime s rt fun runtime => by
      unfold listing Runtime.offered
      dsimp only
      split <;> rfl
  split
  next found => exact (offered_of_runtimes (congrArg (fun p => p.2.runtimes) found).symm).trans listed
  next found => exact (offered_of_runtimes (congrArg (fun p => p.2.runtimes) found).symm).trans listed

theorem runtimes_binds (s : Store) (space : NamespaceId) (v : Value) (methods : List Method) :
    (methods.foldl (fun s m => s.bind space m.name v) s).runtimes = s.runtimes := by
  induction methods generalizing s with
  | nil => rfl
  | cons m rest ih => exact ih (s.bind space m.name v)

theorem offered_inject (s : Store) (registry : Registry) (rt : RuntimeId) (object : HostObject) :
    (s.inject registry rt object).offered =
      s.offered.modify rt.index fun offered => (offered.1, offered.2 ++ [object]) := by
  have listed (u : Store) : (u.changeRuntime rt fun runtime =>
      { runtime with instances := runtime.instances ++ [object] }).offered =
        u.offered.modify rt.index fun offered => (offered.1, offered.2 ++ [object]) :=
    Alike.map_changeRuntime u rt fun _ => rfl
  unfold inject
  dsimp only
  rw [listed]
  refine congrArg (fun xs : Array _ => xs.modify rt.index _) ?_
  split
  next found =>
    refine (offered_of_runtimes (runtimes_binds _ _ _ _)).trans ?_
    exact offered_of_runtimes (congrArg (fun p => p.2.runtimes) found).symm
  next found => exact offered_of_runtimes (congrArg (fun p => p.2.runtimes) found).symm

/-- **A runtime offers what it has been built with.** -/
theorem offered_buildRuntime (s : Store) (registry : Registry) (libraries : List (List TypeInfo))
    (instances : List HostObject) (extension : String) :
    (s.buildRuntime registry libraries instances extension).1 = ⟨s.runtimes.size⟩ ∧
      (s.buildRuntime registry libraries instances extension).2.offered =
        s.offered.push (boundTypes libraries, instances) := by
  have last (xs : Array (List TypeInfo × List HostObject)) (x : List TypeInfo × List HostObject)
      (f : List TypeInfo × List HostObject → List TypeInfo × List HostObject) :
      (xs.push x).modify xs.size f = xs.push (f x) := by
    apply Array.ext_getElem?
    intro i
    rw [Array.getElem?_modify, Array.getElem?_push, Array.getElem?_push]
    by_cases here : xs.size = i
    · rw [if_pos here, if_pos here.symm, if_pos here.symm]
      rfl
    · rw [if_neg here, if_neg (Ne.symm here), if_neg (Ne.symm here)]
  have size : s.offered.size = s.runtimes.size := Array.size_map
  have publishes (infos : List TypeInfo) (u : Store) (x : List TypeInfo × List HostObject)
      (h : u.offered = s.offered.push x) :
      (infos.foldl (fun u info => u.publish ⟨s.runtimes.size⟩ info) u).offered =
        s.offered.push (infos.foldl (fun x info => listing info x) x) := by
    induction infos generalizing u x with
    | nil => exact h
    | cons info rest ih =>
      refine ih _ (listing info x) ?_
      rw [offered_publish, h, ← size, last]
  have injects (objects : List HostObject) (u : Store) (bound : List TypeInfo)
      (before : List HostObject) (h : u.offered = s.offered.push (bound, before)) :
      (objects.foldl (fun u o => u.inject registry ⟨s.runtimes.size⟩ o) u).offered =
        s.offered.push (bound, before ++ objects) := by
    induction objects generalizing u before with
    | nil => rw [List.append_nil]; exact h
    | cons object rest ih =>
      rw [List.append_cons]
      refine ih _ (before ++ [object]) ?_
      rw [offered_inject, h, ← size, last]
  refine ⟨rfl, ?_⟩
  unfold buildRuntime
  dsimp only
  refine injects instances _ (boundTypes libraries) [] ((publishes libraries.flatten _ ([], []) ?_).trans ?_)
  · exact Array.map_push
  · rw [foldl_listing]
    refine congrArg (fun bound => s.offered.push (bound, [])) ?_
    exact List.filter_eq_self.2 fun _ _ => rfl

/-! ## Working on runtimes -/

theorem offered_changeRules (s : Store) (rt : RuntimeId) (f : Rules → Rules) :
    (s.changeRules rt f).offered = s.offered :=
  Alike.map_changeRuntime_of_same s rt fun _ => rfl

section

variable {s t : Store} {rt : RuntimeId}

theorem offered_prepare {source : String} {result : Except ScriptError Program}
    (prepared : s.prepare rt source = (result, t)) : t.offered = s.offered := by
  obtain rfl | ⟨requests, rfl⟩ := store_of_prepare prepared
  · rfl
  · exact s.offered_changeRules rt _

theorem offered_startFile {files : Files} {module : NamespaceId} {path : String}
    {result : Except ScriptError Control} (started : s.startFile files rt module path = (result, t)) :
    t.offered = s.offered := by
  cases fileStarts_of_eq started with
  | unreadable => rfl
  | refused _ prepared | starts _ prepared => exact (offered_prepare prepared :)

end

theorem offered_dispatch (s : Store) (registry : Registry) (rt : RuntimeId) (module : NamespaceId)
    (signature : Signature) (args : List Value) :
    (s.dispatch registry rt module signature args).2.offered = s.offered := by
  rw [offered_of_runtimes (runtimes_dispatch registry module signature args s rt)]
  unfold decide
  dsimp only
  split
  · rfl
  · exact s.offered_changeRules rt _

end Store

/-- **A step changes nothing of what is offered.** -/
theorem Machine.offered_step (setting : Setting) (c : Config) :
    (step setting c).store.offered = c.store.offered := by
  obtain ⟨control, stack, s⟩ := c
  rcases runtimes_step setting ⟨control, stack, s⟩ with
    same | ⟨env, position, path, name, rfl⟩ | ⟨env, signature, args, rfl⟩
  · exact Store.offered_of_runtimes same
  · show (importPath setting env path _ s).store.offered = s.offered
    match importPath setting env path _ s, importsTo setting env path _ s with
    | _, .bound _ | _, .missing _ _ => rfl
    | _, .starts file | _, .refused file => exact (Store.offered_startFile file.started :)
  · rw [store_step_dispatch]
    exact s.offered_dispatch _ _ _ _ _

/-- **A request changes nothing of what is offered**, but that a runtime may be added. -/
theorem Request.offered_begin (setting : Setting) (s : Store) (request : Request) :
    ∃ more, (request.begin setting s).store.offered = s.offered ++ more := by
  have kept {t : Store} (same : t.offered = s.offered) : ∃ more, t.offered = s.offered ++ more :=
    ⟨#[], same.trans Array.append_empty.symm⟩
  match request, request.begin setting s, request.beginsAs setting s with
  | _, _, .build => exact ⟨#[_], (s.offered_buildRuntime setting.registry _ _ _).2⟩
  | _, _, .drop => exact kept (Store.Alike.map_changeRuntime_of_same s _ fun _ => rfl)
  | _, _, .change | _, _, .offer | _, _, .call | _, _, .effect => exact kept rfl
  | _, _, .source prepared => exact kept (Store.offered_prepare prepared :)
  | _, _, .noSource prepared => exact kept (Store.offered_prepare prepared)
  | _, _, .fileIn started | _, _, .noFileIn started => exact kept (Store.offered_startFile started)
  | _, _, .fileAs started => exact kept (Store.offered_startFile started :)
  | _, _, .noFileAs started =>
    have same := Store.offered_startFile started
    exact kept ((Store.offered_of_runtimes (Store.runtimes_undoLoad _ _)).trans same)

/-! ## Sessions -/

variable {registry : Registry} {past : List Config} {start phase : Phase}

/-- **What is offered stays all along a course.** -/
theorem offered_course {allowed : Setting → Store → Request → Prop}
    (course : Course allowed start past phase) :
    ∃ more, phase.store.offered = start.store.offered ++ more := by
  have later {s t : Store} (before : ∃ more, s.offered = start.store.offered ++ more)
      (next : ∃ more, t.offered = s.offered ++ more) :
      ∃ more, t.offered = start.store.offered ++ more := by
    obtain ⟨more, before⟩ := before
    obtain ⟨others, next⟩ := next
    exact ⟨more ++ others, by rw [next, before, Array.append_assoc]⟩
  induction course with
  | start => exact ⟨#[], Array.append_empty.symm⟩
  | @done _ setting s t request _ _ _ begins ih =>
    have next := request.offered_begin setting s
    rw [begins] at next
    exact later ih next
  | @begun _ setting s request c _ _ begins ih =>
    have next := request.offered_begin setting s
    rw [begins] at next
    exact later ih next
  | @step _ setting c _ ih =>
    exact later ih ⟨#[], (Machine.offered_step setting c).trans Array.append_empty.symm⟩
  | answered _ _ ih => exact ih

/-- **A runtime goes on offering what it has been built with**, in whatever order what follows goes. -/
theorem surface_of_built {allowed : Setting → Store → Request → Prop} {s t : Store} {rt : RuntimeId}
    {libraries : List (List TypeInfo)} {instances : List HostObject} {extension : String}
    (built : s.buildRuntime registry libraries instances extension = (rt, t))
    (course : Course allowed (.idle t) past phase) (asked : Registry) :
    (phase.store.runtime rt).surface asked = ⟨asked, boundTypes libraries, instances⟩ := by
  obtain ⟨place, offers⟩ := s.offered_buildRuntime registry libraries instances extension
  obtain ⟨more, kept⟩ := offered_course course
  rw [built] at place offers
  dsimp only at place offers
  refine Store.surface_of_offered ?_ asked
  have size : s.offered.size = s.runtimes.size := Array.size_map
  have inside : s.offered.size < (s.offered.push (boundTypes libraries, instances)).size := by
    rw [Array.size_push]
    exact Nat.lt_succ_self _
  rw [kept, show (Phase.idle t).store.offered = _ from offers, place]
  dsimp only
  rw [← size, Array.getElem?_append_left inside, Array.getElem?_push_size]

/-- The rules of all runtimes are faithful wherever a session has come to since a runtime was built. -/
theorem faithful_of_built {s t : Store} {rt : RuntimeId} {libraries : List (List TypeInfo)}
    {instances : List HostObject} {extension : String} (reached : Reached registry s)
    (built : s.buildRuntime registry libraries instances extension = (rt, t))
    (course : Course (Over registry) (.idle t) past phase) :
    phase.Holds registry (·.Faithful registry) fun _ c => c.store.Faithful registry := by
  have next : Reached registry t := by
    let turn : Turn := ⟨⟨registry, #[], .empty⟩, 0, .build libraries instances extension⟩
    have played : turn.play Machine.step s = some (.ok .null, t) :=
      congrArg (fun p : RuntimeId × Store => some (Except.ok Value.null, p.2)) built
    exact .turn reached rfl played
  exact (Invariant.faithful registry).course course ((Invariant.faithful registry).reached next)

/-- **What is decided is chosen from what a runtime has been built with**, whatever has been decided
before. -/
theorem decide_of_built {s t : Store} {rt : RuntimeId} {libraries : List (List TypeInfo)}
    {instances : List HostObject} {extension : String} (reached : Reached registry s)
    (built : s.buildRuntime registry libraries instances extension = (rt, t))
    (course : Course (Over registry) (.idle t) past phase) (signature : Signature) (args : List Value) :
    (phase.store.decide registry rt signature args).1 =
      Surface.choose ⟨registry, boundTypes libraries, instances⟩ signature args := by
  have faithful : phase.store.Faithful registry := by
    have held := faithful_of_built reached built course
    cases phase with
    | idle u => exact held
    | busy setting c => exact held.2
  rw [(faithful.decide rt signature args).1, surface_of_built built course registry]

end HostScript
