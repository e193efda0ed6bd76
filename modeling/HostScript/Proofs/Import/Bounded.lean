import HostScript.Proofs.Import.Loads
import HostScript.Proofs.Machine.Course
import Mathlib.Data.List.Dedup
import Mathlib.Data.List.Perm.Subperm

/-!
# Proofs/Import/Bounded — imports come to an end

The loads in progress under a hidden root have different names, each bound to its module: `Tidy`.  So no
name is loaded while it is being loaded, and a name whose load has completed is settled
(`Machine.Shift.settled`).  As code imports no more names than its texts do, there are never more loads in
progress than names to import: `imports_bounded`.
-/

namespace HostScript

variable {root : NamespaceId}

/-! ## Requests of hosts -/

/-- **A request that does not hand the root of the global names to scripts.** -/
def Request.Discreet (root : NamespaceId) (s : Store) : Request → Prop
  | .change f => (f s.toHeap).Hides root
  | .source _ module _ => module ≠ root
  | .fileIn _ module _ => module ≠ root
  | .call _ args => ∀ v ∈ args, v.Avoids root
  | .effect e => (e s.toHeap).1.Avoids root ∧ (e s.toHeap).2.Hides root
  | _ => True

/-- The requests of sessions that do not hand the root of the global names to scripts. -/
def Discreetly (root : NamespaceId) (setting : Setting) (s : Store) (request : Request) : Prop :=
  setting.Discreet root ∧ request.Discreet root s

/-- **A request that leaves a global name alone**: the host neither runs a file under that name nor binds
it to anything else. -/
def Request.Leaves (root : NamespaceId) (name : String) (s : Store) : Request → Prop
  | .change f => (f s.toHeap).get? root name = s.get? root name
  | .effect e => (e s.toHeap).2.get? root name = s.get? root name
  | .fileAs rt _ other => (s.runtime rt).globals = root → Text.fold name ≠ Text.fold other
  | _ => True

/-! ## Tidy states -/

/-- **The loads in progress have different names, each bound to its module.** -/
structure Config.Tidy (root : NamespaceId) (c : Config) : Prop where
  distinct : (loadsOf root c.stack).Pairwise fun l m => Text.fold l.name ≠ Text.fold m.name
  bound : ∀ l ∈ loadsOf root c.stack, c.store.get? root l.name = some (.space l.module)

/-- A name that is bound is another one than a name that is not. -/
theorem Store.fold_ne_of_unbound {s : Store} {id : NamespaceId} {name other : String}
    (bound : (s.get? id name).isSome) (unbound : s.get? id other = none) :
    Text.fold name ≠ Text.fold other := by
  intro same
  rw [get?_eq_space, Namespace.get?_congr _ same, ← get?_eq_space, unbound] at bound
  cases bound

theorem Load.binding?_restore_of_ne (l : Load) (names : Namespace Value) {other : String}
    (differs : Text.fold other ≠ Text.fold l.name) :
    (l.restore names).binding? other = names.binding? other := by
  unfold restore
  split
  · exact names.binding?_insert_of_ne _ differs
  · exact names.binding?_erase_of_ne differs

namespace Machine.Shift

variable {c d : Config}

/-- **A step touches a name that is not being loaded only by beginning to load it.** -/
theorem spares (h : Shift root c d) {name : String}
    (free : ∀ l ∈ loadsOf root c.stack, Text.fold name ≠ Text.fold l.name) :
    ((d.store.space root).binding? name = (c.store.space root).binding? name ∧
      ∀ l ∈ loadsOf root d.stack, Text.fold name ≠ Text.fold l.name) ∨
    ∃ l, Text.fold name = Text.fold l.name ∧ l.previous? = none ∧ c.store.get? root l.name = none ∧
      d.store.space root = (c.store.space root).insert l.name (.space l.module) ∧
        l ∈ loadsOf root d.stack := by
  cases h with
  | quiet same loads => exact .inl ⟨congrArg (·.binding? name) same, loads ▸ free⟩
  | begins l here fresh unbound _ names loads =>
    by_cases same : Text.fold name = Text.fold l.name
    · exact .inr ⟨l, same, fresh, unbound, names, loads ▸ List.mem_cons_self⟩
    · rw [names, loads]
      refine .inl ⟨Namespace.binding?_insert_of_ne _ _ same, fun m mem => ?_⟩
      rcases List.mem_cons.1 mem with rfl | mem
      · exact same
      · exact free m mem
  | completes l v here _ stack same =>
    rw [stack, loadsOf_cons_load here] at free
    exact .inl ⟨congrArg (·.binding? name) same, fun m mem => free m (List.mem_cons_of_mem _ mem)⟩
  | undoes l e here _ stack names =>
    rw [stack, loadsOf_cons_load here] at free
    rw [names]
    exact .inl ⟨l.binding?_restore_of_ne _ (free l List.mem_cons_self),
      fun m mem => free m (List.mem_cons_of_mem _ mem)⟩

/-- **A step does not touch a name that is bound and not being loaded**, and begins no load of it. -/
theorem settled (h : Shift root c d) {name : String} (bound : (c.store.get? root name).isSome)
    (free : ∀ l ∈ loadsOf root c.stack, Text.fold name ≠ Text.fold l.name) :
    (d.store.space root).binding? name = (c.store.space root).binding? name ∧
      ∀ l ∈ loadsOf root d.stack, Text.fold name ≠ Text.fold l.name := by
  rcases h.spares free with kept | ⟨l, same, _, unbound, _⟩
  · exact kept
  · exact absurd same (Store.fold_ne_of_unbound bound unbound)

/-- **A step keeps the loads in progress tidy.** -/
theorem tidy (h : Shift root c d) (tidy : c.Tidy root) : d.Tidy root := by
  cases h with
  | quiet same loads =>
    refine ⟨loads ▸ tidy.distinct, fun m mem => ?_⟩
    exact (congrArg (·.get? m.name) same).trans (tidy.bound m (loads ▸ mem))
  | begins l here _ unbound _ names loads =>
    -- What is being loaded is bound, and what begins to be loaded is not.
    have differs : ∀ m ∈ loadsOf root c.stack, Text.fold m.name ≠ Text.fold l.name := fun m mem =>
      Store.fold_ne_of_unbound (Option.isSome_of_eq_some (tidy.bound m mem)) unbound
    have distinct := List.pairwise_cons.2 ⟨fun m mem => (differs m mem).symm, tidy.distinct⟩
    refine ⟨loads ▸ distinct, fun m mem => ?_⟩
    rw [loads] at mem
    rw [Store.get?_eq_space, names]
    rcases List.mem_cons.1 mem with rfl | mem
    · exact Namespace.get?_insert_self _ _ _
    · exact (Namespace.get?_insert_of_ne _ _ (differs m mem)).trans (tidy.bound m mem)
  | completes l v here _ stack same =>
    obtain ⟨distinct, bound⟩ := tidy
    rw [stack, loadsOf_cons_load here] at distinct bound
    refine ⟨(List.pairwise_cons.1 distinct).2, fun m mem => ?_⟩
    exact (congrArg (·.get? m.name) same).trans (bound m (List.mem_cons_of_mem _ mem))
  | undoes l e here _ stack names =>
    obtain ⟨distinct, bound⟩ := tidy
    rw [stack, loadsOf_cons_load here] at distinct bound
    obtain ⟨differs, rest⟩ := List.pairwise_cons.1 distinct
    refine ⟨rest, fun m mem => ?_⟩
    rw [Store.get?_eq_space, names, Namespace.get?_eq_map_binding?,
      l.binding?_restore_of_ne _ (differs m mem).symm, ← Namespace.get?_eq_map_binding?]
    exact bound m (List.mem_cons_of_mem _ mem)

/-- **A load begins only of a name that is not bound.** -/
theorem unbound (h : Shift root c d) {l : Load}
    (loads : loadsOf root d.stack = l :: loadsOf root c.stack) : c.store.get? root l.name = none := by
  cases h with
  | quiet _ same => exact absurd (same.symm.trans loads) List.ne_cons_self
  | begins m _ _ unbound _ _ same =>
    obtain ⟨rfl, -⟩ := List.cons.inj (same.symm.trans loads)
    exact unbound
  | completes m _ here _ stack _ =>
    rw [stack, loadsOf_cons_load here] at loads
    have longer := congrArg List.length loads
    simp only [List.length_cons] at longer
    omega
  | undoes m _ here _ stack _ =>
    rw [stack, loadsOf_cons_load here] at loads
    have longer := congrArg List.length loads
    simp only [List.length_cons] at longer
    omega

end Machine.Shift

/-! ## Phases of sessions -/

/-- **A phase in which the root is hidden** and the loads in progress are tidy. -/
def Phase.Tidy (root : NamespaceId) : Phase → Prop
  | .idle s => s.Hides root
  | .busy setting c => setting.Discreet root ∧ c.Hides root ∧ c.Tidy root

/-- A load that has just begun is the only one. -/
theorem tidy_single {c : Config} {l : Load} (loads : loadsOf root c.stack = [l])
    (bound : c.store.get? root l.name = some (.space l.module)) : c.Tidy root := by
  refine ⟨loads ▸ List.pairwise_singleton _ _, fun m mem => ?_⟩
  rw [loads] at mem
  obtain rfl := List.mem_singleton.1 mem
  exact bound

theorem tidy_of_no_loads {c : Config} (none : loadsOf root c.stack = []) : c.Tidy root :=
  ⟨none ▸ List.Pairwise.nil, fun _ never => absurd (none ▸ never) List.not_mem_nil⟩

/-- **What begins in an orderly way**: the root is hidden and the loads in progress are tidy, and a name
that the request leaves alone is bound to what it was bound to and is not being loaded. -/
structure Begun.Orderly (root : NamespaceId) (setting : Setting) (s : Store) (request : Request)
    (b : Begun) : Prop where
  done : ∀ answer t, b = .done answer t → t.Hides root
  running : ∀ c, b = .running c → Phase.Tidy root (.busy setting c)
  leaves : ∀ name, request.Leaves root name s → b.store.get? root name = s.get? root name
  free : ∀ name, request.Leaves root name s → ∀ c, b = .running c →
    ∀ l ∈ loadsOf root c.stack, Text.fold name ≠ Text.fold l.name

namespace Begun.Orderly

variable {setting : Setting} {s t : Store} {request : Request}

/-- A request that is done at once. -/
theorem at_once {answer : Except ScriptError Value} (hides : t.Hides root)
    (leaves : ∀ name, request.Leaves root name s → t.get? root name = s.get? root name) :
    Begun.Orderly root setting s request (.done answer t) where
  done := by
    rintro _ _ ⟨⟩
    exact hides
  running := by
    rintro _ ⟨⟩
  leaves := leaves
  free := by
    rintro _ _ _ ⟨⟩

/-- A request for which a machine runs that loads no file to begin with. -/
theorem runs {control : Control} (discreet : setting.Discreet root) (own : control.Hides root)
    (hides : t.Hides root)
    (leaves : ∀ name, request.Leaves root name s → t.get? root name = s.get? root name) :
    Begun.Orderly root setting s request (.running ⟨control, [], t⟩) where
  done := by
    rintro _ _ ⟨⟩
  running := by
    rintro _ ⟨⟩
    exact ⟨discreet, ⟨own, List.forall_mem_nil _, hides⟩, tidy_of_no_loads rfl⟩
  leaves := leaves
  free := by
    rintro _ _ _ ⟨⟩ l never
    exact absurd never List.not_mem_nil

end Begun.Orderly

theorem Load.get?_restore_of_ne (l : Load) (names : Namespace Value) {other : String}
    (differs : Text.fold other ≠ Text.fold l.name) :
    (l.restore names).get? other = names.get? other := by
  rw [Namespace.get?_eq_map_binding?, l.binding?_restore_of_ne names differs,
    Namespace.get?_eq_map_binding?]

section

variable {setting : Setting} {s t : Store} {rt : RuntimeId} {path name : String}

/-- Beginning a load leaves alone what running the file leaves alone. -/
theorem get?_beginLoad_of_leaves (hides : s.Hides root) {other : String}
    (differs : Request.Leaves root other s (.fileAs rt path name)) :
    (s.beginLoad rt name).2.get? root other = s.get? root other := by
  obtain ⟨-, -, names⟩ := hides.beginLoad rt name
  rw [Store.get?_eq_space, names]
  split
  next here => exact Namespace.get?_insert_of_ne _ _ (differs here)
  next => rfl

/-- **A file that is run as a module of its own** is the only one that is being loaded. -/
theorem orderly_fileAs (hides : s.Hides root) (discreet : setting.Discreet root) {control : Control}
    (started : (s.beginLoad rt name).2.startFile setting.files rt (s.beginLoad rt name).1.module path =
      (.ok control, t)) :
    (Begun.running ⟨control, [.load (s.beginLoad rt name).1], t⟩).Orderly root setting s
      (.fileAs rt path name) := by
  obtain ⟨begun, own, names⟩ := hides.beginLoad rt name
  obtain ⟨ready, same, starts⟩ := begun.startFile own.module started
  have stack : ∀ p ∈ [Pending.load (s.beginLoad rt name).1], p.Hides root :=
    List.forall_mem_singleton.2 own
  refine ⟨?_, ?_, fun other differs => ?_, ?_⟩
  · rintro _ _ ⟨⟩
  · rintro _ ⟨⟩
    refine ⟨discreet, ⟨starts control rfl, stack, ready⟩, ?_⟩
    by_cases here : (s.runtime rt).globals = root
    · refine tidy_single (loadsOf_cons_load here []) ?_
      rw [Store.get?_eq_space, same, names, if_pos here]
      exact Namespace.get?_insert_self _ _ _
    · have none : (Pending.load (s.beginLoad rt name).1).load? root = none := if_neg here
      exact tidy_of_no_loads (loadsOf_cons_none none [])
  · exact (congrArg (·.get? other) same).trans (get?_beginLoad_of_leaves hides differs)
  · rintro other differs _ ⟨⟩ l mem
    obtain ⟨among, here⟩ := mem_loadsOf.1 mem
    obtain rfl := Pending.load.inj (List.mem_singleton.1 among)
    exact differs here

/-- A file that does not start is not being loaded. -/
theorem orderly_noFileAs (hides : s.Hides root) {e : ScriptError}
    (started : (s.beginLoad rt name).2.startFile setting.files rt (s.beginLoad rt name).1.module path =
      (.error e, t)) :
    (Begun.done (.error e) (t.undoLoad (s.beginLoad rt name).1)).Orderly root setting s
      (.fileAs rt path name) := by
  obtain ⟨begun, own, names⟩ := hides.beginLoad rt name
  obtain ⟨ready, same, -⟩ := begun.startFile own.module started
  obtain ⟨undone, restored⟩ := ready.undoLoad own
  refine .at_once undone fun other differs => ?_
  have leaves := get?_beginLoad_of_leaves hides differs
  rw [Store.get?_eq_space, restored]
  split
  next here =>
    rw [Load.get?_restore_of_ne _ _ (differs here), same]
    exact leaves
  next => exact (congrArg (·.get? other) same).trans leaves

end

/-- **Requests begin in an orderly way.** -/
theorem Request.orderly_begin {setting : Setting} {s : Store} {request : Request} (hides : s.Hides root)
    (allowed : Discreetly root setting s request) :
    (request.begin setting s).Orderly root setting s request := by
  obtain ⟨discreet, own⟩ := allowed
  match request, request.begin setting s, request.beginsAs setting s with
  | .build libraries instances extension, _, .build =>
    obtain ⟨built, same⟩ := hides.buildRuntime setting.registry libraries instances extension
    exact .at_once built fun name _ => congrArg (·.get? name) same
  | _, _, .drop => exact .at_once ⟨hides.heap, hides.frames, hides.functions⟩ fun _ _ => rfl
  | _, _, .change => exact .at_once ⟨own, hides.frames, hides.functions⟩ fun _ leaves => leaves
  | _, _, .offer =>
    refine .at_once (hides.newFunction ?_) fun _ _ => rfl
    rintro _ _ _ _ ⟨⟩
  | _, _, .source prepared =>
    obtain ⟨ready, same⟩ := hides.prepare prepared
    obtain ⟨starts, started⟩ := ready.startProgram _ own _
    exact .runs discreet starts started fun name _ => congrArg (·.get? name) same
  | _, _, .noSource prepared =>
    obtain ⟨ready, same⟩ := hides.prepare prepared
    exact .at_once ready fun name _ => congrArg (·.get? name) same
  | _, _, .fileIn started =>
    obtain ⟨ready, same, starts⟩ := hides.startFile own started
    exact .runs discreet (starts _ rfl) ready fun name _ => congrArg (·.get? name) same
  | _, _, .noFileIn started =>
    obtain ⟨ready, same, -⟩ := hides.startFile own started
    exact .at_once ready fun name _ => congrArg (·.get? name) same
  | _, _, .fileAs started => exact orderly_fileAs hides discreet started
  | _, _, .noFileAs started => exact orderly_noFileAs hides started
  | _, _, .call => exact .runs discreet own hides fun _ _ => rfl
  | _, _, .effect =>
    obtain ⟨reply, kept⟩ := own
    exact .runs discreet (Control.hides_ofReply reply) ⟨kept, hides.frames, hides.functions⟩
      fun _ leaves => leaves

/-- **The root stays hidden and the loads in progress tidy** all along a session. -/
theorem Phase.Tidy.course {start phase : Phase} {past : List Config}
    (course : Course (Discreetly root) start past phase) (first : start.Tidy root) : phase.Tidy root := by
  induction course with
  | start => exact first
  | done _ allowed begins ih => exact (Request.orderly_begin ih allowed).done _ _ begins
  | begun _ allowed begins ih => exact (Request.orderly_begin ih allowed).running _ begins
  | step _ ih =>
    obtain ⟨discreet, hides, tidy⟩ := ih
    have tame := Machine.tame_step discreet hides
    exact ⟨discreet, tame.hides, tame.shift.tidy tidy⟩
  | answered _ _ ih => exact ih.2.1.store

/-! ## Names whose load has completed -/

/-- The requests of discreet sessions that leave a global name alone. -/
def LeavingAlone (root : NamespaceId) (name : String) (setting : Setting) (s : Store)
    (request : Request) : Prop :=
  Discreetly root setting s request ∧ request.Leaves root name s

/-- **A phase in which a name is settled**: it is bound and not being loaded. -/
structure Phase.Settled (root : NamespaceId) (name : String) (v : Value) (phase : Phase) : Prop where
  bound : phase.store.get? root name = some v
  free : ∀ setting c, phase = .busy setting c →
    ∀ l ∈ loadsOf root c.stack, Text.fold name ≠ Text.fold l.name

/-- **A settled name stays settled** as long as the host leaves it alone. -/
theorem Phase.Settled.course {name : String} {v : Value} {start phase : Phase} {past : List Config}
    (course : Course (LeavingAlone root name) start past phase) (tidy : start.Tidy root)
    (first : start.Settled root name v) : phase.Settled root name v := by
  induction course with
  | start => exact first
  | @done _ setting s t request _ before allowed begins ih =>
    have hides : s.Hides root := Tidy.course (before.mono fun _ _ _ => And.left) tidy
    have orderly := Request.orderly_begin hides allowed.1
    have kept := orderly.leaves name allowed.2
    rw [begins] at kept
    exact ⟨kept.trans ih.bound, fun _ _ never => by cases never⟩
  | @begun _ setting s request c before allowed begins ih =>
    have hides : s.Hides root := Tidy.course (before.mono fun _ _ _ => And.left) tidy
    have orderly := Request.orderly_begin hides allowed.1
    have kept := orderly.leaves name allowed.2
    rw [begins] at kept
    refine ⟨kept.trans ih.bound, ?_⟩
    rintro _ _ ⟨⟩
    exact orderly.free name allowed.2 c begins
  | @step _ setting c before ih =>
    obtain ⟨discreet, hides, -⟩ := Tidy.course (before.mono fun _ _ _ => And.left) tidy
    have here : (c.store.get? root name).isSome := Option.isSome_of_eq_some ih.bound
    obtain ⟨same, free⟩ :=
      (Machine.tame_step discreet hides).shift.settled here (ih.free setting c rfl)
    refine ⟨?_, ?_⟩
    · have kept := congrArg (Option.map Prod.snd) same
      rw [← Namespace.get?_eq_map_binding?, ← Namespace.get?_eq_map_binding?] at kept
      exact kept.trans ih.bound
    · rintro _ _ ⟨⟩
      exact free
  | answered _ _ ih => exact ⟨ih.bound, fun _ _ never => by cases never⟩

/-- A load that completes settles its name. -/
theorem settled_of_completing {setting : Setting} {c : Config} {l : Load} (tidy : c.Tidy root)
    (here : l.globals = root) (completing : c.completing? = some l) :
    Phase.Settled root l.name (.space l.module) (.busy setting (Machine.step setting c)) := by
  obtain ⟨v, rest, control, stack⟩ := Config.completing?_eq_some.1 completing
  obtain ⟨distinct, bound⟩ := tidy
  rw [stack, loadsOf_cons_load here] at distinct bound
  have after : Machine.step setting c = ⟨.value (.space l.module), rest, c.store⟩ := by
    obtain ⟨own, waiting, s⟩ := c
    dsimp only at control stack
    subst control stack
    rfl
  rw [after]
  refine ⟨bound l List.mem_cons_self, ?_⟩
  rintro _ _ ⟨⟩
  exact (List.pairwise_cons.1 distinct).1

/-- **An import of a bound name** yields what it is bound to, whatever the files are. -/
theorem Machine.step_importAs {setting : Setting} {c : Config} {env : Env} {position : Position}
    {name target : String} {v : Value}
    (evaluated : c.control = .eval env (.importAs position [name] target))
    (globals : (c.store.runtime env.runtime).globals = root)
    (bound : c.store.get? root name = some v) :
    Machine.step setting c =
      ⟨.value v, .locate position :: .bind env.module target :: c.stack, c.store⟩ := by
  obtain ⟨control, stack, s⟩ := c
  dsimp only at evaluated globals bound
  subst evaluated
  have found : s.lookUpPath (s.runtime env.runtime).globals [name] = some v := globals ▸ bound
  show importPath setting env [name] _ s = _
  unfold importPath
  rw [found]

/-! ## Names to import -/

/-- The folded name that a path of one name is. -/
def singleName? : List String → Option String
  | [name] => some (Text.fold name)
  | _ => none

/-- The paths that may still be imported: by the code of a state, by the texts of the files and by the
functions that there are. -/
def Config.importable (setting : Setting) (c : Config) : List (List String) :=
  c.imports ++ (setting.files.imports ++ c.store.functions.toList.flatMap Callable.imports)

theorem Config.importable_step (setting : Setting) (c : Config) :
    ∀ p ∈ (Machine.step setting c).importable setting, p ∈ c.importable setting := by
  have leads := Machine.leads_step setting c
  have known (id : FunctionId) (f : Callable) (found : c.store.function? id = some f) (p : List String)
      (mem : p ∈ f.imports) : p ∈ c.importable setting := by
    refine List.mem_append_right _ (List.mem_append_right _ (List.mem_flatMap.2 ⟨f, ?_, mem⟩))
    exact Array.mem_toList_iff.2 (Array.mem_of_getElem? found)
  intro p mem
  rcases List.mem_append.1 mem with code | others
  · rcases leads.imports p code with before | files | ⟨id, f, found, own⟩
    · exact List.mem_append_left _ before
    · exact List.mem_append_right _ (List.mem_append_left _ files)
    · exact known id f found p own
  · rcases List.mem_append.1 others with files | functions
    · exact List.mem_append_right _ (List.mem_append_left _ files)
    · obtain ⟨f, among, own⟩ := List.mem_flatMap.1 functions
      obtain ⟨i, found⟩ := Array.mem_iff_getElem?.1 (Array.mem_toList_iff.1 among)
      rcases leads.functions ⟨i⟩ f found with before | ⟨env, template, evaluated, rfl⟩
      · exact known _ f before p own
      · refine List.mem_append_left _ (List.mem_append_left _ ?_)
        rw [evaluated]
        exact own

/-- **A load in progress was there or loads a name that could be imported.** -/
theorem Config.loads_iterate {setting : Setting} {c : Config} (discreet : setting.Discreet root)
    (hides : c.Hides root) (n : Nat) :
    ((Machine.step setting)^[n] c).Hides root ∧
      (∀ p ∈ ((Machine.step setting)^[n] c).importable setting, p ∈ c.importable setting) ∧
        ∀ l ∈ loadsOf root ((Machine.step setting)^[n] c).stack,
          l ∈ loadsOf root c.stack ∨ [l.name] ∈ c.importable setting := by
  induction n with
  | zero => exact ⟨hides, fun _ mem => mem, fun _ mem => .inl mem⟩
  | succ n ih =>
    obtain ⟨kept, importable, loads⟩ := ih
    rw [Function.iterate_succ_apply']
    have tame := Machine.tame_step discreet kept
    refine ⟨tame.hides, fun p mem => importable p (importable_step setting _ p mem), fun l mem => ?_⟩
    cases tame.shift with
    | quiet _ same => exact loads l (same ▸ mem)
    | begins m _ _ _ imports _ same =>
      rw [same] at mem
      rcases List.mem_cons.1 mem with rfl | before
      · exact .inr (importable _ (List.mem_append_left _ imports))
      · exact loads l before
    | completes m _ here _ stack _ =>
      refine loads l ?_
      rw [stack, loadsOf_cons_load here]
      exact List.mem_cons_of_mem _ mem
    | undoes m _ here _ stack _ =>
      refine loads l ?_
      rw [stack, loadsOf_cons_load here]
      exact List.mem_cons_of_mem _ mem

/-- **Loads of different names are no more than there are names.** -/
theorem length_loads_le {c : Config} (tidy : c.Tidy root) {before : List Load} {paths : List (List String)}
    (among : ∀ l ∈ loadsOf root c.stack, l ∈ before ∨ [l.name] ∈ paths) :
    (loadsOf root c.stack).length ≤ before.length + (paths.filterMap singleName?).dedup.length := by
  have distinct : ((loadsOf root c.stack).map fun l => Text.fold l.name).Nodup :=
    List.pairwise_map.2 tidy.distinct
  have subset : ((loadsOf root c.stack).map fun l => Text.fold l.name) ⊆
      (before.map fun l => Text.fold l.name) ++ (paths.filterMap singleName?).dedup := by
    intro key mem
    obtain ⟨l, loaded, rfl⟩ := List.mem_map.1 mem
    rcases among l loaded with there | imported
    · exact List.mem_append_left _ (List.mem_map_of_mem there)
    · exact List.mem_append_right _ (List.mem_dedup.2 (List.mem_filterMap.2 ⟨_, imported, rfl⟩))
  have fits := (distinct.subperm subset).length_le
  rwa [List.length_append, List.length_map, List.length_map] at fits

/-- **Imports come to an end.**  In a session that does not hand the root of the global names to scripts,
at every moment of every machine:

* the loads in progress have names that differ in more than letter case, and each name is bound to the
  module of its load;
* an import of a bound name yields what the name is bound to, whatever the files are;
* a load begins only of a name that is not bound, and so of none that is being loaded;
* when a load completes, its name stays bound to its module and is never loaded again as long as the host
  leaves the name alone, and imports of the name yield the module;
* and there are no more loads in progress than there were before and names that the code, the files and
  the functions import, however long the machine goes on. -/
theorem imports_bounded (root : NamespaceId) (s : Store) (hides : s.Hides root) (past : List Config)
    (setting : Setting) (c : Config)
    (course : Course (Discreetly root) (.idle s) past (.busy setting c)) :
    ((loadsOf root c.stack).Pairwise (fun l m => Text.fold l.name ≠ Text.fold m.name) ∧
      ∀ l ∈ loadsOf root c.stack, c.store.get? root l.name = some (.space l.module)) ∧
    (∀ env position name target v, c.control = .eval env (.importAs position [name] target) →
      (c.store.runtime env.runtime).globals = root → c.store.get? root name = some v →
        ∀ files, Machine.step { setting with files } c =
          ⟨.value v, .locate position :: .bind env.module target :: c.stack, c.store⟩) ∧
    (∀ l, loadsOf root (Machine.step setting c).stack = l :: loadsOf root c.stack →
      c.store.get? root l.name = none ∧
        ∀ m ∈ loadsOf root c.stack, Text.fold m.name ≠ Text.fold l.name) ∧
    (∀ l, c.completing? = some l → l.globals = root → ∀ later phase,
      Course (LeavingAlone root l.name) (.busy setting (Machine.step setting c)) later phase →
        phase.store.get? root l.name = some (.space l.module) ∧
        ∀ other d, phase = .busy other d →
          (∀ m ∈ loadsOf root d.stack, Text.fold m.name ≠ Text.fold l.name) ∧
          ∀ env position name target, d.control = .eval env (.importAs position [name] target) →
            (d.store.runtime env.runtime).globals = root → Text.fold name = Text.fold l.name →
              Machine.step other d = ⟨.value (.space l.module),
                .locate position :: .bind env.module target :: d.stack, d.store⟩) ∧
    ∀ n, (loadsOf root ((Machine.step setting)^[n] c).stack).length ≤
      (loadsOf root c.stack).length + ((c.importable setting).filterMap singleName?).dedup.length := by
  obtain ⟨discreet, hidden, tidy⟩ : Phase.Tidy root (.busy setting c) := Phase.Tidy.course course hides
  have tame := Machine.tame_step discreet hidden
  refine ⟨⟨tidy.distinct, tidy.bound⟩, ?_, ?_, ?_, ?_⟩
  · intro env position name target v evaluated globals bound files
    exact Machine.step_importAs evaluated globals bound
  · intro l loads
    have after := (tame.shift.tidy tidy).distinct
    rw [loads] at after
    exact ⟨tame.shift.unbound loads, fun m mem => ((List.pairwise_cons.1 after).1 m mem).symm⟩
  · intro l completing here later phase further
    have first : Phase.Tidy root (.busy setting (Machine.step setting c)) :=
      ⟨discreet, tame.hides, tame.shift.tidy tidy⟩
    obtain ⟨bound, free⟩ := Phase.Settled.course further first
      (settled_of_completing tidy here completing)
    refine ⟨bound, ?_⟩
    rintro other d rfl
    refine ⟨fun m mem => (free other d rfl m mem).symm, ?_⟩
    intro env position name target evaluated globals same
    refine Machine.step_importAs evaluated globals ?_
    rw [Store.get?_eq_space, Namespace.get?_congr _ same]
    exact bound
  · intro n
    obtain ⟨-, -, loads⟩ := Config.loads_iterate discreet hidden n
    have there : Phase.Tidy root (.busy setting ((Machine.step setting)^[n] c)) :=
      Phase.Tidy.course (course.trace n) hides
    exact length_loads_le there.2.2 loads

/-- The state of the machine for which the host with the library runs a file as a module of its own, after
a number of steps. -/
def Config.ofFile (files : Files) (path name : String) (n : Nat) : Option Config :=
  match Request.begin (defaultHost files).1 (defaultHost files).2.1
    (.fileAs (defaultHost files).2.2 path name) with
  | .running c => some ((Machine.step (defaultHost files).1)^[n] c)
  | .done _ _ => none

theorem Config.course_ofFile {files : Files} {path name : String} {n : Nat} {c : Config}
    (h : ofFile files path name n = some c) : ∃ past, Course (Discreetly root)
      (.idle (defaultHost files).2.1) past (.busy (defaultHost files).1 c) := by
  have allowed : Discreetly root (defaultHost files).1 (defaultHost files).2.1
      (.fileAs (defaultHost files).2.2 path name) := ⟨discreet_defaultHost files, trivial⟩
  unfold ofFile at h
  split at h
  next first begins =>
    obtain rfl := Option.some.inj h
    exact ⟨_, (Course.start.begun allowed begins).trace n⟩
  next => cases h

/-- Two files that import each other. -/
def Files.cyclic : Files :=
  ⟨"/r", [], [(["a.brisk"], some "import b; var x = 1"), (["b.brisk"], some "import a")], []⟩

/-- The second of two files that import each other, as its load completes while the first is being
loaded; its name is still bound to it when the first has been loaded. -/
theorem imports_bounded_cyclic :
    ∃ c l, Config.ofFile .cyclic "a.brisk" "a" 5 = some c ∧ c.completing? = some l ∧ l.name = "b" ∧
      ((loadsOf ⟨0⟩ c.stack).map Load.name = ["b", "a"]) ∧
      (loadsOf ⟨0⟩ c.stack).Pairwise (fun l m => Text.fold l.name ≠ Text.fold m.name) ∧
      ((Machine.step (defaultHost .cyclic).1)^[8] (Machine.step (defaultHost .cyclic).1 c)).store.get?
        ⟨0⟩ "b" = some (.space l.module) := by
  have globals : ((defaultHost .cyclic).2.1.runtime (defaultHost .cyclic).2.2).globals = ⟨0⟩ := by
    decide +kernel
  have ends : (Config.ofFile .cyclic "a.brisk" "a" 5).any fun c =>
      decide ((loadsOf ⟨0⟩ c.stack).map Load.name = ["b", "a"] ∧
        c.completing?.map (fun l => (l.name, l.globals)) = some ("b", ⟨0⟩)) := by decide +kernel
  obtain ⟨c, reached, checked⟩ := (Option.any_eq_true _ _).1 ends
  obtain ⟨names, completes⟩ := of_decide_eq_true checked
  obtain ⟨l, completing, both⟩ := Option.map_eq_some_iff.1 completes
  obtain ⟨name, here⟩ := Prod.mk.inj both
  obtain ⟨past, course⟩ := Config.course_ofFile reached
  have hides := hides_defaultHost .cyclic
  rw [globals] at hides
  obtain ⟨⟨distinct, -⟩, -, -, completed, -⟩ := imports_bounded ⟨0⟩ _ hides _ _ c course
  obtain ⟨bound, -⟩ := completed l completing here _ _ (Course.start.trace 8)
  exact ⟨c, l, reached, completing, name, names, distinct, name ▸ bound⟩

end HostScript
