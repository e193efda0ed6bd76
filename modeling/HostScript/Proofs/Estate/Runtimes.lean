import HostScript.Proofs.Dispatch.Caches
import HostScript.Proofs.Estate.Built
import HostScript.Proofs.Estate.Library
import HostScript.Proofs.Machine.Homes
import HostScript.Proofs.Machine.OneRuntime

/-!
# Proofs/Estate/Runtimes — runtimes do not interfere

A runtime that is built beside another one is apart from it, and what is done to it apart from the other one
changes nothing there, however long it goes on.  Only functions lead from one to the other, and they carry
their own runtime along: who calls a function has no part in what its code means.
-/

namespace HostScript

/-- **Runtimes do not interfere.**

* The global names of a runtime that has been built are a tree that is there.
* A runtime `b` that is built beside a runtime `a` leaves it unchanged, and has been handed nothing from
  which references lead to the global names of `a`, if none of its instances is such a thing.
* While a host works on a runtime `b` that has been handed nothing of that kind, hands over nothing of that
  kind, and no function that `a` has made is called, what `a` offers, what has been decided for it and the
  tree of its global names stay what they are.
* A function that is made in a module for a runtime runs there whenever and by whomever it is called, as long
  as the runtime is alive: it begins in a new activation, no code ever works in this activation but in that
  module and for that runtime, and all that is resolved there is resolved against this runtime. -/
theorem runtimes_do_not_interfere (registry : Registry) :
    (∀ (s t : Store) (libraries : List (List TypeInfo)) (instances : List HostObject) (extension : String)
      (a : RuntimeId), s.buildRuntime registry libraries instances extension = (a, t) → t.Rooted a) ∧
    (∀ (s t : Store) (libraries : List (List TypeInfo)) (instances : List HostObject) (extension : String)
      (a b : RuntimeId), s.Rooted a → a.index < s.runtimes.size →
      (∀ o ∈ instances, ¬s.estateOf a (.payload o.payload)) →
      s.buildRuntime registry libraries instances extension = (b, t) →
        t.Rooted a ∧ ¬t.estateOf a (.runtime b) ∧ s.Unchanged a t) ∧
    (∀ (a b : RuntimeId) (s : Store) (past : List Config) (phase : Phase),
      s.Rooted a → ¬s.estateOf a (.runtime b) → Course (Request.Apart a b) (.idle s) past phase →
      (∀ c ∈ past, ¬c.Enters a) → s.Unchanged a phase.store) ∧
    ∀ (setting : Setting) (c : Config) (env : Env) (template : Template Code), Moment registry setting c →
      c.control = .eval env (.closure template) →
      ∃ info, (Machine.step setting c).control = .value (.function info) ∧
        ∀ (past : List Config) (later : Setting) (d : Config) (function : FunctionInfo) (args : List Value),
          Course (Over registry) (.busy setting (Machine.step setting c)) past (.busy later d) →
          d.control = .enter function args → function.id = info.id →
          (d.store.runtime env.runtime).alive = true →
          let home : Env := ⟨⟨d.store.frames.size⟩, env.module, env.runtime⟩
          (Machine.step later d).control = .eval home template.body ∧
            ∀ n, let e := (Machine.step later)^[n] (Machine.step later d)
              (∀ inner ∈ e.envs, inner.frame = home.frame → inner = home) ∧
              ∀ inner, e.control.env? = some inner → inner.frame = home.frame →
                Machine.Resolves later env.runtime e := by
  refine ⟨fun s t libraries instances extension a built => ?_,
    fun s t libraries instances extension a b rooted there outside built => ?_,
    fun a b s past phase rooted away course foreign =>
      (course.apart rooted away foreign).unchanged, ?_⟩
  · obtain ⟨rfl, rfl⟩ := Prod.mk.inj built
    exact s.rooted_buildRuntime registry libraries instances extension
  · obtain ⟨rfl, rfl⟩ := Prod.mk.inj built
    exact Store.apart_buildRuntime rooted there registry libraries extension outside
  intro setting c env template moment evaluates
  obtain ⟨control, stack, s⟩ := c
  obtain ⟨frame, module, rt⟩ := env
  dsimp only at evaluates
  subst evaluates
  refine ⟨_, rfl, ?_⟩
  intro past later d function args course enters same alive
  have next := moment.step
  have made :
      (Machine.step setting ⟨.eval ⟨frame, module, rt⟩ (.closure template), stack, s⟩).store.function?
        ⟨s.functions.size⟩ = some (.script template frame module rt) := Array.getElem?_push_size
  have is_script : d.store.function? function.id = some (.script template frame module rt) :=
    same ▸ course.keepsFunctions _ _ made
  obtain ⟨shared, housed⟩ := (Invariant.housed registry).course course
    ⟨next.registry_eq, (Invariant.housed registry).moment next⟩
  obtain ⟨runs, houses⟩ := Machine.home_enter housed enters is_script alive
  refine ⟨runs, fun n => ⟨(Machine.houses_iterate houses n).only, fun inner works there => ?_⟩⟩
  -- The rules of all runtimes are still faithful, so what they decide is what is chosen now.
  obtain ⟨-, faithful⟩ := (Invariant.faithful registry).course (course.step.trace n)
    ⟨next.registry_eq, (Invariant.faithful registry).moment next⟩
  have inside : inner ∈ ((Machine.step later)^[n] (Machine.step later d)).envs :=
    List.mem_append_left _ (Option.mem_toList.2 works)
  obtain rfl := (Machine.houses_iterate houses n).only inner inside there
  have resolves := Machine.resolves_step works (shared ▸ faithful)
  exact resolves

/-! ## Two runtimes -/

/-- Two runtimes that are built one after the other, the first of them with a type in its global names, and
then a module for each. -/
def Turn.neighbours : List Turn :=
  let ask (request : Request) : Turn := ⟨⟨.initial, #[], .empty⟩, 0, request⟩
  [ask (.build [[metaInfo]] [] defaultExtension), ask (.build [] [] defaultExtension),
    ask (.change fun h => h.newSpace.2.newSpace.2)]

/-- The first of the runtimes on its own. -/
def Store.single : Store := (Store.empty.buildRuntime .initial [[metaInfo]] [] defaultExtension).2

/-- The two runtimes side by side. -/
def Store.neighbours : Store := (single.buildRuntime .initial [] [] defaultExtension).2

theorem Turn.registry_neighbours : ∀ turn ∈ neighbours, turn.setting.registry = .initial := by
  intro turn mem
  simp only [neighbours, List.mem_cons, List.not_mem_nil, or_false] at mem
  rcases mem with rfl | rfl | rfl <;> rfl

namespace Control

/-- The function that is about to be entered. -/
def entered? : Control → Option FunctionInfo
  | .enter function _ => some function
  | _ => none

/-- The environment in which a function is about to be made. -/
def making? : Control → Option Env
  | .eval env (.closure _) => some env
  | _ => none

/-- The function that is the value. -/
def function? : Control → Option FunctionInfo
  | .value (.function info) => some info
  | _ => none

variable {control : Control}

theorem exists_of_entered? {function : FunctionInfo} (enters : control.entered? = some function) :
    ∃ args, control = .enter function args := by
  unfold entered? at enters
  split at enters
  next function args =>
    obtain rfl := Option.some.inj enters
    exact ⟨args, rfl⟩
  next => cases enters

theorem exists_of_making? {env : Env} (makes : control.making? = some env) :
    ∃ template, control = .eval env (.closure template) := by
  unfold making? at makes
  split at makes
  next template =>
    obtain rfl := Option.some.inj makes
    exact ⟨template, rfl⟩
  next => cases makes

end Control

/-- The state after a number of steps for a request that follows on an answer. -/
def Config.next? (setting : Setting) (c : Config) (request : Request) (n : Nat) : Option Config :=
  if (Machine.answer? c).isSome then
    (request.begin setting c.store).config?.map (Machine.step setting)^[n]
  else none

theorem Course.next {setting : Setting} {start : Phase} {past : List Config} {c d : Config}
    {request : Request} {n : Nat}
    (course : Course (Over setting.registry) start past (.busy setting c))
    (next : c.next? setting request n = some d) :
    ∃ past, Course (Over setting.registry) start past (.busy setting d) := by
  unfold Config.next? at next
  split at next
  next answered =>
    obtain ⟨answer, found⟩ := Option.isSome_iff_exists.1 answered
    obtain ⟨first, begun, rfl⟩ := Option.map_eq_some_iff.1 next
    unfold Begun.config? at begun
    split at begun
    next => cases begun
    next begins =>
      obtain rfl := Option.some.inj begun
      exact ⟨_, ((course.answered found).begun rfl begins).trace n⟩
  next => cases next

/-- A sum that is computed for the second runtime, in a module that has been made after both were built,
leaves the first one unchanged; and a function that is made for the first runtime and called by code of the
second one runs for the first. -/
theorem runtimes_do_not_interfere_neighbours :
    (Store.empty.buildRuntime .initial [[metaInfo]] [] defaultExtension = (⟨0⟩, .single) ∧
      Store.single.buildRuntime .initial [] [] defaultExtension = (⟨1⟩, .neighbours) ∧
      Store.single.Unchanged ⟨0⟩ .neighbours ∧
      ∃ past c, Course (Request.Apart ⟨0⟩ ⟨1⟩) (.idle .neighbours) past
          (.busy ⟨.initial, #[], .empty⟩ c) ∧
        (c.store.rules ⟨1⟩).count .binary = (1, 1) ∧ Store.neighbours.Unchanged ⟨0⟩ c.store) ∧
    ∃ c template info args d home, Moment .initial ⟨.initial, #[], .empty⟩ c ∧
      c.control = .eval ⟨⟨0⟩, ⟨3⟩, ⟨0⟩⟩ (.closure template) ∧ d.control = .enter info args ∧
      (∃ env ∈ d.envs, env.runtime = ⟨1⟩) ∧ home.module = ⟨3⟩ ∧ home.runtime = ⟨0⟩ ∧
      (Machine.step ⟨.initial, #[], .empty⟩ d).control = .eval home template.body ∧
      ((Machine.step ⟨.initial, #[], .empty⟩)^[6] d).control.env? = some home ∧
      Machine.Resolves ⟨.initial, #[], .empty⟩ ⟨0⟩ ((Machine.step ⟨.initial, #[], .empty⟩)^[6] d) := by
  let setting : Setting := ⟨.initial, #[], .empty⟩
  obtain ⟨there, beside, apart, home⟩ := runtimes_do_not_interfere .initial
  constructor
  · have first : Store.empty.buildRuntime .initial [[metaInfo]] [] defaultExtension = (⟨0⟩, .single) := rfl
    have second : Store.single.buildRuntime .initial [] [] defaultExtension = (⟨1⟩, .neighbours) := rfl
    have alone := there _ _ _ _ _ _ first
    obtain ⟨rooted, away, kept⟩ := beside _ _ _ _ _ _ _ alone (by decide) (List.forall_mem_nil _) second
    refine ⟨first, second, kept, ?_⟩
    -- The modules are new, so they are no part of the estate of the first runtime.
    let t : Store := Store.neighbours.changeHeap fun h => h.newSpace.2.newSpace.2
    have fenced := Store.fenced_estateOf rooted
    have module := fenced.heap.newSpace.2.fenced.newSpace
    obtain ⟨-, others⟩ := (fenced.onHeap (fenced.heap.newSpace.2.trans module.2)).apart
      fun _ _ => Store.estateOf_of_walk
    have respects (s : Store) : setting.Respects (s.estateOf ⟨0⟩) :=
      ⟨Registry.respects_initial, fun _ never => absurd never (Array.not_mem_empty _)⟩
    have modules : Request.Apart ⟨0⟩ ⟨1⟩ setting .neighbours (.change fun h => h.newSpace.2.newSpace.2) :=
      ⟨trivial, respects _, fun h fenced => fenced.newSpace.2.trans fenced.newSpace.2.fenced.newSpace.2⟩
    have sum : Request.Apart ⟨0⟩ ⟨1⟩ setting t (.source ⟨1⟩ ⟨4⟩ "1 + 2") :=
      ⟨rfl, respects _, others _ module.1⟩
    have ends : (Request.begin setting t (.source ⟨1⟩ ⟨4⟩ "1 + 2")).config?.any fun c =>
        ((Machine.trace setting c 8).all fun c => c.control.entered?.isNone) &&
          decide ((((Machine.step setting)^[8] c).store.rules ⟨1⟩).count .binary = (1, 1)) := by
      decide +kernel
    cases begins : Request.begin setting t (.source ⟨1⟩ ⟨4⟩ "1 + 2") with
    | done answer s =>
      rw [begins] at ends
      cases ends
    | running c =>
      rw [begins] at ends
      obtain ⟨never, counted⟩ := Bool.and_eq_true_iff.1 ends
      have course := (Course.begun (.done .start modules rfl) sum begins).trace 8
      refine ⟨_, _, course, of_decide_eq_true counted, apart _ _ _ _ _ rooted away course ?_⟩
      rintro d mem ⟨function, args, _, _, _, enters, -⟩
      rw [List.append_nil] at mem
      have quiet := List.all_eq_true.1 never d mem
      rw [enters] at quiet
      cases quiet
  · have ends : (Turn.stateAfter Turn.neighbours setting
          (.source ⟨0⟩ ⟨3⟩ "lambda () { 1 + 2 }") 0).any fun c =>
        c.control.making? = some ⟨⟨0⟩, ⟨3⟩, ⟨0⟩⟩ ∧
          (Machine.step setting c).control.function? = some ⟨⟨0⟩, "lambda", 0⟩ ∧
          ((Machine.step setting c).next? setting
            (.source ⟨1⟩ ⟨4⟩ "lambda (g) { g() + 4 }") 1).any fun c =>
            (c.next? setting
              (.call ⟨⟨1⟩, "lambda", 1⟩ [.function ⟨⟨0⟩, "lambda", 0⟩]) 6).any fun d =>
              d.control.entered? = some ⟨⟨0⟩, "lambda", 0⟩ ∧ d.envs.any (·.runtime = ⟨1⟩) ∧
                (d.store.runtime ⟨0⟩).alive ∧ ((Machine.step setting)^[6] d).control.env? =
                  some ⟨⟨d.store.frames.size⟩, ⟨3⟩, ⟨0⟩⟩ := by
      decide +kernel
    obtain ⟨c, first, ends⟩ := (Option.any_eq_true _ _).1 ends
    obtain ⟨making, value, ends⟩ := of_decide_eq_true ends
    obtain ⟨second, begun, ends⟩ := (Option.any_eq_true _ _).1 ends
    obtain ⟨d, called, ends⟩ := (Option.any_eq_true _ _).1 ends
    obtain ⟨entered, waits, alive, works⟩ := of_decide_eq_true ends
    have moment : Moment .initial setting c := Turn.moment_stateAfter Turn.registry_neighbours rfl first
    obtain ⟨template, makes⟩ := Control.exists_of_making? making
    obtain ⟨args, enters⟩ := Control.exists_of_entered? entered
    obtain ⟨info, made, runs⟩ := home setting c _ template moment makes
    obtain rfl : info = ⟨⟨0⟩, "lambda", 0⟩ := by
      rw [made] at value
      exact Option.some.inj value
    have here : Course (Over .initial) (.busy setting (Machine.step setting c)) []
        (.busy setting (Machine.step setting c)) := .start
    obtain ⟨_, earlier⟩ := here.next begun
    obtain ⟨_, course⟩ := earlier.next called
    obtain ⟨begins, resolves⟩ := runs _ setting d _ _ course enters rfl alive
    obtain ⟨env, mem, other⟩ := List.any_eq_true.1 waits
    refine ⟨c, template, _, args, d, _, moment, makes, enters, ⟨env, mem, of_decide_eq_true other⟩, rfl, rfl,
      begins, works, ?_⟩
    exact (resolves 5).2 _ works rfl

end HostScript
