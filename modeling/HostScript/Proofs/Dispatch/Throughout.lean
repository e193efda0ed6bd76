import HostScript.Proofs.Dispatch.Faithful
import HostScript.Proofs.Machine.Transitions

/-!
# Proofs/Dispatch/Throughout — rules stay faithful in all sessions

Each step of a machine and each request of a host keeps the rules of all runtimes faithful; so they
are faithful at every moment of every session, which is the invariant `Invariant.faithful`.
-/

namespace HostScript

variable {registry : Registry}

/-! ## Building a runtime -/

namespace Store

variable {s t : Store}

/-- A store with one more runtime, for which nothing has been decided. -/
def WithNewRuntime (s t : Store) : Prop :=
  ∃ runtime : Runtime, runtime.rules = .empty ∧ t.runtimes = s.runtimes.push runtime

namespace WithNewRuntime

theorem of_runtimes {u : Store} (h : WithNewRuntime s t) (same : u.runtimes = t.runtimes) :
    WithNewRuntime s u := by
  obtain ⟨runtime, undecided, pushed⟩ := h
  exact ⟨runtime, undecided, same.trans pushed⟩

theorem changeRuntime (h : WithNewRuntime s t) {f : Runtime → Runtime}
    (kept : ∀ runtime, (f runtime).rules = runtime.rules) :
    WithNewRuntime s (t.changeRuntime ⟨s.runtimes.size⟩ f) := by
  obtain ⟨runtime, undecided, pushed⟩ := h
  refine ⟨f runtime, (kept runtime).trans undecided, ?_⟩
  have changed : (t.changeRuntime ⟨s.runtimes.size⟩ f).runtimes = t.runtimes.modify s.runtimes.size f :=
    rfl
  rw [changed, pushed]
  apply Array.ext_getElem?
  intro i
  rw [Array.getElem?_modify, Array.getElem?_push, Array.getElem?_push]
  by_cases last : s.runtimes.size = i
  · rw [if_pos last, if_pos last.symm, if_pos last.symm]
    rfl
  · rw [if_neg last, if_neg (Ne.symm last), if_neg (Ne.symm last)]

theorem publish (h : WithNewRuntime s t) (info : TypeInfo) :
    WithNewRuntime s (t.publish ⟨s.runtimes.size⟩ info) := by
  unfold Store.publish
  dsimp only
  have listed : WithNewRuntime s (t.changeRuntime ⟨s.runtimes.size⟩ fun runtime =>
      if info.primitive?.isSome && !(runtime.bound.any (·.id = info.id)) then
        { runtime with bound := runtime.bound ++ [info] }
      else runtime) :=
    h.changeRuntime fun runtime => by split <;> rfl
  split
  next found => exact listed.of_runtimes (congrArg (fun p => p.2.runtimes) found).symm
  next found => exact listed.of_runtimes (congrArg (fun p => p.2.runtimes) found).symm

theorem binds (h : WithNewRuntime s t) (space : NamespaceId) (v : Value) (methods : List Method) :
    WithNewRuntime s (methods.foldl (fun t m => t.bind space m.name v) t) := by
  induction methods generalizing t with
  | nil => exact h
  | cons m rest ih => exact ih (h.of_runtimes rfl)

theorem inject (h : WithNewRuntime s t) (registry : Registry) (object : HostObject) :
    WithNewRuntime s (t.inject registry ⟨s.runtimes.size⟩ object) := by
  unfold Store.inject
  dsimp only
  refine changeRuntime ?_ fun _ => rfl
  split
  next found => exact (h.of_runtimes (congrArg (fun p => p.2.runtimes) found).symm).binds _ _ _
  next found => exact h.of_runtimes (congrArg (fun p => p.2.runtimes) found).symm

end WithNewRuntime

/-- Building a runtime adds it and leaves the others as they are. -/
theorem withNewRuntime_buildRuntime (s : Store) (registry : Registry)
    (libraries : List (List TypeInfo)) (instances : List HostObject) (extension : String) :
    WithNewRuntime s (s.buildRuntime registry libraries instances extension).2 := by
  unfold buildRuntime
  dsimp only
  have publishes : ∀ (infos : List TypeInfo) {t : Store}, WithNewRuntime s t →
      WithNewRuntime s (infos.foldl (fun t info => t.publish ⟨s.runtimes.size⟩ info) t) := by
    intro infos
    induction infos with
    | nil => exact fun h => h
    | cons info rest ih => exact fun h => ih (h.publish info)
  have injects : ∀ (objects : List HostObject) {t : Store}, WithNewRuntime s t →
      WithNewRuntime s (objects.foldl (fun t o => t.inject registry ⟨s.runtimes.size⟩ o) t) := by
    intro objects
    induction objects with
    | nil => exact fun h => h
    | cons object rest ih => exact fun h => ih (h.inject registry object)
  exact injects _ (publishes _ ⟨_, rfl, rfl⟩)

theorem WithNewRuntime.faithful (added : WithNewRuntime s t) (h : s.Faithful registry) :
    t.Faithful registry := by
  obtain ⟨runtime, undecided, pushed⟩ := added
  intro rt
  have found : t.runtime rt = if rt.index = s.runtimes.size then runtime else s.runtime rt := by
    unfold Store.runtime
    rw [pushed, Array.getElem?_push]
    split <;> rfl
  rw [found]
  split
  · rw [undecided]
    exact Rules.faithful_empty
  · exact h rt

end Store

/-! ## Steps of a machine -/

namespace Machine

variable {setting : Setting} {env : Env} {stack : List Pending} {s : Store}

/-- Evaluating code works on no runtime, but for an import. -/
theorem runtimes_eval (code : Code) (other : ∀ position path name, code ≠ .importAs position path name) :
    (eval setting env code stack s).store.runtimes = s.runtimes := by
  cases code with
  | importAs position path name => exact absurd rfl (other position path name)
  | dispatch _ _ operands => cases operands <;> rfl
  | choose branches _ => cases branches <;> rfl
  | sequence codes => cases codes <;> rfl
  | _ => rfl

theorem runtimes_resume (v : Value) (waiting : Pending) :
    (resume v waiting stack s).store.runtimes = s.runtimes := by
  cases waiting with
  | write frame slot => exact s.runtimes_writeSlot frame slot v
  | operands _ _ _ _ todo => cases todo <;> rfl
  | sequence _ codes => cases codes <;> rfl
  | test =>
    rw [resume_test]
  | _ => rfl

theorem runtimes_unwind (e : Exit) (waiting : Pending) :
    (unwind e waiting stack s).store.runtimes = s.runtimes := by
  match e, waiting, unwind e waiting stack s, unwindsTo e waiting stack s with
  | _, _, _, .undone => exact s.runtimes_undoLoad _
  | _, _, _, .left | _, _, _, .returned | _, _, _, .located | _, _, _, .failed _ | _, _, _, .passed _ => rfl

theorem runtimes_enter (function : FunctionInfo) (args : List Value) :
    (enter setting function args stack s).store.runtimes = s.runtimes := by
  match enter setting function args stack s, entersTo setting function args stack s with
  | _, .native .. | _, .noNative .. | _, .script .. | _, .dropped .. | _, .noFunction .. => rfl

/-- A step from a dynamic operation leaves what the operation leaves. -/
theorem store_step_dispatch (signature : Signature) (args : List Value) :
    (step setting ⟨.dispatch env signature args, stack, s⟩).store =
      (s.dispatch setting.registry env.runtime env.module signature args).2 := by
  have comes := stepsTo setting ⟨.dispatch env signature args, stack, s⟩
  generalize step setting _ = after at comes ⊢
  cases comes with
  | replies done | handsOver done => exact congrArg Prod.snd done.symm
  | rests answered => cases answered

/-- **What a step does to runtimes**: a step that is no import and no operation leaves them. -/
theorem runtimes_step (setting : Setting) (c : Config) :
    (step setting c).store.runtimes = c.store.runtimes ∨
      (∃ env position path name, c.control = .eval env (.importAs position path name)) ∨
      ∃ env signature args, c.control = .dispatch env signature args := by
  match c, step setting c, stepsTo setting c with
  | ⟨.eval env code, _, _⟩, _, .evaluates =>
    by_cases imports : ∃ position path name, code = .importAs position path name
    · obtain ⟨position, path, name, rfl⟩ := imports
      exact .inr (.inl ⟨env, position, path, name, rfl⟩)
    · exact .inl (runtimes_eval code fun position path name same => imports ⟨position, path, name, same⟩)
  | _, _, .replies _ | _, _, .handsOver _ => exact .inr (.inr ⟨_, _, _, rfl⟩)
  | _, _, .enters => exact .inl (runtimes_enter _ _)
  | _, _, .resumes => exact .inl (runtimes_resume _ _)
  | _, _, .unwinds => exact .inl (runtimes_unwind _ _)
  | _, _, .rests _ => exact .inl rfl

theorem faithful_importPath (h : s.Faithful registry) (path : List String) :
    (importPath setting env path stack s).store.Faithful registry := by
  have loading (name : String) : (s.beginLoad env.runtime name).2.Faithful registry := h.of_runtimes rfl
  match importPath setting env path stack s, importsTo setting env path stack s with
  | _, .bound _ | _, .missing _ _ => exact h
  | _, .starts file | _, .refused file => exact (loading _).startFile file.started

/-- **A step keeps rules faithful.** -/
theorem faithful_step {c : Config} (h : c.store.Faithful setting.registry) :
    (step setting c).store.Faithful setting.registry := by
  obtain ⟨control, stack, s⟩ := c
  rcases runtimes_step setting ⟨control, stack, s⟩ with
    same | ⟨env, position, path, name, rfl⟩ | ⟨env, signature, args, rfl⟩
  · exact h.of_runtimes same
  · exact faithful_importPath h path
  · rw [store_step_dispatch]
    exact h.dispatch env.runtime env.module signature args

end Machine

/-! ## Sessions -/

/-- What a store and the state of a machine have in common: a store. -/
def Begun.store : Begun → Store
  | done _ s => s
  | running c => c.store

theorem Request.faithful_begin {setting : Setting} {s : Store} (h : s.Faithful setting.registry)
    (request : Request) : (request.begin setting s).store.Faithful setting.registry := by
  have loading (rt : RuntimeId) (name : String) : (s.beginLoad rt name).2.Faithful setting.registry :=
    h.of_runtimes rfl
  match request, request.begin setting s, request.beginsAs setting s with
  | _, _, .build => exact (s.withNewRuntime_buildRuntime _ _ _ _).faithful h
  | _, _, .drop => exact h.changeRuntime _ (h _)
  | _, _, .change | _, _, .offer | _, _, .effect => exact h.of_runtimes rfl
  | _, _, .source prepared => exact (h.prepare prepared).of_runtimes rfl
  | _, _, .noSource prepared => exact h.prepare prepared
  | _, _, .fileIn started | _, _, .noFileIn started => exact h.startFile started
  | _, _, .fileAs started => exact (loading _ _).startFile started
  | _, _, .noFileAs started =>
    exact ((loading _ _).startFile started).of_runtimes (Store.runtimes_undoLoad _ _)
  | _, _, .call => exact h

/-- **Rules are faithful throughout sessions.** -/
theorem Invariant.faithful (registry : Registry) :
    Invariant registry (·.Faithful registry) fun _ c => c.store.Faithful registry where
  start := Store.faithful_empty
  begun setting s request := by
    rintro rfl h
    have kept := request.faithful_begin h
    cases found : request.begin setting s with
    | done answer after =>
      rw [found] at kept
      exact kept
    | running c =>
      rw [found] at kept
      exact kept
  step setting c := by
    rintro rfl h
    exact Machine.faithful_step h
  finish _ _ _ h _ := h

end HostScript
