import HostScript.Proofs.Dispatch.Ledger
import HostScript.Proofs.Machine.Sound

/-!
# Proofs/Machine/Entries — what machines write into the ledger of rules

Of the steps of a machine only imports and dynamic operations work on runtimes, and of the requests of a
host those that run sources.  Each changes the rules of all runtimes as its events say
(`Machine.records_step`, `Request.records_begin`).
-/

namespace HostScript

/-! ## Steps -/

namespace Machine

/-- **What a step does to rules.** -/
def cacheEvents (setting : Setting) (c : Config) : List CacheEvent :=
  match c.control with
  | .eval env (.importAs _ path _) => c.store.importEvents setting.files env path
  | .dispatch env s args =>
    .ran env.runtime s (args.map Value.shape) ::
      match (c.store.dispatch setting.registry env.runtime env.module s args).1 with
      | .dispatch other _ => [.called env.runtime other]
      | .reply _ => []
  | _ => []

variable {setting : Setting} {env : Env} {stack : List Pending} {s : Store} {rt : RuntimeId}

theorem size_importPath (path : List String) :
    (importPath setting env path stack s).store.runtimes.size = s.runtimes.size := by
  match importPath setting env path stack s, importsTo setting env path stack s with
  | _, .bound _ | _, .missing _ _ => rfl
  | _, .starts file | _, .refused file => exact (Store.size_startFile file.started :)

theorem records_importPath (exist : env.runtime.index < s.runtimes.size) (path : List String) :
    Records rt (s.importEvents setting.files env path) (s.rules rt)
      ((importPath setting env path stack s).store.rules rt) := by
  have started {name : String} {result : Except ScriptError Control} {t : Store}
      (file : FindsFile setting env path s name result t) :
      Records rt (s.importEvents setting.files env path) (s.rules rt) (t.rules rt) := by
    rw [Store.importEvents_of_findsFile file]
    exact (Store.records_startFile (s := (s.beginLoad _ _).2) rt exist file.started :)
  match importPath setting env path stack s, importsTo setting env path stack s with
  | _, .bound found =>
    rw [Store.importEvents_of_bound found]
    rfl
  | _, .missing unbound noFile =>
    rw [Store.importEvents_of_missing unbound noFile]
    rfl
  | _, .starts file | _, .refused file => exact started file

/-- The runtime that a step works on. -/
def runtime? : Control → Option RuntimeId
  | .eval env (.importAs _ _ _) | .dispatch env _ _ => some env.runtime
  | _ => none

/-- A step keeps the number of runtimes. -/
theorem size_step (setting : Setting) (c : Config) :
    (step setting c).store.runtimes.size = c.store.runtimes.size := by
  obtain ⟨control, stack, s⟩ := c
  rcases runtimes_step setting ⟨control, stack, s⟩ with
    same | ⟨env, position, path, name, rfl⟩ | ⟨env, signature, args, rfl⟩
  · exact congrArg Array.size same
  · exact size_importPath path
  · rw [store_step_dispatch, Store.size_dispatch]

/-- What is handed over changes no rules. -/
theorem records_handed (a : Rules) (there : RuntimeId) (outcome : Outcome) :
    Records rt
      (match outcome with
        | .dispatch other _ => [.called there other]
        | .reply _ => [])
      a a := by
  cases outcome with
  | reply r => rfl
  | dispatch other args =>
    refine .single ?_
    by_cases here : there = rt
    · exact here ▸ .called other
    · exact .elsewhere here

/-- **A step changes rules as its events say.** -/
theorem records_step (setting : Setting) (rt : RuntimeId) {c : Config}
    (exist : ∀ there, runtime? c.control = some there → there.index < c.store.runtimes.size) :
    Records rt (cacheEvents setting c) (c.store.rules rt) ((step setting c).store.rules rt) := by
  obtain ⟨control, stack, s⟩ := c
  by_cases imports : ∃ env position path name, control = .eval env (.importAs position path name)
  · obtain ⟨env, position, path, name, rfl⟩ := imports
    exact records_importPath (exist _ rfl) path
  by_cases operates : ∃ env signature args, control = .dispatch env signature args
  · obtain ⟨env, signature, args, rfl⟩ := operates
    have ran : Records rt [.ran env.runtime signature (args.map Value.shape)] (s.rules rt)
        ((s.dispatch setting.registry env.runtime env.module signature args).2.rules rt) := by
      rw [Store.rules_of_runtimes (s.runtimes_dispatch setting.registry env.module signature args _)]
      exact .single (Store.changes_decide (exist _ rfl) setting.registry signature args)
    rw [store_step_dispatch]
    exact ran.append (records_handed _ _ _)
  · have quiet : cacheEvents setting ⟨control, stack, s⟩ = [] := by
      unfold cacheEvents
      split
      next env position path name same => exact absurd ⟨env, position, path, name, same⟩ imports
      next env signature args same => exact absurd ⟨env, signature, args, same⟩ operates
      next => rfl
    rw [quiet]
    rcases runtimes_step setting ⟨control, stack, s⟩ with same | there | there
    · exact Store.rules_of_runtimes same rt
    · exact absurd there imports
    · exact absurd there operates

end Machine

/-! ## Requests -/

namespace Request

/-- **What a request does to rules**: the source that is run is compiled. -/
def cacheEvents (setting : Setting) : Request → List CacheEvent
  | .source rt _ text => [.lowered rt text]
  | .fileIn rt _ path | .fileAs rt path _ => setting.files.cacheEvents rt path
  | _ => []

/-- The runtime that is asked to run a source, if the request is one to run a source. -/
def runtime? : Request → Option RuntimeId
  | .source rt _ _ | .fileIn rt _ _ | .fileAs rt _ _ => some rt
  | _ => none

/-- The runtime that is asked to run a source is there. -/
def Addressed (s : Store) (request : Request) : Prop :=
  ∀ rt, request.runtime? = some rt → rt.index < s.runtimes.size

variable {setting : Setting} {s : Store} {rt : RuntimeId}

/-- Runtimes stay. -/
theorem size_begin (setting : Setting) (s : Store) (request : Request) :
    s.runtimes.size ≤ (request.begin setting s).store.runtimes.size := by
  match request, request.begin setting s, request.beginsAs setting s with
  | .build libraries instances extension, _, .build =>
    obtain ⟨runtime, -, pushed⟩ :=
      s.withNewRuntime_buildRuntime setting.registry libraries instances extension
    unfold Begun.store
    dsimp only
    rw [pushed, Array.size_push]
    exact Nat.le_succ _
  | _, _, .drop => exact Nat.le_of_eq Array.size_modify.symm
  | _, _, .change | _, _, .offer | _, _, .call | _, _, .effect => exact Nat.le_refl _
  | _, _, .source prepared => exact Nat.le_of_eq (Store.size_prepare prepared).symm
  | _, _, .noSource prepared => exact Nat.le_of_eq (Store.size_prepare prepared).symm
  | _, _, .fileIn started | _, _, .noFileIn started | _, _, .fileAs started =>
    exact Nat.le_of_eq (Store.size_startFile started).symm
  | _, _, .noFileAs started =>
    rw [Begun.store, Store.runtimes_undoLoad]
    exact Nat.le_of_eq (Store.size_startFile started).symm

/-- **A request changes rules as its events say.** -/
theorem records_begin (setting : Setting) (rt : RuntimeId) (request : Request)
    (addressed : request.Addressed s) :
    Records rt (request.cacheEvents setting) (s.rules rt) ((request.begin setting s).store.rules rt) := by
  match request, request.begin setting s, request.beginsAs setting s with
  | .build libraries instances extension, _, .build =>
    obtain ⟨runtime, undecided, pushed⟩ :=
      s.withNewRuntime_buildRuntime setting.registry libraries instances extension
    show (Store.rules _ rt) = s.rules rt
    unfold Store.rules Store.runtime Begun.store
    dsimp only
    rw [pushed, Array.getElem?_push]
    split
    next last =>
      rw [Array.getElem?_eq_none (Nat.le_of_eq last.symm)]
      exact undecided
    next => rfl
  | .drop there, _, .drop =>
    rcases s.runtime_changeRuntime there rt fun runtime => { runtime with alive := false } with
      same | ⟨rfl, same⟩
    · exact congrArg Runtime.rules same
    · have kept := congrArg Runtime.rules same
      exact kept
  | _, _, .change | _, _, .offer | _, _, .call | _, _, .effect => rfl
  | _, _, .source prepared => exact (Store.records_prepare rt (addressed _ rfl) prepared :)
  | _, _, .noSource prepared => exact Store.records_prepare rt (addressed _ rfl) prepared
  | _, _, .fileIn started | _, _, .noFileIn started =>
    exact Store.records_startFile rt (addressed _ rfl) started
  | _, _, .fileAs started =>
    exact (Store.records_startFile (s := (s.beginLoad _ _).2) rt (addressed _ rfl) started :)
  | _, _, .noFileAs started =>
    rw [Begun.store, Store.rules_of_runtimes (Store.runtimes_undoLoad _ _)]
    exact (Store.records_startFile (s := (s.beginLoad _ _).2) rt (addressed _ rfl) started :)

end Request

end HostScript
