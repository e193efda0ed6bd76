import HostScript.Proofs.Compile.Renumber
import HostScript.Proofs.Dispatch.Growth
import HostScript.Proofs.Machine.Starting

/-!
# Proofs/Dispatch/Ledger — what rules are asked for

What happens to rules is written down as it happens: a source is compiled, the call of an instance is
handed over to a method, a rule is run for shapes.  The rules of a runtime are what such a ledger says,
whatever is decided in them: `Records` says how they change, `Records.mem_met` and
`Records.mem_signatures` what is in them.
-/

namespace HostScript

/-! ## Events -/

/-- The signatures that compiling a source requests, if the source has a tree. -/
def requestsOf (source : String) : List Signature :=
  match parse source with
  | .error _ => []
  | .ok tree => (compile 0 source.toList tree).2

/-- What happens to the rules of a runtime. -/
inductive CacheEvent where
  /-- A source has been compiled for the runtime, whether it is a program or not. -/
  | lowered (rt : RuntimeId) (source : String)
  /-- The call of an instance has been handed over to the method of the name it was called by. -/
  | called (rt : RuntimeId) (s : Signature)
  /-- The rule of a signature has been run for arguments of these shapes. -/
  | ran (rt : RuntimeId) (s : Signature) (shapes : List Shape)
  deriving DecidableEq

namespace CacheEvent

/-- The runtime whose rules are meant. -/
def runtime : CacheEvent → RuntimeId
  | lowered rt _ | called rt _ | ran rt _ _ => rt

/-- The signatures that are requested from a runtime. -/
def requests (rt : RuntimeId) : CacheEvent → List Signature
  | lowered there source => if there = rt then requestsOf source else []
  | called there s => if there = rt then [s] else []
  | ran _ _ _ => []

/-- The shapes that a rule of a runtime is run for. -/
def runs (rt : RuntimeId) : CacheEvent → List (Signature × List Shape)
  | ran there s shapes => if there = rt then [(s, shapes)] else []
  | _ => []

theorem runs_of_ne {rt : RuntimeId} {event : CacheEvent} (other : event.runtime ≠ rt) :
    event.runs rt = [] := by
  cases event with
  | lowered _ _ => rfl
  | called _ _ => rfl
  | ran _ _ _ => exact if_neg other

/-- How the rules of a runtime change, whatever is decided. -/
inductive Changes (rt : RuntimeId) (a : Rules) : CacheEvent → Rules → Prop where
  | lowered (source : String) :
    Changes rt a (.lowered rt source) ((requestsOf source).foldl Rules.request a)
  | called (s : Signature) : Changes rt a (.called rt s) a
  | ran (s : Signature) (shapes : List Shape) (action : Action) :
    Changes rt a (.ran rt s shapes) (a.settle s ⟨shapes, action⟩)
  | elsewhere {event : CacheEvent} : event.runtime ≠ rt → Changes rt a event a

namespace Changes

variable {rt : RuntimeId} {a b : Rules} {event : CacheEvent}

theorem grows (h : Changes rt a event b) : a.Grows b := by
  cases h with
  | lowered source => exact .requests a _
  | called s => exact .refl a
  | ran s shapes action => exact .settle a s _
  | elsewhere => exact .refl a

theorem orderly (h : Changes rt a event b) (orderly : a.Orderly) : b.Orderly := by
  cases h with
  | lowered source => exact orderly.requests _
  | called s => exact orderly
  | ran s shapes action => exact orderly.settle s _
  | elsewhere => exact orderly

theorem mem_met (h : Changes rt a event b) {x : Signature × List Shape} :
    x ∈ b.met ↔ x ∈ a.met ∨ x ∈ event.runs rt := by
  cases h with
  | lowered source =>
    rw [Rules.met_requests]
    exact (or_iff_left List.not_mem_nil).symm
  | called s => exact (or_iff_left List.not_mem_nil).symm
  | ran s shapes action => rw [Rules.mem_met_settle, runs, if_pos rfl, List.mem_singleton]
  | elsewhere other =>
    rw [runs_of_ne other]
    exact (or_iff_left List.not_mem_nil).symm

theorem mem_signatures (h : Changes rt a event b) {s : Signature} (mem : s ∈ b.signatures) :
    s ∈ a.signatures ∨ s ∈ event.requests rt ∨ s ∈ (event.runs rt).map Prod.fst := by
  cases h with
  | lowered source =>
    rw [requests, if_pos rfl]
    exact ((Rules.mem_signatures_requests _).1 mem).imp id .inl
  | called t => exact .inl mem
  | ran t shapes action =>
    rw [runs, if_pos rfl, List.map_singleton, List.mem_singleton]
    exact (Rules.mem_signatures_settle.1 mem).imp id .inr
  | elsewhere => exact .inl mem

/-- What is compiled is there afterwards. -/
theorem mem_lowered {source : String} (h : Changes rt a (.lowered rt source) b) {s : Signature}
    (mem : s ∈ requestsOf source) : s ∈ b.signatures := by
  cases h with
  | lowered _ => exact (Rules.mem_signatures_requests _).2 (.inr mem)
  | elsewhere other => exact absurd rfl other

/-- What is run is there afterwards. -/
theorem mem_ran {s : Signature} {shapes : List Shape} (h : Changes rt a (.ran rt s shapes) b) :
    s ∈ b.signatures := by
  cases h with
  | ran _ _ action => exact Rules.mem_signatures_settle.2 (.inr rfl)
  | elsewhere other => exact absurd rfl other

end Changes

end CacheEvent

/-! ## Ledgers -/

/-- The signatures that a ledger says have been requested from a runtime. -/
def requested (ledger : List CacheEvent) (rt : RuntimeId) : List Signature :=
  ledger.flatMap (·.requests rt)

/-- The shapes that a ledger says rules of a runtime have been run for, with their signatures. -/
def runShapes (ledger : List CacheEvent) (rt : RuntimeId) : List (Signature × List Shape) :=
  ledger.flatMap (·.runs rt)

theorem mem_requested_lowered {ledger : List CacheEvent} {rt : RuntimeId} {source : String}
    (mem : .lowered rt source ∈ ledger) {s : Signature} (asked : s ∈ requestsOf source) :
    s ∈ requested ledger rt :=
  List.mem_flatMap.2 ⟨_, mem, by rwa [CacheEvent.requests, if_pos rfl]⟩

theorem mem_requested_called {ledger : List CacheEvent} {rt : RuntimeId} {s : Signature}
    (mem : .called rt s ∈ ledger) : s ∈ requested ledger rt :=
  List.mem_flatMap.2 ⟨_, mem, by rw [CacheEvent.requests, if_pos rfl]; exact List.mem_singleton_self s⟩

theorem mem_requested {ledger : List CacheEvent} {rt : RuntimeId} {s : Signature} :
    s ∈ requested ledger rt ↔
      (∃ source, .lowered rt source ∈ ledger ∧ s ∈ requestsOf source) ∨ .called rt s ∈ ledger := by
  constructor
  · intro mem
    obtain ⟨event, held, asked⟩ := List.mem_flatMap.1 mem
    cases event with
    | lowered there source =>
      rw [CacheEvent.requests] at asked
      split at asked
      next here => exact .inl ⟨source, here ▸ held, asked⟩
      next => exact absurd asked List.not_mem_nil
    | called there t =>
      rw [CacheEvent.requests] at asked
      split at asked
      next here => exact .inr (here ▸ List.mem_singleton.1 asked ▸ held)
      next => exact absurd asked List.not_mem_nil
    | ran there t shapes => exact absurd asked List.not_mem_nil
  · rintro (⟨source, held, asked⟩ | held)
    · exact mem_requested_lowered held asked
    · exact mem_requested_called held

theorem mem_runShapes {ledger : List CacheEvent} {rt : RuntimeId} {s : Signature}
    {shapes : List Shape} : (s, shapes) ∈ runShapes ledger rt ↔ .ran rt s shapes ∈ ledger := by
  constructor
  · intro mem
    obtain ⟨event, held, run⟩ := List.mem_flatMap.1 mem
    cases event with
    | ran there t found =>
      rw [CacheEvent.runs] at run
      split at run
      next here =>
        obtain ⟨rfl, rfl⟩ := Prod.mk.inj (List.mem_singleton.1 run)
        exact here ▸ held
      next => exact absurd run List.not_mem_nil
    | lowered _ _ => exact absurd run List.not_mem_nil
    | called _ _ => exact absurd run List.not_mem_nil
  · intro held
    refine List.mem_flatMap.2 ⟨_, held, ?_⟩
    rw [CacheEvent.runs, if_pos rfl]
    exact List.mem_singleton_self _

/-- **A ledger of the rules of a runtime**: they change as its events say, one after another. -/
def Records (rt : RuntimeId) : List CacheEvent → Rules → Rules → Prop
  | [], a, b => b = a
  | event :: rest, a, b => ∃ between, CacheEvent.Changes rt a event between ∧ Records rt rest between b

namespace Records

variable {rt : RuntimeId} {a b c : Rules} {event : CacheEvent} {ledger more : List CacheEvent}

theorem single (h : CacheEvent.Changes rt a event b) : Records rt [event] a b := ⟨b, h, rfl⟩

theorem append (h : Records rt ledger a b) (k : Records rt more b c) :
    Records rt (ledger ++ more) a c := by
  induction ledger generalizing a with
  | nil => exact (h : b = a) ▸ k
  | cons event rest ih =>
    obtain ⟨between, changed, rest⟩ := h
    exact ⟨between, changed, ih rest⟩

/-- Rules grow as a ledger is kept. -/
theorem grows (h : Records rt ledger a b) : a.Grows b := by
  induction ledger generalizing a with
  | nil => exact (h : b = a) ▸ .refl a
  | cons event rest ih =>
    obtain ⟨between, changed, rest⟩ := h
    exact changed.grows.trans (ih rest)

theorem orderly (h : Records rt ledger a b) (orderly : a.Orderly) : b.Orderly := by
  induction ledger generalizing a with
  | nil => exact (h : b = a) ▸ orderly
  | cons event rest ih =>
    obtain ⟨between, changed, rest⟩ := h
    exact ih rest (changed.orderly orderly)

/-- **The shapes that rules have met are those that the ledger says rules have been run for.** -/
theorem mem_met (h : Records rt ledger a b) {x : Signature × List Shape} :
    x ∈ b.met ↔ x ∈ a.met ∨ x ∈ runShapes ledger rt := by
  induction ledger generalizing a with
  | nil =>
    rw [(h : b = a)]
    exact (or_iff_left List.not_mem_nil).symm
  | cons event rest ih =>
    obtain ⟨between, changed, rest⟩ := h
    rw [ih rest, changed.mem_met, or_assoc, ← List.mem_append]
    rfl

/-- There are no signatures but those that have been requested or run. -/
theorem mem_signatures (h : Records rt ledger a b) {s : Signature} (mem : s ∈ b.signatures) :
    s ∈ a.signatures ∨ s ∈ requested ledger rt ∨ ∃ shapes, .ran rt s shapes ∈ ledger := by
  induction ledger generalizing a with
  | nil => exact .inl ((h : b = a) ▸ mem)
  | cons event events ih =>
    obtain ⟨between, changed, rest⟩ := h
    rcases ih rest with before | asked | ⟨shapes, ran⟩
    · rcases changed.mem_signatures before with before | asked | ran
      · exact .inl before
      · exact .inr (.inl (List.mem_append_left _ asked))
      · obtain ⟨⟨t, shapes⟩, run, rfl⟩ := List.mem_map.1 ran
        refine .inr (.inr ⟨shapes, mem_runShapes.1 ?_⟩)
        exact List.mem_append_left _ run
    · exact .inr (.inl (List.mem_append_right _ asked))
    · exact .inr (.inr ⟨shapes, List.mem_cons_of_mem event ran⟩)

/-- What has been written down has changed the rules, which have grown since. -/
theorem of_mem (h : Records rt ledger a b) (mem : event ∈ ledger) :
    ∃ before after, CacheEvent.Changes rt before event after ∧ after.Grows b := by
  induction ledger generalizing a with
  | nil => exact absurd mem List.not_mem_nil
  | cons first events ih =>
    obtain ⟨between, changed, rest⟩ := h
    rcases List.mem_cons.1 mem with rfl | later
    · exact ⟨a, between, changed, grows rest⟩
    · exact ih rest later

/-- What has been compiled is there. -/
theorem lowered (h : Records rt ledger a b) {source : String} (mem : .lowered rt source ∈ ledger)
    {s : Signature} (asked : s ∈ requestsOf source) : s ∈ b.signatures := by
  obtain ⟨before, after, changed, grown⟩ := h.of_mem mem
  exact grown.signatures.subset (changed.mem_lowered asked)

/-- What has been run is there. -/
theorem ran (h : Records rt ledger a b) {s : Signature} {shapes : List Shape}
    (mem : .ran rt s shapes ∈ ledger) : s ∈ b.signatures := by
  obtain ⟨before, after, changed, grown⟩ := h.of_mem mem
  exact grown.signatures.subset changed.mem_ran

end Records

/-! ## Stores -/

namespace Store

variable {s t : Store} {there rt : RuntimeId}

/-- The rules of a runtime. -/
def rules (s : Store) (rt : RuntimeId) : Rules := (s.runtime rt).rules

theorem rules_of_runtimes (same : t.runtimes = s.runtimes) (rt : RuntimeId) : t.rules rt = s.rules rt :=
  congrArg Runtime.rules (runtime_of_runtimes same rt)

theorem rules_changeRules (exist : there.index < s.runtimes.size) (f : Rules → Rules) :
    (s.changeRules there f).rules rt = if there = rt then f (s.rules rt) else s.rules rt := by
  unfold rules runtime changeRules changeRuntime
  dsimp only
  rw [Array.getElem?_modify]
  by_cases here : there = rt
  · subst here
    rw [if_pos rfl, if_pos rfl, Array.getElem?_eq_getElem exist]
    rfl
  · rw [if_neg here, if_neg fun same => here (congrArg RuntimeId.mk same)]

theorem size_changeRules (s : Store) (there : RuntimeId) (f : Rules → Rules) :
    (s.changeRules there f).runtimes.size = s.runtimes.size := Array.size_modify

theorem size_prepare {source : String} {result : Except ScriptError Program} {t : Store}
    (prepared : s.prepare there source = (result, t)) : t.runtimes.size = s.runtimes.size := by
  obtain rfl | ⟨requests, rfl⟩ := store_of_prepare prepared
  · rfl
  · exact s.size_changeRules there _

/-- Compiling a source requests the same signatures each time. -/
theorem rules_prepare (exist : there.index < s.runtimes.size) (source : String) :
    (s.prepare there source).2.rules rt =
      if there = rt then (requestsOf source).foldl Rules.request (s.rules rt) else s.rules rt := by
  unfold prepare requestsOf
  cases parse source with
  | error e => exact (ite_self _).symm
  | ok tree =>
    dsimp only
    rw [requests_compile_eq s.frames.size 0, rules_changeRules exist]

/-- A runtime that is not there has no rules, whatever is compiled for it. -/
theorem rules_prepare_self (s : Store) (rt : RuntimeId) (source : String) :
    (s.prepare rt source).2.rules rt = s.rules rt ∨
      (s.prepare rt source).2.rules rt = (requestsOf source).foldl Rules.request (s.rules rt) := by
  by_cases exist : rt.index < s.runtimes.size
  · exact .inr ((rules_prepare exist source).trans (if_pos rfl))
  · left
    have absent (size : Nat) (le : size = s.runtimes.size) : size ≤ rt.index := le ▸ Nat.not_lt.1 exist
    have size : (s.prepare rt source).2.runtimes.size = s.runtimes.size := size_prepare rfl
    unfold rules runtime
    rw [Array.getElem?_eq_none (absent _ size),
      Array.getElem?_eq_none (absent _ rfl)]

theorem records_prepare (rt : RuntimeId) (exist : there.index < s.runtimes.size) {source : String}
    {result : Except ScriptError Program} {t : Store}
    (prepared : s.prepare there source = (result, t)) :
    Records rt [.lowered there source] (s.rules rt) (t.rules rt) := by
  have same : (s.prepare there source).2.rules rt = _ := rules_prepare exist source
  rw [prepared] at same
  refine .single ?_
  rw [same]
  split
  next here =>
    subst here
    exact .lowered source
  next other => exact .elsewhere other

/-- Deciding runs a rule. -/
theorem changes_decide (exist : there.index < s.runtimes.size) (registry : Registry)
    (signature : Signature) (args : List Value) :
    CacheEvent.Changes rt (s.rules rt) (.ran there signature (args.map Value.shape))
      ((s.decide registry there signature args).2.rules rt) := by
  by_cases here : there = rt
  · subst here
    suffices ∃ action, (s.decide registry there signature args).2.rules there =
        (s.rules there).settle signature ⟨args.map Value.shape, action⟩ by
      obtain ⟨action, same⟩ := this
      exact same ▸ .ran signature _ action
    unfold decide
    dsimp only
    split
    next action found => exact ⟨action, (if_pos (Option.isSome_of_eq_some found)).symm⟩
    next missing =>
      dsimp only
      rw [rules_changeRules exist, if_pos rfl]
      exact ⟨_, (if_neg (Option.not_isSome_iff_eq_none.2 missing)).symm⟩
  · have same : (s.decide registry there signature args).2.rules rt = s.rules rt := by
      unfold decide
      dsimp only
      split
      · rfl
      · rw [rules_changeRules exist, if_neg here]
    rw [same]
    exact .elsewhere here

theorem size_dispatch (s : Store) (registry : Registry) (module : NamespaceId) (signature : Signature)
    (args : List Value) :
    (s.dispatch registry there module signature args).2.runtimes.size = s.runtimes.size := by
  rw [s.runtimes_dispatch registry module signature args there]
  unfold decide
  dsimp only
  split
  · rfl
  · exact s.size_changeRules _ _

end Store

/-! ## Files -/

/-- What happens to rules when a file is run: it is compiled if it can be read. -/
def Files.cacheEvents (files : Files) (rt : RuntimeId) (path : String) : List CacheEvent :=
  match files.read path with
  | .error _ => []
  | .ok (source, _) => [.lowered rt source]

theorem Files.lowered_of_mem {files : Files} {rt : RuntimeId} {path : String} {event : CacheEvent}
    (mem : event ∈ files.cacheEvents rt path) : ∃ source, event = .lowered rt source := by
  unfold cacheEvents at mem
  split at mem
  · exact absurd mem List.not_mem_nil
  · exact ⟨_, List.mem_singleton.1 mem⟩

namespace Store

variable {s : Store} {there rt : RuntimeId} {files : Files} {module : NamespaceId} {path : String}

variable {result : Except ScriptError Control} {t : Store}

theorem size_startFile (started : s.startFile files there module path = (result, t)) :
    t.runtimes.size = s.runtimes.size := by
  cases fileStarts_of_eq started with
  | unreadable => rfl
  | refused _ prepared => exact (size_prepare prepared :)
  | starts _ prepared => exact (size_prepare prepared :)

theorem records_startFile (rt : RuntimeId) (exist : there.index < s.runtimes.size)
    (started : s.startFile files there module path = (result, t)) :
    Records rt (files.cacheEvents there path) (s.rules rt) (t.rules rt) := by
  unfold Files.cacheEvents
  cases fileStarts_of_eq started with
  | unreadable unreadable =>
    rw [unreadable]
    rfl
  | refused readable prepared =>
    rw [readable]
    exact (records_prepare (s := s.bind _ _ _) rt exist prepared :)
  | starts readable prepared =>
    rw [readable]
    exact (records_prepare (s := s.bind _ _ _) rt exist prepared :)

/-- What happens to rules when a path is imported: the file that is loaded is compiled. -/
def importEvents (s : Store) (files : Files) (env : Env) (path : List String) : List CacheEvent :=
  match s.lookUpPath (s.runtime env.runtime).globals path, path with
  | none, [name] =>
    if files.isFile (s.siblingFile env name) then
      files.cacheEvents env.runtime (s.siblingFile env name)
    else []
  | _, _ => []

section

variable {setting : Setting} {env : Env} {names : List String}

theorem importEvents_of_bound {v : Value}
    (found : s.lookUpPath (s.runtime env.runtime).globals names = some v) :
    s.importEvents files env names = [] := by
  unfold importEvents
  rw [found]

theorem importEvents_of_findsFile {name : String} (file : Machine.FindsFile setting env names s name result t) :
    s.importEvents setting.files env names = setting.files.cacheEvents env.runtime (s.siblingFile env name) := by
  obtain ⟨rfl, unbound, isFile, -⟩ := file
  unfold importEvents
  rw [unbound]
  exact if_pos isFile

theorem importEvents_of_missing (unbound : s.lookUpPath (s.runtime env.runtime).globals names = none)
    (noFile : ∀ name, names = [name] → files.isFile (s.siblingFile env name) = false) :
    s.importEvents files env names = [] := by
  unfold importEvents
  rw [unbound]
  match names with
  | [] | _ :: _ :: _ => rfl
  | [name] =>
    refine if_neg ?_
    rw [noFile name rfl]
    exact Bool.false_ne_true

end

theorem lowered_of_mem {env : Env} {names : List String} {event : CacheEvent}
    (mem : event ∈ s.importEvents files env names) : ∃ source, event = .lowered env.runtime source := by
  unfold importEvents at mem
  split at mem
  · split at mem
    · exact Files.lowered_of_mem mem
    · exact absurd mem List.not_mem_nil
  · exact absurd mem List.not_mem_nil

end Store

end HostScript
