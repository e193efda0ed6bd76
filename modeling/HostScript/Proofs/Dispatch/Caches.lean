import HostScript.Proofs.Machine.Course
import HostScript.Proofs.Machine.Demands

/-!
# Proofs/Dispatch/Caches — how many rules there are

A chronicle is a ledger of the rules of all runtimes that is kept all along a session.  While it is kept,
only operations that it has requested are done, and what it has requested has a rule, but for an
operation that has just been handed over (`Chronicle.kept`).  So the rules can be counted from the
chronicle alone: `caches_grow_exactly`.
-/

namespace HostScript

/-! ## Chronicles -/

/-- **A ledger of rules that is kept all along a session**, in which the host asks runtimes to run sources
that are there. -/
inductive Chronicle (start : Phase) : List CacheEvent → Phase → Prop where
  | start : Chronicle start [] start
  | done {ledger : List CacheEvent} {setting : Setting} {s t : Store} {request : Request}
    {answer : Except ScriptError Value} :
    Chronicle start ledger (.idle s) → request.Addressed s →
      request.begin setting s = .done answer t →
        Chronicle start (ledger ++ request.cacheEvents setting) (.idle t)
  | begun {ledger : List CacheEvent} {setting : Setting} {s : Store} {request : Request} {c : Config} :
    Chronicle start ledger (.idle s) → request.Addressed s →
      request.begin setting s = .running c →
        Chronicle start (ledger ++ request.cacheEvents setting) (.busy setting c)
  | step {ledger : List CacheEvent} {setting : Setting} {c : Config} :
    Chronicle start ledger (.busy setting c) →
      Chronicle start (ledger ++ Machine.cacheEvents setting c) (.busy setting (Machine.step setting c))
  | answered {ledger : List CacheEvent} {setting : Setting} {c : Config}
    {answer : Except EvalError Value} :
    Chronicle start ledger (.busy setting c) → Machine.answer? c = some answer →
      Chronicle start ledger (.idle c.store)

/-- A chronicle can be kept of every session. -/
theorem Course.chronicle {allowed : Setting → Store → Request → Prop} {start phase : Phase}
    {past : List Config} (course : Course allowed start past phase)
    (addressed : ∀ setting s request, allowed setting s request → request.Addressed s) :
    ∃ ledger, Chronicle start ledger phase := by
  induction course with
  | start => exact ⟨[], .start⟩
  | done _ permitted begins ih => exact ⟨_, ih.choose_spec.done (addressed _ _ _ permitted) begins⟩
  | begun _ permitted begins ih => exact ⟨_, ih.choose_spec.begun (addressed _ _ _ permitted) begins⟩
  | step _ ih => exact ⟨_, ih.choose_spec.step⟩
  | answered _ found ih => exact ⟨_, ih.choose_spec.answered found⟩

/-- A machine that only makes steps writes down what each of them does. -/
theorem Chronicle.steps {start : Phase} {ledger : List CacheEvent} {setting : Setting} {c : Config}
    (h : Chronicle start ledger (.busy setting c)) (n : Nat) :
    Chronicle start (ledger ++ (Machine.trace setting c n).reverse.flatMap (Machine.cacheEvents setting))
      (.busy setting ((Machine.step setting)^[n] c)) := by
  induction n with
  | zero => exact (List.append_nil ledger).symm ▸ h
  | succ n ih =>
    rw [Function.iterate_succ_apply', Machine.trace, List.reverse_cons, List.flatMap_append,
      List.flatMap_singleton, ← List.append_assoc]
    exact ih.step

/-! ## What keeps pace with a ledger -/

/-- An operation of a runtime is about to be done. -/
def Phase.Operates (rt : RuntimeId) (s : Signature) : Phase → Prop
  | .idle _ => False
  | .busy _ c => ∃ env args, c.control = .dispatch env s args ∧ env.runtime = rt

/-- No operation is about to be done. -/
def Phase.AtRest (phase : Phase) : Prop := ∀ rt s, ¬phase.Operates rt s

/-- A machine that has answered is at rest. -/
theorem Phase.atRest_of_answer? {setting : Setting} {c : Config}
    (h : (Machine.answer? c).isSome) : Phase.AtRest (.busy setting c) := by
  rintro rt signature ⟨env, args, operates, -⟩
  obtain ⟨control, stack, s⟩ := c
  obtain rfl : control = .dispatch env signature args := operates
  cases h

/-- Runtimes that are there may be asked for what a ledger says has been requested from them. -/
def Allowance.of (ledger : List CacheEvent) (s : Store) : Allowance where
  site rt site := rt.index < s.runtimes.size ∧ ∀ t, site.2 = some t → t ∈ requested ledger rt
  asks rt t := rt.index < s.runtimes.size ∧ t ∈ requested ledger rt
  place _ := True
  asked h := ⟨h.1, h.2 _ rfl⟩
  placed _ := trivial

/-- What a phase demands is allowed. -/
def Phase.Demands (P : Allowance) : Phase → Prop
  | .idle s => s.Demands P
  | .busy _ c => c.Demands P

/-- **A phase keeps pace with a ledger**: only what has been requested is demanded and has a rule, and
what has been handed over has a rule unless it is about to be done. -/
structure Phase.Paces (ledger : List CacheEvent) (phase : Phase) : Prop where
  demands : phase.Demands (.of ledger phase.store)
  signatures (rt : RuntimeId) : (phase.store.rules rt).signatures ⊆ requested ledger rt
  called (rt : RuntimeId) (s : Signature) : .called rt s ∈ ledger →
    s ∈ (phase.store.rules rt).signatures ∨ phase.Operates rt s

theorem Phase.paces_start : Phase.Paces [] (.idle .empty) where
  demands _ mem := absurd mem (Array.not_mem_empty _)
  signatures _ := List.nil_subset _
  called _ _ never := absurd never List.not_mem_nil

theorem requested_append (ledger more : List CacheEvent) (rt : RuntimeId) :
    requested (ledger ++ more) rt = requested ledger rt ++ requested more rt :=
  List.flatMap_append

/-- More is allowed as a ledger is kept. -/
theorem Allowance.of_append {ledger : List CacheEvent} {s t : Store} (more : List CacheEvent)
    (size : s.runtimes.size ≤ t.runtimes.size) :
    (Allowance.of ledger s).Within (Allowance.of (ledger ++ more) t) := by
  have kept {rt : RuntimeId} {signature : Signature} (mem : signature ∈ requested ledger rt) :
      signature ∈ requested (ledger ++ more) rt :=
    requested_append ledger more rt ▸ List.mem_append_left _ mem
  constructor
  case site => exact fun rt site h => ⟨Nat.lt_of_lt_of_le h.1 size, fun t at_site => kept (h.2 t at_site)⟩
  case asks => exact fun rt t h => ⟨Nat.lt_of_lt_of_le h.1 size, kept h.2⟩
  case place => exact fun _ _ => trivial

/-- A program does what compiling its source requests. -/
theorem IsProgram.mem_requestsOf {source : String} {program : Program} (h : IsProgram source program)
    {position : Position} {s : Signature} (mem : (position, some s) ∈ program.code.sites) :
    s ∈ requestsOf source := by
  obtain ⟨number, tree, parsed, compiled⟩ := h
  unfold requestsOf
  rw [parsed]
  dsimp only
  rw [requests_compile_eq 0 number, mem_requests_compile compiled]
  exact Code.mem_signatures.2 ⟨position, mem⟩

/-- What is written down is allowed. -/
theorem Allowance.lowered {ledger : List CacheEvent} {s : Store} {rt : RuntimeId} {source : String}
    (exist : rt.index < s.runtimes.size) (mem : .lowered rt source ∈ ledger) :
    (Allowance.of ledger s).allowsSource rt source := by
  rintro program made ⟨position, s?⟩ inside
  refine ⟨exist, ?_⟩
  rintro t rfl
  exact mem_requested_lowered mem (made.mem_requestsOf inside)

/-! ## Steps -/

namespace Machine

variable {setting : Setting} {c : Config} {rt : RuntimeId} {signature : Signature}

theorem runtime_of_mem {event : CacheEvent} (mem : event ∈ cacheEvents setting c) :
    runtime? c.control = some event.runtime := by
  unfold cacheEvents at mem
  split at mem
  next env position path name same =>
    obtain ⟨source, rfl⟩ := Store.lowered_of_mem mem
    rw [same]
    rfl
  next env signature args same =>
    rw [same]
    rcases List.mem_cons.1 mem with rfl | handed
    · rfl
    · split at handed
      · rw [List.mem_singleton.1 handed]
        rfl
      · exact absurd handed List.not_mem_nil
  next => exact absurd mem List.not_mem_nil

/-- Only the rule of an operation that is done is run. -/
theorem operates_of_ran {shapes : List Shape} (mem : .ran rt signature shapes ∈ cacheEvents setting c) :
    Phase.Operates rt signature (.busy setting c) := by
  unfold cacheEvents at mem
  split at mem
  next =>
    obtain ⟨source, never⟩ := Store.lowered_of_mem mem
    cases never
  next env other args same =>
    rcases List.mem_cons.1 mem with ran | handed
    · obtain ⟨rfl, rfl, -⟩ := CacheEvent.ran.inj ran
      exact ⟨env, args, same, rfl⟩
    · split at handed
      · cases List.mem_singleton.1 handed
      · exact absurd handed List.not_mem_nil
  next => exact absurd mem List.not_mem_nil

/-- The rule of an operation that is done is run. -/
theorem ran_of_operates (h : Phase.Operates rt signature (.busy setting c)) :
    ∃ shapes, .ran rt signature shapes ∈ cacheEvents setting c := by
  obtain ⟨env, args, same, rfl⟩ := h
  refine ⟨args.map Value.shape, ?_⟩
  unfold cacheEvents
  rw [same]
  exact List.mem_cons_self

/-- What is handed over is about to be done. -/
theorem operates_of_called (mem : .called rt signature ∈ cacheEvents setting c) :
    Phase.Operates rt signature (.busy setting (step setting c)) := by
  obtain ⟨control, stack, s⟩ := c
  unfold cacheEvents at mem
  split at mem
  next =>
    obtain ⟨source, never⟩ := Store.lowered_of_mem mem
    cases never
  next env other args same =>
    obtain rfl : control = .dispatch env other args := same
    have handed := (List.mem_cons.1 mem).resolve_left nofun
    cases ended : s.dispatch setting.registry env.runtime env.module other args with
    | mk outcome t =>
      dsimp only at handed
      rw [ended] at handed
      cases outcome with
      | reply r => exact absurd handed List.not_mem_nil
      | dispatch next passed =>
        obtain ⟨rfl, rfl⟩ := CacheEvent.called.inj (List.mem_singleton.1 handed)
        refine ⟨env, passed, ?_, rfl⟩
        unfold step
        dsimp only
        rw [ended]
  next => exact absurd mem List.not_mem_nil

end Machine

/-- The requests of a host compile sources and do nothing else to rules. -/
theorem Request.lowered_of_mem {setting : Setting} {request : Request} {event : CacheEvent}
    (mem : event ∈ request.cacheEvents setting) :
    ∃ rt source, request.runtime? = some rt ∧ event = .lowered rt source := by
  cases request with
  | source rt module text => exact ⟨rt, text, rfl, List.mem_singleton.1 mem⟩
  | fileIn rt module path =>
    obtain ⟨source, same⟩ := Files.lowered_of_mem mem
    exact ⟨rt, source, rfl, same⟩
  | fileAs rt path name =>
    obtain ⟨source, same⟩ := Files.lowered_of_mem mem
    exact ⟨rt, source, rfl, same⟩
  | build _ _ _ => exact absurd mem List.not_mem_nil
  | drop _ => exact absurd mem List.not_mem_nil
  | change _ => exact absurd mem List.not_mem_nil
  | offer _ _ _ => exact absurd mem List.not_mem_nil
  | call _ _ => exact absurd mem List.not_mem_nil
  | effect _ => exact absurd mem List.not_mem_nil

namespace Phase.Paces

variable {ledger : List CacheEvent} {setting : Setting}

/-- The runtime that a state works on is there. -/
theorem exist {c : Config} (h : Phase.Paces ledger (.busy setting c)) (rt : RuntimeId)
    (here : Machine.runtime? c.control = some rt) : rt.index < c.store.runtimes.size := by
  have allowed := h.demands.control
  unfold Machine.runtime? at here
  split at here
  next env position path name same =>
    obtain rfl := Option.some.inj here
    rw [same] at allowed
    exact (allowed _ (List.mem_singleton_self _)).1
  next env signature args same =>
    obtain rfl := Option.some.inj here
    rw [same] at allowed
    exact allowed.1
  next => cases here

/-- An operation that is about to be done has been requested. -/
theorem operates {c : Config} (h : Phase.Paces ledger (.busy setting c)) {rt : RuntimeId}
    {signature : Signature} (operates : Phase.Operates rt signature (.busy setting c)) :
    signature ∈ requested ledger rt := by
  obtain ⟨env, args, same, rfl⟩ := operates
  have allowed := h.demands.control
  rw [same] at allowed
  exact allowed.2

/-- **A step keeps pace** with its events. -/
theorem step {c : Config} (h : Phase.Paces ledger (.busy setting c)) :
    Phase.Paces (ledger ++ Machine.cacheEvents setting c) (.busy setting (Machine.step setting c)) := by
  have recorded (rt : RuntimeId) := Machine.records_step setting rt h.exist
  have exist {event : CacheEvent} (mem : event ∈ Machine.cacheEvents setting c) :
      event.runtime.index < (Machine.step setting c).store.runtimes.size := by
    rw [Machine.size_step]
    exact h.exist _ (Machine.runtime_of_mem mem)
  constructor
  case demands =>
    refine Machine.demands_step (h.demands.mono ?_) (fun rt source mem => ?_) fun rt signature mem => ?_
    · exact Allowance.of_append _ (Nat.le_of_eq (Machine.size_step setting c).symm)
    · exact Allowance.lowered (exist mem) (List.mem_append_right _ mem)
    · exact ⟨exist mem, mem_requested_called (List.mem_append_right _ mem)⟩
  case signatures =>
    intro rt signature mem
    rw [requested_append]
    rcases (recorded rt).mem_signatures mem with before | asked | ⟨shapes, ran⟩
    · exact List.mem_append_left _ (h.signatures rt before)
    · exact List.mem_append_right _ asked
    · exact List.mem_append_left _ (h.operates (Machine.operates_of_ran ran))
  case called =>
    intro rt signature mem
    rcases List.mem_append.1 mem with before | now
    · rcases h.called rt signature before with there | operates
      · exact .inl ((recorded rt).grows.signatures.subset there)
      · obtain ⟨shapes, ran⟩ := Machine.ran_of_operates operates
        exact .inl ((recorded rt).ran ran)
    · exact .inr (Machine.operates_of_called now)

/-- **A request keeps pace** with its events. -/
theorem begin {s : Store} (h : Phase.Paces ledger (.idle s)) {request : Request}
    (addressed : request.Addressed s) {phase : Phase}
    (same : phase.store = (request.begin setting s).store)
    (demands : ∀ P : Allowance, (request.begin setting s).Demands P → phase.Demands P) :
    Phase.Paces (ledger ++ request.cacheEvents setting) phase := by
  have size := request.size_begin setting s
  have recorded (rt : RuntimeId) := Request.records_begin setting rt request addressed
  constructor
  case demands =>
    refine demands _ (Request.demands_begin (h.demands.mono ?_) request fun rt source mem => ?_)
    · exact Allowance.of_append _ (same ▸ size)
    · obtain ⟨there, source, asked, found⟩ := Request.lowered_of_mem mem
      obtain ⟨rfl, rfl⟩ := CacheEvent.lowered.inj found
      refine Allowance.lowered ?_ (List.mem_append_right _ mem)
      exact same ▸ Nat.lt_of_lt_of_le (addressed rt asked) size
  case signatures =>
    intro rt signature mem
    rw [same] at mem
    rw [requested_append]
    rcases (recorded rt).mem_signatures mem with before | asked | ⟨shapes, ran⟩
    · exact List.mem_append_left _ (h.signatures rt before)
    · exact List.mem_append_right _ asked
    · obtain ⟨_, _, -, never⟩ := Request.lowered_of_mem ran
      cases never
  case called =>
    intro rt signature mem
    rw [same]
    rcases List.mem_append.1 mem with before | now
    · rcases h.called rt signature before with there | never
      · exact .inl ((recorded rt).grows.signatures.subset there)
      · exact never.elim
    · obtain ⟨_, _, -, never⟩ := Request.lowered_of_mem now
      cases never

/-- An answer is at rest. -/
theorem answered {c : Config} (h : Phase.Paces ledger (.busy setting c))
    {answer : Except EvalError Value} (found : Machine.answer? c = some answer) :
    Phase.Paces ledger (.idle c.store) where
  demands := h.demands.store
  signatures := h.signatures
  called rt signature mem := (h.called rt signature mem).imp_right fun operates =>
    (Phase.atRest_of_answer? (Option.isSome_of_eq_some found) rt signature operates).elim

end Phase.Paces

/-- **A chronicle keeps pace with its session**, and rules change as it says. -/
theorem Chronicle.kept {start phase : Phase} {past ledger : List CacheEvent}
    (h : Chronicle start ledger phase) (first : start.Paces past) :
    phase.Paces (past ++ ledger) ∧
      ∀ rt, Records rt ledger (start.store.rules rt) (phase.store.rules rt) := by
  induction h with
  | start => exact ⟨(List.append_nil past).symm ▸ first, fun _ => rfl⟩
  | @done _ setting s t request answer _ addressed begins ih =>
    obtain ⟨paces, recorded⟩ := ih
    rw [← List.append_assoc]
    have same : t = (request.begin setting s).store := by rw [begins]; rfl
    refine ⟨paces.begin addressed same fun P demands => ?_, fun rt => ?_⟩
    · rw [begins] at demands
      exact demands
    have last := Request.records_begin setting rt request addressed
    rw [← same] at last
    exact (recorded rt).append last
  | @begun _ setting s request c _ addressed begins ih =>
    obtain ⟨paces, recorded⟩ := ih
    rw [← List.append_assoc]
    have same : c.store = (request.begin setting s).store := by rw [begins]; rfl
    refine ⟨paces.begin addressed same fun P demands => ?_, fun rt => ?_⟩
    · rw [begins] at demands
      exact demands
    have last := Request.records_begin setting rt request addressed
    rw [← same] at last
    exact (recorded rt).append last
  | step _ ih =>
    obtain ⟨paces, recorded⟩ := ih
    rw [← List.append_assoc]
    exact ⟨paces.step, fun rt => (recorded rt).append (Machine.records_step _ rt paces.exist)⟩
  | answered _ found ih =>
    obtain ⟨paces, recorded⟩ := ih
    exact ⟨paces.answered found, recorded⟩

/-! ## Counting -/

/-- What a session has left in the rules of a runtime, by its chronicle. -/
theorem Chronicle.records {ledger : List CacheEvent} {phase : Phase}
    (h : Chronicle (.idle .empty) ledger phase) (rt : RuntimeId) :
    Records rt ledger .empty (phase.store.rules rt) := (h.kept Phase.paces_start).2 rt

/-- **At rest, what has a rule is what has been requested.** -/
theorem Chronicle.mem_signatures {ledger : List CacheEvent} {phase : Phase}
    (h : Chronicle (.idle .empty) ledger phase) (rest : phase.AtRest) (rt : RuntimeId) (s : Signature) :
    s ∈ (phase.store.rules rt).signatures ↔ s ∈ requested ledger rt := by
  obtain ⟨paces, recorded⟩ := h.kept Phase.paces_start
  refine ⟨fun mem => paces.signatures rt mem, fun mem => ?_⟩
  rcases mem_requested.1 mem with ⟨source, lowered, asked⟩ | called
  · exact (recorded rt).lowered lowered asked
  · exact (paces.called rt s called).resolve_right (rest rt s)

/-- A source that has been compiled adds nothing when it is compiled again. -/
theorem Chronicle.rules_prepare {ledger : List CacheEvent} {phase : Phase}
    (h : Chronicle (.idle .empty) ledger phase) {rt : RuntimeId} {source : String}
    (lowered : .lowered rt source ∈ ledger) :
    (phase.store.prepare rt source).2.rules rt = phase.store.rules rt := by
  have again : (requestsOf source).foldl Rules.request (phase.store.rules rt) = phase.store.rules rt :=
    Rules.requests_of_mem fun s asked => (h.records rt).lowered lowered asked
  rcases phase.store.rules_prepare_self rt source with same | same
  · exact same
  · exact same.trans again

/-- **Rules grow exactly as they are asked for.** -/
theorem caches_grow_exactly {ledger : List CacheEvent} {phase : Phase}
    (h : Chronicle (.idle .empty) ledger phase) (rt : RuntimeId) :
    (phase.AtRest →
      (∀ s, s ∈ (phase.store.rules rt).signatures ↔ s ∈ requested ledger rt) ∧
        ∀ op, ((phase.store.rules rt).count op).1 =
          ((requested ledger rt).toFinset.filter (·.operation = op)).card) ∧
    (∀ op, ((phase.store.rules rt).count op).2 =
      ((runShapes ledger rt).toFinset.filter (·.1.operation = op)).card) ∧
    (phase.store.rules rt).signatures.Nodup ∧
    (∀ rule ∈ (phase.store.rules rt).entries, (rule.2.map Branch.guard).Nodup ∧
      rule.2.length = ((runShapes ledger rt).toFinset.filter (·.1 = rule.1)).card) ∧
    (∀ more later, Chronicle phase more later → ∀ op,
      (phase.store.rules rt).count op ≤ (later.store.rules rt).count op) ∧
    ∀ source, .lowered rt source ∈ ledger →
      (phase.store.prepare rt source).2.rules rt = phase.store.rules rt := by
  obtain ⟨paces, recorded⟩ := h.kept Phase.paces_start
  have orderly : (phase.store.rules rt).Orderly := (recorded rt).orderly .empty
  have met (x : Signature × List Shape) :
      x ∈ (phase.store.rules rt).met ↔ x ∈ runShapes ledger rt :=
    (recorded rt).mem_met.trans (or_iff_right List.not_mem_nil)
  refine ⟨fun rest => ⟨h.mem_signatures rest rt, fun op => ?_⟩, fun op => ?_, orderly.signatures,
    fun rule mem => ?_, ?_, ?_⟩
  · rw [Rules.count_eq]
    exact Rules.length_filter_eq_card orderly.signatures (h.mem_signatures rest rt) _
  · rw [Rules.count_eq]
    exact Rules.length_filter_eq_card orderly.nodup_met met _
  · refine ⟨orderly.guards rule mem, ?_⟩
    rw [orderly.length_branches mem]
    exact Rules.length_filter_eq_card orderly.nodup_met met _
  · intro more later onward op
    exact ((onward.kept paces).2 rt).grows.count op
  · exact fun source lowered => h.rules_prepare lowered

/-- A host that has built a runtime and made a module for it. -/
def Store.withModule : Store :=
  (Store.empty.buildRuntime .initial [] [] defaultExtension).2.newSpace.2

theorem Chronicle.withModule : Chronicle (.idle .empty) [] (.idle .withModule) := by
  let setting : Setting := ⟨.initial, #[], .empty⟩
  have built : Chronicle (.idle .empty) []
      (.idle (Store.empty.buildRuntime .initial [] [] defaultExtension).2) :=
    @done _ [] setting _ _ (.build [] [] defaultExtension) _ .start nofun rfl
  exact @done _ [] setting _ _ (.change fun h => h.newSpace.2) _ built nofun rfl

/-- The state that a request begins with, if a machine runs for it. -/
def Begun.config? : Begun → Option Config
  | done _ _ => none
  | running c => some c

theorem caches_grow_exactly_sum :
    ∃ ledger c, Chronicle (.idle .empty) ledger (.busy ⟨.initial, #[], .empty⟩ c) ∧
      ledger = [.lowered ⟨0⟩ "1 + 2", .ran ⟨0⟩ (.binary .add) [.int, .int]] ∧
      (c.store.rules ⟨0⟩).count .binary = (1, 1) ∧
      (c.store.prepare ⟨0⟩ "1 + 2").2.rules ⟨0⟩ = c.store.rules ⟨0⟩ := by
  let setting : Setting := ⟨.initial, #[], .empty⟩
  have ends : (Request.begin setting .withModule (.source ⟨0⟩ ⟨1⟩ "1 + 2")).config?.any fun c =>
      (Machine.trace setting c 8).reverse.flatMap (Machine.cacheEvents setting) =
          [.ran ⟨0⟩ (.binary .add) [.int, .int]] &&
        (Machine.answer? ((Machine.step setting)^[8] c)).isSome := by
    decide +kernel
  have addressed : Request.Addressed .withModule (.source ⟨0⟩ ⟨1⟩ "1 + 2") := by
    rintro _ ⟨⟩
    decide
  cases begins : Request.begin setting .withModule (.source ⟨0⟩ ⟨1⟩ "1 + 2") with
  | done answer s =>
    rw [begins] at ends
    cases ends
  | running c =>
    rw [begins] at ends
    obtain ⟨traced, answered⟩ := Bool.and_eq_true_iff.1 ends
    have kept := (Chronicle.withModule.begun addressed begins).steps 8
    rw [of_decide_eq_true traced] at kept
    have rest : Phase.AtRest (.busy setting ((Machine.step setting)^[8] c)) :=
      Phase.atRest_of_answer? answered
    obtain ⟨signatures, shapes, -, -, -, again⟩ := caches_grow_exactly kept ⟨0⟩
    refine ⟨_, _, kept, rfl, Prod.ext ?_ ?_, again "1 + 2" List.mem_cons_self⟩
    · exact ((signatures rest).2 .binary).trans (by decide +kernel)
    · exact (shapes .binary).trans (by decide +kernel)

end HostScript
