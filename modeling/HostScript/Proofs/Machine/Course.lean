import HostScript.Proofs.Machine.Leads

/-!
# Proofs/Machine/Course — how a session goes on

Functions outlive the source that made them, so what a source sets up matters as long as the session
goes on.  A `Course` leads from one phase of a session to a later one, between requests or at a machine,
through all states of machines on the way; what an invariant says of sessions it says all along
(`Invariant.course`).
-/

namespace HostScript

/-- Where a session stands: between requests, or at a machine that runs for one. -/
inductive Phase where
  | idle (s : Store)
  | busy (setting : Setting) (c : Config)

/-- The store of a phase. -/
def Phase.store : Phase → Store
  | .idle s => s
  | .busy _ c => c.store

/-- **How a session goes on** if the host makes only requests that are allowed, with the states that
machines have stepped from on the way, the latest first. -/
inductive Course (allowed : Setting → Store → Request → Prop) (start : Phase) :
    List Config → Phase → Prop where
  | start : Course allowed start [] start
  | done {past : List Config} {setting : Setting} {s t : Store} {request : Request}
    {answer : Except ScriptError Value} :
    Course allowed start past (.idle s) → allowed setting s request →
      request.begin setting s = .done answer t → Course allowed start past (.idle t)
  | begun {past : List Config} {setting : Setting} {s : Store} {request : Request} {c : Config} :
    Course allowed start past (.idle s) → allowed setting s request →
      request.begin setting s = .running c → Course allowed start past (.busy setting c)
  | step {past : List Config} {setting : Setting} {c : Config} :
    Course allowed start past (.busy setting c) →
      Course allowed start (c :: past) (.busy setting (Machine.step setting c))
  | answered {past : List Config} {setting : Setting} {c : Config} {answer : Except EvalError Value} :
    Course allowed start past (.busy setting c) → Machine.answer? c = some answer →
      Course allowed start past (.idle c.store)

/-- The states that a machine steps from on the way to its next states, the latest first. -/
def Machine.trace (setting : Setting) (c : Config) : Nat → List Config
  | 0 => []
  | n + 1 => (Machine.step setting)^[n] c :: trace setting c n

/-- A machine that only makes steps goes on along its trace. -/
theorem Course.trace {allowed : Setting → Store → Request → Prop} {start : Phase} {past : List Config}
    {setting : Setting} {c : Config} (h : Course allowed start past (.busy setting c)) (n : Nat) :
    Course allowed start (Machine.trace setting c n ++ past)
      (.busy setting ((Machine.step setting)^[n] c)) := by
  induction n with
  | zero => exact h
  | succ n ih =>
    rw [Function.iterate_succ_apply']
    exact ih.step

/-- What is allowed in fewer ways is a session that is allowed in more. -/
theorem Course.mono {allowed wider : Setting → Store → Request → Prop} {start phase : Phase}
    {past : List Config} (course : Course allowed start past phase)
    (within : ∀ setting s request, allowed setting s request → wider setting s request) :
    Course wider start past phase := by
  induction course with
  | start => exact .start
  | done _ permitted begins ih => exact .done ih (within _ _ _ permitted) begins
  | begun _ permitted begins ih => exact .begun ih (within _ _ _ permitted) begins
  | step _ ih => exact .step ih
  | answered _ found ih => exact .answered ih found

/-- The requests of sessions over a registry. -/
def Over (registry : Registry) (setting : Setting) (_ : Store) (_ : Request) : Prop :=
  setting.registry = registry

/-- What is true of a phase if one thing is of stores and another of the states of machines. -/
def Phase.Holds (registry : Registry) (I : Store → Prop) (P : Setting → Config → Prop) : Phase → Prop
  | .idle s => I s
  | .busy setting c => setting.registry = registry ∧ P setting c

/-- **An invariant holds all along** a course that begins where it holds. -/
theorem Invariant.course {registry : Registry} {I : Store → Prop} {P : Setting → Config → Prop}
    (inv : Invariant registry I P) {start phase : Phase} {past : List Config}
    (course : Course (Over registry) start past phase) (first : start.Holds registry I P) :
    phase.Holds registry I P := by
  induction course with
  | start => exact first
  | @done _ setting s t request answer _ same begins ih =>
    have kept := inv.begun setting s request same ih
    rw [begins] at kept
    exact kept
  | @begun _ setting s request c _ same begins ih =>
    have kept := inv.begun setting s request same ih
    rw [begins] at kept
    exact ⟨same, kept⟩
  | step _ ih => exact ⟨ih.1, inv.step _ _ ih.1 ih.2⟩
  | answered _ found ih => exact inv.finish _ _ _ ih.2 found

/-! ## How requests begin -/

/-- **What a request may begin with outside the heap**: activations stay, functions of the host are added,
and a machine begins in a new activation. -/
structure Begun.Leads (s : Store) (b : Begun) : Prop where
  frames : s.KeepsFrames b.store
  functions (id : FunctionId) (f : Callable) : b.store.function? id = some f →
    s.function? id = some f ∨ ∃ name arity index, f = .native name arity index
  envs (c : Config) : b = .running c → ∀ env ∈ c.envs, c.control.env? = some env ∧
    env.frame = ⟨s.frames.size⟩ ∧ s.frames.size < c.store.frames.size

namespace Begun

variable {s : Store} {b : Begun}

theorem Leads.done {t : Store} (frames : s.KeepsFrames t) (functions : t.functions = s.functions)
    (answer : Except ScriptError Value) : (done answer t).Leads s :=
  ⟨frames, fun id _ found => .inl ((Store.function?_congr functions id).symm.trans found), nofun⟩

theorem Leads.of_same {t : Store} (same : s.SameCode t) (answer : Except ScriptError Value) :
    (Begun.done answer t).Leads s :=
  .done (.of_eq same.frames) same.functions answer

theorem Leads.running {control : Control} {stack : List Pending} {t : Store}
    (frames : s.KeepsFrames t) (functions : t.functions = s.functions)
    (envs : ∀ env, control.env? = some env →
      env.frame = ⟨s.frames.size⟩ ∧ s.frames.size < t.frames.size)
    (bare : stack.filterMap Pending.env? = []) : (running ⟨control, stack, t⟩).Leads s := by
  refine ⟨frames, fun id f found => .inl ((Store.function?_congr functions id).symm.trans found), ?_⟩
  rintro _ ⟨⟩ env mem
  unfold Config.envs at mem
  rw [bare, List.append_nil] at mem
  have own := Option.mem_toList.1 mem
  exact ⟨own, envs env own⟩

section

variable {u t : Store} {files : Files} {rt : RuntimeId} {module : NamespaceId} {path : String}

/-- A file that has been started runs in the activation that has been made for it. -/
theorem Leads.started {control : Control} (before : s.SameCode u)
    (started : u.startFile files rt module path = (.ok control, t)) {stack : List Pending}
    (bare : stack.filterMap Pending.env? = []) : (Begun.running ⟨control, stack, t⟩).Leads s := by
  obtain ⟨frames, functions, starts⟩ := Store.startFile_leads started
  refine .running ((Store.KeepsFrames.of_eq before.frames).trans frames)
    (functions.trans before.functions) (fun env there => ?_) bare
  obtain ⟨place, larger, -⟩ := starts control rfl
  obtain rfl := Option.some.inj (there.symm.trans place)
  rw [before.frames] at larger
  exact ⟨congrArg (fun frames => FrameId.mk frames.size) before.frames, larger⟩

/-- Nothing runs if a file cannot be started. -/
theorem Leads.refused {e : ScriptError} {v : Store} (before : s.SameCode u)
    (refused : u.startFile files rt module path = (.error e, t)) (after : t.SameCode v) :
    (Begun.done (.error e) v).Leads s := by
  obtain ⟨frames, functions, -⟩ := Store.startFile_leads refused
  exact .done ((Store.KeepsFrames.of_eq before.frames).trans (frames.trans (.of_eq after.frames)))
    (after.functions.trans (functions.trans before.functions)) _

end

end Begun

/-- **What any request may begin with outside the heap.** -/
theorem Request.leads_begin (setting : Setting) (s : Store) (request : Request) :
    (request.begin setting s).Leads s := by
  have before := s.sameCode_beginLoad
  match request, request.begin setting s, request.beginsAs setting s with
  | _, _, .build => exact .of_same (s.sameCode_buildRuntime setting.registry _ _ _) _
  | _, _, .drop | _, _, .change =>
    refine .of_same ?_ _
    exact ⟨rfl, rfl⟩
  | _, _, .offer =>
    refine ⟨.of_eq rfl, fun id f found => ?_, nofun⟩
    exact (Store.function?_newFunction found).imp_right fun made => ⟨_, _, _, made⟩
  | _, _, .source (t := t) prepared =>
    obtain ⟨same, -⟩ := Store.prepare_eq prepared
    have place : t.frames.size = s.frames.size := congrArg Array.size same.frames
    refine .running ((Store.KeepsFrames.of_eq same.frames).trans (t.keepsFrames_newFrame _ _ _))
      same.functions ?_ rfl
    rintro _ ⟨⟩
    exact ⟨congrArg FrameId.mk place, place ▸ t.size_lt_newFrame _ _ _⟩
  | _, _, .noSource prepared => exact .of_same (Store.prepare_eq prepared).1 _
  | _, _, .fileIn started => exact .started (.refl s) started rfl
  | _, _, .noFileIn refused => exact .refused (.refl s) refused (.refl _)
  | _, _, .fileAs started => exact .started (before _ _) started rfl
  | _, _, .noFileAs refused => exact .refused (before _ _) refused (Store.sameCode_undoLoad _ _)
  | _, _, .call => exact .running (.refl s) rfl (fun _ never => by cases never) rfl
  | _, _, .effect =>
    refine .running (.of_eq rfl) rfl (fun env there => ?_) rfl
    rw [Control.env?_ofReply] at there
    cases there

end HostScript
