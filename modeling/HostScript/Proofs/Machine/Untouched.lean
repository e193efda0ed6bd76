import HostScript.Proofs.Compile.Accepts
import HostScript.Proofs.Dispatch.Faithful
import HostScript.Session

/-!
# Proofs/Machine/Untouched — sources that are no programs leave no trace

A source is read, made into a tree and compiled before any of it runs.  If one of these fails, the
store is as it was but for rules that have been requested, and these have no branches yet:
`Store.Untouched`.  With what compiling settles on (`Compile.settles_node`) this says which sources
run at all (`units_run_iff_wellPlaced`).
-/

namespace HostScript

/-! ## Trees -/

/-- **What compiling answers** is the first fault of the tree, with the position where it starts. -/
theorem compile_settles (number : Nat) (source : List Char) (tree : Node) :
    match Node.firstFault? (tree.constructs []) with
    | none => ∃ program, (compile number source tree).1 = .ok program
    | some (cause, span) =>
      (compile number source tree).1 =
        .error ⟨cause, (LineIndex.ofSource source).position span.start, span⟩ := by
  have settles := Compile.settles_node (fun span => (LineIndex.ofSource source).position span.start)
    tree [] ⟨0, ⟨number, 1⟩, [], [.module ⟨number, 0⟩]⟩ rfl
  unfold compile
  revert settles
  cases Node.firstFault? (tree.constructs []) with
  | none =>
    intro settles
    obtain ⟨code, after, ran, -⟩ := settles
    dsimp only
    rw [ran]
    exact ⟨_, rfl⟩
  | some fault =>
    intro settles
    obtain ⟨after, ran⟩ := settles
    dsimp only
    rw [ran]
    rfl

/-- **A tree is a program just if all its constructs stand where they may.** -/
theorem compile_ok_iff {number : Nat} {source : List Char} {tree : Node} :
    (∃ program, (compile number source tree).1 = .ok program) ↔
      ∀ c ∈ tree.constructs [], c.2.WellPlaced c.1 := by
  rw [← Node.firstFault?_eq_none_iff]
  have settles := compile_settles number source tree
  cases found : Node.firstFault? (tree.constructs []) with
  | none =>
    rw [found] at settles
    exact iff_of_true settles rfl
  | some fault =>
    rw [found] at settles
    refine iff_of_false ?_ (Option.some_ne_none _)
    rintro ⟨program, ok⟩
    cases ok.symm.trans settles

/-- **What is wrong with a tree is what is wrong with the first construct that has a fault.** -/
theorem compile_error_iff {number : Nat} {source : List Char} {tree : Node} {error : CompileError} :
    (compile number source tree).1 = .error error ↔
      error.position = (LineIndex.ofSource source).position error.span.start ∧
        ∃ before around part after, tree.constructs [] = before ++ (around, part) :: after ∧
          (∀ c ∈ before, c.2.WellPlaced c.1) ∧ part.fault? around = some (error.cause, error.span) := by
  rw [← Node.firstFault?_eq_some_iff]
  have settles := compile_settles number source tree
  cases found : Node.firstFault? (tree.constructs []) with
  | none =>
    rw [found] at settles
    obtain ⟨program, ok⟩ := settles
    refine iff_of_false ?_ ?_
    · intro failed
      cases ok.symm.trans failed
    · rintro ⟨-, never⟩
      cases never
  | some fault =>
    rw [found] at settles
    obtain ⟨cause, span⟩ := fault
    dsimp only at settles
    constructor
    · intro failed
      obtain rfl := Except.error.inj (settles.symm.trans failed)
      exact ⟨rfl, rfl⟩
    · obtain ⟨own, position, place⟩ := error
      rintro ⟨located, same⟩
      obtain ⟨rfl, rfl⟩ := Prod.mk.inj (Option.some.inj same)
      dsimp only at located
      rw [settles, located]

/-! ## Stores -/

/-- **A store in which nothing has been done** but requesting rules: the rules of every runtime have the
branches they had, and nothing else of the runtimes has changed. -/
structure Store.Untouched (s t : Store) : Prop where
  heap : t.toHeap = s.toHeap
  frames : t.frames = s.frames
  functions : t.functions = s.functions
  branches (rt : RuntimeId) (signature : Signature) :
    (t.runtime rt).rules.branches signature = (s.runtime rt).rules.branches signature
  others (rt : RuntimeId) : { t.runtime rt with rules := (s.runtime rt).rules } = s.runtime rt

namespace Store

variable {s t : Store}

theorem Untouched.refl (s : Store) : s.Untouched s :=
  ⟨rfl, rfl, rfl, fun _ _ => rfl, fun _ => rfl⟩

/-- Requesting rules changes nothing that counts. -/
theorem untouched_requests (s : Store) (rt : RuntimeId) (requests : List Signature) :
    s.Untouched (s.changeRules rt fun rules => requests.foldl Rules.request rules) := by
  refine ⟨rfl, rfl, rfl, fun other signature => ?_, fun other => ?_⟩
  · rcases runtime_changeRuntime s rt other _ with same | ⟨rfl, same⟩
    · exact congrArg (fun runtime => runtime.rules.branches signature) same
    · exact (congrArg (fun runtime => runtime.rules.branches signature) same).trans
        (Rules.branches_requests _ requests signature)
  · rcases runtime_changeRuntime s rt other _ with same | ⟨rfl, same⟩
    · exact congrArg (fun runtime => { runtime with rules := (s.runtime other).rules }) same
    · exact congrArg (fun runtime => { runtime with rules := (s.runtime other).rules }) same

/-- Preparing a source does nothing, whether it is a program or not. -/
theorem untouched_prepare {rt : RuntimeId} {text : String} {result : Except ScriptError Program}
    (h : s.prepare rt text = (result, t)) : s.Untouched t := by
  obtain rfl | ⟨requests, rfl⟩ := store_of_prepare h
  · exact .refl t
  · exact untouched_requests s rt requests

/-- A source is prepared just if it has a tree with all constructs where they may stand. -/
theorem prepare_ok_iff {rt : RuntimeId} {text : String} :
    (∃ program, (s.prepare rt text).1 = .ok program) ↔
      ∃ tree, parse text = .ok tree ∧ ∀ c ∈ tree.constructs [], c.2.WellPlaced c.1 := by
  constructor
  · rintro ⟨program, prepared⟩
    obtain ⟨tree, parsed, compiled⟩ := compiled_of_prepare (Prod.ext prepared rfl)
    exact ⟨tree, parsed, compile_ok_iff.1 ⟨program, compiled⟩⟩
  · rintro ⟨tree, parsed, placed⟩
    obtain ⟨program, compiled⟩ := compile_ok_iff.2 placed
    exact ⟨program, congrArg Prod.fst (prepare_of_compiled parsed compiled)⟩

/-- A file that cannot be read changes nothing, and neither does one whose source cannot be prepared,
once the module has learned the path to it. -/
theorem untouched_startFile {files : Files} {rt : RuntimeId} {module : NamespaceId} {path : String}
    {error : ScriptError} (h : s.startFile files rt module path = (.error error, t)) :
    (∃ e, files.read path = .error e ∧ t = s) ∨
      ∃ text full, files.read path = .ok (text, full) ∧
        (s.bind module "__file__" (.text full)).prepare rt text = (.error error, t) ∧
        (s.bind module "__file__" (.text full)).Untouched t := by
  cases fileStarts_of_eq h with
  | unreadable unreadable => exact .inl ⟨_, unreadable, rfl⟩
  | refused readable prepared =>
    exact .inr ⟨_, _, readable, prepared, untouched_prepare prepared⟩

end Store

/-- A source that cannot be prepared is not run, however many steps may be made. -/
theorem Machine.execute_of_prepare {rt : RuntimeId} {text : String} {s t : Store} {error : ScriptError}
    (h : s.prepare rt text = (.error error, t)) (setting : Setting) (fuel : Nat)
    (module : NamespaceId) :
    Machine.execute setting fuel rt module text s = some (.error error, t) := by
  unfold Machine.execute
  rw [h]

/-- A source that is run and not prepared is one that cannot be prepared. -/
theorem Machine.prepare_of_execute {setting : Setting} {fuel : Nat} {rt : RuntimeId}
    {module : NamespaceId} {text : String} {s t : Store} {error : ScriptError}
    (h : Machine.execute setting fuel rt module text s = some (.error error, t))
    (early : ∀ e, error ≠ .eval e) : s.prepare rt text = (.error error, t) := by
  unfold Machine.execute at h
  split at h
  next =>
    obtain ⟨⟨answer, after⟩, -, same⟩ := Option.map_eq_some_iff.1 h
    obtain ⟨failed, -⟩ := Prod.mk.inj same
    cases answer with
    | ok v => cases failed
    | error e => exact absurd (Except.error.inj failed).symm (early e)
  next e after prepared =>
    obtain ⟨same, rfl⟩ := Prod.mk.inj (Option.some.inj h)
    obtain rfl := Except.error.inj same
    exact prepared

/-! ## Which units run -/

/-- **A unit runs just if all its constructs stand where they may.**

* Compiling a tree succeeds just if each `return` is in a function or lambda, each `break` in a loop with
  no function in between, each function and import in the module itself, and each assignment before a
  name, a member or an indexed place.
* Else it fails with what is wrong with the first construct that has a fault, each construct being
  looked at before its parts.
* A source that cannot be read, has no tree or is no program is not run, however many steps may be made:
  no heap, activation or function has changed and no rule has another branch than before.  It is the
  same for a file that is run, from when its module has learned the path to it; one that cannot be read
  changes nothing at all.
* Executing a source fails before it runs just in these cases. -/
theorem units_run_iff_wellPlaced :
    (∀ (number : Nat) (source : List Char) (tree : Node),
      ((∃ program, (compile number source tree).1 = .ok program) ↔
        ∀ c ∈ tree.constructs [], c.2.WellPlaced c.1) ∧
      ∀ error, (compile number source tree).1 = .error error ↔
        error.position = (LineIndex.ofSource source).position error.span.start ∧
          ∃ before around part after, tree.constructs [] = before ++ (around, part) :: after ∧
            (∀ c ∈ before, c.2.WellPlaced c.1) ∧
            part.fault? around = some (error.cause, error.span)) ∧
    (∀ (s : Store) (rt : RuntimeId) (text : String),
      ((∃ program, (s.prepare rt text).1 = .ok program) ↔
        ∃ tree, parse text = .ok tree ∧ ∀ c ∈ tree.constructs [], c.2.WellPlaced c.1) ∧
      ∀ t error, s.prepare rt text = (.error error, t) → s.Untouched t ∧
        ∀ setting fuel module,
          Machine.execute setting fuel rt module text s = some (.error error, t)) ∧
    (∀ (files : Files) (rt : RuntimeId) (module : NamespaceId) (path : String) (s t : Store) (error),
      s.startFile files rt module path = (.error error, t) →
        (∃ e, files.read path = .error e ∧ t = s) ∨
          ∃ text full, files.read path = .ok (text, full) ∧
            (s.bind module "__file__" (.text full)).prepare rt text = (.error error, t) ∧
            (s.bind module "__file__" (.text full)).Untouched t) ∧
    ∀ (setting : Setting) (fuel : Nat) (rt : RuntimeId) (module : NamespaceId) (text : String)
      (s t : Store) (error : ScriptError),
      Machine.execute setting fuel rt module text s = some (.error error, t) →
        (∀ e, error ≠ .eval e) → s.prepare rt text = (.error error, t) ∧ s.Untouched t := by
  refine ⟨fun number source tree => ⟨compile_ok_iff, fun error => compile_error_iff⟩, ?_, ?_, ?_⟩
  · refine fun s rt text => ⟨Store.prepare_ok_iff, fun t error prepared => ?_⟩
    exact ⟨Store.untouched_prepare prepared, Machine.execute_of_prepare prepared⟩
  · exact fun files rt module path s t error started => Store.untouched_startFile started
  · intro setting fuel rt module text s t error executed early
    have prepared := Machine.prepare_of_execute executed early
    exact ⟨prepared, Store.untouched_prepare prepared⟩

/-- Why a source cannot be prepared. -/
def Store.refusal? (s : Store) (rt : RuntimeId) (text : String) : Option ScriptError :=
  match (s.prepare rt text).1 with
  | .ok _ => none
  | .error e => some e

theorem Store.prepare_of_refusal? {s : Store} {rt : RuntimeId} {text : String} {e : ScriptError}
    (h : s.refusal? rt text = some e) : ∃ t, s.prepare rt text = (.error e, t) := by
  refine ⟨(s.prepare rt text).2, Prod.ext ?_ rfl⟩
  unfold refusal? at h
  split at h
  next => cases h
  next error failed =>
    obtain rfl := Option.some.inj h
    exact failed

/-- A `break` in a function in a loop is the first fault of a text, and nothing of the text has run. -/
theorem units_run_iff_wellPlaced_break :
    let text := "x = 1; loop { if (x == 3) { break; } f = lambda () { break } }; return"
    ∃ t, Machine.execute ⟨.initial, #[], .empty⟩ 0 ⟨0⟩ ⟨1⟩ text .empty =
        some (.error (.compile ⟨.breakOutsideLoop, ⟨1, 54⟩, ⟨53, 58⟩⟩), t) ∧
      Store.empty.Untouched t := by
  intro text
  have fails : Store.empty.refusal? ⟨0⟩ text =
      some (.compile ⟨.breakOutsideLoop, ⟨1, 54⟩, ⟨53, 58⟩⟩) := by decide +kernel
  obtain ⟨t, prepared⟩ := Store.prepare_of_refusal? fails
  obtain ⟨-, sources, -, -⟩ := units_run_iff_wellPlaced
  obtain ⟨-, refused⟩ := sources .empty ⟨0⟩ text
  obtain ⟨kept, executed⟩ := refused t _ prepared
  exact ⟨t, executed _ 0 ⟨1⟩, kept⟩

end HostScript
