import HostScript.Session

/-!
# Proofs/Machine/Starting — how sources, files, imports and requests start

What starts a source goes through the same few cases each time: the source has a tree that is compiled, or
it has not; a file is read, or it is not; an import finds what its path leads to, or a file, or nothing.
The cases are told apart once, with all that is known in each (`Store.FileStarts`, `Machine.ImportsTo`,
`Request.BeginsAs`), so that what is said of starts is said case by case.
-/

namespace HostScript

namespace Store

variable {s t : Store} {files : Files} {rt : RuntimeId} {module : NamespaceId} {path text : String}

/-! ## Sources -/

section

variable {tree : Node} {program : Program}

/-- Preparing a source requests rules at most. -/
theorem store_of_prepare {result : Except ScriptError Program} (h : s.prepare rt text = (result, t)) :
    t = s ∨ ∃ requests : List Signature,
      t = s.changeRules rt fun rules => requests.foldl Rules.request rules := by
  unfold prepare at h
  split at h
  next => exact .inl (Prod.mk.inj h).2.symm
  next => exact .inr ⟨_, (Prod.mk.inj h).2.symm⟩

/-- **What a source is prepared from**: its tree, and what that is compiled to. -/
theorem compiled_of_prepare (h : s.prepare rt text = (.ok program, t)) :
    ∃ tree, parse text = .ok tree ∧ (compile s.frames.size text.toList tree).1 = .ok program := by
  unfold prepare at h
  split at h
  next => cases congrArg Prod.fst h
  next tree parsed =>
    have answer := congrArg Prod.fst h
    dsimp only at answer
    cases compiled : (compile s.frames.size text.toList tree).1 with
    | error e =>
      rw [compiled] at answer
      cases answer
    | ok made =>
      rw [compiled] at answer
      obtain rfl := Except.ok.inj answer
      exact ⟨tree, parsed, compiled⟩

/-- **Why a source cannot be prepared**: it has no tree, or one that is not compiled. -/
theorem refused_of_prepare {e : ScriptError} (h : s.prepare rt text = (.error e, t)) :
    (∃ failed, parse text = .error failed ∧ e = .ofSyntax failed) ∨
      ∃ tree failed, parse text = .ok tree ∧
        (compile s.frames.size text.toList tree).1 = .error failed ∧ e = .compile failed := by
  unfold prepare at h
  split at h
  next failed refused => exact .inl ⟨failed, refused, (Except.error.inj (congrArg Prod.fst h)).symm⟩
  next tree parsed =>
    have answer := congrArg Prod.fst h
    dsimp only at answer
    cases compiled : (compile s.frames.size text.toList tree).1 with
    | error failed =>
      rw [compiled] at answer
      exact .inr ⟨tree, failed, parsed, compiled, (Except.error.inj answer).symm⟩
    | ok made =>
      rw [compiled] at answer
      cases answer

theorem prepare_of_compiled (parsed : parse text = .ok tree)
    (compiled : (compile s.frames.size text.toList tree).1 = .ok program) :
    s.prepare rt text = (.ok program, s.changeRules rt fun rules =>
      (compile s.frames.size text.toList tree).2.foldl Rules.request rules) := by
  unfold prepare
  rw [parsed]
  dsimp only
  rw [compiled]
  rfl

end

/-! ## Files -/

/-- **How the start of a file comes out**, with the store after it. -/
inductive FileStarts (s : Store) (files : Files) (rt : RuntimeId) (module : NamespaceId) (path : String) :
    Except ScriptError Control × Store → Prop where
  | unreadable {failed : ReadFailure} : files.read path = .error failed →
    FileStarts s files rt module path (.error (.eval (.ofCause (.unreadable path failed.message))), s)
  /-- The module has learned the path to the file, whose text is no program. -/
  | refused {text full : String} {e : ScriptError} {t : Store} : files.read path = .ok (text, full) →
    (s.bind module "__file__" (.text full)).prepare rt text = (.error e, t) →
    FileStarts s files rt module path (.error e, t)
  | starts {text full : String} {program : Program} {t : Store} : files.read path = .ok (text, full) →
    (s.bind module "__file__" (.text full)).prepare rt text = (.ok program, t) →
    FileStarts s files rt module path
      (.ok (t.startProgram rt module program).1, (t.startProgram rt module program).2)

theorem fileStarts (s : Store) (files : Files) (rt : RuntimeId) (module : NamespaceId) (path : String) :
    s.FileStarts files rt module path (s.startFile files rt module path) := by
  unfold startFile
  split
  next failed unreadable => exact .unreadable unreadable
  next text full readable =>
    dsimp only
    split
    next program t prepared => exact .starts readable prepared
    next e t prepared => exact .refused readable prepared

theorem fileStarts_of_eq {result : Except ScriptError Control × Store}
    (h : s.startFile files rt module path = result) : s.FileStarts files rt module path result :=
  h ▸ s.fileStarts files rt module path

end Store

namespace Machine

/-! ## Imports -/

/-- **A file that an import finds**: the path is a name that nothing is bound to, and there is a file for it,
the start of which comes to a result. -/
structure FindsFile (setting : Setting) (env : Env) (path : List String) (s : Store) (name : String)
    (result : Except ScriptError Control) (t : Store) : Prop where
  named : path = [name]
  unbound : s.lookUpPath (s.runtime env.runtime).globals path = none
  isFile : setting.files.isFile (s.siblingFile env name) = true
  started : (s.beginLoad env.runtime name).2.startFile setting.files env.runtime
    (s.beginLoad env.runtime name).1.module (s.siblingFile env name) = (result, t)

/-- **What an import of a path comes to.** -/
inductive ImportsTo (setting : Setting) (env : Env) (path : List String) (stack : List Pending) (s : Store) :
    Config → Prop where
  | bound {v : Value} : s.lookUpPath (s.runtime env.runtime).globals path = some v →
    ImportsTo setting env path stack s ⟨.value v, stack, s⟩
  | starts {name : String} {control : Control} {t : Store} :
    FindsFile setting env path s name (.ok control) t →
    ImportsTo setting env path stack s ⟨control, .load (s.beginLoad env.runtime name).1 :: stack, t⟩
  | refused {name : String} {e : ScriptError} {t : Store} :
    FindsFile setting env path s name (.error e) t →
    ImportsTo setting env path stack s
      ⟨.exit (.fail e.toEval), .load (s.beginLoad env.runtime name).1 :: stack, t⟩
  | missing {name place : String} : s.lookUpPath (s.runtime env.runtime).globals path = none →
    (∀ name, path = [name] → setting.files.isFile (s.siblingFile env name) = false) →
    ImportsTo setting env path stack s ⟨.fail (.importNotFound name place), stack, s⟩

theorem importsTo (setting : Setting) (env : Env) (path : List String) (stack : List Pending) (s : Store) :
    ImportsTo setting env path stack s (importPath setting env path stack s) := by
  unfold importPath
  split
  next v found => exact .bound found
  next name unbound =>
    dsimp only
    split
    next isFile =>
      split
      next control t started => exact .starts ⟨rfl, unbound, isFile, started⟩
      next e t started => exact .refused ⟨rfl, unbound, isFile, started⟩
    next noFile =>
      refine .missing unbound ?_
      rintro _ ⟨⟩
      exact Bool.eq_false_iff.2 noFile
  next dotted unbound => exact .missing unbound fun name same => absurd same (dotted name)

end Machine

namespace Request

/-! ## Requests -/

/-- **How a request begins.** -/
inductive BeginsAs (setting : Setting) (s : Store) : Request → Begun → Prop where
  | build {libraries : List (List TypeInfo)} {instances : List HostObject} {extension : String} :
    BeginsAs setting s (.build libraries instances extension)
      (.done (.ok .null) (s.buildRuntime setting.registry libraries instances extension).2)
  | drop {rt : RuntimeId} : BeginsAs setting s (.drop rt)
      (.done (.ok .null) (s.changeRuntime rt fun runtime => { runtime with alive := false }))
  | change {f : Heap → Heap} : BeginsAs setting s (.change f) (.done (.ok .null) (s.changeHeap f))
  | offer {name : String} {arity index : Nat} : BeginsAs setting s (.offer name arity index)
      (.done (.ok (.function (s.newFunction (.native name arity index)).1))
        (s.newFunction (.native name arity index)).2)
  | source {rt : RuntimeId} {module : NamespaceId} {text : String} {program : Program} {t : Store} :
    s.prepare rt text = (.ok program, t) → BeginsAs setting s (.source rt module text)
      (.running ⟨(t.startProgram rt module program).1, [], (t.startProgram rt module program).2⟩)
  | noSource {rt : RuntimeId} {module : NamespaceId} {text : String} {e : ScriptError} {t : Store} :
    s.prepare rt text = (.error e, t) → BeginsAs setting s (.source rt module text) (.done (.error e) t)
  | fileIn {rt : RuntimeId} {module : NamespaceId} {path : String} {control : Control} {t : Store} :
    s.startFile setting.files rt module path = (.ok control, t) →
    BeginsAs setting s (.fileIn rt module path) (.running ⟨control, [], t⟩)
  | noFileIn {rt : RuntimeId} {module : NamespaceId} {path : String} {e : ScriptError} {t : Store} :
    s.startFile setting.files rt module path = (.error e, t) →
    BeginsAs setting s (.fileIn rt module path) (.done (.error e) t)
  | fileAs {rt : RuntimeId} {path name : String} {control : Control} {t : Store} :
    (s.beginLoad rt name).2.startFile setting.files rt (s.beginLoad rt name).1.module path =
      (.ok control, t) →
    BeginsAs setting s (.fileAs rt path name) (.running ⟨control, [.load (s.beginLoad rt name).1], t⟩)
  /-- What the name was bound to is bound again. -/
  | noFileAs {rt : RuntimeId} {path name : String} {e : ScriptError} {t : Store} :
    (s.beginLoad rt name).2.startFile setting.files rt (s.beginLoad rt name).1.module path =
      (.error e, t) →
    BeginsAs setting s (.fileAs rt path name) (.done (.error e) (t.undoLoad (s.beginLoad rt name).1))
  | call {function : FunctionInfo} {args : List Value} :
    BeginsAs setting s (.call function args) (.running ⟨.enter function args, [], s⟩)
  | effect {e : Effect} :
    BeginsAs setting s (.effect e) (.running ⟨.ofReply (s.onHeap e).1, [], (s.onHeap e).2⟩)

theorem beginsAs (setting : Setting) (s : Store) (request : Request) :
    BeginsAs setting s request (request.begin setting s) := by
  cases request with
  | build => exact .build
  | drop => exact .drop
  | change => exact .change
  | offer => exact .offer
  | source =>
    unfold begin
    dsimp only
    split
    next prepared => exact .source prepared
    next prepared => exact .noSource prepared
  | fileIn =>
    unfold begin
    dsimp only
    split
    next started => exact .fileIn started
    next started => exact .noFileIn started
  | fileAs =>
    unfold begin
    dsimp only
    split
    next started => exact .fileAs started
    next started => exact .noFileAs started
  | call => exact .call
  | effect => exact .effect

end Request

end HostScript
