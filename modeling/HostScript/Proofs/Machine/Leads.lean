import HostScript.Proofs.Compile.Mirror
import HostScript.Proofs.Machine.Sound

/-!
# Proofs/Machine/Leads — what a step may do to code and activations

`Leads` says once what a step may do outside the heap.  Activations stay as they are, but for the slot
that a waiting write is about; functions are only added, by evaluating a function or lambda; code goes on
in the environments there are or in that of a new activation; and the imports that may still be made
are among those there were and those in the texts of the files.
-/

namespace HostScript

/-! ## Imports and environments of a state -/

/-- The paths that a tree imports. -/
def Node.imports (tree : Node) : List (List String) := tree.uses.filterMap Use.path?

/-- The paths that a code imports. -/
def Code.imports (code : Code) : List (List String) := code.accesses.filterMap Access.path?

/-- The paths that codes import. -/
def Code.importsOf (codes : List Code) : List (List String) :=
  (Code.accessesOf codes).filterMap Access.path?

/-- The paths that tests and bodies import. -/
def Code.importsOfArms (branches : List (Code × Code)) : List (List String) :=
  (Code.accessesOfArms branches).filterMap Access.path?

/-- The paths that a text imports, if it has a tree. -/
def textImports (text : String) : List (List String) :=
  match parse text with
  | .ok tree => tree.imports
  | .error _ => []

/-- The paths that the texts of files import. -/
def Files.imports (files : Files) : List (List String) :=
  files.entries.flatMap fun e =>
    match e.2 with
    | some text => textImports text
    | none => []

/-- The paths that a function imports. -/
@[simp] def Callable.imports : Callable → List (List String)
  | .script template _ _ _ => template.body.imports
  | .native _ _ _ => []

/-- The environment that a machine is about to work in. -/
@[simp] def Control.env? : Control → Option Env
  | .eval env _ => some env
  | .dispatch env _ _ => some env
  | _ => none

/-- The paths that code about to be evaluated imports. -/
@[simp] def Control.imports : Control → List (List String)
  | .eval _ code => code.imports
  | _ => []

theorem Control.env?_ofReply (reply : Reply) : (Control.ofReply reply).env? = none := by
  cases reply <;> rfl

theorem Control.imports_ofReply (reply : Reply) : (Control.ofReply reply).imports = [] := by
  cases reply <;> rfl

/-- The environment that waiting code runs in. -/
@[simp] def Pending.env? : Pending → Option Env
  | .operands env _ _ _ _ => some env
  | .test env _ _ _ => some env
  | .sequence env _ => some env
  | .loop env _ _ => some env
  | _ => none

/-- The paths that waiting code imports. -/
@[simp] def Pending.imports : Pending → List (List String)
  | .operands _ _ _ _ todo => Code.importsOf todo
  | .test _ body rest otherwise => body.imports ++ (Code.choose rest otherwise).imports
  | .sequence _ rest => Code.importsOf rest
  | .loop _ _ body => body.imports
  | _ => []

namespace Config

/-- The environments of a state. -/
def envs (c : Config) : List Env := c.control.env?.toList ++ c.stack.filterMap Pending.env?

/-- The paths that the code of a state imports. -/
def imports (c : Config) : List (List String) := c.control.imports ++ c.stack.flatMap Pending.imports

end Config

theorem Files.mem_imports {files : Files} {path text full : String} {p : List String}
    (readable : files.read path = .ok (text, full)) (among : p ∈ textImports text) :
    p ∈ files.imports := by
  have held : ∃ names, (names, some text) ∈ files.entries := by
    unfold Files.read at readable
    cases located : files.locate path with
    | error e =>
      rw [located] at readable
      cases readable
    | ok place =>
      rw [located] at readable
      cases place with
      | above => cases readable
      | inside names =>
        cases found : files.entries.find? (·.1 = names) with
        | none =>
          simp only [bind, Except.bind, found] at readable
          cases readable
        | some entry =>
          obtain ⟨at_entry, content⟩ := entry
          cases content with
          | none =>
            simp only [bind, Except.bind, found] at readable
            cases readable
          | some own =>
            simp only [bind, Except.bind, found] at readable
            obtain ⟨rfl, -⟩ := Prod.mk.inj (Except.ok.inj readable)
            exact ⟨at_entry, List.mem_of_find?_eq_some found⟩
  obtain ⟨names, entry⟩ := held
  exact List.mem_flatMap.2 ⟨_, entry, among⟩

/-! ## Imports of codes -/

namespace Code

@[simp] theorem imports_write (slot : SlotRef) (value : Code) :
    (write slot value).imports = value.imports := by
  simp [imports, Access.path?]

@[simp] theorem imports_dispatch (position : Position) (s : Signature) (operands : List Code) :
    (dispatch position s operands).imports = importsOf operands := by
  have none : s.accesses.filterMap Access.path? = [] := by
    unfold Signature.accesses
    split <;> rfl
  rw [imports, accesses, List.filterMap_append, none, List.nil_append]
  rfl

@[simp] theorem imports_choose (branches : List (Code × Code)) (otherwise : Code) :
    (choose branches otherwise).imports = importsOfArms branches ++ otherwise.imports := by
  rw [imports, accesses, List.filterMap_append]
  rfl

@[simp] theorem imports_loop (label : Label) (body : Code) :
    (loop label body).imports = body.imports := by
  rw [imports, accesses]
  rfl

@[simp] theorem imports_leave (label : Label) (value : Code) :
    (leave label value).imports = value.imports := by
  rw [imports, accesses]
  rfl

@[simp] theorem imports_give (label : Label) (value : Code) :
    (give label value).imports = value.imports := by
  rw [imports, accesses]
  rfl

@[simp] theorem imports_sequence (codes : List Code) : (sequence codes).imports = importsOf codes := by
  rw [imports, accesses]
  rfl

@[simp] theorem importsOf_cons (code : Code) (rest : List Code) :
    importsOf (code :: rest) = code.imports ++ importsOf rest := by
  rw [importsOf, accessesOf, List.filterMap_append]
  rfl

@[simp] theorem importsOfArms_cons (test body : Code) (rest : List (Code × Code)) :
    importsOfArms ((test, body) :: rest) = test.imports ++ (body.imports ++ importsOfArms rest) := by
  rw [importsOfArms, accessesOfArms, List.filterMap_append, List.filterMap_append]
  rfl

end Code

namespace Store

variable {s t u : Store}

/-- **Activations that stay as they are.** -/
def KeepsFrames (s t : Store) : Prop :=
  ∀ (i : Nat) (frame : Frame), s.frames[i]? = some frame → t.frames[i]? = some frame

theorem KeepsFrames.refl (s : Store) : s.KeepsFrames s := fun _ _ found => found

theorem KeepsFrames.trans (h : s.KeepsFrames t) (k : t.KeepsFrames u) : s.KeepsFrames u :=
  fun i frame found => k i frame (h i frame found)

theorem KeepsFrames.of_eq (same : t.frames = s.frames) : s.KeepsFrames t :=
  fun _ _ found => same ▸ found

theorem keepsFrames_newFrame (s : Store) (layout : Layout) (values : List Value)
    (parent? : Option FrameId) : s.KeepsFrames (s.newFrame layout values parent?).2 :=
  fun _ _ found => frames_newFrame found layout values parent?

/-- What a source is prepared from: its tree, which the program does with names what it does. -/
theorem imports_prepare {rt : RuntimeId} {text : String} {program : Program}
    (h : s.prepare rt text = (.ok program, t)) : program.code.imports = textImports text := by
  obtain ⟨tree, parsed, compiled⟩ := compiled_of_prepare h
  unfold textImports
  rw [parsed]
  exact (mirrors_compile compiled).1

/-- Starting a file makes one activation at most, and imports what its text does. -/
theorem startFile_leads {files : Files} {rt : RuntimeId} {module : NamespaceId} {path : String}
    {result : Except ScriptError Control} (h : s.startFile files rt module path = (result, t)) :
    s.KeepsFrames t ∧ t.functions = s.functions ∧ ∀ control, result = .ok control →
      control.env? = some ⟨⟨s.frames.size⟩, module, rt⟩ ∧ s.frames.size < t.frames.size ∧
        ∀ p ∈ control.imports, p ∈ files.imports := by
  have told (full : String) : SameCode s (s.bind module "__file__" (.text full)) := ⟨rfl, rfl⟩
  cases fileStarts_of_eq h with
  | unreadable => exact ⟨.refl s, rfl, nofun⟩
  | refused _ prepared =>
    have same := (told _).trans (prepare_eq prepared).1
    exact ⟨.of_eq same.frames, same.functions, nofun⟩
  | @starts text full program u readable prepared =>
    have same := (told _).trans (prepare_eq prepared).1
    have place : u.frames.size = s.frames.size := congrArg Array.size same.frames
    refine ⟨(KeepsFrames.of_eq same.frames).trans (u.keepsFrames_newFrame _ _ _), same.functions, ?_⟩
    rintro _ ⟨⟩
    refine ⟨congrArg (fun n => some (Env.mk ⟨n⟩ module rt)) place,
      place ▸ u.size_lt_newFrame program.layout [] none, fun p among => ?_⟩
    have own : program.code.imports = textImports text := imports_prepare prepared
    exact Files.mem_imports readable (own ▸ among)

end Store

/-! ## Steps -/

namespace Machine

/-- Whether a state is one in which a value is about to be written to a slot. -/
def Writes (c : Config) (v : Value) (id : FrameId) (slot : SlotRef) : Prop :=
  c.control = .value v ∧ ∃ rest, c.stack = .write id slot :: rest

/-- **What a step may do outside the heap.** -/
structure Leads (setting : Setting) (c d : Config) : Prop where
  frames : (∃ v id slot, Writes c v id slot ∧
      d.store.frames = (c.store.writeSlot id slot v).frames) ∨ c.store.KeepsFrames d.store
  functions (id : FunctionId) (f : Callable) : d.store.function? id = some f →
    c.store.function? id = some f ∨ ∃ env template, c.control = .eval env (.closure template) ∧
      f = .script template env.frame env.module env.runtime
  envs : ∀ env ∈ d.envs, env ∈ c.envs ∨ d.control.env? = some env ∧
    env.frame = ⟨c.store.frames.size⟩ ∧ c.store.frames.size < d.store.frames.size
  imports : ∀ p ∈ d.imports, p ∈ c.imports ∨ p ∈ setting.files.imports ∨
    ∃ id f, c.store.function? id = some f ∧ p ∈ f.imports

variable {setting : Setting} {c d : Config}

/-- A step that makes no activation and no function, and goes on with no other code. -/
theorem Leads.quiet (frames : d.store.frames = c.store.frames)
    (functions : d.store.functions = c.store.functions) (envs : ∀ env ∈ d.envs, env ∈ c.envs)
    (imports : ∀ p ∈ d.imports, p ∈ c.imports) : Leads setting c d := by
  refine ⟨.inr (.of_eq frames), fun id f found => .inl ?_, fun env mem => .inl (envs env mem),
    fun p mem => .inl (imports p mem)⟩
  exact (Store.function?_congr functions id).symm.trans found

variable {env : Env} {stack : List Pending} {s : Store}

/-- A step that works on the top of the stack alone, and goes on with no other code. -/
theorem Leads.atop {control inner : Control} (before after : List Pending)
    (envs : ∀ env ∈ Config.envs ⟨inner, after, s⟩, env ∈ Config.envs ⟨control, before, s⟩)
    (imports : ∀ p ∈ Config.imports ⟨inner, after, s⟩, p ∈ Config.imports ⟨control, before, s⟩) :
    Leads setting ⟨control, before ++ stack, s⟩ ⟨inner, after ++ stack, s⟩ := by
  refine .quiet rfl rfl (fun env mem => ?_) fun p mem => ?_
  · unfold Config.envs at envs mem ⊢
    rw [List.filterMap_append, ← List.append_assoc] at mem ⊢
    exact List.mem_append.2 ((List.mem_append.1 mem).imp_left (envs env))
  · unfold Config.imports at imports mem ⊢
    rw [List.flatMap_append, ← List.append_assoc] at mem ⊢
    exact List.mem_append.2 ((List.mem_append.1 mem).imp_left (imports p))

theorem leads_importPath (position : Position) (path : List String) (name : String)
    (waiting : List Pending) (own : waiting.filterMap Pending.env? = stack.filterMap Pending.env?)
    (none : waiting.flatMap Pending.imports = stack.flatMap Pending.imports) :
    Leads setting ⟨.eval env (.importAs position path name), stack, s⟩
      (importPath setting env path waiting s) := by
  have quiet (control : Control) (plain : control.env? = Option.none) (bare : control.imports = []) :
      Leads setting ⟨.eval env (.importAs position path name), stack, s⟩ ⟨control, waiting, s⟩ := by
    refine .quiet rfl rfl (fun other mem => ?_) (fun p mem => ?_)
    · unfold Config.envs at mem ⊢
      dsimp only at mem
      rw [plain, own] at mem
      exact List.mem_append_right _ mem
    · unfold Config.imports at mem ⊢
      dsimp only at mem
      rw [bare, none] at mem
      exact List.mem_append_right _ mem
  match importPath setting env path waiting s, importsTo setting env path waiting s with
  | _, .bound _ | _, .missing _ _ => exact quiet _ rfl rfl
  | _, .starts file =>
    obtain ⟨frames, functions, starts⟩ := Store.startFile_leads file.started
    obtain ⟨place, larger, imports⟩ := starts _ rfl
    refine ⟨.inr frames, fun id f found => .inl ?_, fun other mem => ?_, fun p mem => ?_⟩
    · exact (Store.function?_congr functions id).symm.trans found
    · unfold Config.envs at mem ⊢
      dsimp only at mem
      rw [place] at mem
      rcases List.mem_append.1 mem with here | there
      · obtain rfl := List.mem_singleton.1 here
        exact .inr ⟨place, rfl, larger⟩
      · exact .inl (List.mem_append_right _ (own ▸ there))
    · unfold Config.imports at mem ⊢
      dsimp only at mem
      rcases List.mem_append.1 mem with here | there
      · exact .inr (.inl (imports p here))
      · exact .inl (List.mem_append_right _ (none ▸ there))
  | _, .refused file =>
    obtain ⟨frames, functions, -⟩ := Store.startFile_leads file.started
    refine ⟨.inr frames, fun id f found => .inl ?_, fun other mem => .inl ?_, fun p mem => .inl ?_⟩
    · exact (Store.function?_congr functions id).symm.trans found
    · exact List.mem_append_right _ (own ▸ mem)
    · exact List.mem_append_right _ (none ▸ mem)

/-- **Evaluating code** goes on with parts of it. -/
theorem leads_eval (code : Code) :
    Leads setting ⟨.eval env code, stack, s⟩ (eval setting env code stack s) := by
  have quiet (control : Control) (waiting : List Pending)
      (place : ∀ other ∈ Config.envs ⟨control, waiting, s⟩, other = env)
      (parts : ∀ p ∈ Config.imports ⟨control, waiting, s⟩, p ∈ code.imports) :
      Leads setting ⟨.eval env code, stack, s⟩ ⟨control, waiting ++ stack, s⟩ := by
    refine .atop [] waiting (fun other mem => ?_) fun p mem => ?_
    · exact List.mem_append_left _ (List.mem_singleton.2 (place other mem))
    · exact List.mem_append_left _ (parts p mem)
  cases code with
  | closure template =>
    refine ⟨.inr (.of_eq rfl), fun id f found => ?_, fun other mem => .inl (List.mem_append_right _ mem),
      fun p mem => .inl (List.mem_append_right _ mem)⟩
    exact (Store.function?_newFunction found).imp_right fun made => ⟨env, template, rfl, made⟩
  | importAs position path name => exact leads_importPath position path name _ rfl rfl
  | null | constant | thisModule | read => exact quiet _ [] nofun nofun
  | write slot value =>
    exact quiet _ [.write env.frame slot] (by simp [Config.envs]) (by simp [Config.imports])
  | dispatch position signature operands =>
    cases operands with
    | nil => exact quiet _ [.locate position] (by simp [Config.envs]) nofun
    | cons first rest =>
      exact quiet _ [.operands env position signature [] rest] (by simp [Config.envs])
        (by simp [Config.imports])
  | choose branches otherwise =>
    cases branches with
    | nil => exact quiet _ [] (by simp [Config.envs]) (by simp +contextual [Config.imports])
    | cons first rest =>
      obtain ⟨test, body⟩ := first
      exact quiet _ [.test env body rest otherwise] (by simp [Config.envs]) (by simp [Config.imports])
  | loop label body => exact quiet _ [.loop env label body] (by simp [Config.envs]) (by simp [Config.imports])
  | leave label value => exact quiet _ [.leave label] (by simp [Config.envs]) (by simp [Config.imports])
  | give label value => exact quiet _ [.give label] (by simp [Config.envs]) (by simp [Config.imports])
  | sequence codes =>
    cases codes with
    | nil => exact quiet _ [] nofun nofun
    | cons first rest =>
      exact quiet _ [.sequence env rest] (by simp [Config.envs]) (by simp [Config.imports])

/-- **Handing a value to what waits for it.** -/
theorem leads_resume (v : Value) (waiting : Pending) :
    Leads setting ⟨.value v, waiting :: stack, s⟩ (resume v waiting stack s) := by
  have quiet (control : Control) (next : List Pending)
      (place : ∀ env ∈ Config.envs ⟨control, next, s⟩, env ∈ waiting.env?)
      (parts : ∀ p ∈ Config.imports ⟨control, next, s⟩, p ∈ waiting.imports) :
      Leads setting ⟨.value v, waiting :: stack, s⟩ ⟨control, next ++ stack, s⟩ := by
    refine .atop [waiting] next (fun env mem => ?_) fun p mem => ?_
    · exact List.mem_filterMap.2 ⟨waiting, List.mem_singleton_self _, place env mem⟩
    · exact List.mem_flatMap.2 ⟨waiting, List.mem_singleton_self _, parts p mem⟩
  cases waiting with
  | write id slot =>
    refine ⟨.inl ⟨v, id, slot, ⟨rfl, stack, rfl⟩, rfl⟩, fun f callable found => .inl ?_, ?_, ?_⟩
    · exact (Store.function?_congr (s.functions_writeSlot id slot v) f).symm.trans found
    · exact fun env mem => .inl mem
    · exact fun p mem => .inl mem
  | operands env position signature done todo =>
    cases todo with
    | nil => exact quiet _ [.locate position] (by simp [Config.envs]) nofun
    | cons next todo =>
      exact quiet _ [.operands env position signature (v :: done) todo] (by simp [Config.envs])
        (by simp [Config.imports])
  | test env body rest otherwise =>
    rw [resume_test]
    split
    · exact quiet _ [] (by simp [Config.envs]) (by simp +contextual [Config.imports])
    · exact quiet _ [] (by simp [Config.envs]) (by simp +contextual [Config.imports])
  | sequence env codes =>
    cases codes with
    | nil => exact quiet _ [] nofun nofun
    | cons next rest =>
      exact quiet _ [.sequence env rest] (by simp [Config.envs]) (by simp [Config.imports])
  | loop env label body =>
    exact quiet _ [.loop env label body] (by simp [Config.envs]) (by simp [Config.imports])
  | bind => exact .quiet rfl rfl (fun _ mem => mem) fun _ mem => mem
  | leave | give | locate | call | load => exact quiet _ [] nofun nofun

/-- **Taking pending work off the stack.** -/
theorem leads_unwind (e : Exit) (waiting : Pending) :
    Leads setting ⟨.exit e, waiting :: stack, s⟩ (unwind e waiting stack s) := by
  have quiet (control : Control) (t : Store) (same : s.SameCode t) (plain : control.env? = none)
      (bare : control.imports = []) :
      Leads setting ⟨.exit e, waiting :: stack, s⟩ ⟨control, stack, t⟩ := by
    refine .quiet same.frames same.functions (fun env mem => ?_) fun p mem => ?_
    · unfold Config.envs at mem ⊢
      dsimp only at mem
      rw [plain] at mem
      refine List.mem_append_right _ ?_
      exact (List.sublist_cons_self waiting stack).filterMap _ |>.subset mem
    · unfold Config.imports at mem ⊢
      dsimp only at mem
      rw [bare] at mem
      exact List.mem_append_right _ (List.mem_append_right _ mem)
  match e, waiting, unwind e waiting stack s, unwindsTo e waiting stack s with
  | _, _, _, .undone => exact quiet _ _ (s.sameCode_undoLoad _) rfl rfl
  | _, _, _, .left | _, _, _, .returned | _, _, _, .located | _, _, _, .failed _ | _, _, _, .passed _ =>
    exact quiet _ s (.refl s) rfl rfl

/-- What goes on after a member of the host. -/
theorem leads_reply {control : Control} (reply : Reply) (t : Store) (same : s.SameCode t) :
    Leads setting ⟨control, stack, s⟩ ⟨.ofReply reply, stack, t⟩ := by
  refine .quiet same.frames same.functions (fun env mem => ?_) fun p mem => ?_
  · unfold Config.envs at mem ⊢
    rw [Control.env?_ofReply] at mem
    exact List.mem_append_right _ mem
  · unfold Config.imports at mem ⊢
    rw [Control.imports_ofReply] at mem
    exact List.mem_append_right _ mem

/-- **Entering a function** goes on with its body in a new activation. -/
theorem leads_enter (function : FunctionInfo) (args : List Value) :
    Leads setting ⟨.enter function args, stack, s⟩ (enter setting function args stack s) := by
  match enter setting function args stack s, entersTo setting function args stack s with
  | _, .native _ _ _ => exact leads_reply _ _ ⟨rfl, rfl⟩
  | _, .noNative _ _ | _, .noFunction _ => exact leads_reply (.value .null) s (.refl s)
  | _, .dropped _ _ => exact leads_reply (.fail .runtimeDropped) s (.refl s)
  | _, .script _ _ _ _ found _ =>
    refine ⟨.inr (s.keepsFrames_newFrame _ _ _), fun _ _ found => .inl found, ?_, ?_⟩
    · intro env mem
      rcases List.mem_append.1 mem with here | there
      · obtain rfl := Option.some.inj (Option.mem_toList.1 here)
        exact .inr ⟨rfl, rfl, s.size_lt_newFrame _ _ _⟩
      · exact .inl (List.mem_append_right _ there)
    · simp only [Config.imports, Control.imports, Pending.imports, List.flatMap_cons,
        List.nil_append, List.mem_append]
      rintro p (body | mem)
      · exact .inr (.inr ⟨function.id, _, found, body⟩)
      · exact .inl mem

/-- **What a step may do outside the heap.** -/
theorem leads_step (setting : Setting) (c : Config) : Leads setting c (step setting c) := by
  match c, step setting c, stepsTo setting c with
  | _, _, .evaluates => exact leads_eval _
  | _, _, .replies done => exact leads_reply _ _ (Store.sameCode_of_dispatch done)
  | _, _, .handsOver done =>
    have same := Store.sameCode_of_dispatch done
    exact .quiet same.frames same.functions (fun _ mem => mem) fun _ mem => mem
  | _, _, .enters => exact leads_enter _ _
  | _, _, .resumes => exact leads_resume _ _
  | _, _, .unwinds => exact leads_unwind _ _
  | _, _, .rests _ => exact .quiet rfl rfl (fun _ mem => mem) fun _ mem => mem

end Machine

end HostScript
