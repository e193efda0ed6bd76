import HostScript.Proofs.Estate.Actions
import HostScript.Proofs.Machine.Starting

/-!
# Proofs/Estate/Stores — stores with a fence around an estate of a runtime

An estate of a runtime `a` has the runtime in it.  Functions of scripts that `a` has made may be kept
outside, though they lead back to `a`: whoever holds one cannot look into it, but only call it.  Apart from
these nothing outside refers into the estate of a fenced store (`Store.Fenced`), and what is done from
outside leaves the runtime and the namespaces of the estate as they are (`Store.Leaves`).
-/

namespace HostScript

variable {estate : Cell → Prop} {a : RuntimeId}

/-! ## What is kept in a store -/

/-- A runtime that keeps nothing of an estate. -/
structure Runtime.Outside (estate : Cell → Prop) (runtime : Runtime) : Prop where
  globals : ¬estate (.space runtime.globals)
  instances : ∀ o ∈ runtime.instances, ¬estate (.payload o.payload)
  rules : ∀ signature, ∀ branch ∈ runtime.rules.branches signature, branch.action.Outside estate

/-- An activation that keeps nothing of an estate. -/
structure Frame.Outside (estate : Cell → Prop) (frame : Frame) : Prop where
  slots : ∀ v ∈ frame.slots, v.Outside estate
  parent : ∀ outer, frame.parent? = some outer → ¬estate (.frame outer)

/-- A function that leads to nothing of an estate of a runtime, or one that this runtime has made. -/
@[simp] def Callable.Outside (estate : Cell → Prop) (a : RuntimeId) : Callable → Prop
  | .script _ frame module rt =>
    rt ≠ a → ¬estate (.frame frame) ∧ ¬estate (.space module) ∧ ¬estate (.runtime rt)
  | .native _ _ _ => True

/-- **A store with a fence around an estate of a runtime.** -/
structure Store.Fenced (estate : Cell → Prop) (a : RuntimeId) (s : Store) : Prop where
  heap : s.toHeap.Fenced estate estate
  frames (id : FrameId) : ¬estate (.frame id) → ∀ frame, s.frames[id.index]? = some frame →
    frame.Outside estate
  functions (id : FunctionId) : ¬estate (.function id) → ∀ f, s.function? id = some f →
    f.Outside estate a
  runtimes (id : RuntimeId) : ¬estate (.runtime id) → (s.runtime id).Outside estate
  framesThere (id : FrameId) : estate (.frame id) → id.index < s.frames.size
  functionsThere (id : FunctionId) : estate (.function id) → id.index < s.functions.size
  own : estate (.runtime a)

/-- **Leaving an estate alone**, from one store to another. -/
structure Store.Leaves (estate : Cell → Prop) (a : RuntimeId) (s t : Store) : Prop where
  fenced : t.Fenced estate a
  same (id : NamespaceId) : estate (.space id) → t.space id = s.space id
  runtime : t.runtime a = s.runtime a

namespace Store

variable {s t u : Store}

theorem Fenced.leaves (fenced : s.Fenced estate a) : s.Leaves estate a s := ⟨fenced, fun _ _ => rfl, rfl⟩

theorem Leaves.trans (first : s.Leaves estate a t) (second : t.Leaves estate a u) :
    s.Leaves estate a u :=
  ⟨second.fenced, fun id own => (second.same id own).trans (first.same id own),
    second.runtime.trans first.runtime⟩

theorem Fenced.ne_own (fenced : s.Fenced estate a) {rt : RuntimeId} (away : ¬estate (.runtime rt)) :
    rt ≠ a := fun same => away (same ▸ fenced.own)

/-- Work on the heap. -/
theorem Fenced.onHeap (fenced : s.Fenced estate a) {h : Heap} (leaves : s.toHeap.Leaves estate estate h) :
    s.Leaves estate a { s with toHeap := h } :=
  ⟨⟨leaves.fenced, fenced.frames, fenced.functions, fenced.runtimes, fenced.framesThere,
    fenced.functionsThere, fenced.own⟩, leaves.same, rfl⟩

theorem Fenced.bind (fenced : s.Fenced estate a) {id : NamespaceId} (away : ¬estate (.space id))
    (name : String) {v : Value} (outside : v.Outside estate) : s.Leaves estate a (s.bind id name v) :=
  fenced.onHeap (fenced.heap.bind away name outside)

/-! ## Activations -/

/-- A new activation is outside. -/
theorem Fenced.newFrame (fenced : s.Fenced estate a) (layout : Layout) {values : List Value}
    (outside : ∀ v ∈ values, v.Outside estate) {parent? : Option FrameId}
    (away : ∀ outer, parent? = some outer → ¬estate (.frame outer)) :
    ¬estate (.frame (s.newFrame layout values parent?).1) ∧
      s.Leaves estate a (s.newFrame layout values parent?).2 := by
  refine ⟨fun own => Nat.lt_irrefl _ (fenced.framesThere _ own), ⟨⟨fenced.heap,
    fun id off frame found => ?_, fenced.functions, fenced.runtimes, fun id own => ?_,
    fenced.functionsThere, fenced.own⟩, fun _ _ => rfl, rfl⟩⟩
  · dsimp only [Store.newFrame] at found
    rw [Array.getElem?_push] at found
    split at found
    · obtain rfl := Option.some.inj found
      refine ⟨fun v mem => ?_, away⟩
      rcases List.mem_append.1 (List.mem_toArray.1 mem) with given | missing
      · exact outside v given
      · obtain rfl := List.eq_of_mem_replicate missing
        trivial
    · exact fenced.frames id off frame found
  · exact Nat.lt_of_lt_of_eq (Nat.lt_succ_of_lt (fenced.framesThere id own)) (Array.size_push _).symm

/-- Activations around one outside are outside. -/
theorem Fenced.outer? (fenced : s.Fenced estate a) {id outer : FrameId} (away : ¬estate (.frame id))
    {depth : Nat} (leads : s.outer? id depth = some outer) : ¬estate (.frame outer) := by
  induction depth generalizing id with
  | zero => exact Option.some.inj leads ▸ away
  | succ depth ih =>
    obtain ⟨frame, found, linked⟩ := Option.bind_eq_some_iff.1 leads
    obtain ⟨parent, parent_eq, further⟩ := Option.bind_eq_some_iff.1 linked
    exact ih ((fenced.frames id away frame found).parent parent parent_eq) further

theorem Fenced.readSlot (fenced : s.Fenced estate a) {id : FrameId} (away : ¬estate (.frame id))
    (slot : SlotRef) : (s.readSlot id slot).Outside estate := by
  unfold Store.readSlot
  cases found : (s.outer? id slot.depth).bind fun frame => do
      (← s.frames[frame.index]?).slots[slot.index]? with
  | none => trivial
  | some v =>
    obtain ⟨outer, leads, held⟩ := Option.bind_eq_some_iff.1 found
    obtain ⟨frame, there, kept⟩ := Option.bind_eq_some_iff.1 held
    exact (fenced.frames outer (fenced.outer? away leads) frame there).slots v (Array.mem_of_getElem? kept)

theorem Fenced.writeSlot (fenced : s.Fenced estate a) (id : FrameId) (slot : SlotRef) {v : Value}
    (outside : v.Outside estate) : s.Leaves estate a (s.writeSlot id slot v) := by
  unfold Store.writeSlot
  split
  next outer _ =>
    refine ⟨⟨fenced.heap, fun other off frame found => ?_, fenced.functions, fenced.runtimes,
      fun other own => ?_, fenced.functionsThere, fenced.own⟩, fun _ _ => rfl, rfl⟩
    · dsimp only at found
      rw [Array.getElem?_modify] at found
      split at found
      · obtain ⟨old, there, rfl⟩ := Option.map_eq_some_iff.1 found
        have before := fenced.frames other off old there
        refine ⟨fun w mem => ?_, before.parent⟩
        rcases Array.mem_or_eq_of_mem_setIfInBounds mem with kept | rfl
        · exact before.slots w kept
        · exact outside
      · exact fenced.frames other off frame found
    · exact Nat.lt_of_lt_of_eq (fenced.framesThere other own) Array.size_modify.symm
  next => exact fenced.leaves

/-! ## Functions -/

/-- A new function is outside. -/
theorem Fenced.newFunction (fenced : s.Fenced estate a) {f : Callable} (outside : f.Outside estate a) :
    ¬estate (.function (s.newFunction f).1.id) ∧ s.Leaves estate a (s.newFunction f).2 := by
  refine ⟨fun own => Nat.lt_irrefl _ (fenced.functionsThere _ own), ⟨⟨fenced.heap, fenced.frames,
    fun id off other found => ?_, fenced.runtimes, fenced.framesThere, fun id own => ?_, fenced.own⟩,
    fun _ _ => rfl, rfl⟩⟩
  · dsimp only [Store.newFunction, Store.function?] at found
    rw [Array.getElem?_push] at found
    split at found
    · exact Option.some.inj found ▸ outside
    · exact fenced.functions id off other found
  · exact Nat.lt_of_lt_of_eq (Nat.lt_succ_of_lt (fenced.functionsThere id own)) (Array.size_push _).symm

/-! ## Runtimes -/

/-- Changing a runtime outside. -/
theorem Fenced.changeRuntime (fenced : s.Fenced estate a) {rt : RuntimeId} (away : ¬estate (.runtime rt))
    {f : Runtime → Runtime} (kept : (f (s.runtime rt)).Outside estate) :
    s.Leaves estate a (s.changeRuntime rt f) := by
  refine ⟨⟨fenced.heap, fenced.frames, fenced.functions, fun id off => ?_, fenced.framesThere,
    fenced.functionsThere, fenced.own⟩, fun _ _ => rfl, ?_⟩
  · rcases s.runtime_changeRuntime rt id f with same | ⟨-, changed⟩
    · exact same ▸ fenced.runtimes id off
    · exact changed ▸ kept
  · rcases s.runtime_changeRuntime rt a f with same | ⟨here, -⟩
    · exact same
    · exact absurd here.symm (fenced.ne_own away)

/-- **Deciding** outside: what has been decided for a runtime outside, and what is chosen there, is
outside. -/
theorem Fenced.decide (fenced : s.Fenced estate a) (registry : Registry) {rt : RuntimeId}
    (away : ¬estate (.runtime rt)) (signature : Signature) (args : List Value) :
    (s.decide registry rt signature args).1.Outside estate ∧
      s.Leaves estate a (s.decide registry rt signature args).2 := by
  have own := fenced.runtimes rt away
  unfold Store.decide
  dsimp only
  split
  next action found =>
    obtain ⟨branch, hit, rfl⟩ := Option.map_eq_some_iff.1 found
    exact ⟨own.rules signature branch (List.mem_of_find?_eq_some hit), fenced.leaves⟩
  next =>
    have chosen : (((s.runtime rt).surface registry).choose signature args).Outside estate :=
      Surface.outside_choose own.instances signature args
    refine ⟨chosen, fenced.changeRuntime away ⟨own.globals, own.instances, fun other branch mem => ?_⟩⟩
    rcases Rules.mem_branches_add mem with before | ⟨-, rfl⟩
    · exact own.rules other branch (Rules.branches_request _ _ _ ▸ before)
    · exact chosen

/-- **A dynamic operation** outside. -/
theorem Fenced.dispatch (fenced : s.Fenced estate a) {registry : Registry}
    (respects : registry.Respects estate estate) {rt : RuntimeId} (away : ¬estate (.runtime rt))
    {module : NamespaceId} (home : ¬estate (.space module)) (signature : Signature) {args : List Value}
    (outside : ∀ v ∈ args, v.Outside estate) :
    (s.dispatch registry rt module signature args).1.Outside estate ∧
      s.Leaves estate a (s.dispatch registry rt module signature args).2 := by
  obtain ⟨own, leaves⟩ := fenced.decide registry away signature args
  have dispatched : s.dispatch registry rt module signature args =
      (s.decide registry rt signature args).2.perform registry
        ((s.decide registry rt signature args).2.runtime rt).globals module
        (s.decide registry rt signature args).1 signature args := rfl
  generalize s.decide registry rt signature args = decided at *
  obtain ⟨action, t⟩ := decided
  have binds (v : Value) (found : t.named? (t.runtime rt).globals module signature.name = some v) :
      v.Outside estate := by
    rcases Option.or_eq_some_iff.1 found with own | ⟨-, bound⟩
    · exact leaves.fenced.heap.get? home own
    · exact leaves.fenced.heap.get? (leaves.fenced.runtimes rt away).globals bound
  obtain ⟨outcome, kept⟩ := endsOutside_perform leaves.fenced.heap respects own binds outside
  have only := (heapOnly_perform registry (t.runtime rt).globals module signature args action).eq_of t
  rw [dispatched]
  refine ⟨outcome, leaves.trans ?_⟩
  have work := leaves.fenced.onHeap kept
  exact (congrArg Prod.snd only) ▸ work

/-! ## Programs and loads -/

/-- **Preparing a source** for a runtime outside. -/
theorem Fenced.prepare (fenced : s.Fenced estate a) {rt : RuntimeId} (away : ¬estate (.runtime rt))
    {text : String} {result : Except ScriptError Program} (prepared : s.prepare rt text = (result, t)) :
    s.Leaves estate a t := by
  have own := fenced.runtimes rt away
  obtain rfl | ⟨requests, rfl⟩ := store_of_prepare prepared
  · exact fenced.leaves
  · exact fenced.changeRuntime away ⟨own.globals, own.instances, fun signature branch mem =>
      own.rules signature branch (Rules.branches_requests _ _ _ ▸ mem)⟩

/-- No path of names leads from outside into an estate. -/
theorem Fenced.lookUpPath (fenced : s.Fenced estate a) {id : NamespaceId} (away : ¬estate (.space id))
    {path : List String} {v : Value} (found : s.lookUpPath id path = some v) : v.Outside estate := by
  induction path generalizing id with
  | nil => cases found
  | cons name rest ih =>
    cases rest with
    | nil => exact fenced.heap.get? away found
    | cons next rest =>
      unfold Store.lookUpPath at found
      split at found
      next bound => exact ih (fenced.heap.get? away bound) found
      next => cases found

end Store

/-- A load that keeps nothing of an estate. -/
structure Load.Outside (estate : Cell → Prop) (l : Load) : Prop where
  module : ¬estate (.space l.module)
  globals : ¬estate (.space l.globals)
  previous : ∀ v, l.previous? = some v → v.Outside estate

namespace Store

variable {s t : Store}

/-- **Beginning a load** for a runtime outside. -/
theorem Fenced.beginLoad (fenced : s.Fenced estate a) {rt : RuntimeId} (away : ¬estate (.runtime rt))
    (name : String) :
    (s.beginLoad rt name).1.Outside estate ∧ s.Leaves estate a (s.beginLoad rt name).2 := by
  have globals := (fenced.runtimes rt away).globals
  obtain ⟨fresh, made⟩ := fenced.heap.newSpace
  have first : s.Leaves estate a s.newSpace.2 := fenced.onHeap made
  exact ⟨⟨fresh, globals, fun v bound => fenced.heap.get? globals bound⟩,
    first.trans (first.fenced.bind globals name fresh)⟩

theorem Fenced.undoLoad (fenced : s.Fenced estate a) {l : Load} (own : l.Outside estate) :
    s.Leaves estate a (s.undoLoad l) := by
  unfold Store.undoLoad
  split
  next v previous => exact fenced.bind own.globals l.name (own.previous v previous)
  next => exact fenced.onHeap (fenced.heap.unbind own.globals l.name)

end Store

/-! ## Environments -/

/-- An environment outside of an estate. -/
structure Env.Outside (estate : Cell → Prop) (env : Env) : Prop where
  frame : ¬estate (.frame env.frame)
  module : ¬estate (.space env.module)
  runtime : ¬estate (.runtime env.runtime)

/-- An exit with no cell of an estate in it. -/
@[simp] def Exit.Outside (estate : Cell → Prop) : Exit → Prop
  | .leave _ v => v.Outside estate
  | .give _ v => v.Outside estate
  | .fail _ => True

/-- What a machine is about to do outside of an estate. -/
@[simp] def Control.Outside (estate : Cell → Prop) : Control → Prop
  | .eval env _ => env.Outside estate
  | .dispatch env _ args => env.Outside estate ∧ ∀ v ∈ args, v.Outside estate
  | .enter function args => ¬estate (.function function.id) ∧ ∀ v ∈ args, v.Outside estate
  | .value v => v.Outside estate
  | .exit e => e.Outside estate

/-- What waits outside of an estate. -/
@[simp] def Pending.Outside (estate : Cell → Prop) : Pending → Prop
  | .operands env _ _ done _ => env.Outside estate ∧ ∀ v ∈ done, v.Outside estate
  | .test env _ _ _ => env.Outside estate
  | .sequence env _ => env.Outside estate
  | .loop env _ _ => env.Outside estate
  | .bind module _ => ¬estate (.space module)
  | .load l => l.Outside estate
  | _ => True

theorem Control.outside_ofReply {reply : Reply} (outside : reply.Outside estate) :
    (ofReply reply).Outside estate := by
  cases reply <;> exact outside

namespace Store

variable {s t : Store}

theorem Fenced.startProgram (fenced : s.Fenced estate a) {rt : RuntimeId} (away : ¬estate (.runtime rt))
    {module : NamespaceId} (home : ¬estate (.space module)) (program : Program) :
    (s.startProgram rt module program).1.Outside estate ∧
      s.Leaves estate a (s.startProgram rt module program).2 := by
  have alone (outer : FrameId) (never : none = some outer) : ¬estate (.frame outer) := by cases never
  obtain ⟨fresh, leaves⟩ := fenced.newFrame program.layout (List.forall_mem_nil _) alone
  exact ⟨⟨fresh, home, away⟩, leaves⟩

/-- **Starting a file** for a runtime and in a module outside. -/
theorem Fenced.startFile (fenced : s.Fenced estate a) {files : Files} {rt : RuntimeId}
    (away : ¬estate (.runtime rt)) {module : NamespaceId} (home : ¬estate (.space module)) {path : String}
    {result : Except ScriptError Control} (h : s.startFile files rt module path = (result, t)) :
    s.Leaves estate a t ∧ ∀ control, result = .ok control → control.Outside estate := by
  have told (full : String) : s.Leaves estate a (s.bind module "__file__" (.text full)) :=
    fenced.bind home _ trivial
  cases fileStarts_of_eq h with
  | unreadable => exact ⟨fenced.leaves, nofun⟩
  | refused _ prepared => exact ⟨(told _).trans ((told _).fenced.prepare away prepared), nofun⟩
  | starts _ prepared =>
    have ready := (told _).fenced.prepare away prepared
    obtain ⟨starts, started⟩ := ready.fenced.startProgram away home _
    refine ⟨(told _).trans (ready.trans started), ?_⟩
    rintro _ ⟨⟩
    exact starts

end Store

end HostScript
