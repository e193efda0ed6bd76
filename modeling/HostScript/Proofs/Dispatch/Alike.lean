import HostScript.Proofs.Dispatch.HeapOnly
import HostScript.Session

/-!
# Proofs/Dispatch/Alike — stores that differ in what has been decided

Two stores are *alike* if they agree in everything but the rules of their runtimes.  Whatever a
machine or a host does, except for asking a rule, it does in the same way to stores that are alike,
and they stay alike.
-/

namespace HostScript

/-- A runtime for which nothing has been decided. -/
def Runtime.undecided (runtime : Runtime) : Runtime := { runtime with rules := .empty }

namespace Store

/-- **Alike**: equal but for the rules of the runtimes. -/
structure Alike (s t : Store) : Prop where
  heap : s.toHeap = t.toHeap
  frames : s.frames = t.frames
  functions : s.functions = t.functions
  runtimes : s.runtimes.map Runtime.undecided = t.runtimes.map Runtime.undecided

/-- Two answers, each with the store after it, **agree** if they are equal and the stores alike. -/
def Agree {α : Type} (p q : α × Store) : Prop := p.1 = q.1 ∧ Alike p.2 q.2

theorem Agree.cases {α : Type} {p q : α × Store} (h : Agree p q) :
    ∃ answer s t, p = (answer, s) ∧ q = (answer, t) ∧ Alike s t := by
  obtain ⟨answer, s⟩ := p
  obtain ⟨_, t⟩ := q
  obtain ⟨rfl, alike⟩ := h
  exact ⟨answer, s, t, rfl, rfl, alike⟩

namespace Alike

variable {s t u : Store}

theorem refl (s : Store) : Alike s s := ⟨rfl, rfl, rfl, rfl⟩

theorem symm (h : Alike s t) : Alike t s :=
  ⟨h.heap.symm, h.frames.symm, h.functions.symm, h.runtimes.symm⟩

theorem trans (h : Alike s t) (k : Alike t u) : Alike s u :=
  ⟨h.heap.trans k.heap, h.frames.trans k.frames, h.functions.trans k.functions,
    h.runtimes.trans k.runtimes⟩

/-- One of two alike stores is the other with runtimes of its own. -/
theorem eq_with (h : Alike s t) : t = { s with runtimes := t.runtimes } := by
  obtain ⟨heap, frames, functions, runtimes⟩ := s
  obtain ⟨_, _, _, _⟩ := t
  obtain ⟨rfl, rfl, rfl, -⟩ := h
  rfl

theorem runtime (h : Alike s t) (rt : RuntimeId) :
    (s.runtime rt).undecided = (t.runtime rt).undecided := by
  have read : ∀ u : Store, (u.runtime rt).undecided =
      ((u.runtimes.map Runtime.undecided)[rt.index]?).getD default := by
    intro u
    rw [Array.getElem?_map]
    unfold Store.runtime
    cases u.runtimes[rt.index]? <;> rfl
  rw [read s, read t, h.runtimes]

theorem globals (h : Alike s t) (rt : RuntimeId) :
    (s.runtime rt).globals = (t.runtime rt).globals := by
  show (s.runtime rt).undecided.globals = _
  rw [h.runtime]
  rfl

theorem alive (h : Alike s t) (rt : RuntimeId) : (s.runtime rt).alive = (t.runtime rt).alive := by
  show (s.runtime rt).undecided.alive = _
  rw [h.runtime]
  rfl

theorem extension (h : Alike s t) (rt : RuntimeId) :
    (s.runtime rt).extension = (t.runtime rt).extension := by
  show (s.runtime rt).undecided.extension = _
  rw [h.runtime]
  rfl

theorem surface (h : Alike s t) (rt : RuntimeId) (registry : Registry) :
    (s.runtime rt).surface registry = (t.runtime rt).surface registry := by
  show (s.runtime rt).undecided.surface registry = _
  rw [h.runtime]
  rfl

/-! ## What a store does to its runtimes -/

/-- A view of the runtimes, after a change of one that is a change of what the view shows. -/
theorem map_changeRuntime {α : Type} {view : Runtime → α} (s : Store) (rt : RuntimeId)
    {f : Runtime → Runtime} {g : α → α} (same : ∀ runtime, view (f runtime) = g (view runtime)) :
    (s.changeRuntime rt f).runtimes.map view = (s.runtimes.map view).modify rt.index g := by
  apply Array.ext_getElem?
  intro i
  unfold Store.changeRuntime
  rw [Array.getElem?_map, Array.getElem?_modify, Array.getElem?_modify, Array.getElem?_map]
  cases s.runtimes[i]? with
  | none => split <;> rfl
  | some runtime =>
    split
    · exact congrArg some (same runtime)
    · rfl

/-- A view of the runtimes, after a change that it does not show. -/
theorem map_changeRuntime_of_same {α : Type} {view : Runtime → α} (s : Store) (rt : RuntimeId)
    {f : Runtime → Runtime} (same : ∀ runtime, view (f runtime) = view runtime) :
    (s.changeRuntime rt f).runtimes.map view = s.runtimes.map view := by
  have kept : (s.runtimes.map view).modify rt.index id = s.runtimes.map view := by
    apply Array.ext_getElem?
    intro i
    rw [Array.getElem?_modify]
    split
    · exact Option.map_id_apply
    · rfl
  exact (map_changeRuntime s rt same).trans kept

/-- A change that does not look at rules may be made on both sides. -/
theorem changeRuntime (h : Alike s t) (rt : RuntimeId) {f g : Runtime → Runtime}
    (blind : ∀ runtime, (f runtime).undecided = g runtime.undecided) :
    Alike (s.changeRuntime rt f) (t.changeRuntime rt f) := by
  refine ⟨h.heap, h.frames, h.functions, ?_⟩
  rw [map_changeRuntime s rt blind, map_changeRuntime t rt blind, h.runtimes]

/-- Rules may be changed on one side. -/
theorem changeRules (h : Alike s t) (rt : RuntimeId) (f : Rules → Rules) :
    Alike (s.changeRules rt f) t := by
  refine ⟨h.heap, h.frames, h.functions, ?_⟩
  have same : (s.changeRules rt f).runtimes.map Runtime.undecided = s.runtimes.map Runtime.undecided :=
    map_changeRuntime_of_same s rt fun _ => rfl
  exact same.trans h.runtimes

/-- A runtime may be added on both sides. -/
theorem newRuntime (h : Alike s t) (runtime : Runtime) :
    Agree (s.newRuntime runtime) (t.newRuntime runtime) := by
  have sizes : s.runtimes.size = t.runtimes.size := by
    have counted := congrArg Array.size h.runtimes
    rwa [Array.size_map, Array.size_map] at counted
  refine ⟨congrArg RuntimeId.mk sizes, h.heap, h.frames, h.functions, ?_⟩
  show (s.runtimes.push runtime).map _ = (t.runtimes.push runtime).map _
  rw [Array.map_push, Array.map_push, h.runtimes]

/-! ## What a store does to its heap -/

/-- Work on the heap alone may be done on both sides. -/
theorem heapOnly {α : Type} {f : Store → α × Store} (only : HeapOnly f) (h : Alike s t) :
    Agree (f s) (f t) := by
  have moved := only.replaced s s.frames s.functions t.runtimes
  have other : t = { s with frames := s.frames, functions := s.functions, runtimes := t.runtimes } :=
    h.eq_with
  rw [← other] at moved
  rw [moved]
  exact ⟨rfl, rfl, only.frames s, only.functions s, (only.runtimes s).symm ▸ h.runtimes⟩

theorem onHeap {α : Type} (h : Alike s t) (f : Heap → α × Heap) :
    Agree (s.onHeap f) (t.onHeap f) :=
  heapOnly (f := (·.onHeap f)) (fun _ _ _ => rfl) h

theorem changeHeap (h : Alike s t) (f : Heap → Heap) : Alike (s.changeHeap f) (t.changeHeap f) :=
  ⟨congrArg f h.heap, h.frames, h.functions, h.runtimes⟩

theorem get? (h : Alike s t) (id : NamespaceId) (name : String) : s.get? id name = t.get? id name := by
  rw [h.heap]

theorem bind (h : Alike s t) (id : NamespaceId) (name : String) (v : Value) :
    Alike (s.bind id name v) (t.bind id name v) := h.changeHeap _

theorem unbind (h : Alike s t) (id : NamespaceId) (name : String) :
    Alike (s.unbind id name) (t.unbind id name) := h.changeHeap _

/-! ## What a store does to its activations and functions -/

theorem newFrame (h : Alike s t) (layout : Layout) (values : List Value) (parent? : Option FrameId) :
    Agree (s.newFrame layout values parent?) (t.newFrame layout values parent?) := by
  rw [h.eq_with]
  exact ⟨rfl, rfl, rfl, rfl, h.runtimes⟩

theorem newFunction (h : Alike s t) (callable : Callable) :
    Agree (s.newFunction callable) (t.newFunction callable) := by
  rw [h.eq_with]
  exact ⟨rfl, rfl, rfl, rfl, h.runtimes⟩

theorem outer? (h : Alike s t) (depth : Nat) (id : FrameId) : s.outer? id depth = t.outer? id depth := by
  induction depth generalizing id with
  | zero => rfl
  | succ depth ih =>
    unfold Store.outer?
    rw [h.frames]
    exact congrArg (Option.bind _) (funext fun frame => congrArg (Option.bind _) (funext ih))

theorem readSlot (h : Alike s t) (id : FrameId) (slot : SlotRef) :
    s.readSlot id slot = t.readSlot id slot := by
  unfold Store.readSlot
  rw [h.outer?, h.frames]

theorem writeSlot (h : Alike s t) (id : FrameId) (slot : SlotRef) (v : Value) :
    Alike (s.writeSlot id slot v) (t.writeSlot id slot v) := by
  unfold Store.writeSlot
  rw [h.outer?]
  split
  next frame _ =>
    refine ⟨h.heap, ?_, h.functions, h.runtimes⟩
    dsimp only
    rw [h.frames]
  next => exact h

/-! ## Programs and loads -/

theorem prepare (h : Alike s t) (rt : RuntimeId) (source : String) :
    Agree (s.prepare rt source) (t.prepare rt source) := by
  unfold Store.prepare
  cases parse source with
  | error e => exact ⟨rfl, h⟩
  | ok tree =>
    dsimp only
    rw [h.frames]
    let requests := (compile t.frames.size source.toList tree).2
    let add := fun rules => requests.foldl Rules.request rules
    exact ⟨rfl, ((h.changeRules rt add).symm.changeRules rt add).symm⟩

theorem startProgram (h : Alike s t) (rt : RuntimeId) (module : NamespaceId) (program : Program) :
    Agree (s.startProgram rt module program) (t.startProgram rt module program) := by
  obtain ⟨same, alike⟩ := h.newFrame program.layout [] none
  exact ⟨congrArg (fun frame => Control.eval ⟨frame, module, rt⟩ program.code) same, alike⟩

theorem startFile (h : Alike s t) (files : Files) (rt : RuntimeId) (module : NamespaceId)
    (path : String) :
    Agree (s.startFile files rt module path) (t.startFile files rt module path) := by
  unfold Store.startFile
  split
  · exact ⟨rfl, h⟩
  next source fullPath _ =>
    obtain ⟨result, u, v, left, right, alike⟩ :=
      ((h.bind module "__file__" (.text fullPath)).prepare rt source).cases
    dsimp only
    rw [left, right]
    cases result with
    | error e => exact ⟨rfl, alike⟩
    | ok program =>
      obtain ⟨begins, alike⟩ := alike.startProgram rt module program
      exact ⟨congrArg Except.ok begins, alike⟩

theorem beginLoad (h : Alike s t) (rt : RuntimeId) (name : String) :
    Agree (s.beginLoad rt name) (t.beginLoad rt name) := by
  unfold Store.beginLoad
  dsimp only
  obtain ⟨same, alike⟩ := h.onHeap (·.newSpace)
  unfold Store.newSpace
  rw [same, h.globals, h.get?]
  exact ⟨rfl, alike.bind _ _ _⟩

theorem undoLoad (h : Alike s t) (load : Load) : Alike (s.undoLoad load) (t.undoLoad load) := by
  unfold Store.undoLoad
  split
  · exact h.bind _ _ _
  · exact h.unbind _ _

theorem lookUpPath (h : Alike s t) (id : NamespaceId) (path : List String) :
    s.lookUpPath id path = t.lookUpPath id path := by
  induction path generalizing id with
  | nil => rfl
  | cons name rest ih =>
    cases rest with
    | nil => exact h.get? id name
    | cons next rest =>
      unfold Store.lookUpPath
      rw [h.get?]
      split
      · exact ih _
      · rfl

theorem siblingFile (h : Alike s t) (env : Env) (name : String) :
    s.siblingFile env name = t.siblingFile env name := by
  unfold Store.siblingFile
  rw [h.get?, h.extension]

end Alike

end Store

end HostScript
