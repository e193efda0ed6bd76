import HostScript.Proofs.Compile.Program
import HostScript.Proofs.Dispatch.HeapOnly
import HostScript.Proofs.Machine.Starting

/-!
# Proofs/Machine/Frames — the activations around an activation

The activations that a function of a script runs in are linked from the inside out, as its code was
compiled to find them: `Chain` lists the layouts along the links.  A store is `Sound` if every
activation has its slots, the activations around one belong to the same source, and the body of every
function fits the activations that the function was made in.  Stores only *extend*: activations keep
their layouts and links, and functions stay; so what leads to a variable once leads to it for good.
-/

namespace HostScript

/-- An activation that has changed in no more than what its slots hold. -/
structure Frame.Becomes (a b : Frame) : Prop where
  layout : b.layout = a.layout
  parent? : b.parent? = a.parent?
  size : b.slots.size = a.slots.size

theorem Frame.Becomes.refl (a : Frame) : a.Becomes a := ⟨rfl, rfl, rfl⟩

theorem Frame.Becomes.trans {a b c : Frame} (h : a.Becomes b) (k : b.Becomes c) : a.Becomes c :=
  ⟨k.layout.trans h.layout, k.parent?.trans h.parent?, k.size.trans h.size⟩

namespace Store

variable {s t u : Store} {id place : FrameId} {chain : List Layout} {slot : SlotRef}
  {frame : Frame}

/-! ## What is made -/

/-- A new activation leaves those that there are in their places. -/
theorem frames_newFrame {i : Nat} (found : s.frames[i]? = some frame) (layout : Layout)
    (values : List Value) (parent? : Option FrameId) :
    (s.newFrame layout values parent?).2.frames[i]? = some frame := by
  obtain ⟨inside, -⟩ := Array.getElem?_eq_some_iff.1 found
  show (s.frames.push _)[i]? = _
  rw [Array.getElem?_push, if_neg (Nat.ne_of_lt inside)]
  exact found

theorem size_lt_newFrame (s : Store) (layout : Layout) (values : List Value) (parent? : Option FrameId) :
    s.frames.size < (s.newFrame layout values parent?).2.frames.size := by
  show s.frames.size < (s.frames.push _).size
  rw [Array.size_push]
  exact Nat.lt_succ_self _

/-- What a function is depends on the table of functions only. -/
theorem function?_congr (same : t.functions = s.functions) (id : FunctionId) :
    t.function? id = s.function? id := by
  unfold function?
  rw [same]

/-- After a function has been made, the others are what they were. -/
theorem function?_newFunction {callable f : Callable} {id : FunctionId}
    (found : (s.newFunction callable).2.function? id = some f) :
    s.function? id = some f ∨ f = callable := by
  have pushed : (s.functions.push callable)[id.index]? = some f := found
  rw [Array.getElem?_push] at pushed
  split at pushed
  next => exact .inr (Option.some.inj pushed).symm
  next => exact .inl pushed

theorem functions_writeSlot (s : Store) (id : FrameId) (slot : SlotRef) (v : Value) :
    (s.writeSlot id slot v).functions = s.functions := by
  unfold writeSlot
  split <;> rfl

/-! ## Stores that extend -/

/-- **A store that extends another**: what there was of activations and functions is still there. -/
structure Extends (s t : Store) : Prop where
  frames (i : Nat) (frame : Frame) : s.frames[i]? = some frame →
    ∃ later, t.frames[i]? = some later ∧ frame.Becomes later
  functions (id : FunctionId) (f : Callable) : s.function? id = some f → t.function? id = some f

/-- Stores with the same activations and functions. -/
structure SameCode (s t : Store) : Prop where
  frames : t.frames = s.frames
  functions : t.functions = s.functions

theorem SameCode.refl (s : Store) : SameCode s s := ⟨rfl, rfl⟩

theorem SameCode.trans (h : SameCode s t) (k : SameCode t u) : SameCode s u :=
  ⟨k.frames.trans h.frames, k.functions.trans h.functions⟩

theorem SameCode.extends (h : SameCode s t) : s.Extends t :=
  ⟨fun _ frame found => ⟨frame, h.frames ▸ found, .refl frame⟩,
    fun id _ found => (function?_congr h.functions id).trans found⟩

namespace Extends

theorem refl (s : Store) : s.Extends s := (SameCode.refl s).extends

theorem trans (h : s.Extends t) (k : t.Extends u) : s.Extends u := by
  refine ⟨fun i frame found => ?_, fun id f found => k.functions id f (h.functions id f found)⟩
  obtain ⟨later, there, same⟩ := h.frames i frame found
  obtain ⟨last, still, kept⟩ := k.frames i later there
  exact ⟨last, still, same.trans kept⟩

theorem newFrame (s : Store) (layout : Layout) (values : List Value) (parent? : Option FrameId) :
    s.Extends (s.newFrame layout values parent?).2 :=
  ⟨fun _ frame found => ⟨frame, frames_newFrame found layout values parent?, .refl frame⟩,
    fun _ _ found => found⟩

theorem newFunction (s : Store) (callable : Callable) : s.Extends (s.newFunction callable).2 := by
  refine ⟨fun i frame found => ⟨frame, found, .refl frame⟩, fun id f found => ?_⟩
  obtain ⟨inside, -⟩ := Array.getElem?_eq_some_iff.1 found
  show (s.functions.push _)[id.index]? = _
  rw [Array.getElem?_push, if_neg (Nat.ne_of_lt inside)]
  exact found

theorem writeSlot (s : Store) (id : FrameId) (slot : SlotRef) (v : Value) :
    s.Extends (s.writeSlot id slot v) := by
  unfold Store.writeSlot
  cases s.outer? id slot.depth with
  | none => exact refl s
  | some place =>
    refine ⟨fun i frame found => ?_, fun _ _ found => found⟩
    dsimp only
    rw [Array.getElem?_modify]
    by_cases here : place.index = i
    · rw [if_pos here, found]
      exact ⟨_, rfl, rfl, rfl, Array.size_setIfInBounds⟩
    · rw [if_neg here]
      exact ⟨frame, found, .refl frame⟩

/-- Links lead where they led. -/
theorem outer? (h : s.Extends t) {depth : Nat} (leads : s.outer? id depth = some place) :
    t.outer? id depth = some place := by
  induction depth generalizing id with
  | zero => exact leads
  | succ depth ih =>
    unfold Store.outer? at leads ⊢
    obtain ⟨frame, found, up⟩ := Option.bind_eq_some_iff.1 leads
    obtain ⟨outer, linked, further⟩ := Option.bind_eq_some_iff.1 up
    obtain ⟨later, there, same⟩ := h.frames id.index frame found
    refine Option.bind_eq_some_iff.2 ⟨later, there, Option.bind_eq_some_iff.2 ⟨outer, ?_, ih further⟩⟩
    rw [same.parent?]
    exact linked

end Extends

/-! ## Chains -/

/-- **The layouts of an activation and of those around it**, the innermost first. -/
inductive Chain (s : Store) : FrameId → List Layout → Prop where
  | last {id : FrameId} {frame : Frame} :
    s.frames[id.index]? = some frame → frame.parent? = none → Chain s id [frame.layout]
  | inner {id outer : FrameId} {frame : Frame} {rest : List Layout} :
    s.frames[id.index]? = some frame → frame.parent? = some outer → Chain s outer rest →
      Chain s id (frame.layout :: rest)

theorem Chain.extend (h : s.Chain id chain) (k : s.Extends t) : t.Chain id chain := by
  induction h with
  | @last id frame found alone =>
    obtain ⟨later, there, same⟩ := k.frames _ _ found
    rw [← same.layout]
    exact .last there (same.parent?.trans alone)
  | @inner id outer frame rest found linked _ ih =>
    obtain ⟨later, there, same⟩ := k.frames _ _ found
    rw [← same.layout]
    exact .inner there (same.parent?.trans linked) ih

/-- The first layout is that of the activation itself. -/
theorem Chain.head {layout : Layout} (h : s.Chain id (layout :: chain)) :
    ∃ frame, s.frames[id.index]? = some frame ∧ frame.layout = layout := by
  cases h with
  | last found _ => exact ⟨_, found, rfl⟩
  | inner found _ _ => exact ⟨_, found, rfl⟩

theorem Chain.ne_nil (h : s.Chain id chain) : ∃ layout rest, chain = layout :: rest := by
  cases h with
  | last _ _ => exact ⟨_, _, rfl⟩
  | inner _ _ _ => exact ⟨_, _, rfl⟩

/-- A layout of the chain is that of the activation as many levels further out. -/
theorem Chain.outer? {depth : Nat} {layout : Layout} (h : s.Chain id chain)
    (found : chain[depth]? = some layout) :
    ∃ place frame, s.outer? id depth = some place ∧ s.frames[place.index]? = some frame ∧
      frame.layout = layout := by
  induction h generalizing depth with
  | @last id frame here _ =>
    cases depth with
    | zero => exact ⟨id, frame, rfl, here, Option.some.inj found⟩
    | succ depth => cases found
  | @inner id outer frame rest here linked _ ih =>
    cases depth with
    | zero => exact ⟨id, frame, rfl, here, Option.some.inj found⟩
    | succ depth =>
      obtain ⟨place, other, leads, there, same⟩ := ih found
      refine ⟨place, other, ?_, there, same⟩
      unfold Store.outer?
      refine Option.bind_eq_some_iff.2 ⟨frame, here, ?_⟩
      exact Option.bind_eq_some_iff.2 ⟨outer, linked, leads⟩

/-! ## Sound stores -/

/-- An activation in its place: it has a slot for each of its variables, that of a module tells the
source by its place, and around any other there is one of the same source. -/
structure Placed (s : Store) (i : Nat) (frame : Frame) : Prop where
  full : frame.layout.slots.length ≤ frame.slots.size
  module : frame.parent? = none → frame.layout.owner = ⟨i, 0⟩
  inner (outer : FrameId) : frame.parent? = some outer → frame.layout.owner.number ≠ 0 ∧
    ∃ around, s.frames[outer.index]? = some around ∧
      around.layout.owner.source = frame.layout.owner.source

theorem Placed.extend {i : Nat} {later : Frame} (h : s.Placed i frame) (k : s.Extends t)
    (same : frame.Becomes later) : t.Placed i later := by
  refine ⟨?_, fun alone => ?_, fun outer linked => ?_⟩
  · rw [same.layout, same.size]
    exact h.full
  · rw [same.layout]
    exact h.module (same.parent?.symm.trans alone)
  · obtain ⟨inner, around, found, source⟩ := h.inner outer (same.parent?.symm.trans linked)
    obtain ⟨there, still, kept⟩ := k.frames _ _ found
    rw [same.layout]
    refine ⟨inner, there, still, ?_⟩
    rw [kept.layout]
    exact source

/-- A function whose body fits the activations it was made in. -/
def Made (s : Store) (f : Callable) : Prop :=
  match f with
  | .script template frame _ _ =>
    ∃ chain, s.Chain frame chain ∧ (Code.closure template).Fits ⟨chain, none, none⟩
  | .native _ _ _ => True

theorem Made.extend {f : Callable} (h : s.Made f) (k : s.Extends t) : t.Made f := by
  cases f with
  | script template frame module rt =>
    obtain ⟨chain, linked, fits⟩ := h
    exact ⟨chain, linked.extend k, fits⟩
  | native name arity index => trivial

/-- **Sound stores.** -/
structure Sound (s : Store) : Prop where
  frames (i : Nat) (frame : Frame) : s.frames[i]? = some frame → s.Placed i frame
  functions (id : FunctionId) (f : Callable) : s.function? id = some f → s.Made f

theorem sound_empty : Store.empty.Sound :=
  ⟨fun _ _ found => (nomatch found), fun _ _ found => (nomatch found)⟩

namespace Sound

/-- A sound store may be extended by what is in its place. -/
theorem extend (h : s.Sound) (k : s.Extends t)
    (frames : ∀ i frame, s.frames[i]? = none → t.frames[i]? = some frame → t.Placed i frame)
    (functions : ∀ id f, s.function? id = none → t.function? id = some f → t.Made f) : t.Sound := by
  refine ⟨fun i frame found => ?_, fun id f found => ?_⟩
  · cases before : s.frames[i]? with
    | none => exact frames i frame before found
    | some old =>
      obtain ⟨later, there, same⟩ := k.frames i old before
      obtain rfl := Option.some.inj (there.symm.trans found)
      exact (h.frames i old before).extend k same
  · cases before : s.function? id with
    | none => exact functions id f before found
    | some old =>
      obtain rfl := Option.some.inj ((k.functions id old before).symm.trans found)
      exact (h.functions id old before).extend k

theorem of_same (h : s.Sound) (same : SameCode s t) : t.Sound := by
  refine h.extend same.extends ?_ ?_
  · intro i frame missing found
    rw [same.frames, missing] at found
    cases found
  · intro id f missing found
    rw [function?_congr same.functions, missing] at found
    cases found

theorem writeSlot (h : s.Sound) (id : FrameId) (slot : SlotRef) (v : Value) :
    (s.writeSlot id slot v).Sound := by
  refine h.extend (.writeSlot s id slot v) ?_ ?_
  · intro i frame missing found
    unfold Store.writeSlot at found
    split at found
    · dsimp only at found
      rw [Array.getElem?_modify, missing] at found
      split at found <;> cases found
    · rw [missing] at found
      cases found
  · intro id f missing found
    rw [function?_congr (s.functions_writeSlot _ slot v), missing] at found
    cases found

theorem newFunction (h : s.Sound) {callable : Callable} (made : s.Made callable) :
    (s.newFunction callable).2.Sound := by
  have further := Extends.newFunction s callable
  refine h.extend further ?_ ?_
  · intro i frame missing found
    exact absurd (missing.symm.trans found) nofun
  · intro id f missing found
    rcases function?_newFunction found with before | rfl
    · cases missing.symm.trans before
    · exact made.extend further

/-- A new activation with a slot for each of its variables. -/
theorem newFrame (h : s.Sound) {layout : Layout} {parent? : Option FrameId} (values : List Value)
    (module : parent? = none → layout.owner = ⟨s.frames.size, 0⟩)
    (inner : ∀ outer, parent? = some outer → layout.owner.number ≠ 0 ∧
      ∃ around, s.frames[outer.index]? = some around ∧
        around.layout.owner.source = layout.owner.source) :
    (s.newFrame layout values parent?).2.Sound := by
  have further := Extends.newFrame s layout values parent?
  refine h.extend further ?_ ?_
  · intro i frame missing found
    have pushed : (s.frames.push _)[i]? = some frame := found
    rw [Array.getElem?_push, missing] at pushed
    split at pushed
    next last =>
      obtain rfl := Option.some.inj pushed
      refine ⟨?_, fun alone => last ▸ module alone, fun outer linked => ?_⟩
      · show layout.slots.length ≤ _
        rw [List.size_toArray, List.length_append, List.length_replicate]
        omega
      · obtain ⟨named, around, there, source⟩ := inner outer linked
        obtain ⟨later, still, same⟩ := further.frames _ _ there
        refine ⟨named, later, still, ?_⟩
        rw [same.layout]
        exact source
    next => cases pushed
  · intro id f missing found
    exact absurd (missing.symm.trans found) nofun

end Sound

/-! ## Slots that are there -/

/-- **A slot that is there**: as many levels further out as it says there is an activation of the
owner of the variable that is meant, and it keeps that variable in the slot. -/
structure Addressed (s : Store) (id : FrameId) (slot : SlotRef) (place : FrameId) (frame : Frame) :
    Prop where
  leads : s.outer? id slot.depth = some place
  found : s.frames[place.index]? = some frame
  owner : frame.layout.owner = slot.meant.owner
  meant : frame.layout.slots[slot.index]? = some slot.meant
  inside : slot.index < frame.slots.size

/-- What a slot leads to along the layouts is there along the activations. -/
theorem Sound.addressed (h : s.Sound) (linked : s.Chain id chain) (reaches : slot.Reaches chain) :
    ∃ place frame, s.Addressed id slot place frame := by
  obtain ⟨layout, found, owner, meant⟩ := reaches
  obtain ⟨place, frame, leads, there, rfl⟩ := linked.outer? found
  have full := (h.frames place.index frame there).full
  obtain ⟨inside, -⟩ := List.getElem?_eq_some_iff.1 meant
  exact ⟨place, frame, leads, there, owner, meant, Nat.lt_of_lt_of_le inside full⟩

namespace Addressed

variable {v : Value}

/-- **Reading a slot that is there** reads what the activation keeps in it. -/
theorem readSlot (h : s.Addressed id slot place frame) :
    frame.slots[slot.index]? = some (s.readSlot id slot) := by
  obtain ⟨value, kept⟩ : ∃ value, frame.slots[slot.index]? = some value :=
    ⟨_, Array.getElem?_eq_getElem h.inside⟩
  have read : s.readSlot id slot = (frame.slots[slot.index]?).getD .null := by
    unfold Store.readSlot
    rw [h.leads, Option.bind_some, h.found]
    rfl
  rw [read, kept]
  rfl

theorem frames_writeSlot (h : s.Addressed id slot place frame) (v : Value) (i : Nat) :
    (s.writeSlot id slot v).frames[i]? =
      if place.index = i then
        some { frame with slots := frame.slots.setIfInBounds slot.index v }
      else s.frames[i]? := by
  unfold Store.writeSlot
  rw [h.leads]
  dsimp only
  rw [Array.getElem?_modify]
  split
  next here =>
    rw [← here, h.found]
    rfl
  next => rfl

/-- **What is written to a slot that is there** is read from it afterwards. -/
theorem readSlot_writeSlot (h : s.Addressed id slot place frame) (v : Value) :
    (s.writeSlot id slot v).readSlot id slot = v := by
  have leads := (Extends.writeSlot s id slot v).outer? h.leads
  unfold Store.readSlot
  rw [leads, Option.bind_some, h.frames_writeSlot, if_pos rfl]
  show (_ : Option Value).getD .null = v
  rw [Option.bind_eq_bind, Option.bind_some, Array.getElem?_setIfInBounds_self_of_lt h.inside]
  rfl

/-- A slot of an activation holds one variable. -/
theorem meant_eq {id' : FrameId} {slot' : SlotRef} (h : s.Addressed id slot place frame)
    (k : s.Addressed id' slot' place frame) (same : slot.index = slot'.index) :
    slot.meant = slot'.meant :=
  Option.some.inj (h.meant.symm.trans (same ▸ k.meant))

/-- **Writing to one variable leaves all others as they are.** -/
theorem readSlot_writeSlot_of_ne {id' place' : FrameId} {slot' : SlotRef} {frame' : Frame}
    (h : s.Addressed id slot place frame) (k : s.Addressed id' slot' place' frame')
    (other : slot.meant ≠ slot'.meant) (v : Value) :
    (s.writeSlot id slot v).readSlot id' slot' = s.readSlot id' slot' := by
  have leads := (Extends.writeSlot s id slot v).outer? k.leads
  unfold Store.readSlot
  rw [leads, k.leads, Option.bind_some, Option.bind_some, h.frames_writeSlot]
  split
  next here =>
    obtain rfl : frame = frame' := Option.some.inj (h.found.symm.trans (here ▸ k.found))
    have apart : slot.index ≠ slot'.index := fun same =>
      other (Option.some.inj (h.meant.symm.trans (same ▸ k.meant)))
    rw [← here, h.found]
    show ((frame.slots.setIfInBounds slot.index v)[slot'.index]?).getD .null = _
    rw [Array.getElem?_setIfInBounds_ne apart]
    rfl
  next => rfl

end Addressed

end Store

end HostScript
