import HostScript.Code.Scope
import Mathlib.Data.List.Forall2

/-!
# Proofs/Compile/Scopes — where the slots of scopes lead

While a source is compiled, the scopes around a place stand for the activations around it when it
runs: `Scopes.chain` lists their layouts.  Scopes are `Sound` if every slot they know leads along this
chain to the variable it is meant for.  Layouts keep growing after slots have been handed out, in the
innermost activation when a variable is declared and in the module's when a name is first assigned; so
everything is stated up to growth, and soundness is kept by every operation on scopes.
-/

namespace HostScript

/-! ## Layouts -/

/-- A layout grows at its end. -/
structure Layout.Grows (a b : Layout) : Prop where
  owner : b.owner = a.owner
  slots : a.slots <+: b.slots

/-- **A slot leads to the variable it is meant for**: that many levels further out there is an
activation of the variable's owner, and it keeps the variable there. -/
def SlotRef.Reaches (chain : List Layout) (slot : SlotRef) : Prop :=
  ∃ layout, chain[slot.depth]? = some layout ∧ layout.owner = slot.meant.owner ∧
    layout.slots[slot.index]? = some slot.meant

namespace Layout

theorem Grows.refl (a : Layout) : a.Grows a := ⟨rfl, List.prefix_rfl⟩

theorem Grows.trans {a b c : Layout} (h : a.Grows b) (k : b.Grows c) : a.Grows c :=
  ⟨k.owner.trans h.owner, h.slots.trans k.slots⟩

/-- A slot that a layout has is the same slot of a grown one. -/
theorem Grows.getElem? {a b : Layout} (h : a.Grows b) {i : Nat} {v : Variable}
    (found : a.slots[i]? = some v) : b.slots[i]? = some v := by
  obtain ⟨more, appended⟩ := h.slots
  rw [← appended, List.getElem?_append_left (List.getElem?_eq_some_iff.1 found).1]
  exact found

/-- Layouts side by side that grow. -/
abbrev AllGrow (a b : List Layout) : Prop := List.Forall₂ Grows a b

theorem AllGrow.getElem? {a b : List Layout} (h : AllGrow a b) {i : Nat} {layout : Layout}
    (found : a[i]? = some layout) : ∃ grown, b[i]? = some grown ∧ layout.Grows grown := by
  induction h generalizing i with
  | nil => cases found
  | cons first _ ih =>
    cases i with
    | zero =>
      obtain rfl := Option.some.inj found
      exact ⟨_, rfl, first⟩
    | succ i => exact ih found

end Layout

open Layout (AllGrow)

/-- Slots lead where they led when layouts grow. -/
theorem SlotRef.Reaches.grow {chain grown : List Layout} {slot : SlotRef} (h : slot.Reaches chain)
    (grows : AllGrow chain grown) : slot.Reaches grown := by
  obtain ⟨layout, found, owner, kept⟩ := h
  obtain ⟨wider, there, larger⟩ := grows.getElem? found
  exact ⟨wider, there, larger.owner.trans owner, larger.getElem? kept⟩

/-! ## Scopes -/

/-- A scope grows: it comes to declare more, and may be given a label. -/
structure Scope.Grows (s t : Scope) : Prop where
  kind : t.kind = s.kind
  owner : t.owner = s.owner
  params : t.params = s.params
  slots : s.slots <+: t.slots
  returnLabel? (label : Label) : s.returnLabel? = some label → t.returnLabel? = some label

namespace Scope

theorem Grows.refl (s : Scope) : s.Grows s := ⟨rfl, rfl, rfl, List.prefix_rfl, fun _ h => h⟩

theorem Grows.trans {s t u : Scope} (h : s.Grows t) (k : t.Grows u) : s.Grows u :=
  ⟨k.kind.trans h.kind, k.owner.trans h.owner, k.params.trans h.params, h.slots.trans k.slots,
    fun label set => k.returnLabel? label (h.returnLabel? label set)⟩

theorem Grows.ownsFrame {s t : Scope} (h : s.Grows t) : t.ownsFrame = s.ownsFrame := by
  unfold Scope.ownsFrame
  rw [h.kind]

theorem Grows.variableOf {s t : Scope} (h : s.Grows t) (key : String) :
    t.variableOf key = s.variableOf key := by
  unfold Scope.variableOf Scope.loop?
  rw [h.kind, h.owner]

/-- A slot for a folded name that the scope itself declares, also one hidden by a parameter. -/
def Declares (s : Scope) (key : String) (index : Nat) : Prop :=
  s.params.lookup key = some index ∨ s.locals.lookup key = some index

theorem declares_of_slot? {s : Scope} {key : String} {index : Nat} (h : s.slot? key = some index) :
    s.Declares key index :=
  (Option.or_eq_some_iff.1 h).imp id And.right

end Scope

namespace Scopes

/-- The layouts of the activations around a place, the innermost first. -/
def chain : Scopes → List Layout
  | [] => []
  | s :: outer => if s.ownsFrame then ⟨s.owner, s.slots⟩ :: chain outer else chain outer

/-- Scopes side by side that grow. -/
abbrev Grow (a b : Scopes) : Prop := List.Forall₂ Scope.Grows a b

/-- **Sound scopes** of a source: each scope's slots lead to its variables, and a loop is one of the
innermost owner. -/
def Sound (source : Nat) : Scopes → Prop
  | [] => True
  | s :: outer =>
    s.owner.source = source ∧
      (∀ key index, s.Declares key index →
        (⟨s.variableOf key, 0, index⟩ : SlotRef).Reaches (chain (s :: outer))) ∧
      (s.ownsFrame = false → ∃ layout rest, chain outer = layout :: rest ∧ layout.owner = s.owner) ∧
      Sound source outer

variable {source : Nat} {a b c : Scopes} {s t : Scope} {key name : String}

theorem chain_of_ownsFrame (owns : s.ownsFrame = true) (outer : Scopes) :
    chain (s :: outer) = ⟨s.owner, s.slots⟩ :: chain outer := if_pos owns

theorem chain_of_loop (owns : s.ownsFrame = false) (outer : Scopes) :
    chain (s :: outer) = chain outer := by
  rw [chain, owns]
  rfl

theorem Grow.refl (a : Scopes) : Grow a a := List.forall₂_same.2 fun s _ => .refl s

theorem Grow.trans (h : Grow a b) (k : Grow b c) : Grow a c := by
  induction h generalizing c with
  | nil => exact k
  | cons first _ ih =>
    cases k with
    | cons next rest => exact .cons (first.trans next) (ih rest)

theorem Grow.chain (h : Grow a b) : AllGrow (chain a) (chain b) := by
  induction h with
  | nil => exact .nil
  | @cons s t _ _ first _ ih =>
    cases owns : s.ownsFrame with
    | true =>
      rw [chain_of_ownsFrame owns, chain_of_ownsFrame (first.ownsFrame.trans owns)]
      exact .cons ⟨first.owner, first.slots⟩ ih
    | false =>
      rw [chain_of_loop owns, chain_of_loop (first.ownsFrame.trans owns)]
      exact ih

/-- What leads along the outer activations leads along all of them from inside a scope. -/
theorem reaches_enter {slot : SlotRef} {outer : Scopes} (h : slot.Reaches (chain outer)) :
    (enter s slot).Reaches (chain (s :: outer)) := by
  unfold enter
  cases owns : s.ownsFrame with
  | true =>
    rw [chain_of_ownsFrame owns]
    exact h
  | false =>
    rw [chain_of_loop owns]
    exact h

/-- **A name that is found leads to the variable that is meant.** -/
theorem Sound.findKey? (h : Sound source a) {slot : SlotRef} (found : findKey? key a = some slot) :
    slot.Reaches (chain a) := by
  induction a generalizing slot with
  | nil => cases found
  | cons s outer ih =>
    unfold Scopes.findKey? at found
    cases here : s.slot? key with
    | some index =>
      rw [here] at found
      obtain rfl := Option.some.inj found
      exact h.2.1 key index (Scope.declares_of_slot? here)
    | none =>
      rw [here] at found
      obtain ⟨further, there, rfl⟩ := Option.map_eq_some_iff.1 found
      exact reaches_enter (ih h.2.2.2 there)

/-- **What a folded name stands for**: the variable of the innermost scope that declares the name, kept
as many levels further out as there are activations in between. -/
def Resolves (a : Scopes) (key : String) (slot : SlotRef) : Prop :=
  ∃ inner s outer, a = inner ++ s :: outer ∧ (∀ t ∈ inner, t.slot? key = none) ∧
    s.slot? key = some slot.index ∧ slot.meant = s.variableOf key ∧
    slot.depth = (inner.filter (·.ownsFrame)).length

theorem resolves_of_findKey? {slot : SlotRef} (h : findKey? key a = some slot) :
    Resolves a key slot := by
  induction a generalizing slot with
  | nil => cases h
  | cons s outer ih =>
    unfold Scopes.findKey? at h
    cases here : s.slot? key with
    | some index =>
      rw [here] at h
      obtain rfl := Option.some.inj h
      exact ⟨[], s, outer, rfl, nofun, here, rfl, rfl⟩
    | none =>
      rw [here] at h
      obtain ⟨further, found, rfl⟩ := Option.map_eq_some_iff.1 h
      obtain ⟨inner, t, rest, rfl, undeclared, there, meant, depth⟩ := ih found
      have first : ∀ u ∈ s :: inner, u.slot? key = none := by
        intro u mem
        rcases List.mem_cons.1 mem with rfl | mem
        · exact here
        · exact undeclared u mem
      refine ⟨s :: inner, t, rest, rfl, first, ?_⟩
      unfold enter
      rw [List.filter_cons]
      split
      · exact ⟨there, meant, by rw [List.length_cons, depth]⟩
      · exact ⟨there, meant, depth⟩

/-- The innermost activation is one of the innermost scope's owner. -/
theorem Sound.chain_cons {outer : Scopes} (h : Sound source (s :: outer)) :
    ∃ layout rest, chain (s :: outer) = layout :: rest ∧ layout.owner = s.owner := by
  cases owns : s.ownsFrame with
  | true => exact ⟨_, _, chain_of_ownsFrame owns outer, rfl⟩
  | false =>
    rw [chain_of_loop owns]
    exact h.2.2.1 owns

theorem Sound.sources (h : Sound source a) : ∀ layout ∈ chain a, layout.owner.source = source := by
  induction a with
  | nil => exact fun _ mem => nomatch mem
  | cons s outer ih =>
    intro layout mem
    cases owns : s.ownsFrame with
    | true =>
      rw [chain_of_ownsFrame owns] at mem
      rcases List.mem_cons.1 mem with rfl | mem
      · exact h.1
      · exact ih h.2.2.2 layout mem
    | false =>
      rw [chain_of_loop owns] at mem
      exact ih h.2.2.2 layout mem

/-! ## Growth keeps scopes sound -/

/-- A scope grows inside sound scopes that grow, if what it comes to declare leads to its variables. -/
theorem Sound.cons {outer wider : Scopes} (h : Sound source (s :: outer)) (kept : Sound source wider)
    (first : s.Grows t) (rest : Grow outer wider)
    (more : ∀ key index, t.Declares key index → s.Declares key index ∨
      (⟨t.variableOf key, 0, index⟩ : SlotRef).Reaches (chain (t :: wider))) :
    Sound source (t :: wider) := by
  obtain ⟨here, declared, inside, -⟩ := h
  refine ⟨first.owner ▸ here, ?_, ?_, kept⟩
  · intro key index declares
    rcases more key index declares with before | new
    · rw [first.variableOf]
      exact (declared key index before).grow (Grow.chain (.cons first rest))
    · exact new
  · intro loops
    obtain ⟨layout, others, is_chain, owner⟩ := inside (first.ownsFrame ▸ loops)
    have grown := rest.chain
    rw [is_chain] at grown
    cases eq : chain wider with
    | nil =>
      rw [eq] at grown
      cases grown
    | cons top below =>
      rw [eq] at grown
      cases grown with
      | cons larger _ => exact ⟨top, below, rfl, (larger.owner.trans owner).trans first.owner.symm⟩

theorem Sound.cons_outer {outer wider : Scopes} (h : Sound source (s :: outer))
    (kept : Sound source wider) (rest : Grow outer wider) : Sound source (s :: wider) :=
  h.cons kept (.refl s) rest fun _ _ declares => .inl declares

/-! ## Declaring variables -/

/-- A new slot of the innermost activation is the slot of its variable. -/
theorem Sound.allocate (h : Sound source a) {layout : Layout} {rest : List Layout}
    (inner : chain a = layout :: rest) (v : Variable) (owner : v.owner = layout.owner) :
    Grow a (allocate v a).2 ∧ Sound source (allocate v a).2 ∧
      (⟨v, 0, (allocate v a).1⟩ : SlotRef).Reaches (chain (allocate v a).2) ∧
      ∀ s outer, a = s :: outer → ∃ t wider, (allocate v a).2 = t :: wider ∧ t.locals = s.locals := by
  induction a with
  | nil => cases inner
  | cons s outer ih =>
    cases owns : s.ownsFrame with
    | true =>
      have larger : s.Grows { s with slots := s.slots ++ [v] } :=
        ⟨rfl, rfl, rfl, List.prefix_append _ _, fun _ h => h⟩
      have made : Scopes.allocate v (s :: outer) =
          (s.slots.length, { s with slots := s.slots ++ [v] } :: outer) := by
        rw [Scopes.allocate, owns]
        rfl
      rw [made]
      rw [chain_of_ownsFrame owns] at inner
      obtain ⟨rfl, -⟩ := List.cons_eq_cons.1 inner
      refine ⟨.cons larger (Grow.refl outer), ?_, ?_, ?_⟩
      · exact h.cons h.2.2.2 larger (Grow.refl outer) fun _ _ declares => .inl declares
      · rw [chain_of_ownsFrame (larger.ownsFrame.trans owns)]
        exact ⟨_, rfl, owner.symm, List.getElem?_concat_length⟩
      · rintro _ _ ⟨⟩
        exact ⟨_, _, rfl, rfl⟩
    | false =>
      have made : Scopes.allocate v (s :: outer) =
          ((Scopes.allocate v outer).1, s :: (Scopes.allocate v outer).2) := by
        rw [Scopes.allocate, owns]
        rfl
      rw [made]
      rw [chain_of_loop owns] at inner
      obtain ⟨grows, sound, reaches, -⟩ := ih h.2.2.2 inner
      refine ⟨.cons (.refl s) grows, h.cons_outer sound grows, ?_, ?_⟩
      · rw [chain_of_loop owns]
        exact reaches
      · rintro _ _ ⟨⟩
        exact ⟨_, _, rfl, rfl⟩

/-- What declaring a variable is to do: a slot that leads to it, in sound scopes that have grown. -/
structure Declared (source : Nat) (a : Scopes) (made : SlotRef × Scopes) : Prop where
  grow : Grow a made.2
  sound : Sound source made.2
  reaches : made.1.Reaches (chain made.2)

/-- **A variable of the innermost scope**, new or not, is led to by its slot. -/
theorem Sound.declareLocal (h : Sound source a) (inside : a ≠ []) (name : String) :
    Declared source a (declareLocal a name) := by
  obtain _ | ⟨s, outer⟩ := a
  · exact absurd rfl inside
  unfold Scopes.declareLocal
  dsimp only
  cases known : s.locals.lookup (Text.fold name) with
  | some index => exact ⟨Grow.refl _, h, h.2.1 _ index (.inr known)⟩
  | none =>
    obtain ⟨layout, rest, inner, owner⟩ := h.chain_cons
    obtain ⟨grows, sound, reaches, shape⟩ :=
      h.allocate inner (s.variableOf (Text.fold name)) owner.symm
    obtain ⟨t, wider, is_cons, same⟩ := shape s outer rfl
    dsimp only
    revert grows sound reaches
    cases eq : Scopes.allocate (s.variableOf (Text.fold name)) (s :: outer) with
    | mk index scopes =>
      rw [eq] at is_cons
      obtain rfl : scopes = t :: wider := is_cons
      intro grows sound reaches
      cases grows with
      | cons first others =>
        have named : t.Grows { t with locals := (Text.fold name, index) :: t.locals } :=
          ⟨rfl, rfl, rfl, List.prefix_rfl, fun _ h => h⟩
        have wide := (Grow.chain (.cons named (Grow.refl wider)))
        rw [← first.variableOf] at reaches
        have there : (⟨t.variableOf (Text.fold name), 0, index⟩ : SlotRef).Reaches
            (chain ({ t with locals := (Text.fold name, index) :: t.locals } :: wider)) :=
          reaches.grow wide
        dsimp only
        refine ⟨.cons (first.trans named) others, ?_, there⟩
        refine sound.cons sound.2.2.2 named (Grow.refl wider) fun key place declares => ?_
        rcases declares with param | here
        · exact .inl (.inl param)
        · rw [List.lookup_cons] at here
          split at here
          next is_key =>
            obtain rfl := Option.some.inj here
            obtain rfl := eq_of_beq is_key
            rw [named.variableOf]
            exact .inr there
          next => exact .inl (.inr here)

/-- **A variable of the outermost scope**, new or not, is led to by its slot. -/
theorem Sound.declareGlobal (h : Sound source a) (inside : a ≠ []) (name : String) :
    Declared source a (declareGlobal a name) := by
  induction a with
  | nil => exact absurd rfl inside
  | cons s outer ih =>
    cases outer with
    | nil => exact h.declareLocal inside name
    | cons next outer =>
      obtain ⟨grow, sound, reaches⟩ := ih h.2.2.2 (List.cons_ne_nil _ _)
      exact ⟨.cons (.refl s) grow, h.cons_outer sound grow, reaches_enter reaches⟩

/-- A new slot changes no more of the innermost scope than its slots. -/
theorem allocate_cons (v : Variable) (s : Scope) (outer : Scopes) :
    ∃ index slots rest, allocate v (s :: outer) = (index, { s with slots := slots } :: rest) := by
  unfold Scopes.allocate
  split
  · exact ⟨_, _, _, rfl⟩
  · exact ⟨_, s.slots, _, rfl⟩

/-- The variable that a declaration in the innermost scope means. -/
theorem meant_declareLocal (s : Scope) (outer : Scopes) (name : String) :
    (declareLocal (s :: outer) name).1.meant = s.variableOf (Text.fold name) := by
  unfold Scopes.declareLocal
  dsimp only
  split
  · rfl
  · obtain ⟨index, slots, rest, made⟩ := allocate_cons (s.variableOf (Text.fold name)) s outer
    rw [made]
    rfl

/-- The variable that a declaration in the outermost scope means. -/
theorem meant_declareGlobal (a : Scopes) (s : Scope) (name : String) :
    (declareGlobal (a ++ [s]) name).1.meant = s.variableOf (Text.fold name) := by
  induction a with
  | nil => exact meant_declareLocal s [] name
  | cons t rest ih =>
    obtain ⟨next, others, is_cons⟩ := List.exists_cons_of_ne_nil
      (List.append_ne_nil_of_right_ne_nil rest (List.cons_ne_nil s []))
    rw [List.cons_append, ← ih, is_cons]
    have entered : (declareGlobal (t :: next :: others) name).1 =
        enter t (declareGlobal (next :: others) name).1 := rfl
    rw [entered]
    unfold enter
    split <;> rfl

/-! ## Labels of functions -/

/-- A function without a label may be given one. -/
theorem Sound.setReturnLabel (h : Sound source a) (missing : a.returnLabel? = none) (label : Label) :
    Grow a (setReturnLabel label a) ∧ Sound source (setReturnLabel label a) := by
  induction a with
  | nil => exact ⟨.nil, trivial⟩
  | cons s outer ih =>
    unfold Scopes.returnLabel? at missing
    rw [List.find?_cons] at missing
    unfold Scopes.setReturnLabel
    split
    next function =>
      rw [decide_eq_true function] at missing
      have labelled : s.Grows { s with returnLabel? := some label } :=
        ⟨rfl, rfl, rfl, List.prefix_rfl, fun other set => nomatch missing.symm.trans set⟩
      refine ⟨.cons labelled (Grow.refl outer), ?_⟩
      exact h.cons h.2.2.2 labelled (Grow.refl outer) fun _ _ declares => .inl declares
    next other =>
      rw [decide_eq_false other] at missing
      obtain ⟨grow, sound⟩ := ih h.2.2.2 missing
      exact ⟨.cons (.refl s) grow, h.cons_outer sound grow⟩

theorem returnLabel?_setReturnLabel (h : a.inFunction = true) (label : Label) :
    returnLabel? (setReturnLabel label a) = some label := by
  induction a with
  | nil => cases h
  | cons s outer ih =>
    unfold Scopes.setReturnLabel
    split
    next function =>
      have hit : decide ({ s with returnLabel? := some label }.kind = .function) = true :=
        decide_eq_true function
      unfold Scopes.returnLabel?
      rw [List.find?_cons, hit]
      rfl
    next other =>
      have rest : inFunction outer = true := by
        unfold inFunction at h ⊢
        rwa [List.any_cons, decide_eq_false other, Bool.false_or] at h
      unfold Scopes.returnLabel?
      rw [List.find?_cons, decide_eq_false other]
      exact ih rest

/-! ## Going into scopes and out of them -/

theorem getElem?_of_lookup_paramSlots {params : List String} {index : Nat}
    (h : (Scope.paramSlots params).lookup key = some index) :
    (params.map Text.fold)[index]? = some key := by
  obtain ⟨before, after, split, -⟩ := List.lookup_eq_some_iff.1 h
  have mem : (key, index) ∈ Scope.paramSlots params := split ▸ List.mem_append_right _ List.mem_cons_self
  unfold Scope.paramSlots at mem
  obtain ⟨⟨name, place⟩, at_place, folded⟩ := List.mem_map.1 (List.mem_reverse.1 mem)
  obtain ⟨rfl, rfl⟩ := Prod.mk.inj folded
  have found := List.mem_zipIdx_iff_getElem?.1 at_place
  rw [List.getElem?_map, found]
  rfl

/-- A function may be gone into. -/
theorem Sound.function (h : Sound source a) {owner : Owner} (here : owner.source = source)
    (params : List String) : Sound source (.function owner params :: a) := by
  refine ⟨here, ?_, (fun loops => nomatch loops), h⟩
  intro key index declares
  rcases declares with param | never
  · refine ⟨_, rfl, rfl, ?_⟩
    have found := getElem?_of_lookup_paramSlots param
    rw [List.getElem?_map] at found
    obtain ⟨name, at_index, rfl⟩ := Option.map_eq_some_iff.1 found
    show (params.map _)[index]? = _
    rw [List.getElem?_map, at_index]
    rfl
  · cases never

/-- A loop may be gone into. -/
theorem Sound.loop (h : Sound source a) (inside : a ≠ []) (label : Label) :
    Sound source (.loop a.owner label :: a) := by
  obtain _ | ⟨s, outer⟩ := a
  · exact absurd rfl inside
  refine ⟨h.1, ?_, fun _ => h.chain_cons, h⟩
  rintro key index (never | never)
  · cases never
  · cases never

theorem sound_module (owner : Owner) : Sound owner.source [.module owner] := by
  refine ⟨rfl, ?_, (fun loops => nomatch loops), trivial⟩
  rintro key index (never | never)
  · cases never
  · cases never

theorem Grow.tail (h : Grow (s :: a) b) : ∃ t c, b = t :: c ∧ s.Grows t ∧ Grow a c := by
  cases h with
  | cons first rest => exact ⟨_, _, rfl, first, rest⟩

theorem Grow.ne_nil (h : Grow a b) (inside : a ≠ []) : b ≠ [] := by
  cases h with
  | nil => exact inside
  | cons => exact List.cons_ne_nil _ _

end Scopes

end HostScript
