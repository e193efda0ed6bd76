import HostScript.Proofs.Dispatch.Faithful

/-!
# Proofs/Dispatch/Comparisons — comparisons agree with each other

What `==`, `!=`, `<`, `<=`, `>` and `>=` say of two values is one answer seen from several sides: they are
`Coherent`.  For operands of one kind that is a law of their order, which for floats is the partial order of
the standard, where a float that is no number stands in no relation (`swap_compare_unpacked`).  A conversion
does not change it: the same operand is converted from whichever side the two are looked at
(`Conversion.apply_swapped`).
-/

namespace HostScript

open Float.Model (UnpackedFloat)

/-! ## Floats -/

/-- The order of two magnitudes seen from the other side. -/
theorem swap_compare_magnitude (e f : Int) (m n : Nat) :
    ((compare e f).then (compare m n)).swap = (compare f e).then (compare n m) := by
  rw [Ordering.swap_then, Int.compare_swap, Nat.compare_swap]

/-- **The order of floats seen from the other side.** -/
theorem swap_compare_unpacked (a b : UnpackedFloat) : (a.compare b).map Ordering.swap = b.compare a := by
  cases a with
  | notANumber => cases b <;> rfl
  | infinity s =>
    cases b with
    | infinity t => cases s <;> cases t <;> rfl
    | _ => cases s <;> rfl
  | zero s =>
    cases b with
    | infinity t | finite t => cases t <;> rfl
    | _ => rfl
  | finite s m e =>
    cases b with
    | notANumber => rfl
    | infinity t => cases s <;> cases t <;> rfl
    | zero => cases s <;> rfl
    | finite t n f =>
      have magnitude := swap_compare_magnitude e f m n
      cases s <;> cases t
      · exact congrArg some (congrArg Ordering.swap magnitude)
      · rfl
      · rfl
      · exact congrArg some magnitude

/-- The order of two floats, if they have one. -/
def floatOrder? (a b : Float) : Option Ordering := a.toModel.unpack.compare b.toModel.unpack

theorem float_beq_comm (a b : Float) : (a == b) = (b == a) := by
  show (floatOrder? a b == some .eq) = (floatOrder? b a == some .eq)
  have swapped : (floatOrder? a b).map Ordering.swap = floatOrder? b a := swap_compare_unpacked _ _
  rw [← swapped]
  cases floatOrder? a b with
  | none => rfl
  | some o => cases o <;> rfl

theorem float_lt_iff (a b : Float) : a < b ↔ (floatOrder? a b == some .lt) = true :=
  show decide (a.toModel < b.toModel) = true ↔ _ from decide_eq_true_iff

theorem float_le_iff (a b : Float) : a ≤ b ↔ (floatOrder? a b).any (·.isLE) = true :=
  show decide (a.toModel ≤ b.toModel) = true ↔ _ from decide_eq_true_iff

/-- A float is at most another one just if it is less or equal. -/
theorem float_le_eq (a b : Float) : decide (a ≤ b) = (decide (a < b) || a == b) := by
  have equal : (a == b) = (floatOrder? a b == some .eq) := rfl
  rw [Bool.eq_iff_iff, decide_eq_true_iff, float_le_iff, Bool.or_eq_true, decide_eq_true_iff,
    float_lt_iff, equal]
  cases floatOrder? a b with
  | none => decide
  | some o => cases o <;> decide

/-! ## Operands of one kind -/

/-- **What comparisons by a function say of two values.**  They can be compared for equality, from either side
and for its negation; and either the four other comparisons hold as a common order has it, of which equality
is the border, or all four fail for the kinds of the operands. -/
def Coherent (f : BinaryOp → Value → Value → Except EvalError.Cause Value) (a b : Value) : Prop :=
  ∃ equal, f .eq a b = .ok (.bool equal) ∧ f .eq b a = .ok (.bool equal) ∧
    f .notEq a b = .ok (.bool !equal) ∧
    ((∃ less, f .lt a b = .ok (.bool less) ∧ f .gt b a = .ok (.bool less) ∧
        f .ltEq a b = .ok (.bool (less || equal)) ∧ f .gtEq b a = .ok (.bool (less || equal))) ∨
      ∃ left right, f .lt a b = .error (.operatorMismatch .lt left right) ∧
        f .gt b a = .error (.operatorMismatch .gt right left) ∧
        f .ltEq a b = .error (.operatorMismatch .ltEq left right) ∧
        f .gtEq b a = .error (.operatorMismatch .gtEq right left))

theorem Value.same_comm (a b : Value) : a.same b = b.same a := by
  cases a <;> cases b <;>
    first
    | rfl
    | exact BEq.comm
    | exact float_beq_comm _ _
    | exact decide_eq_decide.2 eq_comm

namespace BinaryOp

variable {a b : Value}

/-- The operators that compare. -/
def comparisons : List BinaryOp := [eq, notEq, lt, ltEq, gt, gtEq]

/-- Values that are compared by an order, which is turned round on the other side. -/
theorem coherent_of_order {o o' : Ordering} (swapped : o.swap = o')
    (first : ∀ op ∈ comparisons, op.evaluate a b = op.compareAs o a b)
    (second : ∀ op ∈ comparisons, op.evaluate b a = op.compareAs o' b a) : Coherent evaluate a b := by
  subst swapped
  refine ⟨o.isEq, first eq (by decide), (second eq (by decide)).trans ?_, first notEq (by decide),
    .inl ⟨o.isLT, first lt (by decide), (second gt (by decide)).trans ?_, (first ltEq (by decide)).trans ?_,
      (second gtEq (by decide)).trans ?_⟩⟩
  all_goals cases o <;> rfl

theorem coherent_int (i j : Int64) : Coherent evaluate (.int i) (.int j) := by
  have by_order (m n : Int64) : ∀ op ∈ comparisons,
      op.evaluate (.int m) (.int n) = op.compareAs (compare m.toInt n.toInt) (.int m) (.int n) := by
    simp [comparisons, evaluate, onInt]
  exact coherent_of_order (Int.compare_swap _ _) (by_order i j) (by_order j i)

theorem coherent_text (s t : String) : Coherent evaluate (.text s) (.text t) := by
  have by_order (m n : String) : ∀ op ∈ comparisons,
      op.evaluate (.text m) (.text n) = op.compareAs (compare m n) (.text m) (.text n) := by
    simp [comparisons, evaluate, onText]
  exact coherent_of_order Std.OrientedCmp.eq_swap.symm (by_order s t) (by_order t s)

theorem coherent_float (x y : Float) : Coherent evaluate (.float x) (.float y) := by
  refine ⟨x == y, rfl, congrArg _ (congrArg _ (float_beq_comm y x)), rfl,
    .inl ⟨decide (x < y), rfl, rfl, ?_, ?_⟩⟩
  · exact congrArg _ (congrArg _ (float_le_eq x y))
  · exact congrArg _ (congrArg _ (float_le_eq x y))

theorem coherent_bool (p q : Bool) : Coherent evaluate (.bool p) (.bool q) := by
  refine ⟨p == q, rfl, ?_, rfl, .inr ⟨_, _, rfl, rfl, rfl, rfl⟩⟩
  exact congrArg _ (congrArg _ (Bool.beq_comm))

/-- An operator on operands that it only tells apart. -/
def onOthers (op : BinaryOp) (a b : Value) : Except EvalError.Cause Value :=
  match op with
  | eq => .ok (.bool (a.same b))
  | notEq => .ok (.bool (!a.same b))
  | op => .error (op.mismatch a b)

theorem coherent_of_others (first : ∀ op : BinaryOp, op.evaluate a b = op.onOthers a b)
    (second : ∀ op : BinaryOp, op.evaluate b a = op.onOthers b a) : Coherent evaluate a b := by
  refine ⟨a.same b, first eq, (second eq).trans ?_, first notEq,
    .inr ⟨a.typeName, b.typeName, first lt, second gt, first ltEq, second gtEq⟩⟩
  rw [onOthers, Value.same_comm]

/-- **Comparisons are coherent without a conversion.** -/
theorem coherent_evaluate (a b : Value) : Coherent evaluate a b := by
  cases a <;> cases b <;>
    first
    | exact coherent_of_others (fun _ => rfl) fun _ => rfl
    | exact coherent_int _ _
    | exact coherent_float _ _
    | exact coherent_bool _ _
    | exact coherent_text _ _

end BinaryOp

/-! ## Conversions -/

/-- At most one of two kinds is converted to the other. -/
theorem Widening.one_way {left right : Shape} {w : Widening} (h : Widening.of? left right = some w) :
    Widening.of? right left = none := by
  unfold Widening.of? at h
  split at h <;> first | rfl | cases h

namespace Conversion

/-- A conversion seen from the other side. -/
def swapped : Conversion → Conversion
  | none => none
  | left w => right w
  | right w => left w

theorem between_swapped (l r : Shape) : between r l = (between l r).swapped := by
  by_cases same : l = r
  · subst same
    rw [between, if_pos rfl]
    rfl
  · rw [between, between, if_neg same, if_neg (Ne.symm same)]
    cases first : Widening.of? l r with
    | some w =>
      rw [Widening.one_way first]
      rfl
    | none => cases Widening.of? r l <;> rfl

theorem apply_swapped (c : Conversion) (a b : Value) : c.swapped.apply b a = (c.apply a b).swap := by
  cases c <;> rfl

end Conversion

/-- An operator on two values, after the conversion for their shapes. -/
def BinaryOp.applied (op : BinaryOp) (a b : Value) : Except EvalError.Cause Value :=
  let (a, b) := (Conversion.between a.shape b.shape).apply a b
  op.evaluate a b

/-- That is what a dynamic operation comes to, whatever has been decided before. -/
theorem Store.Faithful.dispatch_binary {s : Store} {registry : Registry} (h : s.Faithful registry)
    (rt : RuntimeId) (module : NamespaceId) (op : BinaryOp) (a b : Value) :
    (s.dispatch registry rt module (.binary op) [a, b]).1 = .ofExcept (op.applied a b) := by
  have chosen : ((s.runtime rt).surface registry).choose (.binary op) [a, b] =
      .binary op (.between a.shape b.shape) := by
    simp [Surface.choose, Signature.binary]
  unfold Store.dispatch
  rw [← Prod.eta (s.decide registry rt (.binary op) [a, b]), (h.decide rt (.binary op) [a, b]).1, chosen]
  rfl

/-- **Comparisons are coherent across conversions.** -/
theorem comparisons_coherent (a b : Value) : Coherent BinaryOp.applied a b := by
  generalize pair : (Conversion.between a.shape b.shape).apply a b = operands
  have first (op : BinaryOp) : op.applied a b = op.evaluate operands.1 operands.2 := by
    rw [BinaryOp.applied, pair]
  have second (op : BinaryOp) : op.applied b a = op.evaluate operands.2 operands.1 := by
    rw [BinaryOp.applied, Conversion.between_swapped, Conversion.apply_swapped, pair]
    rfl
  unfold Coherent
  simp only [first, second]
  exact BinaryOp.coherent_evaluate operands.1 operands.2

end HostScript
