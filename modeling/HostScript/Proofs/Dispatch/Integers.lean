import HostScript.Proofs.Dispatch.Answers
import Mathlib.Data.Int.ModEq

/-!
# Proofs/Dispatch/Integers — arithmetic on integers

The operators on integers are those of the whole numbers, taken modulo `2 ^ 64` into the range of sixty-four
bits (`toInt_modEq`).  A quotient is truncated, and with the remainder it gives back what has been divided
(`div_mul_add_mod`): where the quotient does not fit, which is that of the smallest integer by minus one,
the product does not fit either and wraps back.
-/

namespace HostScript

/-! ## Numbers of sixty-four bits -/

namespace Numeral

/-- A whole number taken into a range is congruent to itself. -/
theorem toInt_modEq {c : Int64} {exact : Int} (wrapped : c.toInt = exact.bmod (2 ^ 64)) :
    c.toInt ≡ exact [ZMOD 2 ^ 64] := by
  rw [wrapped]
  exact Int.bmod_emod

/-- **Quotient and remainder give back what has been divided**, also where they wrap. -/
theorem div_mul_add_mod (a b : Int64) : a / b * b + a % b = a := by
  apply Int64.toInt_inj.1
  calc (a / b * b + a % b).toInt
      = (((a.toInt.tdiv b.toInt).bmod (2 ^ 64) * b.toInt).bmod (2 ^ 64) +
          a.toInt.tmod b.toInt).bmod (2 ^ 64) := by
        rw [Int64.toInt_add, Int64.toInt_mul, Int64.toInt_div, Int64.toInt_mod]
    _ = (a.toInt.tdiv b.toInt * b.toInt + a.toInt.tmod b.toInt).bmod (2 ^ 64) := by
        rw [Int.bmod_mul_bmod, Int.bmod_add_bmod]
    _ = a.toInt.bmod (2 ^ 64) := by rw [Int.tdiv_mul_add_tmod]
    _ = a.toInt := Int64.toInt_bmod a

/-- A remainder is smaller than the divisor. -/
theorem natAbs_mod_lt (a : Int64) {b : Int64} (some : b ≠ 0) :
    (a % b).toInt.natAbs < b.toInt.natAbs := by
  rw [Int64.toInt_mod, Int.natAbs_tmod]
  refine Nat.mod_lt _ (Int.natAbs_pos.2 fun zero => some ?_)
  exact Int64.toInt_inj.1 (zero.trans Int64.toInt_zero.symm)

/-- A remainder has the sign of what has been divided. -/
theorem sign_mod (a b : Int64) : a % b = 0 ∨ (a % b).toInt.sign = a.toInt.sign := by
  have sign := Int.sign_tmod a.toInt b.toInt
  rw [← Int64.toInt_mod] at sign
  split at sign
  · exact .inl (Int64.toInt_inj.1 ((Int.sign_eq_zero_iff_zero.1 sign).trans Int64.toInt_zero.symm))
  · exact .inr sign

end Numeral

/-! ## Operators -/

/-- Integers are not converted to apply an operator to them. -/
theorem BinaryOp.applied_int (op : BinaryOp) (a b : Int64) :
    op.applied (.int a) (.int b) = op.onInt a b := rfl

/-- **What operators answer for integers.** -/
structure IntegersWrap (answers : Answering) (a b : Int64) : Prop where
  sum : ∃ c : Int64, answers (.binary .add) [.int a, .int b] (.ok (.int c)) ∧
    c.toInt ≡ a.toInt + b.toInt [ZMOD 2 ^ 64]
  difference : ∃ c : Int64, answers (.binary .sub) [.int a, .int b] (.ok (.int c)) ∧
    c.toInt ≡ a.toInt - b.toInt [ZMOD 2 ^ 64]
  product : ∃ c : Int64, answers (.binary .mul) [.int a, .int b] (.ok (.int c)) ∧
    c.toInt ≡ a.toInt * b.toInt [ZMOD 2 ^ 64]
  opposite : ∃ c : Int64, answers (.unary .neg) [.int a] (.ok (.int c)) ∧
    c.toInt ≡ -a.toInt [ZMOD 2 ^ 64]
  /-- Only zero does not divide. -/
  undivided (op : BinaryOp) : op = .div ∨ op = .mod →
    (answers (.binary op) [.int a, .int b] (.error .divisionByZero) ↔ b = 0)
  /-- A quotient is truncated toward zero. -/
  quotient : b ≠ 0 → ∃ q : Int64, answers (.binary .div) [.int a, .int b] (.ok (.int q)) ∧
    q.toInt ≡ a.toInt.tdiv b.toInt [ZMOD 2 ^ 64]
  remainder : b ≠ 0 → ∃ r : Int64, answers (.binary .mod) [.int a, .int b] (.ok (.int r)) ∧
    r.toInt.natAbs < b.toInt.natAbs ∧ (r = 0 ∨ r.toInt.sign = a.toInt.sign)
  /-- `a / b * b + a % b == a` -/
  restored : b ≠ 0 → ∃ q p r c : Value,
    answers (.binary .div) [.int a, .int b] (.ok q) ∧ answers (.binary .mul) [q, .int b] (.ok p) ∧
      answers (.binary .mod) [.int a, .int b] (.ok r) ∧ answers (.binary .add) [p, r] (.ok c) ∧
      answers (.binary .eq) [c, .int a] (.ok (.bool true))

section

variable {s : Store} {registry : Registry} {rt : RuntimeId} {module : NamespaceId} {a b : Int64}

theorem Store.answers_int {op : BinaryOp} {r : Except EvalError.Cause Value} (same : op.onInt a b = r) :
    s.Answers registry rt module (.binary op) [.int a, .int b] r := by
  rw [← same, ← BinaryOp.applied_int]
  exact answers_binary op (.int a) (.int b)

/-- Division and remainder fail only for zero. -/
theorem BinaryOp.onInt_divides {op : BinaryOp} (divides : op = .div ∨ op = .mod) :
    op.onInt a b = .error .divisionByZero ↔ b = 0 := by
  rcases divides with rfl | rfl <;>
  · unfold onInt
    dsimp only
    split
    next zero => exact iff_of_true rfl zero
    next some => exact iff_of_false nofun some

end

/-- **Integers wrap.**  In every store of every runtime, whatever has been decided there, sums, differences,
products and opposites of integers are exact modulo `2 ^ 64`; a division fails just if the divisor is zero
and is truncated else; a remainder is zero or has the sign of what is divided, and is smaller than the
divisor; and `a / b * b + a % b == a` is answered by `true`. -/
theorem integers_wrap (s : Store) (registry : Registry) (rt : RuntimeId) (module : NamespaceId)
    (a b : Int64) : IntegersWrap (s.Answers registry rt module) a b := by
  have divided (some : b ≠ 0) : BinaryOp.div.onInt a b = .ok (.int (a / b)) := if_neg some
  have remains (some : b ≠ 0) : BinaryOp.mod.onInt a b = .ok (.int (a % b)) := if_neg some
  have equal (c : Int64) : BinaryOp.eq.onInt c c = .ok (.bool true) := by
    unfold BinaryOp.onInt BinaryOp.compareAs
    rw [Std.compare_self]
    rfl
  constructor
  case sum => exact ⟨a + b, Store.answers_int rfl, Numeral.toInt_modEq (Int64.toInt_add a b)⟩
  case difference => exact ⟨a - b, Store.answers_int rfl, Numeral.toInt_modEq (Int64.toInt_sub a b)⟩
  case product => exact ⟨a * b, Store.answers_int rfl, Numeral.toInt_modEq (Int64.toInt_mul a b)⟩
  case opposite =>
    exact ⟨-a, Store.answers_unary .neg (.int a), Numeral.toInt_modEq (Int64.toInt_neg a)⟩
  case undivided =>
    intro op divides
    constructor
    · intro fails
      exact (BinaryOp.onInt_divides divides).1 ((Store.answers_int rfl).unique fails)
    · intro zero
      exact Store.answers_int ((BinaryOp.onInt_divides divides).2 zero)
  case quotient =>
    intro some
    exact ⟨a / b, Store.answers_int (divided some), Numeral.toInt_modEq (Int64.toInt_div a b)⟩
  case remainder =>
    intro some
    exact ⟨a % b, Store.answers_int (remains some), Numeral.natAbs_mod_lt a some, Numeral.sign_mod a b⟩
  case restored =>
    intro some
    refine ⟨.int (a / b), .int (a / b * b), .int (a % b), .int (a / b * b + a % b),
      Store.answers_int (divided some), Store.answers_int rfl, Store.answers_int (remains some),
      Store.answers_int rfl, ?_⟩
    rw [Numeral.div_mul_add_mod]
    exact Store.answers_int (equal a)

/-- The one quotient that does not fit: the smallest integer by minus one is itself, and nothing remains. -/
theorem integers_wrap_smallest :
    (-1 : Int64) ≠ 0 ∧ ∃ q : Int64,
      Store.empty.Answers .initial ⟨0⟩ ⟨0⟩ (.binary .div) [.int Int64.minValue, .int (-1)]
        (.ok (.int q)) ∧ q.toInt ≡ 2 ^ 63 [ZMOD 2 ^ 64] := by
  have some : (-1 : Int64) ≠ 0 := by decide
  have wraps := integers_wrap .empty .initial ⟨0⟩ ⟨0⟩ Int64.minValue (-1)
  exact ⟨some, wraps.quotient some⟩

end HostScript
