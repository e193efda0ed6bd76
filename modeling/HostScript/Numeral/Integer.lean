import HostScript.Text.Letter

/-!
# Numeral/Integer — decimal text of whole numbers

Numbers are written with as few digits as possible and a minus sign before a negative one, and read
with an optional sign of either kind before at least one digit.  `natural?_digits` and
`integer?_integerText` say that reading undoes writing.
-/

namespace HostScript.Numeral

/-- The decimal digits of a natural number. -/
def digits (n : Nat) : List Char := Nat.toDigits 10 n

/-- The natural number that a nonempty run of digits stands for. -/
def natural? (cs : List Char) : Option Nat :=
  if !cs.isEmpty && cs.all Text.isDigit then some (Nat.ofDigitChars 10 cs 0) else none

/-- The decimal text of an integer. -/
def integerText (i : Int) : String :=
  String.ofList (if i < 0 then '-' :: digits i.natAbs else digits i.natAbs)

/-- The integer that digits after an optional sign stand for. -/
def integer? : List Char → Option Int
  | '-' :: cs => (natural? cs).map fun n => -(n : Int)
  | '+' :: cs => (natural? cs).map fun n => (n : Int)
  | cs => (natural? cs).map fun n => (n : Int)

/-- A number of sixty-four bits, if the integer is one. -/
def word? (i : Int) : Option Int64 :=
  if Int64.minValue.toInt ≤ i ∧ i ≤ Int64.maxValue.toInt then some (Int64.ofInt i) else none

/-- The sixty-four bit number that digits after an optional sign stand for. -/
def readWord? (cs : List Char) : Option Int64 := integer? cs >>= word?

/-- The decimal text of a number of sixty-four bits. -/
def wordText (i : Int64) : String := integerText i.toInt

theorem isDigit_of_mem_digits {n : Nat} {c : Char} (h : c ∈ digits n) :
    Text.isDigit c = true := by
  have digit := Nat.isDigit_of_mem_toDigits (by decide) (by decide) h
  simpa [Text.isDigit, Char.isDigit, Char.le_def] using digit

theorem digits_ne_nil (n : Nat) : digits n ≠ [] := by
  rw [digits, Nat.toDigits_eq_if (by decide)]
  split <;> simp

@[simp] theorem natural?_digits (n : Nat) : natural? (digits n) = some n := by
  have all : (digits n).all Text.isDigit = true :=
    List.all_eq_true.2 fun _ h => isDigit_of_mem_digits h
  have filled : (digits n).isEmpty = false := by simp [digits_ne_nil]
  rw [natural?, all, filled]
  exact congrArg some (Nat.ofDigitChars_toDigits (by decide) (by decide))

theorem integer?_digits (n : Nat) : integer? (digits n) = some (n : Int) := by
  have head : ∀ c cs, digits n = c :: cs → Text.isDigit c = true := fun c cs h =>
    isDigit_of_mem_digits (n := n) (by simp [h])
  rw [integer?]
  · simp
  · intro cs h
    exact absurd (head _ _ h) (by decide)
  · intro cs h
    exact absurd (head _ _ h) (by decide)

theorem integer?_integerText (i : Int) : integer? (integerText i).toList = some i := by
  rw [integerText, String.toList_ofList]
  split
  next negative =>
    rw [integer?, natural?_digits]
    exact congrArg some (by simp only; omega)
  next nonnegative =>
    rw [integer?_digits]
    exact congrArg some (by omega)

theorem readWord?_wordText (i : Int64) : readWord? (wordText i).toList = some i := by
  have fits : Int64.minValue.toInt ≤ i.toInt ∧ i.toInt ≤ Int64.maxValue.toInt :=
    ⟨Int64.minValue_le_toInt i, Int64.toInt_le i⟩
  rw [readWord?, wordText, integer?_integerText, Option.bind_eq_bind, Option.bind_some, word?,
    if_pos fits, Int64.ofInt_toInt]

end HostScript.Numeral
