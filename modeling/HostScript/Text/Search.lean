/-!
# Text/Search — texts inside texts

A pattern occurs in a text where it is a prefix of what follows.  `indexOf?_eq_some_iff` and
`indexOf?_eq_none_iff` say that the search finds the first occurrence and misses none.

The search compares a pattern with the text only where their fingerprints agree.  The fingerprint of
the next place is computed from that of the last one (`fingerprint_slide`), so a long pattern costs no
more than a short one.
-/

namespace HostScript.Text

/-! ## Fingerprints -/

/-- The base of fingerprints. -/
def base : UInt64 := 0x9E3779B97F4A7C15

/-- The digit that a character stands for in a fingerprint. -/
def digit (c : Char) : UInt64 := c.val.toUInt64

/-- The fingerprint of a text: its characters as the digits of a number, modulo `2 ^ 64`. -/
def fingerprint (cs : List Char) : UInt64 := cs.foldl (fun f c => f * base + digit c) 0

/-- What the digit before a text is worth. -/
def weight (cs : List Char) : UInt64 := cs.foldl (fun w _ => w * base) 1

theorem foldl_digit (f : UInt64) (cs : List Char) :
    cs.foldl (fun f c => f * base + digit c) f = f * base ^ cs.length + fingerprint cs := by
  induction cs generalizing f with
  | nil => simp [fingerprint]
  | cons c cs ih =>
    rw [fingerprint, List.foldl_cons, List.foldl_cons, ih, ih (0 * base + digit c),
      List.length_cons, UInt64.pow_succ]
    grind

theorem fingerprint_cons (c : Char) (cs : List Char) :
    fingerprint (c :: cs) = digit c * base ^ cs.length + fingerprint cs := by
  rw [fingerprint, List.foldl_cons, foldl_digit]
  grind

theorem fingerprint_concat (cs : List Char) (c : Char) :
    fingerprint (cs ++ [c]) = fingerprint cs * base + digit c := by
  simp [fingerprint]

theorem weight_eq (cs : List Char) : weight cs = base ^ cs.length := by
  have fold : ∀ (w : UInt64) (cs : List Char),
      cs.foldl (fun w _ => w * base) w = w * base ^ cs.length := by
    intro w cs
    induction cs generalizing w with
    | nil => simp
    | cons c cs ih =>
      rw [List.foldl_cons, ih, List.length_cons, UInt64.pow_succ]
      grind
  rw [weight, fold, UInt64.one_mul]

/-- The fingerprint of a text moved on by one character. -/
theorem fingerprint_slide (first last : Char) (between : List Char) :
    fingerprint (between ++ [last]) =
      fingerprint (first :: between) * base + digit last
        - digit first * base ^ (between.length + 1) := by
  rw [fingerprint_concat, fingerprint_cons, UInt64.pow_succ]
  grind

/-! ## The first occurrence -/

/-- The first occurrence of a pattern with the given fingerprint and weight, from a place on.  `here`
is the fingerprint of as much of the text as the pattern is long, and `ahead` is the text after
that. -/
def firstMatch (pattern : List Char) (print weight : UInt64) :
    UInt64 → Nat → List Char → List Char → Option Nat
  | here, place, c :: rest, d :: ahead =>
    if here == print && pattern.isPrefixOf (c :: rest) then some place
    else
      firstMatch pattern print weight (here * base + digit d - digit c * weight) (place + 1) rest
        ahead
  | here, place, text, _ => if here == print && pattern.isPrefixOf text then some place else none

/-- The number of characters before the first occurrence of a pattern. -/
def indexOf? (pattern text : List Char) : Option Nat :=
  firstMatch pattern (fingerprint pattern) (weight pattern)
    (fingerprint (text.take pattern.length)) 0 text (text.drop pattern.length)

theorem firstMatch_succ (pattern : List Char) (print weight here : UInt64) (place : Nat)
    (text ahead : List Char) :
    firstMatch pattern print weight here (place + 1) text ahead =
      (firstMatch pattern print weight here place text ahead).map (· + 1) := by
  induction ahead generalizing here place text with
  | nil =>
    cases text <;> simp only [firstMatch] <;> split <;> rfl
  | cons d ahead ih =>
    cases text with
    | nil =>
      simp only [firstMatch]
      split <;> rfl
    | cons c rest =>
      simp only [firstMatch]
      split
      · rfl
      · exact ih _ _ _

/-- Where a pattern occurs its fingerprint does. -/
theorem agrees_and_isPrefixOf (pattern text : List Char) :
    (fingerprint (text.take pattern.length) == fingerprint pattern && pattern.isPrefixOf text) =
      pattern.isPrefixOf text := by
  cases occurs : pattern.isPrefixOf text with
  | false => simp
  | true =>
    rw [List.isPrefixOf_iff_prefix, List.prefix_iff_eq_take] at occurs
    simp [← occurs]

theorem isPrefixOf_eq_false {pattern text : List Char} (h : text.length < pattern.length) :
    pattern.isPrefixOf text = false := by
  rw [Bool.eq_false_iff, ne_eq, List.isPrefixOf_iff_prefix]
  intro occurs
  exact absurd occurs.length_le (Nat.not_le.2 h)

theorem indexOf?_of_drop_eq_nil {pattern text : List Char} (h : text.drop pattern.length = []) :
    indexOf? pattern text = if pattern.isPrefixOf text then some 0 else none := by
  rw [indexOf?, h, firstMatch, agrees_and_isPrefixOf]
  simp

theorem indexOf?_nil (pattern : List Char) :
    indexOf? pattern [] = if pattern.isEmpty then some 0 else none := by
  rw [indexOf?_of_drop_eq_nil (by simp)]
  cases pattern <;> rfl

theorem indexOf?_cons (pattern : List Char) (c : Char) (rest : List Char) :
    indexOf? pattern (c :: rest) =
      if pattern.isPrefixOf (c :: rest) then some 0 else (indexOf? pattern rest).map (· + 1) := by
  cases after : (c :: rest).drop pattern.length with
  | nil =>
    have short : rest.length < pattern.length := Nat.lt_of_succ_le (by simpa using after)
    have missing : rest.drop pattern.length = [] := by simp; omega
    rw [indexOf?_of_drop_eq_nil after, indexOf?_of_drop_eq_nil missing, isPrefixOf_eq_false short]
    simp
  | cons d ahead =>
    rw [indexOf?, after, firstMatch, agrees_and_isPrefixOf]
    split
    · rfl
    next differs =>
      cases length : pattern.length with
      | zero =>
        obtain rfl := List.length_eq_zero_iff.1 length
        simp at differs
      | succ n =>
        have next : rest.drop n = d :: ahead := by simpa [length] using after
        have bound : n < rest.length := by
          have := congrArg List.length next
          simp only [List.length_drop, List.length_cons] at this
          omega
        have moved : rest.take (n + 1) = rest.take n ++ [d] := by
          rw [List.take_add_one, List.getElem?_eq_getElem bound]
          have := List.drop_eq_getElem_cons bound
          rw [next] at this
          simp [(List.cons.inj this).1]
        have left : rest.drop (n + 1) = ahead := by
          rw [← List.drop_drop, next]
          rfl
        rw [firstMatch_succ, indexOf?, length, left, moved, fingerprint_slide c, List.take_succ_cons,
          weight_eq, length, List.length_take, Nat.min_eq_left (Nat.le_of_lt bound)]

theorem indexOf?_eq_some_iff {pattern text : List Char} {k : Nat} :
    indexOf? pattern text = some k ↔
      k ≤ text.length ∧ pattern <+: text.drop k ∧ ∀ j < k, ¬ pattern <+: text.drop j := by
  induction text generalizing k with
  | nil =>
    rw [indexOf?_nil]
    cases pattern with
    | nil =>
      simp [eq_comm]
      omega
    | cons p ps => simp
  | cons c rest ih =>
    rw [indexOf?_cons]
    by_cases here : pattern <+: c :: rest
    · rw [if_pos (List.isPrefixOf_iff_prefix.2 here)]
      constructor
      · rintro ⟨⟩
        exact ⟨Nat.zero_le _, by simpa using here, fun _ h => absurd h (Nat.not_lt_zero _)⟩
      · rintro ⟨-, -, least⟩
        cases k with
        | zero => rfl
        | succ k => exact absurd (by simpa using here) (least 0 (Nat.succ_pos k))
    · rw [if_neg (by rwa [List.isPrefixOf_iff_prefix]), Option.map_eq_some_iff]
      constructor
      · rintro ⟨j, found, rfl⟩
        obtain ⟨bound, occurs, least⟩ := ih.1 found
        refine ⟨by simpa using bound, by simpa using occurs, fun i h => ?_⟩
        cases i with
        | zero => simpa using here
        | succ i => simpa using least i (Nat.lt_of_succ_lt_succ h)
      · rintro ⟨bound, occurs, least⟩
        cases k with
        | zero => exact absurd (by simpa using occurs) here
        | succ k =>
          refine ⟨k, ih.2 ⟨by simpa using bound, by simpa using occurs, fun j h => ?_⟩, rfl⟩
          simpa using least (j + 1) (Nat.succ_lt_succ h)

theorem indexOf?_eq_none_iff {pattern text : List Char} :
    indexOf? pattern text = none ↔ ∀ k ≤ text.length, ¬ pattern <+: text.drop k := by
  induction text with
  | nil =>
    rw [indexOf?_nil]
    cases pattern <;> simp
  | cons c rest ih =>
    rw [indexOf?_cons]
    by_cases here : pattern <+: c :: rest
    · rw [if_pos (List.isPrefixOf_iff_prefix.2 here)]
      exact ⟨fun h => (Option.some_ne_none _ h).elim, fun h =>
        absurd (by simpa using here) (h 0 (Nat.zero_le _))⟩
    · rw [if_neg (by rwa [List.isPrefixOf_iff_prefix]), Option.map_eq_none_iff, ih]
      constructor
      · intro h k bound
        cases k with
        | zero => simpa using here
        | succ k => simpa using h k (by simpa using bound)
      · intro h k bound
        simpa using h (k + 1) (by simpa using bound)

/-- Whether a pattern occurs in a text. -/
def occurs (pattern text : List Char) : Bool := (indexOf? pattern text).isSome

/-! ## Replacement -/

theorem length_drop_of_indexOf? {pattern text : List Char} {k : Nat} (filled : pattern ≠ [])
    (h : indexOf? pattern text = some k) :
    (text.drop (k + pattern.length)).length < text.length := by
  obtain ⟨-, occurs, -⟩ := indexOf?_eq_some_iff.1 h
  have fits := occurs.length_le
  have := List.length_pos_iff.2 filled
  rw [List.length_drop] at fits ⊢
  omega

/-- What is left of a text between the occurrences of a pattern, taken from left to right and none
inside another.  An empty pattern leaves the text whole. -/
def pieces (pattern text : List Char) : List (List Char) :=
  if _filled : pattern = [] then [text]
  else
    match _found : indexOf? pattern text with
    | none => [text]
    | some k => text.take k :: pieces pattern (text.drop (k + pattern.length))
termination_by text.length
decreasing_by exact length_drop_of_indexOf? _filled _found

/-- A text with the occurrences of a pattern that is not empty replaced. -/
def replaceAll (pattern replacement text : List Char) : List Char :=
  replacement.intercalate (pieces pattern text)

end HostScript.Text
