import HostScript.Execute
import HostScript.Proofs.Dispatch.Answers
import HostScript.Proofs.Dispatch.Offered
import Mathlib.Algebra.Group.Nat.Defs
import Mathlib.Order.Bounds.Basic

/-!
# Proofs/Library/Texts — characters of texts are counted in one way

The parts of a text, its single characters and the places where it contains another text are all told by
the number of characters before them.  A part is answered just if it lies inside the text
(`substring_of_inside`, `exists_substring_eq_error`); what reading at an index answers is the part of one
character; and the place that is found for another text is the least one at which the part of its length is
that text (`mem_occurrences`).
-/

namespace HostScript

/-- The first type that is listed for the values of a kind is the one of a draft. -/
def Surface.Describes (offer : Surface) (kind : Primitive) (d : TypeDraft) : Prop :=
  ∃ info rest, offer.bound.filter (·.primitive? = some kind) = info :: rest ∧
    offer.registry.type info = d.described info

/-- Texts have the members of the type that is listed first. -/
theorem Surface.Describes.sources {offer : Surface} {d : TypeDraft} (h : offer.Describes .text d)
    (t : String) : ∃ info rest, offer.memberSources (.text t) = (info, .target) :: rest ∧
      offer.registry.type info = d.described info := by
  obtain ⟨info, rest, listed, registered⟩ := h
  exact ⟨info, _, congrArg (List.map fun info => (info, Receiver.target)) listed, registered⟩

namespace Text

variable {t p : String} {i n : Int64}

/-- The part of a text after some characters, with a number of characters. -/
def part (t : String) (start length : ℕ) : String := String.ofList ((t.toList.drop start).take length)

/-- A part lies inside a text. -/
def Inside (t : String) (start length : Int64) : Prop :=
  0 ≤ start.toInt ∧ 0 ≤ length.toInt ∧ start.toInt + length.toInt ≤ t.length

/-- The two parts of a text before and after a place. -/
theorem part_append_part (t : String) (k : ℕ) : part t 0 k ++ part t k (t.length - k) = t := by
  unfold part
  rw [← String.ofList_append, List.drop_zero, ← String.length_toList, ← List.length_drop,
    List.take_length, List.take_append_drop, String.ofList_toList]

/-- A text is at a place of another one just if the part of its length there is that text. -/
theorem part_eq_iff {k : ℕ} : part t k p.length = p ↔ p.toList <+: t.toList.drop k := by
  unfold part
  rw [List.prefix_iff_eq_take, String.length_toList]
  constructor
  · intro same
    exact (congrArg String.toList same).symm.trans String.toList_ofList
  · intro same
    rw [← same, String.ofList_toList]

/-- The part of one character. -/
theorem part_one {k : ℕ} {c : Char} (there : t.toList[k]? = some c) :
    part t k 1 = String.singleton c := by
  obtain ⟨within, rfl⟩ := List.getElem?_eq_some_iff.1 there
  unfold part
  rw [List.drop_eq_getElem_cons within, String.singleton_eq_ofList]
  rfl

end Text

/-! ## What the members of texts do -/

namespace Library

open Text (Inside part)

variable {t p : String} {i n : Int64}

theorem characterCount_eq_ok_iff {member : String} {k : ℕ} :
    characterCount member i = .ok k ↔ i.toInt = k := by
  unfold characterCount
  rw [← Int.mem_toNat?]
  cases i.toInt.toNat? with
  | none => exact iff_of_false nofun nofun
  | some other => simp

/-- A count that is negative is refused. -/
theorem exists_characterCount_eq_error (member : String) (negative : i.toInt < 0) :
    ∃ message, characterCount member i = .error message := by
  cases counted : characterCount member i with
  | error message => exact ⟨message, rfl⟩
  | ok k =>
    have same := characterCount_eq_ok_iff.1 counted
    omega

theorem substring_eq {start length : Except String ℕ} (first : characterCount "Substring" i = start)
    (second : characterCount "Substring" n = length) :
    substring (.text t) [.int i, .int n] = (do
      let start ← start
      let length ← length
      if t.toList.length < start + length then
        throw ("Substring(" ++ toString start ++ ", " ++ toString length ++
          ") is out of range for a string of length " ++ toString t.toList.length)
      else return .text (part t start length)) := by
  subst first second
  rfl

/-- **A part that lies inside is answered.** -/
theorem substring_of_inside (inside : Inside t i n) :
    substring (.text t) [.int i, .int n] = .ok (.text (part t i.toInt.toNat n.toInt.toNat)) := by
  obtain ⟨first, second, fits⟩ := inside
  rw [substring_eq (characterCount_eq_ok_iff.2 (Int.toNat_of_nonneg first).symm)
    (characterCount_eq_ok_iff.2 (Int.toNat_of_nonneg second).symm)]
  refine if_neg ?_
  rw [String.length_toList]
  omega

/-- **A part that does not is refused.** -/
theorem exists_substring_eq_error (outside : ¬Inside t i n) :
    ∃ message, substring (.text t) [.int i, .int n] = .error message := by
  rcases lt_or_ge i.toInt 0 with negative | first
  · obtain ⟨message, refused⟩ := exists_characterCount_eq_error "Substring" negative
    exact ⟨message, substring_eq refused rfl⟩
  rw [substring_eq (characterCount_eq_ok_iff.2 (Int.toNat_of_nonneg first).symm) rfl]
  rcases lt_or_ge n.toInt 0 with negative | second
  · obtain ⟨message, refused⟩ := exists_characterCount_eq_error "Substring" negative
    rw [refused]
    exact ⟨message, rfl⟩
  rw [characterCount_eq_ok_iff.2 (Int.toNat_of_nonneg second).symm]
  refine ⟨_, if_pos ?_⟩
  have long : ¬i.toInt + n.toInt ≤ t.length := fun fits => outside ⟨first, second, fits⟩
  rw [String.length_toList]
  omega

theorem indexOf_eq : indexOf (.text t) [.text p] =
    .ok (match Text.indexOf? p.toList t.toList with
      | some k => lengthValue k
      | none => .int (-1)) := rfl

end Library

/-! ## What operations on texts answer -/

namespace Store

variable {s : Store} {registry : Registry} {rt : RuntimeId} {module : NamespaceId} {t p : String}
  {i n : Int64} {written : String} {args : List Value} {x : Except String Value}

/-- An index where there is a character answers the part of this one. -/
theorem textGet_of_inside (first : 0 ≤ i.toInt) (within : i.toInt < t.length) :
    textGet t i = .ofExcept (.ok (.text (Text.part t i.toInt.toNat 1))) := by
  obtain ⟨k, same⟩ := Int.eq_ofNat_of_zero_le first
  have inside : k < t.toList.length := by
    rw [String.length_toList]
    omega
  have there : t.toList[k]? = some t.toList[k] := List.getElem?_eq_getElem inside
  unfold textGet
  dsimp only
  rw [Int.mem_toNat?.2 same, Option.bind_some, there, same, Int.toNat_natCast, Text.part_one there]
  rfl

/-- An index where there is none fails. -/
theorem textGet_of_outside (outside : ¬(0 ≤ i.toInt ∧ i.toInt < t.length)) :
    textGet t i = .ofExcept (.error (.indexOutOfBounds i t.length)) := by
  have missing : (i.toInt.toNat?.bind fun k => t.toList[k]?) = none := by
    cases counted : i.toInt.toNat? with
    | none => rfl
    | some k =>
      have same := Int.mem_toNat?.1 counted
      refine List.getElem?_eq_none (Nat.le_of_not_lt fun within => outside ?_)
      rw [String.length_toList] at within
      omega
  unfold textGet
  dsimp only
  rw [missing, String.length_toList]
  rfl

theorem answers_getIndex {r : Except EvalError.Cause Value} (same : textGet t i = .ofExcept r) :
    s.Answers registry rt module .getIndex [.text t, .int i] r :=
  answers_of_chosen rfl (congrArg (·, s) same)

theorem replied_answer (s : Store) (x : Except String Value) :
    replied (s.onHeap (Library.answer x)) = (.ofExcept (x.mapError .host), s) := by
  cases x <;> rfl

variable (described : ((s.runtime rt).surface registry).Describes .text Library.textDraft)
include described

/-- A method of texts answers what it does. -/
theorem answers_textMethod {m : Method} (place : ℕ)
    (found : (Library.textDraft.methodFor? written false (samples args)).map Prod.snd = some place)
    (there : Library.textDraft.methods[place]? = some m)
    (runs : m.run (some (.text t)) (Params.coerce m.params args) = Library.answer x) :
    s.Answers registry rt module (.invokeMember written args.length) (.text t :: args)
      (x.mapError .host) := by
  obtain ⟨info, rest, sources, registered⟩ := described.sources t
  refine answers_call nofun sources registered found there ?_
  have effect : m.run (receiverOf .target (.text t :: args)) (Params.coerce m.params args) =
      Library.answer x := runs
  rw [effect, replied_answer]

theorem answers_length : s.Answers registry rt module (.getMember "Length") [.text t]
    (.ok (Library.lengthValue t.length)) := by
  obtain ⟨info, rest, sources, registered⟩ := described.sources t
  exact answers_read (d := Library.textDraft) nofun sources registered rfl rfl rfl

theorem answers_substring : s.Answers registry rt module (.invokeMember "Substring" 2)
    [.text t, .int i, .int n] ((Library.substring (.text t) [.int i, .int n]).mapError .host) := by
  have found : (Library.textDraft.methodFor? "Substring" false (samples [.int 0, .int 0])).map Prod.snd =
      some 7 := by decide +kernel
  exact answers_textMethod described 7 found rfl rfl

theorem answers_indexOf : s.Answers registry rt module (.invokeMember "IndexOf" 1)
    [.text t, .text p] ((Library.indexOf (.text t) [.text p]).mapError .host) := by
  have found : (Library.textDraft.methodFor? "IndexOf" false (samples [.text ""])).map Prod.snd =
      some 6 := by decide +kernel
  exact answers_textMethod described 6 found rfl rfl

theorem answers_contains : s.Answers registry rt module (.invokeMember "Contains" 1)
    [.text t, .text p] (.ok (.bool (Text.occurs p.toList t.toList))) := by
  have found : (Library.textDraft.methodFor? "Contains" false (samples [.text ""])).map Prod.snd =
      some 3 := by decide +kernel
  exact answers_textMethod (x := .ok (.bool (Text.occurs p.toList t.toList))) described 3 found rfl rfl

/-- A part is answered just if it lies inside. -/
theorem answers_part_iff {v : Value} :
    s.Answers registry rt module (.invokeMember "Substring" 2) [.text t, .int i, .int n] (.ok v) ↔
      Text.Inside t i n ∧ v = .text (Text.part t i.toInt.toNat n.toInt.toNat) := by
  have answered : s.Answers registry rt module (.invokeMember "Substring" 2) [.text t, .int i, .int n]
      ((Library.substring (.text t) [.int i, .int n]).mapError .host) := answers_substring described
  constructor
  · intro given
    have same := answered.unique given
    by_cases inside : Text.Inside t i n
    · rw [Library.substring_of_inside inside] at same
      exact ⟨inside, (Except.ok.inj same).symm⟩
    · obtain ⟨message, refused⟩ := Library.exists_substring_eq_error inside
      rw [refused] at same
      cases same
  · rintro ⟨inside, rfl⟩
    rw [Library.substring_of_inside inside] at answered
    exact answered

end Store

/-- Texts are equal just if `==` says so. -/
theorem BinaryOp.onText_eq_iff {a b : String} : eq.onText a b = .ok (.bool true) ↔ a = b := by
  unfold onText compareAs
  show Except.ok (Value.bool (compare a b).isEq) = _ ↔ _
  rw [Except.ok.injEq, Value.bool.injEq, Ordering.isEq_iff_eq_eq, Std.compare_eq_iff_eq]

theorem Store.answers_equal {s : Store} {registry : Registry} {rt : RuntimeId} {module : NamespaceId}
    (t : String) : s.Answers registry rt module (.binary .eq) [.text t, .text t] (.ok (.bool true)) := by
  rw [← BinaryOp.onText_eq_iff.2 (rfl : t = t)]
  exact answers_binary .eq (.text t) (.text t)

/-- **The places of a text in another one**, as scripts see them: the part of its length there equals it. -/
def Occurrences (answers : Answering) (t p : String) : Set ℤ :=
  {j | ∃ (k : Int64) (length part : Value), k.toInt = j ∧
    answers (.getMember "Length") [.text p] (.ok length) ∧
    answers (.invokeMember "Substring" 2) [.text t, .int k, length] (.ok part) ∧
    answers (.binary .eq) [part, .text p] (.ok (.bool true))}

section

variable {s : Store} {registry : Registry} {rt : RuntimeId} {module : NamespaceId} {t p : String}
  (described : ((s.runtime rt).surface registry).Describes .text Library.textDraft)
  (short : t.length < 2 ^ 63)
include described short

variable (module) in
/-- The parts before and after a place are answered, where the length of the text is counted. -/
theorem answers_joined {k : ℕ} {i : Int64} (place : i.toInt = k) (within : k ≤ t.length) :
    s.Answers registry rt module (.invokeMember "Substring" 2) [.text t, .int 0, .int i]
        (.ok (.text (Text.part t 0 k))) ∧
      s.Answers registry rt module (.invokeMember "Substring" 2)
        [.text t, .int i, .int (Int64.ofNat t.length - i)] (.ok (.text (Text.part t k (t.length - k)))) := by
  have length : (Int64.ofNat t.length).toInt = t.length := Int64.toInt_ofNat_of_lt short
  have rest : (Int64.ofNat t.length - i).toInt = (t.length - k : ℕ) := by
    rw [Int64.toInt_sub, length, Int.bmod_eq_of_le (by omega) (by omega)]
    omega
  constructor
  · refine (Store.answers_part_iff described).2 ⟨⟨by decide, ?_, ?_⟩, by rw [place]; rfl⟩
    · omega
    · rw [Int64.toInt_zero]
      omega
  · refine (Store.answers_part_iff described).2 ⟨⟨?_, ?_, ?_⟩, by rw [place, rest]; rfl⟩
    · omega
    · omega
    · omega

variable (shorter : p.length < 2 ^ 63)
include shorter

/-- **A text is found where it begins the rest** of the other one. -/
theorem mem_occurrences {j : ℤ} :
    j ∈ Occurrences (s.Answers registry rt module) t p ↔
      ∃ k : ℕ, (k : ℤ) = j ∧ k ≤ t.length ∧ p.toList <+: t.toList.drop k := by
  have length : (Int64.ofNat p.length).toInt = p.length := Int64.toInt_ofNat_of_lt shorter
  constructor
  · rintro ⟨k, n, part, rfl, counted, taken, equal⟩
    obtain rfl := Except.ok.inj (counted.unique (Store.answers_length described))
    obtain ⟨⟨first, -, fits⟩, rfl⟩ := (Store.answers_part_iff described).1 taken
    have same := BinaryOp.onText_eq_iff.1 ((Store.answers_binary .eq _ _).unique equal)
    rw [length, Int.toNat_natCast, Text.part_eq_iff] at same
    exact ⟨k.toInt.toNat, Int.toNat_of_nonneg first, by omega, same⟩
  · rintro ⟨k, rfl, inside, begins⟩
    have place : (Int64.ofNat k).toInt = k := Int64.toInt_ofNat_of_lt (by omega)
    have fits : p.length ≤ t.length - k := by
      have := begins.length_le
      rwa [List.length_drop, String.length_toList, String.length_toList] at this
    have taken : s.Answers registry rt module (.invokeMember "Substring" 2)
        [.text t, .int (Int64.ofNat k), .int (Int64.ofNat p.length)] (.ok (.text p)) := by
      refine (Store.answers_part_iff described).2 ⟨⟨?_, ?_, ?_⟩, ?_⟩
      · omega
      · omega
      · omega
      · rw [place, length, Int.toNat_natCast, Int.toNat_natCast, Text.part_eq_iff.2 begins]
    exact ⟨Int64.ofNat k, _, _, place, Store.answers_length described, taken, Store.answers_equal p⟩

/-- **The search finds the least place.** -/
theorem isLeast_occurrences {k : ℕ} (found : Text.indexOf? p.toList t.toList = some k) :
    IsLeast (Occurrences (s.Answers registry rt module) t p) k := by
  obtain ⟨inside, begins, least⟩ := Text.indexOf?_eq_some_iff.1 found
  rw [String.length_toList] at inside
  refine ⟨(mem_occurrences described short shorter).2 ⟨k, rfl, inside, begins⟩, fun j mem => ?_⟩
  obtain ⟨other, rfl, -, also⟩ := (mem_occurrences described short shorter).1 mem
  exact Int.ofNat_le.2 (Nat.le_of_not_lt fun less => least other less also)

/-- It misses none. -/
theorem occurrences_eq_empty (none : Text.indexOf? p.toList t.toList = none) :
    Occurrences (s.Answers registry rt module) t p = ∅ := by
  refine Set.eq_empty_iff_forall_notMem.2 fun j mem => ?_
  obtain ⟨k, -, inside, begins⟩ := (mem_occurrences described short shorter).1 mem
  exact Text.indexOf?_eq_none_iff.1 none k (by rwa [String.length_toList]) begins

end

/-- **Texts whose characters are counted in one way**, as scripts see a text and another one. -/
structure CountsCharacters (answers : Answering) (t p : String) : Prop where
  /-- A part is answered just if it lies inside: the characters there. -/
  part (i n : Int64) (v : Value) :
    answers (.invokeMember "Substring" 2) [.text t, .int i, .int n] (.ok v) ↔
      Text.Inside t i n ∧ v = .text (Text.part t i.toInt.toNat n.toInt.toNat)
  /-- It is refused otherwise. -/
  refused (i n : Int64) : ¬Text.Inside t i n → ∃ message,
    answers (.invokeMember "Substring" 2) [.text t, .int i, .int n] (.error (.host message))
  /-- An index answers the part of one character. -/
  indexed (i : Int64) : 0 ≤ i.toInt → i.toInt < t.length → ∃ v,
    answers .getIndex [.text t, .int i] (.ok v) ∧
      answers (.invokeMember "Substring" 2) [.text t, .int i, .int 1] (.ok v)
  /-- It fails where there is no character. -/
  unindexed (i : Int64) : ¬(0 ≤ i.toInt ∧ i.toInt < t.length) →
    answers .getIndex [.text t, .int i] (.error (.indexOutOfBounds i t.length))
  length : t.length < 2 ^ 63 → ∃ n : Int64,
    answers (.getMember "Length") [.text t] (.ok (.int n)) ∧ n.toInt = t.length
  /-- `s.Substring(0, i) + s.Substring(i, s.Length - i) == s` -/
  joined : t.length < 2 ^ 63 → ∀ i : Int64, 0 ≤ i.toInt → i.toInt ≤ t.length →
    ∃ front length rest back whole : Value,
      answers (.invokeMember "Substring" 2) [.text t, .int 0, .int i] (.ok front) ∧
      answers (.getMember "Length") [.text t] (.ok length) ∧
      answers (.binary .sub) [length, .int i] (.ok rest) ∧
      answers (.invokeMember "Substring" 2) [.text t, .int i, rest] (.ok back) ∧
      answers (.binary .add) [front, back] (.ok whole) ∧
      answers (.binary .eq) [whole, .text t] (.ok (.bool true))
  /-- The place that is found for the other text is the least one, and minus one if there is none. -/
  found : t.length < 2 ^ 63 → p.length < 2 ^ 63 → ∃ (k : Int64) (contained : Bool),
    answers (.invokeMember "IndexOf" 1) [.text t, .text p] (.ok (.int k)) ∧
    answers (.invokeMember "Contains" 1) [.text t, .text p] (.ok (.bool contained)) ∧
    (k = -1 ↔ contained = false) ∧
    (contained = true → IsLeast (Occurrences answers t p) k.toInt) ∧
    (contained = false → Occurrences answers t p = ∅)

/-- **The members of texts share one index.**  In every store of a runtime whose texts have the members of
the library first, whatever has been decided there, the parts of a text, its characters and the places of
other texts in it agree on what is at which place; the length and the places that are found are integers of
sixty-four bits, so they are right for all texts of less than `2 ^ 63` characters. -/
theorem texts_share_one_index (s : Store) (registry : Registry) (rt : RuntimeId) (module : NamespaceId)
    (described : ((s.runtime rt).surface registry).Describes .text Library.textDraft) (t p : String) :
    CountsCharacters (s.Answers registry rt module) t p := by
  constructor
  case part => exact fun i n v => Store.answers_part_iff described
  case refused =>
    intro i n outside
    obtain ⟨message, refused⟩ := Library.exists_substring_eq_error outside
    have answered : s.Answers registry rt module (.invokeMember "Substring" 2) [.text t, .int i, .int n]
      ((Library.substring (.text t) [.int i, .int n]).mapError .host) := Store.answers_substring described
    rw [refused] at answered
    exact ⟨message, answered⟩
  case indexed =>
    intro i first within
    refine ⟨_, Store.answers_getIndex (Store.textGet_of_inside first within), ?_⟩
    exact (Store.answers_part_iff described).2 ⟨⟨first, by decide, Int.add_one_le_of_lt within⟩, rfl⟩
  case unindexed => exact fun i outside => Store.answers_getIndex (Store.textGet_of_outside outside)
  case length =>
    exact fun short => ⟨_, Store.answers_length described, Int64.toInt_ofNat_of_lt short⟩
  case joined =>
    intro short i first within
    obtain ⟨k, place⟩ := Int.eq_ofNat_of_zero_le first
    obtain ⟨front, back⟩ := answers_joined module described short place (by omega)
    refine ⟨_, _, _, _, _, front, Store.answers_length described, Store.answers_binary .sub _ _, back,
      Store.answers_binary .add _ _, ?_⟩
    rw [Text.part_append_part]
    exact Store.answers_equal t
  case found =>
    intro short shorter
    have found : s.Answers registry rt module (.invokeMember "IndexOf" 1) [.text t, .text p] _ :=
      Store.answers_indexOf described
    have contains : s.Answers registry rt module (.invokeMember "Contains" 1) [.text t, .text p] _ :=
      Store.answers_contains described
    unfold Text.occurs at contains
    rw [Library.indexOf_eq] at found
    cases searched : Text.indexOf? p.toList t.toList with
    | none =>
      rw [searched] at found contains
      exact ⟨-1, false, found, contains, by decide, nofun,
        fun _ => occurrences_eq_empty described short shorter searched⟩
    | some k =>
      rw [searched] at found contains
      have inside := (Text.indexOf?_eq_some_iff.1 searched).1
      rw [String.length_toList] at inside
      have place : (Int64.ofNat k).toInt = k := Int64.toInt_ofNat_of_lt (by omega)
      refine ⟨Int64.ofNat k, true, found, contains, iff_of_false (fun negative => ?_) nofun, fun _ => ?_,
        nofun⟩
      · have below : (-1 : Int64).toInt = -1 := rfl
        rw [negative, below] at place
        omega
      · rw [place]
        exact isLeast_occurrences described short shorter searched

/-- What the default host offers. -/
theorem surface_defaultHost (files : Files) :
    ((defaultHost files).2.1.runtime (defaultHost files).2.2).surface (defaultHost files).1.registry =
      ⟨(Registry.initial.registerAll Library.drafts).2,
        boundTypes [(Registry.initial.registerAll Library.drafts).1], []⟩ := by
  unfold defaultHost
  obtain ⟨types, registry⟩ := Registry.initial.registerAll Library.drafts
  dsimp only
  cases built : Store.empty.buildRuntime registry [types] [] defaultExtension with
  | mk rt s =>
    have course : Course (fun _ _ _ => True) (.idle s) [] (.idle s) := .start
    exact surface_of_built built course registry

/-- The texts of the default host have the members of the library. -/
theorem describes_defaultHost (files : Files) :
    (((defaultHost files).2.1.runtime (defaultHost files).2.2).surface
      (defaultHost files).1.registry).Describes .text Library.textDraft := by
  rw [surface_defaultHost]
  exact ⟨_, _, rfl, rfl⟩

/-- A text of characters of one to four bytes: its last character, in both ways, and no character after. -/
theorem texts_share_one_index_default :
    let host := defaultHost .empty
    ((host.2.1.runtime host.2.2).surface host.1.registry).Describes .text Library.textDraft ∧
      host.2.1.Answers host.1.registry host.2.2 ⟨0⟩ (.invokeMember "Substring" 2)
        [.text "aä€𝄞", .int 3, .int 1] (.ok (.text "𝄞")) ∧
      host.2.1.Answers host.1.registry host.2.2 ⟨0⟩ .getIndex [.text "aä€𝄞", .int 4]
        (.error (.indexOutOfBounds 4 4)) := by
  intro host
  have described := describes_defaultHost .empty
  have counts := texts_share_one_index host.2.1 host.1.registry host.2.2 ⟨0⟩ described "aä€𝄞" "€𝄞"
  have last : Text.Inside "aä€𝄞" 3 1 ∧ "𝄞" = Text.part "aä€𝄞" 3 1 := by
    constructor
    · refine ⟨?_, ?_, ?_⟩ <;> decide +kernel
    · decide +kernel
  refine ⟨described, (counts.part 3 1 _).2 ⟨last.1, congrArg Value.text last.2⟩, ?_⟩
  exact counts.unindexed 4 (by decide +kernel)

end HostScript
