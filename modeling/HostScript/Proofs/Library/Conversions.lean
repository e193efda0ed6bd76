import HostScript.Proofs.Library.Texts
import Mathlib.Data.List.Forall2
import Mathlib.Data.List.TakeWhile
import Mathlib.Data.Nat.Digits.Defs

/-!
# Proofs/Library/Conversions — conversions undo display

A text is read as an integer just if it is a numeral between blanks: an optional sign before decimal digits
(`Spells`), whose value by position is an integer of sixty-four bits (`toInt?_text_eq_some_iff`).  What an
integer is displayed as is such a numeral, so conversions give back what has been displayed, also at the two
ends of the range and between blanks (`conversions_undo_display`).
-/

namespace HostScript

/-! ## Texts between blanks -/

namespace Text

/-- **A text between blanks**, of any kind and number. -/
def Padded (core : List Char) (t : String) : Prop :=
  ∃ before after, t.toList = before ++ core ++ after ∧ (∀ c ∈ before, isBlank c = true) ∧
    ∀ c ∈ after, isBlank c = true

/-- A text in which each letter is of some case. -/
def Recased (t other : String) : Prop :=
  List.Forall₂ (fun c d => d = c ∨ d = c.toUpper ∨ d = c.toLower) t.toList other.toList

variable {core : List Char} {t : String}

/-- Without the blanks at its ends a text is between blanks. -/
theorem padded_trim (t : String) : Padded (trim t).toList t := by
  let rest := t.toList.dropWhile isBlank
  refine ⟨t.toList.takeWhile isBlank, (rest.reverse.takeWhile isBlank).reverse, ?_,
    fun c mem => List.mem_takeWhile_imp mem,
    fun c mem => List.mem_takeWhile_imp (List.mem_reverse.1 mem)⟩
  unfold trim
  rw [String.toList_ofList, List.append_assoc, ← List.reverse_append, List.takeWhile_append_dropWhile,
    List.reverse_reverse, List.takeWhile_append_dropWhile]

/-- **What is between blanks is left**, if it has no blanks itself. -/
theorem trim_of_padded (solid : ∀ c ∈ core, isBlank c = false) (padded : Padded core t) :
    (trim t).toList = core := by
  obtain ⟨before, after, spelled, first, last⟩ := padded
  have kept (cs : List Char) (all : ∀ c ∈ cs, isBlank c = false) (ends : cs ≠ []) (rest : List Char) :
      (cs ++ rest).dropWhile isBlank = cs ++ rest := by
    obtain ⟨c, cs, rfl⟩ := List.exists_cons_of_ne_nil ends
    exact List.dropWhile_cons_of_neg (by rw [all c List.mem_cons_self]; exact Bool.false_ne_true)
  unfold trim
  rw [String.toList_ofList, spelled, List.append_assoc, List.dropWhile_append_of_pos first]
  rcases eq_or_ne core [] with rfl | filled
  · rw [List.nil_append, List.dropWhile_eq_nil_iff.2 last]
    rfl
  · rw [kept core solid filled, List.reverse_append,
      List.dropWhile_append_of_pos fun c mem => last c (List.mem_reverse.1 mem)]
    have reversed := kept core.reverse (fun c mem => solid c (List.mem_reverse.1 mem))
      (List.reverse_ne_nil_iff.2 filled) []
    rw [List.append_nil] at reversed
    rw [reversed, List.reverse_reverse]

theorem isBlank_eq_false_of_isDigit {c : Char} (digit : isDigit c = true) : isBlank c = false := by
  unfold isDigit at digit
  rw [Bool.and_eq_true, decide_eq_true_eq, decide_eq_true_eq, Char.le_def, Char.le_def,
    UInt32.le_iff_toNat_le, UInt32.le_iff_toNat_le] at digit
  have low : '0'.val.toNat = 48 := rfl
  have high : '9'.val.toNat = 57 := rfl
  have same : c.toNat = c.val.toNat := rfl
  unfold isBlank
  simp only [same]
  grind

end Text

/-! ## Numerals -/

namespace Numeral

/-- At least one decimal digit. -/
def AreDigits (cs : List Char) : Prop := cs ≠ [] ∧ ∀ c ∈ cs, Text.isDigit c = true

/-- The value of digits by their positions. -/
def placeValue (cs : List Char) : ℕ := Nat.ofDigits 10 (cs.reverse.map fun c => c.toNat - '0'.toNat)

/-- **A numeral of an integer**: an optional sign and digits. -/
inductive Spells : List Char → ℤ → Prop where
  | bare {digits : List Char} : AreDigits digits → Spells digits (placeValue digits)
  | plus {digits : List Char} : AreDigits digits → Spells ('+' :: digits) (placeValue digits)
  | minus {digits : List Char} : AreDigits digits → Spells ('-' :: digits) (-placeValue digits)

variable {cs : List Char} {i : ℤ} {n : Int64}

theorem ofDigitChars_eq_placeValue (cs : List Char) : Nat.ofDigitChars 10 cs 0 = placeValue cs := by
  unfold Nat.ofDigitChars placeValue
  rw [Nat.ofDigits_eq_foldr, List.foldr_map, List.foldr_reverse]
  refine congrArg (fun f => cs.foldl f 0) (funext fun k => funext fun c => ?_)
  exact Nat.add_comm _ _

theorem natural?_eq_some_iff {k : ℕ} : natural? cs = some k ↔ AreDigits cs ∧ placeValue cs = k := by
  unfold natural? AreDigits
  rw [ofDigitChars_eq_placeValue]
  simp only [Option.ite_none_right_eq_some, Bool.and_eq_true, Bool.not_eq_true', List.isEmpty_eq_false_iff,
    List.all_eq_true, Option.some.injEq]

/-- Digits begin with no sign. -/
theorem AreDigits.ne_sign {c : Char} {rest : List Char} (digits : AreDigits (c :: rest)) :
    c ≠ '-' ∧ c ≠ '+' := by
  have digit := digits.2 c List.mem_cons_self
  constructor <;>
  · rintro rfl
    exact absurd digit (by decide)

/-- **What is read as an integer** is a numeral. -/
theorem integer?_eq_some_iff : integer? cs = some i ↔ Spells cs i := by
  have counted {f : ℤ → ℤ} {digits : List Char}
      (read : Option.map f (do let k ← natural? digits; pure (k : ℤ)) = some i) :
      AreDigits digits ∧ f (placeValue digits) = i := by
    cases natural : natural? digits with
    | none =>
      rw [natural] at read
      cases read
    | some k =>
      rw [natural] at read
      obtain ⟨are, rfl⟩ := natural?_eq_some_iff.1 natural
      exact ⟨are, Option.some.inj read⟩
  constructor
  · intro read
    unfold integer? at read
    split at read
    · obtain ⟨digits, rfl⟩ := counted read
      exact .minus digits
    · obtain ⟨digits, rfl⟩ := counted read
      exact .plus digits
    · obtain ⟨digits, rfl⟩ := counted read
      exact .bare digits
  · rintro (digits | digits | digits)
    · rw [integer?]
      · rw [natural?_eq_some_iff.2 ⟨digits, rfl⟩]
        rfl
      · rintro rest rfl
        exact absurd rfl digits.ne_sign.1
      · rintro rest rfl
        exact absurd rfl digits.ne_sign.2
    · rw [integer?, natural?_eq_some_iff.2 ⟨digits, rfl⟩]
      rfl
    · rw [integer?, natural?_eq_some_iff.2 ⟨digits, rfl⟩]
      rfl

/-- An integer is one of sixty-four bits if it is the value of one. -/
theorem word?_eq_some_iff : word? i = some n ↔ n.toInt = i := by
  have least : Int64.minValue.toInt = -2 ^ 63 := rfl
  have most : Int64.maxValue.toInt = 2 ^ 63 - 1 := rfl
  unfold word?
  rw [Option.ite_none_right_eq_some, Option.some.injEq, least, most]
  constructor
  · rintro ⟨⟨low, high⟩, rfl⟩
    exact Int64.toInt_ofInt_of_le low (by omega)
  · rintro rfl
    have low := n.le_toInt
    have high := n.toInt_lt
    exact ⟨⟨low, by omega⟩, Int64.ofInt_toInt n⟩

/-- **What is read as an integer of sixty-four bits** is a numeral of one. -/
theorem readWord?_eq_some_iff : readWord? cs = some n ↔ Spells cs n.toInt := by
  unfold readWord?
  rw [Option.bind_eq_bind, Option.bind_eq_some_iff]
  constructor
  · rintro ⟨i, read, fits⟩
    rw [word?_eq_some_iff.1 fits]
    exact integer?_eq_some_iff.1 read
  · exact fun spelled => ⟨n.toInt, integer?_eq_some_iff.2 spelled, word?_eq_some_iff.2 rfl⟩

/-- Numerals have no blanks. -/
theorem Spells.solid (spelled : Spells cs i) : ∀ c ∈ cs, Text.isBlank c = false := by
  have plain {digits : List Char} (are : AreDigits digits) : ∀ c ∈ digits, Text.isBlank c = false :=
    fun c mem => Text.isBlank_eq_false_of_isDigit (are.2 c mem)
  cases spelled with
  | bare digits => exact plain digits
  | plus digits => exact List.forall_mem_cons.2 ⟨by decide, plain digits⟩
  | minus digits => exact List.forall_mem_cons.2 ⟨by decide, plain digits⟩

end Numeral

/-! ## Conversions -/

namespace Library

variable {core : List Char} {t other : String} {n : Int64} {b : Bool}

/-- **A text is read as an integer** just if a numeral of it stands there between blanks. -/
theorem toInt?_text_eq_some_iff :
    toInt? (.text t) = some n ↔ ∃ core, Text.Padded core t ∧ Numeral.Spells core n.toInt := by
  show Numeral.readWord? (Text.trim t).toList = some n ↔ _
  rw [Numeral.readWord?_eq_some_iff]
  constructor
  · exact fun spelled => ⟨_, Text.padded_trim t, spelled⟩
  · rintro ⟨core, padded, spelled⟩
    rwa [Text.trim_of_padded spelled.solid padded]

/-- What a truth value is displayed as, in any letter case, is a word without blanks that is known by its
small letters. -/
theorem fold_of_recased (recased : Text.Recased (Value.truthText b) other) :
    Text.fold other = Value.truthText b ∧ ∀ d ∈ other.toList, Text.isBlank d = false := by
  have letters : ∀ c ∈ (Value.truthText b).toList, (c.toLower = c ∧ Text.isBlank c = false) ∧
      c.toUpper.toLower = c ∧ Text.isBlank c.toUpper = false := by
    cases b <;> exact List.forall_iff_forall_mem.1 (by decide +kernel)
  have each : List.Forall₂ (fun c d => Text.isBlank d = false ∧ c = d.toLower)
      (Value.truthText b).toList other.toList := by
    refine ((List.forall₂_and_left _ _).2 ⟨letters, recased⟩).imp ?_
    rintro c d ⟨⟨⟨low, solid⟩, upper⟩, rfl | rfl | rfl⟩
    · exact ⟨solid, low.symm⟩
    · exact ⟨upper.2, upper.1.symm⟩
    · rw [low]
      exact ⟨solid, low.symm⟩
  have same : List.Forall₂ (· = ·) (Value.truthText b).toList (other.toList.map Char.toLower) :=
    List.forall₂_map_right_iff.2 (each.imp fun _ _ both => both.2)
  rw [List.forall₂_eq_eq_eq] at same
  exact ⟨String.toList_inj.1 (String.toList_map.trans same.symm),
    ((List.forall₂_and_left _ _).1 each.flip).1⟩

/-- **What a truth value is displayed as is read as it**, in any letter case and between blanks. -/
theorem toBool?_text (recased : Text.Recased (Value.truthText b) other)
    (padded : Text.Padded other.toList t) : toBool? (.text t) = some b := by
  obtain ⟨word, solid⟩ := fold_of_recased recased
  show (if Text.fold (Text.trim t) = "true" then some true
    else if Text.fold (Text.trim t) = "false" then some false else none) = some b
  rw [String.toList_inj.1 (Text.trim_of_padded solid padded), word]
  cases b <;> rfl

/-- **What an integer is displayed as is read as it**, between blanks. -/
theorem toInt?_displayed (padded : Text.Padded (Numeral.wordText n).toList t) :
    toInt? (.text t) = some n :=
  toInt?_text_eq_some_iff.2 ⟨_, padded, Numeral.readWord?_eq_some_iff.1 (Numeral.readWord?_wordText n)⟩

/-- What a method that converts its argument comes to. -/
theorem conversion_run {α : Type} (name target : String) (convert? : Value → Option α) (make : α → Value)
    (v : Value) (h : Heap) :
    (conversion name target convert? make).run none [v] h =
      (.ofExcept ((convert? v).elim (.error (unconvertible h v target)) fun result =>
        .ok (make result)), h) := by
  have taken : argument name [v] 0 = .ok v := rfl
  dsimp only [conversion, Method.static]
  rw [taken]
  dsimp only [Bind.bind, Except.bind]
  cases convert? v <;> rfl

end Library

theorem Heap.display_int (h : Heap) (n : Int64) : h.display (.int n) = Numeral.wordText n := by
  unfold display displayTo
  rfl

theorem Heap.display_bool (h : Heap) (b : Bool) : h.display (.bool b) = Value.truthText b := by
  unfold display displayTo
  rfl

namespace Store

variable {s : Store} {registry : Registry} {rt : RuntimeId} {module : NamespaceId} {info : TypeInfo}
  {v : Value} {t : String} (registered : registry.type info = Library.convertDraft.described info)
include registered

/-- A conversion answers what the value is converted to, or that it cannot be. -/
theorem answers_conversion {α : Type} {name written target : String} {convert? : Value → Option α}
    {make : α → Value} (place : ℕ)
    (found : (Library.convertDraft.methodFor? written true (samples [v])).map Prod.snd = some place)
    (there : Library.convertDraft.methods[place]? = some (Library.conversion name target convert? make)) :
    s.Answers registry rt module (.invokeMember written 1) [.type info, v]
      ((convert? v).elim (.error (.host (Library.unconvertible s.toHeap v target))) fun result =>
        .ok (make result)) := by
  refine answers_call nofun rfl registered found there ?_
  have runs := Library.conversion_run name target convert? make v s.toHeap
  refine (congrArg (fun answer => replied (answer.1, { s with toHeap := answer.2 })) runs).trans ?_
  cases convert? v <;> rfl

/-- Reading an integer answers the integer that the text is read as, or that it is none. -/
theorem answers_toInt : s.Answers registry rt module (.invokeMember "ToInt32" 1) [.type info, .text t]
    ((Library.toInt? (.text t)).elim (.error (.host (Library.unconvertible s.toHeap (.text t) "int")))
      fun n => .ok (.int n)) := by
  have found : (Library.convertDraft.methodFor? "ToInt32" true (samples [.text ""])).map Prod.snd =
      some 0 := by decide +kernel
  exact answers_conversion (v := .text t) registered 0 found rfl

theorem answers_toBool : s.Answers registry rt module (.invokeMember "ToBoolean" 1) [.type info, .text t]
    ((Library.toBool? (.text t)).elim (.error (.host (Library.unconvertible s.toHeap (.text t) "bool")))
      fun b => .ok (.bool b)) := by
  have found : (Library.convertDraft.methodFor? "ToBoolean" true (samples [.text ""])).map Prod.snd =
      some 3 := by decide +kernel
  exact answers_conversion (v := .text t) registered 3 found rfl

/-- What a value is displayed as. -/
theorem answers_toText
    (found : (Library.convertDraft.methodFor? "ToString" true (samples [v])).map Prod.snd = some 2) :
    s.Answers registry rt module (.invokeMember "ToString" 1) [.type info, v]
      (.ok (.text (s.display v))) :=
  answers_call nofun rfl registered found rfl rfl

end Store

/-- **Conversions that undo display**, as scripts see them on the handle of a type. -/
structure UndoesDisplay (answers : Answering) (info : TypeInfo) : Prop where
  /-- The text of an integer, made by conversion or by joining it with the empty text on either side, is
  read as the integer, whatever blanks are around it. -/
  integers (n : Int64) : ∃ text : String,
    answers (.invokeMember "ToString" 1) [.type info, .int n] (.ok (.text text)) ∧
    answers (.binary .add) [.text "", .int n] (.ok (.text text)) ∧
    answers (.binary .add) [.int n, .text ""] (.ok (.text text)) ∧
    ∀ t, Text.Padded text.toList t →
      answers (.invokeMember "ToInt32" 1) [.type info, .text t] (.ok (.int n))
  /-- The text of a truth value is read as it, in any letter case and whatever blanks are around it. -/
  truths (b : Bool) : ∃ text : String,
    answers (.invokeMember "ToString" 1) [.type info, .bool b] (.ok (.text text)) ∧
    ∀ other t, Text.Recased text other → Text.Padded other.toList t →
      answers (.invokeMember "ToBoolean" 1) [.type info, .text t] (.ok (.bool b))
  /-- A text is read as an integer just if it is a numeral of it, between blanks. -/
  numerals (t : String) (v : Value) :
    answers (.invokeMember "ToInt32" 1) [.type info, .text t] (.ok v) ↔
      ∃ n : Int64, v = .int n ∧ ∃ core, Text.Padded core t ∧ Numeral.Spells core n.toInt
  /-- It is refused otherwise. -/
  refused (t : String) : (∀ (core : List Char) (n : Int64), Text.Padded core t →
    ¬Numeral.Spells core n.toInt) → ∃ message,
      answers (.invokeMember "ToInt32" 1) [.type info, .text t] (.error (.host message))

/-- **Conversions undo display.**  In every store, whatever has been decided there, the conversions that the
library describes give back each integer and each truth value from what it is displayed as; and a text is
read as an integer just if it is a numeral of an integer of sixty-four bits, up to blanks around it. -/
theorem conversions_undo_display (s : Store) (registry : Registry) (rt : RuntimeId)
    (module : NamespaceId) (info : TypeInfo)
    (registered : registry.type info = Library.convertDraft.described info) :
    UndoesDisplay (s.Answers registry rt module) info := by
  have reads (t : String) : s.Answers registry rt module (.invokeMember "ToInt32" 1)
      [.type info, .text t] _ := Store.answers_toInt registered
  constructor
  case integers =>
    intro n
    have found : (Library.convertDraft.methodFor? "ToString" true (samples [.int 0])).map Prod.snd =
        some 2 := by decide +kernel
    have shown : s.Answers registry rt module (.invokeMember "ToString" 1) [.type info, .int n] _ :=
      Store.answers_toText (v := .int n) registered found
    have before : s.Answers registry rt module (.binary .add) [.text "", .int n]
        (.ok (.text ("" ++ Numeral.wordText n))) := Store.answers_binary .add _ _
    have after : s.Answers registry rt module (.binary .add) [.int n, .text ""]
        (.ok (.text (Numeral.wordText n ++ ""))) := Store.answers_binary .add _ _
    rw [Heap.display_int] at shown
    rw [String.empty_append] at before
    rw [String.append_empty] at after
    refine ⟨_, shown, before, after, fun t padded => ?_⟩
    have read := reads t
    rw [Library.toInt?_displayed padded] at read
    exact read
  case truths =>
    intro b
    have found : (Library.convertDraft.methodFor? "ToString" true (samples [.bool false])).map Prod.snd =
        some 2 := by decide +kernel
    have shown : s.Answers registry rt module (.invokeMember "ToString" 1) [.type info, .bool b] _ :=
      Store.answers_toText (v := .bool b) registered found
    rw [Heap.display_bool] at shown
    refine ⟨_, shown, fun other t recased padded => ?_⟩
    have read : s.Answers registry rt module (.invokeMember "ToBoolean" 1) [.type info, .text t] _ :=
      Store.answers_toBool registered
    rw [Library.toBool?_text recased padded] at read
    exact read
  case numerals =>
    intro t v
    have read := reads t
    constructor
    · intro given
      have same := read.unique given
      cases found : Library.toInt? (.text t) with
      | none =>
        rw [found] at same
        cases same
      | some n =>
        rw [found] at same
        exact ⟨n, (Except.ok.inj same).symm, Library.toInt?_text_eq_some_iff.1 found⟩
    · rintro ⟨n, rfl, spelled⟩
      rw [Library.toInt?_text_eq_some_iff.2 spelled] at read
      exact read
  case refused =>
    intro t none
    have read := reads t
    cases found : Library.toInt? (.text t) with
    | none =>
      rw [found] at read
      exact ⟨_, read⟩
    | some n =>
      obtain ⟨core, padded, spelled⟩ := Library.toInt?_text_eq_some_iff.1 found
      exact absurd spelled (none core n padded)

/-- What the default host knows of its conversions. -/
def convertInfo : TypeInfo := ⟨⟨5⟩, "System.Convert", none, []⟩

/-- The smallest integer, between a blank that does not break and the end of a line; and its opposite, which
is none. -/
theorem conversions_undo_display_smallest :
    let host := defaultHost .empty
    host.1.registry.type convertInfo = Library.convertDraft.described convertInfo ∧
      host.2.1.Answers host.1.registry host.2.2 ⟨0⟩ (.invokeMember "ToInt32" 1)
        [.type convertInfo, .text "\u00a0-9223372036854775808\n"] (.ok (.int Int64.minValue)) ∧
      ∀ v, ¬host.2.1.Answers host.1.registry host.2.2 ⟨0⟩ (.invokeMember "ToInt32" 1)
        [.type convertInfo, .text "9223372036854775808"] (.ok v) := by
  intro host
  have described : host.1.registry.type convertInfo = Library.convertDraft.described convertInfo := by
    have same : host.1.registry = (Registry.initial.registerAll Library.drafts).2 :=
      congrArg Surface.registry (surface_defaultHost .empty)
    rw [same]
    rfl
  have undoes := conversions_undo_display host.2.1 host.1.registry host.2.2 ⟨0⟩ convertInfo described
  refine ⟨described, ?_, ?_⟩
  · refine (undoes.numerals _ _).2 ⟨_, rfl, "-9223372036854775808".toList, ?_, ?_⟩
    · exact ⟨['\u00a0'], ['\n'], by decide +kernel, List.forall_mem_singleton.2 (by decide +kernel),
        List.forall_mem_singleton.2 (by decide +kernel)⟩
    · refine Numeral.readWord?_eq_some_iff.1 ?_
      decide +kernel
  · intro v given
    obtain ⟨n, rfl, read⟩ := (undoes.numerals _ _).1 given
    have beyond : Library.toInt? (.text "9223372036854775808") = none := by decide +kernel
    cases beyond.symm.trans (Library.toInt?_text_eq_some_iff.2 read)

end HostScript
