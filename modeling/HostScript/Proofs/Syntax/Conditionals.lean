import HostScript.Proofs.Syntax.Nesting
import HostScript.Proofs.Syntax.RoundTrip

/-!
# Proofs/Syntax/Conditionals — which conditionals are closed by an `end`

The body of an arm that starts with `then` may be cut short by the next arm or by `else`.  The parser
remembers that of the last arm only.  So a conditional is closed by an `end` of its own when its last arm
is cut short, or is a `then` block itself with nothing after it; any other conditional ends with the
statement that comes last in it, whatever its earlier arms are (`end_owed_by_last_arm`).

The other way round, the readers are followed through the arms of a conditional one by one
(`ArmsRead`), each with a body of any form.
-/

namespace HostScript

open Text (byteLength)

/-! ## The last word of a conditional -/

/-- A conditional with its arms, as it is written between two cursors. -/
def Conditional (c : Cursor) (arms : List Arm) (otherwise : Option Node) (after : Cursor) : Prop :=
  ∃ c₁ c₂, c.Takes .ifWord c₁ ∧ Written c₁ (.arms arms) c₂ ∧
    Written c₂ (.otherwise (lastEnding arms) otherwise) after

/-- **A word closes a construct**, and nothing that is inside it but the block it ends. -/
def Token.ClosesOnly (word : Token) (node : Node) : Prop :=
  node.span.stop = word.span.stop ∧
    ∃ before span body, node.children = before ++ [.block span body] ∧
      span.stop = word.span.stop ∧
      ∀ inner ∈ before ++ body, ∀ part : Node, part.PartOf inner → part.span.stop ≤ word.span.start

/-- The parts of a tree lie inside it. -/
theorem Node.Nested.within {source : List Char} {part tree : Node} (h : tree.Nested source)
    (inside : part.PartOf tree) : part.span.stop ≤ tree.span.stop := by
  induction inside with
  | self => exact Nat.le_refl _
  | @child child tree mem inner ih =>
    have nested : child.Nested source := fun part inside => h part (.child mem inside)
    exact Nat.le_trans (ih nested) (h.placed.contains child mem).2

/-- **An `end` closes only the construct whose last block it ends**, when that block is written up to
it. -/
theorem closesOnly_of_block {source : List Char} {c c₁ d d₁ last after : Cursor} {node : Node}
    {before body : List Node} (opened : c.Ordered source) (first : c.Moves c₁)
    (way : c₁.Past d) (word : d.Moves d₁) (inner : Written d₁ (.statements body) last)
    (closing : last.Moves after) (span : node.span = after.spanFrom c.current.span)
    (made : node.children = before ++ [.block (after.spanFrom d.current.span) body])
    (lies : Lies source c₁ node.children after) : last.current.ClosesOnly node := by
  have opened₁ := (opened.past (first.past.trans way)).1
  have opened₂ := opened₁.moves word
  obtain ⟨opened₃, start, stop, -⟩ := opened₁.past (word.past.trans inner.advances)
  obtain ⟨-, -, whole, -⟩ := opened.past ((first.past.trans way).trans (word.past.trans inner.advances))
  have apart := opened₃.previous_le
  have stops : ∀ place : Cursor, place.current.span.stop ≤ last.current.span.stop →
      (after.spanFrom place.current.span).stop = last.current.span.stop := by
    intro place early
    rw [Cursor.spanFrom, closing.previous]
    exact Nat.max_eq_right early
  refine ⟨span ▸ stops c whole, before, _, body, made, stops d stop, fun node mem part inside => ?_⟩
  rw [made] at lies
  rcases List.mem_append.1 mem with early | late
  · have ordered := (List.pairwise_append.1 lies.ordered).2.2 node early _ (List.mem_singleton.2 rfl)
    have low : (after.spanFrom d.current.span).start ≤ d.current.span.start := Nat.min_le_left _ _
    have within := (lies.nested node (List.mem_append_left _ early)).within inside
    exact Nat.le_trans within (Nat.le_trans ordered (Nat.le_trans low start))
  · have inner := composes_lies.written inner opened₂
    have within := (inner.nested node late).within inside
    exact Nat.le_trans within (Nat.le_trans (inner.within node late).2 apart)

/-- The last of some arms, with where its body is written. -/
theorem Written.last_arm {c after : Cursor} {arms : List Arm} (h : Written c (.arms arms) after) :
    ∃ front arm d, arms = front ++ [arm] ∧ lastEnding arms = arm.ending ∧ c.Past d ∧
      Written d (.body arm.body arm.ending) after := by
  induction arms generalizing c with
  | nil => cases h
  | cons arm arms ih =>
    cases h with
    | lastArm test body _ => exact ⟨[], _, _, rfl, rfl, test.advances.past, body⟩
    | arm test body word more =>
      obtain ⟨front, last, d, rfl, same, past, written⟩ := ih more
      have way := (test.advances.past.trans body.advances.past).trans (word.past.trans past)
      exact ⟨_ :: front, last, d, rfl, (lastEnding_cons _ more).trans same, way, written⟩

/-- A statement that is a conditional is written as one. -/
theorem Written.conditional {c after : Cursor} {span : Span} {branches : List (Node × Node)}
    {otherwise : Option Node} (h : Written c (.statement (.choose span branches otherwise)) after) :
    ∃ arms, Conditional c arms otherwise after ∧ branches = arms.map Arm.branch ∧
      span = after.spanFrom c.current.span := by
  cases h with
  | choose word arms rest => exact ⟨_, ⟨_, _, word, arms, rest⟩, rfl, rfl⟩
  | thenBlock opens body =>
    cases body with
    | whole other => exact absurd opens other

/-- A conditional whose last part has a block that is written up to an `end`. -/
def EndsWithBlock (source : List Char) (c : Cursor) (node : Node) (after : Cursor) : Prop :=
  ∃ last, c.Past last ∧ last.Takes .endWord after ∧
    (c.Ordered source → last.current.ClosesOnly node)

/-- A conditional that ends with a statement, its last part. -/
def EndsWithStatement (c : Cursor) (node : Node) (after : Cursor) : Prop :=
  ∃ first body, c.Past first ∧ node.children.getLast? = some body ∧
    Written first (.statement body) after

namespace Conditional

variable {c after : Cursor} {arms : List Arm} {otherwise : Option Node}

/-- A conditional as it stands in the tree. -/
def node (c : Cursor) (arms : List Arm) (otherwise : Option Node) (after : Cursor) : Node :=
  .choose (after.spanFrom c.current.span) (arms.map Arm.branch) otherwise

theorem lies {source : List Char} {c c₁ c₂ after : Cursor} {last : ArmEnd} (opened : c.Ordered source)
    (word : c.Moves c₁) (first : Written c₁ (.arms arms) c₂)
    (rest : Written c₂ (.otherwise last otherwise) after) :
    Lies source c₁ (node c arms otherwise after).children after := by
  have start := opened.moves word
  have there := (start.past first.advances.past).1
  exact .append start first.advances.past (.refl _) rest.advances (composes_lies.written first start)
    (composes_lies.written rest there)

/-- **A conditional whose last arm is cut short runs up to an `end`**, that of what is done otherwise. -/
theorem endsWithBlock_of_cutShort (source : List Char) (h : Conditional c arms otherwise after)
    (cut : lastEnding arms = .cutShort) :
    EndsWithBlock source c (node c arms otherwise after) after := by
  obtain ⟨c₁, c₂, word, first, rest⟩ := h
  have whole := rest
  rw [cut] at rest
  cases rest with
  | noOtherwise other => exact absurd rfl other
  | otherwise other => exact absurd rfl other
  | owed elseWord body closing =>
    have way := first.advances.past
    have inner := elseWord.past.trans body.advances
    refine ⟨_, word.past.trans (way.trans inner), closing, fun opened => ?_⟩
    exact closesOnly_of_block opened word.toMoves way elseWord.toMoves body closing.toMoves rfl rfl
      (lies opened word.toMoves first whole)

/-- A conditional that ends with a `then` block which is not cut short runs up to the `end` of that. -/
theorem endsWithBlock_of_ended (source : List Char) (h : Conditional c arms none after)
    (ended : lastEnding arms = .ended) :
    EndsWithBlock source c (node c arms none after) after := by
  obtain ⟨c₁, c₂, word, first, rest⟩ := h
  obtain ⟨front, ⟨test, body, ending⟩, d, rfl, same, past, last⟩ := first.last_arm
  have whole := rest
  obtain rfl : ending = .ended := same.symm.trans ended
  rw [ended] at rest
  cases rest with
  | noOtherwise _ _ =>
    cases last with
    | @ended _ _ _ _ body thenWord inside closing =>
      have inner := thenWord.past.trans inside.advances
      refine ⟨_, word.past.trans (past.trans inner), closing, fun opened => ?_⟩
      have parts : (node c (front ++ [⟨test, .block (after.spanFrom d.current.span) body, .ended⟩]) none
          after).children =
          ((front.map Arm.branch).flatMap (fun branch => [branch.1, branch.2]) ++ [test]) ++
            [.block (after.spanFrom d.current.span) body] := by
        simp [node, Arm.branch]
      exact closesOnly_of_block opened word.toMoves past thenWord.toMoves inside closing.toMoves rfl parts
        (lies opened word.toMoves first whole)

/-- **Any other conditional ends with a statement**: what is done otherwise, or the body of the last
arm. -/
theorem endsWithStatement (h : Conditional c arms otherwise after) (cut : lastEnding arms ≠ .cutShort)
    (ended : lastEnding arms = .ended → otherwise ≠ none) :
    EndsWithStatement c (node c arms otherwise after) after := by
  obtain ⟨c₁, c₂, word, first, rest⟩ := h
  obtain ⟨front, ⟨test, body, ending⟩, d, rfl, same, past, last⟩ := first.last_arm
  generalize found : lastEnding _ = ending' at rest cut ended
  cases rest with
  | noOtherwise _ _ =>
    obtain rfl : ending' = ending := found.symm.trans same
    cases last with
    | ended => exact absurd rfl (ended rfl)
    | cutShort => exact absurd rfl cut
    | whole _ body =>
      refine ⟨d, _, word.past.trans past, ?_, body⟩
      simp [node, Arm.branch]
  | otherwise _ elseWord body =>
    refine ⟨_, _, word.past.trans (first.advances.past.trans elseWord.past), ?_, body⟩
    simp [node]
  | owed => exact absurd rfl cut

end Conditional

/-! ## Reading arms of any form -/

namespace Parser

variable {c c₁ c₂ c₃ c₄ after : Cursor}

/-- The words before which the statements of a `then` block end. -/
def closesThen : Kind → Bool
  | .endWord | .elseIfWord | .elseWord | .endOfInput => true
  | _ => false

/-- Statements that are read one after another. -/
inductive StatementsRead : Cursor → List Node → Cursor → Prop where
  | nil {c : Cursor} : StatementsRead c [] c
  | cons {c c₁ after : Cursor} {first : Node} {more : List Node} : closesThen c.kind = false →
    Yields (statement c) first c₁ → StatementsRead c₁ more after →
    StatementsRead c (first :: more) after

/-- **The body of an arm that is read**: a `then` block with what ends it, or a statement. -/
inductive BodyRead : Cursor → Node → ArmEnd → Cursor → Prop where
  | ended {c c₁ c₂ after : Cursor} {body : List Node} : c.Takes .thenWord c₁ →
    StatementsRead c₁ body c₂ → c₂.Takes .endWord after →
    BodyRead c (.block (after.spanFrom c.current.span) body) .ended after
  | cutShort {c c₁ after : Cursor} {body : List Node} : c.Takes .thenWord c₁ →
    StatementsRead c₁ body after → after.kind = .elseIfWord ∨ after.kind = .elseWord →
    BodyRead c (.block (after.spanFrom c.current.span) body) .cutShort after
  | whole {c after : Cursor} {body : Node} : c.kind ≠ .thenWord → Yields (statement c) body after →
    BodyRead c body .whole after

/-- **Arms that are read**, in any mix of forms. -/
inductive ArmsRead : Cursor → List Arm → Cursor → Prop where
  | last {c c₁ after : Cursor} {test body : Node} {ending : ArmEnd} :
    Yields (expression c) test c₁ → BodyRead c₁ body ending after → after.kind ≠ .elseIfWord →
    ArmsRead c [⟨test, body, ending⟩] after
  | more {c c₁ c₂ c₃ after : Cursor} {test body : Node} {ending : ArmEnd} {others : List Arm} :
    Yields (expression c) test c₁ → BodyRead c₁ body ending c₂ → c₂.Takes .elseIfWord c₃ →
    ArmsRead c₃ others after → ArmsRead c (⟨test, body, ending⟩ :: others) after

theorem yields_shift_of_moves (h : c.Moves c₁) : Yields (shift c h.held) c.current c₁ := by
  unfold shift
  split
  next token after step =>
    obtain ⟨same, rfl⟩ := Prod.mk.inj (step.symm.trans h.advance)
    obtain rfl := Except.ok.inj same
    exact .pure _
  next e after step =>
    rw [h.advance] at step
    cases step

theorem yields_require_of_takes {kind : Kind} {word : kind ≠ .endOfInput} (h : c.Takes kind c₁) :
    Yields (require c kind word) c.current c₁ := by
  unfold require
  rw [dif_pos h.kind]
  exact yields_shift_of_moves h.toMoves

/-- A word of one kind is not of another. -/
theorem kind_ne_of_closesThen {kind : Kind} (h : closesThen c.kind = false)
    (closes : closesThen kind = true) : c.kind ≠ kind := by
  intro same
  rw [same, closes] at h
  cases h

/-- The statements of a `then` block are read up to the word that ends it. -/
theorem yields_thenBody {body : List Node} {ending : BranchEnd} (h : StatementsRead c body c₁)
    (last : Yields (thenBody c₁) ([], ending) after) : Yields (thenBody c) (body, ending) after := by
  induction h with
  | nil => exact last
  | cons inside one _ ih =>
    have other {kind : Kind} (closes : closesThen kind = true) := kind_ne_of_closesThen inside closes
    have reading : ¬(_ : Cursor).atEnd = true := fun ends => other rfl (of_decide_eq_true ends)
    have uncut : ¬(_ = Kind.elseIfWord) ∧ ¬(_ = Kind.elseWord) := ⟨other rfl, other rfl⟩
    rw [thenBody, dif_neg (other rfl), if_neg (by simpa using uncut), if_neg reading]
    exact .bind one fun _ => .bind (ih last) fun _ => .pure _

theorem yields_thenBody_end (h : c.Takes .endWord c₁) : Yields (thenBody c) ([], .closed) c₁ := by
  rw [thenBody, dif_pos h.kind]
  exact .bind (yields_shift_of_moves h.toMoves) fun _ => .pure _

theorem yields_thenBody_cut (h : c.kind = .elseIfWord ∨ c.kind = .elseWord) :
    Yields (thenBody c) ([], .owing) c := by
  have other : c.kind ≠ .endWord := by rcases h with h | h <;> simp [h]
  rw [thenBody, dif_neg other, if_pos (by rcases h with h | h <;> simp [h])]
  exact .pure _

theorem yields_thenBlock {body : List Node} {ending : BranchEnd} (word : c.Takes .thenWord c₁)
    (inside : Yields (thenBody c₁) (body, ending) after) :
    Yields (thenBlock c) (.block (after.spanFrom c.current.span) body, ending) after := by
  rw [thenBlock]
  exact .bind (yields_require_of_takes word) fun _ => .bind inside fun _ => .pure _

theorem BodyRead.yields {body : Node} {ending : ArmEnd} (h : BodyRead c body ending after) :
    Yields (branchBody c) (body, ending.remembered) after := by
  rw [branchBody]
  cases h with
  | ended word inside closing =>
    rw [if_pos word.kind]
    exact yields_thenBlock word (yields_thenBody inside (yields_thenBody_end closing))
  | cutShort word inside cut =>
    rw [if_pos word.kind]
    exact yields_thenBlock word (yields_thenBody inside (yields_thenBody_cut cut))
  | whole other one =>
    rw [if_neg other]
    exact .bind one fun _ => .pure _

theorem ArmsRead.lastEnding_cons (arm : Arm) {others : List Arm} (h : ArmsRead c others after) :
    lastEnding (arm :: others) = lastEnding others := by
  cases h <;> rfl

/-- **Arms that are read one by one are read together**, with the end of the last one remembered. -/
theorem ArmsRead.yields {arms : List Arm} (h : ArmsRead c arms after) :
    Yields (branchList c) (arms.map Arm.branch, (lastEnding arms).remembered) after := by
  induction h with
  | last test body other =>
    rw [branchList]
    refine .bind test fun _ => .bind body.yields fun _ => ?_
    dsimp only
    rw [dif_neg other]
    exact .pure _
  | more test body word rest ih =>
    rw [branchList, rest.lastEnding_cons]
    refine .bind test fun _ => .bind body.yields fun _ => ?_
    dsimp only
    rw [dif_pos word.kind]
    exact .bind (yields_shift_of_moves word.toMoves) fun _ => .bind ih fun _ => .pure _

theorem yields_conditional {branches : List (Node × Node)} {ending : BranchEnd}
    {otherwise : Option Node} (word : c.Takes .ifWord c₁)
    (arms : Yields (branchList c₁) (branches, ending) c₂)
    (last : Yields (elsePart ending c₂) otherwise after) :
    Yields (statement c) (.choose (after.spanFrom c.current.span) branches otherwise) after := by
  rw [statement]
  simp only [word.kind, reduceCtorEq, ↓reduceDIte, ↓reduceIte]
  refine .bind (yields_shift_of_moves word.toMoves) fun _ => ?_
  exact .bind arms fun _ => .bind last fun _ => .pure _

/-- What is done otherwise runs up to the `end` that is owed. -/
theorem yields_owed {body : List Node} (word : c.Takes .elseWord c₁)
    (inside : StatementsRead c₁ body c₂) (closing : c₂.Takes .endWord after) :
    Yields (elsePart .owing c) (some (.block (after.spanFrom c.current.span) body)) after := by
  rw [elsePart, dif_pos word.kind]
  refine .bind (yields_shift_of_moves word.toMoves) fun _ => ?_
  exact .bind (yields_thenBody inside (yields_thenBody_end closing)) fun _ => .pure _

theorem yields_otherwise {body : Node} (word : c.Takes .elseWord c₁)
    (one : Yields (statement c₁) body after) : Yields (elsePart .closed c) (some body) after := by
  rw [elsePart, dif_pos word.kind]
  exact .bind (yields_shift_of_moves word.toMoves) fun _ => .bind one fun _ => .pure _

end Parser

/-! ## Conditionals of a source -/

/-- A cursor before a word that another one follows. -/
theorem Cursor.takes_next {word next : Token} {rest : List (Except LexError Token)}
    {final : EndMark} {previous : Span} (held : word.kind ≠ .endOfInput) :
    Takes ⟨word, .ok next :: rest, final, previous⟩ word.kind ⟨next, rest, final, word.span⟩ :=
  ⟨⟨held, rfl⟩, rfl⟩

/-- A cursor before the last word. -/
theorem Cursor.takes_last {word : Token} {final : EndMark} {previous : Span}
    (held : word.kind ≠ .endOfInput) :
    Takes ⟨word, [], final, previous⟩ word.kind ⟨final.token, [], final, word.span⟩ :=
  ⟨⟨held, rfl⟩, rfl⟩

/-- The first cursor of a source whose words are known. -/
theorem Cursor.ofSource_of_items {text : String} {word : Token} {rest : List Token} {last : EndMark}
    (items : (TokenStream.ofSource text.toList).items = (word :: rest).map .ok)
    (final : (TokenStream.ofSource text.toList).final = last) :
    Cursor.ofSource text = .ok ⟨word, rest.map .ok, last, .none⟩ := by
  unfold Cursor.ofSource
  dsimp only
  rw [items, final]
  rfl

/-- **An `end` is owed by the last arm only.**  A conditional of a source is closed by an `end` of its own
when its last arm is cut short, or is a `then` block with nothing after it, and ends with the statement
that comes last in it otherwise, whatever its earlier arms are.  And after arms of any forms that `end` is
accepted where it is owed, while it is no part of the conditional where it is not. -/
theorem end_owed_by_last_arm (text : String) :
    (∀ tree, parse text = .ok tree → ∀ span branches otherwise,
      (Node.choose span branches otherwise).PartOf tree →
      ∃ start c arms after, Cursor.ofSource text = .ok start ∧ start.Past c ∧
        Conditional c arms otherwise after ∧ branches = arms.map Arm.branch ∧
        span = after.spanFrom c.current.span ∧
        if lastEnding arms = .cutShort ∨ lastEnding arms = .ended ∧ otherwise = none then
          ∃ last, c.Past last ∧ last.Takes .endWord after ∧
            (byteLength text.toList ≤ Span.limit →
              last.current.ClosesOnly (.choose span branches otherwise))
        else
          ∃ first body, c.Past first ∧ Written first (.statement body) after ∧
            (Node.choose span branches otherwise).children.getLast? = some body) ∧
    ∀ c c₁ c₂ arms, c.Takes .ifWord c₁ → Parser.ArmsRead c₁ arms c₂ →
      if lastEnding arms = .cutShort then
        ∀ c₃ body last after, c₂.Takes .elseWord c₃ → Parser.StatementsRead c₃ body last →
          last.Takes .endWord after →
          Parser.Yields (Parser.statement c) (.choose (after.spanFrom c.current.span) (arms.map Arm.branch)
            (some (.block (after.spanFrom c₂.current.span) body))) after
      else
        (c₂.kind ≠ .elseWord →
          Parser.Yields (Parser.statement c)
            (.choose (c₂.spanFrom c.current.span) (arms.map Arm.branch) none) c₂) ∧
        ∀ c₃ body after, c₂.Takes .elseWord c₃ → Parser.Yields (Parser.statement c₃) body after →
          Parser.Yields (Parser.statement c)
            (.choose (after.spanFrom c.current.span) (arms.map Arm.branch) (some body)) after := by
  refine ⟨fun tree made span branches otherwise inside => ?_, fun c c₁ c₂ arms word read => ?_⟩
  · obtain ⟨start, c, after, opened, past, written⟩ := written_conditional made inside
    obtain ⟨arms, conditional, rfl, rfl⟩ := written.conditional
    refine ⟨start, c, arms, after, opened, past, conditional, rfl, rfl, ?_⟩
    split
    next owes =>
      have block : EndsWithBlock text.toList c (Conditional.node c arms otherwise after)
          after := by
        rcases owes with cut | ⟨ended, rfl⟩
        · exact conditional.endsWithBlock_of_cutShort _ cut
        · exact conditional.endsWithBlock_of_ended _ ended
      obtain ⟨last, way, closing, only⟩ := block
      exact ⟨last, way, closing, fun size => only ((Cursor.ordered_ofSource size opened).past past).1⟩
    next free =>
      rw [not_or, not_and] at free
      obtain ⟨first, body, way, last, written⟩ := conditional.endsWithStatement free.1 free.2
      exact ⟨first, body, way, written, last⟩
  · have arms_read := read.yields
    split
    next cut =>
      intro c₃ body last after otherwise inner closing
      rw [cut] at arms_read
      exact Parser.yields_conditional word arms_read (Parser.yields_owed otherwise inner closing)
    next uncut =>
      have closed : (lastEnding arms).remembered = .closed := by
        cases ending : lastEnding arms with
        | cutShort => exact absurd ending uncut
        | _ => rfl
      rw [closed] at arms_read
      refine ⟨fun other => ?_, fun c₃ body after otherwise one => ?_⟩
      · exact Parser.yields_conditional word arms_read (Parser.yields_noElse other)
      · exact Parser.yields_conditional word arms_read (Parser.yields_otherwise otherwise one)

/-- A tree's span, branches and what is done otherwise, where it is a conditional that has all this. -/
def Node.choice? : Node → Option (Span × List (Node × Node) × Node)
  | .choose span branches (some otherwise) => some (span, branches, otherwise)
  | _ => none

theorem Node.eq_of_choice? {tree : Node} {span : Span} {branches : List (Node × Node)}
    {otherwise : Node} (h : tree.choice? = some (span, branches, otherwise)) :
    tree = .choose span branches (some otherwise) := by
  unfold choice? at h
  split at h
  next =>
    cases h
    rfl
  next => cases h

/-- A brace block before an arm that is cut short, and the words `if a then else end`, as they are read
one by one. -/
theorem end_owed_by_last_arm_mixed :
    (∃ tree span branches block, parse "if a \x7b b \x7d elseif c then d else e end" = .ok tree ∧
      (Node.choose span branches (some block)).PartOf tree ∧
      ∃ start c arms after, Cursor.ofSource "if a \x7b b \x7d elseif c then d else e end" = .ok start ∧
        start.Past c ∧ Conditional c arms (some block) after ∧ branches = arms.map Arm.branch ∧
        span = after.spanFrom c.current.span ∧
        if lastEnding arms = .cutShort ∨ lastEnding arms = .ended ∧ some block = none then
          ∃ last, c.Past last ∧ last.Takes .endWord after ∧
            (byteLength "if a \x7b b \x7d elseif c then d else e end".toList ≤ Span.limit →
              last.current.ClosesOnly (.choose span branches (some block)))
        else
          ∃ first body, c.Past first ∧ Written first (.statement body) after ∧
            (Node.choose span branches (some block)).children.getLast? = some body) ∧
    ∃ test, Parser.Yields
      (Parser.statement ⟨⟨.ifWord, "if", ⟨0, 2⟩, ⟨1, 1⟩⟩, [.ok ⟨.identifier, "a", ⟨3, 4⟩, ⟨1, 4⟩⟩,
        .ok ⟨.thenWord, "then", ⟨5, 9⟩, ⟨1, 6⟩⟩, .ok ⟨.elseWord, "else", ⟨10, 14⟩, ⟨1, 11⟩⟩,
        .ok ⟨.endWord, "end", ⟨15, 18⟩, ⟨1, 16⟩⟩], ⟨18, ⟨1, 19⟩⟩, .none⟩)
      (.choose ⟨0, 18⟩ [(test, .block ⟨5, 9⟩ [])] (some (.block ⟨10, 18⟩ [])))
      ⟨EndMark.token ⟨18, ⟨1, 19⟩⟩, [], ⟨18, ⟨1, 19⟩⟩, ⟨15, 18⟩⟩ := by
  refine ⟨?_, ?_⟩
  · have shape : (parse "if a \x7b b \x7d elseif c then d else e end").toOption.any fun tree =>
        tree.children.any fun statement => statement.choice?.isSome := by decide +kernel
    obtain ⟨tree, made, facts⟩ := parsed_of_any shape
    obtain ⟨statement, mem, chosen⟩ := List.any_eq_true.1 facts
    obtain ⟨⟨span, branches, block⟩, found⟩ := Option.isSome_iff_exists.1 chosen
    obtain rfl := Node.eq_of_choice? found
    exact ⟨tree, span, branches, block, made, .child mem .self,
      (end_owed_by_last_arm _).1 _ made span branches (some block) (.child mem .self)⟩
  · have spelled : Cursor.Spells ⟨⟨.identifier, "a", ⟨3, 4⟩, ⟨1, 4⟩⟩,
        [.ok ⟨.thenWord, "then", ⟨5, 9⟩, ⟨1, 6⟩⟩, .ok ⟨.elseWord, "else", ⟨10, 14⟩, ⟨1, 11⟩⟩,
          .ok ⟨.endWord, "end", ⟨15, 18⟩, ⟨1, 16⟩⟩], ⟨18, ⟨1, 19⟩⟩, ⟨0, 2⟩⟩
        (Node.named .none "a").words _ := .cons ⟨rfl, rfl, rfl⟩ .nil
    obtain ⟨test, -, named⟩ := Parser.IsRead.expression Parser.isRead_named spelled rfl
    have arms := Parser.ArmsRead.last named (.cutShort (Cursor.takes_next (by decide)) .nil (.inr rfl))
      (by decide)
    exact ⟨test, (end_owed_by_last_arm "if a then else end").2 _ _ _ _ (Cursor.takes_next (by decide))
      arms _ [] _ _ (Cursor.takes_next (by decide)) .nil (Cursor.takes_last (by decide))⟩

/-- The spans and names of a conditional that stands alone, with a statement in its first arm and a lone
terminator as its second. -/
def Node.twoArms? : Node → Option (List Span × List String)
  | .block s [.choose t [(.named u a, .block v [.plain w (.named x b)]), (.named y c, .empty z)] none] =>
    some ([s, t, u, v, w, x, y, z], [a, b, c])
  | _ => none

theorem Node.eq_of_twoArms? {tree : Node} {s t u v w x y z : Span} {a b c : String}
    (h : tree.twoArms? = some ([s, t, u, v, w, x, y, z], [a, b, c])) :
    tree = .block s [.choose t [(.named u a, .block v [.plain w (.named x b)]),
      (.named y c, .empty z)] none] := by
  unfold twoArms? at h
  split at h
  next =>
    cases h
    rfl
  next => cases h

/-- **A `then` block that is cut short by an arm of another form**: the conditional needs no `end`, and
takes none. -/
theorem open_then_without_end :
    (∃ tree start arms after, parse "if a then b elseif c;" = .ok tree ∧
      (Conditional.node start arms none after).PartOf tree ∧
      Cursor.ofSource "if a then b elseif c;" = .ok start ∧ Conditional start arms none after ∧
      arms.map Arm.ending = [.cutShort, .whole]) ∧
    (tokenize "if a then b elseif c;").map (List.map Token.kind) = .ok [.ifWord, .identifier, .thenWord,
      .identifier, .elseIfWord, .identifier, .semicolon, .endOfInput] ∧
    (parse "if a then b elseif c; end").isOk = false := by
  refine ⟨?_, by decide +kernel, by decide +kernel⟩
  let rest : List Token := [⟨.identifier, "a", ⟨3, 4⟩, ⟨1, 4⟩⟩, ⟨.thenWord, "then", ⟨5, 9⟩, ⟨1, 6⟩⟩,
    ⟨.identifier, "b", ⟨10, 11⟩, ⟨1, 11⟩⟩, ⟨.elseIfWord, "elseif", ⟨12, 18⟩, ⟨1, 13⟩⟩,
    ⟨.identifier, "c", ⟨19, 20⟩, ⟨1, 20⟩⟩, ⟨.semicolon, ";", ⟨20, 21⟩, ⟨1, 21⟩⟩]
  let start : Cursor :=
    ⟨⟨.ifWord, "if", ⟨0, 2⟩, ⟨1, 1⟩⟩, List.map .ok rest, ⟨21, ⟨1, 22⟩⟩, .none⟩
  have items : (TokenStream.ofSource "if a then b elseif c;".toList).items =
    List.map .ok (⟨.ifWord, "if", ⟨0, 2⟩, ⟨1, 1⟩⟩ :: rest) := by decide +kernel
  have final : (TokenStream.ofSource "if a then b elseif c;".toList).final = ⟨21, ⟨1, 22⟩⟩ := by
    decide +kernel
  have shape : (parse "if a then b elseif c;").toOption.any fun tree =>
      decide (tree.twoArms? = some ([⟨0, 21⟩, ⟨0, 21⟩, ⟨3, 4⟩, ⟨5, 11⟩, ⟨10, 11⟩, ⟨10, 11⟩, ⟨19, 20⟩,
        ⟨20, 21⟩], ["a", "b", "c"])) := by decide +kernel
  obtain ⟨tree, made, facts⟩ := parsed_of_any shape
  obtain rfl := Node.eq_of_twoArms? (of_decide_eq_true facts)
  obtain ⟨arms, after, conditional, endings, same⟩ : ∃ arms after,
      Conditional start arms none after ∧ arms.map Arm.ending = [.cutShort, .whole] ∧
        Conditional.node start arms none after = .choose ⟨0, 21⟩
          [(.named ⟨3, 4⟩ "a", .block ⟨5, 11⟩ [.plain ⟨10, 11⟩ (.named ⟨10, 11⟩ "b")]),
            (.named ⟨19, 20⟩ "c", .empty ⟨20, 21⟩)] none :=
    ⟨_, _, ⟨_, _, Cursor.takes_next (by decide),
      .arm (.named (Cursor.takes_next (by decide)))
        (.cutShort (Cursor.takes_next (by decide))
          (.next (.plain (.named (Cursor.takes_next (by decide))) (.inr ⟨by decide, rfl⟩))
            .noStatements) (.inl rfl))
        (Cursor.takes_next (by decide))
        (.lastArm (.named (Cursor.takes_next (by decide)))
          (.whole (by decide) (.empty (Cursor.takes_last (by decide)))) (by decide)),
      .noOtherwise (by decide) (by decide)⟩, rfl, rfl⟩
  refine ⟨_, _, arms, after, made, ?_, Cursor.ofSource_of_items items final, conditional, endings⟩
  rw [same]
  exact .child List.mem_cons_self .self

end HostScript
