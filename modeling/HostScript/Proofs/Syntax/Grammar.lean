import HostScript.Syntax.Parser
import Mathlib.Logic.Relation

/-!
# Proofs/Syntax/Grammar — trees as they are written

`Written c phrase after` says that what a phrase stands for is written from one cursor to another: which
words it takes, in which order, and which spans its nodes get.  It leaves out how operators group, and
keeps everything that opens or closes something.  Of a conditional it keeps how the body of each arm ends
(`ArmEnd`), which the tree does not show.

Whatever a reader makes of a cursor is written there: there is one lemma for each reader, by the
recursion of the readers, and `written_parse` is about whole sources.
-/

namespace HostScript

/-! ## Moving on -/

namespace Cursor

/-- What is taken is the token that has been held. -/
theorem eq_current_of_advance {c after : Cursor} {token : Token} (step : c.advance = (.ok token, after)) :
    token = c.current := by
  unfold advance at step
  dsimp only at step
  split at step <;> cases step <;> rfl

/-- A cursor before a word, and the cursor after that word. -/
structure Moves (c after : Cursor) : Prop where
  held : c.kind ≠ .endOfInput
  advance : c.advance = (.ok c.current, after)

/-- A cursor before a word of a kind, and the cursor after that word. -/
structure Takes (c : Cursor) (kind : Kind) (after : Cursor) : Prop extends c.Moves after where
  kind : c.kind = kind

/-- A cursor, and the cursor after the word there if it is of a kind. -/
def Skips (c : Cursor) (kind : Kind) (after : Cursor) : Prop :=
  c.Takes kind after ∨ c.kind ≠ kind ∧ after = c

/-- **A cursor and one that is reached from it**, word by word. -/
def Past : Cursor → Cursor → Prop := Relation.ReflTransGen Moves

variable {c c₁ c₂ : Cursor} {kind : Kind}

@[refl] theorem Past.refl (c : Cursor) : c.Past c := Relation.ReflTransGen.refl

theorem Past.trans (first : c.Past c₁) (second : c₁.Past c₂) : c.Past c₂ :=
  Relation.ReflTransGen.trans first second

theorem Moves.past (h : c.Moves c₁) : c.Past c₁ := .single h

theorem Takes.past (h : c.Takes kind c₁) : c.Past c₁ := h.toMoves.past

theorem Skips.past (h : c.Skips kind c₁) : c.Past c₁ := by
  obtain taken | ⟨-, rfl⟩ := h
  · exact taken.past
  · rfl

end Cursor

/-! ## Phrases -/

/-- How the body of an arm ends. -/
inductive ArmEnd where
  /-- A `then` block up to an `end`. -/
  | ended
  /-- A `then` block up to the `elseif` or `else` of another part. -/
  | cutShort
  /-- A statement of another form, which ends by itself. -/
  | whole
  deriving DecidableEq, Repr

/-- What the parser remembers of how a body ends. -/
def ArmEnd.remembered : ArmEnd → Parser.BranchEnd
  | cutShort => .owing
  | _ => .closed

theorem ArmEnd.eq_cutShort {ending : ArmEnd} (owes : ending.remembered = .owing) :
    ending = .cutShort := by
  cases ending with
  | cutShort => rfl
  | _ => cases owes

theorem ArmEnd.ne_cutShort {ending : ArmEnd} (closed : ending.remembered = .closed) :
    ending ≠ .cutShort := by
  rintro rfl
  cases closed

/-- A test of a conditional and its body, with how that ends. -/
structure Arm where
  test : Node
  body : Node
  ending : ArmEnd

/-- An arm as it stands in the tree. -/
def Arm.branch (arm : Arm) : Node × Node := (arm.test, arm.body)

/-- How the last of some arms ends. -/
def lastEnding (arms : List Arm) : ArmEnd := (arms.getLast?.map Arm.ending).getD .whole

/-- What may be written between two cursors. -/
inductive Phrase where
  | expression (node : Node)
  | statement (node : Node)
  /-- Expressions one after another, with commas if at all. -/
  | arguments (nodes : List Node)
  /-- Statements one after another. -/
  | statements (nodes : List Node)
  /-- The value a variable starts with, if one is written. -/
  | initializer (value : Option Node)
  /-- The body of an arm. -/
  | body (node : Node) (ending : ArmEnd)
  /-- Arms with `elseif` between them. -/
  | arms (arms : List Arm)
  /-- What is done when all tests fail, if anything is, after arms of which the last one ends somehow. -/
  | otherwise (last : ArmEnd) (node : Option Node)

/-- **What a phrase is written as**, from one cursor to another. -/
inductive Written : Cursor → Phrase → Cursor → Prop where
  | literal {c c₁ : Cursor} {value : Literal} : c.Moves c₁ → Parser.startsLiteral c.kind = true →
    Parser.literal c.current = .ok value →
    Written c (.expression (.literal c.current.span value)) c₁
  | named {c c₁ : Cursor} : c.Takes .identifier c₁ →
    Written c (.expression (.named c.current.span c.current.text)) c₁
  | enclosed {c c₁ c₂ c₃ : Cursor} {inner : Node} : c.Takes .leftParen c₁ →
    Written c₁ (.expression inner) c₂ → c₂.Takes .rightParen c₃ → Written c (.expression inner) c₃
  | member {c c₁ c₂ c₃ : Cursor} {target : Node} {kind : MemberKind} :
    Written c (.expression target) c₁ → c₁.Takes .dot c₂ → c₂.Takes .identifier c₃ →
    Written c (.expression (.member (c₃.spanFrom target.span) target c₂.current.text kind)) c₃
  | index {c c₁ c₂ c₃ c₄ : Cursor} {target index : Node} :
    Written c (.expression target) c₁ → c₁.Takes .leftBracket c₂ →
    Written c₂ (.expression index) c₃ → c₃.Takes .rightBracket c₄ →
    Written c (.expression (.index (c₄.spanFrom target.span) target index)) c₄
  | call {c c₁ c₂ c₃ c₄ : Cursor} {callee : Node} {args : List Node} :
    Written c (.expression callee) c₁ → c₁.Takes .leftParen c₂ → Written c₂ (.arguments args) c₃ →
    c₃.Takes .rightParen c₄ →
    Written c (.expression (.call (c₄.spanFrom callee.span) callee args)) c₄
  | create {c c₁ c₂ c₃ c₄ c₅ : Cursor} {target : Node} {args : List Node} :
    c.Takes .newWord c₁ → Written c₁ (.expression target) c₂ → c₂.Takes .leftParen c₃ →
    Written c₃ (.arguments args) c₄ → c₄.Takes .rightParen c₅ →
    Written c (.expression (.create (c₅.spanFrom c.current.span) target args)) c₅
  | binary {c c₁ c₂ c₃ : Cursor} {level : Parser.Level} {op : BinaryOp} {left right : Node} :
    Written c (.expression left) c₁ → level.operator? c₁.kind = some op → c₁.Moves c₂ →
    Written c₂ (.expression right) c₃ →
    Written c (.expression (.binary (left.span.merge right.span) op left right)) c₃
  | unary {c c₁ c₂ : Cursor} {op : UnaryOp} {operand : Node} :
    Parser.prefixOperator? c.kind = some op → c.Moves c₁ → Written c₁ (.expression operand) c₂ →
    Written c (.expression (.unary (c₂.spanFrom c.current.span) op operand)) c₂
  | assign {c c₁ c₂ c₃ : Cursor} {target value : Node} :
    Written c (.expression target) c₁ → c₁.Takes .equal c₂ → Written c₂ (.expression value) c₃ →
    Written c (.expression (.assign (target.span.merge value.span) target value)) c₃
  | lambda {c c₁ c₂ c₃ : Cursor} {params : List String} {body : Node} :
    c.Takes .lambdaWord c₁ → c₁.Past c₂ → Written c₂ (.statement body) c₃ →
    Written c (.expression (.lambda (c₃.spanFrom c.current.span) params body)) c₃
  | noArguments {c : Cursor} : Written c (.arguments []) c
  | argument {c c₁ c₂ c₃ : Cursor} {first : Node} {more : List Node} :
    Written c (.expression first) c₁ → c₁.Skips .comma c₂ → Written c₂ (.arguments more) c₃ →
    Written c (.arguments (first :: more)) c₃
  | empty {c c₁ : Cursor} : c.Takes .semicolon c₁ → Written c (.statement (.empty c.current.span)) c₁
  | block {c c₁ c₂ c₃ : Cursor} {body : List Node} : c.Takes .leftBrace c₁ →
    Written c₁ (.statements body) c₂ → c₂.Takes .rightBrace c₃ →
    Written c (.statement (.block (c₃.spanFrom c.current.span) body)) c₃
  | thenBlock {c c₁ : Cursor} {body : Node} {ending : ArmEnd} : c.kind = .thenWord →
    Written c (.body body ending) c₁ → Written c (.statement body) c₁
  | loop {c c₁ c₂ : Cursor} {body : Node} : c.Takes .loopWord c₁ → Written c₁ (.statement body) c₂ →
    Written c (.statement (.loop (c₂.spanFrom c.current.span) body)) c₂
  | choose {c c₁ c₂ c₃ : Cursor} {arms : List Arm} {otherwise : Option Node} : c.Takes .ifWord c₁ →
    Written c₁ (.arms arms) c₂ → Written c₂ (.otherwise (lastEnding arms) otherwise) c₃ →
    Written c (.statement (.choose (c₃.spanFrom c.current.span) (arms.map Arm.branch) otherwise)) c₃
  | function {c c₁ c₂ c₃ c₄ : Cursor} {params : List String} {body : Node} :
    c.Takes .functionWord c₁ → c₁.Takes .identifier c₂ → c₂.Past c₃ →
    Written c₃ (.statement body) c₄ →
    Written c (.statement (.function (c₄.spanFrom c.current.span) c₁.current.text params body)) c₄
  | give {c c₁ c₂ : Cursor} : c.Takes .returnWord c₁ → c₁.Skips .semicolon c₂ →
    Written c (.statement (.give (c₂.spanFrom c.current.span) none)) c₂
  | giveBack {c c₁ c₂ c₃ : Cursor} {value : Node} : c.Takes .returnWord c₁ →
    Written c₁ (.expression value) c₂ → c₂.Skips .semicolon c₃ →
    Written c (.statement (.give (c₃.spanFrom c.current.span) (some value))) c₃
  | declare {c c₁ c₂ c₃ c₄ : Cursor} {init : Option Node} : c.Takes .varWord c₁ →
    c₁.Takes .identifier c₂ → Written c₂ (.initializer init) c₃ → c₃.Skips .semicolon c₄ →
    Written c (.statement (.declare (c₄.spanFrom c.current.span) c₁.current.text init)) c₄
  | importFrom {c c₁ c₂ : Cursor} {path : List String} {alias? : Option String} :
    c.Takes .importWord c₁ → c₁.Past c₂ →
    Written c (.statement (.importFrom (c₂.spanFrom c.current.span) path alias?)) c₂
  | leave {c c₁ c₂ : Cursor} : c.Takes .breakWord c₁ → c₁.Skips .semicolon c₂ →
    Written c (.statement (.leave (c₂.spanFrom c.current.span) none)) c₂
  | leaveWith {c c₁ c₂ c₃ c₄ c₅ : Cursor} {value : Node} : c.Takes .breakWord c₁ →
    c₁.Takes .leftParen c₂ → Written c₂ (.expression value) c₃ → c₃.Takes .rightParen c₄ →
    c₄.Skips .semicolon c₅ →
    Written c (.statement (.leave (c₅.spanFrom c.current.span) (some value))) c₅
  | plain {c c₁ c₂ : Cursor} {value : Node} : Written c (.expression value) c₁ →
    c₁.Skips .semicolon c₂ → Written c (.statement (.plain (c₂.spanFrom c.current.span) value)) c₂
  | noStatements {c : Cursor} : Written c (.statements []) c
  | next {c c₁ c₂ : Cursor} {first : Node} {more : List Node} : Written c (.statement first) c₁ →
    Written c₁ (.statements more) c₂ → Written c (.statements (first :: more)) c₂
  | noInitializer {c : Cursor} : Written c (.initializer none) c
  | initializer {c c₁ c₂ : Cursor} {value : Node} : c.Takes .equal c₁ →
    Written c₁ (.expression value) c₂ → Written c (.initializer (some value)) c₂
  | ended {c c₁ c₂ c₃ : Cursor} {body : List Node} : c.Takes .thenWord c₁ →
    Written c₁ (.statements body) c₂ → c₂.Takes .endWord c₃ →
    Written c (.body (.block (c₃.spanFrom c.current.span) body) .ended) c₃
  | cutShort {c c₁ c₂ : Cursor} {body : List Node} : c.Takes .thenWord c₁ →
    Written c₁ (.statements body) c₂ → c₂.kind = .elseIfWord ∨ c₂.kind = .elseWord →
    Written c (.body (.block (c₂.spanFrom c.current.span) body) .cutShort) c₂
  | whole {c c₁ : Cursor} {body : Node} : c.kind ≠ .thenWord → Written c (.statement body) c₁ →
    Written c (.body body .whole) c₁
  | lastArm {c c₁ c₂ : Cursor} {test body : Node} {ending : ArmEnd} :
    Written c (.expression test) c₁ → Written c₁ (.body body ending) c₂ → c₂.kind ≠ .elseIfWord →
    Written c (.arms [⟨test, body, ending⟩]) c₂
  | arm {c c₁ c₂ c₃ c₄ : Cursor} {test body : Node} {ending : ArmEnd} {more : List Arm} :
    Written c (.expression test) c₁ → Written c₁ (.body body ending) c₂ →
    c₂.Takes .elseIfWord c₃ → Written c₃ (.arms more) c₄ →
    Written c (.arms (⟨test, body, ending⟩ :: more)) c₄
  | noOtherwise {c : Cursor} {last : ArmEnd} : last ≠ .cutShort → c.kind ≠ .elseWord →
    Written c (.otherwise last none) c
  | otherwise {c c₁ c₂ : Cursor} {last : ArmEnd} {body : Node} : last ≠ .cutShort →
    c.Takes .elseWord c₁ → Written c₁ (.statement body) c₂ →
    Written c (.otherwise last (some body)) c₂
  | owed {c c₁ c₂ c₃ : Cursor} {body : List Node} : c.Takes .elseWord c₁ →
    Written c₁ (.statements body) c₂ → c₂.Takes .endWord c₃ →
    Written c (.otherwise .cutShort (some (.block (c₃.spanFrom c.current.span) body))) c₃

theorem lastEnding_cons (arm : Arm) {c after : Cursor} {more : List Arm}
    (written : Written c (.arms more) after) : lastEnding (arm :: more) = lastEnding more := by
  cases written <;> rfl

/-! ## Readings -/

namespace Parser

/-- **A reading that ends well if it succeeds**: in what is read and the cursor after it. -/
def Ends {α : Type} {n : Nat} (good : α → Cursor → Prop) : Reading α n → Prop
  | .ok read => good read.value read.next
  | .error _ => True

variable {α β : Type} {n m : Nat} {good : α → Cursor → Prop} {fine : β → Cursor → Prop} {c : Cursor}

theorem Ends.bind {r : Reading α n} {k : Read α n → Reading β m} (h : Ends good r)
    (next : ∀ v c₁ fewer, good v c₁ → Ends fine (k ⟨v, c₁, fewer⟩)) : Ends fine (r >>= k) := by
  cases r with
  | ok read => exact next read.value read.next read.fewer h
  | error e => trivial

theorem Ends.done {v : α} {fewer : c.remaining < n} (found : good v c) :
    Ends good (.ok ⟨v, c, fewer⟩ : Reading α n) := found

theorem Ends.imp {better : α → Cursor → Prop} {r : Reading α n} (h : Ends good r)
    (weaken : ∀ v after, good v after → better v after) : Ends better r := by
  cases r with
  | ok read => exact weaken _ _ h
  | error e => trivial

theorem Ends.dite {p : Prop} [Decidable p] {yes : p → Reading α n} {no : ¬p → Reading α n}
    (first : ∀ h, Ends good (yes h)) (second : ∀ h, Ends good (no h)) :
    Ends good (if h : p then yes h else no h) := by
  split
  next h => exact first h
  next h => exact second h

theorem Ends.ite {p : Prop} [Decidable p] {yes no : Reading α n} (first : p → Ends good yes)
    (second : ¬p → Ends good no) : Ends good (if p then yes else no) := .dite first second

theorem ends_refuse (expected : String) : Ends good (refuse c expected : Reading α n) := trivial

/-! ### Tokens -/

theorem ends_shift (held : c.kind ≠ .endOfInput) :
    Ends (fun token after => token = c.current ∧ c.Moves after) (shift c held) := by
  unfold shift
  split
  next token after step =>
    have same := Cursor.eq_current_of_advance step
    exact ⟨same, held, same ▸ step⟩
  next => trivial

/-- A word whose kind is known is consumed. -/
theorem ends_shiftOf {kind : Kind} (held : c.kind ≠ .endOfInput) (same : c.kind = kind) :
    Ends (fun token after => token = c.current ∧ c.Takes kind after) (shift c held) :=
  (ends_shift held).imp fun _ _ found => ⟨found.1, found.2, same⟩

theorem ends_require (kind : Kind) (word : kind ≠ .endOfInput) :
    Ends (fun token after => token = c.current ∧ c.Takes kind after) (require c kind word) := by
  unfold require
  exact .dite (fun same => ends_shiftOf _ same) fun _ => trivial

theorem ends_skip (kind : Kind) (word : kind ≠ .endOfInput) :
    Ends (fun taken after => c.Skips kind after ∧ (taken = false → after = c)) (skip c kind word) := by
  unfold skip
  refine .dite (fun same => ?_) fun other => .done ⟨.inr ⟨other, rfl⟩, fun _ => rfl⟩
  exact .bind (ends_shiftOf _ same) fun _ _ _ found => .done ⟨.inl found.2, nofun⟩

theorem ends_literal {t : Token} {after : Cursor} {fewer : after.remaining < n}
    {good : Node → Cursor → Prop}
    (found : ∀ value, literal t = .ok value → good (.literal t.span value) after) :
    Ends good (do
      let value ← (literal t).mapError .parse
      return ⟨.literal t.span value, after, fewer⟩ : Reading Node n) := by
  cases read : literal t with
  | ok value => exact found value read
  | error e => trivial

/-! ### Names -/

theorem ends_names (c : Cursor) : Ends (fun _ => c.Past) (names c) := by
  rw [names]
  refine .dite (fun closing => ?_) fun _ => ?_
  · exact .bind (ends_shift _) fun _ _ _ found => .done found.2.past
  · refine .bind (ends_require _ _) fun name c₁ h₁ first => ?_
    refine .bind (ends_skip _ _) fun _ c₂ h₂ comma => ?_
    refine .bind (ends_names c₂) fun _ _ _ more => ?_
    exact .done ((first.2.past.trans comma.1.past).trans more)
termination_by c.remaining
decreasing_by omega

theorem ends_parameters (c : Cursor) : Ends (fun _ => c.Past) (parameters c) := by
  rw [parameters]
  refine .bind (ends_require _ _) fun _ c₁ h₁ opening => ?_
  exact .bind (ends_names c₁) fun _ _ _ more => .done (opening.2.past.trans more)

theorem ends_path (c : Cursor) : Ends (fun _ => c.Past) (path c) := by
  rw [path]
  refine .dite (fun point => ?_) fun _ => .done (.refl c)
  refine .bind (ends_shift _) fun _ c₁ h₁ first => ?_
  refine .bind (ends_require _ _) fun name c₂ h₂ second => ?_
  refine .bind (ends_path c₂) fun _ _ _ more => ?_
  exact .done ((first.2.past.trans second.2.past).trans more)
termination_by c.remaining
decreasing_by omega

theorem writes_dotted (target : Node) (c₀ c : Cursor) (first : Written c₀ (.expression target) c) :
    Ends (fun node => Written c₀ (.expression node)) (dotted target c) := by
  rw [dotted]
  refine .dite (fun point => ?_) fun _ => .done first
  refine .bind (ends_shiftOf _ point) fun _ c₁ h₁ dot => ?_
  refine .bind (ends_require _ _) fun name c₂ h₂ named => ?_
  obtain ⟨rfl, named⟩ := named
  exact .bind (writes_dotted _ c₀ c₂ (.member first dot.2 named)) fun _ _ _ found => .done found
termination_by c.remaining
decreasing_by omega

/-! ### Expressions and statements -/

/-- What the statements of a `then` block are written as, with what ends them. -/
def EndsBody (c : Cursor) (body : List Node × BranchEnd) (after : Cursor) : Prop :=
  match body.2 with
  | .closed => ∃ last, Written c (.statements body.1) last ∧ last.Takes .endWord after
  | .owing => Written c (.statements body.1) after ∧
      (after.kind = .elseIfWord ∨ after.kind = .elseWord)

theorem EndsBody.cons {c c₁ after : Cursor} {first : Node} {more : List Node} {ending : BranchEnd}
    (one : Written c (.statement first) c₁) (rest : EndsBody c₁ (more, ending) after) :
    EndsBody c (first :: more, ending) after := by
  cases ending with
  | closed => exact rest.imp fun _ found => ⟨.next one found.1, found.2⟩
  | owing => exact ⟨.next one rest.1, rest.2⟩

/-- What the body of an arm is written as, with what is remembered of its end. -/
def WritesBody (c : Cursor) (body : Node × BranchEnd) (after : Cursor) : Prop :=
  ∃ ending : ArmEnd, ending.remembered = body.2 ∧ Written c (.body body.1 ending) after

/-- What arms are written as, with what is remembered of the end of the last one. -/
def WritesArms (c : Cursor) (read : List (Node × Node) × BranchEnd) (after : Cursor) : Prop :=
  ∃ arms : List Arm, arms.map Arm.branch = read.1 ∧ (lastEnding arms).remembered = read.2 ∧
    Written c (.arms arms) after

mutual

theorem writes_expression (c : Cursor) :
    Ends (fun node => Written c (.expression node)) (expression c) := by
  rw [expression]
  refine .bind (writes_binary .disjunction c) fun target c₁ h₁ first => ?_
  refine .dite (fun assigns => ?_) fun _ => .done first
  refine .bind (ends_shiftOf _ assigns) fun _ c₂ h₂ equal => ?_
  exact .bind (writes_expression c₂) fun value c₃ h₃ second => .done (.assign first equal.2 second)
termination_by 32 * c.remaining + 14
decreasing_by
  · simp only [Level.depth]
    omega
  · omega

theorem writes_binary (level : Level) (c : Cursor) :
    Ends (fun node => Written c (.expression node)) (binary level c) := by
  rw [binary]
  refine .bind (writes_operand level c) fun left c₁ h₁ first => ?_
  exact .bind (writes_chain level left c c₁ first) fun _ _ _ found => .done found
termination_by 32 * c.remaining + 2 * level.depth + 3
decreasing_by all_goals omega

theorem writes_operand (level : Level) (c : Cursor) :
    Ends (fun node => Written c (.expression node)) (operand level c) := by
  rw [operand]
  split
  next tighter tight =>
    have tightens := Level.depth_of_tighter? tight
    exact writes_binary tighter c
  next => exact writes_unary c
termination_by 32 * c.remaining + 2 * level.depth + 2
decreasing_by
  · omega
  · have := level.depth_pos
    omega

theorem writes_chain (level : Level) (left : Node) (c₀ c : Cursor)
    (first : Written c₀ (.expression left) c) :
    Ends (fun node => Written c₀ (.expression node)) (chain level left c) := by
  rw [chain]
  split
  next op operator =>
    refine .bind (ends_shift _) fun _ c₁ h₁ word => ?_
    refine .bind (writes_operand level c₁) fun right c₂ h₂ second => ?_
    refine .bind (writes_chain level _ c₀ c₂ ?_) fun _ _ _ found => .done found
    exact .binary first operator word.2 second
  next => exact .done first
termination_by 32 * c.remaining
decreasing_by
  · have : level.depth ≤ 5 := by cases level <;> decide
    omega
  · omega

theorem writes_unary (c : Cursor) : Ends (fun node => Written c (.expression node)) (unary c) := by
  rw [unary]
  split
  next op operator =>
    refine .bind (ends_shift _) fun token c₁ h₁ word => ?_
    obtain ⟨rfl, moves⟩ := word
    exact .bind (writes_unary c₁) fun operand c₂ h₂ found => .done (.unary operator moves found)
  next => exact writes_postfixed c
termination_by 32 * c.remaining + 2
decreasing_by all_goals omega

theorem writes_postfixed (c : Cursor) :
    Ends (fun node => Written c (.expression node)) (postfixed c) := by
  rw [postfixed]
  refine .bind (writes_primary c) fun node c₁ h₁ first => ?_
  exact .bind (writes_suffixes node c c₁ first) fun _ _ _ found => .done found
termination_by 32 * c.remaining + 1
decreasing_by all_goals omega

theorem writes_suffixes (node : Node) (c₀ c : Cursor) (first : Written c₀ (.expression node) c) :
    Ends (fun node => Written c₀ (.expression node)) (suffixes node c) := by
  rw [suffixes]
  refine .dite (fun point => ?member) fun _ => .dite (fun opening => ?call) fun _ =>
    .dite (fun bracket => ?index) fun _ => .done first
  case member =>
    refine .bind (ends_shiftOf _ point) fun _ c₁ h₁ dot => ?_
    refine .bind (ends_require _ _) fun name c₂ h₂ named => ?_
    obtain ⟨rfl, named⟩ := named
    exact .bind (writes_suffixes _ c₀ c₂ (.member first dot.2 named)) fun _ _ _ found => .done found
  case call =>
    refine .bind (writes_arguments c) fun args c₁ h₁ given => ?_
    obtain ⟨c₂, c₃, opening, args, closing⟩ := given
    exact .bind (writes_suffixes _ c₀ c₁ (.call first opening args closing))
      fun _ _ _ found => .done found
  case index =>
    refine .bind (ends_shiftOf _ bracket) fun _ c₁ h₁ opening => ?_
    refine .bind (writes_expression c₁) fun index c₂ h₂ second => ?_
    refine .bind (ends_require _ _) fun _ c₃ h₃ closing => ?_
    exact .bind (writes_suffixes _ c₀ c₃ (.index first opening.2 second closing.2))
      fun _ _ _ found => .done found
termination_by 32 * c.remaining + 17
decreasing_by all_goals omega

theorem writes_arguments (c : Cursor) :
    Ends (fun args after => ∃ c₁ c₂, c.Takes .leftParen c₁ ∧ Written c₁ (.arguments args) c₂ ∧
      c₂.Takes .rightParen after) (arguments c) := by
  rw [arguments]
  refine .bind (ends_require _ _) fun _ c₁ h₁ opening => ?_
  refine .bind (writes_argumentList c₁) fun args after h₂ found => ?_
  obtain ⟨c₂, args, closing⟩ := found
  exact .done ⟨c₁, c₂, opening.2, args, closing⟩
termination_by 32 * c.remaining + 16
decreasing_by all_goals omega

theorem writes_argumentList (c : Cursor) :
    Ends (fun args after => ∃ c₁, Written c (.arguments args) c₁ ∧ c₁.Takes .rightParen after)
      (argumentList c) := by
  rw [argumentList]
  refine .dite (fun closing => ?_) fun _ => .ite (fun _ => ends_refuse _) fun _ => ?_
  · exact .bind (ends_shiftOf _ closing) fun _ _ _ found => .done ⟨c, .noArguments, found.2⟩
  · refine .bind (writes_expression c) fun arg c₁ h₁ first => ?_
    refine .bind (ends_skip _ _) fun _ c₂ h₂ comma => ?_
    refine .bind (writes_argumentList c₂) fun more after h₃ found => ?_
    obtain ⟨c₃, more, closing⟩ := found
    exact .done ⟨c₃, .argument first comma.1 more, closing⟩
termination_by 32 * c.remaining + 15
decreasing_by all_goals omega

theorem writes_primary (c : Cursor) :
    Ends (fun node => Written c (.expression node)) (primary c) := by
  rw [primary]
  refine .dite (fun opening => ?enclosed) fun _ => .dite (fun constant => ?literal) fun _ =>
    .dite (fun word => ?named) fun _ => .dite (fun creates => ?create) fun _ =>
    .dite (fun binds => ?lambda) fun _ => ends_refuse _
  case enclosed =>
    refine .bind (ends_shiftOf _ opening) fun _ c₁ h₁ left => ?_
    refine .bind (writes_expression c₁) fun inner c₂ h₂ found => ?_
    exact .bind (ends_require _ _) fun _ _ _ right => .done (.enclosed left.2 found right.2)
  case literal =>
    refine .bind (ends_shift _) fun token c₁ h₁ word => ?_
    obtain ⟨rfl, moves⟩ := word
    exact ends_literal fun _ value => .literal moves constant value
  case named =>
    refine .bind (ends_shiftOf _ word) fun token c₁ h₁ found => ?_
    obtain ⟨rfl, found⟩ := found
    exact .done (.named found)
  case create =>
    refine .bind (ends_shiftOf _ creates) fun token c₁ h₁ word => ?_
    obtain ⟨rfl, word⟩ := word
    refine .bind (ends_require _ _) fun first c₂ h₂ named => ?_
    obtain ⟨rfl, named⟩ := named
    refine .bind (writes_dotted _ c₁ c₂ (.named named)) fun target c₃ h₃ found => ?_
    refine .bind (writes_arguments c₃) fun args c₄ h₄ given => ?_
    obtain ⟨c₅, c₆, opening, args, closing⟩ := given
    exact .done (.create word found opening args closing)
  case lambda =>
    refine .bind (ends_shiftOf _ binds) fun token c₁ h₁ word => ?_
    obtain ⟨rfl, word⟩ := word
    refine .bind (ends_parameters c₁) fun params c₂ h₂ past => ?_
    exact .bind (writes_statement c₂) fun body c₃ h₃ found => .done (.lambda word past found)
termination_by 32 * c.remaining
decreasing_by all_goals omega

theorem writes_statement (c : Cursor) :
    Ends (fun node => Written c (.statement node)) (statement c) := by
  rw [statement]
  refine .dite (fun terminator => ?empty) fun _ => .dite (fun brace => ?block) fun _ =>
    .ite (fun opens => ?thenBlock) fun _ => .dite (fun loops => ?loop) fun _ =>
    .dite (fun tests => ?choose) fun _ => .dite (fun defines => ?function) fun _ =>
    .dite (fun returns => ?give) fun _ => .dite (fun declares => ?declare) fun _ =>
    .dite (fun imports => ?importFrom) fun _ => .dite (fun leaves => ?leave) fun _ => ?plain
  case empty =>
    refine .bind (ends_shiftOf _ terminator) fun token c₁ h₁ word => ?_
    obtain ⟨rfl, word⟩ := word
    exact .done (.empty word)
  case block =>
    refine .bind (ends_shiftOf _ brace) fun token c₁ h₁ word => ?_
    obtain ⟨rfl, word⟩ := word
    refine .bind (writes_braceBody c₁) fun body c₂ h₂ found => ?_
    obtain ⟨c₃, found, closing⟩ := found
    exact .done (.block word found closing)
  case thenBlock =>
    refine .bind (writes_thenBlock c) fun (node, ending) c₁ h₁ found => ?_
    obtain ⟨ending, -, found⟩ := found
    exact .done (.thenBlock opens found)
  case loop =>
    refine .bind (ends_shiftOf _ loops) fun token c₁ h₁ word => ?_
    obtain ⟨rfl, word⟩ := word
    exact .bind (writes_statement c₁) fun body c₂ h₂ found => .done (.loop word found)
  case choose =>
    refine .bind (ends_shiftOf _ tests) fun token c₁ h₁ word => ?_
    obtain ⟨rfl, word⟩ := word
    refine .bind (writes_branchList c₁) fun (branches, ending) c₂ h₂ found => ?_
    obtain ⟨arms, rfl, remembered, found⟩ := found
    obtain rfl := remembered
    exact .bind (writes_elsePart (lastEnding arms) c₂) fun otherwise c₃ h₃ last =>
      .done (.choose word found last)
  case function =>
    refine .bind (ends_shiftOf _ defines) fun token c₁ h₁ word => ?_
    obtain ⟨rfl, word⟩ := word
    refine .bind (ends_require _ _) fun name c₂ h₂ named => ?_
    obtain ⟨rfl, named⟩ := named
    refine .bind (ends_parameters c₂) fun params c₃ h₃ past => ?_
    exact .bind (writes_statement c₃) fun body c₄ h₄ found => .done (.function word named past found)
  case give =>
    refine .bind (ends_shiftOf _ returns) fun token c₁ h₁ word => ?_
    obtain ⟨rfl, word⟩ := word
    refine .bind (ends_skip _ _) fun bare c₂ h₂ last => ?_
    refine .ite (fun _ => .done (.give word last.1)) fun more => ?_
    have same : c₂ = c₁ := last.2 (by cases bare <;> simp_all)
    subst same
    refine .bind (writes_expression c₂) fun value c₃ h₃ found => ?_
    exact .bind (ends_skip _ _) fun _ c₄ h₄ last => .done (.giveBack word found last.1)
  case declare =>
    refine .bind (ends_shiftOf _ declares) fun token c₁ h₁ word => ?_
    obtain ⟨rfl, word⟩ := word
    refine .bind (ends_require _ _) fun name c₂ h₂ named => ?_
    obtain ⟨rfl, named⟩ := named
    refine .bind (writes_initializer c₂) fun init c₃ h₃ found => ?_
    exact .bind (ends_skip _ _) fun _ c₄ h₄ last => .done (.declare word named found last.1)
  case importFrom =>
    refine .bind (ends_shiftOf _ imports) fun token c₁ h₁ word => ?_
    obtain ⟨rfl, word⟩ := word
    refine .bind (ends_require _ _) fun first c₂ h₂ named => ?_
    refine .bind (ends_path c₂) fun more c₃ h₃ path => ?_
    refine .bind (ends_skip _ _) fun renamed c₄ h₄ renames => ?_
    have far := (named.2.past.trans path).trans renames.1.past
    refine .ite (fun _ => ?_) fun _ => ?_
    · refine .bind (ends_require _ _) fun name c₅ h₅ other => ?_
      exact .bind (ends_skip _ _) fun _ c₆ h₆ last =>
        .done (.importFrom word ((far.trans other.2.past).trans last.1.past))
    · exact .bind (ends_skip _ _) fun _ c₅ h₅ last => .done (.importFrom word (far.trans last.1.past))
  case leave =>
    refine .bind (ends_shiftOf _ leaves) fun token c₁ h₁ word => ?_
    obtain ⟨rfl, word⟩ := word
    refine .dite (fun opening => ?_) fun _ => ?_
    · refine .bind (ends_shiftOf _ opening) fun _ c₂ h₂ left => ?_
      refine .bind (writes_expression c₂) fun value c₃ h₃ found => ?_
      refine .bind (ends_require _ _) fun _ c₄ h₄ right => ?_
      exact .bind (ends_skip _ _) fun _ c₅ h₅ last =>
        .done (.leaveWith word left.2 found right.2 last.1)
    · exact .bind (ends_skip _ _) fun _ c₂ h₂ last => .done (.leave word last.1)
  case plain =>
    refine .bind (writes_expression c) fun value c₁ h₁ found => ?_
    exact .bind (ends_skip _ _) fun _ c₂ h₂ last => .done (.plain found last.1)
termination_by 32 * c.remaining + 15
decreasing_by all_goals omega

theorem writes_initializer (c : Cursor) :
    Ends (fun init => Written c (.initializer init)) (initializer c) := by
  rw [initializer]
  refine .dite (fun assigns => ?_) fun _ => .done .noInitializer
  refine .bind (ends_shiftOf _ assigns) fun _ c₁ h₁ equal => ?_
  exact .bind (writes_expression c₁) fun value c₂ h₂ found => .done (.initializer equal.2 found)
termination_by 32 * c.remaining
decreasing_by omega

theorem writes_braceBody (c : Cursor) :
    Ends (fun body after => ∃ c₁, Written c (.statements body) c₁ ∧ c₁.Takes .rightBrace after)
      (braceBody c) := by
  rw [braceBody]
  refine .dite (fun closing => ?_) fun _ => .ite (fun _ => ends_refuse _) fun _ => ?_
  · exact .bind (ends_shiftOf _ closing) fun _ _ _ found => .done ⟨c, .noStatements, found.2⟩
  · refine .bind (writes_statement c) fun first c₁ h₁ one => ?_
    refine .bind (writes_braceBody c₁) fun more after h₂ found => ?_
    obtain ⟨c₂, more, closing⟩ := found
    exact .done ⟨c₂, .next one more, closing⟩
termination_by 32 * c.remaining + 16
decreasing_by all_goals omega

theorem writes_thenBlock (c : Cursor) : Ends (WritesBody c) (thenBlock c) := by
  rw [thenBlock]
  refine .bind (ends_require _ _) fun token c₁ h₁ word => ?_
  obtain ⟨rfl, word⟩ := word
  refine .bind (writes_thenBody c₁) fun (body, ending) c₂ h₂ found => ?_
  cases ending with
  | closed =>
    obtain ⟨last, found, closing⟩ := found
    exact .done ⟨.ended, rfl, .ended word found closing⟩
  | owing => exact .done ⟨.cutShort, rfl, .cutShort word found.1 found.2⟩
termination_by 32 * c.remaining
decreasing_by omega

theorem writes_thenBody (c : Cursor) : Ends (EndsBody c) (thenBody c) := by
  rw [thenBody]
  refine .dite (fun closing => ?_) fun _ => .ite (fun cut => ?_) fun _ =>
    .ite (fun _ => ends_refuse _) fun _ => ?_
  · exact .bind (ends_shiftOf _ closing) fun _ _ _ found => .done ⟨c, .noStatements, found.2⟩
  · refine .done ⟨.noStatements, ?_⟩
    simpa only [Bool.or_eq_true, decide_eq_true_eq] using cut
  · refine .bind (writes_statement c) fun first c₁ h₁ one => ?_
    exact .bind (writes_thenBody c₁) fun (more, ending) c₂ h₂ found => .done (.cons one found)
termination_by 32 * c.remaining + 16
decreasing_by all_goals omega

theorem writes_branchBody (c : Cursor) : Ends (WritesBody c) (branchBody c) := by
  rw [branchBody]
  refine .ite (fun _ => writes_thenBlock c) fun other => ?_
  exact .bind (writes_statement c) fun _ _ _ found => .done ⟨.whole, rfl, .whole other found⟩
termination_by 32 * c.remaining + 16
decreasing_by all_goals omega

theorem writes_branchList (c : Cursor) : Ends (WritesArms c) (branchList c) := by
  rw [branchList]
  refine .bind (writes_expression c) fun test c₁ h₁ first => ?_
  refine .bind (writes_branchBody c₁) fun (body, ending) c₂ h₂ second => ?_
  obtain ⟨ending, rfl, second⟩ := second
  refine .dite (fun another => ?_) fun other => ?_
  · refine .bind (ends_shiftOf _ another) fun _ c₃ h₃ word => ?_
    refine .bind (writes_branchList c₃) fun (more, last) c₄ h₄ found => ?_
    obtain ⟨arms, rfl, remembered, found⟩ := found
    refine .done ⟨⟨test, body, ending⟩ :: arms, rfl, ?_, .arm first second word.2 found⟩
    rw [lastEnding_cons _ found, remembered]
  · exact .done ⟨[⟨test, body, ending⟩], rfl, rfl, .lastArm first second other⟩
termination_by 32 * c.remaining + 15
decreasing_by all_goals omega

theorem writes_elsePart (last : ArmEnd) (c : Cursor) :
    Ends (fun otherwise => Written c (.otherwise last otherwise)) (elsePart last.remembered c) := by
  rw [elsePart.eq_def]
  refine .dite (fun word => ?_) fun other => ?_
  · refine .bind (ends_shiftOf _ word) fun token c₁ h₁ word => ?_
    obtain ⟨rfl, word⟩ := word
    cases owes : last.remembered with
    | owing =>
      obtain rfl := ArmEnd.eq_cutShort owes
      refine .bind (writes_thenBody c₁) fun (body, ending) c₂ h₂ found => ?_
      cases ending with
      | owing => exact ends_refuse _
      | closed =>
        obtain ⟨c₃, found, closing⟩ := found
        exact .done (.owed word found closing)
    | closed =>
      exact .bind (writes_statement c₁) fun body c₂ h₂ found =>
        .done (.otherwise (ArmEnd.ne_cutShort owes) word found)
  · cases owes : last.remembered with
    | owing => exact ends_refuse _
    | closed => exact .done (.noOtherwise (ArmEnd.ne_cutShort owes) other)
termination_by 32 * c.remaining
decreasing_by all_goals omega

end

theorem writes_statements (c : Cursor) :
    Ends (fun body after => Written c (.statements body) after ∧ after.kind = .endOfInput)
      (statements c) := by
  rw [statements]
  refine .ite (fun ended => .done ⟨.noStatements, of_decide_eq_true ended⟩) fun _ => ?_
  refine .bind (writes_statement c) fun first c₁ h₁ one => ?_
  exact .bind (writes_statements c₁) fun more c₂ h₂ rest => .done ⟨.next one rest.1, rest.2⟩
termination_by c.remaining
decreasing_by omega

end Parser

/-! ## Sources -/

/-- **The tree of a source is a block of statements that are written there**, from the first cursor to one
at the end. -/
theorem written_parse {text : String} {tree : Node} (made : parse text = .ok tree) :
    ∃ c after body, Cursor.ofSource text = .ok c ∧ Written c (.statements body) after ∧
      after.kind = .endOfInput ∧ tree = .block (after.spanFrom c.current.span) body := by
  rw [parse] at made
  cases first : Cursor.ofSource text with
  | error e =>
    rw [first] at made
    cases made
  | ok c =>
    rw [first] at made
    have written := Parser.writes_statements c
    cases read : Parser.statements c with
    | error e =>
      replace made : (Parser.statements c >>= fun read =>
        .ok (.block (read.next.spanFrom c.current.span) read.value)) = .ok tree := made
      rw [read] at made
      cases made
    | ok body =>
      replace made : (Parser.statements c >>= fun read =>
        .ok (.block (read.next.spanFrom c.current.span) read.value)) = .ok tree := made
      rw [read] at made written
      exact ⟨c, body.next, body.value, rfl, written.1, written.2, (Except.ok.inj made).symm⟩

end HostScript
