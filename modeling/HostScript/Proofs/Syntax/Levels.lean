import HostScript.Proofs.Syntax.Rules

/-!
# Proofs/Syntax/Levels — operands, with and without parentheses

Each level of expressions has a reader, and each token a level at which it goes on with an expression.
An expression that is read at a level is read at the looser ones too, if the token after it does not
go on with it there: `Reads.loosen`.  What comes at the start of a chain of operators or of postfix
forms is said by `Opens`, which leaves open how the chain goes on; so chains are put together from the
left.  `ReadBack` says all that is read off the words of an expression, and is what the words of an
operand come to, in parentheses or not.
-/

namespace HostScript.Parser

variable {e target : Node} {level : Level} {c c₁ c₂ after : Cursor} {demand p q : Nat}

/-! ## Levels -/

/-- The level at which a token goes on with an expression, or 0 if it does not. -/
def continues : Kind → Nat
  | .equal => 1
  | .barBar => 2
  | .ampAmp => 3
  | .equalEqual | .bangEqual | .less | .lessEqual | .greater | .greaterEqual => 4
  | .plus | .minus => 5
  | .star | .slash | .percent | .caret => 6
  | .dot | .leftParen | .leftBracket => 8
  | _ => 0

theorem continues_of_operator? {kind : Kind} {op : BinaryOp} (h : level.operator? kind = some op) :
    continues kind = level.precedence := by
  unfold Level.operator? at h
  split at h <;> first | rfl | cases h

theorem operator?_of_continues {kind : Kind} (h : continues kind ≠ level.precedence) :
    level.operator? kind = none := by
  cases found : level.operator? kind with
  | none => rfl
  | some op => exact absurd (continues_of_operator? found) h

theorem operator?_kind (op : BinaryOp) : op.level.operator? op.kind = some op := by cases op <;> rfl

theorem continues_kind (op : BinaryOp) : continues op.kind = op.level.precedence :=
  continues_of_operator? (operator?_kind op)

theorem Level.precedence_pos (level : Level) : 0 < level.precedence := by cases level <;> decide

theorem Level.precedence_le (level : Level) : level.precedence ≤ 6 := by cases level <;> decide

theorem precedence_pos (e : Node) : 0 < e.precedence := by
  unfold Node.precedence
  split <;> first | decide | exact Level.precedence_pos _

theorem precedence_le (e : Node) : e.precedence ≤ 8 := by
  unfold Node.precedence
  split <;> first | decide | exact Nat.le_trans (Level.precedence_le _) (by decide)

/-- The reader of a level. -/
def reader : Nat → (c : Cursor) → Reading Node c.remaining
  | 1 => expression
  | 2 => binary .disjunction
  | 3 => binary .conjunction
  | 4 => binary .comparison
  | 5 => binary .sum
  | 6 => binary .product
  | 7 => unary
  | _ => postfixed

theorem reader_level (level : Level) : reader level.precedence = binary level := by
  cases level <;> rfl

/-- **What is read by the reader of a level**, up to spans. -/
def Reads (p : Nat) (e : Node) (c after : Cursor) : Prop :=
  ∃ node, node.bare = e.bare ∧ Yields (reader p c) node after

theorem Reads.operand (h : Reads (level.precedence + 1) e c after) :
    ∃ node, node.bare = e.bare ∧ Yields (operand level c) node after := by
  obtain ⟨node, same, yields⟩ := h
  refine ⟨node, same, ?_⟩
  cases level with
  | disjunction => exact yields_tighter rfl yields
  | conjunction => exact yields_tighter rfl yields
  | comparison => exact yields_tighter rfl yields
  | sum => exact yields_tighter rfl yields
  | product => exact yields_tightest rfl yields

theorem Reads.binary (h : Reads (level.precedence + 1) e c after)
    (stops : continues after.kind ≠ level.precedence) : Reads level.precedence e c after := by
  obtain ⟨node, same, yields⟩ := h.operand
  refine ⟨node, same, ?_⟩
  rw [reader_level]
  exact yields_binary yields (yields_chainEnd (operator?_of_continues stops))

theorem Reads.unary (h : Reads 8 e c after) : Reads 7 e c after := by
  obtain ⟨node, same, yields⟩ := h
  refine ⟨node, same, yields_postfixed ?_ yields⟩
  have first : Yields (postfixed c) node after := yields
  rw [postfixed] at first
  obtain ⟨_, _, first⟩ := first.of_bind
  exact prefixOperator?_of_startsPrimary (startsPrimary_of_yields first)

theorem Reads.expression (h : Reads 2 e c after) (stops : continues after.kind ≠ 1) :
    Reads 1 e c after := by
  obtain ⟨node, same, yields⟩ := h
  refine ⟨node, same, yields_target yields ?_⟩
  intro assigns
  rw [assigns] at stops
  exact stops rfl

/-- One level down. -/
theorem Reads.loosen (low : 0 < p) (h : Reads (p + 1) e c after) (stops : continues after.kind ≠ p) :
    Reads p e c after := by
  match p, low with
  | 1, _ => exact h.expression stops
  | 2, _ => exact @Reads.binary e .disjunction c after h stops
  | 3, _ => exact @Reads.binary e .conjunction c after h stops
  | 4, _ => exact @Reads.binary e .comparison c after h stops
  | 5, _ => exact @Reads.binary e .sum c after h stops
  | 6, _ => exact @Reads.binary e .product c after h stops
  | 7, _ => exact h.unary
  | _ + 8, _ => exact h

theorem Reads.lower (low : 0 < p) (le : p ≤ q) (h : Reads q e c after)
    (stops : continues after.kind < p) : Reads p e c after := by
  induction le with
  | refl => exact h
  | @step q below ih =>
    have reached : continues after.kind < q := Nat.lt_of_lt_of_le stops below
    exact ih (h.loosen (Nat.lt_of_lt_of_le low below) (Nat.ne_of_lt reached))

/-! ## Starts of chains -/

/-- **What is read so far**: an operand and the rest of a chain after it go on as after the whole. -/
def Opens (head : (c : Cursor) → Reading Node c.remaining)
    (tail : Node → (c : Cursor) → Reading Node (c.remaining + 1)) (e : Node) (c after : Cursor) : Prop :=
  ∃ first next node, Yields (head c) first next ∧ node.bare = e.bare ∧
    ∀ {whole last}, Yields (tail node after) whole last → Yields (tail first next) whole last

section Opens

variable {head : (c : Cursor) → Reading Node c.remaining}
variable {tail : Node → (c : Cursor) → Reading Node (c.remaining + 1)}

theorem Opens.single {node : Node} (h : Yields (head c) node after) (same : node.bare = e.bare) :
    Opens head tail e c after :=
  ⟨node, after, node, h, same, id⟩

theorem Opens.extend (h : Opens head tail target c c₁)
    (step : ∀ node : Node, node.bare = target.bare → ∃ longer : Node, longer.bare = e.bare ∧
      ∀ {whole last}, Yields (tail longer after) whole last → Yields (tail node c₁) whole last) :
    Opens head tail e c after := by
  obtain ⟨first, next, node, yields, same, rest⟩ := h
  obtain ⟨longer, whole, more⟩ := step node same
  exact ⟨first, next, longer, yields, whole, fun h => rest (more h)⟩

theorem Opens.reads_binary (h : Opens (operand level) (chain level) e c after)
    (stops : continues after.kind ≠ level.precedence) : Reads level.precedence e c after := by
  obtain ⟨first, next, node, yields, same, rest⟩ := h
  refine ⟨node, same, ?_⟩
  rw [reader_level]
  exact yields_binary yields (rest (yields_chainEnd (operator?_of_continues stops)))

theorem Opens.reads_postfixed (h : Opens primary suffixes e c after)
    (stops : continues after.kind < 8) : Reads 8 e c after := by
  obtain ⟨first, next, node, yields, same, rest⟩ := h
  refine ⟨node, same, yields_suffixed yields (rest (yields_noSuffix ?_ ?_ ?_))⟩
  all_goals
    intro goes
    rw [goes] at stops
    exact absurd stops (by decide)

end Opens

/-! ## Expressions -/

/-- A member that is not called: before arguments it would be read as a method. -/
def isField : Node → Bool
  | .member _ _ _ .get => true
  | _ => false

/-- **What is read off the words of an expression**, by the level of the expression.  A chain may go on
after the words, with a token of its own level. -/
structure ReadBack (e : Node) (c after : Cursor) : Prop where
  suffixed : e.precedence = 8 → (after.kind = .leftParen → isField e = false) →
    Opens primary suffixes e c after
  chained : ∀ level, e.precedence = level.precedence → continues after.kind ≤ level.precedence →
    Opens (operand level) (chain level) e c after
  reads : continues after.kind < e.precedence → Reads e.precedence e c after

theorem ReadBack.of_suffixed (eight : e.precedence = 8)
    (h : (after.kind = .leftParen → isField e = false) → Opens primary suffixes e c after) :
    ReadBack e c after := by
  refine ⟨fun _ => h, fun level same => ?_, fun stops => ?_⟩
  · have low := level.precedence_le
    omega
  · rw [eight] at stops ⊢
    refine (h fun paren => ?_).reads_postfixed stops
    rw [paren] at stops
    exact absurd stops (by decide)

theorem ReadBack.of_chained (same : e.precedence = level.precedence)
    (h : continues after.kind ≤ level.precedence → Opens (operand level) (chain level) e c after) :
    ReadBack e c after := by
  have low := level.precedence_le
  refine ⟨fun eight => by omega, fun other equal goes => ?_, fun stops => ?_⟩
  · obtain rfl : level = other := by
      have levels := same.symm.trans equal
      revert levels
      cases level <;> cases other <;> decide
    exact h goes
  · rw [same] at stops ⊢
    exact (h (Nat.le_of_lt stops)).reads_binary (Nat.ne_of_lt stops)

theorem ReadBack.of_reads (same : e.precedence = 1 ∨ e.precedence = 7)
    (h : continues after.kind < e.precedence → Reads e.precedence e c after) : ReadBack e c after := by
  refine ⟨fun eight => by omega, fun level equal => ?_, h⟩
  have low := level.precedence_le
  have high : 1 < level.precedence := by cases level <;> decide
  omega

/-- **An expression that is read back** wherever its words stand. -/
def IsRead (e : Node) : Prop := ∀ {c after : Cursor}, c.Spells e.words after → ReadBack e c after

namespace IsRead

/-- The words of an expression on their own. -/
theorem expression (own : IsRead e) (h : c.Spells e.words after)
    (stops : continues after.kind = 0) :
    ∃ node, node.bare = e.bare ∧ Yields (expression c) node after := by
  have positive := precedence_pos e
  have whole := (own h).reads (by omega)
  exact whole.lower (by decide) positive (by omega)

/-- The words of an expression in parentheses. -/
theorem enclosed (own : IsRead e) (h : c.Spells (Node.enclosed e.words) after) :
    ∃ node, node.bare = e.bare ∧ Yields (primary c) node after := by
  obtain ⟨c₁, opening, h⟩ := h.head
  obtain ⟨c₂, inside, h⟩ := h.split
  obtain ⟨c₃, closing, h⟩ := h.head
  obtain rfl := h.eq_of_nil
  have stops : continues c₂.kind = 0 := by
    rw [closing.fixed]
    rfl
  obtain ⟨node, same, yields⟩ := own.expression inside stops
  exact ⟨node, same, yields_enclosed opening yields closing⟩

/-- The words of an operand. -/
theorem operand (own : IsRead e) (low : 0 < demand) (high : demand ≤ 8)
    (h : c.Spells (Node.operandWords demand e e.words) after)
    (stops : continues after.kind < demand) : Reads demand e c after := by
  unfold Node.operandWords at h
  split at h
  next =>
    obtain ⟨node, same, yields⟩ := own.enclosed h
    have primary : Opens primary suffixes e c after := .single yields same
    exact (primary.reads_postfixed (by omega)).lower low high stops
  next tight =>
    have whole := (own h).reads (by omega)
    exact whole.lower low (by omega) stops

/-- The words of what operators of a level may follow. -/
theorem chained (own : IsRead e) (h : c.Spells (Node.operandWords level.precedence e e.words) after)
    (goes : continues after.kind ≤ level.precedence) :
    Opens (Parser.operand level) (chain level) e c after := by
  have low := level.precedence_pos
  have high := level.precedence_le
  by_cases same : e.precedence = level.precedence
  · rw [Node.operandWords, if_neg (by omega)] at h
    exact (own h).chained level same goes
  · have demands : e.precedence < level.precedence + 1 ↔ e.precedence < level.precedence := by omega
    have words : Node.operandWords (level.precedence + 1) e e.words =
        Node.operandWords level.precedence e e.words := by
      simp only [Node.operandWords, demands]
    have tighter : Reads (level.precedence + 1) e c after :=
      own.operand (by omega) (by omega) (words ▸ h) (by omega)
    obtain ⟨node, same, yields⟩ := tighter.operand
    exact .single yields same

/-- The words of what postfix forms may follow. -/
theorem suffixed (own : IsRead e) (h : c.Spells (Node.operandWords 8 e e.words) after)
    (other : after.kind = .leftParen → isField e = false) : Opens primary suffixes e c after := by
  have high := precedence_le e
  unfold Node.operandWords at h
  split at h
  next =>
    obtain ⟨node, same, yields⟩ := own.enclosed h
    exact .single yields same
  next tight => exact (own h).suffixed (by omega) other

end IsRead

end HostScript.Parser
