import HostScript.Proofs.Syntax.Grammar
import HostScript.Proofs.Syntax.Layout
import HostScript.Proofs.Syntax.Unmeasured

/-!
# Proofs/Syntax/Termination — reading ends, and takes each token at most once

What is attempted without a measure ends as the reader with one does, whatever tokens and errors follow, and
has then taken the tokens that come first (`Unmeasured.EndsAs`).  A chain of tokens that a cursor has taken,
`Cursor.Consumes`, never goes back and never takes the end, so that no token is in it twice.  There is one
lemma for each form, by the recursion of the readers; that a reading has to move on is what they go down by,
and no loop of the grammar goes round without taking a token: `reading_ends`.
-/

namespace HostScript

/-! ## Chains of tokens -/

namespace Cursor

/-- Where a cursor moves there is nothing left and it comes to the end, or it comes to the next token. -/
theorem Moves.upcoming {c c₁ : Cursor} (h : c.Moves c₁) :
    (c.upcoming = [] ∧ c₁.kind = .endOfInput) ∨ c.upcoming = .ok c₁.current :: c₁.upcoming := by
  have step := h.advance
  unfold Cursor.advance at step
  dsimp only at step
  split at step
  next none =>
    obtain rfl := (Prod.mk.inj step).2
    exact .inl ⟨none, rfl⟩
  next more =>
    obtain rfl := (Prod.mk.inj step).2
    exact .inr more
  next => cases step

/-- **The tokens that are taken** between two cursors, one after the other and none of them the end. -/
inductive Consumes : Cursor → List Token → Cursor → Prop where
  | nil {c : Cursor} : Consumes c [] c
  | cons {c c₁ last : Cursor} {tokens : List Token} :
    c.Moves c₁ → Consumes c₁ tokens last → Consumes c (c.current :: tokens) last

namespace Consumes

variable {c c₁ last : Cursor} {tokens others : List Token}

theorem single (h : c.Moves c₁) : c.Consumes [c.current] c₁ := .cons h .nil

theorem append (first : c.Consumes tokens c₁) (rest : c₁.Consumes others last) :
    c.Consumes (tokens ++ others) last := by
  induction first with
  | nil => exact rest
  | cons moves _ ih => exact .cons moves (ih rest)

/-- Nothing is taken just where the cursor stays. -/
theorem eq_of_nil (h : c.Consumes [] last) : c = last := by
  cases h
  rfl

/-- At the end nothing is taken. -/
theorem eq_nil (h : c.Consumes tokens last) (ended : c.kind = .endOfInput) : tokens = [] := by
  cases h with
  | nil => rfl
  | cons moves => exact absurd ended moves.held

/-- **The tokens come first** at the cursor, in order and without an error among them. -/
theorem isPrefix (h : c.Consumes tokens last) : tokens.map .ok <+: .ok c.current :: c.upcoming := by
  induction h with
  | nil => exact List.nil_prefix
  | cons moves rest ih =>
    rw [List.map_cons, List.cons_prefix_cons]
    refine ⟨rfl, ?_⟩
    obtain ⟨-, ended⟩ | more := moves.upcoming
    · -- Only the end follows, which is not taken.
      rw [rest.eq_nil ended]
      exact List.nil_prefix
    · rw [more]
      exact ih

/-- **Up to the end all tokens are taken**, where only the end says that it is the end. -/
theorem all (h : c.Consumes tokens last) (ended : last.kind = .endOfInput) (held : c.kind ≠ .endOfInput)
    (proper : ∀ token, .ok token ∈ c.upcoming → token.kind ≠ .endOfInput) :
    .ok c.current :: c.upcoming = tokens.map .ok := by
  induction h with
  | nil => exact absurd ended held
  | cons moves rest ih =>
    rw [List.map_cons]
    refine congrArg (List.cons _) ?_
    obtain ⟨none, nothing⟩ | more := moves.upcoming
    · rw [none, rest.eq_nil nothing, List.map_nil]
    · rw [more] at proper ⊢
      exact ih ended (proper _ List.mem_cons_self) fun other mem =>
        proper other (List.mem_cons_of_mem _ mem)

end Consumes

end Cursor

open HostScript.Parser (Read Reading Level BranchEnd)

namespace Unmeasured

variable {α β : Type} {n m : Nat} {c : Cursor}

/-! ## Attempts that end -/

/-- **An attempt that ends as a reading does**: with the same answer, having taken the tokens up to the cursor
after what has been read, or up to where that has failed. -/
def EndsAs (x : Attempt α) (c : Cursor) : Reading α n → Prop
  | .ok read => ∃ tokens, c.Consumes tokens read.next ∧
    ∀ taken, x ⟨c, taken⟩ = some (.ok read.value, ⟨read.next, taken ++ tokens⟩)
  | .error e => ∃ tokens place after, c.Consumes tokens place ∧
    ∀ taken, x ⟨c, taken⟩ = some (.error e, ⟨after, taken ++ tokens⟩)

theorem EndsAs.done {v : α} {fewer : c.remaining < n} :
    EndsAs (pure v) c (.ok ⟨v, c, fewer⟩ : Reading α n) :=
  ⟨[], .nil, fun taken => by rw [List.append_nil]; rfl⟩

theorem EndsAs.fail (e : SyntaxError) : EndsAs (throw e) c (.error e : Reading α n) :=
  ⟨[], c, c, .nil, fun taken => by rw [List.append_nil]; rfl⟩

theorem bind_ok {x : Attempt α} {k : α → Attempt β} {tape after : Tape} {v : α}
    (h : x tape = some (.ok v, after)) : (x >>= k) tape = k v after := by
  show (x tape >>= fun (r, after) => _) = _
  rw [h]
  rfl

theorem bind_error {x : Attempt α} {k : α → Attempt β} {tape after : Tape} {e : SyntaxError}
    (h : x tape = some (.error e, after)) : (x >>= k) tape = some (.error e, after) := by
  show (x tape >>= fun (r, after) => _) = _
  rw [h]
  rfl

/-- **One after the other**: the tokens of the first attempt and those of the second. -/
theorem EndsAs.bind {x : Attempt α} {k : α → Attempt β} {r : Reading α n} {k' : Read α n → Reading β m}
    (h : EndsAs x c r) (next : ∀ v c₁ fewer, EndsAs (k v) c₁ (k' ⟨v, c₁, fewer⟩)) :
    EndsAs (x >>= k) c (r >>= k') := by
  cases r with
  | error e =>
    obtain ⟨tokens, place, after, way, runs⟩ := h
    exact ⟨tokens, place, after, way, fun taken => bind_error (runs taken)⟩
  | ok read =>
    obtain ⟨tokens, way, runs⟩ := h
    have rest := next read.value read.next read.fewer
    show EndsAs (x >>= k) c (k' read)
    cases second : k' read with
    | ok other =>
      rw [second] at rest
      obtain ⟨more, further, goesOn⟩ := rest
      refine ⟨tokens ++ more, way.append further, fun taken => ?_⟩
      rw [bind_ok (runs taken), goesOn, List.append_assoc]
    | error e =>
      rw [second] at rest
      obtain ⟨more, place, after, further, goesOn⟩ := rest
      refine ⟨tokens ++ more, place, after, way.append further, fun taken => ?_⟩
      rw [bind_ok (runs taken), goesOn, List.append_assoc]

/-- The last attempt, whose reading only loses count. -/
theorem EndsAs.last {x : Attempt α} {r : Reading α n} {k' : Read α n → Reading α m} (h : EndsAs x c r)
    (same : ∀ read, ∃ fewer, k' read = .ok ⟨read.value, read.next, fewer⟩) : EndsAs x c (r >>= k') := by
  cases r with
  | error e => exact h
  | ok read =>
    obtain ⟨fewer, made⟩ := same read
    show EndsAs x c (k' read)
    rw [made]
    exact h

/-- What is done with the cursor. -/
theorem EndsAs.here {f : Cursor → Attempt α} {r : Reading α n} (h : EndsAs (f c) c r) :
    EndsAs (here >>= f) c r := by
  cases r <;> exact h

theorem EndsAs.spanFrom {start : Span} {f : Span → Attempt α} {r : Reading α n}
    (h : EndsAs (f (c.spanFrom start)) c r) : EndsAs (spanFrom start >>= f) c r := by
  cases r <;> exact h

theorem EndsAs.dite {p : Prop} [Decidable p] {yes no : Attempt α} {yes' : p → Reading α n}
    {no' : ¬p → Reading α n} (first : ∀ h, EndsAs yes c (yes' h)) (second : ∀ h, EndsAs no c (no' h)) :
    EndsAs (if p then yes else no) c (if h : p then yes' h else no' h) := by
  split
  next h => exact first h
  next h => exact second h

theorem EndsAs.ite {p : Prop} [Decidable p] {yes no : Attempt α} {yes' no' : Reading α n}
    (first : EndsAs yes c yes') (second : EndsAs no c no') :
    EndsAs (if p then yes else no) c (if p then yes' else no') :=
  .dite (fun _ => first) fun _ => second

/-! ### Tokens -/

theorem ends_refuse (expected : String) :
    EndsAs (refuse expected) c (Parser.refuse c expected : Reading α n) := .here (.fail _)

theorem take_of_ok {token : Token} {after : Cursor} (step : c.advance = (.ok token, after))
    (taken : List Token) : take ⟨c, taken⟩ = some (.ok token, ⟨after, taken ++ [token]⟩) := by
  show settle taken c.advance ⟨c, taken⟩ = _
  rw [step]
  rfl

theorem take_of_error {e : LexError} {after : Cursor} (step : c.advance = (.error e, after))
    (taken : List Token) : take ⟨c, taken⟩ = some (.error (.lex e), ⟨after, taken⟩) := by
  show settle taken c.advance ⟨c, taken⟩ = _
  rw [step]
  rfl

theorem ends_take (held : c.kind ≠ .endOfInput) : EndsAs take c (Parser.shift c held) := by
  unfold Parser.shift
  split
  next token after step =>
    obtain rfl := Cursor.eq_current_of_advance step
    exact ⟨[c.current], .single ⟨held, step⟩, take_of_ok step⟩
  next e after step =>
    refine ⟨[], c, after, .nil, fun taken => ?_⟩
    rw [take_of_error step, List.append_nil]

theorem ends_require (kind : Kind) (word : kind ≠ .endOfInput) :
    EndsAs (require kind) c (Parser.require c kind word) := by
  unfold require Parser.require
  exact .here (.dite (fun _ => ends_take _) fun _ => ends_refuse _)

theorem ends_skip (kind : Kind) (word : kind ≠ .endOfInput) :
    EndsAs (skip kind) c (Parser.skip c kind word) := by
  unfold skip Parser.skip
  refine .here (.dite (fun _ => ?_) fun _ => .done)
  exact .bind (ends_take _) fun _ _ _ => .done

/-- A constant, or the failure to make one of its token. -/
theorem ends_literal (t : Token) {fewer : c.remaining < n} :
    EndsAs (match Parser.literal t with
        | .ok value => return .literal t.span value
        | .error e => throw (.parse e)) c
      (do let value ← (Parser.literal t).mapError .parse
          return ⟨.literal t.span value, c, fewer⟩ : Reading Node n) := by
  cases Parser.literal t with
  | ok value => exact .done
  | error e => exact .fail _

/-! ### Names -/

theorem ends_names (c : Cursor) : EndsAs Form.names.read c (Parser.names c) := by
  rw [Form.read, Parser.names]
  refine .here (.dite (fun _ => ?_) fun _ => ?_)
  · exact .bind (ends_take _) fun _ _ _ => .done
  · refine .bind (ends_require _ _) fun name c₁ h₁ => ?_
    refine .bind (ends_skip _ _) fun _ c₂ h₂ => ?_
    exact .bind (ends_names c₂) fun _ _ _ => .done
termination_by c.remaining
decreasing_by omega

theorem ends_parameters (c : Cursor) : EndsAs Form.parameters.read c (Parser.parameters c) := by
  rw [Form.read, Parser.parameters]
  refine .bind (ends_require _ _) fun _ c₁ _ => ?_
  exact .last (ends_names c₁) fun _ => ⟨_, rfl⟩

theorem ends_path (c : Cursor) : EndsAs Form.path.read c (Parser.path c) := by
  rw [Form.read, Parser.path]
  refine .here (.dite (fun _ => ?_) fun _ => .done)
  refine .bind (ends_take _) fun _ c₁ h₁ => ?_
  refine .bind (ends_require _ _) fun name c₂ h₂ => ?_
  exact .bind (ends_path c₂) fun _ _ _ => .done
termination_by c.remaining
decreasing_by omega

theorem ends_dotted (target : Node) (c : Cursor) :
    EndsAs (Form.dotted target).read c (Parser.dotted target c) := by
  rw [Form.read, Parser.dotted]
  refine .here (.dite (fun _ => ?_) fun _ => .done)
  refine .bind (ends_take _) fun _ c₁ h₁ => ?_
  refine .bind (ends_require _ _) fun name c₂ h₂ => .spanFrom ?_
  exact .last (ends_dotted _ c₂) fun _ => ⟨_, rfl⟩
termination_by c.remaining
decreasing_by omega

/-! ### Expressions and statements -/

mutual

theorem ends_expression (c : Cursor) : EndsAs Form.expression.read c (Parser.expression c) := by
  rw [Form.read, Parser.expression]
  refine .bind (ends_binary .disjunction c) fun target c₁ h₁ => .here (.dite (fun _ => ?_) fun _ => .done)
  refine .bind (ends_take _) fun _ c₂ h₂ => ?_
  exact .bind (ends_expression c₂) fun _ _ _ => .done
termination_by 32 * c.remaining + 14
decreasing_by
  · simp only [Level.depth]
    omega
  · omega

theorem ends_binary (level : Level) (c : Cursor) :
    EndsAs (Form.binary level).read c (Parser.binary level c) := by
  rw [Form.read, Parser.binary]
  refine .bind (ends_operand level c) fun left c₁ h₁ => ?_
  exact .last (ends_chain level left c₁) fun _ => ⟨_, rfl⟩
termination_by 32 * c.remaining + 2 * level.depth + 3
decreasing_by all_goals omega

theorem ends_operand (level : Level) (c : Cursor) :
    EndsAs (Form.operand level).read c (Parser.operand level c) := by
  rw [Parser.operand]
  split
  next tighter tight =>
    have shallower := Level.depth_of_tighter? tight
    rw [Form.read, tight]
    exact ends_binary tighter c
  next tight =>
    rw [Form.read, tight]
    exact ends_unary c
termination_by 32 * c.remaining + 2 * level.depth + 2
decreasing_by
  · omega
  · have := level.depth_pos
    omega

theorem ends_chain (level : Level) (left : Node) (c : Cursor) :
    EndsAs (Form.chain level left).read c (Parser.chain level left c) := by
  rw [Parser.chain]
  split
  next op operator =>
    rw [Form.read]
    refine .here ?_
    split
    next other found =>
      obtain rfl := Option.some.inj (found.symm.trans operator)
      refine .bind (ends_take _) fun _ c₁ h₁ => ?_
      refine .bind (ends_operand level c₁) fun right c₂ h₂ => ?_
      exact .last (ends_chain level _ c₂) fun _ => ⟨_, rfl⟩
    next found => cases found.symm.trans operator
  next other =>
    rw [Form.read]
    refine .here ?_
    rw [other]
    exact .done
termination_by 32 * c.remaining
decreasing_by
  · have : level.depth ≤ 5 := by cases level <;> decide
    omega
  · omega

theorem ends_unary (c : Cursor) : EndsAs Form.unary.read c (Parser.unary c) := by
  rw [Parser.unary]
  split
  next op operator =>
    rw [Form.read]
    refine .here ?_
    split
    next other found =>
      obtain rfl := Option.some.inj (found.symm.trans operator)
      refine .bind (ends_take _) fun token c₁ h₁ => ?_
      exact .bind (ends_unary c₁) fun operand c₂ h₂ => .spanFrom .done
    next found => cases found.symm.trans operator
  next other =>
    rw [Form.read]
    refine .here ?_
    rw [other]
    exact ends_postfixed c
termination_by 32 * c.remaining + 2
decreasing_by all_goals omega

theorem ends_postfixed (c : Cursor) : EndsAs Form.postfixed.read c (Parser.postfixed c) := by
  rw [Form.read, Parser.postfixed]
  refine .bind (ends_primary c) fun node c₁ h₁ => ?_
  exact .last (ends_suffixes node c₁) fun _ => ⟨_, rfl⟩
termination_by 32 * c.remaining + 1
decreasing_by all_goals omega

theorem ends_suffixes (node : Node) (c : Cursor) :
    EndsAs (Form.suffixes node).read c (Parser.suffixes node c) := by
  rw [Form.read, Parser.suffixes]
  refine .here (.dite (fun _ => ?_) fun _ => .here (.dite (fun _ => ?_) fun _ => .here
    (.dite (fun _ => ?_) fun _ => .done)))
  · refine .bind (ends_take _) fun _ c₁ h₁ => ?_
    refine .bind (ends_require _ _) fun name c₂ h₂ => .here (.spanFrom ?_)
    exact .last (ends_suffixes _ c₂) fun _ => ⟨_, rfl⟩
  · refine .bind (ends_arguments c) fun args c₁ h₁ => .spanFrom ?_
    exact .last (ends_suffixes _ c₁) fun _ => ⟨_, rfl⟩
  · refine .bind (ends_take _) fun _ c₁ h₁ => ?_
    refine .bind (ends_expression c₁) fun index c₂ h₂ => ?_
    refine .bind (ends_require _ _) fun _ c₃ h₃ => .spanFrom ?_
    exact .last (ends_suffixes _ c₃) fun _ => ⟨_, rfl⟩
termination_by 32 * c.remaining + 17
decreasing_by all_goals omega

theorem ends_arguments (c : Cursor) : EndsAs Form.arguments.read c (Parser.arguments c) := by
  rw [Form.read, Parser.arguments]
  refine .bind (ends_require _ _) fun _ c₁ h₁ => ?_
  exact .last (ends_argumentList c₁) fun _ => ⟨_, rfl⟩
termination_by 32 * c.remaining + 16
decreasing_by all_goals omega

theorem ends_argumentList (c : Cursor) : EndsAs Form.argumentList.read c (Parser.argumentList c) := by
  rw [Form.read, Parser.argumentList]
  refine .here (.dite (fun _ => ?_) fun _ => .here (.ite (ends_refuse _) ?_))
  · exact .bind (ends_take _) fun _ _ _ => .done
  · refine .bind (ends_expression c) fun arg c₁ h₁ => ?_
    refine .bind (ends_skip _ _) fun _ c₂ h₂ => ?_
    exact .bind (ends_argumentList c₂) fun _ _ _ => .done
termination_by 32 * c.remaining + 15
decreasing_by all_goals omega

theorem ends_primary (c : Cursor) : EndsAs Form.primary.read c (Parser.primary c) := by
  rw [Form.read, Parser.primary]
  refine .here (.dite (fun _ => ?enclosed) fun _ => .here (.dite (fun _ => ?constant) fun _ => .here
    (.dite (fun _ => ?named) fun _ => .here (.dite (fun _ => ?create) fun _ => .here
      (.dite (fun _ => ?lambda) fun _ => ends_refuse _)))))
  case enclosed =>
    refine .bind (ends_take _) fun _ c₁ h₁ => ?_
    refine .bind (ends_expression c₁) fun inner c₂ h₂ => ?_
    exact .bind (ends_require _ _) fun _ _ _ => .done
  case constant => exact .bind (ends_take _) fun token _ _ => ends_literal token
  case named => exact .bind (ends_take _) fun _ _ _ => .done
  case create =>
    refine .bind (ends_take _) fun token c₁ h₁ => ?_
    refine .bind (ends_require _ _) fun first c₂ h₂ => ?_
    refine .bind (ends_dotted _ c₂) fun target c₃ h₃ => ?_
    exact .bind (ends_arguments c₃) fun args c₄ h₄ => .spanFrom .done
  case lambda =>
    refine .bind (ends_take _) fun token c₁ h₁ => ?_
    refine .bind (ends_parameters c₁) fun params c₂ h₂ => ?_
    exact .bind (ends_statement c₂) fun body c₃ h₃ => .spanFrom .done
termination_by 32 * c.remaining
decreasing_by all_goals omega

theorem ends_statement (c : Cursor) : EndsAs Form.statement.read c (Parser.statement c) := by
  rw [Form.read, Parser.statement]
  refine .here (.dite (fun _ => ?empty) fun _ => .here (.dite (fun _ => ?block) fun _ => .here
    (.dite (fun _ => ?thenBlock) fun _ => .here (.dite (fun _ => ?loop) fun _ => .here
      (.dite (fun _ => ?choose) fun _ => .here (.dite (fun _ => ?function) fun _ => .here
        (.dite (fun _ => ?give) fun _ => .here (.dite (fun _ => ?declare) fun _ => .here
          (.dite (fun _ => ?importFrom) fun _ => .here (.dite (fun _ => ?leave) fun _ =>
            .here ?plain))))))))))
  case empty => exact .bind (ends_take _) fun _ _ _ => .done
  case block =>
    refine .bind (ends_take _) fun token c₁ h₁ => ?_
    exact .bind (ends_braceBody c₁) fun body c₂ h₂ => .spanFrom .done
  case thenBlock => exact .bind (ends_thenBlock c) fun _ _ _ => .done
  case loop =>
    refine .bind (ends_take _) fun token c₁ h₁ => ?_
    exact .bind (ends_statement c₁) fun body c₂ h₂ => .spanFrom .done
  case choose =>
    refine .bind (ends_take _) fun token c₁ h₁ => ?_
    refine .bind (ends_branchList c₁) fun arms c₂ h₂ => ?_
    exact .bind (ends_elsePart arms.2 c₂) fun otherwise c₃ h₃ => .spanFrom .done
  case function =>
    refine .bind (ends_take _) fun token c₁ h₁ => ?_
    refine .bind (ends_require _ _) fun name c₂ h₂ => ?_
    refine .bind (ends_parameters c₂) fun params c₃ h₃ => ?_
    exact .bind (ends_statement c₃) fun body c₄ h₄ => .spanFrom .done
  case give =>
    refine .bind (ends_take _) fun token c₁ h₁ => ?_
    refine .bind (ends_skip _ _) fun bare c₂ h₂ => .here (.ite (.spanFrom .done) ?_)
    refine .bind (ends_expression c₂) fun value c₃ h₃ => ?_
    exact .bind (ends_skip _ _) fun _ c₄ h₄ => .spanFrom .done
  case declare =>
    refine .bind (ends_take _) fun token c₁ h₁ => ?_
    refine .bind (ends_require _ _) fun name c₂ h₂ => ?_
    refine .bind (ends_initializer c₂) fun init c₃ h₃ => ?_
    exact .bind (ends_skip _ _) fun _ c₄ h₄ => .spanFrom .done
  case importFrom =>
    refine .bind (ends_take _) fun token c₁ h₁ => ?_
    refine .bind (ends_require _ _) fun first c₂ h₂ => ?_
    refine .bind (ends_path c₂) fun more c₃ h₃ => ?_
    refine .bind (ends_skip _ _) fun renamed c₄ h₄ => .ite ?_ ?_
    · refine .bind (ends_require _ _) fun name c₅ h₅ => ?_
      exact .bind (ends_skip _ _) fun _ c₆ h₆ => .spanFrom .done
    · exact .bind (ends_skip _ _) fun _ c₅ h₅ => .spanFrom .done
  case leave =>
    refine .bind (ends_take _) fun token c₁ h₁ => .here (.dite (fun _ => ?_) fun _ => ?_)
    · refine .bind (ends_take _) fun _ c₂ h₂ => ?_
      refine .bind (ends_expression c₂) fun value c₃ h₃ => ?_
      refine .bind (ends_require _ _) fun _ c₄ h₄ => ?_
      exact .bind (ends_skip _ _) fun _ c₅ h₅ => .spanFrom .done
    · exact .bind (ends_skip _ _) fun _ c₂ h₂ => .spanFrom .done
  case plain =>
    refine .bind (ends_expression c) fun value c₁ h₁ => ?_
    exact .bind (ends_skip _ _) fun _ c₂ h₂ => .spanFrom .done
termination_by 32 * c.remaining + 15
decreasing_by all_goals omega

theorem ends_initializer (c : Cursor) : EndsAs Form.initializer.read c (Parser.initializer c) := by
  rw [Form.read, Parser.initializer]
  refine .here (.dite (fun _ => ?_) fun _ => .done)
  refine .bind (ends_take _) fun _ c₁ h₁ => ?_
  exact .bind (ends_expression c₁) fun _ _ _ => .done
termination_by 32 * c.remaining
decreasing_by omega

theorem ends_braceBody (c : Cursor) : EndsAs Form.braceBody.read c (Parser.braceBody c) := by
  rw [Form.read, Parser.braceBody]
  refine .here (.dite (fun _ => ?_) fun _ => .here (.ite (ends_refuse _) ?_))
  · exact .bind (ends_take _) fun _ _ _ => .done
  · refine .bind (ends_statement c) fun first c₁ h₁ => ?_
    exact .bind (ends_braceBody c₁) fun _ _ _ => .done
termination_by 32 * c.remaining + 16
decreasing_by all_goals omega

theorem ends_thenBlock (c : Cursor) : EndsAs Form.thenBlock.read c (Parser.thenBlock c) := by
  rw [Form.read, Parser.thenBlock]
  refine .bind (ends_require _ _) fun token c₁ h₁ => ?_
  exact .bind (ends_thenBody c₁) fun _ c₂ h₂ => .spanFrom .done
termination_by 32 * c.remaining
decreasing_by omega

theorem ends_thenBody (c : Cursor) : EndsAs Form.thenBody.read c (Parser.thenBody c) := by
  rw [Form.read, Parser.thenBody]
  refine .here (.dite (fun _ => ?_) fun _ => .here (.here (.ite .done (.here
    (.ite (ends_refuse _) ?_)))))
  · exact .bind (ends_take _) fun _ _ _ => .done
  · refine .bind (ends_statement c) fun first c₁ h₁ => ?_
    exact .bind (ends_thenBody c₁) fun _ _ _ => .done
termination_by 32 * c.remaining + 16
decreasing_by all_goals omega

theorem ends_branchBody (c : Cursor) : EndsAs Form.branchBody.read c (Parser.branchBody c) := by
  rw [Form.read, Parser.branchBody]
  refine .here (.ite (ends_thenBlock c) ?_)
  exact .bind (ends_statement c) fun _ _ _ => .done
termination_by 32 * c.remaining + 16
decreasing_by all_goals omega

theorem ends_branchList (c : Cursor) : EndsAs Form.branchList.read c (Parser.branchList c) := by
  rw [Form.read, Parser.branchList]
  refine .bind (ends_expression c) fun test c₁ h₁ => ?_
  refine .bind (ends_branchBody c₁) fun body c₂ h₂ => .here (.dite (fun _ => ?_) fun _ => .done)
  refine .bind (ends_take _) fun _ c₃ h₃ => ?_
  exact .bind (ends_branchList c₃) fun _ _ _ => .done
termination_by 32 * c.remaining + 15
decreasing_by all_goals omega

theorem ends_elsePart (ending : BranchEnd) (c : Cursor) :
    EndsAs (Form.elsePart ending).read c (Parser.elsePart ending c) := by
  rw [Form.read.eq_def, Parser.elsePart.eq_def]
  dsimp only
  refine .here (.dite (fun _ => ?_) fun _ => ?_)
  · refine .bind (ends_take _) fun token c₁ h₁ => ?_
    cases ending with
    | owing =>
      refine .bind (ends_thenBody c₁) fun last c₂ h₂ => ?_
      obtain ⟨body, ending⟩ := last
      cases ending with
      | owing => exact ends_refuse _
      | closed => exact .spanFrom .done
    | closed => exact .bind (ends_statement c₁) fun _ _ _ => .done
  · cases ending with
    | owing => exact ends_refuse _
    | closed => exact .done
termination_by 32 * c.remaining
decreasing_by all_goals omega

end

theorem ends_statements (c : Cursor) : EndsAs Form.statements.read c (Parser.statements c) := by
  rw [Form.read, Parser.statements]
  refine .here (.ite .done ?_)
  refine .bind (ends_statement c) fun first c₁ h₁ => ?_
  exact .bind (ends_statements c₁) fun _ _ _ => .done
termination_by c.remaining
decreasing_by omega

/-! ## All forms -/

namespace Form

/-- How many tokens a form takes at least. -/
def least : Form α → Nat
  | path | dotted _ | chain _ _ | suffixes _ | initializer | thenBody | elsePart _ | statements => 0
  | _ => 1

/-- **The reader of a form**, which carries a measure. -/
def reader : (form : Form α) → (c : Cursor) → Reading α (c.remaining + 1 - form.least)
  | names => Parser.names
  | parameters => Parser.parameters
  | path => Parser.path
  | dotted target => Parser.dotted target
  | expression => Parser.expression
  | binary level => Parser.binary level
  | operand level => Parser.operand level
  | chain level left => Parser.chain level left
  | unary => Parser.unary
  | postfixed => Parser.postfixed
  | suffixes node => Parser.suffixes node
  | arguments => Parser.arguments
  | argumentList => Parser.argumentList
  | primary => Parser.primary
  | statement => Parser.statement
  | initializer => Parser.initializer
  | braceBody => Parser.braceBody
  | thenBlock => Parser.thenBlock
  | thenBody => Parser.thenBody
  | branchBody => Parser.branchBody
  | branchList => Parser.branchList
  | elsePart ending => Parser.elsePart ending
  | statements => Parser.statements

theorem least_le_one (form : Form α) : form.least ≤ 1 := by
  cases form <;> simp only [least] <;> decide

/-- **A form that ends**, from every cursor and whatever has been taken before: with the answer of its
reader, having taken tokens that come first there, one after the other.  Where it succeeds the cursor stands
after them, and they are at least so many as the form takes. -/
def Ends (form : Form α) : Prop :=
  ∀ c taken, ∃ tokens after,
    form.read ⟨c, taken⟩ = some ((form.reader c).map Read.value, ⟨after, taken ++ tokens⟩) ∧
    tokens.map .ok <+: .ok c.current :: c.upcoming ∧
    ∀ read, form.reader c = .ok read →
      c.Consumes tokens after ∧ after = read.next ∧ form.least ≤ tokens.length

theorem endsAs : (form : Form α) → (c : Cursor) → EndsAs form.read c (form.reader c)
  | names => ends_names
  | parameters => ends_parameters
  | path => ends_path
  | dotted target => ends_dotted target
  | expression => ends_expression
  | binary level => ends_binary level
  | operand level => ends_operand level
  | chain level left => ends_chain level left
  | unary => ends_unary
  | postfixed => ends_postfixed
  | suffixes node => ends_suffixes node
  | arguments => ends_arguments
  | argumentList => ends_argumentList
  | primary => ends_primary
  | statement => ends_statement
  | initializer => ends_initializer
  | braceBody => ends_braceBody
  | thenBlock => ends_thenBlock
  | thenBody => ends_thenBody
  | branchBody => ends_branchBody
  | branchList => ends_branchList
  | elsePart ending => ends_elsePart ending
  | statements => ends_statements

/-- **A reading that has to move on takes a token.** -/
theorem least_le_length {form : Form α} {tokens : List Token} {read : Read α (c.remaining + 1 - form.least)}
    (way : c.Consumes tokens read.next) : form.least ≤ tokens.length := by
  cases tokens with
  | nil =>
    -- The cursor stays, and as many tokens remain as before.
    have fewer := read.fewer
    rw [← way.eq_of_nil] at fewer
    omega
  | cons => exact form.least_le_one.trans (Nat.le_add_left _ _)

/-- **All forms end.** -/
theorem ends (form : Form α) : form.Ends := by
  intro c taken
  have whole := form.endsAs c
  cases outcome : form.reader c with
  | ok read =>
    rw [outcome] at whole
    obtain ⟨tokens, way, runs⟩ := whole
    refine ⟨tokens, read.next, runs taken, way.isPrefix, fun other same => ?_⟩
    cases same
    exact ⟨way, rfl, least_le_length way⟩
  | error e =>
    rw [outcome] at whole
    obtain ⟨tokens, place, after, way, runs⟩ := whole
    exact ⟨tokens, after, runs taken, way.isPrefix, nofun⟩

end Form

end Unmeasured

/-! ## Sources -/

theorem parse_of_first {source : String} {c : Cursor} (first : Cursor.ofSource source = .ok c) :
    parse source =
      (Parser.statements c).map fun read => .block (read.next.spanFrom c.current.span) read.value := by
  unfold parse
  rw [first]
  show (Parser.statements c >>= _) = _
  cases Parser.statements c <;> rfl

/-- From its first cursor a source is read to its tree or its error, and to its end where a tree is made. -/
theorem Unmeasured.parse_of_first {source : String} {c : Cursor} (first : Cursor.ofSource source = .ok c) :
    ∃ taken, Unmeasured.parse source = some (HostScript.parse source, taken) ∧
      taken.map .ok <+: .ok c.current :: c.upcoming ∧
      ∀ tree, HostScript.parse source = .ok tree →
        ∃ after, c.Consumes taken after ∧ after.kind = .endOfInput := by
  obtain ⟨taken, after, runs, order, stands⟩ := Form.statements.ends c []
  dsimp only [Form.reader, Form.least, Nat.sub_zero] at runs stands
  have ended := Parser.writes_statements c
  unfold Unmeasured.parse
  rw [HostScript.parse_of_first first, first]
  dsimp only
  rw [runs]
  refine ⟨taken, ?_⟩
  cases read : Parser.statements c with
  | error e => exact ⟨rfl, order, nofun⟩
  | ok body =>
    rw [read] at ended
    obtain ⟨way, rfl, -⟩ := stands body read
    exact ⟨rfl, order, fun _ _ => ⟨body.next, way, ended.2⟩⟩

/-- **Reading ends.**  All forms of the grammar, its loops among them, end from every cursor, whatever tokens
and errors follow there, and an expression or a statement that is read takes a token.  A source is read to its
tree or its error; the tokens that are taken come first in its stream, each of them once, and they are all
there is where a tree is made. -/
theorem reading_ends : (∀ {α : Type} (form : Unmeasured.Form α), form.Ends) ∧ ∀ source, ∃ taken,
    Unmeasured.parse source = some (parse source, taken) ∧
    taken.map .ok <+: (TokenStream.ofSource source.toList).items ∧
    ∀ tree, parse source = .ok tree → (TokenStream.ofSource source.toList).items = taken.map .ok := by
  refine ⟨Unmeasured.Form.ends, fun source => ?_⟩
  have proper := TokenStream.proper_ofSource source.toList
  cases first : Cursor.ofSource source with
  | error e =>
    refine ⟨[], ?_, List.nil_prefix, fun tree made => ?_⟩
    · unfold Unmeasured.parse parse
      rw [first]
      rfl
    · unfold parse at made
      rw [first] at made
      cases made
  | ok c =>
    obtain ⟨taken, runs, order, whole⟩ := Unmeasured.parse_of_first first
    have made := parse_of_first first
    unfold Cursor.ofSource at first
    generalize TokenStream.ofSource source.toList = stream at first proper
    obtain ⟨items, final⟩ := stream
    dsimp only at first proper ⊢
    cases items with
    | nil =>
      -- The source has no token, and the first cursor stands at the end.
      obtain rfl := Except.ok.inj first
      have ended : Cursor.atEnd ⟨final.token, [], final, .none⟩ = true := rfl
      rw [Parser.statements, if_pos ended] at made
      rw [made] at runs whole ⊢
      obtain ⟨after, way, -⟩ := whole _ rfl
      cases way with
      | nil => exact ⟨[], runs, List.nil_prefix, fun _ _ => rfl⟩
      | cons moves => exact absurd rfl moves.held
    | cons item rest =>
      cases item with
      | error e => cases first
      | ok token =>
        obtain rfl := Except.ok.inj first
        refine ⟨taken, runs, order, fun tree made => ?_⟩
        obtain ⟨after, way, ended⟩ := whole tree made
        exact way.all ended (proper token List.mem_cons_self) fun other mem =>
          proper other (List.mem_cons_of_mem _ mem)

/-- A source that leaves everything open is refused, and only its tokens have been taken. -/
theorem reading_ends_open : ∃ e taken, Unmeasured.parse "if f(1 then loop elseif" = some (.error e, taken) ∧
    taken.map .ok <+: (TokenStream.ofSource "if f(1 then loop elseif".toList).items := by
  obtain ⟨taken, runs, order, -⟩ := reading_ends.2 "if f(1 then loop elseif"
  cases read : parse "if f(1 then loop elseif" with
  | ok tree =>
    have refused : (parse "if f(1 then loop elseif").toBool = false := by decide +kernel
    rw [read] at refused
    cases refused
  | error e =>
    rw [read] at runs
    exact ⟨e, taken, runs, order⟩

end HostScript
