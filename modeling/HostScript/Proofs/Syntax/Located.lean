import HostScript.Proofs.Compile.Requests
import HostScript.Proofs.Source.Stands
import HostScript.Syntax.Parser

/-!
# Proofs/Syntax/Located — trees and syntax errors start at spots

A reader that is given a cursor over tokens that stand at spots goes on with such a cursor.  What it
reads starts at spots, all parts included, and the error that it may end with stands at one (`Finds`).
There is one lemma for each reader, by the recursion of the readers; `located_parse` is about whole
sources.
-/

namespace HostScript

open Text (byteLength)
open Node (spans spansOf spansOfArms)

/-! ## Spans that start at spots -/

/-- Spans that start at spots. -/
def SpansStart (source : List Char) (spans : List Span) : Prop := ∀ span ∈ spans, span.StartsIn source

variable {source : List Char}

namespace SpansStart

variable {own : Span} {some others : List Span}

theorem nil : SpansStart source [] := nofun

theorem cons (first : own.StartsIn source) (rest : SpansStart source others) :
    SpansStart source (own :: others) := List.forall_mem_cons.2 ⟨first, rest⟩

theorem single (own_starts : own.StartsIn source) : SpansStart source [own] := cons own_starts nil

theorem append (first : SpansStart source some) (rest : SpansStart source others) :
    SpansStart source (some ++ others) := List.forall_mem_append.2 ⟨first, rest⟩

end SpansStart

/-- A tree that starts at a spot, all parts included. -/
def Node.StartsIn (source : List Char) (tree : Node) : Prop := SpansStart source tree.spans

theorem Node.span_mem_spans (tree : Node) : tree.span ∈ tree.spans := by
  cases tree with
  | declare span name value => cases value <;> exact List.mem_cons_self
  | leave span value => cases value <;> exact List.mem_cons_self
  | give span value => cases value <;> exact List.mem_cons_self
  | choose span branches otherwise => cases otherwise <;> exact List.mem_cons_self
  | _ => exact List.mem_cons_self

theorem Node.StartsIn.own {tree : Node} (h : tree.StartsIn source) : tree.span.StartsIn source :=
  h _ tree.span_mem_spans

/-- Trees that start at spots. -/
def NodesStart (source : List Char) (trees : List Node) : Prop := SpansStart source (spansOf trees)

/-- Tests and bodies that start at spots. -/
def ArmsStart (source : List Char) (branches : List (Node × Node)) : Prop :=
  SpansStart source (spansOfArms branches)

/-! ## Readings -/

/-- A syntax error that stands at a spot. -/
def SyntaxError.Stands (source : List Char) : SyntaxError → Prop
  | .lex e => e.Stands source
  | .parse e => e.position.Stands source e.span

namespace Parser

/-- **A reading that finds something good** and goes on with tokens that stand at spots, or ends with an
error that stands at one. -/
def Finds {α : Type} {n : Nat} (source : List Char) (good : α → Prop) : Reading α n → Prop
  | .ok read => good read.value ∧ read.next.Stands source
  | .error e => e.Stands source

variable {α β : Type} {n m : Nat} {good : α → Prop} {fine : β → Prop} {c : Cursor}

theorem Finds.bind {r : Reading α n} {k : Read α n → Reading β m} (h : Finds source good r)
    (next : ∀ v c₁ fewer, good v → c₁.Stands source → Finds source fine (k ⟨v, c₁, fewer⟩)) :
    Finds source fine (r >>= k) := by
  cases r with
  | ok read => exact next read.value read.next read.fewer h.1 h.2
  | error e => exact h

theorem Finds.done {v : α} (fewer : c.remaining < n) (found : good v) (h : c.Stands source) :
    Finds source good (.ok ⟨v, c, fewer⟩ : Reading α n) := ⟨found, h⟩

theorem Finds.dite {p : Prop} [Decidable p] {yes : p → Reading α n} {no : ¬p → Reading α n}
    (first : ∀ h, Finds source good (yes h)) (second : ∀ h, Finds source good (no h)) :
    Finds source good (if h : p then yes h else no h) := by
  split
  next h => exact first h
  next h => exact second h

theorem Finds.ite {p : Prop} [Decidable p] {yes no : Reading α n} (first : Finds source good yes)
    (second : Finds source good no) : Finds source good (if p then yes else no) :=
  .dite (fun _ => first) fun _ => second

theorem finds_refuse (h : c.Stands source) (expected : String) :
    Finds source good (refuse c expected : Reading α n) := h.current

/-! ### Tokens -/

theorem finds_shift (h : c.Stands source) (held : c.kind ≠ .endOfInput) :
    Finds source (Token.Stands source) (shift c held) := by
  have advanced := h.advance
  unfold shift
  split
  next step =>
    rw [step] at advanced
    exact advanced
  next step =>
    rw [step] at advanced
    exact advanced

theorem finds_require (h : c.Stands source) (kind : Kind) (word : kind ≠ .endOfInput) :
    Finds source (Token.Stands source) (require c kind word) := by
  unfold require
  split
  · exact finds_shift h _
  · exact h.current

theorem finds_skip (h : c.Stands source) (kind : Kind) (word : kind ≠ .endOfInput) :
    Finds source (fun _ => True) (skip c kind word) := by
  unfold skip
  split
  · exact .bind (finds_shift h _) fun _ _ _ _ next => .done _ trivial next
  · exact .done _ trivial h

/-- A constant that has no value is an error at its token. -/
theorem finds_literal {t : Token} (h : t.Stands source) {n : Nat} {next : Cursor}
    {fewer : next.remaining < n} (there : next.Stands source) :
    Finds source (Node.StartsIn source) (do
      let value ← (literal t).mapError .parse
      return ⟨.literal t.span value, next, fewer⟩ : Reading Node n) := by
  cases read : literal t with
  | ok value => exact ⟨.single h.startsIn, there⟩
  | error e =>
    have stands : e.position = t.position ∧ e.span = t.span := by
      unfold literal at read
      dsimp only at read
      split at read
      · split at read <;> cases read
        exact ⟨rfl, rfl⟩
      · split at read <;> cases read
        exact ⟨rfl, rfl⟩
      · cases read
      · cases read
    show e.position.Stands source e.span
    rw [stands.1, stands.2]
    exact h

/-! ### Names -/

theorem finds_names (c : Cursor) (h : c.Stands source) : Finds source (fun _ => True) (names c) := by
  rw [names]
  split
  · exact .bind (finds_shift h _) fun _ _ _ _ next => .done _ trivial next
  · refine .bind (finds_require h _ _) fun name c₁ h₁ _ there => ?_
    refine .bind (finds_skip there _ _) fun _ c₂ h₂ _ there => ?_
    exact .bind (finds_names c₂ there) fun _ _ _ _ next => .done _ trivial next
termination_by c.remaining
decreasing_by omega

theorem finds_parameters (h : c.Stands source) : Finds source (fun _ => True) (parameters c) := by
  rw [parameters]
  refine .bind (finds_require h _ _) fun _ c₁ h₁ _ there => ?_
  exact .bind (finds_names c₁ there) fun _ _ _ _ next => .done _ trivial next

theorem finds_path (c : Cursor) (h : c.Stands source) : Finds source (fun _ => True) (path c) := by
  rw [path]
  split
  · refine .bind (finds_shift h _) fun _ c₁ h₁ _ there => ?_
    refine .bind (finds_require there _ _) fun name c₂ h₂ _ there => ?_
    exact .bind (finds_path c₂ there) fun _ _ _ _ next => .done _ trivial next
  · exact .done _ trivial h
termination_by c.remaining
decreasing_by omega

theorem finds_dotted (target : Node) (c : Cursor) (first : target.StartsIn source)
    (h : c.Stands source) : Finds source (Node.StartsIn source) (dotted target c) := by
  rw [dotted]
  split
  · refine .bind (finds_shift h _) fun _ c₁ h₁ _ there => ?_
    refine .bind (finds_require there _ _) fun name c₂ h₂ _ there => ?_
    refine .bind (finds_dotted _ c₂ (.cons (there.spanFrom first.own) first) there) ?_
    exact fun _ _ _ found next => .done _ found next
  · exact .done _ first h
termination_by c.remaining
decreasing_by omega

/-! ### Expressions and statements -/

mutual

theorem finds_expression (c : Cursor) (h : c.Stands source) :
    Finds source (Node.StartsIn source) (expression c) := by
  rw [expression]
  refine .bind (finds_binary .disjunction c h) fun target c₁ h₁ first there => ?_
  dsimp only
  split
  · refine .bind (finds_shift there _) fun _ c₂ h₂ _ there => ?_
    refine .bind (finds_expression c₂ there) fun value c₃ h₃ second there => ?_
    exact .done _ (.cons (first.own.merge second.own) (first.append second)) there
  · exact .done _ first there
termination_by 32 * c.remaining + 14
decreasing_by
  · simp only [Level.depth]
    omega
  · omega

theorem finds_binary (level : Level) (c : Cursor) (h : c.Stands source) :
    Finds source (Node.StartsIn source) (binary level c) := by
  rw [binary]
  refine .bind (finds_operand level c h) fun left c₁ h₁ first there => ?_
  exact .bind (finds_chain level left c₁ first there) fun _ _ _ found next => .done _ found next
termination_by 32 * c.remaining + 2 * level.depth + 3
decreasing_by all_goals omega

theorem finds_operand (level : Level) (c : Cursor) (h : c.Stands source) :
    Finds source (Node.StartsIn source) (operand level c) := by
  rw [operand]
  split
  next tighter tight =>
    have tightens := Level.depth_of_tighter? tight
    exact finds_binary tighter c h
  next => exact finds_unary c h
termination_by 32 * c.remaining + 2 * level.depth + 2
decreasing_by
  · omega
  · have := level.depth_pos
    omega

theorem finds_chain (level : Level) (left : Node) (c : Cursor) (first : left.StartsIn source)
    (h : c.Stands source) : Finds source (Node.StartsIn source) (chain level left c) := by
  rw [chain]
  split
  · refine .bind (finds_shift h _) fun _ c₁ h₁ _ there => ?_
    refine .bind (finds_operand level c₁ there) fun right c₂ h₂ second there => ?_
    refine .bind (finds_chain level _ c₂ ?_ there) fun _ _ _ found next => .done _ found next
    exact .cons (first.own.merge second.own) (first.append second)
  · exact .done _ first h
termination_by 32 * c.remaining
decreasing_by
  · have : level.depth ≤ 5 := by cases level <;> decide
    omega
  · omega

theorem finds_unary (c : Cursor) (h : c.Stands source) :
    Finds source (Node.StartsIn source) (unary c) := by
  rw [unary]
  split
  · refine .bind (finds_shift h _) fun token c₁ h₁ held there => ?_
    refine .bind (finds_unary c₁ there) fun operand c₂ h₂ found there => ?_
    exact .done _ (.cons (there.spanFrom held.startsIn) found) there
  · exact finds_postfixed c h
termination_by 32 * c.remaining + 2
decreasing_by all_goals omega

theorem finds_postfixed (c : Cursor) (h : c.Stands source) :
    Finds source (Node.StartsIn source) (postfixed c) := by
  rw [postfixed]
  refine .bind (finds_primary c h) fun node c₁ h₁ first there => ?_
  exact .bind (finds_suffixes node c₁ first there) fun _ _ _ found next => .done _ found next
termination_by 32 * c.remaining + 1
decreasing_by all_goals omega

theorem finds_suffixes (node : Node) (c : Cursor) (first : node.StartsIn source)
    (h : c.Stands source) : Finds source (Node.StartsIn source) (suffixes node c) := by
  rw [suffixes]
  split
  · refine .bind (finds_shift h _) fun _ c₁ h₁ _ there => ?_
    refine .bind (finds_require there _ _) fun name c₂ h₂ _ there => ?_
    refine .bind (finds_suffixes _ c₂ ?_ there) fun _ _ _ found next => .done _ found next
    exact .cons (there.spanFrom first.own) first
  split
  · refine .bind (finds_arguments c h) fun args c₁ h₁ others there => ?_
    refine .bind (finds_suffixes _ c₁ ?_ there) fun _ _ _ found next => .done _ found next
    exact .cons (there.spanFrom first.own) (first.append others)
  split
  · refine .bind (finds_shift h _) fun _ c₁ h₁ _ there => ?_
    refine .bind (finds_expression c₁ there) fun index c₂ h₂ second there => ?_
    refine .bind (finds_require there _ _) fun _ c₃ h₃ _ there => ?_
    refine .bind (finds_suffixes _ c₃ ?_ there) fun _ _ _ found next => .done _ found next
    exact .cons (there.spanFrom first.own) (first.append second)
  · exact .done _ first h
termination_by 32 * c.remaining + 17
decreasing_by all_goals omega

theorem finds_arguments (c : Cursor) (h : c.Stands source) :
    Finds source (NodesStart source) (arguments c) := by
  rw [arguments]
  refine .bind (finds_require h _ _) fun _ c₁ h₁ _ there => ?_
  exact .bind (finds_argumentList c₁ there) fun _ _ _ found next => .done _ found next
termination_by 32 * c.remaining + 16
decreasing_by all_goals omega

theorem finds_argumentList (c : Cursor) (h : c.Stands source) :
    Finds source (NodesStart source) (argumentList c) := by
  rw [argumentList]
  split
  · exact .bind (finds_shift h _) fun _ _ _ _ next => .done _ .nil next
  split
  · exact finds_refuse h _
  · refine .bind (finds_expression c h) fun arg c₁ h₁ first there => ?_
    refine .bind (finds_skip there _ _) fun _ c₂ h₂ _ there => ?_
    refine .bind (finds_argumentList c₂ there) fun more c₃ h₃ others there => ?_
    exact .done _ (first.append others) there
termination_by 32 * c.remaining + 15
decreasing_by all_goals omega

theorem finds_primary (c : Cursor) (h : c.Stands source) :
    Finds source (Node.StartsIn source) (primary c) := by
  rw [primary]
  split
  · refine .bind (finds_shift h _) fun _ c₁ h₁ _ there => ?_
    refine .bind (finds_expression c₁ there) fun inner c₂ h₂ found there => ?_
    exact .bind (finds_require there _ _) fun _ _ _ _ next => .done _ found next
  split
  · exact .bind (finds_shift h _) fun token c₁ h₁ held there => finds_literal held there
  split
  · exact .bind (finds_shift h _) fun token c₁ h₁ held there => .done _ (.single held.startsIn) there
  split
  · refine .bind (finds_shift h _) fun token c₁ h₁ held there => ?_
    refine .bind (finds_require there _ _) fun first c₂ h₂ named there => ?_
    refine .bind (finds_dotted _ c₂ (.single named.startsIn) there) fun target c₃ h₃ found there => ?_
    refine .bind (finds_arguments c₃ there) fun args c₄ h₄ others there => ?_
    exact .done _ (.cons (there.spanFrom held.startsIn) (found.append others)) there
  split
  · refine .bind (finds_shift h _) fun token c₁ h₁ held there => ?_
    refine .bind (finds_parameters there) fun params c₂ h₂ _ there => ?_
    refine .bind (finds_statement c₂ there) fun body c₃ h₃ found there => ?_
    exact .done _ (.cons (there.spanFrom held.startsIn) found) there
  · exact finds_refuse h _
termination_by 32 * c.remaining
decreasing_by all_goals omega

theorem finds_statement (c : Cursor) (h : c.Stands source) :
    Finds source (Node.StartsIn source) (statement c) := by
  rw [statement]
  refine .dite (fun terminator => ?empty) fun _ => .dite (fun brace => ?block) fun _ =>
    .ite ?thenBlock <| .dite (fun loops => ?loop) fun _ => .dite (fun tests => ?choose) fun _ =>
    .dite (fun defines => ?function) fun _ => .dite (fun returns => ?give) fun _ =>
    .dite (fun declares => ?declare) fun _ => .dite (fun imports => ?importFrom) fun _ =>
    .dite (fun leaves => ?leave) fun _ => ?plain
  case empty =>
    exact .bind (finds_shift h _) fun token c₁ h₁ held there => .done _ (.single held.startsIn) there
  case block =>
    refine .bind (finds_shift h _) fun token c₁ h₁ held there => ?_
    refine .bind (finds_braceBody c₁ there) fun body c₂ h₂ found there => ?_
    exact .done _ (.cons (there.spanFrom held.startsIn) found) there
  case thenBlock => exact .bind (finds_thenBlock c h) fun _ _ _ found next => .done _ found next
  case loop =>
    refine .bind (finds_shift h _) fun token c₁ h₁ held there => ?_
    refine .bind (finds_statement c₁ there) fun body c₂ h₂ found there => ?_
    exact .done _ (.cons (there.spanFrom held.startsIn) found) there
  case choose =>
    refine .bind (finds_shift h _) fun token c₁ h₁ held there => ?_
    refine .bind (finds_branchList c₁ there) fun (branches, ending) c₂ h₂ found there => ?_
    refine .bind (finds_elsePart ending c₂ there) fun otherwise c₃ h₃ last there => ?_
    cases otherwise with
    | none => exact .done _ (.cons (there.spanFrom held.startsIn) found) there
    | some body =>
      exact .done _ (.cons (there.spanFrom held.startsIn) (found.append (last body rfl))) there
  case function =>
    refine .bind (finds_shift h _) fun token c₁ h₁ held there => ?_
    refine .bind (finds_require there _ _) fun name c₂ h₂ _ there => ?_
    refine .bind (finds_parameters there) fun params c₃ h₃ _ there => ?_
    refine .bind (finds_statement c₃ there) fun body c₄ h₄ found there => ?_
    exact .done _ (.cons (there.spanFrom held.startsIn) found) there
  case give =>
    refine .bind (finds_shift h _) fun token c₁ h₁ held there => ?_
    refine .bind (finds_skip there _ _) fun bare c₂ h₂ _ there => .ite ?_ ?_
    · exact .done _ (.single (there.spanFrom held.startsIn)) there
    · refine .bind (finds_expression c₂ there) fun value c₃ h₃ found there => ?_
      refine .bind (finds_skip there _ _) fun _ c₄ h₄ _ there => ?_
      exact .done _ (.cons (there.spanFrom held.startsIn) found) there
  case declare =>
    refine .bind (finds_shift h _) fun token c₁ h₁ held there => ?_
    refine .bind (finds_require there _ _) fun name c₂ h₂ _ there => ?_
    refine .bind (finds_initializer c₂ there) fun init c₃ h₃ found there => ?_
    refine .bind (finds_skip there _ _) fun _ c₄ h₄ _ there => ?_
    cases init with
    | none => exact .done _ (.single (there.spanFrom held.startsIn)) there
    | some value => exact .done _ (.cons (there.spanFrom held.startsIn) (found value rfl)) there
  case importFrom =>
    refine .bind (finds_shift h _) fun token c₁ h₁ held there => ?_
    refine .bind (finds_require there _ _) fun first c₂ h₂ _ there => ?_
    refine .bind (finds_path c₂ there) fun more c₃ h₃ _ there => ?_
    refine .bind (finds_skip there _ _) fun renamed c₄ h₄ _ there => .ite ?_ ?_
    · refine .bind (finds_require there _ _) fun name c₅ h₅ _ there => ?_
      refine .bind (finds_skip there _ _) fun _ c₆ h₆ _ there => ?_
      exact .done _ (.single (there.spanFrom held.startsIn)) there
    · refine .bind (finds_skip there _ _) fun _ c₅ h₅ _ there => ?_
      exact .done _ (.single (there.spanFrom held.startsIn)) there
  case leave =>
    refine .bind (finds_shift h _) fun token c₁ h₁ held there => .dite (fun opening => ?_) fun _ => ?_
    · refine .bind (finds_shift there _) fun _ c₂ h₂ _ there => ?_
      refine .bind (finds_expression c₂ there) fun value c₃ h₃ found there => ?_
      refine .bind (finds_require there _ _) fun _ c₄ h₄ _ there => ?_
      refine .bind (finds_skip there _ _) fun _ c₅ h₅ _ there => ?_
      exact .done _ (.cons (there.spanFrom held.startsIn) found) there
    · refine .bind (finds_skip there _ _) fun _ c₂ h₂ _ there => ?_
      exact .done _ (.single (there.spanFrom held.startsIn)) there
  case plain =>
    refine .bind (finds_expression c h) fun value c₁ h₁ found there => ?_
    refine .bind (finds_skip there _ _) fun _ c₂ h₂ _ there => ?_
    exact .done _ (.cons (there.spanFrom h.current.startsIn) found) there
termination_by 32 * c.remaining + 15
decreasing_by all_goals omega

theorem finds_initializer (c : Cursor) (h : c.Stands source) :
    Finds source (fun init => ∀ value, init = some value → value.StartsIn source) (initializer c) := by
  rw [initializer]
  split
  · refine .bind (finds_shift h _) fun _ c₁ h₁ _ there => ?_
    refine .bind (finds_expression c₁ there) fun value c₂ h₂ found there => ?_
    exact .done _ (fun _ same => Option.some.inj same ▸ found) there
  · exact .done _ nofun h
termination_by 32 * c.remaining
decreasing_by omega

theorem finds_braceBody (c : Cursor) (h : c.Stands source) :
    Finds source (NodesStart source) (braceBody c) := by
  rw [braceBody]
  split
  · exact .bind (finds_shift h _) fun _ _ _ _ next => .done _ .nil next
  split
  · exact finds_refuse h _
  · refine .bind (finds_statement c h) fun first c₁ h₁ found there => ?_
    refine .bind (finds_braceBody c₁ there) fun more c₂ h₂ others there => ?_
    exact .done _ (found.append others) there
termination_by 32 * c.remaining + 16
decreasing_by all_goals omega

theorem finds_thenBlock (c : Cursor) (h : c.Stands source) :
    Finds source (fun found => found.1.StartsIn source) (thenBlock c) := by
  rw [thenBlock]
  refine .bind (finds_require h _ _) fun token c₁ h₁ held there => ?_
  refine .bind (finds_thenBody c₁ there) fun (body, ending) c₂ h₂ found there => ?_
  exact .done _ (.cons (there.spanFrom held.startsIn) found) there
termination_by 32 * c.remaining
decreasing_by omega

theorem finds_thenBody (c : Cursor) (h : c.Stands source) :
    Finds source (fun found => NodesStart source found.1) (thenBody c) := by
  rw [thenBody]
  split
  · exact .bind (finds_shift h _) fun _ _ _ _ next => .done _ .nil next
  split
  · exact .done _ .nil h
  split
  · exact finds_refuse h _
  · refine .bind (finds_statement c h) fun first c₁ h₁ found there => ?_
    refine .bind (finds_thenBody c₁ there) fun (more, ending) c₂ h₂ others there => ?_
    exact .done _ (found.append others) there
termination_by 32 * c.remaining + 16
decreasing_by all_goals omega

theorem finds_branchBody (c : Cursor) (h : c.Stands source) :
    Finds source (fun found => found.1.StartsIn source) (branchBody c) := by
  rw [branchBody]
  split
  · exact finds_thenBlock c h
  · exact .bind (finds_statement c h) fun _ _ _ found next => .done _ found next
termination_by 32 * c.remaining + 16
decreasing_by all_goals omega

theorem finds_branchList (c : Cursor) (h : c.Stands source) :
    Finds source (fun found => ArmsStart source found.1) (branchList c) := by
  rw [branchList]
  refine .bind (finds_expression c h) fun test c₁ h₁ first there => ?_
  refine .bind (finds_branchBody c₁ there) fun (body, ending) c₂ h₂ second there => ?_
  dsimp only
  split
  · refine .bind (finds_shift there _) fun _ c₃ h₃ _ there => ?_
    refine .bind (finds_branchList c₃ there) fun (more, ending) c₄ h₄ others there => ?_
    exact .done _ (first.append (second.append others)) there
  · exact .done _ (first.append (second.append .nil)) there
termination_by 32 * c.remaining + 15
decreasing_by all_goals omega

theorem finds_elsePart (ending : BranchEnd) (c : Cursor) (h : c.Stands source) :
    Finds source (fun otherwise => ∀ body, otherwise = some body → body.StartsIn source)
      (elsePart ending c) := by
  rw [elsePart.eq_def]
  split
  · refine .bind (finds_shift h _) fun token c₁ h₁ held there => ?_
    cases ending with
    | owing =>
      refine .bind (finds_thenBody c₁ there) fun (body, ending) c₂ h₂ found there => ?_
      cases ending with
      | owing => exact finds_refuse there _
      | closed =>
        refine .done _ (fun _ same => Option.some.inj same ▸ ?_) there
        exact .cons (there.spanFrom held.startsIn) found
    | closed =>
      refine .bind (finds_statement c₁ there) fun body c₂ h₂ found there => ?_
      exact .done _ (fun _ same => Option.some.inj same ▸ found) there
  · cases ending with
    | owing => exact finds_refuse h _
    | closed => exact .done _ nofun h
termination_by 32 * c.remaining
decreasing_by all_goals omega

end

theorem finds_statements (c : Cursor) (h : c.Stands source) :
    Finds source (NodesStart source) (statements c) := by
  rw [statements]
  split
  · exact .done _ .nil h
  · refine .bind (finds_statement c h) fun first c₁ h₁ found there => ?_
    refine .bind (finds_statements c₁ there) fun more c₂ h₂ others there => ?_
    exact .done _ (found.append others) there
termination_by c.remaining
decreasing_by omega

end Parser

/-! ## Sources -/

/-- **A source is read into a tree that starts at spots**, or ends with an error that stands at one. -/
theorem located_parse {text : String} (size : byteLength text.toList ≤ Span.limit) :
    match parse text with
    | .ok tree => tree.StartsIn text.toList
    | .error e => e.Stands text.toList := by
  have opened := Cursor.stands_ofSource size
  cases first : Cursor.ofSource text with
  | error e =>
    rw [first] at opened
    rw [parse, first]
    exact opened
  | ok c =>
    rw [first] at opened
    have found := Parser.finds_statements c opened
    have made : parse text = (Parser.statements c >>= fun read =>
        .ok (.block (read.next.spanFrom c.current.span) read.value)) := by
      rw [parse, first]
      rfl
    rw [made]
    cases read : Parser.statements c with
    | error e =>
      rw [read] at found
      exact found
    | ok body =>
      rw [read] at found
      exact .cons (found.2.spanFrom opened.current.startsIn) found.1

end HostScript
