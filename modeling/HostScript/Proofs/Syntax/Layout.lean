import HostScript.Proofs.Syntax.Beside

/-!
# Proofs/Syntax/Layout — trees depend on what tokens say, not on where they stand

Two cursors at one place of streams that say the same are read alike (`Parser.Matches`): into trees that
differ in their spans at most, or up to errors of one cause at one token, unless the first error of each
stream is met before.  There is one lemma for each reader, by the recursion of the readers.

A stream says the same as itself, so this also tells which errors of tokens a reading meets:
`parse_sees_tokens_only`.
-/

namespace HostScript

namespace Parser

/-! ## Readings -/

/-- **Readings that go alike**: they agree, and where they find something they go on at one place. -/
def Matches {α : Type} {n m : Nat} (s t : TokenStream) (same : α → α → Prop) (r : Reading α n)
    (r' : Reading α m) : Prop :=
  Agrees s t (fun read read' => same read.value read'.value ∧ read.next.Beside s t read'.next) r r'

variable {α β : Type} {n m k l : Nat} {s t : TokenStream} {same : α → α → Prop} {fine : β → β → Prop}
  {c d : Cursor}

theorem Matches.bind {r : Reading α n} {r' : Reading α m} {f : Read α n → Reading β k}
    {f' : Read α m → Reading β l} (h : Matches s t same r r')
    (next : ∀ v c₁ fewer w d₁ fewer', same v w → Cursor.Beside s t c₁ d₁ →
      Matches s t fine (f ⟨v, c₁, fewer⟩) (f' ⟨w, d₁, fewer'⟩)) :
    Matches s t fine (r >>= f) (r' >>= f') :=
  Agrees.bind h fun a b both => next a.value a.next a.fewer b.value b.next b.fewer both.1 both.2

theorem Matches.done {v w : α} {fewer : c.remaining < n} {fewer' : d.remaining < m}
    (found : same v w) (h : Cursor.Beside s t c d) :
    Matches s t same (.ok ⟨v, c, fewer⟩ : Reading α n) (.ok ⟨w, d, fewer'⟩ : Reading α m) :=
  .found ⟨found, h⟩

theorem Matches.dite {p q : Prop} [Decidable p] [Decidable q] {yes : p → Reading α n}
    {no : ¬p → Reading α n} {yes' : q → Reading α m} {no' : ¬q → Reading α m} (both : p ↔ q)
    (first : ∀ h h', Matches s t same (yes h) (yes' h'))
    (second : ∀ h h', Matches s t same (no h) (no' h')) :
    Matches s t same (if h : p then yes h else no h) (if h : q then yes' h else no' h) := by
  by_cases h : p
  · rw [dif_pos h, dif_pos (both.1 h)]
    exact first h _
  · rw [dif_neg h, dif_neg fun h' => h (both.2 h')]
    exact second h _

theorem Matches.ite {p q : Prop} [Decidable p] [Decidable q] {yes no : Reading α n}
    {yes' no' : Reading α m} (both : p ↔ q) (first : Matches s t same yes yes')
    (second : Matches s t same no no') :
    Matches s t same (if p then yes else no) (if q then yes' else no') :=
  .dite both (fun _ _ => first) fun _ _ => second

theorem shift_of_ok {token : Token} {after : Cursor} (step : c.advance = (.ok token, after))
    (held : c.kind ≠ .endOfInput) : ∃ fewer, shift c held = .ok ⟨token, after, fewer⟩ := by
  unfold shift
  split
  next read =>
    obtain ⟨same, rfl⟩ := Prod.mk.inj (read.symm.trans step)
    obtain rfl := Except.ok.inj same
    exact ⟨Cursor.remaining_advance step held, rfl⟩
  next read => cases read.symm.trans step

theorem shift_of_error {e : LexError} {after : Cursor} (step : c.advance = (.error e, after))
    (held : c.kind ≠ .endOfInput) : shift c held = .error (.lex e) := by
  unfold shift
  split
  next read => cases read.symm.trans step
  next read =>
    obtain ⟨same, -⟩ := Prod.mk.inj (read.symm.trans step)
    obtain rfl := Except.error.inj same
    rfl

/-- What a constant is depends on what its token says, and an error is put where the token stands. -/
theorem literal_eq (a : Token) :
    literal a = (literal ⟨a.kind, a.text, .none, .first⟩).mapError fun e =>
      ⟨e.cause, a.position, a.span⟩ := by
  unfold literal
  dsimp only
  split
  · split <;> rfl
  · split <;> rfl
  · rfl
  · rfl

theorem matches_literal {a b : Token} (h : a.Beside s t b) (there : c.Beside s t d)
    {fewer : c.remaining < n} {fewer' : d.remaining < m} :
    Matches s t SameTree
      (do let value ← (literal a).mapError .parse
          return ⟨.literal a.span value, c, fewer⟩ : Reading Node n)
      (do let value ← (literal b).mapError .parse
          return ⟨.literal b.span value, d, fewer'⟩ : Reading Node m) := by
  obtain ⟨said, i, left, right⟩ := h
  obtain ⟨kinds, texts⟩ := Prod.mk.inj said
  rw [literal_eq a, literal_eq b, kinds, texts]
  cases literal ⟨b.kind, b.text, .none, .first⟩ with
  | ok value => exact .done rfl there
  | error e => exact .parse rfl ⟨a, left, rfl, rfl⟩ ⟨b, right, rfl, rfl⟩

theorem matches_refuse (h : c.Beside s t d) (expected : String) :
    Matches s t same (refuse c expected : Reading α n) (refuse d expected : Reading α m) := by
  have kinds := h.kind
  obtain ⟨alike, i, left, right⟩ := h
  exact .parse (congrArg (ParseError.Cause.unexpectedToken expected) kinds)
    ⟨c.current, left.current, rfl, rfl⟩ ⟨d.current, right.current, rfl, rfl⟩

/-- Whether cursors at one place hold a token of a kind. -/
theorem kind_iff (h : c.Beside s t d) (kind : Kind) : c.kind = kind ↔ d.kind = kind := by
  rw [h.kind]

/-! ### Tokens -/

theorem matches_shift (h : c.Beside s t d) (held : c.kind ≠ .endOfInput)
    (held' : d.kind ≠ .endOfInput) : Matches s t (Token.Beside s t) (shift c held) (shift d held') := by
  rcases h.advance held with
    ⟨after, after', first, second, next⟩ | ⟨e, e', after, after', first, second, ends⟩
  · obtain ⟨_, left⟩ := shift_of_ok first held
    obtain ⟨_, right⟩ := shift_of_ok second held'
    rw [left, right]
    exact .found ⟨h.current, next⟩
  · rw [shift_of_error first held, shift_of_error second held']
    exact .lex ends.1 ends.2

theorem matches_require (h : c.Beside s t d) (kind : Kind) (word : kind ≠ .endOfInput) :
    Matches s t (Token.Beside s t) (require c kind word) (require d kind word) := by
  unfold require
  exact .dite (kind_iff h kind) (fun _ _ => matches_shift h _ _)
    fun _ _ => matches_refuse h kind.name

theorem matches_skip (h : c.Beside s t d) (kind : Kind) (word : kind ≠ .endOfInput) :
    Matches s t Eq (skip c kind word) (skip d kind word) := by
  unfold skip
  refine .dite (kind_iff h kind) (fun _ _ => ?_) fun _ _ => .done rfl h
  exact .bind (matches_shift h _ _) fun _ _ _ _ _ _ _ next => .done rfl next

/-! ### Names -/

theorem matches_names (c d : Cursor) (h : c.Beside s t d) :
    Matches s t Eq (names c) (names d) := by
  rw [names, names]
  refine .dite (kind_iff h _) (fun _ _ => ?_) fun _ _ => ?_
  · exact .bind (matches_shift h _ _) fun _ _ _ _ _ _ _ next => .done rfl next
  · refine .bind (matches_require h _ _) fun name c₁ h₁ name' d₁ k₁ said there => ?_
    refine .bind (matches_skip there _ _) fun _ c₂ h₂ _ d₂ k₂ _ there => ?_
    refine .bind (matches_names c₂ d₂ there) fun more c₃ h₃ more' d₃ k₃ same there => ?_
    exact .done (congrArg₂ List.cons said.text same) there
termination_by c.remaining
decreasing_by omega

theorem matches_parameters (h : c.Beside s t d) :
    Matches s t Eq (parameters c) (parameters d) := by
  rw [parameters, parameters]
  refine .bind (matches_require h _ _) fun _ c₁ h₁ _ d₁ k₁ _ there => ?_
  exact .bind (matches_names c₁ d₁ there) fun _ _ _ _ _ _ same next => .done same next

theorem matches_path (c d : Cursor) (h : c.Beside s t d) : Matches s t Eq (path c) (path d) := by
  rw [path, path]
  refine .dite (kind_iff h _) (fun _ _ => ?_) fun _ _ => .done rfl h
  refine .bind (matches_shift h _ _) fun _ c₁ h₁ _ d₁ k₁ _ there => ?_
  refine .bind (matches_require there _ _) fun name c₂ h₂ name' d₂ k₂ said there => ?_
  refine .bind (matches_path c₂ d₂ there) fun more c₃ h₃ more' d₃ k₃ same there => ?_
  exact .done (congrArg₂ List.cons said.text same) there
termination_by c.remaining
decreasing_by omega

theorem matches_dotted (target target' : Node) (c d : Cursor) (first : SameTree target target')
    (h : c.Beside s t d) : Matches s t SameTree (dotted target c) (dotted target' d) := by
  rw [dotted, dotted]
  refine .dite (kind_iff h _) (fun _ _ => ?_) fun _ _ => .done first h
  refine .bind (matches_shift h _ _) fun _ c₁ h₁ _ d₁ k₁ _ there => ?_
  refine .bind (matches_require there _ _) fun name c₂ h₂ name' d₂ k₂ said there => ?_
  have longer := first.member (c₂.spanFrom target.span) (d₂.spanFrom target'.span) said.text .get
  exact .bind (matches_dotted _ _ c₂ d₂ longer there) fun _ _ _ _ _ _ same next => .done same next
termination_by c.remaining
decreasing_by omega

/-! ### Expressions and statements -/

mutual

theorem matches_expression (c d : Cursor) (h : c.Beside s t d) :
    Matches s t SameTree (expression c) (expression d) := by
  rw [expression, expression]
  refine .bind (matches_binary .disjunction c d h) fun target c₁ h₁ target' d₁ k₁ first there => ?_
  dsimp only
  refine .dite (kind_iff there _) (fun _ _ => ?_) fun _ _ => .done first there
  refine .bind (matches_shift there _ _) fun _ c₂ h₂ _ d₂ k₂ _ there => ?_
  refine .bind (matches_expression c₂ d₂ there) fun value c₃ h₃ value' d₃ k₃ second there => ?_
  exact .done (first.assign _ _ second) there
termination_by 32 * c.remaining + 14
decreasing_by
  · simp only [Level.depth]
    omega
  · omega

theorem matches_binary (level : Level) (c d : Cursor) (h : c.Beside s t d) :
    Matches s t SameTree (binary level c) (binary level d) := by
  rw [binary, binary]
  refine .bind (matches_operand level c d h) fun left c₁ h₁ left' d₁ k₁ first there => ?_
  refine .bind (matches_chain level left left' c₁ d₁ first there) ?_
  exact fun _ _ _ _ _ _ same next => .done same next
termination_by 32 * c.remaining + 2 * level.depth + 3
decreasing_by all_goals omega

theorem matches_operand (level : Level) (c d : Cursor) (h : c.Beside s t d) :
    Matches s t SameTree (operand level c) (operand level d) := by
  rw [operand, operand]
  split
  next tighter tight =>
    have tightens := Level.depth_of_tighter? tight
    exact matches_binary tighter c d h
  next => exact matches_unary c d h
termination_by 32 * c.remaining + 2 * level.depth + 2
decreasing_by
  · omega
  · have := level.depth_pos
    omega

theorem matches_chain (level : Level) (left left' : Node) (c d : Cursor) (first : SameTree left left')
    (h : c.Beside s t d) : Matches s t SameTree (chain level left c) (chain level left' d) := by
  have kinds := h.kind
  rw [chain, chain]
  split <;> split
  next op known op' known' =>
    rw [kinds, known'] at known
    obtain rfl := Option.some.inj known
    refine .bind (matches_shift h _ _) fun _ c₁ h₁ _ d₁ k₁ _ there => ?_
    refine .bind (matches_operand level c₁ d₁ there) fun right c₂ h₂ right' d₂ k₂ second there => ?_
    refine .bind (matches_chain level _ _ c₂ d₂ (first.binary _ _ op' second) there) ?_
    exact fun _ _ _ _ _ _ same next => .done same next
  next _ known known' =>
    rw [kinds, known'] at known
    cases known
  next known _ known' =>
    rw [kinds, known'] at known
    cases known
  next => exact .done first h
termination_by 32 * c.remaining
decreasing_by
  · have : level.depth ≤ 5 := by cases level <;> decide
    omega
  · omega

theorem matches_unary (c d : Cursor) (h : c.Beside s t d) :
    Matches s t SameTree (unary c) (unary d) := by
  have kinds := h.kind
  rw [unary, unary]
  split <;> split
  next op known op' known' =>
    rw [kinds, known'] at known
    obtain rfl := Option.some.inj known
    refine .bind (matches_shift h _ _) fun token c₁ h₁ token' d₁ k₁ _ there => ?_
    refine .bind (matches_unary c₁ d₁ there) fun operand c₂ h₂ operand' d₂ k₂ same there => ?_
    exact .done (same.unary _ _ op') there
  next _ known known' =>
    rw [kinds, known'] at known
    cases known
  next known _ known' =>
    rw [kinds, known'] at known
    cases known
  next => exact matches_postfixed c d h
termination_by 32 * c.remaining + 2
decreasing_by all_goals omega

theorem matches_postfixed (c d : Cursor) (h : c.Beside s t d) :
    Matches s t SameTree (postfixed c) (postfixed d) := by
  rw [postfixed, postfixed]
  refine .bind (matches_primary c d h) fun node c₁ h₁ node' d₁ k₁ first there => ?_
  refine .bind (matches_suffixes node node' c₁ d₁ first there) ?_
  exact fun _ _ _ _ _ _ same next => .done same next
termination_by 32 * c.remaining + 1
decreasing_by all_goals omega

theorem matches_suffixes (node node' : Node) (c d : Cursor) (first : SameTree node node')
    (h : c.Beside s t d) : Matches s t SameTree (suffixes node c) (suffixes node' d) := by
  rw [suffixes, suffixes]
  refine .dite (kind_iff h _) (fun _ _ => ?member) fun _ _ =>
    .dite (kind_iff h _) (fun _ _ => ?call) fun _ _ =>
    .dite (kind_iff h _) (fun _ _ => ?index) fun _ _ => .done first h
  case member =>
    refine .bind (matches_shift h _ _) fun _ c₁ h₁ _ d₁ k₁ _ there => ?_
    refine .bind (matches_require there _ _) fun name c₂ h₂ name' d₂ k₂ said there => ?_
    dsimp only
    rw [there.kind]
    refine .bind (matches_suffixes _ _ c₂ d₂ (first.member _ _ said.text _) there) ?_
    exact fun _ _ _ _ _ _ same next => .done same next
  case call =>
    refine .bind (matches_arguments c d h) fun args c₁ h₁ args' d₁ k₁ others there => ?_
    refine .bind (matches_suffixes _ _ c₁ d₁ (first.call _ _ others) there) ?_
    exact fun _ _ _ _ _ _ same next => .done same next
  case index =>
    refine .bind (matches_shift h _ _) fun _ c₁ h₁ _ d₁ k₁ _ there => ?_
    refine .bind (matches_expression c₁ d₁ there) fun index c₂ h₂ index' d₂ k₂ second there => ?_
    refine .bind (matches_require there _ _) fun _ c₃ h₃ _ d₃ k₃ _ there => ?_
    refine .bind (matches_suffixes _ _ c₃ d₃ (first.index _ _ second) there) ?_
    exact fun _ _ _ _ _ _ same next => .done same next
termination_by 32 * c.remaining + 17
decreasing_by all_goals omega

theorem matches_arguments (c d : Cursor) (h : c.Beside s t d) :
    Matches s t SameTrees (arguments c) (arguments d) := by
  rw [arguments, arguments]
  refine .bind (matches_require h _ _) fun _ c₁ h₁ _ d₁ k₁ _ there => ?_
  exact .bind (matches_argumentList c₁ d₁ there) fun _ _ _ _ _ _ same next => .done same next
termination_by 32 * c.remaining + 16
decreasing_by all_goals omega

theorem matches_argumentList (c d : Cursor) (h : c.Beside s t d) :
    Matches s t SameTrees (argumentList c) (argumentList d) := by
  rw [argumentList, argumentList]
  refine .dite (kind_iff h _) (fun _ _ => ?_) fun _ _ =>
    .ite (by rw [h.atEnd]) (matches_refuse h _) ?_
  · exact .bind (matches_shift h _ _) fun _ _ _ _ _ _ _ next => .done rfl next
  · refine .bind (matches_expression c d h) fun arg c₁ h₁ arg' d₁ k₁ first there => ?_
    refine .bind (matches_skip there _ _) fun _ c₂ h₂ _ d₂ k₂ _ there => ?_
    refine .bind (matches_argumentList c₂ d₂ there) fun more c₃ h₃ more' d₃ k₃ others there => ?_
    exact .done (first.cons others) there
termination_by 32 * c.remaining + 15
decreasing_by all_goals omega

theorem matches_primary (c d : Cursor) (h : c.Beside s t d) :
    Matches s t SameTree (primary c) (primary d) := by
  rw [primary, primary]
  refine .dite (kind_iff h _) (fun _ _ => ?enclosed) fun _ _ =>
    .dite (by rw [h.kind]) (fun _ _ => ?constant) fun _ _ =>
    .dite (kind_iff h _) (fun _ _ => ?named) fun _ _ =>
    .dite (kind_iff h _) (fun _ _ => ?create) fun _ _ =>
    .dite (kind_iff h _) (fun _ _ => ?lambda) fun _ _ => matches_refuse h _
  case enclosed =>
    refine .bind (matches_shift h _ _) fun _ c₁ h₁ _ d₁ k₁ _ there => ?_
    refine .bind (matches_expression c₁ d₁ there) fun inner c₂ h₂ inner' d₂ k₂ same there => ?_
    exact .bind (matches_require there _ _) fun _ _ _ _ _ _ _ next => .done same next
  case constant =>
    refine .bind (matches_shift h _ _) fun token c₁ h₁ token' d₁ k₁ said there => ?_
    exact matches_literal said there
  case named =>
    refine .bind (matches_shift h _ _) fun token c₁ h₁ token' d₁ k₁ said there => ?_
    exact .done (.named _ _ said.text) there
  case create =>
    refine .bind (matches_shift h _ _) fun token c₁ h₁ token' d₁ k₁ _ there => ?_
    refine .bind (matches_require there _ _) fun first c₂ h₂ first' d₂ k₂ said there => ?_
    refine .bind (matches_dotted _ _ c₂ d₂ (.named _ _ said.text) there) ?_
    refine fun target c₃ h₃ target' d₃ k₃ same there => ?_
    refine .bind (matches_arguments c₃ d₃ there) fun args c₄ h₄ args' d₄ k₄ others there => ?_
    exact .done (same.create _ _ others) there
  case lambda =>
    refine .bind (matches_shift h _ _) fun token c₁ h₁ token' d₁ k₁ _ there => ?_
    refine .bind (matches_parameters there) fun params c₂ h₂ params' d₂ k₂ names there => ?_
    refine .bind (matches_statement c₂ d₂ there) fun body c₃ h₃ body' d₃ k₃ same there => ?_
    exact .done (same.lambda _ _ names) there
termination_by 32 * c.remaining
decreasing_by all_goals omega

theorem matches_statement (c d : Cursor) (h : c.Beside s t d) :
    Matches s t SameTree (statement c) (statement d) := by
  rw [statement, statement]
  refine .dite (kind_iff h _) (fun _ _ => ?empty) fun _ _ =>
    .dite (kind_iff h _) (fun _ _ => ?block) fun _ _ =>
    .ite (kind_iff h _) ?thenBlock <| .dite (kind_iff h _) (fun _ _ => ?loop) fun _ _ =>
    .dite (kind_iff h _) (fun _ _ => ?choose) fun _ _ =>
    .dite (kind_iff h _) (fun _ _ => ?function) fun _ _ =>
    .dite (kind_iff h _) (fun _ _ => ?give) fun _ _ =>
    .dite (kind_iff h _) (fun _ _ => ?declare) fun _ _ =>
    .dite (kind_iff h _) (fun _ _ => ?importFrom) fun _ _ =>
    .dite (kind_iff h _) (fun _ _ => ?leave) fun _ _ => ?plain
  case empty =>
    exact .bind (matches_shift h _ _) fun _ _ _ _ _ _ _ next => .done (.empty _ _) next
  case block =>
    refine .bind (matches_shift h _ _) fun token c₁ h₁ token' d₁ k₁ _ there => ?_
    refine .bind (matches_braceBody c₁ d₁ there) fun body c₂ h₂ body' d₂ k₂ same there => ?_
    exact .done (same.block _ _) there
  case thenBlock =>
    exact .bind (matches_thenBlock c d h) fun _ _ _ _ _ _ same next => .done same.1 next
  case loop =>
    refine .bind (matches_shift h _ _) fun token c₁ h₁ token' d₁ k₁ _ there => ?_
    refine .bind (matches_statement c₁ d₁ there) fun body c₂ h₂ body' d₂ k₂ same there => ?_
    exact .done (same.loop _ _) there
  case choose =>
    refine .bind (matches_shift h _ _) fun token c₁ h₁ token' d₁ k₁ _ there => ?_
    refine .bind (matches_branchList c₁ d₁ there) ?_
    rintro ⟨branches, ending⟩ c₂ h₂ ⟨branches', _⟩ d₂ k₂ ⟨same, rfl⟩ there
    refine .bind (matches_elsePart ending c₂ d₂ there) fun last c₃ h₃ last' d₃ k₃ others there => ?_
    exact .done (SameArms.choose _ _ same others) there
  case function =>
    refine .bind (matches_shift h _ _) fun token c₁ h₁ token' d₁ k₁ _ there => ?_
    refine .bind (matches_require there _ _) fun name c₂ h₂ name' d₂ k₂ said there => ?_
    refine .bind (matches_parameters there) fun params c₃ h₃ params' d₃ k₃ names there => ?_
    refine .bind (matches_statement c₃ d₃ there) fun body c₄ h₄ body' d₄ k₄ same there => ?_
    exact .done (same.function _ _ said.text names) there
  case give =>
    refine .bind (matches_shift h _ _) fun token c₁ h₁ token' d₁ k₁ _ there => ?_
    refine .bind (matches_skip there _ _) ?_
    rintro bare c₂ h₂ _ d₂ k₂ rfl there
    dsimp only
    rw [there.kind]
    refine .ite Iff.rfl (.done (SameTree?.give _ _ rfl) there) ?_
    refine .bind (matches_expression c₂ d₂ there) fun value c₃ h₃ value' d₃ k₃ same there => ?_
    refine .bind (matches_skip there _ _) fun _ c₄ h₄ _ d₄ k₄ _ there => ?_
    exact .done (same.some.give _ _) there
  case declare =>
    refine .bind (matches_shift h _ _) fun token c₁ h₁ token' d₁ k₁ _ there => ?_
    refine .bind (matches_require there _ _) fun name c₂ h₂ name' d₂ k₂ said there => ?_
    refine .bind (matches_initializer c₂ d₂ there) fun init c₃ h₃ init' d₃ k₃ same there => ?_
    refine .bind (matches_skip there _ _) fun _ c₄ h₄ _ d₄ k₄ _ there => ?_
    exact .done (same.declare _ _ said.text) there
  case importFrom =>
    refine .bind (matches_shift h _ _) fun token c₁ h₁ token' d₁ k₁ _ there => ?_
    refine .bind (matches_require there _ _) fun first c₂ h₂ first' d₂ k₂ said there => ?_
    refine .bind (matches_path c₂ d₂ there) fun more c₃ h₃ more' d₃ k₃ names there => ?_
    refine .bind (matches_skip there _ _) ?_
    rintro renamed c₄ h₄ _ d₄ k₄ rfl there
    have path : first.text :: more = first'.text :: more' := congrArg₂ List.cons said.text names
    refine .ite Iff.rfl ?_ ?_
    · refine .bind (matches_require there _ _) fun name c₅ h₅ name' d₅ k₅ said there => ?_
      refine .bind (matches_skip there _ _) fun _ c₆ h₆ _ d₆ k₆ _ there => ?_
      exact .done (.importFrom _ _ path (congrArg some said.text)) there
    · refine .bind (matches_skip there _ _) fun _ c₅ h₅ _ d₅ k₅ _ there => ?_
      exact .done (.importFrom _ _ path rfl) there
  case leave =>
    refine .bind (matches_shift h _ _) fun token c₁ h₁ token' d₁ k₁ _ there => ?_
    refine .dite (kind_iff there _) (fun _ _ => ?_) fun _ _ => ?_
    · refine .bind (matches_shift there _ _) fun _ c₂ h₂ _ d₂ k₂ _ there => ?_
      refine .bind (matches_expression c₂ d₂ there) fun value c₃ h₃ value' d₃ k₃ same there => ?_
      refine .bind (matches_require there _ _) fun _ c₄ h₄ _ d₄ k₄ _ there => ?_
      refine .bind (matches_skip there _ _) fun _ c₅ h₅ _ d₅ k₅ _ there => ?_
      exact .done (same.some.leave _ _) there
    · refine .bind (matches_skip there _ _) fun _ c₂ h₂ _ d₂ k₂ _ there => ?_
      exact .done (SameTree?.leave _ _ rfl) there
  case plain =>
    refine .bind (matches_expression c d h) fun value c₁ h₁ value' d₁ k₁ same there => ?_
    refine .bind (matches_skip there _ _) fun _ c₂ h₂ _ d₂ k₂ _ there => ?_
    exact .done (same.plain _ _) there
termination_by 32 * c.remaining + 15
decreasing_by all_goals omega

theorem matches_initializer (c d : Cursor) (h : c.Beside s t d) :
    Matches s t SameTree? (initializer c) (initializer d) := by
  rw [initializer, initializer]
  refine .dite (kind_iff h _) (fun _ _ => ?_) fun _ _ => .done rfl h
  refine .bind (matches_shift h _ _) fun _ c₁ h₁ _ d₁ k₁ _ there => ?_
  refine .bind (matches_expression c₁ d₁ there) fun value c₂ h₂ value' d₂ k₂ same there => ?_
  exact .done same.some there
termination_by 32 * c.remaining
decreasing_by omega

theorem matches_braceBody (c d : Cursor) (h : c.Beside s t d) :
    Matches s t SameTrees (braceBody c) (braceBody d) := by
  rw [braceBody, braceBody]
  refine .dite (kind_iff h _) (fun _ _ => ?_) fun _ _ =>
    .ite (by rw [h.atEnd]) (matches_refuse h _) ?_
  · exact .bind (matches_shift h _ _) fun _ _ _ _ _ _ _ next => .done rfl next
  · refine .bind (matches_statement c d h) fun first c₁ h₁ first' d₁ k₁ same there => ?_
    refine .bind (matches_braceBody c₁ d₁ there) fun more c₂ h₂ more' d₂ k₂ others there => ?_
    exact .done (same.cons others) there
termination_by 32 * c.remaining + 16
decreasing_by all_goals omega

theorem matches_thenBlock (c d : Cursor) (h : c.Beside s t d) :
    Matches s t (SameEnding SameTree) (thenBlock c) (thenBlock d) := by
  rw [thenBlock, thenBlock]
  refine .bind (matches_require h _ _) fun token c₁ h₁ token' d₁ k₁ _ there => ?_
  refine .bind (matches_thenBody c₁ d₁ there) ?_
  rintro ⟨body, ending⟩ c₂ h₂ ⟨body', _⟩ d₂ k₂ ⟨same, rfl⟩ there
  exact .done ⟨same.block _ _, rfl⟩ there
termination_by 32 * c.remaining
decreasing_by omega

theorem matches_thenBody (c d : Cursor) (h : c.Beside s t d) :
    Matches s t (SameEnding SameTrees) (thenBody c) (thenBody d) := by
  rw [thenBody, thenBody]
  refine .dite (kind_iff h _) (fun _ _ => ?_) fun _ _ =>
    .ite (by rw [h.kind]) (.done ⟨rfl, rfl⟩ h) <|
    .ite (by rw [h.atEnd]) (matches_refuse h _) ?_
  · exact .bind (matches_shift h _ _) fun _ _ _ _ _ _ _ next => .done ⟨rfl, rfl⟩ next
  · refine .bind (matches_statement c d h) fun first c₁ h₁ first' d₁ k₁ same there => ?_
    refine .bind (matches_thenBody c₁ d₁ there) ?_
    rintro ⟨more, ending⟩ c₂ h₂ ⟨more', _⟩ d₂ k₂ ⟨others, rfl⟩ there
    exact .done ⟨same.cons others, rfl⟩ there
termination_by 32 * c.remaining + 16
decreasing_by all_goals omega

theorem matches_branchBody (c d : Cursor) (h : c.Beside s t d) :
    Matches s t (SameEnding SameTree) (branchBody c) (branchBody d) := by
  rw [branchBody, branchBody]
  refine .ite (kind_iff h _) (matches_thenBlock c d h) ?_
  exact .bind (matches_statement c d h) fun _ _ _ _ _ _ same next => .done ⟨same, rfl⟩ next
termination_by 32 * c.remaining + 16
decreasing_by all_goals omega

theorem matches_branchList (c d : Cursor) (h : c.Beside s t d) :
    Matches s t (SameEnding SameArms) (branchList c) (branchList d) := by
  rw [branchList, branchList]
  refine .bind (matches_expression c d h) fun test c₁ h₁ test' d₁ k₁ first there => ?_
  refine .bind (matches_branchBody c₁ d₁ there) ?_
  rintro ⟨body, ending⟩ c₂ h₂ ⟨body', _⟩ d₂ k₂ ⟨second, rfl⟩ there
  dsimp only
  refine .dite (kind_iff there _) (fun _ _ => ?_) fun _ _ =>
    .done ⟨first.arm second rfl, rfl⟩ there
  refine .bind (matches_shift there _ _) fun _ c₃ h₃ _ d₃ k₃ _ there => ?_
  refine .bind (matches_branchList c₃ d₃ there) ?_
  rintro ⟨more, ending⟩ c₄ h₄ ⟨more', _⟩ d₄ k₄ ⟨others, rfl⟩ there
  exact .done ⟨first.arm second others, rfl⟩ there
termination_by 32 * c.remaining + 15
decreasing_by all_goals omega

theorem matches_elsePart (ending : BranchEnd) (c d : Cursor) (h : c.Beside s t d) :
    Matches s t SameTree? (elsePart ending c) (elsePart ending d) := by
  rw [elsePart.eq_def, elsePart.eq_def ending d]
  refine .dite (kind_iff h _) (fun _ _ => ?_) fun _ _ => ?_
  · refine .bind (matches_shift h _ _) fun token c₁ h₁ token' d₁ k₁ _ there => ?_
    cases ending with
    | owing =>
      refine .bind (matches_thenBody c₁ d₁ there) ?_
      rintro ⟨body, ending⟩ c₂ h₂ ⟨body', _⟩ d₂ k₂ ⟨same, rfl⟩ there
      cases ending with
      | owing => exact matches_refuse there _
      | closed => exact .done (same.block _ _).some there
    | closed =>
      refine .bind (matches_statement c₁ d₁ there) fun body c₂ h₂ body' d₂ k₂ same there => ?_
      exact .done same.some there
  · cases ending with
    | owing => exact matches_refuse h _
    | closed => exact .done rfl h
termination_by 32 * c.remaining
decreasing_by all_goals omega

end

/-- Statements are read up to the end. -/
theorem matches_statements (c d : Cursor) (h : c.Beside s t d) :
    Agrees s t (fun read read' => SameTrees read.value read'.value ∧
      read.next.Beside s t read'.next ∧ read.next.kind = .endOfInput) (statements c) (statements d) := by
  rw [statements, statements]
  by_cases ended : c.atEnd
  · rw [if_pos ended, if_pos (h.atEnd ▸ ended)]
    exact .found ⟨rfl, h, of_decide_eq_true ended⟩
  · rw [if_neg ended, if_neg (h.atEnd ▸ ended)]
    refine .bind (matches_statement c d h) fun first first' one => ?_
    have fewer := first.fewer
    refine .bind (matches_statements first.next first'.next one.2) fun more more' others => ?_
    exact .found ⟨one.1.cons others.1, others.2⟩
termination_by c.remaining
decreasing_by exact fewer

end Parser

/-! ## Sources -/

namespace TokenStream

/-- Only the end of a source says that it is the end. -/
theorem proper_ofSource (source : List Char) :
    ∀ token, .ok token ∈ (ofSource source).items → token.kind ≠ .endOfInput := by
  intro token mem
  obtain ⟨part, spells⟩ := (tiles_ofSource source).spelled mem
  exact spells.1

theorem alike_refl (source : List Char) : (ofSource source).Alike (ofSource source) :=
  ⟨rfl, proper_ofSource source⟩

/-- The streams of two sources whose tokens say the same. -/
theorem alike_of_tokens {source other : List Char} {tokens others : List Token}
    (first : (ofSource source).tokens = .ok tokens) (second : (ofSource other).tokens = .ok others)
    (same : tokens.map Token.said = others.map Token.said) :
    (ofSource source).Alike (ofSource other) := by
  refine ⟨?_, proper_ofSource source⟩
  obtain ⟨some, items, rfl⟩ := items_of_tokens first
  obtain ⟨some', items', rfl⟩ := items_of_tokens second
  rw [List.map_append, List.map_append] at same
  have inner := (List.append_inj' same rfl).1
  rw [items, items', List.map_map, List.map_map]
  have lifted := congrArg (List.map Option.some) inner
  rw [List.map_map, List.map_map] at lifted
  exact lifted

end TokenStream

/-- A source starts with a cursor at the first place of its stream, or with the first error. -/
theorem Cursor.at_ofSource (text : String) :
    match Cursor.ofSource text with
    | .ok c => c.At (TokenStream.ofSource text.toList) 0
    | .error e => (TokenStream.ofSource text.toList).tokens = .error e ∧
        (TokenStream.ofSource text.toList).entries[0]? = some (.error e) := by
  unfold Cursor.ofSource
  generalize TokenStream.ofSource text.toList = s
  obtain ⟨items, final⟩ := s
  dsimp only
  cases items with
  | nil => exact ⟨rfl, rfl, rfl, [], rfl⟩
  | cons item rest =>
    cases item with
    | ok token => exact ⟨rfl, rfl, rfl, [], rfl⟩
    | error e => exact ⟨@TokenStream.tokens_of_error _ [] _ _ rfl, rfl⟩

/-- Sources whose tokens say the same start with cursors at one place, or both with an error. -/
theorem agrees_ofSource {text other : String}
    (alike : (TokenStream.ofSource text.toList).Alike (.ofSource other.toList)) :
    Agrees (.ofSource text.toList) (.ofSource other.toList)
      (Cursor.Beside (.ofSource text.toList) (.ofSource other.toList))
      ((Cursor.ofSource text).mapError .lex) ((Cursor.ofSource other).mapError .lex) := by
  have opened := Cursor.at_ofSource text
  have opened' := Cursor.at_ofSource other
  have same := alike.entries 0
  cases first : Cursor.ofSource text <;> cases second : Cursor.ofSource other <;>
    rw [first] at opened <;> rw [second] at opened'
  case ok.ok c d => exact .found ⟨alike, 0, opened, opened'⟩
  case error.error => exact .lex opened.1 opened'.1
  case error.ok =>
    rw [opened.2, opened'.current] at same
    cases same
  case ok.error =>
    rw [opened.current, opened'.2] at same
    cases same

/-- The index of the token at which an error stands, among the tokens of its source. -/
def ParseError.index? (e : ParseError) (tokens : List Token) : Option Nat :=
  tokens.findIdx? fun token => token.position = e.position ∧ token.span = e.span

/-- An error stands at one token only. -/
theorem ParseError.At.index? {source : List Char} {tokens : List Token} {e : ParseError} {i : Nat}
    (h : e.At (TokenStream.ofSource source) i) (read : (TokenStream.ofSource source).tokens = .ok tokens) :
    e.index? tokens = some i := by
  obtain ⟨token, found, position, span⟩ := h
  obtain ⟨some, items, rfl⟩ := TokenStream.items_of_tokens read
  have nodup := (tiles_ofSource source).nodup_positions
  have entries : (TokenStream.ofSource source).entries =
      (some ++ [(TokenStream.ofSource source).final.token]).map .ok := by
    rw [TokenStream.entries, items, List.map_append]
    rfl
  have places : positions (TokenStream.ofSource source).items (TokenStream.ofSource source).final =
      (some ++ [(TokenStream.ofSource source).final.token]).map Token.position := by
    rw [positions, items, List.map_append, List.map_map]
    rfl
  rw [entries] at found
  rw [places] at nodup
  generalize some ++ [(TokenStream.ofSource source).final.token] = tokens at *
  rw [List.getElem?_map] at found
  obtain ⟨token', there, same⟩ := Option.map_eq_some_iff.1 found
  obtain rfl := Except.ok.inj same
  obtain ⟨inside, rfl⟩ := List.getElem?_eq_some_iff.1 there
  refine List.findIdx?_eq_some_iff_getElem.2 ⟨inside, ?_, fun j before meets => ?_⟩
  · exact decide_eq_true ⟨position.symm, span.symm⟩
  · have equal := (of_decide_eq_true meets).1.trans position
    have apart := List.pairwise_iff_getElem.1 nodup j i
      (by rw [List.length_map]; omega) (by rwa [List.length_map]) before
    rw [List.getElem_map, List.getElem_map] at apart
    exact apart equal

/-- Sources whose tokens say the same are parsed alike; where there is a tree, there are no errors. -/
theorem agrees_parse {text other : String}
    (alike : (TokenStream.ofSource text.toList).Alike (.ofSource other.toList)) :
    Agrees (.ofSource text.toList) (.ofSource other.toList)
      (fun tree tree' => SameTree tree tree' ∧ ∃ tokens, tokenize text = .ok tokens)
      (parse text) (parse other) := by
  refine (agrees_ofSource alike).bind fun c d beside => ?_
  refine (Parser.matches_statements c d beside).bind fun body body' found => ?_
  obtain ⟨same, ⟨-, i, last, -⟩, ended⟩ := found
  exact .found ⟨same.block _ _, last.tokens (TokenStream.proper_ofSource _) ended⟩

/-- **The parser sees the tokens and nothing else.**  Where it succeeds there are no errors among the
tokens, where it fails with one that is the first; and sources whose tokens say the same make trees that
differ in their spans at most, or fail for one cause at one token. -/
theorem parse_sees_tokens_only :
    (∀ source tree, parse source = .ok tree → ∃ tokens, tokenize source = .ok tokens) ∧
    (∀ source e, parse source = .error (.lex e) → tokenize source = .error e) ∧
    ∀ source other tokens others, tokenize source = .ok tokens → tokenize other = .ok others →
      tokens.map Token.said = others.map Token.said →
      (∃ tree tree', parse source = .ok tree ∧ parse other = .ok tree' ∧ tree.bare = tree'.bare) ∨
      ∃ e e' i, parse source = .error (.parse e) ∧ parse other = .error (.parse e') ∧
        e.cause = e'.cause ∧ e.index? tokens = some i ∧ e'.index? others = some i := by
  refine ⟨fun source tree made => ?_, fun source e failed => ?_,
    fun source other tokens others read read' same => ?_⟩
  · have itself := agrees_parse (TokenStream.alike_refl source.toList)
    rw [made] at itself
    cases itself with
    | found both => exact both.2
  · have itself := agrees_parse (TokenStream.alike_refl source.toList)
    rw [failed] at itself
    cases itself with
    | lex first _ => exact first
  · have agrees := agrees_parse (TokenStream.alike_of_tokens read read' same)
    generalize parse source = outcome at agrees
    generalize parse other = outcome' at agrees
    cases agrees with
    | found both => exact .inl ⟨_, _, rfl, rfl, both.1⟩
    | lex first _ => cases first.symm.trans read
    | parse cause first second =>
      exact .inr ⟨_, _, _, rfl, rfl, cause, first.index? read, second.index? read'⟩

/-- A tree with another layout, a parenthesis that is not closed in two layouts, and a character that
starts no token. -/
theorem parse_sees_tokens_only_apart :
    (∃ tree tree', parse "-x" = .ok tree ∧ parse "- // y\nx" = .ok tree' ∧ tree.bare = tree'.bare) ∧
    (∃ e e' i, parse "(x" = .error (.parse e) ∧ parse " (\tx " = .error (.parse e') ∧
      e.cause = e'.cause ∧
      e.index? [⟨.leftParen, "(", ⟨0, 1⟩, ⟨1, 1⟩⟩, ⟨.identifier, "x", ⟨1, 2⟩, ⟨1, 2⟩⟩,
        ⟨.endOfInput, "", ⟨2, 2⟩, ⟨1, 3⟩⟩] = some i ∧
      e'.index? [⟨.leftParen, "(", ⟨1, 2⟩, ⟨1, 2⟩⟩, ⟨.identifier, "x", ⟨3, 4⟩, ⟨1, 4⟩⟩,
        ⟨.endOfInput, "", ⟨5, 5⟩, ⟨1, 6⟩⟩] = some i) ∧
    tokenize "x #" = .error ⟨.invalidCharacter '#', ⟨1, 3⟩, ⟨2, 3⟩⟩ := by
  refine ⟨?_, ?_, ?_⟩
  · refine (parse_sees_tokens_only.2.2 "-x" "- // y\nx"
      [⟨.minus, "-", ⟨0, 1⟩, ⟨1, 1⟩⟩, ⟨.identifier, "x", ⟨1, 2⟩, ⟨1, 2⟩⟩,
        ⟨.endOfInput, "", ⟨2, 2⟩, ⟨1, 3⟩⟩]
      [⟨.minus, "-", ⟨0, 1⟩, ⟨1, 1⟩⟩, ⟨.identifier, "x", ⟨7, 8⟩, ⟨2, 1⟩⟩,
        ⟨.endOfInput, "", ⟨8, 8⟩, ⟨2, 2⟩⟩]
      (by decide +kernel) (by decide +kernel) rfl).resolve_right ?_
    rintro ⟨e, e', i, failed, -⟩
    have made : (parse "-x").isOk = true := by decide +kernel
    rw [failed] at made
    cases made
  · have read : tokenize "(x" = .ok [⟨.leftParen, "(", ⟨0, 1⟩, ⟨1, 1⟩⟩,
        ⟨.identifier, "x", ⟨1, 2⟩, ⟨1, 2⟩⟩, ⟨.endOfInput, "", ⟨2, 2⟩, ⟨1, 3⟩⟩] := by decide +kernel
    have read' : tokenize " (\tx " = .ok [⟨.leftParen, "(", ⟨1, 2⟩, ⟨1, 2⟩⟩,
        ⟨.identifier, "x", ⟨3, 4⟩, ⟨1, 4⟩⟩, ⟨.endOfInput, "", ⟨5, 5⟩, ⟨1, 6⟩⟩] := by decide +kernel
    refine (parse_sees_tokens_only.2.2 "(x" " (\tx " _ _ read read' rfl).resolve_left ?_
    rintro ⟨tree, tree', made, -⟩
    have failed : (parse "(x").isOk = false := by decide +kernel
    rw [made] at failed
    cases failed
  · refine parse_sees_tokens_only.2.1 "x #" _ ?_
    have failed : (match parse "x #" with
        | .error e => some e
        | .ok _ => none) = some (.lex ⟨.invalidCharacter '#', ⟨1, 3⟩, ⟨2, 3⟩⟩) := by decide +kernel
    split at failed
    next e made => rw [made, Option.some.inj failed]
    next => cases failed

end HostScript
