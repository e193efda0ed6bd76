import HostScript.Proofs.Syntax.Insertions

/-!
# Proofs/Syntax/Closings — reading a source in which a block is closed by a terminator

A source with a terminator more, before a word that closes a block, is read into the same tree but for that
block, whose statements become `Node.closing` of them.  There is one lemma for each reader, by the recursion
of the readers; what is special happens where a body ends at the word (`ClosesBody`), since no statement
starts there (`statement_of_closes`).

If the source makes no tree, then neither does the changed one, unless it fails at the word itself.
-/

namespace HostScript

open Node (closing closeAfter endTakes takesLast)

/-! ## Bodies -/

/-- A block that the word closes, and what becomes of it. -/
def Insertion.closed (I : Insertion) (x y : Node) : Prop :=
  ∃ first ∈ I.tokens.take I.place, ∃ body, x = .block (first.span.merge I.word.span) body ∧
    y = .block (first.span.merge I.word.span) (closing body)

/-- **Bodies that are read past the word**: it is passed in one of their statements, or it closes them, and
then the terminator is taken by the last statement or an empty statement.  The word before may have taken a
terminator. -/
def Insertion.ClosesBody (I : Insertion) (taken passed now : Bool) (previous : Span) (body body' : List Node) :
    Prop :=
  ClosesAll I.closed passed now body body' ∨
    passed = false ∧ now = true ∧ previous = I.word.span ∧ SameTrees (closeAfter taken body) body'

namespace Parser

variable {I : Insertion} {c d : Cursor} {n m : Nat}

/-! ## Names -/

theorem carries_names {taken passed : Bool} (c d : Cursor) (h : I.Faces taken passed c d) :
    Keeps I passed Eq (names c) (names d) := by
  rw [names, names]
  refine .dite (h.kind_iff rfl) (fun here _ => ?_) fun _ _ => ?_
  · exact Words.bind (carries_shift h (here ▸ rfl) _ _) fun _ _ _ _ _ _ _ _ next => Keeps.done rfl next
  · refine Words.bind (carries_require h _ _) fun name c₁ h₁ name' d₁ k₁ said _ there => ?_
    refine Keeps.bind (carries_skip there _ _) fun _ c₂ h₂ _ d₂ k₂ _ _ there => ?_
    refine Keeps.bind (carries_names c₂ d₂ there) fun more c₃ h₃ more' d₃ k₃ _ same there => ?_
    exact Keeps.done (congrArg₂ List.cons (congrArg Prod.snd said) same) there
termination_by c.remaining
decreasing_by omega

theorem carries_parameters {taken passed : Bool} (h : I.Faces taken passed c d) :
    Keeps I passed Eq (parameters c) (parameters d) := by
  rw [parameters, parameters]
  refine Words.bind (carries_require h _ _) fun _ c₁ h₁ _ d₁ k₁ _ _ there => ?_
  exact Keeps.bind (carries_names c₁ d₁ there) fun _ _ _ _ _ _ _ same next => Keeps.done same next

theorem carries_path {taken passed : Bool} (c d : Cursor) (h : I.Faces taken passed c d) :
    Keeps I passed Eq (path c) (path d) := by
  rw [path, path]
  refine .dite (h.kind_iff rfl) (fun here _ => ?_) fun _ _ => Keeps.done rfl h
  refine Words.bind (carries_shift h (here ▸ rfl) _ _) fun _ c₁ h₁ _ d₁ k₁ _ _ there => ?_
  refine Words.bind (carries_require there _ _) fun name c₂ h₂ name' d₂ k₂ said _ there => ?_
  refine Keeps.bind (carries_path c₂ d₂ there) fun more c₃ h₃ more' d₃ k₃ _ same there => ?_
  exact Keeps.done (congrArg₂ List.cons (congrArg Prod.snd said) same) there
termination_by c.remaining
decreasing_by omega

theorem carries_dotted {taken passed : Bool} (target target' : Node) (c d : Cursor)
    (first : SameTree target target') (h : I.Faces taken passed c d) :
    Keeps I passed SameTree (dotted target c) (dotted target' d) := by
  rw [dotted, dotted]
  refine .dite (h.kind_iff rfl) (fun here _ => ?_) fun _ _ => Keeps.done first h
  refine Words.bind (carries_shift h (here ▸ rfl) _ _) fun _ c₁ h₁ _ d₁ k₁ _ _ there => ?_
  refine Words.bind (carries_require there _ _) fun name c₂ h₂ name' d₂ k₂ said _ there => ?_
  have longer := first.member (c₂.spanFrom target.span) (d₂.spanFrom target'.span)
    (congrArg Prod.snd said) .get
  exact Keeps.bind (carries_dotted _ _ c₂ d₂ longer there) fun _ _ _ _ _ _ _ same next =>
    Keeps.done same next
termination_by c.remaining
decreasing_by omega

/-! ## Where no statement starts -/

theorem kind_ne (closes : c.kind.closes = true) {kind : Kind} (other : kind.closes = false) :
    c.kind ≠ kind := by
  rintro rfl
  cases other.symm.trans closes

theorem primary_of_closes (closes : c.kind.closes = true) : primary c = refuse c "expression" := by
  have constant : ¬startsLiteral c.kind = true := by
    generalize c.kind = kind at closes
    cases kind <;> first | exact Bool.false_ne_true | cases closes
  rw [primary, dif_neg (kind_ne closes rfl), dif_neg constant, dif_neg (kind_ne closes rfl),
    dif_neg (kind_ne closes rfl), dif_neg (kind_ne closes rfl)]

theorem unary_of_closes (closes : c.kind.closes = true) : unary c = refuse c "expression" := by
  have operator : prefixOperator? c.kind = none := by
    generalize c.kind = kind at closes
    cases kind <;> first | rfl | cases closes
  rw [unary]
  split
  next found => cases operator.symm.trans found
  next =>
    rw [postfixed, primary_of_closes closes]
    rfl

theorem binary_of_closes (closes : c.kind.closes = true) (level : Level) :
    binary level c = refuse c "expression" := by
  rw [binary, operand]
  split
  next tighter tight =>
    rw [binary_of_closes closes tighter]
    rfl
  next =>
    rw [unary_of_closes closes]
    rfl
termination_by level.depth
decreasing_by exact Level.depth_of_tighter? ‹_›

/-- **No statement starts with a word that closes.** -/
theorem statement_of_closes (closes : c.kind.closes = true) : statement c = refuse c "expression" := by
  have expression : expression c = refuse c "expression" := by
    rw [expression, binary_of_closes closes]
    rfl
  rw [statement, dif_neg (kind_ne closes rfl), dif_neg (kind_ne closes rfl), if_neg (kind_ne closes rfl),
    dif_neg (kind_ne closes rfl), dif_neg (kind_ne closes rfl), dif_neg (kind_ne closes rfl),
    dif_neg (kind_ne closes rfl), dif_neg (kind_ne closes rfl), dif_neg (kind_ne closes rfl),
    dif_neg (kind_ne closes rfl), expression]
  rfl

/-! ## Parts and bodies -/

/-- Parts of expressions that carry over. -/
abbrev Parts (I : Insertion) (passed : Bool) (r : Reading Node n) (r' : Reading Node m) : Prop :=
  Reach I (fun _ now a b => Closes I.closed passed now a b) r r'

/-- Statements that carry over. -/
abbrev States (I : Insertion) (passed : Bool) (r : Reading Node n) (r' : Reading Node m) : Prop :=
  Reach I (fun taken now a b => taken = a.takes ∧ Closes I.closed passed now a b) r r'

/-- Bodies of arms that carry over. -/
abbrev Arms (I : Insertion) (passed : Bool) (r : Reading (Node × BranchEnd) n)
    (r' : Reading (Node × BranchEnd) m) : Prop :=
  Reach I (fun taken now a b => taken = a.1.takes ∧ Closes I.closed passed now a.1 b.1 ∧ a.2 = b.2) r r'

/-- Arms that carry over.  Whether the last of them takes a terminator does not depend on what comes before. -/
abbrev Branches (I : Insertion) (passed : Bool) (r : Reading (List (Node × Node) × BranchEnd) n)
    (r' : Reading (List (Node × Node) × BranchEnd) m) : Prop :=
  Reach I (fun taken now a b => (∀ before, taken = takesLast before a.1) ∧
    ClosesAll I.closed passed now (armParts a.1) (armParts b.1) ∧ a.2 = b.2) r r'

/-- Bodies that carry over. -/
abbrev Bodies (I : Insertion) (taken passed : Bool) (r : Reading (List Node) n)
    (r' : Reading (List Node) m) : Prop :=
  I.Carries (fun read read' => ∃ now,
    I.ClosesBody taken passed now read.next.previous read.value read'.value ∧
    I.Faces false now read.next read'.next) r r'

/-- Bodies that carry over, with how they end. -/
abbrev EndedBodies (I : Insertion) (taken passed : Bool) (r : Reading (List Node × BranchEnd) n)
    (r' : Reading (List Node × BranchEnd) m) : Prop :=
  I.Carries (fun read read' => read.value.2 = read'.value.2 ∧ ∃ now,
    I.ClosesBody taken passed now read.next.previous read.value.1 read'.value.1 ∧
    I.Faces false now read.next read'.next) r r'

/-- Lists of parts that carry over. -/
abbrev Lists (I : Insertion) (passed : Bool) {α : Type} (parts : α → List Node) (r : Reading α n)
    (r' : Reading α m) : Prop :=
  Reach I (fun _ now a b => ClosesAll I.closed passed now (parts a) (parts b)) r r'

section

variable {taken passed now : Bool}

theorem States.done {a b : Node} {fewer : c.remaining < n} {fewer' : d.remaining < m}
    (same : Closes I.closed passed now a b) (h : I.Faces a.takes now c d) :
    States I passed (.ok ⟨a, c, fewer⟩ : Reading Node n) (.ok ⟨b, d, fewer'⟩ : Reading Node m) :=
  .found ⟨_, now, ⟨rfl, same⟩, h⟩

theorem Arms.done {a b : Node} {ending : BranchEnd} {fewer : c.remaining < n} {fewer' : d.remaining < m}
    (same : Closes I.closed passed now a b) (h : I.Faces a.takes now c d) :
    Arms I passed (.ok ⟨(a, ending), c, fewer⟩ : Reading (Node × BranchEnd) n)
      (.ok ⟨(b, ending), d, fewer'⟩ : Reading (Node × BranchEnd) m) :=
  .found ⟨_, now, ⟨rfl, same, rfl⟩, h⟩

theorem Lists.done {α : Type} {parts : α → List Node} {a b : α} {fewer : c.remaining < n}
    {fewer' : d.remaining < m} (same : ClosesAll I.closed passed now (parts a) (parts b))
    (h : I.Faces taken now c d) :
    Lists I passed parts (.ok ⟨a, c, fewer⟩ : Reading α n) (.ok ⟨b, d, fewer'⟩ : Reading α m) :=
  .found ⟨taken, now, same, h⟩

end

theorem ClosesBody.cons {taken passed now after : Bool} {previous : Span} {first first' : Node}
    {more more' : List Node} (one : Closes I.closed passed now first first')
    (rest : I.ClosesBody first.takes now after previous more more') :
    I.ClosesBody taken passed after previous (first :: more) (first' :: more') := by
  rcases rest with rest | ⟨rfl, rfl, place, same⟩
  · exact .inl (.cons one rest)
  · cases passed with
    | true => exact one.elim
    | false =>
      refine .inr ⟨rfl, rfl, place, ?_⟩
      rw [Node.closeAfter_cons]
      exact one.same.cons same

/-- A block whose body is read past the word. -/
theorem ClosesBody.block {passed now : Bool} {body body' : List Node} {first : Token} {other : Span}
    (h : I.ClosesBody false passed now c.previous body body')
    (early : passed = false → first ∈ I.tokens.take I.place) :
    Closes I.closed passed now (.block (c.spanFrom first.span) body) (.block other body') := by
  rcases h with h | ⟨rfl, rfl, place, same⟩
  · exact .inside rfl h
  · refine ⟨_, _, _, ⟨first, early rfl, body, ?_, rfl⟩, .here, same.block _ _⟩
    rw [Cursor.spanFrom, place]

/-! ### Bodies that end at the word -/

variable {s : TokenStream} {tokens : List Token} {j : Nat}

/-- A lone terminator is an empty statement. -/
theorem statement_of_terminator (h : c.At s j) (read : s.tokens = .ok tokens) (here : c.kind = .semicolon) :
    ∃ after fewer, statement c = .ok ⟨.empty c.current.span, after, fewer⟩ ∧ after.At s (j + 1) := by
  obtain ⟨after, fewer, step, next, -⟩ := shift_moves h read (by rw [here]; exact Kind.noConfusion)
  refine ⟨after, fewer, ?_, next⟩
  rw [statement, dif_pos here, step]
  rfl

theorem braceBody_of_brace (h : c.At s j) (read : s.tokens = .ok tokens) (here : c.kind = .rightBrace) :
    ∃ after fewer, braceBody c = .ok ⟨[], after, fewer⟩ ∧ after.At s (j + 1) ∧
      after.previous = c.current.span := by
  obtain ⟨after, fewer, step, next, place⟩ := shift_moves h read (by rw [here]; exact Kind.noConfusion)
  refine ⟨after, fewer, ?_, next, place⟩
  rw [braceBody, dif_pos here, step]
  rfl

theorem thenBody_of_end (h : c.At s j) (read : s.tokens = .ok tokens) (here : c.kind = .endWord) :
    ∃ after fewer, thenBody c = .ok ⟨([], .closed), after, fewer⟩ ∧ after.At s (j + 1) ∧
      after.previous = c.current.span := by
  obtain ⟨after, fewer, step, next, place⟩ := shift_moves h read (by rw [here]; exact Kind.noConfusion)
  refine ⟨after, Nat.lt_succ_of_lt fewer, ?_, next, place⟩
  rw [thenBody, dif_pos here, step]
  rfl

/-- A body in braces does not end at another word that closes. -/
theorem braceBody_of_closes (closes : c.kind.closes = true) (other : c.kind ≠ .rightBrace) :
    ∃ expected, braceBody c = refuse c expected := by
  rw [braceBody, dif_neg other]
  split
  · exact ⟨_, rfl⟩
  · refine ⟨"expression", ?_⟩
    rw [statement_of_closes closes]
    rfl

theorem thenBody_of_closes (closes : c.kind.closes = true) (other : c.kind ≠ .endWord) :
    ∃ expected, thenBody c = refuse c expected := by
  have neither : ¬(decide (c.kind = .elseIfWord) || decide (c.kind = .elseWord)) = true := by
    rw [decide_eq_false (kind_ne closes rfl), decide_eq_false (kind_ne closes rfl)]
    exact Bool.false_ne_true
  rw [thenBody, dif_neg other, if_neg neither]
  split
  · exact ⟨_, rfl⟩
  · refine ⟨"expression", ?_⟩
    rw [statement_of_closes closes]
    rfl

/-- The words after the terminator say what the words after the word say. -/
theorem faces_after {after after' : Cursor} (left : after.At I.stream (I.place + 1))
    (right : after'.At I.changed (I.place + 1 + 1)) : I.Faces false true after after' :=
  .aligned (.after (Nat.lt_succ_self _) left right)

theorem closes_braceBody {taken : Bool} (left : c.At I.stream I.place)
    (right : d.At I.changed I.place ∧ taken = false ∨ d.At I.changed (I.place + 1) ∧ taken = true) :
    Bodies I taken false (braceBody c) (braceBody d) := by
  have closes := Insertion.closes_of_place left
  by_cases here : c.kind = .rightBrace
  · have word : I.word.kind = .rightBrace := by rwa [← Insertion.current_of_place left]
    obtain ⟨after, fewer, made, next, place⟩ := braceBody_of_brace left I.read here
    rw [Insertion.current_of_place left] at place
    rw [made]
    rcases right with ⟨right, rfl⟩ | ⟨right, rfl⟩
    · have there := Insertion.kind_ahead right
      obtain ⟨d₁, fewer₁, empty, right⟩ := statement_of_terminator right I.read_changed there
      obtain ⟨d₂, fewer₂, made', next', -⟩ :=
        braceBody_of_brace right I.read_changed ((Insertion.kind_behind right).trans word)
      have first : d.kind ≠ .rightBrace := by rw [there]; exact Kind.noConfusion
      have second : ¬d.atEnd = true := by rw [Cursor.atEnd, there]; exact Bool.false_ne_true
      rw [braceBody, dif_neg first, if_neg second, empty]
      show I.Carries _ _ (braceBody d₁ >>= _)
      rw [made']
      exact .found ⟨true, .inr ⟨rfl, rfl, place, rfl⟩, faces_after next next'⟩
    · obtain ⟨d₂, fewer₂, made', next', -⟩ :=
        braceBody_of_brace right I.read_changed ((Insertion.kind_behind right).trans word)
      rw [made']
      exact .found ⟨true, .inr ⟨rfl, rfl, place, rfl⟩, faces_after next next'⟩
  · obtain ⟨expected, failed⟩ := braceBody_of_closes closes here
    rw [failed]
    exact .stuck (Insertion.at_unexpected left expected)

theorem closes_thenBody {taken : Bool} (left : c.At I.stream I.place)
    (right : d.At I.changed I.place ∧ taken = false ∨ d.At I.changed (I.place + 1) ∧ taken = true) :
    EndedBodies I taken false (thenBody c) (thenBody d) := by
  have closes := Insertion.closes_of_place left
  by_cases here : c.kind = .endWord
  · have word : I.word.kind = .endWord := by rwa [← Insertion.current_of_place left]
    obtain ⟨after, fewer, made, next, place⟩ := thenBody_of_end left I.read here
    rw [Insertion.current_of_place left] at place
    rw [made]
    rcases right with ⟨right, rfl⟩ | ⟨right, rfl⟩
    · have there := Insertion.kind_ahead right
      obtain ⟨d₁, fewer₁, empty, right⟩ := statement_of_terminator right I.read_changed there
      obtain ⟨d₂, fewer₂, made', next', -⟩ :=
        thenBody_of_end right I.read_changed ((Insertion.kind_behind right).trans word)
      have first : d.kind ≠ .endWord := by rw [there]; exact Kind.noConfusion
      have second : ¬(decide (d.kind = .elseIfWord) || decide (d.kind = .elseWord)) = true := by
        rw [there]
        exact Bool.false_ne_true
      have third : ¬d.atEnd = true := by rw [Cursor.atEnd, there]; exact Bool.false_ne_true
      rw [thenBody, dif_neg first, if_neg second, if_neg third, empty]
      show I.Carries _ _ (thenBody d₁ >>= _)
      rw [made']
      exact .found ⟨rfl, true, .inr ⟨rfl, rfl, place, rfl⟩, faces_after next next'⟩
    · obtain ⟨d₂, fewer₂, made', next', -⟩ :=
        thenBody_of_end right I.read_changed ((Insertion.kind_behind right).trans word)
      rw [made']
      exact .found ⟨rfl, true, .inr ⟨rfl, rfl, place, rfl⟩, faces_after next next'⟩
  · obtain ⟨expected, failed⟩ := thenBody_of_closes closes here
    rw [failed]
    exact .stuck (Insertion.at_unexpected left expected)

/-! ## Expressions and statements -/

mutual

theorem carries_expression {taken passed : Bool} (c d : Cursor) (h : I.Faces taken passed c d) :
    Parts I passed (expression c) (expression d) := by
  rw [expression, expression]
  refine Reach.bind (carries_binary .disjunction c d h) fun target c₁ h₁ target' d₁ k₁ _ _ first there => ?_
  dsimp only
  refine .dite (there.kind_iff rfl) (fun here _ => ?_) fun _ _ => Reach.done first there
  refine Words.bind (carries_shift there (here ▸ rfl) _ _) fun _ c₂ h₂ _ d₂ k₂ _ _ there => ?_
  refine Reach.bind (carries_expression c₂ d₂ there) fun value c₃ h₃ value' d₃ k₃ _ _ second there => ?_
  exact Reach.done (.inside rfl (.cons first (.cons second .nil))) there
termination_by 32 * c.remaining + 14
decreasing_by
  · simp only [Level.depth]
    omega
  · omega

theorem carries_binary {taken passed : Bool} (level : Level) (c d : Cursor) (h : I.Faces taken passed c d) :
    Parts I passed (binary level c) (binary level d) := by
  rw [binary, binary]
  refine Reach.bind (carries_operand level c d h) fun left c₁ h₁ left' d₁ k₁ _ _ first there => ?_
  refine Reach.bind (carries_chain level left left' c₁ d₁ first there) ?_
  exact fun _ _ _ _ _ _ _ _ same next => Reach.done same next
termination_by 32 * c.remaining + 2 * level.depth + 3
decreasing_by all_goals omega

theorem carries_operand {taken passed : Bool} (level : Level) (c d : Cursor) (h : I.Faces taken passed c d) :
    Parts I passed (operand level c) (operand level d) := by
  rw [operand, operand]
  split
  next tighter tight =>
    have tightens := Level.depth_of_tighter? tight
    exact carries_binary tighter c d h
  next => exact carries_unary c d h
termination_by 32 * c.remaining + 2 * level.depth + 2
decreasing_by
  · omega
  · have := level.depth_pos
    omega

theorem carries_chain {taken passed now : Bool} (level : Level) (left left' : Node) (c d : Cursor)
    (first : Closes I.closed passed now left left') (h : I.Faces taken now c d) :
    Parts I passed (chain level left c) (chain level left' d) := by
  have operators : level.operator? c.kind = level.operator? d.kind :=
    h.look level.operator? none fun _ limits => operator?_of_limits limits level
  rw [chain, chain]
  split <;> split
  next op known op' known' =>
    have free : c.kind.limits = false := by
      by_contra limits
      cases (operator?_of_limits (Bool.not_eq_false _ ▸ limits) level).symm.trans known
    rw [operators, known'] at known
    obtain rfl := Option.some.inj known
    refine Words.bind (carries_shift h free _ _) fun _ c₁ h₁ _ d₁ k₁ _ _ there => ?_
    refine Reach.bind (carries_operand level c₁ d₁ there) fun right c₂ h₂ right' d₂ k₂ _ _ second there => ?_
    have grown : Closes I.closed passed _ (.binary (left.span.merge right.span) op' left right)
        (.binary (left'.span.merge right'.span) op' left' right') :=
      .inside rfl (.cons first (.cons second .nil))
    exact Reach.bind (carries_chain level _ _ c₂ d₂ grown there) fun _ _ _ _ _ _ _ _ same next =>
      Reach.done same next
  next _ known known' =>
    rw [operators, known'] at known
    cases known
  next known _ known' =>
    rw [operators, known'] at known
    cases known
  next => exact Reach.done first h
termination_by 32 * c.remaining
decreasing_by
  · have : level.depth ≤ 5 := by cases level <;> decide
    omega
  · omega

theorem carries_unary {taken passed : Bool} (c d : Cursor) (h : I.Faces taken passed c d) :
    Parts I passed (unary c) (unary d) := by
  have operators : prefixOperator? c.kind = prefixOperator? d.kind :=
    h.look prefixOperator? none fun _ => prefixOperator?_of_limits
  rw [unary, unary]
  split <;> split
  next op known op' known' =>
    have free : c.kind.limits = false := by
      by_contra limits
      cases (prefixOperator?_of_limits (Bool.not_eq_false _ ▸ limits)).symm.trans known
    rw [operators, known'] at known
    obtain rfl := Option.some.inj known
    refine Words.bind (carries_shift h free _ _) fun token c₁ h₁ token' d₁ k₁ _ _ there => ?_
    refine Reach.bind (carries_unary c₁ d₁ there) fun operand c₂ h₂ operand' d₂ k₂ _ _ same there => ?_
    exact Reach.done (.inside rfl (.cons same .nil)) there
  next _ known known' =>
    rw [operators, known'] at known
    cases known
  next known _ known' =>
    rw [operators, known'] at known
    cases known
  next => exact carries_postfixed c d h
termination_by 32 * c.remaining + 2
decreasing_by all_goals omega

theorem carries_postfixed {taken passed : Bool} (c d : Cursor) (h : I.Faces taken passed c d) :
    Parts I passed (postfixed c) (postfixed d) := by
  rw [postfixed, postfixed]
  refine Reach.bind (carries_primary c d h) fun node c₁ h₁ node' d₁ k₁ _ _ first there => ?_
  refine Reach.bind (carries_suffixes node node' c₁ d₁ first there) ?_
  exact fun _ _ _ _ _ _ _ _ same next => Reach.done same next
termination_by 32 * c.remaining + 1
decreasing_by all_goals omega

theorem carries_suffixes {taken passed now : Bool} (node node' : Node) (c d : Cursor)
    (first : Closes I.closed passed now node node') (h : I.Faces taken now c d) :
    Parts I passed (suffixes node c) (suffixes node' d) := by
  rw [suffixes, suffixes]
  refine .dite (h.kind_iff rfl) (fun here _ => ?member) fun _ _ =>
    .dite (h.kind_iff rfl) (fun _ _ => ?call) fun _ _ =>
    .dite (h.kind_iff rfl) (fun here _ => ?index) fun _ _ => Reach.done first h
  case member =>
    refine Words.bind (carries_shift h (here ▸ rfl) _ _) fun _ c₁ h₁ _ d₁ k₁ _ _ there => ?_
    refine Words.bind (carries_require there _ _) fun name c₂ h₂ name' d₂ k₂ said _ there => ?_
    dsimp only
    rw [if_congr (there.kind_iff rfl) rfl rfl]
    have text : name.text = name'.text := congrArg Prod.snd said
    rw [text]
    have grown (kind : MemberKind) : Closes I.closed passed _
        (.member (c₂.spanFrom node.span) node name'.text kind)
        (.member (d₂.spanFrom node'.span) node' name'.text kind) := .inside rfl (.cons first .nil)
    exact Reach.bind (carries_suffixes _ _ c₂ d₂ (grown _) there) fun _ _ _ _ _ _ _ _ same next =>
      Reach.done same next
  case call =>
    refine Reach.bind (carries_arguments c d h) fun args c₁ h₁ args' d₁ k₁ _ _ others there => ?_
    have grown : Closes I.closed passed _ (.call (c₁.spanFrom node.span) node args)
        (.call (d₁.spanFrom node'.span) node' args') := .inside rfl (.cons first others)
    exact Reach.bind (carries_suffixes _ _ c₁ d₁ grown there) fun _ _ _ _ _ _ _ _ same next =>
      Reach.done same next
  case index =>
    refine Words.bind (carries_shift h (here ▸ rfl) _ _) fun _ c₁ h₁ _ d₁ k₁ _ _ there => ?_
    refine Reach.bind (carries_expression c₁ d₁ there) fun index c₂ h₂ index' d₂ k₂ _ _ second there => ?_
    refine Words.bind (carries_require there _ _) fun _ c₃ h₃ _ d₃ k₃ _ _ there => ?_
    have grown : Closes I.closed passed _ (.index (c₃.spanFrom node.span) node index)
        (.index (d₃.spanFrom node'.span) node' index') := .inside rfl (.cons first (.cons second .nil))
    exact Reach.bind (carries_suffixes _ _ c₃ d₃ grown there) fun _ _ _ _ _ _ _ _ same next =>
      Reach.done same next
termination_by 32 * c.remaining + 17
decreasing_by all_goals omega

theorem carries_arguments {taken passed : Bool} (c d : Cursor) (h : I.Faces taken passed c d) :
    Lists I passed id (arguments c) (arguments d) := by
  rw [arguments, arguments]
  refine Words.bind (carries_require h _ _) fun _ c₁ h₁ _ d₁ k₁ _ _ there => ?_
  exact Reach.bind (carries_argumentList c₁ d₁ there) fun _ _ _ _ _ _ _ _ same next => Reach.done same next
termination_by 32 * c.remaining + 16
decreasing_by all_goals omega

theorem carries_argumentList {taken passed : Bool} (c d : Cursor) (h : I.Faces taken passed c d) :
    Lists I passed id (argumentList c) (argumentList d) := by
  rw [argumentList, argumentList]
  refine .dite (h.kind_iff rfl) (fun here _ => ?_) fun _ _ => carries_unlessEnded h ?_
  · exact Words.bind (carries_shift h (here ▸ rfl) _ _) fun _ _ _ _ _ _ _ _ next => Lists.done .nil next
  · refine Reach.bind (carries_expression c d h) fun arg c₁ h₁ arg' d₁ k₁ _ _ first there => ?_
    refine Keeps.bind (carries_skip there _ _) fun _ c₂ h₂ _ d₂ k₂ _ _ there => ?_
    refine Reach.bind (carries_argumentList c₂ d₂ there) fun more c₃ h₃ more' d₃ k₃ _ _ others there => ?_
    exact Lists.done (.cons first others) there
termination_by 32 * c.remaining + 15
decreasing_by all_goals omega

theorem carries_primary {taken passed : Bool} (c d : Cursor) (h : I.Faces taken passed c d) :
    Parts I passed (primary c) (primary d) := by
  rw [primary, primary]
  refine .dite (h.kind_iff rfl) (fun here _ => ?enclosed) fun _ _ =>
    .dite (by rw [h.look startsLiteral false fun _ => startsLiteral_of_limits]) (fun here _ => ?constant) fun _ _ =>
    .dite (h.kind_iff rfl) (fun here _ => ?named) fun _ _ =>
    .dite (h.kind_iff rfl) (fun here _ => ?create) fun _ _ =>
    .dite (h.kind_iff rfl) (fun here _ => ?lambda) fun _ _ => carries_refuse h _
  case enclosed =>
    refine Words.bind (carries_shift h (here ▸ rfl) _ _) fun _ c₁ h₁ _ d₁ k₁ _ _ there => ?_
    refine Reach.bind (carries_expression c₁ d₁ there) fun inner c₂ h₂ inner' d₂ k₂ _ _ same there => ?_
    exact Words.bind (carries_require there _ _) fun _ _ _ _ _ _ _ _ next => Reach.done same next
  case constant =>
    have free : c.kind.limits = false := by
      by_contra limits
      cases (startsLiteral_of_limits (Bool.not_eq_false _ ▸ limits)).symm.trans here
    exact carries_literal (h.to_aligned free) _ _ fun _ _ _ same => .of_same same _
  case named =>
    refine Words.bind (carries_shift h (here ▸ rfl) _ _) fun token c₁ h₁ token' d₁ k₁ said _ there => ?_
    exact Reach.done (.of_same (.named _ _ (congrArg Prod.snd said)) _) there
  case create =>
    refine Words.bind (carries_shift h (here ▸ rfl) _ _) fun token c₁ h₁ token' d₁ k₁ _ _ there => ?_
    refine Words.bind (carries_require there _ _) fun first c₂ h₂ first' d₂ k₂ said _ there => ?_
    refine Keeps.bind (carries_dotted _ _ c₂ d₂ (.named _ _ (congrArg Prod.snd said)) there) ?_
    refine fun target c₃ h₃ target' d₃ k₃ _ same there => ?_
    refine Reach.bind (carries_arguments c₃ d₃ there) fun args c₄ h₄ args' d₄ k₄ _ _ others there => ?_
    exact Reach.done (.inside rfl (.cons (.of_same same _) others)) there
  case lambda =>
    refine Words.bind (carries_shift h (here ▸ rfl) _ _) fun token c₁ h₁ token' d₁ k₁ _ _ there => ?_
    refine Keeps.bind (carries_parameters there) fun params c₂ h₂ params' d₂ k₂ _ names there => ?_
    refine Reach.bind (carries_statement c₂ d₂ there) fun body c₃ h₃ body' d₃ k₃ _ _ same there => ?_
    subst names
    exact Reach.done (.inside rfl (.cons same.2 .nil)) there
termination_by 32 * c.remaining
decreasing_by all_goals omega

theorem carries_statement {taken passed : Bool} (c d : Cursor) (h : I.Faces taken passed c d) :
    States I passed (statement c) (statement d) := by
  rcases h.aligned_or with aligned | ⟨-, stuck, -⟩
  case inr =>
    rw [statement_of_closes (Insertion.closes_of_place stuck)]
    exact .stuck (Insertion.at_unexpected stuck _)
  rw [statement, statement]
  refine .dite (by rw [aligned.kind]) (fun _ _ => ?empty) fun _ _ =>
    .dite (by rw [aligned.kind]) (fun _ _ => ?block) fun _ _ =>
    .ite (by rw [aligned.kind]) ?thenBlock <| .dite (by rw [aligned.kind]) (fun _ _ => ?loop) fun _ _ =>
    .dite (by rw [aligned.kind]) (fun _ _ => ?choose) fun _ _ =>
    .dite (by rw [aligned.kind]) (fun _ _ => ?function) fun _ _ =>
    .dite (by rw [aligned.kind]) (fun _ _ => ?give) fun _ _ =>
    .dite (by rw [aligned.kind]) (fun _ _ => ?declare) fun _ _ =>
    .dite (by rw [aligned.kind]) (fun _ _ => ?importFrom) fun _ _ =>
    .dite (by rw [aligned.kind]) (fun _ _ => ?leave) fun _ _ => ?plain
  case empty =>
    refine Words.bind (carries_move aligned _ _) fun _ _ _ _ _ _ _ _ next => ?_
    exact States.done (.of_same (.empty _ _) _) next
  case block =>
    refine Words.bind (carries_move aligned _ _) fun token c₁ h₁ token' d₁ k₁ _ early there => ?_
    refine Insertion.Carries.bind (carries_braceBody c₁ d₁ there) ?_
    rintro ⟨body, c₂, h₂⟩ ⟨body', d₂, k₂⟩ ⟨now, closes, there⟩
    exact States.done (ClosesBody.block closes early) there
  case thenBlock =>
    refine Reach.bind (carries_thenBlock c d h) ?_
    rintro ⟨node, ending⟩ c₁ h₁ ⟨node', _⟩ d₁ k₁ _ _ ⟨rfl, closes, -⟩ there
    exact States.done closes there
  case loop =>
    refine Words.bind (carries_move aligned _ _) fun token c₁ h₁ token' d₁ k₁ _ _ there => ?_
    refine Reach.bind (carries_statement c₁ d₁ there) fun body c₂ h₂ body' d₂ k₂ _ _ same there => ?_
    exact States.done (.inside rfl (.cons same.2 .nil)) (same.1 ▸ there)
  case choose =>
    refine Words.bind (carries_move aligned _ _) fun token c₁ h₁ token' d₁ k₁ _ _ there => ?_
    refine Reach.bind (carries_branchList c₁ d₁ there) ?_
    rintro ⟨branches, ending⟩ c₂ h₂ ⟨branches', _⟩ d₂ k₂ _ _ ⟨takes, closes, rfl⟩ there
    refine Reach.bind (carries_elsePart ending c₂ d₂ there) ?_
    rintro last c₃ h₃ last' d₃ k₃ _ _ ⟨takesToo, others⟩ there
    refine States.done (.choose closes others) ?_
    rwa [Node.takes_choose, ← takes false, ← takesToo]
  case function =>
    refine Words.bind (carries_move aligned _ _) fun token c₁ h₁ token' d₁ k₁ _ _ there => ?_
    refine Words.bind (carries_require there _ _) fun name c₂ h₂ name' d₂ k₂ said _ there => ?_
    refine Keeps.bind (carries_parameters there) fun params c₃ h₃ params' d₃ k₃ _ names there => ?_
    refine Reach.bind (carries_statement c₃ d₃ there) fun body c₄ h₄ body' d₄ k₄ _ _ same there => ?_
    have text : name.text = name'.text := congrArg Prod.snd said
    subst names
    rw [text]
    exact States.done (.inside rfl (.cons same.2 .nil)) (same.1 ▸ there)
  case give =>
    refine Words.bind (carries_move aligned _ _) fun token c₁ h₁ token' d₁ k₁ _ _ there => ?_
    refine Stops.bind (carries_terminator there _) fun bare c₂ h₂ bare' d₂ k₂ alike there => ?_
    dsimp only
    refine .ite (by rw [alike]) (States.done (.give .nil) there) ?_
    refine Reach.bind (carries_expression c₂ d₂ there) fun value c₃ h₃ value' d₃ k₃ _ _ same there => ?_
    exact Stops.bind (carries_terminator there _) fun _ _ _ _ _ _ _ next =>
      States.done (.give (.cons same .nil)) next
  case declare =>
    refine Words.bind (carries_move aligned _ _) fun token c₁ h₁ token' d₁ k₁ _ _ there => ?_
    refine Words.bind (carries_require there _ _) fun name c₂ h₂ name' d₂ k₂ said _ there => ?_
    refine Reach.bind (carries_initializer c₂ d₂ there) fun init c₃ h₃ init' d₃ k₃ _ _ same there => ?_
    have text : name.text = name'.text := congrArg Prod.snd said
    rw [text]
    exact Stops.bind (carries_terminator there _) fun _ _ _ _ _ _ _ next =>
      States.done (.declare same) next
  case importFrom =>
    refine Words.bind (carries_move aligned _ _) fun token c₁ h₁ token' d₁ k₁ _ _ there => ?_
    refine Words.bind (carries_require there _ _) fun first c₂ h₂ first' d₂ k₂ said _ there => ?_
    refine Keeps.bind (carries_path c₂ d₂ there) fun more c₃ h₃ more' d₃ k₃ _ names there => ?_
    refine Keeps.bind (carries_skip there _ _) ?_
    rintro renamed c₄ h₄ _ d₄ k₄ _ rfl there
    have path : first.text :: more = first'.text :: more' :=
      congrArg₂ List.cons (congrArg Prod.snd said) names
    refine .ite Iff.rfl ?_ ?_
    · refine Words.bind (carries_require there _ _) fun name c₅ h₅ name' d₅ k₅ said _ there => ?_
      exact Stops.bind (carries_terminator there _) fun _ _ _ _ _ _ _ next =>
        States.done (.of_same (.importFrom _ _ path (congrArg some (congrArg Prod.snd said))) _) next
    · exact Stops.bind (carries_terminator there _) fun _ _ _ _ _ _ _ next =>
        States.done (.of_same (.importFrom _ _ path rfl) _) next
  case leave =>
    refine Words.bind (carries_move aligned _ _) fun token c₁ h₁ token' d₁ k₁ _ _ there => ?_
    dsimp only
    refine .dite (there.kind_iff rfl) (fun here _ => ?_) fun _ _ => ?_
    · refine Words.bind (carries_shift there (here ▸ rfl) _ _) fun _ c₂ h₂ _ d₂ k₂ _ _ there => ?_
      refine Reach.bind (carries_expression c₂ d₂ there) fun value c₃ h₃ value' d₃ k₃ _ _ same there => ?_
      refine Words.bind (carries_require there _ _) fun _ c₄ h₄ _ d₄ k₄ _ _ there => ?_
      exact Stops.bind (carries_terminator there _) fun _ _ _ _ _ _ _ next =>
        States.done (.leave (.cons same .nil)) next
    · exact Stops.bind (carries_terminator there _) fun _ _ _ _ _ _ _ next =>
        States.done (.leave .nil) next
  case plain =>
    refine Reach.bind (carries_expression c d h) fun value c₁ h₁ value' d₁ k₁ _ _ same there => ?_
    exact Stops.bind (carries_terminator there _) fun _ _ _ _ _ _ _ next =>
      States.done (.inside rfl (.cons same .nil)) next
termination_by 32 * c.remaining + 15
decreasing_by all_goals omega

theorem carries_initializer {taken passed : Bool} (c d : Cursor) (h : I.Faces taken passed c d) :
    Lists I passed Option.toList (initializer c) (initializer d) := by
  rw [initializer, initializer]
  refine .dite (h.kind_iff rfl) (fun here _ => ?_) fun _ _ => Lists.done .nil h
  refine Words.bind (carries_shift h (here ▸ rfl) _ _) fun _ c₁ h₁ _ d₁ k₁ _ _ there => ?_
  refine Reach.bind (carries_expression c₁ d₁ there) fun value c₂ h₂ value' d₂ k₂ _ _ same there => ?_
  exact Lists.done (.cons same .nil) there
termination_by 32 * c.remaining
decreasing_by omega

theorem carries_braceBody {taken passed : Bool} (c d : Cursor) (h : I.Faces taken passed c d) :
    Bodies I taken passed (braceBody c) (braceBody d) := by
  rcases h.aligned_or with aligned | ⟨rfl, left, right⟩
  case inr => exact closes_braceBody left right
  rw [braceBody, braceBody]
  refine .dite (by rw [aligned.kind]) (fun _ _ => ?_) fun _ _ =>
    carries_unlessEnded h ?_
  · refine Words.bind (carries_move aligned _ _) fun _ _ _ _ _ _ _ _ next => ?_
    exact .found ⟨passed, .inl .nil, next⟩
  · refine Reach.bind (carries_statement c d h) ?_
    rintro first c₁ h₁ first' d₁ k₁ _ _ ⟨rfl, same⟩ there
    refine Insertion.Carries.bind (carries_braceBody c₁ d₁ there) ?_
    rintro ⟨more, c₂, h₂⟩ ⟨more', d₂, k₂⟩ ⟨now, closes, there⟩
    exact .found ⟨now, ClosesBody.cons same closes, there⟩
termination_by 32 * c.remaining + 16
decreasing_by all_goals omega

theorem carries_thenBlock {taken passed : Bool} (c d : Cursor) (h : I.Faces taken passed c d) :
    Arms I passed (thenBlock c) (thenBlock d) := by
  rw [thenBlock, thenBlock]
  refine Words.bind (carries_require h _ _) fun token c₁ h₁ token' d₁ k₁ _ early there => ?_
  refine Insertion.Carries.bind (carries_thenBody c₁ d₁ there) ?_
  rintro ⟨⟨body, ending⟩, c₂, h₂⟩ ⟨⟨body', _⟩, d₂, k₂⟩ ⟨rfl, now, closes, there⟩
  exact Arms.done (ClosesBody.block closes early) there
termination_by 32 * c.remaining
decreasing_by omega

theorem carries_thenBody {taken passed : Bool} (c d : Cursor) (h : I.Faces taken passed c d) :
    EndedBodies I taken passed (thenBody c) (thenBody d) := by
  rcases h.aligned_or with aligned | ⟨rfl, left, right⟩
  case inr => exact closes_thenBody left right
  rw [thenBody, thenBody]
  refine .dite (by rw [aligned.kind]) (fun _ _ => ?_) fun _ _ =>
    .ite (by rw [aligned.kind]) (.found ⟨rfl, passed, .inl .nil, .aligned aligned⟩) <|
    carries_unlessEnded h ?_
  · refine Words.bind (carries_move aligned _ _) fun _ _ _ _ _ _ _ _ next => ?_
    exact .found ⟨rfl, passed, .inl .nil, next⟩
  · refine Reach.bind (carries_statement c d h) ?_
    rintro first c₁ h₁ first' d₁ k₁ _ _ ⟨rfl, same⟩ there
    refine Insertion.Carries.bind (carries_thenBody c₁ d₁ there) ?_
    rintro ⟨⟨more, ending⟩, c₂, h₂⟩ ⟨⟨more', _⟩, d₂, k₂⟩ ⟨rfl, now, closes, there⟩
    exact .found ⟨rfl, now, ClosesBody.cons same closes, there⟩
termination_by 32 * c.remaining + 16
decreasing_by all_goals omega

theorem carries_branchBody {taken passed : Bool} (c d : Cursor) (h : I.Faces taken passed c d) :
    Arms I passed (branchBody c) (branchBody d) := by
  rw [branchBody, branchBody]
  refine .ite (h.kind_iff rfl) (carries_thenBlock c d h) ?_
  refine Reach.bind (carries_statement c d h) fun _ _ _ _ _ _ _ _ same next => ?_
  exact Arms.done same.2 (same.1 ▸ next)
termination_by 32 * c.remaining + 16
decreasing_by all_goals omega

theorem carries_branchList {taken passed : Bool} (c d : Cursor) (h : I.Faces taken passed c d) :
    Branches I passed (branchList c) (branchList d) := by
  rw [branchList, branchList]
  refine Reach.bind (carries_expression c d h) fun test c₁ h₁ test' d₁ k₁ _ _ first there => ?_
  refine Reach.bind (carries_branchBody c₁ d₁ there) ?_
  rintro ⟨body, ending⟩ c₂ h₂ ⟨body', _⟩ d₂ k₂ _ _ ⟨takes, second, rfl⟩ there
  dsimp only at takes second ⊢
  refine .dite (there.kind_iff rfl) (fun here _ => ?_) fun _ _ => ?_
  · refine Words.bind (carries_shift there (here ▸ rfl) _ _) fun _ c₃ h₃ _ d₃ k₃ _ _ there => ?_
    refine Reach.bind (carries_branchList c₃ d₃ there) ?_
    rintro ⟨more, ending⟩ c₄ h₄ ⟨more', _⟩ d₄ k₄ _ _ ⟨takes, others, rfl⟩ there
    exact .found ⟨_, _, ⟨fun _ => takes _, .cons first (.cons second others), rfl⟩, there⟩
  · exact .found ⟨_, _, ⟨fun _ => takes, .cons first (.cons second .nil), rfl⟩, there⟩
termination_by 32 * c.remaining + 15
decreasing_by all_goals omega

theorem carries_elsePart {taken passed : Bool} (ending : BranchEnd) (c d : Cursor)
    (h : I.Faces taken passed c d) :
    Reach I (fun now after a b => now = (a.map Node.takes).getD taken ∧
      ClosesAll I.closed passed after a.toList b.toList) (elsePart ending c) (elsePart ending d) := by
  rw [elsePart.eq_def, elsePart.eq_def ending d]
  refine .dite (h.kind_iff rfl) (fun here _ => ?_) fun _ _ => ?_
  · refine Words.bind (carries_shift h (here ▸ rfl) _ _) fun token c₁ h₁ token' d₁ k₁ _ early there => ?_
    cases ending with
    | owing =>
      refine Insertion.Carries.bind (carries_thenBody c₁ d₁ there) ?_
      rintro ⟨⟨body, ending⟩, c₂, h₂⟩ ⟨⟨body', _⟩, d₂, k₂⟩ ⟨rfl, now, closes, there⟩
      cases ending with
      | owing => exact carries_refuse there _
      | closed => exact .found ⟨_, _, ⟨rfl, .cons (ClosesBody.block closes early) .nil⟩, there⟩
    | closed =>
      refine Reach.bind (carries_statement c₁ d₁ there) fun body c₂ h₂ body' d₂ k₂ _ _ same there => ?_
      exact .found ⟨_, _, ⟨same.1, .cons same.2 .nil⟩, there⟩
  · cases ending with
    | owing => exact carries_refuse h _
    | closed => exact .found ⟨_, _, ⟨rfl, .nil⟩, h⟩
termination_by 32 * c.remaining
decreasing_by all_goals omega

end

/-! ## Sources -/

/-- The statements of a source, which the end closes, or in which a block is closed. -/
def SourceBody (I : Insertion) (taken passed : Bool) (body body' : List Node) : Prop :=
  I.word.kind = .endOfInput ∧ SameTrees (closeAfter taken body) body' ∨
    I.word.kind ≠ .endOfInput ∧ ClosesAll I.closed passed true body body'

theorem SourceBody.cons {taken passed now : Bool} {first first' : Node} {more more' : List Node}
    (one : Closes I.closed passed now first first') (there : I.Faces first.takes now c d)
    (rest : SourceBody I first.takes now more more') :
    SourceBody I taken passed (first :: more) (first' :: more') := by
  rcases rest with ⟨ended, same⟩ | ⟨word, rest⟩
  · cases now with
    | true => exact (there.not_end ended).elim
    | false =>
      cases passed with
      | true => exact one.elim
      | false =>
        refine .inl ⟨ended, ?_⟩
        rw [Node.closeAfter_cons]
        exact one.same.cons same
  · exact .inr ⟨word, .cons one rest⟩

theorem closes_statements {taken : Bool} (left : c.At I.stream I.place)
    (right : d.At I.changed I.place ∧ taken = false ∨ d.At I.changed (I.place + 1) ∧ taken = true) :
    I.Carries (fun read read' => SourceBody I taken false read.value read'.value) (statements c)
      (statements d) := by
  have word : c.kind = I.word.kind := by rw [Cursor.kind, Insertion.current_of_place left]
  have none {d₂ : Cursor} (right : d₂.At I.changed (I.place + 1)) (ended : c.kind = .endOfInput) :
      d₂.atEnd = true := decide_eq_true (((Insertion.kind_behind right).trans word.symm).trans ended)
  by_cases here : c.kind = .endOfInput
  · have found (rest : List Node) (same : SameTrees (closeAfter taken []) rest) :
        SourceBody I taken false [] rest := .inl ⟨word ▸ here, same⟩
    have ended : c.atEnd = true := decide_eq_true here
    rw [statements, if_pos ended]
    rcases right with ⟨right, rfl⟩ | ⟨right, rfl⟩
    · have there := Insertion.kind_ahead right
      obtain ⟨d₁, fewer₁, empty, right⟩ := statement_of_terminator right I.read_changed there
      have busy : ¬d.atEnd = true := by rw [Cursor.atEnd, there]; exact Bool.false_ne_true
      rw [statements, if_neg busy, empty]
      show I.Carries _ _ (statements d₁ >>= _)
      rw [statements, if_pos (none right here)]
      exact .found (found _ rfl)
    · rw [statements, if_pos (none right here)]
      exact .found (found _ rfl)
  · have busy : ¬c.atEnd = true := fun ended => here (of_decide_eq_true ended)
    rw [statements, if_neg busy, statement_of_closes (Insertion.closes_of_place left)]
    exact .stuck (Insertion.at_unexpected left _)

/-- **The statements of a source carry over.** -/
theorem carries_statements {taken passed : Bool} (c d : Cursor) (h : I.Faces taken passed c d) :
    I.Carries (fun read read' => SourceBody I taken passed read.value read'.value) (statements c)
      (statements d) := by
  rcases h.aligned_or with aligned | ⟨rfl, left, right⟩
  case inr => exact closes_statements left right
  have same : c.atEnd = d.atEnd := by rw [Cursor.atEnd, Cursor.atEnd, aligned.kind]
  rw [statements, statements]
  by_cases ended : c.atEnd = true
  · rw [if_pos ended, if_pos (same ▸ ended)]
    cases passed with
    | true => exact .found (.inr ⟨h.not_end, .nil⟩)
    | false => exact (aligned.not_atEnd (of_decide_eq_true ended)).elim
  · rw [if_neg ended, if_neg (same ▸ ended)]
    refine Reach.bind (carries_statement c d h) ?_
    rintro first c₁ h₁ first' d₁ k₁ _ _ ⟨rfl, same⟩ there
    refine Insertion.Carries.bind (carries_statements c₁ d₁ there) ?_
    rintro ⟨more, c₂, h₂⟩ ⟨more', d₂, k₂⟩ others
    exact .found (SourceBody.cons same there others)
termination_by c.remaining
decreasing_by omega

end Parser

/-- **A tree in which the block before a word is closed by a terminator**, up to spans.  If the word is the
end, then the block is the whole tree; else it begins with an earlier token and ends with the word. -/
def ClosedAt (tokens : List Token) (i : Nat) (word : Token) (body : List Node) (tree tree' : Node) : Prop :=
  ∃ span closed, Node.Exchanged (.block span body) (.block span (closing body)) tree closed ∧
    SameTree closed tree' ∧
    if word.kind = .endOfInput then tree = .block span body ∧ closed = .block span (closing body)
    else ∃ first ∈ tokens.take i, span = first.span.merge word.span

section

variable {tokens : List Token} {i : Nat} {word : Token} {body : List Node} {tree tree' : Node}

/-- If the last statement takes the terminator, then the trees differ in their spans at most. -/
theorem ClosedAt.same (h : ClosedAt tokens i word body tree tree') (taken : endTakes false body = true) :
    SameTree tree tree' := by
  obtain ⟨span, closed, exchanged, same, -⟩ := h
  rw [closing, closeAfter, if_pos taken] at exchanged
  rwa [exchanged.self] at same

/-- If the word is the end, then the whole tree is closed. -/
theorem ClosedAt.whole (h : ClosedAt tokens i word body tree tree') (ended : word.kind = .endOfInput) :
    ∃ span other body', tree = .block span body ∧ tree' = .block other body' ∧
      SameTrees (closing body) body' := by
  obtain ⟨span, closed, -, same, whole⟩ := h
  obtain ⟨rfl, rfl⟩ := (if_pos ended).mp whole
  obtain ⟨other, body', rfl, trees⟩ := same.exists_block
  exact ⟨span, other, body', rfl, rfl, trees⟩

end

/-- **A source with a terminator more before a word that closes** is parsed into the tree with that block
closed, or fails for the cause for which the source fails, unless that fails at the word. -/
theorem Insertion.carries_parse {text other : String} {I : Insertion}
    (stream : I.stream = .ofSource text.toList) (changed : I.changed = .ofSource other.toList) :
    I.Carries (fun tree tree' => ∃ body, ClosedAt I.tokens I.place I.word body tree tree') (parse text)
      (parse other) := by
  have opened := Cursor.at_ofSource text
  have opened' := Cursor.at_ofSource other
  rw [← stream] at opened
  rw [← changed] at opened'
  unfold parse
  cases first : Cursor.ofSource text with
  | error e =>
    rw [first] at opened
    cases opened.1.symm.trans I.read
  | ok c =>
    cases second : Cursor.ofSource other with
    | error e =>
      rw [second] at opened'
      cases opened'.1.symm.trans I.read_changed
    | ok d =>
      rw [first] at opened
      rw [second] at opened'
      have there : I.Faces false false c d := by
        rcases Nat.eq_zero_or_pos I.place with start | early
        · exact .ahead (start.symm ▸ opened) (start.symm ▸ opened')
        · exact .aligned (.before early opened opened')
      show I.Carries _ (Parser.statements c >>= _) (Parser.statements d >>= _)
      refine Insertion.Carries.bind (Parser.carries_statements c d there) ?_
      rintro ⟨body, after, _⟩ ⟨body', after', _⟩ (⟨ended, same⟩ | ⟨word, closes⟩)
      · exact .found ⟨body, _, _, .here, same.block _ _, (if_pos ended).mpr ⟨rfl, rfl⟩⟩
      · have whole : Closes I.closed false true (.block (after.spanFrom c.current.span) body)
          (.block (after'.spanFrom d.current.span) body') := .inside rfl closes
        obtain ⟨_, _, closed, ⟨first, early, inner, rfl, rfl⟩, exchanged, same⟩ := whole
        exact .found ⟨inner, _, closed, exchanged, same, (if_neg word).mpr ⟨first, early, rfl⟩⟩

/-- **A source with a terminator more before a word that closes.**  If the source is parsed, then so is the
other one, into the tree with the block before the word closed; if it fails, then so does the other one, for
the same cause at the same token, unless the token is the word. -/
theorem parse_terminated {text other : String} {tokens others : List Token} {i : Nat} {word : Token}
    (read : tokenize text = .ok tokens) (read' : tokenize other = .ok others)
    (terminated : Terminated tokens others i word) :
    (∀ tree, parse text = .ok tree → ∃ tree' body, parse other = .ok tree' ∧
      ClosedAt tokens i word body tree tree') ∧
    ∀ e j, parse text = .error (.parse e) → e.index? tokens = some j → j ≠ i →
      ∃ e', parse other = .error (.parse e') ∧ e'.cause = e.cause ∧
        e'.index? others = some (if j < i then j else j + 1) := by
  let I : Insertion := ⟨.ofSource text.toList, .ofSource other.toList, tokens, others, i, word, read, read',
    TokenStream.proper_ofSource _, terminated⟩
  have carries : I.Carries (fun tree tree' => ∃ body, ClosedAt tokens i word body tree tree') (parse text)
      (parse other) :=
    Insertion.carries_parse rfl rfl
  generalize parse text = outcome at carries
  generalize parse other = outcome' at carries
  cases carries with
  | found both =>
    obtain ⟨body, closed⟩ := both
    exact ⟨fun tree same => ⟨_, body, rfl, Except.ok.inj same ▸ closed⟩, nofun⟩
  | @parse e e' k cause apart first second =>
    refine ⟨nofun, fun _ j same index elsewhere => ⟨e', rfl, ?_⟩⟩
    obtain rfl := SyntaxError.parse.inj (Except.error.inj same)
    obtain rfl := Option.some.inj (index.symm.trans (first.index? read))
    exact ⟨cause.symm, second.index? read'⟩
  | @stuck e _ first =>
    refine ⟨nofun, fun _ j same index elsewhere => ?_⟩
    obtain rfl := SyntaxError.parse.inj (Except.error.inj same)
    exact (elsewhere (Option.some.inj (index.symm.trans (first.index? read)))).elim

end HostScript
