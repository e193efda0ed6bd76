import HostScript.Proofs.Syntax.Grammar

/-!
# Proofs/Syntax/Composition — what is written is put together

A construct is written word by word and part by part, and its span is made in one of three ways
(`Spanned`).  A property of the trees between two cursors that holds of no trees, of trees after others,
and of a construct when it holds of what that is made of, holds of all that is written
(`Composes.written`): the grammar is gone through there, once for all such properties.

One of them is that a conditional that is part of a tree is written somewhere as a statement of its own
(`written_conditional`).
-/

namespace HostScript

/-! ## Parts of trees -/

/-- The trees a tree is directly made of, in the order in which they are written. -/
@[simp] def Node.children : Node → List Node
  | literal _ _ | named _ _ | importFrom _ _ _ | empty _ => []
  | member _ target _ _ => [target]
  | index _ target place => [target, place]
  | binary _ _ left right => [left, right]
  | unary _ _ operand => [operand]
  | assign _ target value => [target, value]
  | call _ callee args => callee :: args
  | create _ target args => target :: args
  | declare _ _ init => init.toList
  | function _ _ _ body | lambda _ _ body | loop _ body => [body]
  | choose _ branches otherwise =>
    branches.flatMap (fun branch => [branch.1, branch.2]) ++ otherwise.toList
  | leave _ value | give _ value => value.toList
  | block _ statements => statements
  | plain _ expression => [expression]

/-- **A part of a tree**: the tree itself, or a part of something it is made of. -/
inductive Node.PartOf (part : Node) : Node → Prop where
  | self : PartOf part part
  | child {child tree : Node} : child ∈ tree.children → PartOf part child → PartOf part tree

/-- A source of whose tree something can be computed is read. -/
theorem parsed_of_any {text : String} {test : Node → Bool} (h : (parse text).toOption.any test = true) :
    ∃ tree, parse text = .ok tree ∧ test tree = true := by
  cases made : parse text with
  | error e =>
    rw [made] at h
    cases h
  | ok tree =>
    rw [made] at h
    exact ⟨tree, rfl, h⟩

/-! ## What is written passes words -/

namespace Cursor

variable {c c₁ c₂ after : Cursor}

theorem Moves.previous (h : c.Moves after) : after.previous = c.current.span := by
  have step := h.advance
  unfold Cursor.advance at step
  dsimp only at step
  split at step <;> cases step <;> rfl

/-- Cursors with a word between them. -/
def Beyond (c after : Cursor) : Prop := ∃ last, c.Past last ∧ last.Moves after

theorem Moves.beyond (h : c.Moves after) : c.Beyond after := ⟨c, .refl c, h⟩

theorem Past.beyond (first : c.Past c₁) (second : c₁.Beyond c₂) : c.Beyond c₂ :=
  second.imp fun _ way => ⟨first.trans way.1, way.2⟩

theorem Beyond.past (h : c.Beyond after) : c.Past after := by
  obtain ⟨last, way, step⟩ := h
  exact way.trans step.past

theorem Beyond.trans (first : c.Beyond c₁) (second : c₁.Past c₂) : c.Beyond c₂ := by
  induction second with
  | refl => exact first
  | tail way step _ => exact ⟨_, first.past.trans way, step⟩

end Cursor

/-- How far a phrase takes a cursor: past a word at least, where it cannot be nothing. -/
def Phrase.Advances : Phrase → Cursor → Cursor → Prop
  | .expression _ | .statement _ | .body _ _ | .arms _ => Cursor.Beyond
  | .arguments _ | .statements _ | .initializer _ | .otherwise _ _ => Cursor.Past

theorem Written.advances {c after : Cursor} {phrase : Phrase} (h : Written c phrase after) :
    phrase.Advances c after := by
  induction h with
  | literal word => exact word.beyond
  | named word => exact word.beyond
  | enclosed opening _ closing inner => exact (opening.past.beyond inner).trans closing.past
  | member _ dot name target => exact target.trans (dot.past.trans name.past)
  | index _ opening _ closing target index =>
    exact target.trans ((opening.past.trans index.past).trans closing.past)
  | call _ opening _ closing callee args =>
    exact callee.trans ((opening.past.trans args).trans closing.past)
  | create word _ opening _ closing target args =>
    exact (word.past.beyond target).trans ((opening.past.trans args).trans closing.past)
  | binary _ _ word _ left right => exact left.trans (word.past.trans right.past)
  | unary _ word _ operand => exact word.past.beyond operand
  | assign _ word _ target value => exact target.trans (word.past.trans value.past)
  | lambda word names _ body => exact (word.past.trans names).beyond body
  | noArguments => exact .refl _
  | argument _ comma _ first more => exact (first.past.trans comma.past).trans more
  | empty word => exact word.beyond
  | block word _ closing body => exact (word.beyond.trans body).trans closing.past
  | thenBlock _ _ body => exact body
  | loop word _ body => exact word.past.beyond body
  | choose word _ _ arms otherwise => exact (word.past.beyond arms).trans otherwise
  | function word name names _ body => exact ((word.past.trans name.past).trans names).beyond body
  | give word last => exact word.beyond.trans last.past
  | giveBack word _ last value => exact (word.past.beyond value).trans last.past
  | declare word name _ last init => exact ((word.beyond.trans name.past).trans init).trans last.past
  | importFrom word path => exact word.beyond.trans path
  | leave word last => exact word.beyond.trans last.past
  | leaveWith word opening _ closing last value =>
    exact (((word.past.trans opening.past).beyond value).trans closing.past).trans last.past
  | plain _ last value => exact value.trans last.past
  | noStatements => exact .refl _
  | next _ _ first more => exact first.past.trans more
  | noInitializer => exact .refl _
  | initializer word _ value => exact word.past.trans value.past
  | ended word _ closing body => exact (word.beyond.trans body).trans closing.past
  | cutShort word _ _ body => exact word.beyond.trans body
  | whole _ _ body => exact body
  | lastArm _ _ _ test body => exact test.trans body.past
  | arm _ _ word _ test body more => exact test.trans ((body.past.trans word.past).trans more.past)
  | noOtherwise => exact .refl _
  | otherwise _ word _ body => exact word.past.trans body.past
  | owed word _ closing body => exact (word.past.trans body).trans closing.past

/-! ## Constructs and what they are made of -/

/-- The trees of a phrase, in the order in which they are written. -/
def Phrase.nodes : Phrase → List Node
  | .expression node | .statement node | .body node _ => [node]
  | .arguments nodes | .statements nodes => nodes
  | .initializer node | .otherwise _ node => node.toList
  | .arms parts => (parts.map Arm.branch).flatMap fun branch => [branch.1, branch.2]

/-- **How the span of a construct is made** that is written between two cursors. -/
inductive Spanned (c : Cursor) (node : Node) (after : Cursor) : Prop where
  /-- From its first word to the last word passed. -/
  | fromWord : c.Beyond after → node.span = after.spanFrom c.current.span → Spanned c node after
  /-- From its first part to the last word passed. -/
  | fromFirst {first : Node} {others : List Node} : c.Beyond after → node.children = first :: others →
    node.span = after.spanFrom first.span → Spanned c node after
  /-- From its first part to its last one. -/
  | around {first last : Node} : node.children = [first, last] →
    node.span = first.span.merge last.span → Spanned c node after

/-- The span of one word. -/
theorem Cursor.Moves.spanFrom {c after : Cursor} (h : c.Moves after) :
    after.spanFrom c.current.span = c.current.span := by
  rw [Cursor.spanFrom, h.previous, Span.merge, Nat.min_self, Nat.max_self]

/-- A conditional is written as a statement, if a construct is one. -/
def StatedIf (c : Cursor) (node : Node) (after : Cursor) : Prop :=
  ∀ span branches otherwise, node = .choose span branches otherwise → Written c (.statement node) after

/-- **A property of the trees between two cursors that is put together** as they are. -/
structure Composes (P : Cursor → List Node → Cursor → Prop) : Prop where
  nil (c : Cursor) : P c [] c
  append {c c₁ c₂ after : Cursor} {nodes others : List Node} : c.Past c₁ → c₁.Past c₂ →
    c₂.Past after → P c nodes c₁ → P c₂ others after → P c (nodes ++ others) after
  single {c after : Cursor} {node : Node} : c.Past after → Spanned c node after →
    StatedIf c node after → P c node.children after → P c [node] after

namespace Composes

variable {P : Cursor → List Node → Cursor → Prop}

theorem widen {c c₁ c₂ after : Cursor} {nodes : List Node} (h : Composes P) (before : c.Past c₁)
    (way : c₁.Past c₂) (behind : c₂.Past after) (inner : P c₁ nodes c₂) : P c nodes after := by
  have wide := h.append (before.trans way) behind (.refl after)
    (h.append (.refl c) before way (h.nil c) inner) (h.nil after)
  rwa [List.nil_append, List.append_nil] at wide

/-- A construct from its first word to the last one passed, with its parts between the two. -/
theorem between {c c₁ c₂ after : Cursor} {node : Node} (h : Composes P) (before : c.Beyond c₁)
    (way : c₁.Past c₂) (behind : c₂.Past after) (span : node.span = after.spanFrom c.current.span)
    (stated : StatedIf c node after) (inside : P c₁ node.children c₂) : P c [node] after := by
  have far := (before.trans way).trans behind
  exact h.single far.past (.fromWord far span) stated (h.widen before.past way behind inside)

/-- A construct that is not made of others. -/
theorem leaf {c after : Cursor} {node : Node} (h : Composes P) (far : c.Beyond after)
    (span : node.span = after.spanFrom c.current.span) (stated : StatedIf c node after)
    (bare : node.children = []) : P c [node] after :=
  h.between far (.refl _) (.refl _) span stated (bare ▸ h.nil _)

/-- A construct that starts with its first part, with the others between two words after that. -/
theorem applied {c c₁ c₂ c₃ after : Cursor} {node first : Node} {others : List Node} (h : Composes P)
    (before : c.Beyond c₁) (opening : c₁.Past c₂) (way : c₂.Past c₃) (closing : c₃.Past after)
    (parts : node.children = first :: others) (span : node.span = after.spanFrom first.span)
    (stated : StatedIf c node after) (one : P c [first] c₁) (rest : P c₂ others c₃) :
    P c [node] after := by
  have far := before.trans ((opening.trans way).trans closing)
  refine h.single far.past (.fromFirst far parts span) stated ?_
  rw [parts, ← List.singleton_append]
  exact h.append before.past opening (way.trans closing) one (h.widen (.refl _) way closing rest)

/-- A construct of two parts with a word between them. -/
theorem joined {c c₁ c₂ after : Cursor} {node left right : Node} (h : Composes P)
    (first : c.Past c₁) (word : c₁.Past c₂) (second : c₂.Past after)
    (parts : node.children = [left, right]) (span : node.span = left.span.merge right.span)
    (stated : StatedIf c node after) (one : P c [left] c₁) (two : P c₂ [right] after) :
    P c [node] after := by
  refine h.single (first.trans (word.trans second)) (.around parts span) stated ?_
  rw [parts, ← List.singleton_append]
  exact h.append first word second one two

/-- **What is put together as trees are holds of all that is written.** -/
theorem written {c after : Cursor} {phrase : Phrase} (h : Composes P) (made : Written c phrase after) :
    P c phrase.nodes after := by
  induction made with
  | literal word => exact h.leaf word.beyond word.spanFrom.symm nofun rfl
  | named word => exact h.leaf word.beyond word.spanFrom.symm nofun rfl
  | enclosed opening inner closing ih =>
    exact h.widen opening.past inner.advances.past closing.past ih
  | member target dot name ih =>
    have way := dot.past.trans name.past
    have far := target.advances.trans way
    exact h.single far.past (.fromFirst far rfl rfl) nofun
      (h.widen (.refl _) target.advances.past way ih)
  | index target opening place closing one two =>
    exact h.applied target.advances opening.past place.advances.past closing.past rfl rfl nofun one two
  | call callee opening args closing one two =>
    exact h.applied callee.advances opening.past args.advances closing.past rfl rfl nofun one two
  | create word target opening args closing one two =>
    have first := target.advances.past
    have inner : Cursor.Past _ _ := args.advances
    have both := h.append first opening.past inner one two
    exact h.between word.beyond ((first.trans opening.past).trans inner) closing.past rfl nofun both
  | binary left operator word right one two =>
    exact h.joined left.advances.past word.past right.advances.past rfl rfl nofun one two
  | unary operator word operand ih =>
    exact h.between word.beyond operand.advances.past (.refl _) rfl nofun ih
  | assign target word value one two =>
    exact h.joined target.advances.past word.past value.advances.past rfl rfl nofun one two
  | lambda word names body ih =>
    exact h.between (word.beyond.trans names) body.advances.past (.refl _) rfl nofun ih
  | noArguments => exact h.nil _
  | argument first comma more one two =>
    exact h.append first.advances.past comma.past more.advances one two
  | empty word => exact h.leaf word.beyond word.spanFrom.symm nofun rfl
  | block word body closing ih =>
    exact h.between word.beyond body.advances closing.past rfl nofun ih
  | thenBlock _ _ ih => exact ih
  | loop word body ih =>
    exact h.between word.beyond body.advances.past (.refl _) rfl nofun ih
  | choose word arms otherwise one two =>
    have first := arms.advances.past
    refine h.between word.beyond (first.trans otherwise.advances) (.refl _) rfl ?_
      (h.append first (.refl _) otherwise.advances one two)
    exact fun _ _ _ _ => .choose word arms otherwise
  | function word name names body ih =>
    have way := (word.beyond.trans name.past).trans names
    exact h.between way body.advances.past (.refl _) rfl nofun ih
  | give word last => exact h.leaf (word.beyond.trans last.past) rfl nofun rfl
  | giveBack word value last ih =>
    exact h.between word.beyond value.advances.past last.past rfl nofun ih
  | declare word name init last ih =>
    exact h.between (word.beyond.trans name.past) init.advances last.past rfl nofun ih
  | importFrom word path => exact h.leaf (word.beyond.trans path) rfl nofun rfl
  | leave word last => exact h.leaf (word.beyond.trans last.past) rfl nofun rfl
  | leaveWith word opening value closing last ih =>
    have tail := closing.past.trans last.past
    exact h.between (word.beyond.trans opening.past) value.advances.past tail rfl nofun ih
  | plain value last ih =>
    have far := value.advances.trans last.past
    exact h.single far.past (.fromWord far rfl) nofun
      (h.widen (.refl _) value.advances.past last.past ih)
  | noStatements => exact h.nil _
  | next first more one two =>
    exact h.append first.advances.past (.refl _) more.advances one two
  | noInitializer => exact h.nil _
  | initializer word value ih => exact h.widen word.past value.advances.past (.refl _) ih
  | ended word body closing ih =>
    exact h.between word.beyond body.advances closing.past rfl nofun ih
  | cutShort word body _ ih =>
    exact h.between word.beyond body.advances (.refl _) rfl nofun ih
  | whole _ _ ih => exact ih
  | @lastArm c _ after test body _ first second _ one two =>
    have both : P c ([test] ++ [body]) after :=
      h.append first.advances.past (.refl _) second.advances.past one two
    exact both
  | @arm c _ _ _ _ test body _ _ first second word more one two three =>
    have way := first.advances.past
    have inner := second.advances.past
    have both : P c ([test] ++ [body]) _ := h.append way (.refl _) inner one two
    exact h.append (way.trans inner) word.past more.advances.past both three
  | noOtherwise => exact h.nil _
  | otherwise _ word body ih => exact h.widen word.past body.advances.past (.refl _) ih
  | owed word body closing ih =>
    exact h.between word.beyond body.advances closing.past rfl nofun ih

end Composes

/-! ## Conditionals -/

/-- Every conditional among the parts of some trees is written as a statement between two cursors. -/
def HoldsConditionals (c : Cursor) (nodes : List Node) (after : Cursor) : Prop :=
  ∀ node ∈ nodes, ∀ span branches otherwise, (Node.choose span branches otherwise).PartOf node →
    ∃ first last, c.Past first ∧
      Written first (.statement (.choose span branches otherwise)) last ∧ last.Past after

theorem composes_holdsConditionals : Composes HoldsConditionals where
  nil _ := nofun
  append first between rest here there := by
    refine List.forall_mem_append.2 ⟨fun node mem span branches otherwise inside => ?_,
      fun node mem span branches otherwise inside => ?_⟩
    · obtain ⟨one, two, before, written, behind⟩ := here node mem span branches otherwise inside
      exact ⟨one, two, before, written, behind.trans (between.trans rest)⟩
    · obtain ⟨one, two, before, written, behind⟩ := there node mem span branches otherwise inside
      exact ⟨one, two, (first.trans between).trans before, written, behind⟩
  single way _ stated inner := by
    refine List.forall_mem_singleton.2 fun span branches otherwise inside => ?_
    cases inside with
    | self => exact ⟨_, _, .refl _, stated _ _ _ rfl, .refl _⟩
    | child mem inside => exact inner _ mem span branches otherwise inside

/-- **A conditional of a source is written there as a statement.** -/
theorem written_conditional {text : String} {tree : Node} (made : parse text = .ok tree) {span : Span}
    {branches : List (Node × Node)} {otherwise : Option Node}
    (inside : (Node.choose span branches otherwise).PartOf tree) :
    ∃ start c after, Cursor.ofSource text = .ok start ∧ start.Past c ∧
      Written c (.statement (.choose span branches otherwise)) after := by
  obtain ⟨start, last, body, opened, written, -, rfl⟩ := written_parse made
  cases inside with
  | child mem inside =>
    obtain ⟨c, after, before, there, -⟩ :=
      composes_holdsConditionals.written written _ mem span branches otherwise inside
    exact ⟨start, c, after, opened, before, there⟩

end HostScript
