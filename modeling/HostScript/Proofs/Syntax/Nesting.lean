import HostScript.Proofs.Source.Tiling
import HostScript.Proofs.Syntax.Composition

/-!
# Proofs/Syntax/Nesting — spans nest as trees do

The tokens of a source lie one after another, and so does what a cursor has before it and ahead of it
(`Cursor.Ordered`).  Trees that are written between two cursors lie one after another there too, each
with its own parts inside it (`Lies`): there is one lemma for each way in which a span is made, and
`composes_lies` puts them together.  `spans_nest` is about the trees of whole sources.
-/

namespace HostScript

open Text (byteLength)

/-! ## Spans of a source -/

variable {source : List Char}

/-- **A span of a source**, from one spot to another. -/
structure Span.LiesIn (source : List Char) (span : Span) : Prop where
  ordered : span.start ≤ span.stop
  first : ∃ spot : Spot source, span.start = spot.offset
  last : ∃ spot : Spot source, span.stop = spot.offset

namespace Span.LiesIn

variable {span other : Span}

theorem none : Span.none.LiesIn source := ⟨Nat.le_refl 0, ⟨.start source, rfl⟩, ⟨.start source, rfl⟩⟩

theorem of_covers {part : List Char} (h : span.Covers source part) : span.LiesIn source := by
  obtain ⟨front, back, rfl, start, stop⟩ := h
  refine ⟨?_, ⟨⟨front, part ++ back, List.append_assoc _ _ _⟩, start⟩,
    ⟨⟨front ++ part, back, rfl⟩, stop⟩⟩
  rw [start, stop, Text.byteLength_append]
  exact Nat.le_add_right _ _

theorem merge (first : span.LiesIn source) (second : other.LiesIn source) :
    (span.merge other).LiesIn source where
  ordered := Nat.le_trans (Nat.min_le_left _ _) (Nat.le_trans first.ordered (Nat.le_max_left _ _))
  first := by
    rcases Nat.le_total span.start other.start with before | after
    · exact first.first.imp fun _ there => (Nat.min_eq_left before).trans there
    · exact second.first.imp fun _ there => (Nat.min_eq_right after).trans there
  last := by
    rcases Nat.le_total span.stop other.stop with before | after
    · exact second.last.imp fun _ there => (Nat.max_eq_right before).trans there
    · exact first.last.imp fun _ there => (Nat.max_eq_left after).trans there

end Span.LiesIn

/-- **A construct that is well placed**: its span is one of the source and contains those of what it is
made of, which lie one after another. -/
structure Node.WellSpanned (source : List Char) (node : Node) : Prop where
  lies : node.span.LiesIn source
  contains : ∀ child ∈ node.children,
    node.span.start ≤ child.span.start ∧ child.span.stop ≤ node.span.stop
  ordered : node.children.Pairwise fun child later => child.span.stop ≤ later.span.start

/-- A tree all of whose parts are well placed. -/
def Node.Nested (source : List Char) (tree : Node) : Prop :=
  ∀ part : Node, part.PartOf tree → part.WellSpanned source

theorem Node.Nested.placed {tree : Node} (h : tree.Nested source) : tree.WellSpanned source := h _ .self

/-! ## Cursors over a source -/

namespace Cursor

/-- The spans a cursor has before it, holds and has ahead of it. -/
def marks (c : Cursor) : List Span :=
  c.previous :: c.current.span :: (c.upcoming.map itemSpan ++ [c.final.token.span])

/-- **A cursor over words that lie one after another.** -/
structure Ordered (source : List Char) (c : Cursor) : Prop where
  lies : ∀ span ∈ c.marks, span.LiesIn source
  ordered : c.marks.Pairwise fun span later => span.stop ≤ later.start

variable {c c₁ c₂ after : Cursor}

namespace Ordered

theorem current (h : c.Ordered source) : c.current.span.LiesIn source :=
  h.lies _ (List.mem_cons_of_mem _ List.mem_cons_self)

theorem previous (h : c.Ordered source) : c.previous.LiesIn source := h.lies _ List.mem_cons_self

theorem previous_le (h : c.Ordered source) : c.previous.stop ≤ c.current.span.start :=
  (List.pairwise_cons.1 h.ordered).1 _ List.mem_cons_self

/-- A word further on goes on in the same order. -/
theorem moves (h : c.Ordered source) (step : c.Moves after) : after.Ordered source := by
  have advanced := step.advance
  obtain ⟨lies, ordered⟩ := h
  unfold Cursor.advance at advanced
  dsimp only at advanced
  unfold marks at lies ordered
  obtain ⟨-, later⟩ := List.pairwise_cons.1 ordered
  obtain ⟨-, others⟩ := List.forall_mem_cons.1 lies
  split at advanced <;> cases advanced
  next upcoming =>
    rw [upcoming] at later others
    -- The end follows itself, as it covers nothing.
    refine ⟨?_, ?_⟩
    · simpa [marks] using others
    · obtain ⟨before, alone⟩ := List.pairwise_cons.1 later
      have itself : c.final.token.span.stop ≤ c.final.token.span.start := Nat.le_refl _
      have twice : [c.final.token.span, c.final.token.span].Pairwise fun span later =>
          span.stop ≤ later.start := .cons (List.forall_mem_singleton.2 itself) alone
      have reached := before _ (List.mem_singleton_self _)
      exact .cons (List.forall_mem_cons.2 ⟨reached, before⟩) twice
  next token rest upcoming =>
    rw [upcoming] at later others
    exact ⟨others, later⟩

/-- **Words that are passed only move a cursor further on.** -/
theorem past (h : c.Ordered source) (way : c.Past after) :
    after.Ordered source ∧ c.current.span.start ≤ after.current.span.start ∧
      c.current.span.stop ≤ after.current.span.stop ∧ c.previous.stop ≤ after.previous.stop := by
  induction way with
  | refl => exact ⟨h, Nat.le_refl _, Nat.le_refl _, Nat.le_refl _⟩
  | tail _ step ih =>
    obtain ⟨there, start, stop, previous⟩ := ih
    have next := there.moves step
    have apart := next.previous_le
    have wide := next.current.ordered
    have before := there.previous_le
    have some := there.current.ordered
    rw [step.previous] at apart ⊢
    exact ⟨next, by omega, by omega, by omega⟩

end Ordered

/-- Where a word has been passed, the last one that was is not before it. -/
theorem Ordered.beyond (h : c.Ordered source) (way : c.Beyond after) :
    c.current.span.start ≤ after.previous.start ∧ c.current.span.stop ≤ after.previous.stop := by
  obtain ⟨last, way, step⟩ := way
  obtain ⟨-, start, stop, -⟩ := h.past way
  rw [step.previous]
  exact ⟨start, stop⟩

/-- A source starts with a cursor over words that lie one after another. -/
theorem ordered_ofSource {text : String} (size : byteLength text.toList ≤ Span.limit)
    (opened : ofSource text = .ok c) : c.Ordered text.toList := by
  obtain ⟨covers, -⟩ := stream_covers_source text.toList size
  unfold ofSource at opened
  dsimp only at opened
  generalize TokenStream.ofSource text.toList = stream at opened covers
  obtain ⟨items, final⟩ := stream
  have ended : final.token.span = ⟨byteLength text.toList, byteLength text.toList⟩ := covers.ended.2
  have ends : final.token.span.LiesIn text.toList := by
    rw [ended]
    let last : Spot text.toList := ⟨_, [], (List.append_nil _).symm⟩
    exact ⟨Nat.le_refl _, ⟨last, rfl⟩, ⟨last, rfl⟩⟩
  have lies : ∀ item ∈ items, (itemSpan item).LiesIn text.toList := fun item mem => by
    obtain ⟨_, -, part, -⟩ := covers.spelled item mem
    exact .of_covers part
  have stops : ∀ item ∈ items, (itemSpan item).stop ≤ final.token.span.start := fun item mem => by
    obtain ⟨spot, there⟩ := (lies item mem).last
    rw [ended, there]
    exact spot.offset_le
  -- What a cursor on the first word has ahead of it, with that word.
  have row : (items.map itemSpan ++ [final.token.span]).Pairwise fun span later =>
      span.stop ≤ later.start := by
    refine List.pairwise_append.2 ⟨List.pairwise_map.2 covers.ordered, List.pairwise_singleton _ _, ?_⟩
    rintro span mem later last
    obtain ⟨item, there, rfl⟩ := List.mem_map.1 mem
    obtain rfl := List.mem_singleton.1 last
    exact stops item there
  have all : ∀ span ∈ items.map itemSpan ++ [final.token.span], span.LiesIn text.toList := by
    refine List.forall_mem_append.2 ⟨?_, List.forall_mem_singleton.2 ends⟩
    exact List.forall_mem_map.2 lies
  cases items with
  | nil =>
    cases opened
    refine ⟨List.forall_mem_cons.2 ⟨.none, List.forall_mem_cons.2 ⟨ends, all⟩⟩, ?_⟩
    refine .cons (fun _ _ => Nat.zero_le _) (.cons (fun later mem => ?_) row)
    obtain rfl := List.mem_singleton.1 mem
    rw [ended]
  | cons item rest =>
    cases item with
    | error e => cases opened
    | ok token =>
      cases opened
      exact ⟨List.forall_mem_cons.2 ⟨.none, all⟩, .cons (fun _ _ => Nat.zero_le _) row⟩

end Cursor

/-! ## What is written lies one after another -/

/-! ## What is written lies one after another -/

/-- **Trees that lie one after another** between two cursors, each with its parts inside it. -/
structure Lies (source : List Char) (c : Cursor) (nodes : List Node) (after : Cursor) : Prop where
  nested : ∀ node ∈ nodes, node.Nested source
  within : ∀ node ∈ nodes,
    c.current.span.start ≤ node.span.start ∧ node.span.stop ≤ after.previous.stop
  ordered : nodes.Pairwise fun node later => node.span.stop ≤ later.span.start

/-- A tree is nested when it is well placed and what it is made of is nested. -/
theorem Node.WellSpanned.nested {tree : Node} (placed : tree.WellSpanned source)
    (children : ∀ child ∈ tree.children, child.Nested source) : tree.Nested source := by
  intro part inside
  cases inside with
  | self => exact placed
  | child mem inside => exact children _ mem _ inside

namespace Lies

variable {c c₁ c₂ after : Cursor} {node first last : Node} {nodes others : List Node}

theorem nil : Lies source c [] after := ⟨nofun, nofun, .nil⟩

/-- What lies between two cursors comes before what lies between later ones. -/
theorem append (opened : c.Ordered source) (first : c.Past c₁) (between : c₁.Past c₂)
    (rest : c₂.Past after) (here : Lies source c nodes c₁) (there : Lies source c₂ others after) :
    Lies source c (nodes ++ others) after := by
  obtain ⟨opened₁, -⟩ := opened.past first
  obtain ⟨opened₂, -, -, stop⟩ := opened₁.past between
  obtain ⟨-, start, -, -⟩ := opened.past (first.trans between)
  obtain ⟨-, -, -, last⟩ := opened₁.past (between.trans rest)
  have apart := opened₂.previous_le
  refine ⟨List.forall_mem_append.2 ⟨here.nested, there.nested⟩,
    List.forall_mem_append.2 ⟨fun node mem => ?_, fun node mem => ?_⟩,
    List.pairwise_append.2 ⟨here.ordered, there.ordered, fun node mem later mem' => ?_⟩⟩
  · exact ⟨(here.within node mem).1, Nat.le_trans (here.within node mem).2 last⟩
  · exact ⟨Nat.le_trans start (there.within node mem).1, (there.within node mem).2⟩
  · have high := (here.within node mem).2
    have low := (there.within later mem').1
    omega

/-- A span from the first word to the last one passed contains all that lies there. -/
theorem placed (opened : c.Ordered source) (way : c.Past after)
    (span : node.span = after.spanFrom c.current.span) (inside : Lies source c node.children after) :
    node.WellSpanned source := by
  refine ⟨span ▸ opened.current.merge (opened.past way).1.previous, fun child mem => ?_,
    inside.ordered⟩
  obtain ⟨low, high⟩ := inside.within child mem
  rw [span]
  exact ⟨Nat.le_trans (Nat.min_le_left _ _) low, Nat.le_trans high (Nat.le_max_right _ _)⟩

/-- **A construct that starts with a word**: its span goes from there to the last word passed. -/
theorem fromWord (opened : c.Ordered source) (far : c.Beyond after)
    (span : node.span = after.spanFrom c.current.span) (inside : Lies source c node.children after) :
    Lies source c [node] after := by
  obtain ⟨start, stop⟩ := opened.beyond far
  refine ⟨List.forall_mem_singleton.2 ((inside.placed opened far.past span).nested inside.nested),
    List.forall_mem_singleton.2 ?_, List.pairwise_singleton _ _⟩
  rw [span]
  exact ⟨Nat.le_min.2 ⟨Nat.le_refl _, start⟩, Nat.max_le.2 ⟨stop, Nat.le_refl _⟩⟩

/-- **A construct that starts with a tree**: its span goes from there to the last word passed. -/
theorem fromFirst (opened : c.Ordered source) (far : c.Beyond after)
    (made : node.children = first :: others) (span : node.span = after.spanFrom first.span)
    (inside : Lies source c (first :: others) after) : Lies source c [node] after := by
  obtain ⟨start, -⟩ := opened.beyond far
  have last := (opened.past far.past).1.previous
  have lies := (inside.nested first List.mem_cons_self).placed.lies
  obtain ⟨low, high⟩ := inside.within first List.mem_cons_self
  have wide := lies.ordered
  obtain ⟨before, -⟩ := List.pairwise_cons.1 inside.ordered
  have from_first : node.span.start ≤ first.span.start := by
    rw [span]
    exact Nat.min_le_left _ _
  have stop : node.span.stop = after.previous.stop := by
    rw [span]
    exact Nat.max_eq_right high
  have placed : node.WellSpanned source := by
    refine ⟨span ▸ lies.merge last, ?_, made ▸ inside.ordered⟩
    rw [made, stop]
    refine List.forall_mem_cons.2 ⟨⟨from_first, high⟩, fun child mem => ?_⟩
    have later := before child mem
    exact ⟨by omega, (inside.within child (List.mem_cons_of_mem _ mem)).2⟩
  refine ⟨List.forall_mem_singleton.2 (placed.nested (made ▸ inside.nested)),
    List.forall_mem_singleton.2 ⟨?_, Nat.le_of_eq stop⟩, List.pairwise_singleton _ _⟩
  rw [span]
  exact Nat.le_min.2 ⟨low, start⟩

/-- **A construct of two trees**: its span goes from the one to the other. -/
theorem around (made : node.children = [first, last]) (span : node.span = first.span.merge last.span)
    (inside : Lies source c [first, last] after) : Lies source c [node] after := by
  obtain ⟨one, rest⟩ := List.forall_mem_cons.1 inside.nested
  have two := List.forall_mem_singleton.1 rest
  obtain ⟨here, rest⟩ := List.forall_mem_cons.1 inside.within
  have there := List.forall_mem_singleton.1 rest
  have placed : node.WellSpanned source := by
    refine ⟨span ▸ one.placed.lies.merge two.placed.lies, ?_, made ▸ inside.ordered⟩
    rw [made, span]
    refine List.forall_mem_cons.2 ⟨?_, List.forall_mem_singleton.2 ?_⟩
    · exact ⟨Nat.min_le_left _ _, Nat.le_max_left _ _⟩
    · exact ⟨Nat.min_le_right _ _, Nat.le_max_right _ _⟩
  refine ⟨List.forall_mem_singleton.2 (placed.nested (made ▸ inside.nested)),
    List.forall_mem_singleton.2 ?_, List.pairwise_singleton _ _⟩
  rw [span]
  exact ⟨Nat.le_min.2 ⟨here.1, there.1⟩, Nat.max_le.2 ⟨here.2, there.2⟩⟩

end Lies

/-- **Lying one after another is put together** as trees are. -/
theorem composes_lies :
    Composes fun c nodes after => c.Ordered source → Lies source c nodes after where
  nil _ _ := .nil
  append first between rest here there opened :=
    .append opened first between rest (here opened)
      (there (opened.past (first.trans between)).1)
  single way spanned _ inside opened := by
    cases spanned with
    | fromWord far span => exact .fromWord opened far span (inside opened)
    | fromFirst far made span => exact .fromFirst opened far made span (made ▸ inside opened)
    | around made span => exact .around made span (made ▸ inside opened)

/-- **Spans nest as trees do.**  In the tree of a source each span goes from one boundary of characters
to a later one or the same, inside the source; it contains the spans of what its construct is made of,
and those lie one after another. -/
theorem spans_nest (text : String) (size : byteLength text.toList ≤ Span.limit) (tree : Node)
    (made : parse text = .ok tree) (part : Node) (inside : part.PartOf tree) :
    (part.span.start ≤ part.span.stop ∧ part.span.stop ≤ byteLength text.toList ∧
      (∃ spot : Spot text.toList, part.span.start = spot.offset) ∧
      ∃ spot : Spot text.toList, part.span.stop = spot.offset) ∧
    (∀ child ∈ part.children,
      part.span.start ≤ child.span.start ∧ child.span.stop ≤ part.span.stop) ∧
    part.children.Pairwise fun child later => child.span.stop ≤ later.span.start := by
  obtain ⟨c, after, body, first, written, -, rfl⟩ := written_parse made
  have opened := Cursor.ordered_ofSource size first
  have lies := composes_lies.written written opened
  have placed : Node.WellSpanned text.toList (.block _ body) := lies.placed opened written.advances rfl
  obtain ⟨⟨ordered, first, last⟩, contains, apart⟩ := placed.nested lies.nested part inside
  refine ⟨⟨ordered, ?_, first, last⟩, contains, apart⟩
  obtain ⟨spot, there⟩ := last
  rw [there]
  exact spot.offset_le

/-- A call of a method of something in parentheses, which are in no span but that of the statement, with a
letter of two bytes. -/
theorem spans_nest_enclosed :
    byteLength "(ü[a]).f(b, c)".toList ≤ Span.limit ∧
    ∃ tree call : Node, parse "(ü[a]).f(b, c)" = .ok tree ∧ call.PartOf tree ∧
      call.span = ⟨1, 15⟩ ∧ call.children.map Node.span = [⟨1, 9⟩, ⟨10, 11⟩, ⟨13, 14⟩] ∧
      (call.span.start ≤ call.span.stop ∧ call.span.stop ≤ byteLength "(ü[a]).f(b, c)".toList ∧
        (∃ spot : Spot "(ü[a]).f(b, c)".toList, call.span.start = spot.offset) ∧
        ∃ spot : Spot "(ü[a]).f(b, c)".toList, call.span.stop = spot.offset) ∧
      (∀ child ∈ call.children,
        call.span.start ≤ child.span.start ∧ child.span.stop ≤ call.span.stop) ∧
      call.children.Pairwise fun child later => child.span.stop ≤ later.span.start := by
  have size : byteLength "(ü[a]).f(b, c)".toList ≤ Span.limit := by decide +kernel
  have shape : (parse "(ü[a]).f(b, c)").toOption.any fun tree =>
      decide (∃ statement ∈ tree.children, ∃ call ∈ statement.children, call.span = ⟨1, 15⟩ ∧
        call.children.map Node.span = [⟨1, 9⟩, ⟨10, 11⟩, ⟨13, 14⟩]) := by decide +kernel
  obtain ⟨tree, made, facts⟩ := parsed_of_any shape
  obtain ⟨statement, mem, call, among, span, children⟩ := of_decide_eq_true facts
  have inside : call.PartOf tree := .child mem (.child among .self)
  exact ⟨size, tree, call, made, inside, span, children, spans_nest _ size _ made call inside⟩

end HostScript
