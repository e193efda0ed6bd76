import HostScript.Proofs.Compile.Constructs
import HostScript.Proofs.Compile.Fits

/-!
# Proofs/Compile/Program — compiling makes code that fits

Compiling goes from workspace to workspace: labels and owners are used up, scopes grow and stay sound,
and the code that has been made so far fits the place at which the compiler stands by now.  `Made`
says all of this for a list of codes made one after another; `made_node` proves it of every node, by
recursion over the tree, and `sound_compile` is what it means for a whole program.
-/

namespace HostScript

open Code (Region regionsOf armCodes)

namespace Compile

/-- Whether what tells a region apart has come into use between two workspaces. -/
def UsedUp (w w' : Workspace) : Region → Prop
  | .loop label => w.labels ≤ label.index ∧ label.index < w'.labels
  | .body owner => owner.source = w.next.source ∧ w.next.number ≤ owner.number ∧
      owner.number < w'.next.number

/-- A workspace is ready for compiling: its scopes are sound, there are some, and the next owner is not
the module. -/
structure Ready (w : Workspace) : Prop where
  sound : w.scopes.Sound w.next.source
  inside : w.scopes ≠ []
  next : w.next.number ≠ 0

/-- A workspace with more labels and owners in use. -/
structure Later (w w' : Workspace) : Prop where
  labels : w.labels ≤ w'.labels
  source : w'.next.source = w.next.source
  next : w.next.number ≤ w'.next.number

/-- A workspace further on in the same scopes. -/
structure Advances (w w' : Workspace) : Prop extends Later w w' where
  grow : Scopes.Grow w.scopes w'.scopes
  sound : w'.scopes.Sound w'.next.source

/-- **Codes made between two workspaces**: they fit the place, and no two of their regions are known by
the same. -/
structure Made (w w' : Workspace) (codes : List Code) : Prop extends Advances w w' where
  fits : ∀ code ∈ codes, code.Fits w'.scopes.context
  regions : (regionsOf codes).Nodup
  used : ∀ region ∈ regionsOf codes, UsedUp w w' region

variable {w w' w'' : Workspace} {code other : Code} {codes others : List Code}

theorem Later.refl (w : Workspace) : Later w w := ⟨Nat.le_refl _, rfl, Nat.le_refl _⟩

theorem Later.trans (h : Later w w') (k : Later w' w'') : Later w w'' :=
  ⟨Nat.le_trans h.labels k.labels, k.source.trans h.source, Nat.le_trans h.next k.next⟩

theorem Advances.refl (ready : Ready w) : Advances w w :=
  ⟨.refl w, Scopes.Grow.refl _, ready.sound⟩

theorem Advances.trans (h : Advances w w') (k : Advances w' w'') : Advances w w'' :=
  ⟨h.toLater.trans k.toLater, Scopes.Grow.trans h.grow k.grow, k.sound⟩

theorem Advances.ready (h : Advances w w') (ready : Ready w) : Ready w' :=
  ⟨h.sound, Scopes.Grow.ne_nil h.grow ready.inside,
    Nat.ne_of_gt (Nat.lt_of_lt_of_le (Nat.pos_of_ne_zero ready.next) h.next)⟩

theorem UsedUp.widen {start finish : Workspace} {region : Region} (h : UsedUp w w' region)
    (before : Later start w) (after : Later w' finish) : UsedUp start finish region := by
  cases region with
  | loop label => exact ⟨Nat.le_trans before.labels h.1, Nat.lt_of_lt_of_le h.2 after.labels⟩
  | body owner =>
    exact ⟨h.1.trans before.source, Nat.le_trans before.next h.2.1,
      Nat.lt_of_lt_of_le h.2.2 after.next⟩

/-- What has come into use between two workspaces does not come into use again. -/
theorem UsedUp.ne {region again : Region} (h : UsedUp w w' region) (k : UsedUp w' w'' again) :
    region ≠ again := by
  rintro rfl
  cases region with
  | loop label => exact absurd (Nat.lt_of_lt_of_le h.2 k.1) (Nat.lt_irrefl _)
  | body owner => exact absurd (Nat.lt_of_lt_of_le h.2.2 k.2.1) (Nat.lt_irrefl _)

namespace Made

theorem nil (h : Advances w w') : Made w w' [] :=
  ⟨h, fun _ never => (nomatch never), List.nodup_nil, fun _ never => (nomatch never)⟩

/-- What was made before fits later too. -/
theorem advance (h : Made w w' codes) (k : Advances w' w'') : Made w w'' codes := by
  refine ⟨h.toAdvances.trans k, fun code mem => ?_, h.regions, fun region mem => ?_⟩
  · exact (h.fits code mem).grow (Scopes.Grow.context k.grow)
  · exact (h.used region mem).widen (.refl w) k.toLater

/-- Codes made one after another. -/
theorem append (h : Made w w' codes) (k : Made w' w'' others) : Made w w'' (codes ++ others) := by
  have first := h.advance k.toAdvances
  refine ⟨first.toAdvances, fun code mem => ?_, ?_, fun region mem => ?_⟩
  · rcases List.mem_append.1 mem with mem | mem
    · exact first.fits code mem
    · exact k.fits code mem
  · rw [Code.regionsOf_append]
    refine List.nodup_append.2 ⟨h.regions, k.regions, fun a mem b mem' => ?_⟩
    exact (h.used a mem).ne (k.used b mem')
  · rw [Code.regionsOf_append] at mem
    rcases List.mem_append.1 mem with mem | mem
    · exact first.used region mem
    · exact (k.used region mem).widen h.toLater (.refl w'')

theorem cons (h : Made w w' [code]) (k : Made w' w'' codes) : Made w w'' (code :: codes) := h.append k

/-- Requests do not matter. -/
theorem requests (h : Made w w' codes) (requests : List Signature) :
    Made w { w' with requests := requests } codes :=
  ⟨⟨⟨h.labels, h.source, h.next⟩, h.grow, h.sound⟩, h.fits, h.regions, h.used⟩

theorem requested {requests : List Signature}
    (h : Made { w with requests := requests } w' codes) : Made w w' codes :=
  ⟨⟨⟨h.labels, h.source, h.next⟩, h.grow, h.sound⟩, h.fits, h.regions, h.used⟩

/-- One code made of others, with the same regions. -/
theorem wrap (h : Made w w' codes) (fits : code.Fits w'.scopes.context)
    (same : code.regions = regionsOf codes) : Made w w' [code] := by
  refine ⟨h.toAdvances, fun other mem => ?_, ?_, ?_⟩
  · obtain rfl := List.mem_singleton.1 mem
    exact fits
  · rw [Code.regionsOf_singleton, same]
    exact h.regions
  · rw [Code.regionsOf_singleton, same]
    exact h.used

theorem single (h : Advances w w') (fits : code.Fits w'.scopes.context)
    (none : code.regions = []) : Made w w' [code] := (nil h).wrap fits none

theorem fits_one (h : Made w w' [code]) : code.Fits w'.scopes.context :=
  h.fits code List.mem_cons_self

/-! ### Constructs -/

theorem dispatch (h : Made w w' codes) (position : Position) (s : Signature) :
    Made w w' [.dispatch position s codes] := h.wrap (.dispatch h.fits) rfl

theorem inOrder (h : Made w w' codes) : Made w w' [inOrder codes] := by
  match codes with
  | [] => exact h.wrap .null rfl
  | [code] => exact h
  | _ :: _ :: _ => exact h.wrap (.sequence h.fits) rfl

theorem choose {branches : List (Code × Code)} (h : Made w w' (armCodes branches ++ [code])) :
    Made w w' [.choose branches code] := by
  refine h.wrap (.choose ?_ ?_ ?_) ?_
  · exact fun branch mem => h.fits _ (List.mem_append_left _ (Code.mem_armCodes mem).1)
  · exact fun branch mem => h.fits _ (List.mem_append_left _ (Code.mem_armCodes mem).2)
  · exact h.fits _ (List.mem_append_right _ List.mem_cons_self)
  · rw [Code.regionsOf_append, Code.regionsOf_singleton, ← Code.regionsOfArms_eq]
    rfl

/-- A write to a variable that is known, or declared after the value. -/
theorem write (h : Made w w' [code]) (made : SlotRef × Scopes)
    (declared : Scopes.Declared w'.next.source w'.scopes made) :
    Made w { w' with scopes := made.2 } [.write made.1 code] := by
  have further : Advances w' { w' with scopes := made.2 } :=
    ⟨⟨Nat.le_refl _, rfl, Nat.le_refl _⟩, declared.grow, declared.sound⟩
  have kept := h.advance further
  refine kept.wrap (.write declared.reaches kept.fits_one) ?_
  rw [Code.regionsOf_singleton]
  rfl

/-- A loop, whose label was new. -/
theorem loop {label : Label} {opened : Workspace} (fresh : label = ⟨w.labels⟩)
    (opens : opened = { w with
      labels := w.labels + 1, scopes := .loop w.scopes.owner label :: w.scopes })
    (h : Made opened w' [code]) :
    Made w { w' with scopes := w'.scopes.drop 1 } [.loop label code] := by
  subst opens fresh
  obtain ⟨t, rest, is_cons, first, grow⟩ := Scopes.Grow.tail h.grow
  have sound := h.sound
  have fits := h.fits_one
  rw [is_cons] at sound fits
  rw [Scopes.context_of_loop first.kind] at fits
  rw [is_cons]
  have later : Later w w' := ⟨Nat.le_trans (Nat.le_succ _) h.labels, h.source, h.next⟩
  refine ⟨⟨⟨later.labels, later.source, later.next⟩, grow, sound.2.2.2⟩, ?_, ?_, ?_⟩
  · intro other mem
    obtain rfl := List.mem_singleton.1 mem
    exact .loop fits
  · have inner := h.regions
    rw [Code.regionsOf_singleton] at inner ⊢
    refine List.nodup_cons.2 ⟨fun again => ?_, inner⟩
    have used := h.used (.loop ⟨w.labels⟩) (Code.regionsOf_singleton code ▸ again)
    exact absurd used.1 (Nat.not_succ_le_self _)
  · intro region mem
    rw [Code.regionsOf_singleton] at mem
    rcases List.mem_cons.1 mem with rfl | mem
    · exact ⟨Nat.le_refl _, h.labels⟩
    · have used := h.used region (Code.regionsOf_singleton code ▸ mem)
      exact used.widen ⟨Nat.le_succ _, rfl, Nat.le_refl _⟩ ⟨Nat.le_refl _, rfl, Nat.le_refl _⟩

/-- A function, whose owner was new. -/
theorem closure (ready : Ready w) (name : String) (params : List String) {opened : Workspace}
    (opens : opened = { w with
      next := { w.next with number := w.next.number + 1 }
      scopes := .function w.next params :: w.scopes })
    (h : Made opened w' [code]) :
    Made w { w' with scopes := w'.scopes.drop 1 }
      [.closure ⟨name, params.length, w'.scopes.layout, w'.scopes.returnLabel?, code⟩] := by
  subst opens
  obtain ⟨t, rest, is_cons, first, grow⟩ := Scopes.Grow.tail h.grow
  have sound := h.sound
  have fits := h.fits_one
  rw [is_cons] at sound fits
  rw [Scopes.context_of_function first.kind] at fits
  have later : Later w w' := ⟨h.labels, h.source, Nat.le_trans (Nat.le_succ _) h.next⟩
  have owner : w'.scopes.layout.owner = w.next := by
    rw [is_cons]
    exact first.owner
  refine ⟨⟨⟨later.labels, later.source, later.next⟩, ?_, ?_⟩, ?_, ?_, ?_⟩
  · rw [is_cons]
    exact grow
  · rw [is_cons]
    exact sound.2.2.2
  · intro other mem
    obtain rfl := List.mem_singleton.1 mem
    refine .closure (owner ▸ ready.next) ?_ ?_
    · rw [is_cons]
      intro layout mem
      exact (Scopes.Sound.sources sound.2.2.2 layout mem).trans sound.1.symm
    · rw [is_cons, Scopes.returnLabel?_of_function first.kind]
      exact fits
  · have inner := h.regions
    rw [Code.regionsOf_singleton] at inner ⊢
    refine List.nodup_cons.2 ⟨fun again => ?_, inner⟩
    rw [owner] at again
    have used := h.used (.body w.next) (Code.regionsOf_singleton code ▸ again)
    exact absurd used.2.1 (Nat.not_succ_le_self _)
  · intro region mem
    rw [Code.regionsOf_singleton] at mem
    rcases List.mem_cons.1 mem with rfl | mem
    · rw [owner]
      exact ⟨rfl, Nat.le_refl _, h.next⟩
    · have used := h.used region (Code.regionsOf_singleton code ▸ mem)
      exact used.widen ⟨Nat.le_refl _, rfl, Nat.le_succ _⟩ ⟨Nat.le_refl _, rfl, Nat.le_refl _⟩

end Made

/-! ## Nodes -/

/-- A label for the innermost function. -/
theorem advances_returnLabel {label : Label} (ready : Ready w) (inside : w.scopes.inFunction = true)
    (h : Yields returnLabel w label w') :
    Advances w w' ∧ w'.scopes.returnLabel? = some label := by
  rcases h.returnLabel with ⟨known, rfl⟩ | ⟨missing, rfl, rfl⟩
  · exact ⟨.refl ready, known⟩
  · obtain ⟨grow, sound⟩ := Scopes.Sound.setReturnLabel ready.sound missing ⟨w.labels⟩
    exact ⟨⟨⟨Nat.le_succ _, rfl, Nat.le_refl _⟩, grow, sound⟩,
      Scopes.returnLabel?_setReturnLabel inside _⟩

/-- Going into a function whose owner is new. -/
theorem ready_function (ready : Ready w) (params : List String) :
    Ready { w with
      next := { w.next with number := w.next.number + 1 }
      scopes := .function w.next params :: w.scopes } :=
  ⟨Scopes.Sound.function ready.sound rfl params, List.cons_ne_nil _ _, Nat.succ_ne_zero _⟩

/-- Going into a loop whose label is new. -/
theorem ready_loop (ready : Ready w) (label : Label) :
    Ready { w with labels := w.labels + 1, scopes := .loop w.scopes.owner label :: w.scopes } :=
  ⟨Scopes.Sound.loop ready.sound ready.inside label, List.cons_ne_nil _ _, ready.next⟩

/-- Compiling a node makes one code. -/
def MakesNode (places : Places) (tree : Node) : Prop :=
  ∀ ⦃w w' : Workspace⦄ ⦃code : Code⦄, Ready w → Yields (node places tree) w code w' → Made w w' [code]

/-- Compiling nodes in order makes their codes. -/
def MakesNodes (places : Places) (trees : List Node) : Prop :=
  ∀ ⦃w w' : Workspace⦄ ⦃codes : List Code⦄, Ready w → Yields (nodes places trees) w codes w' →
    Made w w' codes

/-- Compiling tests and bodies in order makes their codes. -/
def MakesArms (places : Places) (trees : List (Node × Node)) : Prop :=
  ∀ ⦃w w' : Workspace⦄ ⦃branches : List (Code × Code)⦄, Ready w →
    Yields (arms places trees) w branches w' → Made w w' (armCodes branches)

section

variable {places : Places} {span inner : Span} {name : String} {target value body : Node}
  {trees args : List Node}

/-! ### Lists of nodes -/

theorem makes_nil : MakesNodes places [] := by
  intro w w' codes ready h
  obtain ⟨rfl, rfl⟩ := h.nil
  exact .nil (.refl ready)

theorem makes_cons {first : Node} (one : MakesNode places first) (rest : MakesNodes places trees) :
    MakesNodes places (first :: trees) := by
  intro w w' codes ready h
  obtain ⟨_, _, _, made, next, rfl⟩ := h.cons
  have head := one ready made
  exact head.cons (rest (head.ready ready) next)

theorem makes_noArms : MakesArms places [] := by
  intro w w' branches ready h
  obtain ⟨rfl, rfl⟩ := h.noArms
  exact .nil (.refl ready)

theorem makes_arm {test : Node} {rest : List (Node × Node)} (first : MakesNode places test)
    (second : MakesNode places body) (others : MakesArms places rest) :
    MakesArms places ((test, body) :: rest) := by
  intro w w' branches ready h
  obtain ⟨_, _, _, _, _, made, next, last, rfl⟩ := h.arm
  have one := first ready made
  have two := second (one.ready ready) next
  exact one.cons (two.cons (others (two.ready (one.ready ready)) last))

/-! ### Simple nodes and operations -/

theorem makes_literal (literal : Literal) : MakesNode places (.literal span literal) := by
  intro w w' code ready h
  obtain ⟨rfl, rfl⟩ := h.literal
  exact .single (.refl ready) .constant rfl

theorem makes_empty : MakesNode places (.empty span) := by
  intro w w' code ready h
  obtain ⟨rfl, rfl⟩ := h.empty
  exact .single (.refl ready) .null rfl

theorem makes_plain (makes : MakesNode places value) : MakesNode places (.plain span value) := by
  intro w w' code ready h
  exact makes ready h.plain

theorem makes_block (makes : MakesNodes places trees) : MakesNode places (.block span trees) := by
  intro w w' code ready h
  obtain ⟨_, made, rfl⟩ := h.block
  exact (makes ready made).inOrder

theorem makes_named : MakesNode places (.named span name) := by
  intro w w' code ready h
  obtain ⟨slot, known, rfl, rfl⟩ | ⟨-, rfl, rfl⟩ := h.named
  · exact .single (.refl ready) (.read (ready.sound.findKey? known)) rfl
  · exact ((Made.nil (.refl ready)).dispatch _ _).requests _

/-- An operation is made of what its operands make. -/
theorem makes_operation {tree : Node} {s : Signature} (is_operation : tree.operation? = some (s, trees))
    (makes : MakesNodes places trees) : MakesNode places tree := by
  intro w w' code ready h
  obtain ⟨_, _, made, rfl, rfl⟩ := h.operates is_operation
  exact ((makes ready made).dispatch _ _).requests _

theorem makes_create (makes : MakesNodes places (target :: args)) :
    MakesNode places (.create span target args) := by
  intro w w' code ready h
  obtain ⟨_, made, rfl⟩ := h.create
  have asked : Ready { w with requests := Signature.createInstance args.length :: w.requests } :=
    ⟨ready.sound, ready.inside, ready.next⟩
  exact ((makes asked made).dispatch _ _).requested

theorem makes_callName (others : MakesNodes places args) :
    MakesNode places (.call span (.named inner name) args) := by
  intro w w' code ready h
  obtain ⟨_, _, made, ⟨slot, known, rfl, rfl⟩ | ⟨-, rfl, rfl⟩⟩ := h.callName
  · have reaches := ready.sound.findKey? known
    have read : Made w w [.read slot] := .single (.refl ready) (.read reaches) rfl
    exact ((read.cons (others ready made)).dispatch _ _).requests _
  · exact ((others ready made).dispatch _ _).requests _

/-! ### Variables -/

theorem makes_declare : MakesNode places (.declare span name none) := by
  intro w w' code ready h
  obtain ⟨rfl, rfl⟩ := h.declare
  have known := ready.sound.declareLocal ready.inside name
  exact .single ⟨⟨Nat.le_refl _, rfl, Nat.le_refl _⟩, known.grow, known.sound⟩ .null rfl

theorem makes_initialized (makes : MakesNode places value) :
    MakesNode places (.declare span name (some value)) := by
  intro w w' code ready h
  obtain ⟨_, _, made, rfl, rfl⟩ := h.initialized
  have known := makes ready made
  have there := known.ready ready
  exact known.write _ (there.sound.declareLocal there.inside name)

theorem makes_assignName (makes : MakesNode places value) :
    MakesNode places (.assign span (.named inner name) value) := by
  intro w w' code ready h
  obtain ⟨_, between, made, assigned⟩ := h.assignName
  have known := makes ready made
  have there := known.ready ready
  obtain ⟨slot, declared, rfl, rfl⟩ | ⟨-, rfl, rfl⟩ := assigned
  · have reaches := there.sound.findKey? declared
    exact known.write (slot, _) ⟨Scopes.Grow.refl _, there.sound, reaches⟩
  · exact known.write _ (there.sound.declareGlobal there.inside name)

/-- What cannot be assigned to makes nothing. -/
theorem makes_assignOther (never : target.isAssignable = false) :
    MakesNode places (.assign span target value) := by
  intro w w' code _ h
  cases never.symm.trans h.isAssignable

/-! ### Functions -/

theorem makes_function {params : List String} (makes : MakesNode places body) :
    MakesNode places (.function span name params body) := by
  intro w w' code ready h
  obtain ⟨_, _, made, rfl, rfl⟩ := h.function
  have closure := Made.closure ready name params rfl (makes (ready_function ready params) made)
  have module := Made.single (.refl ready) .thisModule rfl
  exact ((module.cons closure).dispatch _ _).requests _

theorem makes_lambda {params : List String} (makes : MakesNode places body) :
    MakesNode places (.lambda span params body) := by
  intro w w' code ready h
  obtain ⟨_, _, _, _, labelled, made, rfl, rfl⟩ := h.lambda
  have opened := ready_function ready params
  obtain ⟨advances, -⟩ := advances_returnLabel opened rfl labelled
  have inner := makes (advances.ready opened) made
  exact Made.closure ready "lambda" params rfl ((Made.nil advances).append inner)

/-! ### Choices, loops and jumps -/

theorem makes_choose {branches : List (Node × Node)} (makes : MakesArms places branches) :
    MakesNode places (.choose span branches none) := by
  intro w w' code ready h
  obtain ⟨_, made, rfl⟩ := h.choose
  have arms := makes ready made
  exact (arms.append (.single (.refl (arms.ready ready)) .constant rfl)).choose

theorem makes_chooseElse {branches : List (Node × Node)} (makes : MakesArms places branches)
    (last : MakesNode places body) : MakesNode places (.choose span branches (some body)) := by
  intro w w' code ready h
  obtain ⟨_, _, _, made, next, rfl⟩ := h.chooseElse
  have arms := makes ready made
  exact (arms.append (last (arms.ready ready) next)).choose

theorem makes_loop (makes : MakesNode places body) : MakesNode places (.loop span body) := by
  intro w w' code ready h
  obtain ⟨_, _, made, rfl, rfl⟩ := h.loop
  exact Made.loop rfl rfl (makes (ready_loop ready ⟨w.labels⟩) made)

theorem makes_leave : MakesNode places (.leave span none) := by
  intro w w' code ready h
  obtain ⟨_, inside, rfl, rfl⟩ := h.leave
  exact .single (.refl ready) (.leave inside .null) rfl

theorem makes_leaveWith (makes : MakesNode places value) :
    MakesNode places (.leave span (some value)) := by
  intro w w' code ready h
  obtain ⟨_, _, inside, made, rfl⟩ := h.leaveWith
  have known := makes ready made
  have kept := (Scopes.Grow.loopLabel? known.grow).trans inside
  refine known.wrap (.leave kept known.fits_one) ?_
  rw [Code.regionsOf_singleton]
  rfl

theorem makes_give : MakesNode places (.give span none) := by
  intro w w' code ready h
  obtain ⟨_, inside, labelled, rfl⟩ := h.give
  obtain ⟨advances, set⟩ := advances_returnLabel ready inside labelled
  exact .single advances (.give set .constant) rfl

theorem makes_giveBack (makes : MakesNode places value) :
    MakesNode places (.give span (some value)) := by
  intro w w' code ready h
  obtain ⟨_, _, _, inside, labelled, made, rfl⟩ := h.giveBack
  obtain ⟨advances, set⟩ := advances_returnLabel ready inside labelled
  have known := makes (advances.ready ready) made
  have kept := Scopes.Grow.returnLabel? known.grow set
  refine ((Made.nil advances).append known).wrap (.give kept known.fits_one) ?_
  rw [List.nil_append, Code.regionsOf_singleton]
  rfl

theorem makes_importFrom {path : List String} {renamed : Option String} :
    MakesNode places (.importFrom span path renamed) := by
  intro w w' code ready h
  obtain ⟨rfl, rfl⟩ := h.importFrom
  exact .single (.refl ready) .importAs rfl

end

/-! ### Trees -/

variable (places : Places)

mutual

/-- **Whatever a node is compiled to fits the place where it stands.** -/
theorem makes_node : ∀ tree, MakesNode places tree
  | .literal _ literal => makes_literal literal
  | .named _ _ => makes_named
  | .member _ target _ _ => makes_operation rfl (makes_cons (makes_node target) makes_nil)
  | .index _ target place =>
    makes_operation rfl (makes_cons (makes_node target) (makes_cons (makes_node place) makes_nil))
  | .binary _ _ left right =>
    makes_operation rfl (makes_cons (makes_node left) (makes_cons (makes_node right) makes_nil))
  | .unary _ _ operand => makes_operation rfl (makes_cons (makes_node operand) makes_nil)
  | .assign _ target value => by
    have last := makes_node value
    have alone := makes_cons last makes_nil
    cases target with
    | named _ _ => exact makes_assignName last
    | member _ object _ _ => exact makes_operation rfl (makes_cons (makes_node object) alone)
    | index _ object place =>
      have after := makes_cons (makes_node place) alone
      exact makes_operation rfl (makes_cons (makes_node object) after)
    | _ => exact makes_assignOther rfl
  | .call _ callee args => by
    have first := makes_node callee
    have others := makes_nodes args
    cases callee with
    | member _ object _ _ => exact makes_operation rfl (makes_cons (makes_node object) others)
    | named _ _ => exact makes_callName others
    | _ => exact makes_operation rfl (makes_cons first others)
  | .create _ target args => makes_create (makes_cons (makes_node target) (makes_nodes args))
  | .declare _ _ none => makes_declare
  | .declare _ _ (some value) => makes_initialized (makes_node value)
  | .function _ _ _ body => makes_function (makes_node body)
  | .lambda _ _ body => makes_lambda (makes_node body)
  | .choose _ branches none => makes_choose (makes_arms branches)
  | .choose _ branches (some body) => makes_chooseElse (makes_arms branches) (makes_node body)
  | .loop _ body => makes_loop (makes_node body)
  | .leave _ none => makes_leave
  | .leave _ (some value) => makes_leaveWith (makes_node value)
  | .give _ none => makes_give
  | .give _ (some value) => makes_giveBack (makes_node value)
  | .importFrom _ _ _ => makes_importFrom
  | .block _ statements => makes_block (makes_nodes statements)
  | .plain _ expression => makes_plain (makes_node expression)
  | .empty _ => makes_empty

theorem makes_nodes : ∀ trees, MakesNodes places trees
  | [] => makes_nil
  | first :: rest => makes_cons (makes_node first) (makes_nodes rest)

theorem makes_arms : ∀ trees, MakesArms places trees
  | [] => makes_noArms
  | (test, body) :: rest => makes_arm (makes_node test) (makes_node body) (makes_arms rest)

end

end Compile

/-- What is true of a program: its code fits a module of its own, and its loops and functions, and the
module itself, are told apart by their labels and owners. -/
structure Program.Sound (source : Nat) (program : Program) : Prop where
  owner : program.layout.owner = ⟨source, 0⟩
  fits : program.code.Fits ⟨[program.layout], none, none⟩
  regions : (.body ⟨source, 0⟩ :: program.code.regions).Nodup
  sources (owner : Owner) : .body owner ∈ program.code.regions → owner.source = source

/-- **Compiled programs are sound.** -/
theorem sound_compile {number : Nat} {source : List Char} {tree : Node} {program : Program}
    (h : (compile number source tree).1 = .ok program) : program.Sound number := by
  obtain ⟨⟨_, _, _, scopes⟩, yields, layout, -⟩ := yields_compile h
  have ready : Compile.Ready ⟨0, ⟨number, 1⟩, [], [.module ⟨number, 0⟩]⟩ :=
    ⟨Scopes.sound_module ⟨number, 0⟩, List.cons_ne_nil _ _, Nat.one_ne_zero⟩
  have made := Compile.makes_node _ tree ready yields
  obtain ⟨t, rest, is_cons, first, grow⟩ := Scopes.Grow.tail made.grow
  cases grow
  obtain rfl : scopes = [t] := is_cons
  have owns : t.ownsFrame = true := first.ownsFrame
  have is_module : t.kind = .module := first.kind
  have own : program.layout = ⟨t.owner, t.slots⟩ := layout
  have around : Scopes.context [t] = ⟨[program.layout], none, none⟩ := by
    rw [own]
    unfold Scopes.context Scopes.loopLabel?
    rw [Scopes.chain_of_ownsFrame owns, Scopes.returnLabel?_of_ne (is_module ▸ nofun)]
    dsimp only
    rw [is_module]
    rfl
  have regions := made.regions
  have used := made.used
  rw [Code.regionsOf_singleton] at regions used
  refine ⟨?_, around ▸ made.fits_one, ?_, ?_⟩
  · rw [own]
    exact first.owner
  · refine List.nodup_cons.2 ⟨fun again => ?_, regions⟩
    exact absurd (used _ again).2.1 (Nat.not_succ_le_zero 0)
  · exact fun owner mem => (used _ mem).1

end HostScript
