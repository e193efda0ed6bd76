import HostScript.Proofs.Compile.Program

/-!
# Proofs/Compile/Requests — a program requests what it does

A site is a place in a code where something may fail: a dynamic operation or an import, with the position
that it has in the source.  Compiling requests the signature of each dynamic operation it meets; so for a
source that turns out to be a program these are the signatures at the sites of its code, no more and no
fewer (`mem_requests_compile`).  And a site stands where a construct of the tree starts
(`Compile.asks_node`).
-/

namespace HostScript

/-! ## Spans of trees -/

namespace Node

mutual

/-- The spans of a node and its parts. -/
def spans : Node → List Span
  | .literal span _ | .named span _ | .importFrom span _ _ | .empty span => [span]
  | .member span part _ _ | .unary span _ part | .function span _ _ part | .lambda span _ part
  | .loop span part | .plain span part => span :: spans part
  | .index span first second | .binary span _ first second | .assign span first second =>
    span :: (spans first ++ spans second)
  | .call span first args | .create span first args => span :: (spans first ++ spansOf args)
  | .declare span _ none | .leave span none | .give span none => [span]
  | .declare span _ (some value) | .leave span (some value) | .give span (some value) =>
    span :: spans value
  | .choose span branches none => span :: spansOfArms branches
  | .choose span branches (some otherwise) => span :: (spansOfArms branches ++ spans otherwise)
  | .block span statements => span :: spansOf statements

/-- The spans of nodes. -/
def spansOf : List Node → List Span
  | [] => []
  | first :: rest => spans first ++ spansOf rest

/-- The spans of tests and bodies. -/
def spansOfArms : List (Node × Node) → List Span
  | [] => []
  | (test, body) :: rest => spans test ++ (spans body ++ spansOfArms rest)

end

/-- A dynamic operation on nodes has their spans and its own. -/
theorem spans_of_operation {tree : Node} {s : Signature} {trees : List Node}
    (h : tree.operation? = some (s, trees)) : tree.span :: spansOf trees ⊆ tree.spans := by
  cases tree with
  | assign _ target _ =>
    cases target with
    | member | index =>
      cases h
      simp [Node.span, spans, spansOf]
    | _ => cases h
  | call _ callee _ =>
    cases callee with
    | named => cases h
    | _ =>
      cases h
      simp [Node.span, spans, spansOf]
  | member | index | binary | unary =>
    cases h
    simp [Node.span, spans, spansOf]
  | _ => cases h

end Node

/-! ## Sites of codes -/

/-- A place where something may fail, with the dynamic operation that it is, if it is one. -/
abbrev Site := Position × Option Signature

namespace Code

mutual

/-- The sites of a code. -/
def sites : Code → List Site
  | .write _ value | .leave _ value | .give _ value => sites value
  | .dispatch position s operands => (position, some s) :: sitesOf operands
  | .closure template => sites template.body
  | .choose branches otherwise => sitesOfArms branches ++ sites otherwise
  | .loop _ body => sites body
  | .sequence codes => sitesOf codes
  | .importAs position _ _ => [(position, none)]
  | _ => []

/-- The sites of codes. -/
def sitesOf : List Code → List Site
  | [] => []
  | code :: rest => sites code ++ sitesOf rest

/-- The sites of tests and bodies. -/
def sitesOfArms : List (Code × Code) → List Site
  | [] => []
  | (test, body) :: rest => sites test ++ (sites body ++ sitesOfArms rest)

end

/-- The signatures of the dynamic operations of a code. -/
def signatures (code : Code) : List Signature := code.sites.filterMap Prod.snd

theorem mem_signatures {code : Code} {s : Signature} :
    s ∈ code.signatures ↔ ∃ position, (position, some s) ∈ code.sites := by
  unfold signatures
  rw [List.mem_filterMap]
  constructor
  · rintro ⟨⟨position, _⟩, mem, rfl⟩
    exact ⟨position, mem⟩
  · rintro ⟨position, mem⟩
    exact ⟨_, mem, rfl⟩

theorem sitesOfArms_eq (branches : List (Code × Code)) :
    sitesOfArms branches = sitesOf (armCodes branches) := by
  induction branches with
  | nil => rfl
  | cons branch rest ih =>
    rw [sitesOfArms, ih]
    rfl

theorem sitesOf_append (a b : List Code) : sitesOf (a ++ b) = sitesOf a ++ sitesOf b := by
  induction a with
  | nil => rfl
  | cons code rest ih => rw [List.cons_append, sitesOf, sitesOf, ih, List.append_assoc]

@[simp] theorem sitesOf_nil : sitesOf [] = [] := by rw [sitesOf]

@[simp] theorem sitesOf_singleton (code : Code) : sitesOf [code] = sites code := by
  rw [sitesOf, sitesOf, List.append_nil]

end Code

open Node (spansOf spansOfArms)
open Code (sites sitesOf armCodes)

namespace Compile

/-! ## What codes request -/

/-- **Codes that have been made are what has been requested since**, and their sites stand at the given
spans. -/
structure Asks (places : Places) (spans : List Span) (w w' : Workspace) (codes : List Code) : Prop where
  requests (s : Signature) :
    s ∈ w'.requests ↔ s ∈ w.requests ∨ ∃ position, (position, some s) ∈ sitesOf codes
  stand : ∀ site ∈ sitesOf codes, ∃ span ∈ spans, site.1 = places span

namespace Asks

variable {places : Places} {spans more : List Span} {w w' w'' : Workspace}
  {codes others : List Code} {code : Code}

theorem none (same : w'.requests = w.requests) : Asks places [] w w' [] := by
  refine ⟨fun s => ?_, fun _ never => ?_⟩
  · rw [same, Code.sitesOf_nil]
    exact (or_iff_left fun ⟨_, never⟩ => List.not_mem_nil never).symm
  · rw [Code.sitesOf_nil] at never
    exact absurd never List.not_mem_nil

theorem append (h : Asks places spans w w' codes) (k : Asks places more w' w'' others) :
    Asks places (spans ++ more) w w'' (codes ++ others) := by
  refine ⟨fun s => ?_, fun site mem => ?_⟩
  · rw [k.requests s, h.requests s, Code.sitesOf_append, or_assoc, ← exists_or]
    exact or_congr_right (exists_congr fun _ => List.mem_append.symm)
  · rw [Code.sitesOf_append] at mem
    rcases List.mem_append.1 mem with first | second
    · obtain ⟨span, among, stands⟩ := h.stand site first
      exact ⟨span, List.mem_append_left _ among, stands⟩
    · obtain ⟨span, among, stands⟩ := k.stand site second
      exact ⟨span, List.mem_append_right _ among, stands⟩

theorem cons (h : Asks places spans w w' [code]) (k : Asks places more w' w'' codes) :
    Asks places (spans ++ more) w w'' (code :: codes) := h.append k

/-- Codes with the same sites. -/
theorem congr (h : Asks places spans w w' codes) (same : sitesOf others = sitesOf codes) :
    Asks places spans w w' others :=
  ⟨fun s => same ▸ h.requests s, fun site mem => h.stand site (same ▸ mem)⟩

/-- What is done besides requesting does not matter. -/
theorem mono {v v' : Workspace} (h : Asks places spans w w' codes) (before : v.requests = w.requests)
    (after : v'.requests = w'.requests) : Asks places spans v v' codes :=
  ⟨fun s => by rw [before, after, h.requests s], h.stand⟩

/-- Sites may stand at more spans. -/
theorem within (h : Asks places spans w w' codes) (fewer : spans ⊆ more) :
    Asks places more w w' codes :=
  ⟨h.requests, fun site mem => (h.stand site mem).imp fun _ there => ⟨fewer there.1, there.2⟩⟩

/-- The sites in a part of a node stand at spans of the node. -/
theorem inside (h : Asks places spans w w' codes) (span : Span) :
    Asks places (span :: spans) w w' codes := h.within (List.subset_cons_self span spans)

/-- The sites of an operation are its own and those of its operands. -/
theorem stand_dispatch (h : Asks places spans w w' codes) (span : Span) (t : Signature) :
    ∀ site ∈ sitesOf [.dispatch (places span) t codes], ∃ other ∈ span :: spans,
      site.1 = places other := by
  intro site mem
  rw [Code.sitesOf_singleton, sites] at mem
  rcases List.mem_cons.1 mem with rfl | inside
  · exact ⟨span, List.mem_cons_self, rfl⟩
  · obtain ⟨other, among, stands⟩ := h.stand site inside
    exact ⟨other, List.mem_cons_of_mem span among, stands⟩

theorem exists_mem_dispatch {position : Position} {s t : Signature} :
    (∃ there, (there, some s) ∈ sitesOf [.dispatch position t codes]) ↔
      s = t ∨ ∃ there, (there, some s) ∈ sitesOf codes := by
  rw [Code.sitesOf_singleton, sites]
  simp only [List.mem_cons, Prod.mk.injEq, Option.some.injEq, exists_or, exists_eq_left]

/-- An operation that is requested after its operands. -/
theorem dispatch (h : Asks places spans w w' codes) (span : Span) (t : Signature) :
    Asks places (span :: spans) w { w' with requests := t :: w'.requests }
      [.dispatch (places span) t codes] := by
  refine ⟨fun s => ?_, h.stand_dispatch span t⟩
  rw [exists_mem_dispatch, List.mem_cons, h.requests s, or_left_comm]

/-- An operation that has been requested before its operands. -/
theorem dispatched {t : Signature}
    (h : Asks places spans { w with requests := t :: w.requests } w' codes) (span : Span) :
    Asks places (span :: spans) w w' [.dispatch (places span) t codes] := by
  refine ⟨fun s => ?_, h.stand_dispatch span t⟩
  rw [exists_mem_dispatch, h.requests s, List.mem_cons, or_assoc, or_left_comm]

theorem inOrder (h : Asks places spans w w' codes) : Asks places spans w w' [inOrder codes] := by
  match codes with
  | [] => exact h.congr (by rw [Code.sitesOf_singleton]; rfl)
  | [code] => exact h
  | _ :: _ :: _ => exact h.congr (by rw [Code.sitesOf_singleton]; rfl)

theorem choose {branches : List (Code × Code)}
    (h : Asks places spans w w' (armCodes branches ++ [code])) :
    Asks places spans w w' [.choose branches code] := by
  refine h.congr ?_
  rw [Code.sitesOf_append, Code.sitesOf_singleton, Code.sitesOf_singleton, ← Code.sitesOfArms_eq]
  rfl

end Asks

/-! ## Nodes -/

/-- Compiling a node requests what its code does, at sites where constructs of the node stand. -/
def AsksNode (places : Places) (tree : Node) : Prop :=
  ∀ ⦃w w' : Workspace⦄ ⦃code : Code⦄, Yields (node places tree) w code w' →
    Asks places tree.spans w w' [code]

/-- Compiling nodes in order requests what their codes do. -/
def AsksNodes (places : Places) (trees : List Node) : Prop :=
  ∀ ⦃w w' : Workspace⦄ ⦃codes : List Code⦄, Yields (nodes places trees) w codes w' →
    Asks places (spansOf trees) w w' codes

/-- Compiling tests and bodies in order requests what their codes do. -/
def AsksArms (places : Places) (trees : List (Node × Node)) : Prop :=
  ∀ ⦃w w' : Workspace⦄ ⦃branches : List (Code × Code)⦄, Yields (arms places trees) w branches w' →
    Asks places (spansOfArms trees) w w' (armCodes branches)

theorem requests_returnLabel {label : Label} {w w' : Workspace}
    (h : Yields returnLabel w label w') : w'.requests = w.requests := by
  rcases h.returnLabel with ⟨-, rfl⟩ | ⟨-, -, rfl⟩ <;> rfl

section

variable {places : Places} {span inner : Span} {name : String} {target value body : Node}
  {trees args : List Node}

/-! ### Lists of nodes -/

theorem asks_nil : AsksNodes places [] := by
  intro w w' codes h
  obtain ⟨rfl, rfl⟩ := h.nil
  exact .none rfl

theorem asks_cons {first : Node} (one : AsksNode places first) (rest : AsksNodes places trees) :
    AsksNodes places (first :: trees) := by
  intro w w' codes h
  obtain ⟨_, _, _, made, next, rfl⟩ := h.cons
  exact (one made).cons (rest next)

theorem asks_noArms : AsksArms places [] := by
  intro w w' branches h
  obtain ⟨rfl, rfl⟩ := h.noArms
  exact .none rfl

theorem asks_arm {test : Node} {rest : List (Node × Node)} (first : AsksNode places test)
    (second : AsksNode places body) (others : AsksArms places rest) :
    AsksArms places ((test, body) :: rest) := by
  intro w w' branches h
  obtain ⟨_, _, _, _, _, made, next, last, rfl⟩ := h.arm
  exact (first made).cons ((second next).cons (others last))

/-! ### Simple nodes and operations -/

/-- A code that is made at once and has no sites. -/
theorem asks_pure {w w' : Workspace} {code : Code} (idle : code.sites = [])
    (same : w'.requests = w.requests) : Asks places [] w w' [code] :=
  (Asks.none same).congr (by rw [Code.sitesOf_singleton, idle, Code.sitesOf_nil])

theorem asks_literal (literal : Literal) : AsksNode places (.literal span literal) := by
  intro w w' code h
  obtain ⟨rfl, rfl⟩ := h.literal
  exact Asks.inside (asks_pure rfl rfl) span

theorem asks_empty : AsksNode places (.empty span) := by
  intro w w' code h
  obtain ⟨rfl, rfl⟩ := h.empty
  exact Asks.inside (asks_pure rfl rfl) span

theorem asks_plain (asks : AsksNode places value) : AsksNode places (.plain span value) := by
  intro w w' code h
  exact (asks h.plain).inside span

theorem asks_block (asks : AsksNodes places trees) : AsksNode places (.block span trees) := by
  intro w w' code h
  obtain ⟨_, made, rfl⟩ := h.block
  exact (asks made).inOrder.inside span

theorem asks_named : AsksNode places (.named span name) := by
  intro w w' code h
  obtain ⟨_, -, rfl, rfl⟩ | ⟨-, rfl, rfl⟩ := h.named
  · exact Asks.inside (asks_pure rfl rfl) span
  · exact (Asks.none rfl).dispatch span _

/-- An operation is requested after what its operands request. -/
theorem asks_operation {tree : Node} {s : Signature} (is_operation : tree.operation? = some (s, trees))
    (asks : AsksNodes places trees) : AsksNode places tree := by
  intro w w' code h
  obtain ⟨_, _, made, rfl, rfl⟩ := h.operates is_operation
  exact ((asks made).dispatch tree.span s).within (Node.spans_of_operation is_operation)

theorem asks_create (asks : AsksNodes places (target :: args)) :
    AsksNode places (.create span target args) := by
  intro w w' code h
  obtain ⟨_, made, rfl⟩ := h.create
  exact (asks made).dispatched span

theorem asks_callName (asks : AsksNodes places args) :
    AsksNode places (.call span (.named inner name) args) := by
  intro w w' code h
  obtain ⟨_, _, made, ⟨slot, -, rfl, rfl⟩ | ⟨-, rfl, rfl⟩⟩ := h.callName
  · have read : Asks places [inner] w w [.read slot] := Asks.inside (asks_pure rfl rfl) inner
    exact (read.cons (asks made)).dispatch span _
  · exact ((asks made).inside inner).dispatch span _

/-! ### Variables -/

/-- A value that is written to a variable or handed to a jump. -/
theorem asks_around {w w' w'' : Workspace} {code around : Code} {spans : List Span}
    (h : Asks places spans w w' [code]) (same : around.sites = code.sites)
    (after : w''.requests = w'.requests) : Asks places (span :: spans) w w'' [around] := by
  refine Asks.inside ((h.mono rfl after).congr ?_) span
  rw [Code.sitesOf_singleton, Code.sitesOf_singleton, same]

theorem asks_declare : AsksNode places (.declare span name none) := by
  intro w w' code h
  obtain ⟨rfl, rfl⟩ := h.declare
  refine Asks.inside (?_ : Asks places [] _ _ _) span
  exact asks_pure rfl rfl

theorem asks_initialized (asks : AsksNode places value) :
    AsksNode places (.declare span name (some value)) := by
  intro w w' code h
  obtain ⟨_, _, made, rfl, rfl⟩ := h.initialized
  exact asks_around (asks made) rfl rfl

theorem asks_assignName (asks : AsksNode places value) :
    AsksNode places (.assign span (.named inner name) value) := by
  intro w w' code h
  obtain ⟨_, _, made, ⟨_, -, rfl, rfl⟩ | ⟨-, rfl, rfl⟩⟩ := h.assignName
  · exact asks_around ((asks made).inside inner) rfl rfl
  · exact asks_around ((asks made).inside inner) rfl rfl

/-- What cannot be assigned to makes nothing. -/
theorem asks_assignOther (never : target.isAssignable = false) :
    AsksNode places (.assign span target value) := by
  intro w w' code h
  cases never.symm.trans h.isAssignable

/-! ### Functions -/

theorem asks_closure {w w' : Workspace} {spans : List Span} {template : Template Code}
    (h : Asks places spans w w' [template.body]) : Asks places spans w w' [.closure template] :=
  h.congr (by rw [Code.sitesOf_singleton, Code.sitesOf_singleton]; rfl)

theorem asks_function {params : List String} (asks : AsksNode places body) :
    AsksNode places (.function span name params body) := by
  intro w w' code h
  obtain ⟨_, _, made, rfl, rfl⟩ := h.function
  have module : Asks places [] w w [.thisModule] := asks_pure rfl rfl
  refine (Asks.dispatch (module.cons ?_) span _).mono rfl rfl
  exact asks_closure ((asks made).mono rfl rfl)

theorem asks_lambda {params : List String} (asks : AsksNode places body) :
    AsksNode places (.lambda span params body) := by
  intro w w' code h
  obtain ⟨_, _, _, _, labelled, made, rfl, rfl⟩ := h.lambda
  exact asks_around ((asks made).mono (requests_returnLabel labelled).symm rfl) rfl rfl

/-! ### Choices, loops and jumps -/

theorem asks_choose {branches : List (Node × Node)} (asks : AsksArms places branches) :
    AsksNode places (.choose span branches none) := by
  intro w w' code h
  obtain ⟨_, made, rfl⟩ := h.choose
  have all := ((asks made).append (asks_pure rfl rfl : Asks _ [] _ _ [.constant (.bool false)])).choose
  rw [List.append_nil] at all
  exact all.inside span

theorem asks_chooseElse {branches : List (Node × Node)} (asks : AsksArms places branches)
    (last : AsksNode places body) : AsksNode places (.choose span branches (some body)) := by
  intro w w' code h
  obtain ⟨_, _, _, made, next, rfl⟩ := h.chooseElse
  exact ((asks made).append (last next)).choose.inside span

theorem asks_loop (asks : AsksNode places body) : AsksNode places (.loop span body) := by
  intro w w' code h
  obtain ⟨_, _, made, rfl, rfl⟩ := h.loop
  exact asks_around ((asks made).mono rfl rfl) rfl rfl

theorem asks_leave : AsksNode places (.leave span none) := by
  intro w w' code h
  obtain ⟨_, -, rfl, rfl⟩ := h.leave
  exact Asks.inside (asks_pure rfl rfl) span

theorem asks_leaveWith (asks : AsksNode places value) :
    AsksNode places (.leave span (some value)) := by
  intro w w' code h
  obtain ⟨_, _, -, made, rfl⟩ := h.leaveWith
  exact asks_around (asks made) rfl rfl

theorem asks_give : AsksNode places (.give span none) := by
  intro w w' code h
  obtain ⟨_, -, labelled, rfl⟩ := h.give
  exact (asks_pure rfl (requests_returnLabel labelled)).inside span

theorem asks_giveBack (asks : AsksNode places value) :
    AsksNode places (.give span (some value)) := by
  intro w w' code h
  obtain ⟨_, _, _, -, labelled, made, rfl⟩ := h.giveBack
  exact asks_around ((asks made).mono (requests_returnLabel labelled).symm rfl) rfl rfl

/-- An import is no operation, but it may fail. -/
theorem asks_importFrom {path : List String} {renamed : Option String} :
    AsksNode places (.importFrom span path renamed) := by
  intro w w' code h
  obtain ⟨rfl, rfl⟩ := h.importFrom
  refine ⟨fun s => (or_iff_left ?_).symm, fun site mem => ?_⟩
  · rintro ⟨_, mem⟩
    rw [Code.sitesOf_singleton] at mem
    cases List.mem_singleton.1 mem
  · rw [Code.sitesOf_singleton] at mem
    obtain rfl := List.mem_singleton.1 mem
    exact ⟨span, List.mem_singleton_self span, rfl⟩

end

/-! ### Trees -/

variable (places : Places)

mutual

/-- **Compiling a node requests the signatures of its code.** -/
theorem asks_node : ∀ tree, AsksNode places tree
  | .literal _ literal => asks_literal literal
  | .named _ _ => asks_named
  | .member _ target _ _ => asks_operation rfl (asks_cons (asks_node target) asks_nil)
  | .index _ target place =>
    asks_operation rfl (asks_cons (asks_node target) (asks_cons (asks_node place) asks_nil))
  | .binary _ _ left right =>
    asks_operation rfl (asks_cons (asks_node left) (asks_cons (asks_node right) asks_nil))
  | .unary _ _ operand => asks_operation rfl (asks_cons (asks_node operand) asks_nil)
  | .assign _ target value => by
    have last := asks_node value
    have alone := asks_cons last asks_nil
    cases target with
    | named _ _ => exact asks_assignName last
    | member _ object _ _ => exact asks_operation rfl (asks_cons (asks_node object) alone)
    | index _ object place =>
      have after := asks_cons (asks_node place) alone
      exact asks_operation rfl (asks_cons (asks_node object) after)
    | _ => exact asks_assignOther rfl
  | .call _ callee args => by
    have first := asks_node callee
    have others := asks_nodes args
    cases callee with
    | member _ object _ _ => exact asks_operation rfl (asks_cons (asks_node object) others)
    | named _ _ => exact asks_callName others
    | _ => exact asks_operation rfl (asks_cons first others)
  | .create _ target args => asks_create (asks_cons (asks_node target) (asks_nodes args))
  | .declare _ _ none => asks_declare
  | .declare _ _ (some value) => asks_initialized (asks_node value)
  | .function _ _ _ body => asks_function (asks_node body)
  | .lambda _ _ body => asks_lambda (asks_node body)
  | .choose _ branches none => asks_choose (asks_arms branches)
  | .choose _ branches (some body) => asks_chooseElse (asks_arms branches) (asks_node body)
  | .loop _ body => asks_loop (asks_node body)
  | .leave _ none => asks_leave
  | .leave _ (some value) => asks_leaveWith (asks_node value)
  | .give _ none => asks_give
  | .give _ (some value) => asks_giveBack (asks_node value)
  | .importFrom _ _ _ => asks_importFrom
  | .block _ statements => asks_block (asks_nodes statements)
  | .plain _ expression => asks_plain (asks_node expression)
  | .empty _ => asks_empty

theorem asks_nodes : ∀ trees, AsksNodes places trees
  | [] => asks_nil
  | first :: rest => asks_cons (asks_node first) (asks_nodes rest)

theorem asks_arms : ∀ trees, AsksArms places trees
  | [] => asks_noArms
  | (test, body) :: rest => asks_arm (asks_node test) (asks_node body) (asks_arms rest)

end

end Compile

/-- **A program requests what it does**: the requests of a source that is a program are the signatures of
its code. -/
theorem mem_requests_compile {number : Nat} {source : List Char} {tree : Node} {program : Program}
    (h : (compile number source tree).1 = .ok program) (s : Signature) :
    s ∈ (compile number source tree).2 ↔ s ∈ program.code.signatures := by
  obtain ⟨w, made, -, requests⟩ := yields_compile h
  have asks := (Compile.asks_node _ tree made).requests s
  rw [Code.sitesOf_singleton] at asks
  rw [requests, List.mem_reverse, asks, Code.mem_signatures]
  exact or_iff_right List.not_mem_nil

/-- **A program may fail where its tree has constructs**: the sites of its code stand where these start. -/
theorem sites_compile {number : Nat} {source : List Char} {tree : Node} {program : Program}
    (h : (compile number source tree).1 = .ok program) :
    ∀ site ∈ program.code.sites, ∃ span ∈ tree.spans,
      site.1 = (LineIndex.ofSource source).position span.start := by
  obtain ⟨w, made, -, -⟩ := yields_compile h
  have asks := (Compile.asks_node _ tree made).stand
  rw [Code.sitesOf_singleton] at asks
  exact asks

end HostScript
