import HostScript.Proofs.Compile.Constructs
import HostScript.Proofs.Compile.Names

/-!
# Proofs/Compile/Mirror — code does with names what the tree does

`Mirrors` compares the uses in trees with the accesses of the codes that they are compiled to, between
two workspaces: imports are the same, and a name that the trees do not declare is resolved as the uses
say, if the scopes held it so before.  `mirrors_node` proves it of every node, by recursion over the tree
with one lemma for each construct.
-/

namespace HostScript

/-- A dynamic operation on nodes does nothing with a name itself. -/
theorem Node.uses_of_operation {tree : Node} {s : Signature} {trees : List Node}
    (h : tree.operation? = some (s, trees)) : tree.uses = usesOf trees ∧ s.accesses = [] := by
  cases tree with
  | assign _ target _ =>
    cases target with
    | member | index =>
      cases h
      exact ⟨by simp, rfl⟩
    | _ => cases h
  | call _ callee _ =>
    cases callee with
    | named => cases h
    | _ =>
      cases h
      exact ⟨by simp, rfl⟩
  | member | index | binary | unary =>
    cases h
    exact ⟨by simp, rfl⟩
  | _ => cases h

namespace Compile

open Node (usesOf usesOfArms)
open Code (accessesOf accessesOfArms)

/-- **Codes do with names what trees do.** -/
structure Mirrors (w w' : Workspace) (uses : List Use) (accesses : List Access) : Prop where
  imports : accesses.filterMap Access.path? = uses.filterMap Use.path?
  names (key : String) (v : Variable) (known : Bool) (depth : Nat) :
    (∀ use ∈ uses, use.declares key = false) → w.scopes.Holds key v known depth →
      accesses.filter (·.isAbout key) = resolve key v known uses ∧
        w'.scopes.Holds key v (known || uses.any (·.assigns key)) depth

namespace Mirrors

variable {w w' w'' : Workspace} {uses more : List Use} {accesses others : List Access}

/-- Nothing is done with names, and the scopes keep what they hold. -/
theorem nil (h : ∀ key v known depth, w.scopes.Holds key v known depth →
    w'.scopes.Holds key v known depth) : Mirrors w w' [] [] :=
  ⟨rfl, fun key v known depth _ holds => ⟨rfl, (Bool.or_false known).symm ▸ h key v known depth holds⟩⟩

theorem refl (w : Workspace) : Mirrors w w [] [] := nil fun _ _ _ _ holds => holds

/-- What is done one after the other. -/
theorem append (h : Mirrors w w' uses accesses) (k : Mirrors w' w'' more others) :
    Mirrors w w'' (uses ++ more) (accesses ++ others) := by
  refine ⟨?_, fun key v known depth free holds => ?_⟩
  · rw [List.filterMap_append, List.filterMap_append, h.imports, k.imports]
  · obtain ⟨same, after⟩ := h.names key v known depth
      (fun use mem => free use (List.mem_append_left _ mem)) holds
    obtain ⟨rest, last⟩ := k.names key v _ depth
      (fun use mem => free use (List.mem_append_right _ mem)) after
    rw [List.filter_append, same, rest, resolve_append, List.any_append, ← Bool.or_assoc]
    exact ⟨rfl, last⟩

/-- The scopes do not matter beyond what they hold, and requests do not matter at all. -/
theorem after (h : Mirrors w w' uses accesses) (same : w''.scopes = w'.scopes) :
    Mirrors w w'' uses accesses :=
  ⟨h.imports, fun key v known depth free holds => same ▸ h.names key v known depth free holds⟩

theorem before (h : Mirrors w' w'' uses accesses) (same : w'.scopes = w.scopes) :
    Mirrors w w'' uses accesses :=
  ⟨h.imports, fun key v known depth free holds => h.names key v known depth free (same ▸ holds)⟩

/-- One use that becomes one access, or none that counts. -/
theorem single {use : Use} (imports : accesses.filterMap Access.path? = [use].filterMap Use.path?)
    (names : ∀ key v known depth, use.declares key = false → w.scopes.Holds key v known depth →
      accesses.filter (·.isAbout key) = use.resolve key v known ∧
        w'.scopes.Holds key v (known || use.assigns key) depth) : Mirrors w w' [use] accesses := by
  refine ⟨imports, fun key v known depth free holds => ?_⟩
  rw [resolve_singleton, List.any_cons, List.any_nil, Bool.or_false]
  exact names key v known depth (free use List.mem_cons_self) holds

/-- A dynamic operation that does nothing with a name itself. -/
theorem operation {codes : List Code} (h : Mirrors w w' uses (accessesOf codes)) {s : Signature}
    (none : s.accesses = []) (position : Position) (requests : List Signature) :
    Mirrors w { w' with requests := requests } uses (Code.accesses (.dispatch position s codes)) := by
  rw [Code.accesses, none]
  exact h.after rfl

theorem inOrder {codes : List Code} (h : Mirrors w w' uses (accessesOf codes)) :
    Mirrors w w' uses (Code.accesses (inOrder codes)) := by
  cases codes with
  | nil => exact h
  | cons code rest =>
    cases rest with
    | nil =>
      rw [accessesOf, accessesOf, List.append_nil] at h
      exact h
    | cons _ _ => exact h

/-- **What is done inside a scope** of a function, lambda or loop that declares these names itself. -/
theorem inside (h : Mirrors w' w'' uses accesses) {s : Scope} {names : List String}
    (opens : w'.scopes = s :: w.scopes)
    (declares : ∀ key, key ∉ names.map Text.fold → ∀ index, ¬s.Declares key index) :
    Mirrors w { w'' with scopes := w''.scopes.drop 1 } (names.map .declare ++ uses) accesses := by
  refine ⟨?_, fun key v known depth free holds => ?_⟩
  · have none : (names.map Use.declare).filterMap Use.path? = [] := by
      rw [List.filterMap_eq_nil_iff]
      intro use mem
      obtain ⟨name, -, rfl⟩ := List.mem_map.1 mem
      rfl
    rw [List.filterMap_append, none, List.nil_append, h.imports]
  · have undeclared : key ∉ names.map Text.fold := by
      intro mem
      obtain ⟨name, among, same⟩ := List.mem_map.1 mem
      have never := free (.declare name) (List.mem_append_left _ (List.mem_map_of_mem among))
      exact absurd (decide_eq_true same) (Bool.eq_false_iff.1 never)
    have opened : w'.scopes.Holds key v known (depth + 1) := by
      rw [opens]
      exact .inside (declares key undeclared) holds
    obtain ⟨same, last⟩ := h.names key v known (depth + 1)
      (fun use mem => free use (List.mem_append_right _ mem)) opened
    have none : (names.map Use.declare).any (·.assigns key) = false := by
      rw [List.any_eq_false]
      intro use mem
      obtain ⟨name, -, rfl⟩ := List.mem_map.1 mem
      exact Bool.false_ne_true
    rw [resolve_append, resolve_declares, List.any_append, none, Bool.false_or, Bool.or_false]
    exact ⟨same, last.pop⟩

end Mirrors

/-! ## Names -/

section

variable {w w' : Workspace} {name : String} {slot : SlotRef}

/-- **A name that is found** is the variable that the scopes hold. -/
theorem mirrors_found {use : Use} (reads : use = .read name ∨ use = .call name)
    (found : w.scopes.find? name = some slot) : Mirrors w w [use] [.slot slot.meant] := by
  have imports : [Access.slot slot.meant].filterMap Access.path? = [use].filterMap Use.path? := by
    obtain rfl | rfl := reads <;> rfl
  refine .single imports fun key v known depth _ holds => ?_
  have plain : use.assigns key = false := by obtain rfl | rfl := reads <;> rfl
  rw [plain, Bool.or_false]
  refine ⟨?_, holds⟩
  by_cases here : Text.fold name = key
  · cases known with
    | true =>
      obtain ⟨other, there, meant⟩ := holds.find? here
      obtain rfl := Option.some.inj (found.symm.trans there)
      obtain rfl | rfl := reads <;> simp [here, meant, holds.name_eq]
    | false =>
      cases found.symm.trans (holds.find?_eq_none here)
  · obtain rfl | rfl := reads <;> simp [here, Scopes.name_of_find? found]

/-- **A name that is not found** is looked up when the code runs. -/
theorem mirrors_missing {use : Use} {access : Access}
    (reads : use = .read name ∧ access = .lookup name ∨ use = .call name ∧ access = .call name)
    (missing : w.scopes.find? name = none) : Mirrors w w [use] [access] := by
  have imports : [access].filterMap Access.path? = [use].filterMap Use.path? := by
    obtain ⟨rfl, rfl⟩ | ⟨rfl, rfl⟩ := reads <;> rfl
  refine .single imports fun key v known depth _ holds => ?_
  have plain : use.assigns key = false := by obtain ⟨rfl, -⟩ | ⟨rfl, -⟩ := reads <;> rfl
  rw [plain, Bool.or_false]
  refine ⟨?_, holds⟩
  by_cases here : Text.fold name = key
  · cases known with
    | true =>
      obtain ⟨other, there, -⟩ := holds.find? here
      cases missing.symm.trans there
    | false => obtain ⟨rfl, rfl⟩ | ⟨rfl, rfl⟩ := reads <;> simp [here]
  · obtain ⟨rfl, rfl⟩ | ⟨rfl, rfl⟩ := reads <;> simp [here]

/-- Assigning a name that is found. -/
theorem mirrors_assigned (found : w.scopes.find? name = some slot) :
    Mirrors w w [.assign name] [.write slot.meant] := by
  refine .single rfl fun key v known depth _ holds => ?_
  by_cases here : Text.fold name = key
  · cases known with
    | true =>
      obtain ⟨other, there, meant⟩ := holds.find? here
      obtain rfl := Option.some.inj (found.symm.trans there)
      simp [here, meant, holds.name_eq, holds]
    | false =>
      cases found.symm.trans (holds.find?_eq_none here)
  · simp [here, Scopes.name_of_find? found, holds]

/-- **Assigning a name that is not found** declares it in the module. -/
theorem mirrors_assigns :
    Mirrors w { w with scopes := (w.scopes.declareGlobal name).2 } [.assign name]
      [.write (w.scopes.declareGlobal name).1.meant] := by
  refine .single rfl fun key v known depth _ holds => ?_
  by_cases here : Text.fold name = key
  · obtain ⟨kept, meant⟩ := holds.assign here
    simp [here, meant, holds.name_eq, kept]
  · have named : (w.scopes.declareGlobal name).1.meant.name = Text.fold name := by
      have inside : w.scopes ≠ [] := by
        obtain ⟨s, outer, is_cons⟩ := holds.ne_nil
        exact is_cons ▸ List.cons_ne_nil s outer
      rw [← List.dropLast_append_getLast inside, Scopes.meant_declareGlobal]
      rfl
    simp [here, named, holds.declareGlobal here]

/-- Declaring a variable and giving it a value. -/
theorem mirrors_initialized :
    Mirrors w { w with scopes := (w.scopes.declareLocal name).2 } [.declare name]
      [.write (w.scopes.declareLocal name).1.meant] := by
  refine .single rfl fun key v known depth free holds => ?_
  have other : Text.fold name ≠ key := of_decide_eq_false free
  have named : (w.scopes.declareLocal name).1.meant.name = Text.fold name := by
    obtain ⟨s, outer, is_cons⟩ := holds.ne_nil
    rw [is_cons, Scopes.meant_declareLocal]
    rfl
  simp [other, named, holds.declareLocal other]

theorem mirrors_declared (w : Workspace) (name : String) :
    Mirrors w { w with scopes := (w.scopes.declareLocal name).2 } [.declare name] [] := by
  refine .single rfl fun key v known depth free holds => ?_
  have other : Text.fold name ≠ key := of_decide_eq_false free
  simp [holds.declareLocal other]

/-- Giving the innermost function a label. -/
theorem mirrors_returnLabel {label : Label} (h : Yields returnLabel w label w') : Mirrors w w' [] [] := by
  rcases h.returnLabel with ⟨-, rfl⟩ | ⟨-, rfl, rfl⟩
  · exact .refl _
  · exact .nil fun _ _ _ _ holds => holds.setReturnLabel _

end

/-! ## Nodes -/

/-- The code of a node does with names what the node does. -/
def MirrorsNode (places : Places) (tree : Node) : Prop :=
  ∀ ⦃w w' : Workspace⦄ ⦃code : Code⦄, Yields (node places tree) w code w' →
    Mirrors w w' tree.uses code.accesses

/-- The codes of nodes do with names what the nodes do. -/
def MirrorsNodes (places : Places) (trees : List Node) : Prop :=
  ∀ ⦃w w' : Workspace⦄ ⦃codes : List Code⦄, Yields (nodes places trees) w codes w' →
    Mirrors w w' (usesOf trees) (accessesOf codes)

/-- The codes of tests and bodies do with names what the tests and bodies do. -/
def MirrorsArms (places : Places) (trees : List (Node × Node)) : Prop :=
  ∀ ⦃w w' : Workspace⦄ ⦃branches : List (Code × Code)⦄, Yields (arms places trees) w branches w' →
    Mirrors w w' (usesOfArms trees) (accessesOfArms branches)

section

variable {places : Places} {span inner : Span} {name : String} {target value body : Node}
  {trees args : List Node} {params : List String} {branches : List (Node × Node)}
  {w w' : Workspace} {code : Code}

/-! ### Lists of nodes -/

theorem mirrors_nil : MirrorsNodes places [] := by
  intro w w' codes h
  obtain ⟨rfl, rfl⟩ := h.nil
  exact .refl _

theorem mirrors_cons (one : MirrorsNode places value) (rest : MirrorsNodes places trees) :
    MirrorsNodes places (value :: trees) := by
  intro w w' codes h
  obtain ⟨_, _, _, made, next, rfl⟩ := h.cons
  rw [usesOf, accessesOf]
  exact (one made).append (rest next)

theorem mirrors_noArms : MirrorsArms places [] := by
  intro w w' branches h
  obtain ⟨rfl, rfl⟩ := h.noArms
  exact .refl _

theorem mirrors_arm (first : MirrorsNode places value) (second : MirrorsNode places body)
    (rest : MirrorsArms places branches) : MirrorsArms places ((value, body) :: branches) := by
  intro w w' codes h
  obtain ⟨_, _, _, _, _, made, next, last, rfl⟩ := h.arm
  rw [usesOfArms, accessesOfArms]
  exact (first made).append ((second next).append (rest last))

/-! ### Simple nodes and operations -/

theorem mirrors_literal (literal : Literal) : MirrorsNode places (.literal span literal) := by
  intro w w' code h
  obtain ⟨rfl, rfl⟩ := h.literal
  exact .refl _

theorem mirrors_empty : MirrorsNode places (.empty span) := by
  intro w w' code h
  obtain ⟨rfl, rfl⟩ := h.empty
  exact .refl _

theorem mirrors_plain (one : MirrorsNode places value) : MirrorsNode places (.plain span value) := by
  intro w w' code h
  rw [Node.uses]
  exact one h.plain

theorem mirrors_block (all : MirrorsNodes places trees) : MirrorsNode places (.block span trees) := by
  intro w w' code h
  obtain ⟨_, made, rfl⟩ := h.block
  rw [Node.uses]
  exact (all made).inOrder

theorem mirrors_named : MirrorsNode places (.named span name) := by
  intro w w' code h
  obtain ⟨slot, known, rfl, rfl⟩ | ⟨missing, rfl, rfl⟩ := h.named
  · exact mirrors_found (.inl rfl) known
  · exact (mirrors_missing (.inl ⟨rfl, rfl⟩) missing).after rfl

/-- A dynamic operation does with names what its operands do. -/
theorem mirrors_operation {tree : Node} {s : Signature}
    (is_operation : tree.operation? = some (s, trees)) (all : MirrorsNodes places trees) :
    MirrorsNode places tree := by
  intro w w' code h
  obtain ⟨codes, between, made, rfl, rfl⟩ := h.operates is_operation
  obtain ⟨same, none⟩ := Node.uses_of_operation is_operation
  rw [same]
  exact (all made).operation none _ _

theorem mirrors_create (all : MirrorsNodes places (target :: args)) :
    MirrorsNode places (.create span target args) := by
  intro w w' code h
  obtain ⟨_, made, rfl⟩ := h.create
  rw [Node.uses]
  exact (all made).before rfl

theorem mirrors_callName (all : MirrorsNodes places args) :
    MirrorsNode places (.call span (.named inner name) args) := by
  intro w w' code h
  rw [Node.uses]
  obtain ⟨codes, between, made, ⟨slot, known, rfl, rfl⟩ | ⟨missing, rfl, rfl⟩⟩ := h.callName
  · have read := mirrors_found (.inr rfl) known
    exact (read.append (all made)).after rfl
  · have call := mirrors_missing (.inr ⟨rfl, rfl⟩) missing
    exact (call.append (all made)).after rfl

/-! ### Variables -/

theorem mirrors_declare : MirrorsNode places (.declare span name none) := by
  intro w w' code h
  obtain ⟨rfl, rfl⟩ := h.declare
  rw [Node.uses]
  exact mirrors_declared _ name

theorem mirrors_variable (one : MirrorsNode places value) :
    MirrorsNode places (.declare span name (some value)) := by
  intro w w' code h
  obtain ⟨_, _, made, rfl, rfl⟩ := h.initialized
  rw [Node.uses, Code.accesses]
  exact (one made).append mirrors_initialized

theorem mirrors_assignName (last : MirrorsNode places value) :
    MirrorsNode places (.assign span (.named inner name) value) := by
  intro w w' code h
  rw [Node.uses]
  obtain ⟨_, _, made, ⟨slot, known, rfl, rfl⟩ | ⟨-, rfl, rfl⟩⟩ := h.assignName
  · rw [Code.accesses]
    exact (last made).append (mirrors_assigned known)
  · rw [Code.accesses]
    exact (last made).append mirrors_assigns

/-- What cannot be assigned to has no code. -/
theorem mirrors_assignOther (never : target.isAssignable = false) :
    MirrorsNode places (.assign span target value) := by
  intro w w' code h
  cases never.symm.trans h.isAssignable

/-! ### Functions and loops -/

/-- A parameter's name is the only one that the scope of a function declares. -/
theorem declares_function (owner : Owner) (params : List String) (key : String)
    (other : key ∉ params.map Text.fold) (index : Nat) :
    ¬(Scope.function owner params).Declares key index := by
  rintro (param | never)
  · exact other (List.mem_of_getElem? (Scopes.getElem?_of_lookup_paramSlots param))
  · cases never

theorem mirrors_function (one : MirrorsNode places body) :
    MirrorsNode places (.function span name params body) := by
  intro w w' code h
  obtain ⟨_, _, made, rfl, rfl⟩ := h.function
  have within : Mirrors w _ _ _ := (one made).inside rfl (declares_function _ params)
  rw [Node.uses, Code.accesses, accessesOf, accessesOf, accessesOf, List.append_nil]
  exact within.after rfl

theorem mirrors_lambda (one : MirrorsNode places body) :
    MirrorsNode places (.lambda span params body) := by
  intro w w' code h
  obtain ⟨_, _, _, _, labelled, made, rfl, rfl⟩ := h.lambda
  rw [Node.uses, Code.accesses]
  exact ((mirrors_returnLabel labelled).append (one made)).inside rfl (declares_function _ params)

theorem mirrors_loop (one : MirrorsNode places body) : MirrorsNode places (.loop span body) := by
  intro w w' code h
  obtain ⟨_, _, made, rfl, rfl⟩ := h.loop
  rw [Node.uses, Code.accesses]
  refine @Mirrors.inside w _ _ _ _ (one made) _ [] rfl fun key _ index declares => ?_
  rcases declares with never | never
  · cases never
  · cases never

/-! ### Choices and jumps -/

theorem mirrors_choose (all : MirrorsArms places branches) :
    MirrorsNode places (.choose span branches none) := by
  intro w w' code h
  obtain ⟨_, made, rfl⟩ := h.choose
  rw [Node.uses, Code.accesses, Code.accesses, List.append_nil]
  exact all made

theorem mirrors_chooseElse (all : MirrorsArms places branches) (last : MirrorsNode places body) :
    MirrorsNode places (.choose span branches (some body)) := by
  intro w w' code h
  obtain ⟨_, _, _, made, next, rfl⟩ := h.chooseElse
  rw [Node.uses, Code.accesses]
  exact (all made).append (last next)

theorem mirrors_leave : MirrorsNode places (.leave span none) := by
  intro w w' code h
  obtain ⟨_, -, rfl, rfl⟩ := h.leave
  exact .refl _

theorem mirrors_leaveWith (one : MirrorsNode places value) :
    MirrorsNode places (.leave span (some value)) := by
  intro w w' code h
  obtain ⟨_, _, -, made, rfl⟩ := h.leaveWith
  rw [Node.uses, Code.accesses]
  exact one made

theorem mirrors_give : MirrorsNode places (.give span none) := by
  intro w w' code h
  obtain ⟨_, -, labelled, rfl⟩ := h.give
  exact mirrors_returnLabel labelled

theorem mirrors_giveBack (one : MirrorsNode places value) :
    MirrorsNode places (.give span (some value)) := by
  intro w w' code h
  obtain ⟨_, _, _, -, labelled, made, rfl⟩ := h.giveBack
  rw [Node.uses, Code.accesses]
  exact (mirrors_returnLabel labelled).append (one made)

theorem mirrors_importFrom {path : List String} {renamed : Option String} :
    MirrorsNode places (.importFrom span path renamed) := by
  intro w w' code h
  obtain ⟨rfl, rfl⟩ := h.importFrom
  refine .single rfl fun key v known depth _ holds => ⟨rfl, ?_⟩
  exact (Bool.or_false known).symm ▸ holds

end

/-! ### Trees -/

variable (places : Places)

mutual

/-- **The code of a node does with names what the node does.** -/
theorem mirrors_node : ∀ tree, MirrorsNode places tree
  | .literal _ literal => mirrors_literal literal
  | .named _ _ => mirrors_named
  | .member _ target _ _ => mirrors_operation rfl (mirrors_cons (mirrors_node target) mirrors_nil)
  | .index _ target place =>
    have last := mirrors_cons (mirrors_node place) mirrors_nil
    mirrors_operation rfl (mirrors_cons (mirrors_node target) last)
  | .binary _ _ left right =>
    have last := mirrors_cons (mirrors_node right) mirrors_nil
    mirrors_operation rfl (mirrors_cons (mirrors_node left) last)
  | .unary _ _ operand => mirrors_operation rfl (mirrors_cons (mirrors_node operand) mirrors_nil)
  | .assign _ target value => by
    have last := mirrors_node value
    have alone := mirrors_cons last mirrors_nil
    cases target with
    | named _ _ => exact mirrors_assignName last
    | member _ object _ _ => exact mirrors_operation rfl (mirrors_cons (mirrors_node object) alone)
    | index _ object place =>
      have after := mirrors_cons (mirrors_node place) alone
      exact mirrors_operation rfl (mirrors_cons (mirrors_node object) after)
    | _ => exact mirrors_assignOther rfl
  | .call _ callee args => by
    have first := mirrors_node callee
    have others := mirrors_nodes args
    cases callee with
    | member _ object _ _ => exact mirrors_operation rfl (mirrors_cons (mirrors_node object) others)
    | named _ _ => exact mirrors_callName others
    | _ => exact mirrors_operation rfl (mirrors_cons first others)
  | .create _ target args => mirrors_create (mirrors_cons (mirrors_node target) (mirrors_nodes args))
  | .declare _ _ none => mirrors_declare
  | .declare _ _ (some value) => mirrors_variable (mirrors_node value)
  | .function _ _ _ body => mirrors_function (mirrors_node body)
  | .lambda _ _ body => mirrors_lambda (mirrors_node body)
  | .choose _ branches none => mirrors_choose (mirrors_arms branches)
  | .choose _ branches (some body) => mirrors_chooseElse (mirrors_arms branches) (mirrors_node body)
  | .loop _ body => mirrors_loop (mirrors_node body)
  | .leave _ none => mirrors_leave
  | .leave _ (some value) => mirrors_leaveWith (mirrors_node value)
  | .give _ none => mirrors_give
  | .give _ (some value) => mirrors_giveBack (mirrors_node value)
  | .importFrom _ _ _ => mirrors_importFrom
  | .block _ statements => mirrors_block (mirrors_nodes statements)
  | .plain _ expression => mirrors_plain (mirrors_node expression)
  | .empty _ => mirrors_empty

theorem mirrors_nodes : ∀ trees, MirrorsNodes places trees
  | [] => mirrors_nil
  | first :: rest => mirrors_cons (mirrors_node first) (mirrors_nodes rest)

theorem mirrors_arms : ∀ branches, MirrorsArms places branches
  | [] => mirrors_noArms
  | (test, body) :: rest =>
    mirrors_arm (mirrors_node test) (mirrors_node body) (mirrors_arms rest)

end

end Compile

/-! ## Programs -/

/-- The names of a program: its imports are those of the tree, and a name that the tree does not declare
becomes what `resolve` says, a variable of the module that is kept in one slot at most. -/
theorem mirrors_compile {number : Nat} {source : List Char} {tree : Node} {program : Program}
    (h : (compile number source tree).1 = .ok program) :
    program.code.accesses.filterMap Access.path? = tree.uses.filterMap Use.path? ∧
      ∀ key : String, (∀ use ∈ tree.uses, use.declares key = false) →
        program.code.accesses.filter (·.isAbout key) =
            resolve key ⟨⟨number, 0⟩, none, key⟩ false tree.uses ∧
          Once ⟨⟨number, 0⟩, none, key⟩ program.layout.slots := by
  obtain ⟨⟨_, _, _, scopes⟩, made, layout, -⟩ := yields_compile h
  have mirrors := Compile.mirrors_node _ tree made
  refine ⟨mirrors.imports, fun key free => ?_⟩
  obtain ⟨same, holds⟩ := mirrors.names key _ false 0 free (Scopes.holds_module ⟨number, 0⟩ key)
  refine ⟨same, layout ▸ ?_⟩
  cases holds with
  | module _ _ _ _ _ once => exact once

end HostScript
