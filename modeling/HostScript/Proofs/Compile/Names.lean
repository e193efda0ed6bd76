import HostScript.Proofs.Compile.Scopes
import HostScript.Proofs.Compile.Steps

/-!
# Proofs/Compile/Names — what becomes of the names of a tree

A tree reads, calls and assigns names, and compiled code reads slots, writes them and looks names up.
`Node.uses` and `Code.accesses` list these in the order of compilation.  Which access a use of a name
becomes is settled when it is compiled, by what has been compiled before: a name that the tree does not
declare is looked up when the code runs until an assignment to it has been compiled, and is a variable of
the module from there on.  `resolve` says this of lists, and `mirrors_node` of every tree.
-/

namespace HostScript

/-! ## Uses of names -/

/-- What a tree does with a name. -/
inductive Use where
  | read (name : String)
  /-- Reading a name to call what it stands for. -/
  | call (name : String)
  | assign (name : String)
  /-- Declaring a variable or a parameter. -/
  | declare (name : String)
  | importFrom (path : List String)
  deriving DecidableEq, Repr

mutual

/-- What a node does with names, in the order in which it is compiled: a name is assigned and a variable
declared after the value is there. -/
@[simp] def Node.uses : Node → List Use
  | .literal _ _ => []
  | .named _ name => [.read name]
  | .member _ target _ _ => Node.uses target
  | .index _ target place => Node.uses target ++ Node.uses place
  | .binary _ _ left right => Node.uses left ++ Node.uses right
  | .unary _ _ operand => Node.uses operand
  | .assign _ (.named _ name) value => Node.uses value ++ [.assign name]
  | .assign _ target value => Node.uses target ++ Node.uses value
  | .call _ (.named _ name) args => .call name :: Node.usesOf args
  | .call _ callee args => Node.uses callee ++ Node.usesOf args
  | .create _ target args => Node.uses target ++ Node.usesOf args
  | .declare _ name none => [.declare name]
  | .declare _ name (some value) => Node.uses value ++ [.declare name]
  | .function _ _ params body => params.map .declare ++ Node.uses body
  | .lambda _ params body => params.map .declare ++ Node.uses body
  | .choose _ branches none => Node.usesOfArms branches
  | .choose _ branches (some otherwise) => Node.usesOfArms branches ++ Node.uses otherwise
  | .loop _ body => Node.uses body
  | .leave _ none => []
  | .leave _ (some value) => Node.uses value
  | .give _ none => []
  | .give _ (some value) => Node.uses value
  | .importFrom _ path _ => [.importFrom path]
  | .block _ statements => Node.usesOf statements
  | .plain _ expression => Node.uses expression
  | .empty _ => []

/-- What nodes do with names, in order. -/
@[simp] def Node.usesOf : List Node → List Use
  | [] => []
  | first :: rest => Node.uses first ++ Node.usesOf rest

/-- What tests and bodies do with names, in order. -/
@[simp] def Node.usesOfArms : List (Node × Node) → List Use
  | [] => []
  | (test, body) :: rest => Node.uses test ++ (Node.uses body ++ Node.usesOfArms rest)

end

namespace Use

/-- Whether a folded name is assigned. -/
@[simp] def assigns (key : String) : Use → Bool
  | .assign name => Text.fold name = key
  | _ => false

/-- Whether a folded name is declared. -/
@[simp] def declares (key : String) : Use → Bool
  | .declare name => Text.fold name = key
  | _ => false

/-- The path of an import. -/
def path? : Use → Option (List String)
  | .importFrom path => some path
  | _ => none

end Use

/-! ## Accesses of code -/

/-- What code does with a variable or a name. -/
inductive Access where
  | slot (v : Variable)
  | write (v : Variable)
  /-- Looking for a name in the module and among the globals. -/
  | lookup (name : String)
  /-- Looking for a name in order to call what it stands for. -/
  | call (name : String)
  | importFrom (path : List String)
  deriving DecidableEq, Repr

/-- What a dynamic operation does with a name itself. -/
def Signature.accesses (s : Signature) : List Access :=
  match s.operation with
  | .lookup => [.lookup s.name]
  | .call => [.call s.name]
  | _ => []

mutual

/-- What a code does with variables and names, in the order in which it has been compiled. -/
@[simp] def Code.accesses : Code → List Access
  | .null => []
  | .constant _ => []
  | .thisModule => []
  | .read slot => [.slot slot.meant]
  | .write slot value => Code.accesses value ++ [.write slot.meant]
  | .dispatch _ signature operands => signature.accesses ++ Code.accessesOf operands
  | .closure template => Code.accesses template.body
  | .choose branches otherwise => Code.accessesOfArms branches ++ Code.accesses otherwise
  | .loop _ body => Code.accesses body
  | .leave _ value => Code.accesses value
  | .give _ value => Code.accesses value
  | .sequence codes => Code.accessesOf codes
  | .importAs _ path _ => [.importFrom path]

/-- What codes do with variables and names, in order. -/
@[simp] def Code.accessesOf : List Code → List Access
  | [] => []
  | code :: rest => Code.accesses code ++ Code.accessesOf rest

/-- What tests and bodies do with variables and names, in order. -/
@[simp] def Code.accessesOfArms : List (Code × Code) → List Access
  | [] => []
  | (test, body) :: rest => Code.accesses test ++ (Code.accesses body ++ Code.accessesOfArms rest)

end

namespace Access

/-- Whether an access is one of a folded name or of a variable of that name. -/
@[simp] def isAbout (key : String) : Access → Bool
  | .slot v => v.name = key
  | .write v => v.name = key
  | .lookup name => Text.fold name = key
  | .call name => Text.fold name = key
  | .importFrom _ => false

/-- The path of an import. -/
def path? : Access → Option (List String)
  | .importFrom path => some path
  | _ => none

end Access

/-- The accesses of a folded name that a use becomes, if the name is known to be a variable or is not. -/
@[simp] def Use.resolve (key : String) (v : Variable) (known : Bool) : Use → List Access
  | .read name => if Text.fold name = key then [if known then .slot v else .lookup name] else []
  | .call name => if Text.fold name = key then [if known then .slot v else .call name] else []
  | .assign name => if Text.fold name = key then [.write v] else []
  | .declare _ => []
  | .importFrom _ => []

/-- **The accesses of a folded name that uses become**: from the first assignment on the name is known to
be a variable. -/
def resolve (key : String) (v : Variable) : Bool → List Use → List Access
  | _, [] => []
  | known, use :: rest => use.resolve key v known ++ resolve key v (known || use.assigns key) rest

section

variable {key : String} {v : Variable} {known : Bool}

theorem resolve_append (first rest : List Use) :
    resolve key v known (first ++ rest) = resolve key v known first ++
      resolve key v (known || first.any (·.assigns key)) rest := by
  induction first generalizing known with
  | nil => rw [List.any_nil, Bool.or_false]; rfl
  | cons use first ih =>
    rw [List.cons_append, resolve, ih, resolve, List.any_cons, List.append_assoc, Bool.or_assoc]

theorem resolve_singleton (use : Use) : resolve key v known [use] = use.resolve key v known :=
  List.append_nil _

/-- Declarations become no accesses of a name. -/
theorem resolve_declares (names : List String) :
    resolve key v known (names.map .declare) = [] := by
  induction names generalizing known with
  | nil => rfl
  | cons name names ih => exact (List.nil_append _).trans ih

end

/-! ## Scopes that know a name -/

/-- A variable is kept in one slot at most. -/
def Once (v : Variable) (slots : List Variable) : Prop :=
  ∀ i j : Nat, slots[i]? = some v → slots[j]? = some v → i = j

theorem once_append {v u : Variable} {slots : List Variable} (h : Once v slots)
    (fresh : u = v → v ∉ slots) : Once v (slots ++ [u]) := by
  intro i j first second
  rw [List.getElem?_append] at first second
  have last {k : Nat} (outside : ¬k < slots.length) (found : [u][k - slots.length]? = some v) :
      k = slots.length ∧ u = v := by
    obtain ⟨inside, same⟩ := List.getElem?_eq_some_iff.1 found
    have zero : k - slots.length = 0 := Nat.lt_one_iff.1 inside
    refine ⟨by omega, ?_⟩
    simpa [zero] using same
  split at first
  next =>
    split at second
    next => exact h i j first second
    next outside =>
      obtain ⟨-, same⟩ := last outside second
      exact absurd (List.mem_of_getElem? first) (fresh same)
  next outside =>
    obtain ⟨here, same⟩ := last outside first
    split at second
    next => exact absurd (List.mem_of_getElem? second) (fresh same)
    next beyond => exact here.trans (last beyond second).1.symm

/-- **Scopes that know an undeclared name** as a variable of the module or not at all: the module declares
it in the one case, and no scope inside does in either. -/
inductive Scopes.Holds (key : String) (v : Variable) (known : Bool) : Nat → Scopes → Prop where
  | module {m : Scope} : m.kind = .module → m.variableOf key = v → m.params = [] →
    (m.locals.lookup key).isSome = known → (known = false → v ∉ m.slots) → Once v m.slots →
      Holds key v known 0 [m]
  | inside {s : Scope} {outer : Scopes} {depth : Nat} : (∀ index, ¬s.Declares key index) →
    Holds key v known depth outer → Holds key v known (depth + 1) (s :: outer)

namespace Scopes

variable {key name : String} {u v : Variable} {known : Bool} {depth : Nat} {scopes outer : Scopes}
  {s : Scope}

theorem holds_module (owner : Owner) (key : String) :
    Holds key ⟨owner, none, key⟩ false 0 [.module owner] :=
  .module rfl rfl rfl rfl (fun _ => List.not_mem_nil) fun _ _ never _ =>
    absurd never.symm (Option.some_ne_none _)

/-- A variable that is found has the name that was looked for. -/
theorem name_of_find? {slot : SlotRef} (h : find? scopes name = some slot) :
    slot.meant.name = Text.fold name := by
  obtain ⟨_, _, _, _, _, _, meant, _⟩ := resolves_of_findKey? h
  rw [meant]
  rfl

namespace Holds

theorem name_eq (h : Holds key v known depth scopes) : v.name = key := by
  induction h with
  | module _ same _ _ _ _ =>
    rw [← same]
    rfl
  | inside _ _ ih => exact ih

theorem ne_nil (h : Holds key v known depth scopes) : ∃ s outer, scopes = s :: outer := by
  cases h with
  | module => exact ⟨_, _, rfl⟩
  | inside => exact ⟨_, _, rfl⟩

/-- **A name that is known is found as the module's variable.** -/
theorem findKey? (h : Holds key v true depth scopes) :
    ∃ slot, findKey? key scopes = some slot ∧ slot.meant = v := by
  induction h with
  | @module m _ same params declared _ _ =>
    obtain ⟨index, found⟩ := Option.isSome_iff_exists.1 declared
    have here : m.slot? key = some index := by
      unfold Scope.slot?
      rw [params, found]
      rfl
    refine ⟨⟨m.variableOf key, 0, index⟩, ?_, same⟩
    unfold Scopes.findKey?
    rw [here]
  | @inside s outer _ undeclared _ ih =>
    obtain ⟨slot, found, meant⟩ := ih
    have here : s.slot? key = none := by
      rw [Option.eq_none_iff_forall_ne_some]
      exact fun index slot => undeclared index (Scope.declares_of_slot? slot)
    refine ⟨enter s slot, ?_, ?_⟩
    · unfold Scopes.findKey?
      rw [here, found]
      rfl
    · unfold enter
      split
      · exact meant
      · exact meant

/-- A name that is not known is not found. -/
theorem findKey?_eq_none (h : Holds key v false depth scopes) : Scopes.findKey? key scopes = none := by
  induction h with
  | @module m _ _ params declared _ _ =>
    have here : m.slot? key = none := by
      unfold Scope.slot?
      rw [params, Option.isSome_eq_false_iff.1 declared |> Option.isNone_iff_eq_none.1]
      rfl
    unfold Scopes.findKey?
    rw [here]
    rfl
  | @inside s outer _ undeclared _ ih =>
    have here : s.slot? key = none := by
      rw [Option.eq_none_iff_forall_ne_some]
      exact fun index slot => undeclared index (Scope.declares_of_slot? slot)
    unfold Scopes.findKey?
    rw [here, ih]
    rfl

theorem find? (h : Holds key v true depth scopes) (here : Text.fold name = key) :
    ∃ slot, scopes.find? name = some slot ∧ slot.meant = v := by
  unfold Scopes.find?
  rw [here]
  exact h.findKey?

theorem find?_eq_none (h : Holds key v false depth scopes) (here : Text.fold name = key) :
    scopes.find? name = none := by
  unfold Scopes.find?
  rw [here]
  exact h.findKey?_eq_none

/-- A slot for another variable changes nothing for the name. -/
theorem allocate (h : Holds key v known depth scopes) (other : u ≠ v) :
    Holds key v known depth (allocate u scopes).2 := by
  induction h with
  | @module m kind same params declared fresh once =>
    have owns : m.ownsFrame = true := by rw [Scope.ownsFrame, kind]
    rw [Scopes.allocate, if_pos owns]
    refine .module kind same params declared (fun unknown among => ?_)
      (once_append once fun equal => absurd equal other)
    rcases List.mem_append.1 among with before | last
    · exact fresh unknown before
    · exact other (List.mem_singleton.1 last).symm
  | @inside s outer depth undeclared within ih =>
    rw [Scopes.allocate]
    split
    · exact .inside undeclared within
    · exact .inside undeclared ih

/-- Another name of the innermost scope changes nothing for the name. -/
theorem named {other : String} (h : Holds key v known depth (s :: outer)) (differs : key ≠ other)
    (index : Nat) :
    Holds key v known depth ({ s with locals := (other, index) :: s.locals } :: outer) := by
  have same : ((other, index) :: s.locals).lookup key = s.locals.lookup key := by
    rw [List.lookup_cons, beq_eq_false_iff_ne.2 differs]
  cases h with
  | module kind own params declared fresh once =>
    exact .module kind own params ((congrArg Option.isSome same).trans declared) fresh once
  | inside undeclared within =>
    refine .inside (fun place declares => undeclared place ?_) within
    exact declares.imp id same.symm.trans

/-- Declaring another name changes nothing for the name. -/
theorem declareLocal (h : Holds key v known depth scopes) (other : Text.fold name ≠ key) :
    Holds key v known depth (declareLocal scopes name).2 := by
  obtain ⟨s, outer, rfl⟩ := h.ne_nil
  unfold Scopes.declareLocal
  dsimp only
  split
  next => exact h
  next =>
    have differs : s.variableOf (Text.fold name) ≠ v := by
      rintro rfl
      exact other h.name_eq
    have kept := h.allocate differs
    obtain ⟨index, slots, rest, made⟩ := allocate_cons (s.variableOf (Text.fold name)) s outer
    rw [made] at kept ⊢
    exact kept.named other.symm index

theorem declareGlobal (h : Holds key v known depth scopes) (other : Text.fold name ≠ key) :
    Holds key v known depth (declareGlobal scopes name).2 := by
  induction h with
  | module kind same params declared fresh once =>
    exact declareLocal (.module kind same params declared fresh once) other
  | @inside s outer _ undeclared within ih =>
    obtain ⟨next, rest, rfl⟩ := within.ne_nil
    exact .inside undeclared ih

/-- **Assigning the name makes it known**, as the module's variable. -/
theorem assign (h : Holds key v known depth scopes) (here : Text.fold name = key) :
    Holds key v true depth (Scopes.declareGlobal scopes name).2 ∧
      (Scopes.declareGlobal scopes name).1.meant = v := by
  induction h with
  | @module m kind same params declared fresh once =>
    have owns : m.ownsFrame = true := by rw [Scope.ownsFrame, kind]
    unfold Scopes.declareGlobal Scopes.declareLocal
    dsimp only
    rw [here]
    split
    next index found =>
      rw [found] at declared
      exact ⟨.module kind same params (by rw [found]; rfl)
        (fun never => absurd never.symm Bool.false_ne_true) once, same⟩
    next missing =>
      rw [missing] at declared
      obtain rfl : false = known := declared
      rw [Scopes.allocate, if_pos owns]
      refine ⟨.module kind same params ?_ ?_ ?_, same⟩
      · dsimp only
        rw [List.lookup_cons, beq_self_eq_true]
        rfl
      · intro never
        cases never
      · exact once_append once fun _ => fresh rfl
  | @inside s outer _ undeclared within ih =>
    obtain ⟨next, rest, rfl⟩ := within.ne_nil
    obtain ⟨kept, meant⟩ := ih
    refine ⟨.inside undeclared kept, ?_⟩
    show (enter s _).meant = v
    unfold enter
    split
    · exact meant
    · exact meant

theorem setReturnLabel (h : Holds key v known depth scopes) (label : Label) :
    Holds key v known depth (setReturnLabel label scopes) := by
  induction h with
  | @module m kind same params declared fresh once =>
    have other : m.kind ≠ .function := by
      rw [kind]
      exact ScopeKind.noConfusion
    unfold Scopes.setReturnLabel
    rw [if_neg other]
    exact .module kind same params declared fresh once
  | inside undeclared within ih =>
    unfold Scopes.setReturnLabel
    split
    · exact .inside undeclared within
    · exact .inside undeclared ih

theorem pop (h : Holds key v known (depth + 1) scopes) : Holds key v known depth (scopes.drop 1) := by
  cases h with
  | inside _ within => exact within

end Holds

end Scopes

end HostScript
