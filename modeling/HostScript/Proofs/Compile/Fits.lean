import HostScript.Proofs.Compile.Scopes

/-!
# Proofs/Compile/Fits — what is true of compiled code

Code *fits* a place if its slots lead, along the activations around the place, to the variables they
are meant for, and its jumps go to the innermost loop and the innermost function around them.  The
body of a function is a place of its own.  `regions` lists the loops and functions that a code has, by
what tells them apart.
-/

namespace HostScript

open Layout (AllGrow)

namespace Code

/-! ## Fitting code -/

/-- What is around a place: the layouts of activations, the innermost first, and what `break` and
`return` leave there. -/
structure Context where
  chain : List Layout
  loop? : Option Label
  return? : Option Label

/-- **Code that fits a place.** -/
inductive Fits : Context → Code → Prop where
  | null {Γ : Context} : Fits Γ .null
  | constant {Γ : Context} {value : Literal} : Fits Γ (.constant value)
  | thisModule {Γ : Context} : Fits Γ .thisModule
  | importAs {Γ : Context} {position : Position} {path : List String} {name : String} :
    Fits Γ (.importAs position path name)
  | read {Γ : Context} {slot : SlotRef} : slot.Reaches Γ.chain → Fits Γ (.read slot)
  | write {Γ : Context} {slot : SlotRef} {value : Code} :
    slot.Reaches Γ.chain → Fits Γ value → Fits Γ (.write slot value)
  | dispatch {Γ : Context} {position : Position} {s : Signature} {operands : List Code} :
    (∀ code ∈ operands, Fits Γ code) → Fits Γ (.dispatch position s operands)
  /-- The body runs in an activation of its own, of the same source and not of its module. -/
  | closure {Γ : Context} {template : Template Code} :
    template.layout.owner.number ≠ 0 →
      (∀ layout ∈ Γ.chain, layout.owner.source = template.layout.owner.source) →
        Fits ⟨template.layout :: Γ.chain, none, template.returnLabel?⟩ template.body →
          Fits Γ (.closure template)
  | choose {Γ : Context} {branches : List (Code × Code)} {otherwise : Code} :
    (∀ branch ∈ branches, Fits Γ branch.1) → (∀ branch ∈ branches, Fits Γ branch.2) →
      Fits Γ otherwise → Fits Γ (.choose branches otherwise)
  | loop {Γ : Context} {label : Label} {body : Code} :
    Fits { Γ with loop? := some label } body → Fits Γ (.loop label body)
  | leave {Γ : Context} {label : Label} {value : Code} :
    Γ.loop? = some label → Fits Γ value → Fits Γ (.leave label value)
  | give {Γ : Context} {label : Label} {value : Code} :
    Γ.return? = some label → Fits Γ value → Fits Γ (.give label value)
  | sequence {Γ : Context} {codes : List Code} :
    (∀ code ∈ codes, Fits Γ code) → Fits Γ (.sequence codes)

/-- A place grows with the activations around it and when its function is given a label. -/
structure Context.Grows (Γ Δ : Context) : Prop where
  chain : AllGrow Γ.chain Δ.chain
  loop? : Δ.loop? = Γ.loop?
  return? (label : Label) : Γ.return? = some label → Δ.return? = some label

theorem sources_grow {a b : List Layout} {source : Nat} (h : AllGrow a b)
    (same : ∀ layout ∈ a, layout.owner.source = source) :
    ∀ layout ∈ b, layout.owner.source = source := by
  induction h with
  | nil => exact same
  | cons first _ ih =>
    intro layout mem
    rcases List.mem_cons.1 mem with rfl | mem
    · rw [first.owner]
      exact same _ List.mem_cons_self
    · exact ih (fun other mem => same other (List.mem_cons_of_mem _ mem)) layout mem

/-- **Code that fits a place fits it when it has grown.** -/
theorem Fits.grow {Γ Δ : Context} {code : Code} (h : code.Fits Γ) (grows : Γ.Grows Δ) :
    code.Fits Δ := by
  induction h generalizing Δ with
  | null => exact .null
  | constant => exact .constant
  | thisModule => exact .thisModule
  | importAs => exact .importAs
  | read reaches => exact .read (reaches.grow grows.chain)
  | write reaches _ ih => exact .write (reaches.grow grows.chain) (ih grows)
  | dispatch _ ih => exact .dispatch fun code mem => ih code mem grows
  | closure inner same _ ih =>
    exact .closure inner (sources_grow grows.chain same)
      (ih ⟨.cons (.refl _) grows.chain, rfl, fun _ h => h⟩)
  | choose _ _ _ tests bodies last =>
    exact .choose (fun branch mem => tests branch mem grows)
      (fun branch mem => bodies branch mem grows) (last grows)
  | loop _ ih => exact .loop (ih ⟨grows.chain, rfl, grows.return?⟩)
  | leave inside _ ih => exact .leave (grows.loop?.trans inside) (ih grows)
  | give inside _ ih => exact .give (grows.return? _ inside) (ih grows)
  | sequence _ ih => exact .sequence fun code mem => ih code mem grows

/-- Whether a function fits depends on the activations around it only. -/
theorem Fits.closure_of {Γ : Context} {template : Template Code} (h : Fits Γ (.closure template))
    (loop? return? : Option Label) : Fits ⟨Γ.chain, loop?, return?⟩ (.closure template) := by
  cases h with
  | closure inner same body => exact .closure inner same body

/-! ## Regions -/

/-- A loop or a function of a source, known by its label or its owner. -/
inductive Region where
  | loop (label : Label)
  | body (owner : Owner)
  deriving DecidableEq, Repr

mutual

/-- The loops and functions of a code. -/
def regions : Code → List Region
  | .write _ value | .leave _ value | .give _ value => regions value
  | .dispatch _ _ operands => regionsOf operands
  | .closure template => .body template.layout.owner :: regions template.body
  | .choose branches otherwise => regionsOfArms branches ++ regions otherwise
  | .loop label body => .loop label :: regions body
  | .sequence codes => regionsOf codes
  | _ => []

/-- The loops and functions of codes. -/
def regionsOf : List Code → List Region
  | [] => []
  | code :: rest => regions code ++ regionsOf rest

/-- The loops and functions of tests and bodies. -/
def regionsOfArms : List (Code × Code) → List Region
  | [] => []
  | (test, body) :: rest => regions test ++ (regions body ++ regionsOfArms rest)

end

/-- Tests and bodies as codes in order. -/
def armCodes (branches : List (Code × Code)) : List Code :=
  branches.flatMap fun branch => [branch.1, branch.2]

theorem regionsOfArms_eq (branches : List (Code × Code)) :
    regionsOfArms branches = regionsOf (armCodes branches) := by
  induction branches with
  | nil => rfl
  | cons branch rest ih =>
    rw [regionsOfArms, ih]
    rfl

theorem regionsOf_append (a b : List Code) : regionsOf (a ++ b) = regionsOf a ++ regionsOf b := by
  induction a with
  | nil => rfl
  | cons code rest ih =>
    rw [List.cons_append, regionsOf, regionsOf, ih, List.append_assoc]

theorem regionsOf_singleton (code : Code) : regionsOf [code] = regions code := by
  rw [regionsOf, regionsOf, List.append_nil]

theorem mem_armCodes {branches : List (Code × Code)} {branch : Code × Code} (h : branch ∈ branches) :
    branch.1 ∈ armCodes branches ∧ branch.2 ∈ armCodes branches :=
  ⟨List.mem_flatMap.2 ⟨branch, h, List.mem_cons_self⟩,
    List.mem_flatMap.2 ⟨branch, h, List.mem_cons_of_mem _ List.mem_cons_self⟩⟩

end Code

/-! ## The place inside scopes -/

namespace Scopes

open Code (Context)

/-- What is around a place inside scopes. -/
def context (scopes : Scopes) : Context := ⟨scopes.chain, scopes.loopLabel?, scopes.returnLabel?⟩

variable {a b : Scopes} {s : Scope}

theorem Grow.loopLabel? (h : Grow a b) : b.loopLabel? = a.loopLabel? := by
  cases h with
  | nil => rfl
  | cons first _ =>
    unfold Scopes.loopLabel?
    dsimp only
    rw [first.kind]

theorem returnLabel?_of_function (function : s.kind = .function) (outer : Scopes) :
    returnLabel? (s :: outer) = s.returnLabel? := by
  unfold Scopes.returnLabel?
  rw [List.find?_cons, decide_eq_true function]
  rfl

theorem returnLabel?_of_ne (other : s.kind ≠ .function) (outer : Scopes) :
    returnLabel? (s :: outer) = returnLabel? outer := by
  unfold Scopes.returnLabel?
  rw [List.find?_cons, decide_eq_false other]

theorem Grow.returnLabel? (h : Grow a b) {label : Label} (set : a.returnLabel? = some label) :
    b.returnLabel? = some label := by
  induction h with
  | nil => exact set
  | @cons s t outer wider first _ ih =>
    by_cases function : s.kind = .function
    · rw [returnLabel?_of_function (first.kind.trans function)]
      rw [returnLabel?_of_function function] at set
      exact first.returnLabel? label set
    · have other : t.kind ≠ .function := first.kind ▸ function
      rw [returnLabel?_of_ne other]
      rw [returnLabel?_of_ne function] at set
      exact ih set

theorem Grow.context (h : Grow a b) : a.context.Grows b.context :=
  ⟨h.chain, h.loopLabel?, fun _ set => h.returnLabel? set⟩

/-- A place directly inside a function. -/
theorem context_of_function (function : s.kind = .function) (outer : Scopes) :
    context (s :: outer) = ⟨⟨s.owner, s.slots⟩ :: outer.chain, none, s.returnLabel?⟩ := by
  have owns : s.ownsFrame = true := by rw [Scope.ownsFrame, function]
  unfold context Scopes.loopLabel?
  rw [chain_of_ownsFrame owns, returnLabel?_of_function function]
  dsimp only
  rw [function]

/-- A place directly inside a loop. -/
theorem context_of_loop {label : Label} (loops : s.kind = .loop label) (outer : Scopes) :
    context (s :: outer) = { context outer with loop? := some label } := by
  have owns : s.ownsFrame = false := by rw [Scope.ownsFrame, loops]
  have other : s.kind ≠ .function := by
    rw [loops]
    exact nofun
  unfold context Scopes.loopLabel?
  rw [chain_of_loop owns, returnLabel?_of_ne other]
  dsimp only
  rw [loops]

end Scopes

end HostScript
