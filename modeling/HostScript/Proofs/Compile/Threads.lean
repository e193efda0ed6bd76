import HostScript.Proofs.Compile.Names

/-!
# Proofs/Compile/Threads — names one after another

What a name stands for depends on what has been declared before.  `Threads` leads what one scope does
with names, in order, through the scopes as they are at each of them.  Scopes keep what they declare
(`Scope.Retains`), so a variable that the innermost scope declares is what its name stands for from there
on (`Threads.shadows`).  The one exception is a parameter of that very scope: its name goes on standing
for the parameter, for the parameters of a scope come before its variables.
-/

namespace HostScript

/-! ## Scopes that keep what they declare -/

/-- A scope that keeps its parameters and its variables where they are. -/
structure Scope.Retains (s t : Scope) : Prop where
  kind : t.kind = s.kind
  owner : t.owner = s.owner
  params : t.params = s.params
  locals (key : String) (index : Nat) : s.locals.lookup key = some index →
    t.locals.lookup key = some index

namespace Scope.Retains

variable {s t u : Scope}

theorem refl (s : Scope) : s.Retains s := ⟨rfl, rfl, rfl, fun _ _ h => h⟩

theorem trans (h : s.Retains t) (k : t.Retains u) : s.Retains u :=
  ⟨k.kind.trans h.kind, k.owner.trans h.owner, k.params.trans h.params,
    fun key index found => k.locals key index (h.locals key index found)⟩

theorem variableOf (h : s.Retains t) (key : String) : t.variableOf key = s.variableOf key := by
  unfold Scope.variableOf Scope.loop?
  rw [h.kind, h.owner]

end Scope.Retains

namespace Scopes

variable {a b c : Scopes} {s : Scope} {outer : Scopes} {key name : String} {slot : SlotRef}

/-- Scopes side by side that keep what they declare. -/
abbrev Retain (a b : Scopes) : Prop := List.Forall₂ Scope.Retains a b

theorem Retain.refl (a : Scopes) : Retain a a := List.forall₂_same.2 fun s _ => .refl s

theorem Retain.trans (h : Retain a b) (k : Retain b c) : Retain a c := by
  induction h generalizing c with
  | nil => exact k
  | cons first _ ih =>
    cases k with
    | cons next rest => exact .cons (first.trans next) (ih rest)

theorem retain_allocate (v : Variable) (a : Scopes) : Retain a (allocate v a).2 := by
  induction a with
  | nil => exact .nil
  | cons s outer ih =>
    unfold allocate
    split
    · exact .cons ⟨rfl, rfl, rfl, fun _ _ h => h⟩ (Retain.refl outer)
    · exact .cons (.refl s) ih

/-- **What a declaration does**: the scopes keep what they declare, and the innermost one declares the
name, at the slot that is handed out. -/
theorem declareLocal_cons (s : Scope) (outer : Scopes) (name : String) :
    ∃ t wider index,
      declareLocal (s :: outer) name = (⟨t.variableOf (Text.fold name), 0, index⟩, t :: wider) ∧
        s.Retains t ∧ Retain outer wider ∧ t.locals.lookup (Text.fold name) = some index := by
  unfold declareLocal
  dsimp only
  cases known : s.locals.lookup (Text.fold name) with
  | some index => exact ⟨s, outer, index, rfl, .refl s, Retain.refl outer, known⟩
  | none =>
    have kept := retain_allocate (s.variableOf (Text.fold name)) (s :: outer)
    obtain ⟨index, slots, rest, made⟩ := allocate_cons (s.variableOf (Text.fold name)) s outer
    rw [made] at kept ⊢
    cases kept with
    | cons _ others =>
      refine ⟨{ s with slots := slots, locals := (Text.fold name, index) :: s.locals }, _, index, rfl,
        ⟨rfl, rfl, rfl, fun key place found => ?_⟩, others, List.lookup_cons_self⟩
      dsimp only
      rw [List.lookup_cons]
      split
      next same =>
        rw [eq_of_beq same, known] at found
        cases found
      next => exact found

theorem retain_declareLocal (a : Scopes) (name : String) : Retain a (declareLocal a name).2 := by
  cases a with
  | nil => exact .nil
  | cons s outer =>
    obtain ⟨t, wider, index, made, first, rest, -⟩ := declareLocal_cons s outer name
    rw [made]
    exact .cons first rest

theorem retain_declareGlobal (a : Scopes) (name : String) : Retain a (declareGlobal a name).2 := by
  induction a with
  | nil => exact .nil
  | cons s outer ih =>
    cases outer with
    | nil => exact retain_declareLocal [s] name
    | cons next outer => exact .cons (.refl s) ih

theorem retain_setReturnLabel (label : Label) (a : Scopes) : Retain a (setReturnLabel label a) := by
  induction a with
  | nil => exact .nil
  | cons s outer ih =>
    unfold setReturnLabel
    split
    · exact .cons ⟨rfl, rfl, rfl, fun _ _ h => h⟩ (Retain.refl outer)
    · exact .cons (.refl s) ih

/-! ## Variables of the innermost scope -/

/-- Scopes of which the innermost has no parameter of a folded name. -/
inductive NoParam (key : String) : Scopes → Prop where
  | intro {s : Scope} {outer : Scopes} : s.params.lookup key = none → NoParam key (s :: outer)

/-- **Scopes of which the innermost declares a folded name** as a variable, which no parameter hides. -/
inductive Declare (key : String) : SlotRef → Scopes → Prop where
  | intro {s : Scope} {outer : Scopes} {index : Nat} : s.params.lookup key = none →
    s.locals.lookup key = some index → Declare key ⟨s.variableOf key, 0, index⟩ (s :: outer)

theorem NoParam.retain (h : NoParam key a) (kept : Retain a b) : NoParam key b := by
  cases h with
  | intro free =>
    cases kept with
    | cons first _ => exact .intro (first.params ▸ free)

theorem Declare.retain (h : Declare key slot a) (kept : Retain a b) : Declare key slot b := by
  cases h with
  | intro free found =>
    cases kept with
    | cons first _ =>
      rw [← first.variableOf]
      exact .intro (first.params ▸ free) (first.locals _ _ found)

theorem Declare.own (h : Declare key slot a) : slot.depth = 0 ∧ slot.meant.name = key := by
  cases h with
  | intro => exact ⟨rfl, rfl⟩

theorem Declare.find? (h : Declare key slot a) (same : Text.fold name = key) :
    a.find? name = some slot := by
  cases h with
  | @intro s outer index free found =>
    have here : s.slot? key = some index := by
      unfold Scope.slot?
      rw [free, found]
      rfl
    unfold Scopes.find? Scopes.findKey?
    rw [same, here]

/-- **Declaring a name** that is no parameter's. -/
theorem NoParam.declareLocal (h : NoParam (Text.fold name) a) :
    Declare (Text.fold name) (declareLocal a name).1 (declareLocal a name).2 := by
  cases h with
  | @intro s outer free =>
    obtain ⟨t, wider, index, made, first, -, found⟩ := declareLocal_cons s outer name
    rw [made]
    exact .intro (first.params ▸ free) found

/-- **The name of a parameter** goes on standing for the parameter. -/
theorem find?_declareLocal_of_param {written : String} {index : Nat}
    (param : s.params.lookup (Text.fold name) = some index) (same : Text.fold written = Text.fold name) :
    (declareLocal (s :: outer) name).2.find? written =
      some ⟨s.variableOf (Text.fold name), 0, index⟩ := by
  obtain ⟨t, wider, place, made, first, -, -⟩ := declareLocal_cons s outer name
  have here : t.slot? (Text.fold name) = some index := by
    unfold Scope.slot?
    rw [first.params, param]
    rfl
  rw [made, ← first.variableOf]
  unfold Scopes.find? Scopes.findKey?
  rw [same, here]

/-- A name that is not among the names of the parameters is no parameter's. -/
theorem lookup_paramSlots_eq_none {params : List String} (other : key ∉ params.map Text.fold) :
    (Scope.paramSlots params).lookup key = none := by
  rw [Option.eq_none_iff_forall_ne_some]
  intro index found
  exact other (List.mem_of_getElem? (getElem?_of_lookup_paramSlots found))

end Scopes

/-! ## What a scope does with names -/

/-- What a scope does with a name itself. -/
inductive Mention where
  /-- Reading a name, also in order to call what it stands for. -/
  | read (name : String)
  | assign (name : String)
  /-- Declaring a variable and giving it a value. -/
  | var (name : String)
  deriving DecidableEq, Repr

/-- What code does with a slot, or with a name that has none. -/
inductive Touch where
  | read (slot : SlotRef)
  | write (slot : SlotRef)
  | lookup (name : String)
  | call (name : String)
  deriving DecidableEq, Repr

/-- **What a mention of a name becomes** where it stands in scopes, and the scopes after it. -/
inductive Mention.Becomes (a : Scopes) : Mention → Touch → Scopes → Prop where
  | found {name : String} {slot : SlotRef} : a.find? name = some slot →
    Becomes a (.read name) (.read slot) a
  | lookup {name : String} : a.find? name = none → Becomes a (.read name) (.lookup name) a
  | call {name : String} : a.find? name = none → Becomes a (.read name) (.call name) a
  | assigned {name : String} {slot : SlotRef} : a.find? name = some slot →
    Becomes a (.assign name) (.write slot) a
  | assigns {name : String} : a.find? name = none →
    Becomes a (.assign name) (.write (a.declareGlobal name).1) (a.declareGlobal name).2
  | var {name : String} :
    Becomes a (.var name) (.write (a.declareLocal name).1) (a.declareLocal name).2

/-- **What mentions of names become** one after another, in scopes that come to declare more. -/
inductive Threads : Scopes → List Mention → List Touch → Scopes → Prop where
  | nil {a b : Scopes} : a.Retain b → Threads a [] [] b
  | cons {a b c d : Scopes} {m : Mention} {t : Touch} {mentions : List Mention}
    {touches : List Touch} : a.Retain b → m.Becomes b t c → Threads c mentions touches d →
      Threads a (m :: mentions) (t :: touches) d

theorem Mention.Becomes.retain {a b : Scopes} {m : Mention} {t : Touch} (h : m.Becomes a t b) :
    a.Retain b := by
  cases h with
  | assigns => exact Scopes.retain_declareGlobal a _
  | var => exact Scopes.retain_declareLocal a _
  | _ => exact Scopes.Retain.refl a

namespace Threads

variable {a b c : Scopes} {mentions more : List Mention} {touches others : List Touch}
  {key : String} {slot : SlotRef}

theorem single {m : Mention} {t : Touch} (h : m.Becomes a t b) : Threads a [m] [t] b :=
  .cons (Scopes.Retain.refl a) h (.nil (Scopes.Retain.refl b))

theorem before (kept : a.Retain b) (h : Threads b mentions touches c) :
    Threads a mentions touches c := by
  cases h with
  | nil further => exact .nil (kept.trans further)
  | cons further becomes rest => exact .cons (kept.trans further) becomes rest

theorem append (h : Threads a mentions touches b) (k : Threads b more others c) :
    Threads a (mentions ++ more) (touches ++ others) c := by
  induction h with
  | nil kept => exact k.before kept
  | cons kept becomes _ ih => exact .cons kept becomes (ih k)

theorem retain (h : Threads a mentions touches b) : a.Retain b := by
  induction h with
  | nil kept => exact kept
  | cons kept becomes _ ih => exact kept.trans (becomes.retain.trans ih)

/-- **A variable that the innermost scope declares** is what its name stands for from there on. -/
theorem reads (h : Threads a mentions touches b) (declared : a.Declare key slot) {j : Nat}
    {name : String} (read : mentions[j]? = some (.read name)) (same : Text.fold name = key) :
    touches[j]? = some (.read slot) := by
  induction h generalizing j with
  | nil => cases read
  | @cons a b c d m t mentions touches kept becomes _ ih =>
    have here := declared.retain kept
    cases j with
    | zero =>
      obtain rfl := Option.some.inj read
      have stands := here.find? same
      cases becomes with
      | found known => exact congrArg (some ∘ Touch.read) (Option.some.inj (known.symm.trans stands))
      | lookup missing => cases missing.symm.trans stands
      | call missing => cases missing.symm.trans stands
    | succ j => exact ih (here.retain becomes.retain) read

/-- **A variable shadows**: what the scope reads by its name, after it has been declared, is the variable,
unless the name is a parameter's. -/
theorem shadows (h : Threads a mentions touches b) (free : a.NoParam key) {i j : Nat} {x y : String}
    (before : i < j) (declared : mentions[i]? = some (.var x)) (read : mentions[j]? = some (.read y))
    (same : Text.fold x = key) (again : Text.fold y = key) :
    ∃ slot : SlotRef, slot.depth = 0 ∧ slot.meant.name = key ∧ touches[i]? = some (.write slot) ∧
      touches[j]? = some (.read slot) := by
  induction h generalizing i j with
  | nil => cases declared
  | @cons a b c d m t mentions touches kept becomes rest ih =>
    have here := free.retain kept
    obtain ⟨j, rfl⟩ : ∃ k, j = k + 1 := ⟨j - 1, by omega⟩
    cases i with
    | zero =>
      obtain rfl := Option.some.inj declared
      subst same
      cases becomes with
      | var =>
        have known := here.declareLocal
        exact ⟨_, known.own.1, known.own.2, rfl, rest.reads known read again⟩
    | succ i => exact ih (here.retain becomes.retain) (by omega) declared read

end Threads

end HostScript
