import HostScript.Namespace.Table

/-!
# Namespace — tables of names without regard to case

A namespace binds names to values.  Two names that differ only in the case of ASCII letters are one
name; a binding keeps the spelling it was made with.  `binding?_insert_self`, `binding?_insert_of_ne`,
`binding?_erase_self` and `binding?_erase_of_ne` describe the operations through bindings, and the lemmas
that follow from them do so through `get?`.
-/

namespace HostScript

/-- Names with what they are bound to, in two tables that agree. -/
structure Namespace (α : Type) extends Table α where
  coherent : toTable.Coherent
  deriving Repr

namespace Namespace

open Table (sameName sameName_iff)

variable {α : Type}

/-- The namespace without names. -/
def empty : Namespace α := ⟨.empty, Table.coherent_empty⟩

instance : Inhabited (Namespace α) := ⟨empty⟩

/-- What a name is bound to. -/
def get? (ns : Namespace α) (name : String) : Option α := ns.toTable.get? name

/-- Whether a name is bound. -/
def contains (ns : Namespace α) (name : String) : Bool := ns.toTable.contains name

/-- Binds a name.  A name that is bound keeps its spelling. -/
def insert (ns : Namespace α) (name : String) (value : α) : Namespace α :=
  ⟨ns.toTable.insert name value, ns.coherent.insert name value⟩

/-- Unbinds a name, and tells what it was bound to. -/
def remove (ns : Namespace α) (name : String) : Option α × Namespace α :=
  ((ns.toTable.remove name).1, ⟨(ns.toTable.remove name).2, ns.coherent.remove name⟩)

/-- Unbinds a name. -/
def erase (ns : Namespace α) (name : String) : Namespace α := (ns.remove name).2

/-- The names in the spelling they were bound with, in the order of their code points. -/
def names (ns : Namespace α) : List String :=
  (ns.entries.map (·.1)).mergeSort (fun a b => decide (a ≤ b))

/-- The number of names. -/
def size (ns : Namespace α) : Nat := ns.entries.length

/-! ## The operations through bindings -/

/-- The binding of a name: the spelling it was bound with, and what it is bound to. -/
def binding? (ns : Namespace α) (name : String) : Option (String × α) :=
  ns.entries.find? fun e => sameName e.1 name

theorem get?_eq_map_binding? (ns : Namespace α) (name : String) :
    ns.get? name = (ns.binding? name).map (·.2) := ns.coherent.get?_eq name

theorem contains_eq_any (ns : Namespace α) (name : String) :
    ns.contains name = ns.entries.any fun e => sameName e.1 name := ns.coherent.contains_eq name

theorem contains_eq_isSome_get? (ns : Namespace α) (name : String) :
    ns.contains name = (ns.get? name).isSome := by
  rw [contains_eq_any, get?_eq_map_binding?, binding?, Option.isSome_map, List.isSome_find?]

theorem entries_insert (ns : Namespace α) (name : String) (value : α) :
    (ns.insert name value).entries =
      if ns.contains name then
        ns.entries.map fun e => if sameName e.1 name then (e.1, value) else e
      else ns.entries ++ [(name, value)] := by
  rw [contains_eq_any]
  exact ns.coherent.entries_insert name value

theorem entries_erase (ns : Namespace α) (name : String) :
    (ns.erase name).entries = ns.entries.filter fun e => !sameName e.1 name :=
  ns.coherent.entries_remove name

theorem binding?_congr (ns : Namespace α) {a b : String} (h : Text.fold a = Text.fold b) :
    ns.binding? a = ns.binding? b := by
  simp [binding?, sameName, h]

/-- A name that is another one in no spelling is not the name of its entries. -/
theorem sameName_eq_false {key name other : String} (h : Text.fold other ≠ Text.fold name)
    (same : sameName key other = true) : sameName key name = false := by
  rw [sameName_iff] at same
  simp [sameName, same, h]

/-- **A name that is bound keeps its spelling.** -/
theorem binding?_insert_self (ns : Namespace α) (name : String) (value : α) :
    (ns.insert name value).binding? name = some (((ns.binding? name).map (·.1)).getD name, value) := by
  rw [binding?, entries_insert]
  split
  next bound =>
    rw [contains_eq_any, ← List.isSome_find?, Option.isSome_iff_exists] at bound
    obtain ⟨entry, found⟩ := bound
    have same : sameName entry.1 name = true :=
      List.find?_some (p := fun e : String × α => sameName e.1 name) found
    have kept : ((fun e : String × α => sameName e.1 name) ∘
        fun e => if sameName e.1 name then (e.1, value) else e) = fun e => sameName e.1 name := by
      funext e
      cases eq : sameName e.1 name <;> simp [eq]
    rw [binding?, List.find?_map, kept, found]
    simp [same]
  next free =>
    have absent : ns.entries.find? (fun e => sameName e.1 name) = none := by
      simpa [contains_eq_any] using free
    rw [binding?, List.find?_append, absent]
    simp [sameName]

theorem binding?_insert_of_ne (ns : Namespace α) {name other : String} (value : α)
    (h : Text.fold other ≠ Text.fold name) :
    (ns.insert name value).binding? other = ns.binding? other := by
  rw [binding?, binding?, entries_insert]
  split
  next =>
    have kept : ((fun e : String × α => sameName e.1 other) ∘
        fun e => if sameName e.1 name then (e.1, value) else e) = fun e => sameName e.1 other := by
      funext e
      cases eq : sameName e.1 name <;> simp [eq]
    rw [List.find?_map, kept]
    cases found : ns.entries.find? fun e => sameName e.1 other with
    | none => rfl
    | some entry =>
      have same : sameName entry.1 other = true :=
        List.find?_some (p := fun e : String × α => sameName e.1 other) found
      simp [sameName_eq_false h same]
  next => simp [List.find?_append, sameName, Ne.symm h]

theorem binding?_erase_self (ns : Namespace α) (name : String) :
    (ns.erase name).binding? name = none := by
  simp [binding?, entries_erase]

theorem binding?_erase_of_ne (ns : Namespace α) {name other : String}
    (h : Text.fold other ≠ Text.fold name) : (ns.erase name).binding? other = ns.binding? other := by
  rw [binding?, binding?, entries_erase, List.find?_filter]
  congr 1
  funext e
  cases eq : sameName e.1 other
  · simp
  · simp [sameName_eq_false h eq]

/-! ## The operations through `get?` -/

@[simp] theorem get?_empty (name : String) : (empty : Namespace α).get? name = none := rfl

theorem get?_congr (ns : Namespace α) {a b : String} (h : Text.fold a = Text.fold b) :
    ns.get? a = ns.get? b := by
  rw [get?_eq_map_binding?, binding?_congr ns h, get?_eq_map_binding?]

theorem get?_insert_self (ns : Namespace α) (name : String) (value : α) :
    (ns.insert name value).get? name = some value := by
  rw [get?_eq_map_binding?, binding?_insert_self, Option.map_some]

theorem get?_insert_of_ne (ns : Namespace α) {name other : String} (value : α)
    (h : Text.fold other ≠ Text.fold name) : (ns.insert name value).get? other = ns.get? other := by
  rw [get?_eq_map_binding?, binding?_insert_of_ne ns value h, get?_eq_map_binding?]

theorem get?_erase_self (ns : Namespace α) (name : String) :
    (ns.erase name).get? name = none := by
  rw [get?_eq_map_binding?, binding?_erase_self, Option.map_none]

theorem get?_erase_of_ne (ns : Namespace α) {name other : String}
    (h : Text.fold other ≠ Text.fold name) : (ns.erase name).get? other = ns.get? other := by
  rw [get?_eq_map_binding?, binding?_erase_of_ne ns h, get?_eq_map_binding?]

end Namespace

end HostScript
