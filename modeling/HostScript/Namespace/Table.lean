import HostScript.Text.Case

/-!
# Namespace/Table — two tables for names

What names are bound to is kept in two tables: one from spellings to values, and one from folded names
to the spellings of the first.  A name is looked for as it is spelled before it is looked for in any
case, so an answer would depend on the spelling if the tables did not agree.  They do: every operation
keeps them `Coherent`, and on coherent tables the operations are those of a single list of entries, no
two of them of one name (`keyFor?_eq`, `entries_insert`, `entries_remove`).
-/

namespace HostScript

/-- What keys stand for, in the order in which they were added. -/
abbrev Entries (β : Type) := List (String × β)

namespace Entries

variable {β : Type}

/-- Whether there is a key. -/
def has (es : Entries β) (key : String) : Bool := es.any (·.1 == key)

/-- What a key stands for. -/
def get? (es : Entries β) (key : String) : Option β := (es.find? (·.1 == key)).map (·.2)

/-- Makes a key stand for something, in its place if it is there. -/
def put (es : Entries β) (key : String) (b : β) : Entries β :=
  if es.has key then es.map fun e => if e.1 == key then (e.1, b) else e else es ++ [(key, b)]

/-- Drops a key. -/
def drop (es : Entries β) (key : String) : Entries β := es.filter fun e => !(e.1 == key)

end Entries

/-- What names are bound to, under their keys, and the keys under their folded names. -/
structure Table (α : Type) where
  entries : Entries α
  folded : Entries String
  deriving Repr

namespace Table

variable {α : Type}

/-- The table without names. -/
def empty : Table α := ⟨[], []⟩

/-- The key that a name is bound under: the name as it is spelled, else the one of the folded name. -/
def keyFor? (t : Table α) (name : String) : Option String :=
  if t.entries.has name then some name else t.folded.get? (Text.fold name)

/-- What a name is bound to. -/
def get? (t : Table α) (name : String) : Option α := (t.keyFor? name).bind t.entries.get?

/-- Whether a name is bound. -/
def contains (t : Table α) (name : String) : Bool := (t.keyFor? name).isSome

/-- Binds a name.  A name that is bound keeps its key. -/
def insert (t : Table α) (name : String) (value : α) : Table α :=
  match t.keyFor? name with
  | some key => { t with entries := t.entries.put key value }
  | none =>
    ⟨t.entries.put name value,
      if t.folded.has (Text.fold name) then t.folded else t.folded.put (Text.fold name) name⟩

/-- Unbinds a name, and tells what it was bound to. -/
def remove (t : Table α) (name : String) : Option α × Table α :=
  match t.keyFor? name with
  | some key =>
    (t.entries.get? key,
      ⟨t.entries.drop key,
        if t.folded.get? (Text.fold key) == some key then t.folded.drop (Text.fold key)
        else t.folded⟩)
  | none => (none, t)

/-- What a name was bound to is what it is bound to before it is unbound. -/
theorem remove_fst (t : Table α) (name : String) : (t.remove name).1 = t.get? name := by
  rw [remove, get?]
  cases t.keyFor? name <;> rfl

/-! ## Tables that agree -/

/-- Whether two spellings are one name. -/
def sameName (a b : String) : Bool := Text.fold a == Text.fold b

theorem sameName_iff {a b : String} : sameName a b = true ↔ Text.fold a = Text.fold b := by
  simp [sameName]

/-- **The two tables index each other**: the folded names are those of the keys, each stands for its
key, and no two keys are one name. -/
structure Coherent (t : Table α) : Prop where
  indexed : t.folded = t.entries.map fun e => (Text.fold e.1, e.1)
  once : (t.entries.map fun e => Text.fold e.1).Nodup

theorem coherent_empty : (empty : Table α).Coherent := ⟨rfl, List.nodup_nil⟩

namespace Coherent

variable {t : Table α}

/-- The entries of a name are one entry. -/
theorem eq_of_fold (h : t.Coherent) {e f : String × α} (left : e ∈ t.entries)
    (right : f ∈ t.entries) (same : Text.fold e.1 = Text.fold f.1) : e = f := by
  have apart := List.pairwise_map.1 h.once
  have one := List.Pairwise.forall_of_forall_of_flip
    (R := fun e f : String × α => Text.fold e.1 = Text.fold f.1 → e = f)
    (fun _ _ _ => rfl) (apart.imp fun differ same => absurd same differ)
    (apart.imp fun differ same => absurd same.symm differ)
  exact one left right same

/-- Under the key of an entry there is that entry. -/
theorem find?_key (h : t.Coherent) {e : String × α} (mem : e ∈ t.entries) :
    t.entries.find? (·.1 == e.1) = some e := by
  have there : (t.entries.find? (·.1 == e.1)).isSome := List.find?_isSome.2 ⟨e, mem, BEq.rfl⟩
  obtain ⟨f, found⟩ := Option.isSome_iff_exists.1 there
  have same := List.find?_some found
  rw [found, h.eq_of_fold (List.mem_of_find?_eq_some found) mem (congrArg _ (beq_iff_eq.1 same))]

/-- Under the name of an entry there is that entry. -/
theorem find?_sameName (h : t.Coherent) {e : String × α} (mem : e ∈ t.entries) :
    t.entries.find? (fun f => sameName f.1 e.1) = some e := by
  have there : (t.entries.find? fun f => sameName f.1 e.1).isSome :=
    List.find?_isSome.2 ⟨e, mem, sameName_iff.2 rfl⟩
  obtain ⟨f, found⟩ := Option.isSome_iff_exists.1 there
  have same := List.find?_some found
  rw [found, h.eq_of_fold (List.mem_of_find?_eq_some found) mem (sameName_iff.1 same)]

/-- To have the key of an entry is to have its name. -/
theorem beq_key (h : t.Coherent) {e f : String × α} (left : e ∈ t.entries) (right : f ∈ t.entries) :
    (e.1 == f.1) = sameName e.1 f.1 := by
  rw [Bool.eq_iff_iff, beq_iff_eq, sameName_iff]
  exact ⟨congrArg Text.fold, fun same => congrArg Prod.fst (h.eq_of_fold left right same)⟩

/-- A folded name stands for the key of the entry of that name. -/
theorem get?_folded (h : t.Coherent) (name : String) :
    t.folded.get? (Text.fold name) = (t.entries.find? fun e => sameName e.1 name).map (·.1) := by
  rw [h.indexed, Entries.get?, List.find?_map, Option.map_map]
  rfl

/-- **A name is bound under the key of the entry of that name.** -/
theorem keyFor?_eq (h : t.Coherent) (name : String) :
    t.keyFor? name = (t.entries.find? fun e => sameName e.1 name).map (·.1) := by
  rw [keyFor?]
  split
  next spelled =>
    obtain ⟨e, mem, same⟩ := List.any_eq_true.1 spelled
    obtain rfl : e.1 = name := beq_iff_eq.1 same
    rw [h.find?_sameName mem]
    rfl
  next => exact h.get?_folded name

/-- The key that a name is bound under is that of the entry of that name. -/
theorem of_keyFor? (h : t.Coherent) {name key : String} (bound : t.keyFor? name = some key) :
    ∃ e ∈ t.entries, e.1 = key ∧ sameName e.1 name = true ∧
      t.entries.find? (fun f => sameName f.1 name) = some e := by
  rw [h.keyFor?_eq] at bound
  obtain ⟨e, found, rfl⟩ := Option.map_eq_some_iff.1 bound
  have same := List.find?_some found
  exact ⟨e, List.mem_of_find?_eq_some found, rfl, same, found⟩

/-- The entries with the key that a name is bound under are those of the name. -/
theorem beq_key_eq (h : t.Coherent) {name key : String} (bound : t.keyFor? name = some key)
    {e : String × α} (mem : e ∈ t.entries) : (e.1 == key) = sameName e.1 name := by
  obtain ⟨f, there, rfl, same, -⟩ := h.of_keyFor? bound
  rw [h.beq_key mem there, sameName, sameName, sameName_iff.1 same]

theorem keyFor?_eq_none (h : t.Coherent) {name : String} (free : t.keyFor? name = none) :
    t.entries.any (fun e => sameName e.1 name) = false := by
  rw [h.keyFor?_eq, Option.map_eq_none_iff] at free
  simpa using free

theorem has_key (h : t.Coherent) {name key : String} (bound : t.keyFor? name = some key) :
    t.entries.has key = true := by
  obtain ⟨e, mem, rfl, -⟩ := h.of_keyFor? bound
  exact List.any_eq_true.2 ⟨e, mem, BEq.rfl⟩

/-! ## The operations on the list of entries -/

theorem get?_eq (h : t.Coherent) (name : String) :
    t.get? name = (t.entries.find? fun e => sameName e.1 name).map (·.2) := by
  rw [get?]
  cases bound : t.keyFor? name with
  | none =>
    rw [h.keyFor?_eq, Option.map_eq_none_iff] at bound
    rw [bound]
    rfl
  | some key =>
    obtain ⟨e, mem, rfl, -, found⟩ := h.of_keyFor? bound
    show (t.entries.find? (·.1 == e.1)).map (·.2) = _
    rw [h.find?_key mem, found]

theorem contains_eq (h : t.Coherent) (name : String) :
    t.contains name = t.entries.any fun e => sameName e.1 name := by
  rw [contains, h.keyFor?_eq, Option.isSome_map, List.isSome_find?]

/-- A name that is free is the key of no entry. -/
theorem has_eq_false {name : String} (free : t.keyFor? name = none) :
    t.entries.has name = false := by
  cases has : t.entries.has name with
  | false => rfl
  | true =>
    rw [keyFor?, if_pos has] at free
    cases free

/-- A name that is free is no folded name. -/
theorem has_folded_eq_false (h : t.Coherent) {name : String} (free : t.keyFor? name = none) :
    t.folded.has (Text.fold name) = false := by
  rw [Entries.has, h.indexed, List.any_map]
  exact h.keyFor?_eq_none free

theorem entries_insert (h : t.Coherent) (name : String) (value : α) :
    (t.insert name value).entries =
      if t.entries.any fun e => sameName e.1 name then
        t.entries.map fun e => if sameName e.1 name then (e.1, value) else e
      else t.entries ++ [(name, value)] := by
  rw [← h.contains_eq, contains, insert]
  cases bound : t.keyFor? name with
  | none =>
    rw [Entries.put, has_eq_false bound]
    rfl
  | some key =>
    show t.entries.put key value = _
    rw [Entries.put, if_pos (h.has_key bound)]
    exact List.map_congr_left fun e mem => by rw [h.beq_key_eq bound mem]

theorem entries_remove (h : t.Coherent) (name : String) :
    (t.remove name).2.entries = t.entries.filter fun e => !sameName e.1 name := by
  rw [remove]
  cases bound : t.keyFor? name with
  | none =>
    refine (List.filter_eq_self.2 fun e mem => ?_).symm
    rw [Bool.eq_false_iff.2 (List.any_eq_false.1 (h.keyFor?_eq_none bound) e mem)]
    rfl
  | some key =>
    exact List.filter_congr fun e mem => by rw [h.beq_key_eq bound mem]

/-! ## Operations keep tables coherent -/

/-- **Binding a name keeps tables coherent.** -/
theorem insert (h : t.Coherent) (name : String) (value : α) : (t.insert name value).Coherent := by
  rw [Table.insert]
  cases bound : t.keyFor? name with
  | none =>
    rw [Entries.put, has_eq_false bound, h.has_folded_eq_false bound, Entries.put,
      h.has_folded_eq_false bound]
    refine ⟨?_, ?_⟩
    · show t.folded ++ _ = (t.entries ++ _).map _
      rw [List.map_append, h.indexed]
      rfl
    · show ((t.entries ++ _).map _).Nodup
      rw [List.map_append, List.nodup_append]
      refine ⟨h.once, List.pairwise_singleton _ _, ?_⟩
      rintro _ old _ new same
      obtain ⟨e, mem, rfl⟩ := List.mem_map.1 old
      have free := List.any_eq_false.1 (h.keyFor?_eq_none bound) e mem
      exact free (sameName_iff.2 (same.trans (List.mem_singleton.1 new)))
  | some key =>
    -- The keys stay as they are, and the folded names with them.
    have keys {β : Type} (f : String → β) :
        (t.entries.put key value).map (fun e => f e.1) = t.entries.map fun e => f e.1 := by
      rw [Entries.put, if_pos (h.has_key bound), List.map_map]
      refine List.map_congr_left fun e _ => ?_
      rw [Function.comp_apply]
      split <;> rfl
    refine ⟨?_, ?_⟩
    · show t.folded = (t.entries.put key value).map _
      rw [keys fun key => (Text.fold key, key)]
      exact h.indexed
    · show ((t.entries.put key value).map _).Nodup
      rw [keys Text.fold]
      exact h.once

/-- **Unbinding a name keeps tables coherent.** -/
theorem remove (h : t.Coherent) (name : String) : (t.remove name).2.Coherent := by
  rw [Table.remove]
  cases bound : t.keyFor? name with
  | none => exact h
  | some key =>
    obtain ⟨e, mem, rfl, same, found⟩ := h.of_keyFor? bound
    have leads : t.folded.get? (Text.fold e.1) = some e.1 := by
      rw [sameName_iff.1 same, h.get?_folded, found]
      rfl
    refine ⟨?_, ?_⟩
    · show (if _ then t.folded.drop _ else _) = (t.entries.drop e.1).map _
      rw [leads, if_pos BEq.rfl, Entries.drop, h.indexed, List.filter_map]
      refine congrArg _ (List.filter_congr fun f there => ?_)
      rw [h.beq_key there mem]
      rfl
    · exact h.once.sublist (List.filter_sublist.map _)

end Coherent

end Table
end HostScript
