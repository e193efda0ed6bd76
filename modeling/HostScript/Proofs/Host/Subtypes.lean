import HostScript.Proofs.Dispatch.Answers
import HostScript.Proofs.Dispatch.BareCalls
import Mathlib.Logic.Relation
import Mathlib.Order.Defs.Unbundled

/-!
# Proofs/Host/Subtypes — subtypes are what the declarations say

A type declares its parents while it is described, in any order and as often as it likes; it is given a
copy of all that they are subtypes of at that time, and to be a subtype is to be found in that copy.  The
copies are complete (`Family.Flattened`): parents have been registered before their children, so nothing
can be added to what has been copied, and a chain of parents leads to ever lower places (`below_lt`).
Hence the subtypes of a type are the types that are `Below` it, and parameters take them along that order
(`subtypes_follow_declarations`).
-/

namespace HostScript

/-! ## Families of types -/

/-- **How parents are declared**: what a draft has declared, in order, of types that are known.  Nothing
else that is said of a type makes a difference. -/
inductive TypeDraft.Declares (known : List TypeInfo) : TypeDraft → List TypeInfo → Prop where
  | named (fullName : String) : Declares known (.named fullName) []
  | supertype {d : TypeDraft} {parents : List TypeInfo} {p : TypeInfo} :
    Declares known d parents → p ∈ known → Declares known (d.supertype p) (parents ++ [p])
  | describing {d : TypeDraft} {parents : List TypeInfo} (kind : Primitive) :
    Declares known d parents → Declares known (d.describing kind) parents
  | method {d : TypeDraft} {parents : List TypeInfo} (m : Method) :
    Declares known d parents → Declares known (d.method m) parents
  | property {d : TypeDraft} {parents : List TypeInfo} (p : Property) :
    Declares known d parents → Declares known (d.property p) parents
  | constructor {d : TypeDraft} {parents : List TypeInfo} (c : Constructor) :
    Declares known d parents → Declares known (d.constructor c) parents
  | indexer {d : TypeDraft} {parents : List TypeInfo} (i : Indexer) :
    Declares known d parents → Declares known (d.indexer i) parents

/-- Types, each with the parents that it has declared, in order. -/
abbrev Family := List (TypeInfo × List TypeInfo)

namespace Family

/-- The types of a family. -/
def types (family : Family) : List TypeInfo := family.map Prod.fst

/-- One type has declared another one as a parent. -/
def Parent (family : Family) (t p : TypeInfo) : Prop := ∃ parents, (t, parents) ∈ family ∧ p ∈ parents

/-- **The order of a family**: parents lead from one type to the other. -/
def Below (family : Family) : TypeInfo → TypeInfo → Prop := Relation.ReflTransGen family.Parent

/-- **Families that can be registered**: each type after the parents that it declares. -/
inductive Registered : Family → Registry → Prop where
  | start : Registered [(metaInfo, [])] .initial
  | register {family : Family} {registry : Registry} {d : TypeDraft} {parents : List TypeInfo} :
    Registered family registry → d.Declares family.types parents →
      Registered (family ++ [((registry.register d).1, parents)]) (registry.register d).2

/-- **What a parameter takes**, where the types of instances are those of a family: what is asked for is an
instance of a type that is below the one of the parameter, or something else than an instance. -/
def Takes (family : Family) (p : Param) (v : Value) : Prop :=
  p.out = false ∧
    ((∃ u ∈ family.types, p.type = .host u.id ∧ ∃ o : HostObject, v = .object o ∧ family.Below o.type u) ∨
      (∀ id, p.type ≠ .host id) ∧ p.type.accepts v = true)

/-- A value that is no instance of a type beyond the family. -/
def Knows (family : Family) (v : Value) : Prop := ∀ o : HostObject, v = .object o → o.type ∈ family.types

end Family

/-! ## Copies are complete -/

theorem TypeInfo.isSubtypeOf_iff {t : TypeInfo} {id : TypeId} :
    t.isSubtypeOf id = true ↔ t.id = id ∨ id ∈ t.ancestors := by
  unfold isSubtypeOf
  rw [Bool.or_eq_true, decide_eq_true_eq, List.contains_iff_mem]

namespace TypeDraft.Declares

variable {known : List TypeInfo} {d : TypeDraft} {parents : List TypeInfo}

/-- A draft copies each parent and what the parent has copied. -/
theorem ancestors_eq (h : d.Declares known parents) :
    d.ancestors = parents.flatMap fun p => p.id :: p.ancestors := by
  induction h with
  | named => rfl
  | @supertype d parents p _ _ ih =>
    rw [List.flatMap_append, List.flatMap_singleton, ← ih]
    rfl
  | describing _ _ ih => exact ih
  | method _ _ ih => exact ih
  | property _ _ ih => exact ih
  | constructor _ _ ih => exact ih
  | indexer _ _ ih => exact ih

theorem known_of_mem (h : d.Declares known parents) {p : TypeInfo} (mem : p ∈ parents) : p ∈ known := by
  induction h with
  | named => cases mem
  | supertype _ there ih =>
    rcases List.mem_append.1 mem with earlier | last
    · exact ih earlier
    · exact List.mem_singleton.1 last ▸ there
  | describing _ _ ih => exact ih mem
  | method _ _ ih => exact ih mem
  | property _ _ ih => exact ih mem
  | constructor _ _ ih => exact ih mem
  | indexer _ _ ih => exact ih mem

end TypeDraft.Declares

namespace Family

/-- **A family whose copies are complete**: types have their places for identities, each has copied its
parents with what these have copied, and parents have lower places. -/
structure Flattened (family : Family) (registry : Registry) : Prop where
  size : registry.types.size = family.length
  placed (i : ℕ) (t : TypeInfo) (parents : List TypeInfo) :
    family[i]? = some (t, parents) → t.id.index = i
  ancestors (t : TypeInfo) (parents : List TypeInfo) :
    (t, parents) ∈ family → t.ancestors = parents.flatMap fun p => p.id :: p.ancestors
  earlier (t p : TypeInfo) : family.Parent t p → p ∈ family.types ∧ p.id.index < t.id.index
  /-- The type of types is a member, as the first one. -/
  handles : registry.type metaInfo = metaDraft.described metaInfo
  started : 0 < registry.types.size

variable {family : Family} {registry : Registry} {t u : TypeInfo} {parents : List TypeInfo}

theorem mem_types : t ∈ family.types ↔ ∃ parents, (t, parents) ∈ family := by
  unfold types
  rw [List.mem_map]
  exact ⟨fun ⟨(_, parents), mem, same⟩ => ⟨parents, same ▸ mem⟩, fun ⟨parents, mem⟩ => ⟨_, mem, rfl⟩⟩

theorem Flattened.index_lt (flat : family.Flattened registry) (mem : t ∈ family.types) :
    t.id.index < family.length := by
  obtain ⟨parents, mem⟩ := mem_types.1 mem
  obtain ⟨i, there⟩ := List.getElem?_of_mem mem
  rw [flat.placed i t parents there]
  exact (List.getElem?_eq_some_iff.1 there).1

/-- A type of a family is known by its identity, and so are its parents. -/
theorem Flattened.eq_of_id {others : List TypeInfo} (flat : family.Flattened registry)
    (first : (t, parents) ∈ family) (second : (u, others) ∈ family) (same : t.id = u.id) :
    t = u ∧ parents = others := by
  obtain ⟨i, there⟩ := List.getElem?_of_mem first
  obtain ⟨j, here⟩ := List.getElem?_of_mem second
  have place : i = j := by
    rw [← flat.placed i t parents there, ← flat.placed j u others here, same]
  exact Prod.mk.inj (Option.some.inj (there.symm.trans (place ▸ here)))

theorem flattened_start : Flattened [(metaInfo, [])] .initial where
  size := rfl
  placed i t parents there := by
    obtain ⟨within, same⟩ := List.getElem?_eq_some_iff.1 there
    obtain rfl := Nat.lt_one_iff.1 within
    rw [← (Prod.mk.inj same).1]
    rfl
  ancestors t parents mem := by
    obtain ⟨rfl, rfl⟩ := Prod.mk.inj (List.mem_singleton.1 mem)
    rfl
  earlier t p := by
    rintro ⟨parents, mem, parent⟩
    obtain ⟨-, rfl⟩ := Prod.mk.inj (List.mem_singleton.1 mem)
    cases parent
  handles := Registry.type_register _ metaDraft
  started := Nat.one_pos

/-- **Registering a type keeps the copies complete.** -/
theorem Flattened.register {d : TypeDraft} (flat : family.Flattened registry)
    (declared : d.Declares family.types parents) :
    Flattened (family ++ [((registry.register d).1, parents)]) (registry.register d).2 := by
  have place : (registry.register d).1.id.index = family.length := flat.size
  have cases_mem {t : TypeInfo} {others : List TypeInfo}
      (mem : (t, others) ∈ family ++ [((registry.register d).1, parents)]) :
      (t, others) ∈ family ∨ t = (registry.register d).1 ∧ others = parents :=
    (List.mem_append.1 mem).imp_right fun last => Prod.mk.inj (List.mem_singleton.1 last)
  have kept {t : TypeInfo} (mem : t ∈ family.types) :
      t ∈ types (family ++ [((registry.register d).1, parents)]) := by
    obtain ⟨others, mem⟩ := mem_types.1 mem
    exact mem_types.2 ⟨others, List.mem_append_left _ mem⟩
  refine ⟨?_, ?_, ?_, ?_, ?_, ?_⟩
  · rw [List.length_append, ← flat.size]
    exact Array.size_push _
  · intro i t others there
    rcases Nat.lt_or_ge i family.length with inside | beyond
    · rw [List.getElem?_append_left inside] at there
      exact flat.placed i t others there
    · rw [List.getElem?_append_right beyond] at there
      obtain ⟨last, same⟩ := List.getElem?_eq_some_iff.1 there
      have single : i - family.length < 1 := last
      obtain rfl : i = family.length := by omega
      simp only [Nat.sub_self, List.getElem_cons_zero] at same
      rw [← (Prod.mk.inj same).1]
      exact place
  · intro t others mem
    rcases cases_mem mem with earlier | ⟨rfl, rfl⟩
    · exact flat.ancestors t others earlier
    · exact declared.ancestors_eq
  · rintro t p ⟨others, mem, parent⟩
    rcases cases_mem mem with earlier | ⟨rfl, rfl⟩
    · obtain ⟨there, less⟩ := flat.earlier t p ⟨others, earlier, parent⟩
      exact ⟨kept there, less⟩
    · have there := declared.known_of_mem parent
      exact ⟨kept there, place ▸ flat.index_lt there⟩
  · exact (Registry.type_register_of_lt flat.started d).trans flat.handles
  · exact Nat.lt_of_lt_of_eq (Nat.succ_pos _) (Array.size_push _).symm

/-- **In every family that can be registered the copies are complete.** -/
theorem Registered.flattened (h : Registered family registry) : family.Flattened registry := by
  induction h with
  | start => exact flattened_start
  | register _ declared ih => exact ih.register declared

/-! ## The order of a family -/

/-- **A subtype is the type itself or a subtype of a parent.** -/
theorem Flattened.isSubtypeOf_iff (flat : family.Flattened registry) (mem : (t, parents) ∈ family)
    (id : TypeId) : t.isSubtypeOf id = true ↔ t.id = id ∨ ∃ p ∈ parents, p.isSubtypeOf id = true := by
  rw [TypeInfo.isSubtypeOf_iff, flat.ancestors t parents mem, List.mem_flatMap]
  refine or_congr_right (exists_congr fun p => and_congr_right fun _ => ?_)
  rw [TypeInfo.isSubtypeOf_iff, List.mem_cons, eq_comm]

/-- What is below a type of a family is the type itself or has a higher place. -/
theorem Flattened.below_lt (flat : family.Flattened registry) (below : family.Below t u) :
    t = u ∨ u.id.index < t.id.index := by
  induction below with
  | refl => exact .inl rfl
  | tail _ parent ih =>
    have less := (flat.earlier _ _ parent).2
    rcases ih with rfl | lower
    · exact .inr less
    · exact .inr (less.trans lower)

/-- **Subtypes are what is below**, by induction on the place of the lower type: it has copied what its
parents are subtypes of. -/
theorem Flattened.isSubtypeOf_iff_below (flat : family.Flattened registry) (t : TypeInfo)
    (known : t ∈ family.types) (id : TypeId) :
    t.isSubtypeOf id = true ↔ ∃ u ∈ family.types, u.id = id ∧ family.Below t u := by
  obtain ⟨parents, mem⟩ := mem_types.1 known
  rw [flat.isSubtypeOf_iff mem]
  have climbs (p : TypeInfo) (parent : p ∈ parents) :
      p.isSubtypeOf id = true ↔ ∃ u ∈ family.types, u.id = id ∧ family.Below p u :=
    have less := (flat.earlier t p ⟨parents, mem, parent⟩).2
    flat.isSubtypeOf_iff_below p (flat.earlier t p ⟨parents, mem, parent⟩).1 id
  constructor
  · rintro (own | ⟨p, parent, subtype⟩)
    · exact ⟨t, known, own, .refl⟩
    · obtain ⟨u, there, same, below⟩ := (climbs p parent).1 subtype
      exact ⟨u, there, same, .head ⟨parents, mem, parent⟩ below⟩
  · rintro ⟨u, there, rfl, below⟩
    rcases Relation.ReflTransGen.cases_head below with rfl | ⟨p, ⟨others, entry, parent⟩, rest⟩
    · exact .inl rfl
    · obtain rfl := (flat.eq_of_id mem entry rfl).2
      exact .inr ⟨p, parent, (climbs p parent).2 ⟨u, there, rfl, rest⟩⟩
termination_by t.id.index

theorem Flattened.isSubtypeOf_id_iff (flat : family.Flattened registry) (known : t ∈ family.types)
    (there : u ∈ family.types) : t.isSubtypeOf u.id = true ↔ family.Below t u := by
  rw [flat.isSubtypeOf_iff_below t known]
  constructor
  · rintro ⟨other, mem, same, below⟩
    obtain ⟨parents, first⟩ := mem_types.1 mem
    obtain ⟨others, second⟩ := mem_types.1 there
    exact (flat.eq_of_id first second same).1 ▸ below
  · exact fun below => ⟨u, there, rfl, below⟩

/-! ## Parameters -/

/-- **What an instance is asked for takes** is an instance of a type below. -/
theorem Flattened.takes_iff (flat : family.Flattened registry) {p : Param} {v : Value}
    (knows : family.Knows v) : p.out = false ∧ p.type.accepts v = true ↔ family.Takes p v := by
  refine and_congr_right fun _ => ?_
  constructor
  · intro accepted
    by_cases other : ∀ id, p.type ≠ .host id
    · exact .inr ⟨other, accepted⟩
    obtain ⟨id, same⟩ := not_forall_not.1 other
    rw [same] at accepted
    cases v with
    | object o =>
      obtain ⟨u, there, rfl, below⟩ := (flat.isSubtypeOf_iff_below o.type (knows o rfl) id).1 accepted
      exact .inl ⟨u, there, same, o, rfl, below⟩
    | _ => cases accepted
  · rintro (⟨u, there, same, o, rfl, below⟩ | ⟨-, accepted⟩)
    · rw [same]
      exact (flat.isSubtypeOf_id_iff (knows o rfl) there).2 below
    · exact accepted

theorem Flattened.forall₂_takes_iff (flat : family.Flattened registry) {params : List Param}
    {args : List Value} (knows : ∀ v ∈ args, family.Knows v) :
    List.Forall₂ (fun p v => p.out = false ∧ p.type.accepts v = true) params args ↔
      List.Forall₂ family.Takes params args := by
  rw [List.forall₂_iff_zip, List.forall₂_iff_zip]
  refine and_congr_right fun _ => forall₂_congr fun p v => forall_congr' fun mem => ?_
  exact flat.takes_iff (knows v (List.of_mem_zip mem).2)

end Family

/-! ## Operations -/

/-- The constructor that is called is the first that takes the arguments. -/
theorem Surface.choose_createInstance_iff {offer : Surface} {t : TypeInfo} {args : List Value}
    {index : ℕ} : offer.choose (.createInstance args.length) (.type t :: args) = .construct t index ↔
      IsLeast {i | ∃ c, (offer.registry.type t).constructors[i]? = some c ∧
        Params.accept c.params args = true} index := by
  show offer.createInstance (.type t) args = _ ↔ _
  unfold createInstance
  dsimp only
  split
  next i found =>
    have least := isLeast_findIdx? found
    exact ⟨fun same => (Action.construct.inj same).2 ▸ least, fun other => by rw [least.unique other]⟩
  next none =>
    have empty := findIdx?_eq_none_iff_empty.1 none
    exact ⟨nofun, fun least => absurd least.1 (empty ▸ Set.notMem_empty _)⟩

namespace Store

variable {s : Store} {registry : Registry} {rt : RuntimeId} {module : NamespaceId} {t u : TypeInfo}

/-- **A handle says whether another type is a subtype**, if its type has no static method that is called
instead. -/
theorem answers_isAssignableFrom (handles : registry.type metaInfo = metaDraft.described metaInfo)
    (free : ((s.runtime rt).surface registry).callable "IsAssignableFrom" [.type t] (u, .static) = ∅) :
    s.Answers registry rt module (.invokeMember "IsAssignableFrom" 1) [.type u, .type t]
      (.ok (.bool (t.isSubtypeOf u.id))) := by
  have first : ∀ source ∈ [(u, Receiver.static)],
      ((s.runtime rt).surface registry).callable "IsAssignableFrom" [.type t] source = ∅ :=
    List.forall_mem_singleton.2 free
  exact answers_call_after (m := metaDraft.methods[0]) nofun rfl first handles rfl rfl rfl

end Store

/-- **A family whose declarations decide** about everything that depends on subtypes. -/
structure Family.Governs (family : Family) (registry : Registry) : Prop where
  /-- To be a subtype is to be below. -/
  subtypes : ∀ t ∈ family.types, ∀ u ∈ family.types, t.isSubtypeOf u.id = true ↔ family.Below t u
  order : IsPartialOrder {t // t ∈ family.types} fun t u => t.1.isSubtypeOf u.1.id = true
  /-- The type of types has a method that says of two handles whether one is below the other. -/
  assignable : ∃ m ∈ (registry.type metaInfo).methods, m.name = "IsAssignableFrom" ∧ m.isStatic = false ∧
    m.params = [.ofType .typeOf] ∧ ∀ t ∈ family.types, ∀ u ∈ family.types,
      ∃ answer : Bool, (answer = true ↔ family.Below t u) ∧
        ∀ h, m.run (some (.type u)) [.type t] h = (.value (.bool answer), h)
  /-- This is what is called on a handle, unless a static method of its own type is. -/
  handles (s : Store) (rt : RuntimeId) (module : NamespaceId) : ∀ t ∈ family.types, ∀ u ∈ family.types,
    ((s.runtime rt).surface registry).callable "IsAssignableFrom" [.type t] (u, .static) = ∅ →
      ∃ answer : Bool, (answer = true ↔ family.Below t u) ∧
        s.Answers registry rt module (.invokeMember "IsAssignableFrom" 1) [.type u, .type t]
          (.ok (.bool answer))
  /-- The method that is called is the best that takes the arguments along the order. -/
  methods (s : Store) (rt : RuntimeId) (written : String) (v : Value) (args : List Value)
    (type : TypeInfo) (index : ℕ) (receiver : Receiver) : s.Faithful registry → (∀ id, v ≠ .space id) →
      (∀ a ∈ args, family.Knows a) →
        ((s.decide registry rt (.invokeMember written args.length) (v :: args)).1 =
            .invokeMethod type index receiver ↔
          FirstBest (fun source => contenders Method.name (registry.type source.1).methods written fun m =>
              Surface.Fitting source m.isStatic ∧ List.Forall₂ family.Takes m.params args)
            (((s.runtime rt).surface registry).memberSources v) (type, receiver) index)
  /-- The constructor that is called is the first that takes the arguments along the order. -/
  constructors (s : Store) (rt : RuntimeId) (t : TypeInfo) (args : List Value) (index : ℕ) :
    s.Faithful registry → (∀ a ∈ args, family.Knows a) →
      ((s.decide registry rt (.createInstance args.length) (.type t :: args)).1 = .construct t index ↔
        IsLeast {i | ∃ c, (registry.type t).constructors[i]? = some c ∧
          List.Forall₂ family.Takes c.params args} index)
  /-- A method of an injected instance that is called by its name alone takes the same, and integers for
  floats. -/
  bare (params : List Param) (args : List Value) : (∀ a ∈ args, family.Knows a) →
    (Widens params args ↔ List.Forall₂ (fun p v => family.Takes p v ∨
      p.out = false ∧ p.type = .float ∧ ∃ n : Int64, v = .int n) params args)

/-- **Subtypes follow declarations.**  In every family of types that is registered, each type with any
number of parents that have been registered before it, declared in any order and as often as one likes, a
type is a subtype of another just if declarations lead from one to the other; this is a partial order, which
the type handles answer for and along which methods and constructors take instances. -/
theorem subtypes_follow_declarations {family : Family} {registry : Registry}
    (registered : family.Registered registry) : family.Governs registry := by
  have flat := registered.flattened
  have follows {t u : TypeInfo} (known : t ∈ family.types) (there : u ∈ family.types) :=
    flat.isSubtypeOf_id_iff known there
  constructor
  case subtypes => exact fun t known u there => follows known there
  case order =>
    refine { refl := fun t => (follows t.2 t.2).2 .refl, trans := fun t u v first second => ?_,
             antisymm := fun t u first second => Subtype.ext ?_ }
    · exact (follows t.2 v.2).2 (((follows t.2 u.2).1 first).trans ((follows u.2 v.2).1 second))
    · rcases flat.below_lt ((follows t.2 u.2).1 first) with same | lower
      · exact same
      · rcases flat.below_lt ((follows u.2 t.2).1 second) with same | higher
        · exact same.symm
        · exact absurd (lower.trans higher) (Nat.lt_irrefl _)
  case assignable =>
    rw [flat.handles]
    exact ⟨_, List.mem_cons_self, rfl, rfl, rfl, fun t known u there => ⟨_, follows known there, fun _ => rfl⟩⟩
  case handles =>
    intro s rt module t known u there free
    exact ⟨_, follows known there, Store.answers_isAssignableFrom flat.handles free⟩
  case methods =>
    intro s rt written v args type index receiver faithful plain knows
    rw [(faithful.decide rt _ _).1, (Surface.inOrder plain).call type index receiver]
    unfold Surface.callable
    simp only [flat.forall₂_takes_iff knows]
    rfl
  case constructors =>
    intro s rt t args index faithful knows
    rw [(faithful.decide rt _ _).1, Surface.choose_createInstance_iff]
    simp only [Params.accept_iff, flat.forall₂_takes_iff knows]
    rfl
  case bare =>
    intro params args knows
    unfold Widens
    rw [List.forall₂_iff_zip, List.forall₂_iff_zip]
    refine and_congr_right fun _ => forall₂_congr fun p v => forall_congr' fun mem => ?_
    rw [and_or_left, flat.takes_iff (knows v (List.of_mem_zip mem).2)]

/-! ## A diamond -/

/-- A type without parents. -/
def diamondTop : TypeInfo × Registry := Registry.initial.register (.named "Top")

/-- A type with one parent. -/
def diamondLeft : TypeInfo × Registry :=
  diamondTop.2.register ((TypeDraft.named "Left").supertype diamondTop.1)

/-- A type that declares its parent twice and is made of an instance of it. -/
def diamondRight : TypeInfo × Registry :=
  diamondLeft.2.register <| ((TypeDraft.named "Right").supertype diamondTop.1)
    |>.constructor (.ofValue [.ofType (.host diamondTop.1.id)] fun _ => .pure (.value .null))
    |>.supertype diamondTop.1

/-- A type with two parents that have a common one. -/
def diamondBottom : TypeInfo × Registry :=
  diamondRight.2.register (((TypeDraft.named "Bottom").supertype diamondRight.1).supertype diamondLeft.1)

/-- The four types and the type of types. -/
def diamond : Family :=
  [(metaInfo, []), (diamondTop.1, []), (diamondLeft.1, [diamondTop.1]),
    (diamondRight.1, [diamondTop.1, diamondTop.1]), (diamondBottom.1, [diamondRight.1, diamondLeft.1])]

/-- The top of the diamond is assignable from the bottom, and not the other way round, and an instance of the
bottom is taken where one of the top is asked for. -/
theorem subtypes_follow_declarations_diamond :
    diamond.Registered diamondBottom.2 ∧ diamond.Governs diamondBottom.2 ∧
      Store.empty.Answers diamondBottom.2 ⟨0⟩ ⟨0⟩ (.invokeMember "IsAssignableFrom" 1)
        [.type diamondTop.1, .type diamondBottom.1] (.ok (.bool true)) ∧
      Store.empty.Answers diamondBottom.2 ⟨0⟩ ⟨0⟩ (.invokeMember "IsAssignableFrom" 1)
        [.type diamondBottom.1, .type diamondTop.1] (.ok (.bool false)) ∧
      (Store.empty.decide diamondBottom.2 ⟨0⟩ (.createInstance 1)
        [.type diamondRight.1, .object ⟨diamondBottom.1, ⟨0⟩⟩]).1 = .construct diamondRight.1 0 := by
  have registered : diamond.Registered diamondBottom.2 := by
    refine .register (.register (.register (.register .start (.named "Top")) ?_) ?_) ?_
    · exact .supertype (.named "Left") (List.mem_of_getElem? (i := 1) rfl)
    · refine .supertype (.constructor _ (.supertype (.named "Right") ?_)) ?_ <;>
        exact List.mem_of_getElem? (i := 1) rfl
    · refine .supertype (.supertype (.named "Bottom") ?_) ?_
      · exact List.mem_of_getElem? (i := 3) rfl
      · exact List.mem_of_getElem? (i := 2) rfl
  have governs := subtypes_follow_declarations registered
  have top : diamondTop.1 ∈ diamond.types := List.mem_of_getElem? (i := 1) rfl
  have bottom : diamondBottom.1 ∈ diamond.types := List.mem_of_getElem? (i := 4) rfl
  have below : diamond.Below diamondBottom.1 diamondTop.1 :=
    (governs.subtypes _ bottom _ top).1 (by decide)
  have above : ¬diamond.Below diamondTop.1 diamondBottom.1 := fun lower =>
    absurd ((governs.subtypes _ top _ bottom).2 lower) (by decide)
  have free (t : TypeInfo) (args : List Value) (plain : (diamondBottom.2.type t).methods = []) :
      ((Store.empty.runtime ⟨0⟩).surface diamondBottom.2).callable "IsAssignableFrom" args (t, .static) =
        ∅ := by
    refine Set.eq_empty_iff_forall_notMem.2 ?_
    rintro k ⟨m, there, -⟩
    have gone : (diamondBottom.2.type t).methods[(ofLex k).2]? = some m := there
    rw [plain, List.getElem?_nil] at gone
    cases gone
  refine ⟨registered, governs, ?_, ?_, ?_⟩
  · obtain ⟨answer, sound, answers⟩ := governs.handles .empty ⟨0⟩ ⟨0⟩ _ bottom _ top (free _ _ rfl)
    exact sound.2 below ▸ answers
  · obtain ⟨answer, sound, answers⟩ := governs.handles .empty ⟨0⟩ ⟨0⟩ _ top _ bottom (free _ _ rfl)
    exact (Bool.eq_false_iff.2 fun yes => above (sound.1 yes)) ▸ answers
  · refine (governs.constructors .empty ⟨0⟩ _ [_] 0 Store.faithful_empty ?_).2 ?_
    · rintro a mem o rfl
      cases List.mem_singleton.1 mem
      exact bottom
    · have takes : diamond.Takes (.ofType (.host diamondTop.1.id)) (.object ⟨diamondBottom.1, ⟨0⟩⟩) :=
        ⟨rfl, .inl ⟨_, top, rfl, _, rfl, below⟩⟩
      exact ⟨⟨_, rfl, .cons takes .nil⟩, fun i _ => Nat.zero_le i⟩

end HostScript
