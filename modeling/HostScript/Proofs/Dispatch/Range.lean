import HostScript.Dispatch.Choice

/-!
# Proofs/Dispatch/Range — a choice names members that are there

An action carries the place of a member in the member list of a type.  `inRange_choose` says that
every place an action is chosen with is one of that list.
-/

namespace HostScript

/-- Whether the members that an action names are there. -/
def Action.InRange (registry : Registry) : Action → Prop
  | getProperty type index _ | setProperty type index =>
    index < (registry.type type).properties.length
  | invokeMethod type index _ => index < (registry.type type).methods.length
  | callNamed (some bound) => bound.index < (registry.type bound.holder.type).methods.length
  | construct type index => index < (registry.type type).constructors.length
  | getIndexer type | setIndexer type => (registry.type type).indexer?.isSome
  | _ => True

theorem lt_of_mem_membersNamed {α : Type} {nameOf : α → String} {members : List α}
    {written : String} {m : α × Nat} (h : m ∈ membersNamed nameOf members written) :
    m.2 < members.length := by
  obtain ⟨spelling, -, hit⟩ := List.mem_flatMap.1 h
  exact List.snd_lt_of_mem_zipIdx (List.mem_filter.1 hit).1

namespace Surface

variable {offer : Surface} {written : String}

theorem of_findInSources {α : Type} {find : TypeInfo × Receiver → Option α}
    {sources : List (TypeInfo × Receiver)} {source : TypeInfo × Receiver} {found : α}
    (h : findInSources find sources = some (source, found)) : find source = some found := by
  induction sources with
  | nil => cases h
  | cons first rest ih =>
    rw [findInSources] at h
    cases here : find first with
    | none => exact ih (by rwa [here] at h)
    | some other =>
      rw [here] at h
      obtain ⟨rfl, rfl⟩ := Prod.mk.inj (Option.some.inj h)
      exact here

theorem lt_of_property? {source : TypeInfo × Receiver} {p : Property × Nat}
    (h : offer.property? written source = some p) :
    p.2 < (offer.registry.type source.1).properties.length :=
  lt_of_mem_membersNamed (List.mem_of_find?_eq_some h)

theorem lt_of_mem_methodsNamed {source : TypeInfo × Receiver} {m : Method × Nat}
    (h : m ∈ offer.methodsNamed written source) :
    m.2 < (offer.registry.type source.1).methods.length :=
  lt_of_mem_membersNamed (List.mem_filter.1 h).1

theorem inRange_getMember (v : Value) : (offer.getMember written v).InRange offer.registry := by
  unfold getMember
  split
  · trivial
  · split
    next found => exact lt_of_property? (of_findInSources found)
    next => trivial

theorem inRange_setMember (v : Value) : (offer.setMember written v).InRange offer.registry := by
  unfold setMember
  split
  · trivial
  · split
    next found =>
      split
      · trivial
      · exact lt_of_property? (of_findInSources found)
    next => trivial

theorem inRange_invokeMember (v : Value) (args : List Value) :
    (offer.invokeMember written v args).InRange offer.registry := by
  unfold invokeMember
  split
  · trivial
  · dsimp only
    split
    next found => exact lt_of_mem_methodsNamed (List.mem_of_find?_eq_some (of_findInSources found))
    next => split <;> trivial

theorem inRange_createInstance (v : Value) (args : List Value) :
    (offer.createInstance v args).InRange offer.registry := by
  unfold createInstance
  split
  · split
    next found => exact (List.findIdx?_eq_some_iff_getElem.1 found).1
    next => trivial
  · trivial

theorem isSome_of_indexerType? {v : Value} {type : TypeInfo}
    (h : offer.indexerType? v = some type) : (offer.registry.type type).indexer?.isSome := by
  unfold indexerType? at h
  dsimp only at h
  split at h
  · split at h
    next indexed => exact Option.some.inj h ▸ indexed
    next => cases h
  · obtain ⟨kind, -, found⟩ := Option.bind_eq_some_iff.1 h
    have both := List.find?_some found
    exact (Bool.and_eq_true_iff.1 both).2

theorem inRange_getIndex (v : Value) (args : List Value) :
    (offer.getIndex v args).InRange offer.registry := by
  unfold getIndex
  split
  · trivial
  · trivial
  · trivial
  · split
    next found => exact isSome_of_indexerType? found
    next => trivial

theorem inRange_setIndex (v : Value) (args : List Value) :
    (offer.setIndex v args).InRange offer.registry := by
  unfold setIndex
  split
  · trivial
  · trivial
  · split
    next found => exact isSome_of_indexerType? found
    next => trivial

theorem lt_of_boundMethod? {args : List Value} {object : HostObject} {bound : BoundMethod}
    (h : offer.boundMethod? written args object = some bound) :
    bound.index < (offer.registry.type bound.holder.type).methods.length := by
  obtain ⟨index, found, rfl⟩ := Option.map_eq_some_iff.1 h
  rw [Option.or_eq_some_iff, Option.or_eq_some_iff] at found
  rcases found with (hit | ⟨-, hit⟩) | ⟨-, hit⟩ <;>
    exact (List.findIdx?_eq_some_iff_getElem.1 hit).1

theorem inRange_callNamed (args : List Value) :
    (Action.callNamed (offer.calledMethod? written args)).InRange offer.registry := by
  cases found : offer.calledMethod? written args with
  | none => trivial
  | some bound =>
    obtain ⟨object, -, here⟩ := List.exists_of_findSome?_eq_some found
    exact lt_of_boundMethod? here

/-- **Every member that a choice names is there.** -/
theorem inRange_choose (offer : Surface) (signature : Signature) (args : List Value) :
    (offer.choose signature args).InRange offer.registry := by
  unfold choose
  cases signature.operation with
  | getMember => exact inRange_getMember _
  | setMember => exact inRange_setMember _
  | lookup => trivial
  | invoke => dsimp only; split <;> trivial
  | invokeMember => exact inRange_invokeMember _ _
  | call => exact inRange_callNamed _
  | getIndex => exact inRange_getIndex _ _
  | setIndex => exact inRange_setIndex _ _
  | binary => dsimp only; split <;> trivial
  | unary => dsimp only; split <;> trivial
  | createInstance => exact inRange_createInstance _ _

end Surface

end HostScript
