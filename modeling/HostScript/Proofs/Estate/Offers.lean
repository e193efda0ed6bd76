import HostScript.Proofs.Dispatch.Faithful
import HostScript.Proofs.Estate.Fences

/-!
# Proofs/Estate/Offers — what is offered to the scripts of a runtime

Types and instances are offered in namespaces below the root of the global names of their runtime.  So a
runtime that is built leaves fences as they are, and touches no namespaces of an estate that its own root
is outside of (`Store.offers_buildRuntime`).
-/

namespace HostScript

variable {estate grounds : Cell → Prop}

/-! ## Making namespaces -/

namespace Heap

variable {h : Heap}

theorem Fenced.child (fenced : h.Fenced estate grounds) (id : NamespaceId) (name : String) :
    (h.child id name).2.Fenced estate grounds ∧
      (¬estate (.space id) → ∀ other, estate (.space other) →
        (h.child id name).2.space other = h.space other) ∧
      (¬grounds (.space id) → ∀ inner, (h.child id name).1 = some inner → ¬estate (.space inner)) := by
  unfold Heap.child
  split
  next bound =>
    exact ⟨fenced, fun _ _ _ => rfl, fun off _ same => Option.some.inj same ▸ fenced.get? off bound⟩
  next => exact ⟨fenced, fun _ _ _ => rfl, fun _ _ never => by cases never⟩
  next =>
    obtain ⟨fresh, leaves⟩ := fenced.newSpace
    refine ⟨leaves.fenced.binds id name fresh, fun away other own => ?_,
      fun _ _ same => Option.some.inj same ▸ fresh⟩
    exact (space_setSpace_of_own away own _ _).trans (leaves.same other own)

theorem Fenced.descend (fenced : h.Fenced estate grounds) {id : NamespaceId} (off : ¬grounds (.space id))
    (parts : List String) :
    (h.descend id parts).2.Fenced estate grounds ∧ (¬estate (.space id) →
      (∀ other, estate (.space other) → (h.descend id parts).2.space other = h.space other) ∧
        ∀ inner, (h.descend id parts).1 = some inner → ¬estate (.space inner)) := by
  induction parts generalizing h id with
  | nil => exact ⟨fenced, fun away => ⟨fun _ _ => rfl, fun _ same => Option.some.inj same ▸ away⟩⟩
  | cons part rest ih =>
    obtain ⟨kept, spared, found⟩ := fenced.child id part
    unfold Heap.descend
    cases entered : h.child id part with
    | mk inner? g =>
      rw [entered] at kept spared found
      cases inner? with
      | none => exact ⟨kept, fun away => ⟨spared away, fun _ never => by cases never⟩⟩
      | some inner =>
        have outside := found off inner rfl
        obtain ⟨last, deeper⟩ := ih kept (kept.off outside)
        obtain ⟨same, leads⟩ := deeper outside
        exact ⟨last, fun away => ⟨fun other own => (same other own).trans (spared away other own), leads⟩⟩

end Heap

/-! ## Offering types and instances -/

namespace Store

variable {s t u : Store} {rt : RuntimeId}

theorem onHeap_of_eq {α : Type} {f : Heap → α × Heap} {result : α} {h : Heap}
    (ran : f s.toHeap = (result, h)) : s.onHeap f = (result, { s with toHeap := h }) := by
  unfold Store.onHeap
  rw [ran]

/-- **What is done to offer something in a runtime**: fences stay, and so do the namespaces of an estate
that the global names of the runtime are outside of; the instances that the runtime gets are outside. -/
structure Offers (estate grounds : Cell → Prop) (rt : RuntimeId) (s t : Store) : Prop where
  fenced : t.toHeap.Fenced estate grounds
  globals : (t.runtime rt).globals = (s.runtime rt).globals
  same : ¬estate (.space (s.runtime rt).globals) → ∀ id, estate (.space id) → t.space id = s.space id
  instances : ∀ o ∈ (t.runtime rt).instances,
    o ∈ (s.runtime rt).instances ∨ ¬estate (.payload o.payload)

/-- Work on the heap alone. -/
theorem offers_onHeap {h : Heap} (fenced : h.Fenced estate grounds)
    (same : ¬estate (.space (s.runtime rt).globals) → ∀ id, estate (.space id) → h.space id = s.space id) :
    s.Offers estate grounds rt { s with toHeap := h } := ⟨fenced, rfl, same, fun _ => .inl⟩

theorem offers_refl (fenced : s.toHeap.Fenced estate grounds) : s.Offers estate grounds rt s :=
  offers_onHeap fenced fun _ _ _ => rfl

theorem Offers.trans (first : s.Offers estate grounds rt t) (second : t.Offers estate grounds rt u) :
    s.Offers estate grounds rt u := by
  refine ⟨second.fenced, second.globals.trans first.globals, fun away id own =>
    (second.same (first.globals.symm ▸ away) id own).trans (first.same away id own), fun o mem => ?_⟩
  rcases second.instances o mem with before | outside
  · exact first.instances o before
  · exact .inr outside

/-- Changing what the runtime has besides its globals. -/
theorem offers_changeRuntime (fenced : s.toHeap.Fenced estate grounds) {f : Runtime → Runtime}
    (globals : ∀ runtime : Runtime, (f runtime).globals = runtime.globals)
    (instances : ∀ runtime : Runtime, ∀ o ∈ (f runtime).instances,
      o ∈ runtime.instances ∨ ¬estate (.payload o.payload)) :
    s.Offers estate grounds rt (s.changeRuntime rt f) := by
  rcases s.runtime_changeRuntime rt rt f with same | ⟨-, same⟩
  · exact ⟨fenced, congrArg Runtime.globals same, fun _ _ _ => rfl, fun _ mem => .inl (same ▸ mem)⟩
  · exact ⟨fenced, same.symm ▸ globals _, fun _ _ _ => rfl, same.symm ▸ instances _⟩

/-- **Publishing a type.** -/
theorem offers_publish (fenced : s.toHeap.Fenced estate grounds)
    (off : ¬grounds (.space (s.runtime rt).globals)) (info : TypeInfo) :
    s.Offers estate grounds rt (s.publish rt info) := by
  unfold Store.publish
  dsimp only
  have listed : s.Offers estate grounds rt (s.changeRuntime rt fun runtime =>
      if info.primitive?.isSome && !(runtime.bound.any (·.id = info.id)) then
        { runtime with bound := runtime.bound ++ [info] }
      else runtime) := by
    refine offers_changeRuntime fenced (fun runtime => ?_) fun runtime o mem => .inl ?_
    · split <;> rfl
    · split at mem <;> exact mem
  refine listed.trans ?_
  generalize (s.changeRuntime rt _) = u at *
  rw [← listed.globals] at off
  obtain ⟨kept, spared⟩ := listed.fenced.descend off (Text.dottedParts info.fullName).dropLast
  cases entered : u.toHeap.descend (u.runtime rt).globals (Text.dottedParts info.fullName).dropLast with
  | mk inner? h =>
    rw [entered] at kept spared
    rw [onHeap_of_eq entered]
    cases inner? with
    | none => exact offers_onHeap kept fun away => (spared away).1
    | some inner =>
      have typed : (Value.type info).Outside estate := trivial
      refine offers_onHeap (kept.binds inner info.name typed) fun away id own => ?_
      obtain ⟨same, leads⟩ := spared away
      exact (Heap.space_setSpace_of_own (leads inner rfl) own _ _).trans (same id own)

/-- Binding names in a namespace outside. -/
theorem offers_binds (fenced : s.toHeap.Fenced estate grounds) {id : NamespaceId}
    (away : ¬estate (.space id)) (names : List String) {v : Value} (outside : v.Outside estate) :
    s.Offers estate grounds rt (names.foldl (fun s name => s.bind id name v) s) := by
  induction names generalizing s with
  | nil => exact offers_refl fenced
  | cons name rest ih =>
    have leaves := fenced.bind away name outside
    have first : s.Offers estate grounds rt (s.bind id name v) :=
      offers_onHeap leaves.fenced fun _ => leaves.same
    exact first.trans (ih leaves.fenced)

/-- **Injecting an instance** that is outside. -/
theorem offers_inject (fenced : s.toHeap.Fenced estate grounds)
    (off : ¬grounds (.space (s.runtime rt).globals)) (registry : Registry) {object : HostObject}
    (outside : ¬estate (.payload object.payload)) :
    s.Offers estate grounds rt (s.inject registry rt object) := by
  unfold Store.inject
  dsimp only
  obtain ⟨kept, spared, found⟩ := fenced.child (s.runtime rt).globals object.type.name
  cases entered : s.toHeap.child (s.runtime rt).globals object.type.name with
  | mk inner? h =>
    rw [entered] at kept spared found
    have first : s.Offers estate grounds rt { s with toHeap := h } := offers_onHeap kept spared
    have listed (u : Store) (fenced : u.toHeap.Fenced estate grounds) :
        u.Offers estate grounds rt (u.changeRuntime rt fun runtime =>
          { runtime with instances := runtime.instances ++ [object] }) := by
      refine offers_changeRuntime fenced (fun _ => rfl) fun runtime o mem => ?_
      rcases List.mem_append.1 mem with before | last
      · exact .inl before
      · exact .inr (List.mem_singleton.1 last ▸ outside)
    rw [onHeap_of_eq entered]
    cases inner? with
    | none => exact first.trans (listed _ kept)
    | some inner =>
      have own : (Value.object object).Outside estate := outside
      have bound : Offers estate grounds rt _ _ := offers_binds first.fenced (found off inner rfl)
        ((registry.type object.type).methods.map Method.name) own
      rw [List.foldl_map] at bound
      exact first.trans (bound.trans (listed _ bound.fenced))

/-- Offering one thing after another. -/
theorem offers_foldl {α : Type} {f : Store → α → Store} (xs : List α)
    (step : ∀ (u : Store), ∀ x ∈ xs, u.toHeap.Fenced estate grounds →
      ¬grounds (.space (u.runtime rt).globals) → u.Offers estate grounds rt (f u x))
    (fenced : s.toHeap.Fenced estate grounds) (off : ¬grounds (.space (s.runtime rt).globals)) :
    s.Offers estate grounds rt (xs.foldl f s) := by
  induction xs generalizing s with
  | nil => exact offers_refl fenced
  | cons x rest ih =>
    have first := step s x List.mem_cons_self fenced off
    exact first.trans (ih (fun u y mem => step u y (List.mem_cons_of_mem _ mem)) first.fenced
      (first.globals.symm ▸ off))

/-- **Building a runtime** leaves fences around what is there before it, and touches no namespaces of an
estate that its own are outside of; it gets no instances but those that it is given. -/
theorem offers_buildRuntime (s : Store) (registry : Registry) (libraries : List (List TypeInfo))
    (instances : List HostObject) (extension : String)
    (fenced : s.newSpace.2.toHeap.Fenced estate grounds) (off : ¬grounds (.space s.newSpace.1))
    (outside : ∀ o ∈ instances, ¬estate (.payload o.payload)) :
    (s.buildRuntime registry libraries instances extension).2.toHeap.Fenced estate grounds ∧
      ((s.buildRuntime registry libraries instances extension).2.runtime
        (s.buildRuntime registry libraries instances extension).1).globals = s.newSpace.1 ∧
      (¬estate (.space s.newSpace.1) → ∀ id, estate (.space id) →
        (s.buildRuntime registry libraries instances extension).2.space id = s.newSpace.2.space id) ∧
      ∀ o ∈ ((s.buildRuntime registry libraries instances extension).2.runtime
        (s.buildRuntime registry libraries instances extension).1).instances,
          ¬estate (.payload o.payload) := by
  unfold Store.buildRuntime
  dsimp only
  generalize String.ofList (extension.toList.dropWhile (· == '.')) = ending
  have added : (s.newSpace.2.newRuntime ⟨s.newSpace.1, [], [], ending, .empty, true⟩).2.toHeap.Fenced
      estate grounds := fenced
  have made_so : (s.newSpace.2.newRuntime ⟨s.newSpace.1, [], [], ending, .empty, true⟩).2.runtime
      (s.newSpace.2.newRuntime ⟨s.newSpace.1, [], [], ending, .empty, true⟩).1 =
        ⟨s.newSpace.1, [], [], ending, .empty, true⟩ := by
    show (s.newSpace.2.runtimes.push _)[s.newSpace.2.runtimes.size]?.getD default = _
    rw [Array.getElem?_push_size]
    rfl
  have same (id : NamespaceId) :
      (s.newSpace.2.newRuntime ⟨s.newSpace.1, [], [], ending, .empty, true⟩).2.space id =
        s.newSpace.2.space id := rfl
  generalize s.newSpace.2.newRuntime ⟨s.newSpace.1, [], [], ending, .empty, true⟩ = made at *
  obtain ⟨rt, u⟩ := made
  have own : (u.runtime rt).globals = s.newSpace.1 := congrArg Runtime.globals made_so
  have none : (u.runtime rt).instances = [] := congrArg Runtime.instances made_so
  have types : u.Offers estate grounds rt (libraries.flatten.foldl (fun s info => s.publish rt info) u) :=
    offers_foldl _ (fun _ info _ fenced off => offers_publish fenced off info) added (own.symm ▸ off)
  have objects := offers_foldl instances
    (fun _ o mem fenced off => offers_inject fenced off registry (outside o mem)) types.fenced
    (types.globals.symm ▸ own.symm ▸ off)
  have offers := types.trans objects
  refine ⟨offers.fenced, offers.globals.trans own, fun away id mine =>
    (offers.same (own.symm ▸ away) id mine).trans (same id), fun o mem => ?_⟩
  rcases offers.instances o mem with before | away
  · exact absurd (none ▸ before) List.not_mem_nil
  · exact away

end Store

end HostScript
