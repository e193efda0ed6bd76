import HostScript.Proofs.Estate.Apart
import HostScript.Proofs.Estate.Offers
import HostScript.Proofs.Host.Published
import HostScript.Proofs.Machine.Sound

/-!
# Proofs/Estate/Built — runtimes that have just been built

What a runtime offers is put into a tree of namespaces that are made for it (`Store.rooted_buildRuntime`).
So a runtime that is built beside another one is apart from it, unless it is given an instance from which
references lead to the global names of the other one (`Store.apart_buildRuntime`).
-/

namespace HostScript

/-! ## Trees -/

namespace Heap

variable {h : Heap} {root id inner : NamespaceId} {name : String} {place names : List String} {v : Value}

/-- What is put at a path that leads on from a tree leaves it a tree. -/
theorem Tree.put (tree : h.Tree root) (leads : h.walk root place = some id)
    (plain : ∀ inner, v ≠ .space inner) (more : names ≠ []) : (h.put id v names).Tree root := by
  have open_path : h.Keeps root [] v False :=
    ⟨tree, fun front name rest _ whole => by simp at whole, False.elim⟩
  have off : Off (place ++ names) [] := fun begins => by
    have shorter := begins.length_le
    rw [List.length_map, List.length_append, List.map_nil, List.length_nil] at shorter
    exact more (List.length_eq_zero_iff.1 (by omega))
  exact (open_path.put leads plain more fun on => absurd off on).tree

theorem Tree.child (tree : h.Tree root) (leads : h.walk root place = some id) (name : String) :
    (h.child id name).2.Tree root ∧ ∀ inner, (h.child id name).1 = some inner →
      (h.child id name).2.walk root (place ++ [name]) = some inner := by
  unfold Heap.child
  split
  next found bound =>
    refine ⟨tree, fun inner same => ?_⟩
    obtain rfl := Option.some.inj same
    rw [walk_concat, leads]
    exact inner?_of_get? bound
  next => exact ⟨tree, fun _ never => by cases never⟩
  next =>
    refine ⟨tree.bind_newSpace leads, fun inner same => ?_⟩
    obtain rfl := Option.some.inj same
    exact tree.walk_newSpace_bind leads

end Heap

namespace Store

variable {s t : Store} {rt : RuntimeId} {root : NamespaceId}

/-- A store in which the global names of a runtime are a tree below a root. -/
def Grows (rt : RuntimeId) (root : NamespaceId) (s : Store) : Prop :=
  (s.runtime rt).globals = root ∧ s.toHeap.Tree root

theorem Grows.publish (grows : s.Grows rt root) (info : TypeInfo) : (s.publish rt info).Grows rt root := by
  obtain ⟨rfl, tree⟩ := grows
  obtain ⟨heap, same⟩ := s.publish_eq rt info
  exact ⟨same, heap ▸ tree.put Heap.walk_nil nofun (Text.dottedParts_ne_nil _)⟩

theorem Grows.changeRuntime (grows : s.Grows rt root) {f : Runtime → Runtime}
    (globals : ∀ runtime : Runtime, (f runtime).globals = runtime.globals) :
    (s.changeRuntime rt f).Grows rt root := by
  obtain ⟨rfl, tree⟩ := grows
  refine ⟨?_, tree⟩
  rcases s.runtime_changeRuntime rt rt f with same | ⟨-, same⟩
  · rw [same]
  · rw [same, globals]

/-- Binding names in a namespace of the tree. -/
theorem Grows.binds (grows : s.Grows rt root) {place : List String} {id : NamespaceId}
    (leads : s.toHeap.walk root place = some id) (methods : List Method) (o : HostObject) :
    (methods.foldl (fun s m => s.bind id m.name (.object o)) s).Grows rt root := by
  induction methods generalizing s with
  | nil => exact grows
  | cons m rest ih =>
    obtain ⟨own, tree⟩ := grows
    have bound : (s.bind id m.name (.object o)).Grows rt root := ⟨own, tree.bind_value leads nofun⟩
    exact ih bound ((tree.walk_bind_of_off leads Heap.off_concat_self).trans leads)

theorem Grows.inject (grows : s.Grows rt root) (registry : Registry) (object : HostObject) :
    (s.inject registry rt object).Grows rt root := by
  obtain ⟨rfl, tree⟩ := grows
  unfold Store.inject
  dsimp only
  refine Grows.changeRuntime ?_ fun _ => rfl
  obtain ⟨entered, leads⟩ := tree.child Heap.walk_nil object.type.name
  cases made : s.toHeap.child (s.runtime rt).globals object.type.name with
  | mk inner? h =>
    rw [made] at entered leads
    have grows : Grows rt (s.runtime rt).globals { s with toHeap := h } := ⟨rfl, entered⟩
    rw [onHeap_of_eq made]
    cases inner? with
    | none => exact grows
    | some inner => exact grows.binds (leads inner rfl) _ object

/-- **The global names of a runtime that has been built are a tree**, and all namespaces in it are there. -/
theorem rooted_buildRuntime (s : Store) (registry : Registry) (libraries : List (List TypeInfo))
    (instances : List HostObject) (extension : String) :
    (s.buildRuntime registry libraries instances extension).2.Rooted
      (s.buildRuntime registry libraries instances extension).1 := by
  have grown : (s.buildRuntime registry libraries instances extension).2.Grows
      (s.buildRuntime registry libraries instances extension).1 s.newSpace.1 := by
    unfold Store.buildRuntime
    dsimp only
    refine List.foldlRecOn instances _ (List.foldlRecOn libraries.flatten _ ⟨?_, ?_⟩
      fun t grows info _ => grows.publish info) fun t grows object _ => grows.inject registry object
    · show ((s.newSpace.2.runtimes.push _)[s.newSpace.2.runtimes.size]?.getD default).globals = _
      rw [Array.getElem?_push_size]
      rfl
    · refine (Heap.Keeps.of_empty ?_ ?_ [] .null).tree
      · exact Nat.lt_of_lt_of_eq (Nat.lt_succ_self _) (Array.size_push _).symm
      · exact (Heap.space_newSpace _).trans Heap.space_fresh
  intro path id leads
  exact grown.2.inside path id (grown.1 ▸ leads)

end Store

/-! ## Another runtime -/

section Smaller

variable {estate smaller : Cell → Prop} (within : ∀ cell, smaller cell → estate cell)
include within

theorem Value.Outside.mono {v : Value} (outside : v.Outside estate) : v.Outside smaller :=
  outside_iff.2 fun cell same own => outside_iff.1 outside cell same (within cell own)

theorem Action.Outside.mono {action : Action} (outside : action.Outside estate) :
    action.Outside smaller := by
  cases action with
  | callNamed fallback =>
    cases fallback with
    | none => trivial
    | some bound => exact fun own => outside (within _ own)
  | _ => trivial

theorem Frame.Outside.mono {frame : Frame} (outside : frame.Outside estate) : frame.Outside smaller :=
  ⟨fun v mem => (outside.slots v mem).mono within,
    fun outer linked own => outside.parent outer linked (within _ own)⟩

theorem Runtime.Outside.mono {runtime : Runtime} (outside : runtime.Outside estate) :
    runtime.Outside smaller :=
  ⟨fun own => outside.globals (within _ own), fun o mem own => outside.instances o mem (within _ own),
    fun signature branch mem => (outside.rules signature branch mem).mono within⟩

theorem Callable.Outside.mono {a : RuntimeId} {f : Callable} (outside : f.Outside estate a) :
    f.Outside smaller a := by
  cases f with
  | native name arity index => trivial
  | script template frame module rt =>
    intro foreign
    obtain ⟨around, home, runtime⟩ := outside foreign
    exact ⟨fun own => around (within _ own), fun own => home (within _ own),
      fun own => runtime (within _ own)⟩

end Smaller

variable {estate : Cell → Prop} {a : RuntimeId}

/-- An estate without one runtime. -/
def Cell.Without (estate : Cell → Prop) (rt : RuntimeId) (cell : Cell) : Prop :=
  estate cell ∧ cell ≠ .runtime rt

/-- A heap refers to no runtimes. -/
theorem Heap.Fenced.without {h : Heap} (fenced : h.Fenced estate estate) (rt : RuntimeId) :
    h.Fenced (Cell.Without estate rt) (Cell.Without estate rt) where
  within _ := id
  lists id off v mem := (fenced.lists id (fun own => off ⟨own, nofun⟩) v mem).mono fun _ => And.left
  spaces id off e mem := (fenced.spaces id (fun own => off ⟨own, nofun⟩) e mem).mono fun _ => And.left
  payloads id off v held :=
    (fenced.payloads id (fun own => off ⟨own, nofun⟩) v held).mono fun _ => And.left
  listsThere id own := fenced.listsThere id own.1
  spacesThere id own := fenced.spacesThere id own.1
  payloadsThere id own := fenced.payloadsThere id own.1

namespace Store

variable {s : Store}

/-- **Building a runtime beside an estate** leaves the estate alone, where the place of the new runtime,
which has been empty before, is not counted. -/
theorem Fenced.buildRuntime (fenced : s.Fenced estate a) (there : a.index < s.runtimes.size)
    (registry : Registry) (libraries : List (List TypeInfo)) {instances : List HostObject}
    (extension : String) (outside : ∀ o ∈ instances, ¬estate (.payload o.payload)) :
    s.Leaves (Cell.Without estate ⟨s.runtimes.size⟩) a
      (s.buildRuntime registry libraries instances extension).2 := by
  have heap := fenced.heap.without ⟨s.runtimes.size⟩
  obtain ⟨fresh, made⟩ := heap.newSpace
  obtain ⟨kept, globals, same, given⟩ := s.offers_buildRuntime registry libraries instances extension
    made.fenced fresh fun o mem own => outside o mem own.1
  have code := s.sameCode_buildRuntime registry libraries instances extension
  obtain ⟨runtime, undecided, pushed⟩ :=
    s.withNewRuntime_buildRuntime registry libraries instances extension
  have place : (s.buildRuntime registry libraries instances extension).1 = ⟨s.runtimes.size⟩ := rfl
  rw [place] at globals given
  generalize (s.buildRuntime registry libraries instances extension).2 = t at *
  have others (rt : RuntimeId) (other : rt.index ≠ s.runtimes.size) : t.runtime rt = s.runtime rt := by
    unfold Store.runtime
    rw [pushed, Array.getElem?_push, if_neg other]
  have new : t.runtime ⟨s.runtimes.size⟩ = runtime := by
    unfold Store.runtime
    rw [pushed, Array.getElem?_push_size]
    rfl
  refine ⟨⟨kept, fun id off frame found => ?_, fun id off f found => ?_, fun rt off => ?_,
    fun id own => code.frames ▸ fenced.framesThere id own.1,
    fun id own => code.functions ▸ fenced.functionsThere id own.1, fenced.own, fun here => ?_⟩,
    fun id own => (same fresh id own).trans (made.same id own), others a (Nat.ne_of_lt there)⟩
  · rw [code.frames] at found
    exact (fenced.frames id (fun own => off ⟨own, nofun⟩) frame found).mono fun _ => And.left
  · rw [function?_congr code.functions] at found
    exact (fenced.functions id (fun own => off ⟨own, nofun⟩) f found).mono fun _ => And.left
  · by_cases last : rt = ⟨s.runtimes.size⟩
    · subst last
      refine ⟨globals ▸ fresh, given, fun signature branch mem => ?_⟩
      rw [new, undecided] at mem
      exact absurd mem List.not_mem_nil
    · rw [others rt fun here => last (congrArg RuntimeId.mk here)]
      have off' : ¬estate (.runtime rt) := fun own => off ⟨own, fun here => last (Cell.runtime.inj here)⟩
      exact (fenced.runtimes rt off').mono fun _ => And.left
  · obtain rfl := Cell.runtime.inj here
    exact Nat.lt_irrefl _ there

/-- **A runtime that is built beside another one** leaves it as it is and is apart from it, unless it is
given an instance from which references lead to the global names of the other one. -/
theorem apart_buildRuntime (rooted : s.Rooted a) (there : a.index < s.runtimes.size) (registry : Registry)
    (libraries : List (List TypeInfo)) {instances : List HostObject} (extension : String)
    (outside : ∀ o ∈ instances, ¬s.estateOf a (.payload o.payload)) :
    (s.buildRuntime registry libraries instances extension).2.Rooted a ∧
      ¬(s.buildRuntime registry libraries instances extension).2.estateOf a
        (.runtime (s.buildRuntime registry libraries instances extension).1) ∧
      s.Unchanged a (s.buildRuntime registry libraries instances extension).2 := by
  have leaves := (fenced_estateOf rooted).buildRuntime there registry libraries extension outside
  have tree (path : List String) (id : NamespaceId) (leads : s.walk (s.runtime a).globals path = some id) :
      Cell.Without (s.estateOf a) ⟨s.runtimes.size⟩ (.space id) := ⟨estateOf_of_walk leads, nofun⟩
  obtain ⟨rooted, others⟩ := leaves.apart tree
  exact ⟨rooted, others _ fun own => own.2 rfl, leaves.unchanged tree⟩

end Store

end HostScript
