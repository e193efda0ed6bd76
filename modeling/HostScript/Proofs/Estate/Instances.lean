import HostScript.Proofs.Dispatch.BareCalls
import HostScript.Proofs.Estate.Built
import HostScript.Proofs.Machine.MemberCalls

/-!
# Proofs/Estate/Instances — instances of types of one name

An injected instance is listed after those before it, and the names of its methods are bound to it in the
namespace of its type's name, over what they were bound to.  So the names of this namespace are bound to
the last instance that gives them (`Store.published_buildRuntime`), while a name that is called alone means
the first one: `qualified_calls_reach_the_last`.
-/

namespace HostScript

/-! ## Names of methods -/

/-- Whether one of some methods has a name, in any spelling. -/
def Method.anyNamed (name : String) (methods : List Method) : Bool :=
  methods.any fun m => Text.fold m.name = Text.fold name

/-- **The instances of types of a name that have a method of a name**, both in any spelling. -/
def namesakes (registry : Registry) (type name : String) (instances : List HostObject) :
    List HostObject :=
  instances.filter fun o =>
    Text.fold o.type.name = Text.fold type && Method.anyNamed name (registry.type o.type).methods

section Namesakes

variable {registry : Registry} {type name : String} {instances : List HostObject} {o : HostObject}

theorem mem_namesakes : o ∈ namesakes registry type name instances ↔
    o ∈ instances ∧ Text.fold o.type.name = Text.fold type ∧
      Method.anyNamed name (registry.type o.type).methods = true := by
  rw [namesakes, List.mem_filter, Bool.and_eq_true, decide_eq_true_eq]

theorem namesakes_concat (is_one : Text.fold o.type.name = Text.fold type)
    (gives : Method.anyNamed name (registry.type o.type).methods = true) :
    namesakes registry type name (instances ++ [o]) = namesakes registry type name instances ++ [o] := by
  rw [namesakes, List.filter_append, List.filter_singleton, decide_eq_true is_one, gives]
  rfl

theorem namesakes_concat_of_not (other : ¬(Text.fold o.type.name = Text.fold type ∧
      Method.anyNamed name (registry.type o.type).methods = true)) :
    namesakes registry type name (instances ++ [o]) = namesakes registry type name instances := by
  have passes : (decide (Text.fold o.type.name = Text.fold type) &&
      Method.anyNamed name (registry.type o.type).methods) = false := by
    rw [← Bool.not_eq_true, Bool.and_eq_true, decide_eq_true_eq]
    exact other
  rw [namesakes, List.filter_append, List.filter_singleton, passes]
  exact List.append_nil _

end Namesakes

/-! ## What is published of instances -/

namespace Heap

variable {h : Heap} {root id : NamespaceId} {name : String}

/-- A heap after the names of methods have been bound to a value. -/
def bindAll (h : Heap) (id : NamespaceId) (methods : List Method) (v : Value) : Heap :=
  methods.foldl (fun h m => h.bind id m.name v) h

variable {methods : List Method} {v : Value}

theorem get?_bindAll (inside : id.index < h.namespaces.size) (name : String) :
    (h.bindAll id methods v).get? id name =
      if Method.anyNamed name methods = true then some v else h.get? id name := by
  induction methods generalizing h with
  | nil => rfl
  | cons m rest ih =>
    have size : (h.bind id m.name v).namespaces.size = h.namespaces.size :=
      Array.size_setIfInBounds
    have step := ih (h := h.bind id m.name v) (size ▸ inside)
    have either : Method.anyNamed name (m :: rest) = true ↔
        Text.fold m.name = Text.fold name ∨ Method.anyNamed name rest = true := by
      rw [Method.anyNamed, List.any_cons, Bool.or_eq_true, decide_eq_true_eq]
      rfl
    refine step.trans ?_
    by_cases same : Text.fold m.name = Text.fold name
    · rw [get?_bind_self inside same.symm, ite_self, if_pos (either.2 (.inl same))]
    · rw [get?_bind_of_ne fun both => same both.2.symm]
      exact if_congr (either.trans (or_iff_right same)).symm rfl rfl

theorem get?_bindAll_of_ne {other : NamespaceId} (differs : other ≠ id) (name : String) :
    (h.bindAll id methods v).get? other name = h.get? other name := by
  induction methods generalizing h with
  | nil => rfl
  | cons m rest ih => exact ih.trans (get?_bind_of_ne fun both => differs both.1)

theorem walk_single : h.walk root [name] = h.inner? root name := by
  rw [← List.nil_append [name], walk_concat, walk_nil, Option.bind_some]

theorem Tree.bindAll {place : List String} (tree : h.Tree root) (leads : h.walk root place = some id)
    (plain : ∀ inner, v ≠ .space inner) : (h.bindAll id methods v).Tree root := by
  induction methods generalizing h with
  | nil => exact tree
  | cons m rest ih =>
    exact ih (tree.bind_value leads plain) ((tree.walk_bind_of_off leads off_concat_self).trans leads)

/-- A value that is neither an instance nor a namespace, at a place of a tree: nothing else is found that has
not been found before. -/
theorem Tree.find?_bind_value {place : List String} (tree : h.Tree root)
    (leads : h.walk root place = some id) (plain : ∀ inner, v ≠ .space inner) (path : List String)
    (other : String) : (h.bind id name v).find? root path other = h.find? root path other ∨
      (h.bind id name v).find? root path other = some v ∨
      (h.bind id name v).find? root path other = none := by
  by_cases off : Off (place ++ [name]) (path ++ [other])
  · exact .inl (tree.find?_bind_of_off leads off)
  · have there : (h.bind id name v).walk root place = some id :=
      (tree.walk_bind_of_off leads off_concat_self).trans leads
    obtain ⟨front, rest, whole, same⟩ := exists_of_not_off off
    rcases List.eq_nil_or_concat rest with rfl | ⟨rest, last, rfl⟩
    · rw [List.append_nil] at whole
      exact .inr (.inl (tree.find?_bind_self leads (whole ▸ same)))
    · rw [List.concat_eq_append, ← List.append_assoc] at whole
      obtain ⟨rfl, -⟩ := List.append_inj' whole rfl
      have stuck : (h.bind id name v).inner? id name = none := by
        cases entered : (h.bind id name v).inner? id name with
        | none => rfl
        | some inner =>
          have bound := get?_bind_self (v := v) (tree.inside _ _ leads) (Eq.refl (Text.fold name))
          exact absurd (Option.some.inj (bound.symm.trans (get?_of_inner? entered))) (plain inner)
      refine .inr (.inr ?_)
      rw [find?, walk_append, walk_congr same, walk_concat, there, Option.bind_some, stuck]
      rfl

/-- **A tree without instances.** -/
structure Uninhabited (root : NamespaceId) (h : Heap) : Prop where
  tree : h.Tree root
  free : ∀ path name o, h.find? root path name ≠ some (.object o)

theorem Uninhabited.of_empty (inside : root.index < h.namespaces.size) (empty : h.space root = .empty) :
    h.Uninhabited root := by
  refine ⟨(Keeps.of_empty inside empty [] .null).tree, fun path name o found => ?_⟩
  have none (name : String) : h.get? root name = none := by
    rw [get?, empty, Namespace.get?_empty]
  cases path with
  | nil => cases (none name).symm.trans found
  | cons first rest =>
    rw [find?_cons, inner?, none] at found
    cases found

/-- Publishing types puts no instance into a tree. -/
theorem Uninhabited.put {place names : List String} (before : h.Uninhabited root)
    (leads : h.walk root place = some id) (plain : ∀ inner, v ≠ .space inner) (type : ∀ o, v ≠ .object o)
    (more : names ≠ []) : (h.put id v names).Uninhabited root := by
  induction names generalizing h id place with
  | nil => exact absurd rfl more
  | cons part rest ih =>
    obtain ⟨tree, free⟩ := before
    cases rest with
    | nil =>
      refine ⟨tree.bind_value leads plain, fun path name o found => ?_⟩
      rcases tree.find?_bind_value leads plain path name with same | own | none
      · exact free path name o (same.symm.trans found)
      · exact type o (Option.some.inj (own.symm.trans found))
      · cases none.symm.trans found
    | cons next rest =>
      cases bound : h.get? id part with
      | none =>
        rw [put_of_free bound (List.cons_ne_nil next rest)]
        refine ih ⟨tree.bind_newSpace leads, fun path name o found => ?_⟩
          (tree.walk_newSpace_bind leads) nofun
        rcases tree.find?_bind_newSpace leads path name with same | none | ⟨inner, space⟩
        · exact free path name o (same.symm.trans found)
        · cases none.symm.trans found
        · cases space.symm.trans found
      | some found =>
        by_cases entered : ∃ inner, found = .space inner
        · obtain ⟨inner, rfl⟩ := entered
          rw [put_of_space bound (List.cons_ne_nil next rest)]
          have further : h.walk root (place ++ [part]) = some inner := by
            rw [walk_concat, leads]
            exact inner?_of_get? bound
          exact ih ⟨tree, free⟩ further nofun
        · rw [put_of_value bound (fun inner same => entered ⟨inner, same⟩) (List.cons_ne_nil next rest)]
          exact ⟨tree, free⟩

/-- **The names of instances in a tree of namespaces**: the types of those that have been injected are
bound, and a name in the namespace of a type's name is bound to an instance just if that is the last one
that gives it. -/
structure Publishes (registry : Registry) (root : NamespaceId) (done : List HostObject) (h : Heap) :
    Prop where
  tree : h.Tree root
  bound : ∀ o ∈ done, h.get? root o.type.name ≠ none
  last : ∀ type name id o, h.get? root type = some (.space id) →
    (h.get? id name = some (.object o) ↔ (namesakes registry type name done).getLast? = some o)

theorem Uninhabited.publishes (before : h.Uninhabited root) (registry : Registry) :
    h.Publishes registry root [] where
  tree := before.tree
  bound _ none := nomatch none
  last type name id o enters := by
    refine iff_of_false (fun found => before.free [type] name o ?_) nofun
    rw [find?_cons, inner?_of_get? enters]
    exact found

namespace Publishes

variable {registry : Registry} {done : List HostObject} {o : HostObject}

/-- An instance whose type is bound to a value is not published. -/
theorem skip {v : Value} (before : h.Publishes registry root done)
    (taken : h.get? root o.type.name = some v) (plain : ∀ inner, v ≠ .space inner) :
    h.Publishes registry root (done ++ [o]) where
  tree := before.tree
  bound := List.forall_mem_append.2 ⟨before.bound, List.forall_mem_singleton.2 (taken ▸ nofun)⟩
  last type name id object enters := by
    rw [namesakes_concat_of_not fun both => ?_]
    · exact before.last type name id object enters
    · have same := Namespace.get?_congr (h.space root) both.1
      exact plain id (Option.some.inj (taken.symm.trans (same.trans enters)))

/-- A namespace that is made for a type's name gives no instances. -/
theorem newSpace (before : h.Publishes registry root done) (free : h.get? root o.type.name = none) :
    (h.newSpace.2.bind root o.type.name (.space h.newSpace.1)).Publishes registry root done := by
  have away {type : String} (other : Text.fold type ≠ Text.fold o.type.name) :
      (h.newSpace.2.bind root o.type.name (.space h.newSpace.1)).get? root type = h.get? root type := by
    rw [get?_bind_of_ne fun both => other both.2, get?_newSpace]
  have fresh : h.newSpace.1 ≠ root := before.tree.newSpace_ne walk_nil
  have apart {id : NamespaceId} (other : id ≠ root) (name : String) :
      (h.newSpace.2.bind root o.type.name (.space h.newSpace.1)).get? id name = h.get? id name := by
    rw [get?_bind_of_ne fun both => other both.1, get?_newSpace]
  have unbound {object : HostObject} (mem : object ∈ done) :
      Text.fold object.type.name ≠ Text.fold o.type.name := fun same =>
    before.bound object mem ((Namespace.get?_congr _ same).trans free)
  have own {type : String} (same : Text.fold type = Text.fold o.type.name) :
      (h.newSpace.2.bind root o.type.name (.space h.newSpace.1)).get? root type =
        some (.space h.newSpace.1) :=
    get?_bind_self (before.tree.newSpace.inside [] root walk_nil) same
  refine ⟨before.tree.bind_newSpace walk_nil, fun object mem => ?_, fun type name id object enters => ?_⟩
  · rw [away (unbound mem)]
    exact before.bound object mem
  · by_cases same : Text.fold type = Text.fold o.type.name
    · obtain rfl : h.newSpace.1 = id := Value.space.inj (Option.some.inj ((own same).symm.trans enters))
      rw [apart fresh, get?_fresh]
      refine iff_of_false nofun fun found => ?_
      obtain ⟨mem, is_one, -⟩ := mem_namesakes.1 (List.mem_of_getLast? found)
      exact unbound mem (is_one.trans same)
    · rw [away same] at enters
      have other : id ≠ root := fun here => by
        have leads : h.walk root [type] = some root := by rw [walk_single, inner?_of_get? enters, here]
        cases before.tree.apart _ [] _ leads walk_nil
      rw [apart other]
      exact before.last type name id object enters

/-- **Binding the names of the methods of an instance**, in the namespace of its type's name. -/
theorem bindAll {inner : NamespaceId} (before : h.Publishes registry root done)
    (enters : h.get? root o.type.name = some (.space inner)) :
    (h.bindAll inner (registry.type o.type).methods (.object o)).Publishes registry root
      (done ++ [o]) := by
  have leads : h.walk root [o.type.name] = some inner := walk_single.trans (inner?_of_get? enters)
  have other : root ≠ inner := fun here => by
    cases before.tree.apart _ [] _ leads (here ▸ walk_nil)
  have kept (type : String) : (h.bindAll inner (registry.type o.type).methods (.object o)).get? root type =
      h.get? root type := get?_bindAll_of_ne other type
  refine ⟨before.tree.bindAll leads nofun, fun object mem => ?_, fun type name id object entered => ?_⟩
  · rw [kept]
    rcases List.mem_append.1 mem with mem | mem
    · exact before.bound object mem
    · rw [List.mem_singleton.1 mem, enters]
      exact nofun
  · rw [kept] at entered
    by_cases is_one : Text.fold o.type.name = Text.fold type
    · have same : h.get? root o.type.name = h.get? root type := Namespace.get?_congr _ is_one
      obtain rfl := Value.space.inj (Option.some.inj (enters.symm.trans (same.trans entered)))
      rw [get?_bindAll (before.tree.inside _ _ leads)]
      by_cases gives : Method.anyNamed name (registry.type o.type).methods = true
      · rw [if_pos gives, namesakes_concat is_one gives, List.getLast?_concat]
        exact ⟨fun same => congrArg some (Value.object.inj (Option.some.inj same)),
          fun same => congrArg (some ∘ Value.object) (Option.some.inj same)⟩
      · rw [if_neg gives, namesakes_concat_of_not fun both => gives both.2]
        exact before.last type name _ object entered
    · have away : id ≠ inner := fun here => by
        have leads' : h.walk root [type] = some inner := by
          rw [walk_single, inner?_of_get? entered, here]
        exact is_one (List.head_eq_of_cons_eq (before.tree.apart _ _ _ leads leads'))
      rw [get?_bindAll_of_ne away, namesakes_concat_of_not fun both => is_one both.1]
      exact before.last type name id object entered

/-- **Injecting an instance** binds the names of its methods to it, over what they were bound to. -/
theorem inject (before : h.Publishes registry root done) (o : HostObject) :
    (match h.child root o.type.name with
      | (some inner, h) => h.bindAll inner (registry.type o.type).methods (.object o)
      | (none, h) => h).Publishes registry root (done ++ [o]) := by
  unfold Heap.child
  cases bound : h.get? root o.type.name with
  | none =>
    have made := get?_bind_self (v := .space h.newSpace.1)
      (before.tree.newSpace.inside [] root walk_nil) (Eq.refl (Text.fold o.type.name))
    exact (before.newSpace bound).bindAll made
  | some v =>
    cases v with
    | space inner => exact before.bindAll bound
    | _ => exact before.skip bound nofun

end Publishes

end Heap

namespace Store

variable {registry : Registry} {s : Store} {rt : RuntimeId} {root : NamespaceId}

/-- A store in which a runtime publishes instances below its root. -/
def Publishes (registry : Registry) (rt : RuntimeId) (root : NamespaceId) (done : List HostObject)
    (s : Store) : Prop :=
  (s.runtime rt).globals = root ∧ s.toHeap.Publishes registry root done

theorem toHeap_bindAll (s : Store) (id : NamespaceId) (methods : List Method) (v : Value) :
    (methods.foldl (fun s m => s.bind id m.name v) s).toHeap = s.toHeap.bindAll id methods v :=
  (List.foldl_hom Store.toHeap fun _ _ => rfl).symm

theorem Publishes.inject {done : List HostObject} (before : s.Publishes registry rt root done)
    (o : HostObject) : (s.inject registry rt o).Publishes registry rt root (done ++ [o]) := by
  obtain ⟨globals, published⟩ := before
  have grows := Grows.inject ⟨globals, published.tree⟩ registry o
  refine ⟨grows.1, ?_⟩
  have after := published.inject o
  subst globals
  unfold Store.inject
  dsimp only
  cases made : s.toHeap.child (s.runtime rt).globals o.type.name with
  | mk inner? h =>
    rw [made] at after
    rw [onHeap_of_eq made]
    cases inner? with
    | none => exact after
    | some inner =>
      dsimp only [Store.changeRuntime]
      rw [toHeap_bindAll]
      exact after

theorem publishes_all {done : List HostObject} (before : s.Publishes registry rt root done)
    (instances : List HostObject) :
    (instances.foldl (·.inject registry rt) s).Publishes registry rt root (done ++ instances) := by
  induction instances generalizing s done with
  | nil => exact (List.append_nil done).symm ▸ before
  | cons o rest ih => exact List.append_cons done o rest ▸ ih (before.inject o)

theorem uninhabited_all (infos : List TypeInfo)
    (before : (s.runtime rt).globals = root ∧ s.toHeap.Uninhabited root) :
    ((infos.foldl (·.publish rt) s).runtime rt).globals = root ∧
      (infos.foldl (·.publish rt) s).toHeap.Uninhabited root := by
  induction infos generalizing s with
  | nil => exact before
  | cons info rest ih =>
    obtain ⟨rfl, free⟩ := before
    obtain ⟨heap, same⟩ := s.publish_eq rt info
    exact ih ⟨same, heap ▸ free.put Heap.walk_nil nofun nofun (Text.dottedParts_ne_nil _)⟩

/-- **What a runtime publishes of instances**: in the namespace of a type's name a name is bound to an
instance just if that is the last one, of those of types of this name, that has a method of the name. -/
theorem published_buildRuntime (s : Store) (registry : Registry) (libraries : List (List TypeInfo))
    (instances : List HostObject) (extension : String) :
    let built := s.buildRuntime registry libraries instances extension
    built.2.toHeap.Publishes registry (built.2.runtime built.1).globals instances := by
  have published : (s.buildRuntime registry libraries instances extension).2.Publishes registry
      (s.buildRuntime registry libraries instances extension).1 s.newSpace.1 instances := by
    unfold Store.buildRuntime
    dsimp only
    have start : (((s.newSpace.2.newRuntime ⟨s.newSpace.1, [], [],
        String.ofList (extension.toList.dropWhile (· == '.')), .empty, true⟩).2).runtime
          ⟨s.newSpace.2.runtimes.size⟩).globals = s.newSpace.1 := by
      show ((s.newSpace.2.runtimes.push _)[s.newSpace.2.runtimes.size]?.getD default).globals = _
      rw [Array.getElem?_push_size]
      rfl
    have inside : s.newSpace.1.index < s.toHeap.newSpace.2.namespaces.size :=
      Nat.lt_of_lt_of_eq (Nat.lt_succ_self _) (Array.size_push _).symm
    have empty : s.toHeap.newSpace.2.space s.newSpace.1 = .empty :=
      (Heap.space_newSpace _).trans Heap.space_fresh
    obtain ⟨globals, free⟩ := uninhabited_all libraries.flatten ⟨start, .of_empty inside empty⟩
    exact publishes_all ⟨globals, free.publishes registry⟩ instances
  dsimp only
  rw [published.1]
  exact published.2

/-- What calling a member comes to depends on the heap alone. -/
theorem CallsMember.congr {t : Store} {offer : Surface} {name : String} {v : Value} {args : List Value}
    {outcome : Outcome} {heap : Heap} (h : s.CallsMember offer name v args outcome heap)
    (same : s.toHeap = t.toHeap) : t.CallsMember offer name v args outcome heap := by
  obtain ⟨_, _, _, _⟩ := s
  obtain ⟨_, _, _, _⟩ := t
  dsimp only at same
  subst same
  cases h with
  | bound found => exact .bound found
  | unbound free => exact .unbound free
  | method plain best placed => exact .method plain best placed
  | unmatched plain free there => exact .unmatched plain free there
  | missing plain free => exact .missing plain free

end Store

/-! ## Calls -/

section Calls

variable {registry : Registry} {s t : Store} {rt : RuntimeId} {libraries : List (List TypeInfo)}
  {instances : List HostObject} {extension : String} {past : List Config} {other : Setting} {d : Config}
  {env : Env} {position : Position} {name : String} {args : List Value} {rest : List Pending}

/-- **Calling a name in a namespace that binds it to an instance** calls the member of the instance. -/
theorem calls_instance (reached : Reached registry s)
    (built : s.buildRuntime registry libraries instances extension = (rt, t))
    (course : Course (Over registry) (.idle t) past (.busy other d)) (own : env.runtime = rt)
    {id : NamespaceId} {o : HostObject} (bound : d.store.get? id name = some (.object o))
    (operates : d.Operates env position (.invokeMember name args.length) (.space id :: args) rest) :
    ∃ outcome u, d.store.CallsMember ⟨registry, boundTypes libraries, instances⟩ name (.object o) args
        outcome u.toHeap ∧
      (Machine.step other)^[3] d = outcome.goOn env (.locate position :: rest) u := by
  obtain ⟨shared, faithful⟩ := faithful_of_built reached built course
  subst own
  have first := faithful.dispatch_invokeMember env.runtime env.module name (.space id) args
  have twice : (Machine.step other)^[2] d = _ := operates.twice
  rw [shared] at twice
  have later := course.trace 2
  rw [twice] at later
  cases made : d.store.dispatch registry env.runtime env.module (.invokeMember name args.length)
      (.space id :: args) with
  | mk outcome u =>
    rw [made] at first twice later
    dsimp only at first twice later
    generalize kept : u.toHeap = heap at first
    cases first with
    | unbound free => cases free.symm.trans bound
    | method plain | unmatched plain | missing plain => exact absurd rfl (plain id)
    | bound found =>
      obtain rfl := Option.some.inj (found.symm.trans bound)
      have faithful : u.Faithful registry := (faithful_of_built reached built later).2
      have surface : (u.runtime env.runtime).surface registry =
          ⟨registry, boundTypes libraries, instances⟩ := surface_of_built built later registry
      have second := faithful.dispatch_invokeMember env.runtime env.module name (.object o) args
      rw [surface] at second
      refine ⟨_, _, second.congr kept, ?_⟩
      · rw [Function.iterate_succ_apply', twice]
        dsimp only [Outcome.ofCall, Outcome.goOn]
        rw [Machine.step_dispatch, shared]
        rfl

/-- **Calling a name that is bound nowhere** calls the method that it means of the first instance. -/
theorem calls_first (reached : Reached registry s)
    (built : s.buildRuntime registry libraries instances extension = (rt, t))
    (course : Course (Over registry) (.idle t) past (.busy other d)) (own : env.runtime = rt)
    {arity place pass index : ℕ} (operates : d.Operates env position (.call name arity) args rest)
    (unbound : d.store.get? env.module name = none)
    (unknown : d.store.get? (d.store.runtime rt).globals name = none)
    (least : IsLeast (fallbacks registry instances name args) (toLex (place, toLex (pass, index)))) :
    ∃ o m u, instances[place]? = some o ∧ (registry.type o.type).methods[index]? = some m ∧
      let answer := m.run (if m.isStatic then none else some (.object o)) (Params.coerce m.params args)
        d.store.toHeap
      (Machine.step other)^[2] d = ⟨.ofReply answer.1, .locate position :: rest, u⟩ ∧
        u.toHeap = answer.2 := by
  obtain ⟨shared, faithful⟩ := faithful_of_built reached built course
  subst own
  have surface : (d.store.runtime env.runtime).surface registry =
      ⟨registry, boundTypes libraries, instances⟩ := surface_of_built built course registry
  have free : d.store.named? (d.store.runtime env.runtime).globals env.module name = none := by
    rw [Store.named?, unbound, unknown]
    rfl
  obtain ⟨o, there, m, placed, -⟩ := least.1
  have offered : ((d.store.runtime env.runtime).surface registry).calledMethod? name args =
      some ⟨o, index⟩ := by
    rw [surface]
    exact Surface.calledMethod?_of_isLeast least there
  obtain ⟨outcome, heap⟩ :=
    faithful.dispatch_fallback env.runtime env.module name arity args free offered placed
  refine ⟨o, m, _, there, placed, ?_, heap⟩
  rw [operates.twice, shared, outcome]
  rfl

end Calls

/-- **A bare name reaches the first instance, a qualified one the last.**  Let a name `type` lead to a
namespace among the global names of a runtime that has just been built.  Then a name in it is bound to an
instance just if that is the last one, of those whose types have this name, that has a method of the name.
From then on, in every session:

* while neither the module nor the globals bind the name, a call of the bare name runs the least method, by
  instance, pass and place, that it may mean, on its instance unless it is static;
* while the namespace binds the name to what it was bound to at first, a call of the name in the namespace
  is a call of the member of that last instance.

So both reach one instance just if the first instance that takes the call is the last of its type's name to
have a method of the name. -/
theorem qualified_calls_reach_the_last (registry : Registry) (s t : Store) (rt : RuntimeId)
    (libraries : List (List TypeInfo)) (instances : List HostObject) (extension type name : String)
    (id : NamespaceId) (reached : Reached registry s)
    (built : s.buildRuntime registry libraries instances extension = (rt, t))
    (enters : t.get? (t.runtime rt).globals type = some (.space id)) :
    (∀ o, t.get? id name = some (.object o) ↔
      (namesakes registry type name instances).getLast? = some o) ∧
    ∀ (past : List Config) (other : Setting) (d : Config),
      Course (Over registry) (.idle t) past (.busy other d) →
        ∀ (env : Env) (position : Position) (args : List Value) (rest : List Pending), env.runtime = rt →
          (∀ arity place pass index, d.Operates env position (.call name arity) args rest →
            d.store.get? env.module name = none → d.store.get? (d.store.runtime rt).globals name = none →
              IsLeast (fallbacks registry instances name args) (toLex (place, toLex (pass, index))) →
                ∃ first m u, instances[place]? = some first ∧
                  (registry.type first.type).methods[index]? = some m ∧
                  let answer := m.run (if m.isStatic then none else some (.object first))
                    (Params.coerce m.params args) d.store.toHeap
                  (Machine.step other)^[2] d = ⟨.ofReply answer.1, .locate position :: rest, u⟩ ∧
                    u.toHeap = answer.2) ∧
          ∀ last, (namesakes registry type name instances).getLast? = some last →
            d.store.get? id name = t.get? id name →
              d.Operates env position (.invokeMember name args.length) (.space id :: args) rest →
                ∃ outcome u, d.store.CallsMember ⟨registry, boundTypes libraries, instances⟩ name
                    (.object last) args outcome u.toHeap ∧
                  (Machine.step other)^[3] d = outcome.goOn env (.locate position :: rest) u := by
  have published := s.published_buildRuntime registry libraries instances extension
  rw [built] at published
  refine ⟨fun o => published.last type name id o enters, fun past other d course env position args rest
    own => ⟨fun arity place pass index operates unbound unknown least =>
      calls_first reached built course own operates unbound unknown least, ?_⟩⟩
  intro last is_last kept operates
  have bound := kept.trans ((published.last type name id last enters).2 is_last)
  exact calls_instance reached built course own bound operates

/-! ## Two counters -/

/-- A method that answers what its receiver holds. -/
def tallyBump : Method := .onPayload Payload.state? "Bump" [] fun _ held _ => .pure (.value held)

/-- A host with a type of counters that hold a value. -/
def tallyHost : TypeInfo × Registry :=
  Registry.initial.register ((TypeDraft.named "Counter").method tallyBump)

/-- Two counters. -/
def tallyCounters : List HostObject := [⟨tallyHost.1, ⟨0⟩⟩, ⟨tallyHost.1, ⟨1⟩⟩]

/-- A store in which the counters hold 1 and 2. -/
def tallyStore : Store :=
  (Store.empty.changeHeap fun h => (h.newPayload (.state (.int 1))).2).changeHeap fun h =>
    (h.newPayload (.state (.int 2))).2

/-- A runtime that both counters are injected in. -/
def tallyBuilt : RuntimeId × Store := tallyStore.buildRuntime tallyHost.2 [] tallyCounters ""

/-- The setting of that host. -/
def tallySetting : Setting := ⟨tallyHost.2, #[], .empty⟩

/-- The machine that runs a source in a new module of that runtime. -/
def tallyBegun (text : String) : Begun :=
  Request.begin tallySetting (tallyBuilt.2.changeHeap fun h => h.newSpace.2)
    (.source tallyBuilt.1 ⟨2⟩ text)

theorem reached_tallyStore : Reached tallyHost.2 tallyStore :=
  let holding (n : Int64) : Turn := ⟨tallySetting, 0, .change fun h => (h.newPayload (.state (.int n))).2⟩
  have asked (n : Int64) {s : Store} (reached : Reached tallyHost.2 s) :
      Reached tallyHost.2 (s.changeHeap fun h => (h.newPayload (.state (.int n))).2) :=
    have played : (holding n).play Machine.step s = some (.ok .null, _) := rfl
    .turn reached rfl played
  asked 2 (asked 1 .start)

/-- The instance that a value is. -/
def Value.object? : Value → Option HostObject
  | .object o => some o
  | _ => none

theorem Value.eq_of_object? {v : Value} {o : HostObject} (h : v.object? = some o) : v = .object o := by
  cases v with
  | object o' => exact congrArg Value.object (Option.some.inj h)
  | _ => cases h

/-- The namespace that a value is. -/
def Value.space? : Value → Option NamespaceId
  | .space id => some id
  | _ => none

theorem Value.eq_of_space? {v : Value} {id : NamespaceId} (h : v.space? = some id) : v = .space id := by
  cases v with
  | space id' => exact congrArg Value.space (Option.some.inj h)
  | _ => cases h

/-- The operation without arguments on a namespace that a machine has just got. -/
def Config.asks? (c : Config) : Option (NamespaceId × Env × Position × Signature) :=
  match c.control, c.stack with
  | .value (.space id), .operands env position signature [] [] :: _ => some (id, env, position, signature)
  | _, _ => none

theorem Config.operates_of_asks? {c : Config} {id : NamespaceId} {env : Env} {position : Position}
    {signature : Signature} (h : c.asks? = some (id, env, position, signature)) :
    ∃ rest, c.Operates env position signature [.space id] rest := by
  obtain ⟨control, stack, s⟩ := c
  unfold asks? at h
  dsimp only at h
  split at h
  next rest =>
    cases h
    refine ⟨rest, ?_⟩
    show Config.Operates _ env position signature [.space id].reverse _
    exact .last rfl rfl
  next => cases h

/-- The bare name runs the method on the first counter, the qualified one calls the member of the other. -/
theorem qualified_calls_reach_the_last_tally :
    ∃ c, tallyBegun "Bump() + Counter.Bump()" = .running c ∧
      (∃ rest u, (Machine.step tallySetting)^[2] ((Machine.step tallySetting)^[1] c) =
        ⟨.ofReply (tallyBump.run (some (.object ⟨tallyHost.1, ⟨0⟩⟩)) []
          ((Machine.step tallySetting)^[1] c).store.toHeap).1, rest, u⟩) ∧
      ∃ outcome env rest u, ((Machine.step tallySetting)^[9] c).store.CallsMember
          ⟨tallyHost.2, boundTypes [], tallyCounters⟩ "Bump" (.object ⟨tallyHost.1, ⟨1⟩⟩) [] outcome
          u.toHeap ∧
        (Machine.step tallySetting)^[3] ((Machine.step tallySetting)^[9] c) = outcome.goOn env rest u := by
  have runs : (match tallyBegun "Bump() + Counter.Bump()" with
    | .running c => decide (
        ((Machine.step tallySetting)^[1] c).bare? =
          some (⟨⟨0⟩, ⟨2⟩, tallyBuilt.1⟩, ⟨1, 1⟩, .call "Bump" 0) ∧
        (((Machine.step tallySetting)^[1] c).store.get? ⟨2⟩ "Bump").isNone = true ∧
        (((Machine.step tallySetting)^[1] c).store.get?
          (((Machine.step tallySetting)^[1] c).store.runtime tallyBuilt.1).globals "Bump").isNone =
            true ∧
        ((Machine.step tallySetting)^[9] c).asks? =
          some (⟨1⟩, ⟨⟨0⟩, ⟨2⟩, tallyBuilt.1⟩, ⟨1, 10⟩, .invokeMember "Bump" 0) ∧
        (((Machine.step tallySetting)^[9] c).store.get? ⟨1⟩ "Bump").bind Value.object? =
          some ⟨tallyHost.1, ⟨1⟩⟩)
    | .done _ _ => false) = true := by decide +kernel
  have entered : (tallyBuilt.2.get? (tallyBuilt.2.runtime tallyBuilt.1).globals "Counter").bind
      Value.space? = some ⟨1⟩ := by decide +kernel
  have meant : Surface.calledMethod? ⟨tallyHost.2, [], tallyCounters⟩ "Bump" [] =
      some ⟨⟨tallyHost.1, ⟨0⟩⟩, 0⟩ := by decide +kernel
  have is_last : (namesakes tallyHost.2 "Counter" "Bump" tallyCounters).getLast? =
      some ⟨tallyHost.1, ⟨1⟩⟩ := by decide +kernel
  obtain ⟨v, entered, is_space⟩ := Option.bind_eq_some_iff.1 entered
  obtain rfl := Value.eq_of_space? is_space
  split at runs
  next c begins =>
    obtain ⟨bare, unbound, unknown, qualified, binds⟩ := of_decide_eq_true runs
    have changed : Request.begin tallySetting tallyBuilt.2 (.change fun h => h.newSpace.2) =
        .done (.ok .null) (tallyBuilt.2.changeHeap fun h => h.newSpace.2) := rfl
    have shared (s : Store) (request : Request) : Over tallyHost.2 tallySetting s request := rfl
    have launched : Course (Over tallyHost.2) (.idle tallyBuilt.2) [] (.busy tallySetting c) :=
      .begun (.done .start (shared _ _) changed) (shared _ _) begins
    obtain ⟨published, session⟩ := qualified_calls_reach_the_last tallyHost.2 tallyStore tallyBuilt.2
      tallyBuilt.1 [] tallyCounters "" "Counter" "Bump" ⟨1⟩ reached_tallyStore rfl entered
    refine ⟨c, begins, ?_, ?_⟩
    · obtain ⟨first, -⟩ := session _ _ _ (launched.trace 1) ⟨⟨0⟩, ⟨2⟩, tallyBuilt.1⟩ ⟨1, 1⟩ [] _ rfl
      obtain ⟨place, pass, there, least⟩ := Surface.isLeast_calledMethod? meant
      obtain ⟨o, m, u, there', placed, steps, -⟩ := first 0 place pass 0
        (Config.operates_of_bare? bare) (Option.isNone_iff_eq_none.1 unbound)
        (Option.isNone_iff_eq_none.1 unknown) least
      obtain rfl := Option.some.inj (there.symm.trans there')
      have bump : (tallyHost.2.type tallyHost.1).methods[0]? = some tallyBump := rfl
      obtain rfl := Option.some.inj (bump.symm.trans placed)
      exact ⟨_, u, steps⟩
    · obtain ⟨rest, operates⟩ := Config.operates_of_asks? qualified
      obtain ⟨v, bound, is_object⟩ := Option.bind_eq_some_iff.1 binds
      obtain rfl := Value.eq_of_object? is_object
      obtain ⟨-, last⟩ := session _ _ _ (launched.trace 9) ⟨⟨0⟩, ⟨2⟩, tallyBuilt.1⟩
        ⟨1, 10⟩ [] rest rfl
      obtain ⟨outcome, u, calls, steps⟩ :=
        last _ is_last (bound.trans ((published _).2 is_last).symm) operates
      exact ⟨outcome, _, _, u, calls, steps⟩
  next => cases runs

/-- **Two instances of one type part ways**: the bare name answers for the first one and the qualified name
for the last. -/
theorem bare_and_qualified_part :
    (match tallyBegun "Bump()", tallyBegun "Counter.Bump()" with
      | .running bare, .running qualified =>
        decide ((Machine.run tallySetting 9 bare).map (fun answer => answer.1.toOption.bind Value.number?) =
            some (some 1) ∧
          (Machine.run tallySetting 9 qualified).map (fun answer => answer.1.toOption.bind Value.number?) =
            some (some 2))
      | _, _ => false) = true := by
  decide +kernel

end HostScript
