import HostScript.Proofs.Dispatch.HostCalls
import HostScript.Proofs.Dispatch.Offered
import HostScript.Proofs.Machine.Reads
import HostScript.Proofs.Compile.Constructs
import Mathlib.Data.Prod.Lex
import Mathlib.Order.Bounds.Basic

/-!
# Proofs/Dispatch/BareCalls — names that are called and declared nowhere

A name that is called and that no scope declares means what the module binds it to, else what the globals
do, else a method of an injected instance.  The methods that it may mean are its `fallbacks`, ordered by
the instance, by the pass in which the method is found and by its place.  The least of them is chosen once
for the shapes of the arguments and remembered; the names are looked up at each call
(`bare_calls_fall_back`).
-/

namespace HostScript

/-! ## Passes -/

/-- **Arguments that parameters take** after integers have become the floats that are asked for; no
argument is for an out parameter. -/
def Widens (params : List Param) (args : List Value) : Prop :=
  List.Forall₂ (fun p v => p.out = false ∧
    (p.type.accepts v = true ∨ p.type = .float ∧ ∃ n : Int64, v = .int n)) params args

/-- **The passes in which a called name may mean a method.** -/
inductive Pass (written : String) (args : List Value) (m : Method) : ℕ → Prop where
  /-- The name of the method is the written one with its first letter in upper case. -/
  | capitalized : m.name = Text.capitalized written → Widens m.params args → Pass written args m 1
  | exact : m.name = written → Widens m.params args → Pass written args m 2
  /-- It is the written one up to the case of ASCII letters, and no parameter has parts. -/
  | anyCase : Text.fold m.name = Text.fold written → Widens m.params args →
    (∀ p ∈ m.params, p.type.isPrimitive = true ∧ p.type ≠ .char) → Pass written args m 3

/-- The passes and the places in which a called name may mean one of some methods. -/
def passes (written : String) (args : List Value) (methods : List Method) : Set (ℕ ×ₗ ℕ) :=
  {k | ∃ m, methods[(ofLex k).2]? = some m ∧ Pass written args m (ofLex k).1}

/-- **The methods that a called name may mean**, by the instance, the pass and the place. -/
def fallbacks (registry : Registry) (instances : List HostObject) (written : String)
    (args : List Value) : Set (ℕ ×ₗ (ℕ ×ₗ ℕ)) :=
  {k | ∃ object, instances[(ofLex k).1]? = some object ∧
    (ofLex k).2 ∈ passes written args (registry.type object.type).methods}

namespace ParamType

theorem acceptsConverted_iff {type : ParamType} {v : Value} :
    type.acceptsConverted v = true ↔
      type.accepts v = true ∨ type = .float ∧ ∃ n : Int64, v = .int n := by
  unfold acceptsConverted
  split
  next n => exact iff_of_true rfl (.inr ⟨rfl, n, rfl⟩)
  next other =>
    refine (or_iff_left ?_).symm
    rintro ⟨rfl, n, rfl⟩
    exact other n rfl rfl

end ParamType

namespace Params

variable {params : List Param} {args : List Value}

theorem acceptConverted_iff_widens : acceptConverted params args = true ↔ Widens params args := by
  rw [acceptConverted_iff]
  exact ⟨fun each => each.imp fun _ _ both => ⟨both.1, ParamType.acceptsConverted_iff.1 both.2⟩,
    fun each => each.imp fun _ _ both => ⟨both.1, ParamType.acceptsConverted_iff.2 both.2⟩⟩

theorem acceptLoosely_iff : acceptLoosely params args = true ↔
    Widens params args ∧ ∀ p ∈ params, p.type.isPrimitive = true ∧ p.type ≠ .char := by
  rw [and_comm, Widens, ← List.forall₂_and_left, List.forall₂_iff_zip]
  unfold acceptLoosely
  simp only [Bool.and_eq_true, beq_iff_eq, List.all_eq_true, Bool.not_eq_true', Prod.forall, bne_iff_ne,
    ParamType.acceptsConverted_iff]
  refine and_congr_right fun _ => forall₃_congr fun p v _ => ?_
  tauto

end Params

/-! ## The least -/

section Least

/-- **The least pair**: the second part is least among those for the first, and there are none for any
lower first part. -/
theorem isLeast_toLex {α β : Type} [LinearOrder α] [Preorder β] {f : α → Set β} {a : α} {b : β}
    (best : IsLeast (f a) b) (none : ∀ c < a, f c = ∅) :
    IsLeast {k : α ×ₗ β | (ofLex k).2 ∈ f (ofLex k).1} (toLex (a, b)) := by
  refine ⟨best.1, fun k mem => ?_⟩
  rcases lt_trichotomy (ofLex k).1 a with lower | same | higher
  · have never : (ofLex k).2 ∈ f (ofLex k).1 := mem
    rw [none _ lower] at never
    exact absurd never (Set.notMem_empty _)
  · exact Prod.Lex.toLex_le_toLex.2 (.inr ⟨same.symm, best.2 (same ▸ mem)⟩)
  · exact Prod.Lex.toLex_le_toLex.2 (.inl higher)

theorem toLex_eq_empty_iff {α β : Type} {f : α → Set β} :
    {k : α ×ₗ β | (ofLex k).2 ∈ f (ofLex k).1} = ∅ ↔ ∀ a, f a = ∅ := by
  simp only [Set.eq_empty_iff_forall_notMem]
  exact ⟨fun none a b mem => none (toLex (a, b)) mem, fun none k mem => none _ _ mem⟩

variable {α : Type} {l : List α} {p : α → Bool}

theorem isLeast_findIdx? {i : ℕ} (found : l.findIdx? p = some i) :
    IsLeast {j : ℕ | ∃ a, l[j]? = some a ∧ p a = true} i := by
  obtain ⟨within, holds, before⟩ := List.findIdx?_eq_some_iff_getElem.1 found
  refine ⟨⟨l[i], List.getElem?_eq_getElem within, holds⟩, ?_⟩
  rintro j ⟨a, there, passes⟩
  by_contra less
  obtain ⟨inside, rfl⟩ := List.getElem?_eq_some_iff.1 there
  exact before j (Nat.lt_of_not_le less) passes

theorem findIdx?_eq_none_iff_empty :
    l.findIdx? p = none ↔ {j : ℕ | ∃ a, l[j]? = some a ∧ p a = true} = ∅ := by
  rw [List.findIdx?_eq_none_iff, Set.eq_empty_iff_forall_notMem]
  constructor
  · rintro none j ⟨a, there, holds⟩
    rw [none a (List.mem_of_getElem? there)] at holds
    cases holds
  · intro none a mem
    obtain ⟨j, there⟩ := List.getElem?_of_mem mem
    exact Bool.eq_false_iff.2 fun holds => none j ⟨a, there, holds⟩

end Least

/-! ## What a called name means -/

section Passes

variable {written : String} {args : List Value} {methods : List Method}

theorem pass_one_iff {m : Method} : Pass written args m 1 ↔
    (m.name = Text.capitalized written && Params.acceptConverted m.params args) = true := by
  rw [Bool.and_eq_true, decide_eq_true_eq, Params.acceptConverted_iff_widens]
  exact ⟨fun | .capitalized same takes => ⟨same, takes⟩, fun ⟨same, takes⟩ => .capitalized same takes⟩

theorem pass_two_iff {m : Method} : Pass written args m 2 ↔
    (m.name = written && Params.acceptConverted m.params args) = true := by
  rw [Bool.and_eq_true, decide_eq_true_eq, Params.acceptConverted_iff_widens]
  exact ⟨fun | .exact same takes => ⟨same, takes⟩, fun ⟨same, takes⟩ => .exact same takes⟩

theorem pass_three_iff {m : Method} : Pass written args m 3 ↔
    (Text.fold m.name = Text.fold written && Params.acceptLoosely m.params args) = true := by
  rw [Bool.and_eq_true, decide_eq_true_eq, Params.acceptLoosely_iff]
  exact ⟨fun | .anyCase same takes plain => ⟨same, takes, plain⟩,
    fun ⟨same, takes, plain⟩ => .anyCase same takes plain⟩

/-- The places of the methods that are found in a pass. -/
def found (written : String) (args : List Value) (methods : List Method) (pass : ℕ) : Set ℕ :=
  {i | ∃ m, methods[i]? = some m ∧ Pass written args m pass}

/-- There are three passes. -/
theorem found_eq_empty {pass : ℕ} (other : pass ≠ 1 ∧ pass ≠ 2 ∧ pass ≠ 3) :
    found written args methods pass = ∅ := by
  refine Set.eq_empty_iff_forall_notMem.2 ?_
  rintro i ⟨m, -, meant⟩
  cases meant with
  | capitalized => exact other.1 rfl
  | exact => exact other.2.1 rfl
  | anyCase => exact other.2.2 rfl

variable {pass : ℕ} {p : Method → Bool}

/-- A search for what a pass finds. -/
theorem isLeast_found (test : ∀ m, Pass written args m pass ↔ p m = true) {i : ℕ}
    (hit : methods.findIdx? p = some i) : IsLeast (found written args methods pass) i := by
  unfold found
  simp only [test]
  exact isLeast_findIdx? hit

theorem found_eq_empty_iff (test : ∀ m, Pass written args m pass ↔ p m = true) :
    methods.findIdx? p = none ↔ found written args methods pass = ∅ := by
  unfold found
  simp only [test]
  exact findIdx?_eq_none_iff_empty

end Passes

namespace Surface

variable {offer : Surface} {written : String} {args : List Value} {object : HostObject}
  {bound : BoundMethod}

/-- **The method of an instance that a called name means** is the least by pass and place. -/
theorem of_boundMethod? (h : offer.boundMethod? written args object = some bound) :
    bound.holder = object ∧ ∃ pass, IsLeast
      (passes written args (offer.registry.type object.type).methods) (toLex (pass, bound.index)) := by
  obtain ⟨index, hit, rfl⟩ := Option.map_eq_some_iff.1 h
  refine ⟨rfl, ?_⟩
  rw [Option.or_eq_some_iff, Option.or_eq_some_iff, Option.or_eq_none_iff] at hit
  rcases hit with (first | ⟨none₁, second⟩) | ⟨⟨none₁, none₂⟩, third⟩
  · refine ⟨1, isLeast_toLex (isLeast_found (fun _ => pass_one_iff) first) fun pass less => ?_⟩
    exact found_eq_empty (by omega)
  · refine ⟨2, isLeast_toLex (isLeast_found (fun _ => pass_two_iff) second) fun pass less => ?_⟩
    by_cases first : pass = 1
    · exact first ▸ (found_eq_empty_iff fun _ => pass_one_iff).1 none₁
    · exact found_eq_empty (by omega)
  · refine ⟨3, isLeast_toLex (isLeast_found (fun _ => pass_three_iff) third) fun pass less => ?_⟩
    by_cases first : pass = 1
    · exact first ▸ (found_eq_empty_iff fun _ => pass_one_iff).1 none₁
    by_cases second : pass = 2
    · exact second ▸ (found_eq_empty_iff fun _ => pass_two_iff).1 none₂
    · exact found_eq_empty (by omega)

theorem boundMethod?_eq_none_iff : offer.boundMethod? written args object = none ↔
    passes written args (offer.registry.type object.type).methods = ∅ := by
  have every : passes written args (offer.registry.type object.type).methods = ∅ ↔
      ∀ pass, found written args (offer.registry.type object.type).methods pass = ∅ :=
    toLex_eq_empty_iff (f := found written args (offer.registry.type object.type).methods)
  unfold boundMethod?
  dsimp only
  rw [Option.map_eq_none_iff, Option.or_eq_none_iff, Option.or_eq_none_iff,
    found_eq_empty_iff fun _ => pass_one_iff, found_eq_empty_iff fun _ => pass_two_iff,
    found_eq_empty_iff fun _ => pass_three_iff, every]
  refine ⟨fun none pass => ?_, fun none => ⟨⟨none 1, none 2⟩, none 3⟩⟩
  by_cases other : pass ≠ 1 ∧ pass ≠ 2 ∧ pass ≠ 3
  · exact found_eq_empty other
  · obtain rfl | rfl | rfl : pass = 1 ∨ pass = 2 ∨ pass = 3 := by omega
    · exact none.1.1
    · exact none.1.2
    · exact none.2

/-- The methods that a called name may mean of one of the instances, by its place. -/
def offeredBy (offer : Surface) (written : String) (args : List Value) (place : ℕ) : Set (ℕ ×ₗ ℕ) :=
  {k | ∃ object, offer.instances[place]? = some object ∧
    k ∈ passes written args (offer.registry.type object.type).methods}

theorem offeredBy_of_getElem? {place : ℕ} (there : offer.instances[place]? = some object) :
    offer.offeredBy written args place =
      passes written args (offer.registry.type object.type).methods := by
  ext k
  exact ⟨fun ⟨other, same, mem⟩ => Option.some.inj (there.symm.trans same) ▸ mem,
    fun mem => ⟨object, there, mem⟩⟩

/-- **The method that a called name means** is the least by instance, pass and place. -/
theorem isLeast_calledMethod? (h : offer.calledMethod? written args = some bound) :
    ∃ place pass, offer.instances[place]? = some bound.holder ∧
      IsLeast (fallbacks offer.registry offer.instances written args)
        (toLex (place, toLex (pass, bound.index))) := by
  obtain ⟨before, object, after, split, here, none⟩ := List.findSome?_eq_some_iff.1 h
  obtain ⟨rfl, pass, least⟩ := of_boundMethod? here
  have there : offer.instances[before.length]? = some bound.holder := by
    rw [split, List.getElem?_append_right (Nat.le_refl _), Nat.sub_self]
    rfl
  refine ⟨before.length, pass, there, ?_⟩
  refine isLeast_toLex (f := offer.offeredBy written args) ?_ fun place less => ?_
  · rw [offeredBy_of_getElem? there]
    exact least
  · have earlier : offer.instances[place]? = some before[place] := by
      rw [split, List.getElem?_append_left less, List.getElem?_eq_getElem less]
    rw [offeredBy_of_getElem? earlier]
    exact boundMethod?_eq_none_iff.1 (none _ (List.getElem_mem less))

theorem calledMethod?_eq_none_iff : offer.calledMethod? written args = none ↔
    fallbacks offer.registry offer.instances written args = ∅ := by
  have every : fallbacks offer.registry offer.instances written args = ∅ ↔
      ∀ place, offer.offeredBy written args place = ∅ :=
    toLex_eq_empty_iff (f := offer.offeredBy written args)
  unfold calledMethod?
  rw [List.findSome?_eq_none_iff, every]
  constructor
  · intro none place
    cases there : offer.instances[place]? with
    | none =>
      refine Set.eq_empty_iff_forall_notMem.2 ?_
      rintro k ⟨object, found, -⟩
      cases there.symm.trans found
    | some object =>
      rw [offeredBy_of_getElem? there]
      exact boundMethod?_eq_none_iff.1 (none object (List.mem_of_getElem? there))
  · intro none object mem
    obtain ⟨place, there⟩ := List.getElem?_of_mem mem
    exact boundMethod?_eq_none_iff.2 (offeredBy_of_getElem? there ▸ none place)

/-- The least of the methods that a called name may mean is the one that it means. -/
theorem calledMethod?_of_isLeast {place pass index : ℕ}
    (least : IsLeast (fallbacks offer.registry offer.instances written args)
      (toLex (place, toLex (pass, index)))) (there : offer.instances[place]? = some object) :
    offer.calledMethod? written args = some ⟨object, index⟩ := by
  cases chosen : offer.calledMethod? written args with
  | none => exact absurd least.1 (calledMethod?_eq_none_iff.1 chosen ▸ Set.notMem_empty _)
  | some bound =>
    obtain ⟨place', pass', found, best⟩ := isLeast_calledMethod? chosen
    obtain ⟨rfl, inner⟩ := Prod.mk.inj (toLex.injective (best.unique least))
    obtain ⟨rfl, rfl⟩ := Prod.mk.inj (toLex.injective inner)
    obtain rfl := Option.some.inj (there.symm.trans found)
    rfl

end Surface

/-! ## Calls -/

namespace Store

variable {registry : Registry} {s : Store}

/-- **Calling a name that is bound nowhere** calls the method that it means of an instance. -/
theorem Faithful.dispatch_fallback (h : s.Faithful registry) (rt : RuntimeId) (module : NamespaceId)
    (name : String) (arity : Nat) (args : List Value) {bound : BoundMethod} {m : Method}
    (free : s.named? (s.runtime rt).globals module name = none)
    (offered : ((s.runtime rt).surface registry).calledMethod? name args = some bound)
    (there : (registry.type bound.holder.type).methods[bound.index]? = some m) :
    let effect := m.run (if m.isStatic then none else some (.object bound.holder))
      (Params.coerce m.params args) s.toHeap
    (s.dispatch registry rt module (.call name arity) args).1 = .reply effect.1 ∧
      (s.dispatch registry rt module (.call name arity) args).2.toHeap = effect.2 := by
  obtain ⟨same, alike⟩ := h.agree_dispatch (.refl s) rt module (.call name arity) args
  have afresh : s.dispatchAfresh registry rt module (.call name arity) args =
      s.perform registry (s.runtime rt).globals module
        (.callNamed (((s.runtime rt).surface registry).calledMethod? name args)) (.call name arity)
        args := rfl
  rw [same, alike.heap, afresh, offered]
  unfold Store.perform
  dsimp only [Signature.call]
  rw [free]
  dsimp only
  unfold callMethod
  rw [there]
  exact ⟨rfl, rfl⟩

end Store

/-- **Bare calls fall back to the first instance that takes them.**  A call of a name that no scope
declares is compiled to an operation that is resolved when it is made.  Wherever a session has come to
since a runtime has been built, and whatever has been decided before:

* if the module binds the name in any casing, or else the globals do, the value bound now is called, and
  nothing else is done;
* if not, the method that is run is the least, by instance, pass and place, of those that the name may mean
  for the arguments, on its instance unless it is static;
* if there are none, the call fails. -/
theorem bare_calls_fall_back (registry : Registry) :
    (∀ (places : Compile.Places) (span inner : Span) (name : String) (args : List Node)
      (w w' : Compile.Workspace) (code : Code), w.scopes.find? name = none →
        Compile.Yields (Compile.node places (.call span (.named inner name) args)) w code w' →
          ∃ operands between, Compile.Yields (Compile.nodes places args) w operands between ∧
            code = .dispatch (places span) (.call name operands.length) operands) ∧
    ∀ (s t : Store) (rt : RuntimeId) (libraries : List (List TypeInfo)) (instances : List HostObject)
      (extension : String) (past : List Config) (other : Setting) (d : Config), Reached registry s →
      s.buildRuntime registry libraries instances extension = (rt, t) →
        Course (Over registry) (.idle t) past (.busy other d) →
          ∀ (env : Env) (position : Position) (name : String) (arity : Nat) (args : List Value)
            (rest : List Pending), env.runtime = rt →
            d.Operates env position (.call name arity) args rest →
              (∀ spelled v, Text.fold spelled = Text.fold name →
                (d.store.get? env.module spelled = some v ∨ d.store.get? env.module spelled = none ∧
                  d.store.get? (d.store.runtime rt).globals spelled = some v) →
                  ∃ u, u.toHeap = d.store.toHeap ∧ (Machine.step other)^[2] d =
                    (Outcome.ofCall (some name) v args).goOn env (.locate position :: rest) u) ∧
              (d.store.get? env.module name = none →
                d.store.get? (d.store.runtime rt).globals name = none →
                  (∀ place pass index, IsLeast (fallbacks registry instances name args)
                    (toLex (place, toLex (pass, index))) →
                      ∃ object m u, instances[place]? = some object ∧
                        (registry.type object.type).methods[index]? = some m ∧
                        (Machine.step other)^[2] d =
                          ⟨.ofReply (m.run (if m.isStatic then none else some (.object object))
                            (Params.coerce m.params args) d.store.toHeap).1, .locate position :: rest, u⟩ ∧
                        u.toHeap = (m.run (if m.isStatic then none else some (.object object))
                          (Params.coerce m.params args) d.store.toHeap).2) ∧
                  (fallbacks registry instances name args = ∅ →
                    ∃ u, u.toHeap = d.store.toHeap ∧ (Machine.step other)^[2] d =
                      ⟨.fail (.missingMember name "module"), .locate position :: rest, u⟩)) := by
  refine ⟨?_, ?_⟩
  · intro places span inner name args w w' code undeclared h
    obtain ⟨operands, between, made, ⟨_, declared, -⟩ | ⟨-, rfl, -⟩⟩ := h.callName
    · cases undeclared.symm.trans declared
    · exact ⟨operands, between, made, rfl⟩
  · intro s t rt libraries instances extension past other d reached built course env position name arity
      args rest own operates
    obtain ⟨shared, faithful⟩ := faithful_of_built reached built course
    have surface : (d.store.runtime rt).surface registry = ⟨registry, boundTypes libraries, instances⟩ :=
      surface_of_built built course registry
    subst own
    rw [operates.twice, shared]
    obtain ⟨bound, free⟩ := faithful.dispatch_call env.runtime env.module name arity args
    refine ⟨fun spelled v same binds => ?_, fun unbound unknown => ⟨fun place pass index least => ?_,
      fun none => ?_⟩⟩
    · have named : d.store.named? (d.store.runtime env.runtime).globals env.module name = some v := by
        have spell (id : NamespaceId) : d.store.get? id name = d.store.get? id spelled :=
          Namespace.get?_congr _ same.symm
        unfold Store.named?
        rw [spell, spell]
        rcases binds with here | ⟨missing, there⟩
        · rw [here]
          rfl
        · rw [missing, there]
          rfl
      obtain ⟨heap, outcome⟩ := bound v named
      exact ⟨_, heap, by rw [outcome]⟩
    · have named : d.store.named? (d.store.runtime env.runtime).globals env.module name = none := by
        unfold Store.named?
        rw [unbound, unknown]
        rfl
      obtain ⟨object, there, m, placed, -⟩ := least.1
      have offered : ((d.store.runtime env.runtime).surface registry).calledMethod? name args =
          some ⟨object, index⟩ := by
        rw [surface]
        exact Surface.calledMethod?_of_isLeast least there
      obtain ⟨outcome, heap⟩ :=
        faithful.dispatch_fallback env.runtime env.module name arity args named offered placed
      exact ⟨object, m, _, there, placed, by rw [outcome]; rfl, heap⟩
    · have named : d.store.named? (d.store.runtime env.runtime).globals env.module name = .none := by
        unfold Store.named?
        rw [unbound, unknown]
        rfl
      have unoffered : ((d.store.runtime env.runtime).surface registry).calledMethod? name args = .none := by
        rw [surface]
        exact Surface.calledMethod?_eq_none_iff.2 none
      obtain ⟨heap, outcome⟩ := free named unoffered
      exact ⟨_, heap, by rw [outcome]; rfl⟩

/-- The operation without operands that a machine is about to make. -/
def Config.bare? (c : Config) : Option (Env × Position × Signature) :=
  match c.control with
  | .eval env (.dispatch position signature []) => some (env, position, signature)
  | _ => none

theorem Config.operates_of_bare? {c : Config} {env : Env} {position : Position} {signature : Signature}
    (h : c.bare? = some (env, position, signature)) :
    c.Operates env position signature [] c.stack := by
  unfold bare? at h
  split at h
  next found =>
    obtain ⟨rfl, rest⟩ := Prod.mk.inj (Option.some.inj h)
    obtain ⟨rfl, rfl⟩ := Prod.mk.inj rest
    exact .bare found
  next => cases h

/-- The function that a value is. -/
def Value.function? : Value → Option FunctionInfo
  | .function f => some f
  | _ => none

theorem Value.eq_of_function? {v : Value} {f : FunctionInfo} (h : v.function? = some f) :
    v = .function f := by
  cases v with
  | function g => exact congrArg Value.function (Option.some.inj h)
  | _ => cases h

/-- A method that answers 7. -/
def counterBump : Method := .onValue "Bump" [] fun _ _ => .pure (.value (.int 7))

/-- A host with a type of counters. -/
def counterHost : TypeInfo × Registry :=
  Registry.initial.register ((TypeDraft.named "Counter").method counterBump)

/-- A runtime of that host that an instance is injected in. -/
def counterBuilt : RuntimeId × Store :=
  Store.empty.buildRuntime counterHost.2 [] [⟨counterHost.1, ⟨0⟩⟩] ""

/-- The setting of that host. -/
def counterSetting : Setting := ⟨counterHost.2, #[], .empty⟩

/-- A name that is called twice: a method of the instance answers, and, once the module has bound the name,
its function is entered, though the method has been remembered. -/
theorem bare_calls_fall_back_counter :
    ∃ c, Request.begin counterSetting (counterBuilt.2.changeHeap fun h => h.newSpace.2)
        (.source counterBuilt.1 ⟨2⟩ "bump(); function Bump() { 8 } bump()") = .running c ∧
      (∃ rest u, (Machine.step counterSetting)^[2] ((Machine.step counterSetting)^[1] c) =
        ⟨.value (.int 7), rest, u⟩) ∧
      ∃ rest u, (Machine.step counterSetting)^[2] ((Machine.step counterSetting)^[13] c) =
        ⟨.enter ⟨⟨0⟩, "Bump", 0⟩ [], rest, u⟩ := by
  have runs : (match Request.begin counterSetting (counterBuilt.2.changeHeap fun h => h.newSpace.2)
      (.source counterBuilt.1 ⟨2⟩ "bump(); function Bump() { 8 } bump()") with
    | .running c => decide (
        ((Machine.step counterSetting)^[1] c).bare? =
          some (⟨⟨0⟩, ⟨2⟩, counterBuilt.1⟩, ⟨1, 1⟩, .call "bump" 0) ∧
        (((Machine.step counterSetting)^[1] c).store.get? ⟨2⟩ "bump").isNone = true ∧
        (((Machine.step counterSetting)^[1] c).store.get?
          (((Machine.step counterSetting)^[1] c).store.runtime counterBuilt.1).globals "bump").isNone =
            true ∧
        ((Machine.step counterSetting)^[13] c).bare? =
          some (⟨⟨0⟩, ⟨2⟩, counterBuilt.1⟩, ⟨1, 31⟩, .call "bump" 0) ∧
        (((Machine.step counterSetting)^[13] c).store.get? ⟨2⟩ "bump").bind Value.function? =
          some ⟨⟨0⟩, "Bump", 0⟩)
    | .done _ _ => false) = true := by decide +kernel
  have meant : Surface.calledMethod? ⟨counterHost.2, [], [⟨counterHost.1, ⟨0⟩⟩]⟩ "bump" [] =
      some ⟨⟨counterHost.1, ⟨0⟩⟩, 0⟩ := by decide +kernel
  split at runs
  next c begins =>
    obtain ⟨calls, unbound, unknown, again, bound⟩ := of_decide_eq_true runs
    have changed : Request.begin counterSetting counterBuilt.2 (.change fun h => h.newSpace.2) =
        .done (.ok .null) (counterBuilt.2.changeHeap fun h => h.newSpace.2) := rfl
    have shared (s : Store) (request : Request) : Over counterHost.2 counterSetting s request := rfl
    have launched : Course (Over counterHost.2) (.idle counterBuilt.2) [] (.busy counterSetting c) :=
      .begun (.done .start (shared _ _) changed) (shared _ _) begins
    obtain ⟨-, sessions⟩ := bare_calls_fall_back counterHost.2
    have session := fun n => sessions .empty _ _ _ _ "" _ _ _ .start Prod.mk.eta.symm (launched.trace n)
    refine ⟨c, begins, ?_, ?_⟩
    · obtain ⟨-, free⟩ := session 1 _ _ _ _ _ _ rfl (Config.operates_of_bare? calls)
      obtain ⟨fallback, -⟩ :=
        free (Option.isNone_iff_eq_none.1 unbound) (Option.isNone_iff_eq_none.1 unknown)
      obtain ⟨place, pass, own, least⟩ := Surface.isLeast_calledMethod? meant
      obtain ⟨object, m, u, there, placed, steps, -⟩ := fallback place pass 0 least
      obtain rfl := Option.some.inj (own.symm.trans there)
      have bump : (counterHost.2.type counterHost.1).methods[0]? = some counterBump := rfl
      obtain rfl := Option.some.inj (bump.symm.trans placed)
      exact ⟨_, u, steps⟩
    · obtain ⟨found, -⟩ := session 13 _ _ _ _ _ _ rfl (Config.operates_of_bare? again)
      obtain ⟨v, here, is_function⟩ := Option.bind_eq_some_iff.1 bound
      obtain rfl := Value.eq_of_function? is_function
      obtain ⟨u, -, steps⟩ := found "bump" _ rfl (.inl here)
      exact ⟨_, u, steps⟩
  next => cases runs

end HostScript
