import HostScript.Proofs.Dispatch.Comparisons
import HostScript.Proofs.Dispatch.Overloads

/-!
# Proofs/Dispatch/Answers — what operations answer, whatever has been decided

An operation *answers* a result in a store if it comes to that result under all rules that are faithful,
and changes nothing but rules; so operations that answer can follow each other in one and the same store.
It is enough that the operation does so afresh (`answers_of_chosen`), and there is no other answer
(`Answers.unique`).

Members of a registered type answer what its draft says: the first method or property that the name may
mean there is found in the draft alone (`answers_call`, `answers_read`).
-/

namespace HostScript

/-- What operations answer for arguments, as a script sees it. -/
abbrev Answering := Signature → List Value → Except EvalError.Cause Value → Prop

namespace Store

variable {s : Store} {registry : Registry} {rt : RuntimeId} {module : NamespaceId} {signature : Signature}
  {args : List Value} {r : Except EvalError.Cause Value}

/-- **What an operation answers** in a store, whatever has been decided there. -/
def Answers (s : Store) (registry : Registry) (rt : RuntimeId) (module : NamespaceId)
    (signature : Signature) (args : List Value) (r : Except EvalError.Cause Value) : Prop :=
  ∀ t : Store, t.Alike s → t.Faithful registry →
    (t.dispatch registry rt module signature args).1 = .ofExcept r ∧
      (t.dispatch registry rt module signature args).2.Alike s

/-- A store in which nothing has been decided. -/
def undecided (s : Store) : Store := { s with runtimes := s.runtimes.map Runtime.undecided }

theorem alike_undecided (s : Store) : s.undecided.Alike s := by
  refine ⟨rfl, rfl, rfl, ?_⟩
  show (s.runtimes.map Runtime.undecided).map Runtime.undecided = _
  rw [Array.map_map]
  rfl

theorem faithful_undecided (s : Store) (registry : Registry) : s.undecided.Faithful registry := by
  intro rt
  have empty : (s.undecided.runtime rt).rules = .empty := by
    unfold runtime undecided
    rw [Array.getElem?_map]
    cases s.runtimes[rt.index]? <;> rfl
  rw [empty]
  exact Rules.faithful_empty

/-- **An operation has one answer.** -/
theorem Answers.unique {r' : Except EvalError.Cause Value}
    (h : s.Answers registry rt module signature args r)
    (k : s.Answers registry rt module signature args r') : r = r' := by
  have first := (h _ s.alike_undecided (s.faithful_undecided registry)).1
  have second := (k _ s.alike_undecided (s.faithful_undecided registry)).1
  have same : Outcome.ofExcept r = .ofExcept r' := first.symm.trans second
  cases r <;> cases r' <;> cases same <;> rfl

/-- **What is answered afresh is answered** under all faithful rules. -/
theorem answers_of_chosen {action : Action}
    (chosen : ((s.runtime rt).surface registry).choose signature args = action)
    (performed : s.perform registry (s.runtime rt).globals module action signature args =
      (.ofExcept r, s)) : s.Answers registry rt module signature args r := by
  intro t alike faithful
  have agree := faithful.agree_dispatch alike rt module signature args
  rw [dispatchAfresh, chosen, performed] at agree
  exact agree

/-! ## Operators -/

theorem answers_binary (op : BinaryOp) (a b : Value) :
    s.Answers registry rt module (.binary op) [a, b] (op.applied a b) := by
  have chosen : ((s.runtime rt).surface registry).choose (.binary op) [a, b] =
      .binary op (.between a.shape b.shape) := by
    simp [Surface.choose, Signature.binary]
  exact answers_of_chosen chosen rfl

theorem answers_unary (op : UnaryOp) (v : Value) :
    s.Answers registry rt module (.unary op) [v] (op.evaluate v) := by
  have chosen : ((s.runtime rt).surface registry).choose (.unary op) [v] = .unary op := by
    cases op <;> rfl
  exact answers_of_chosen chosen rfl

end Store

/-! ## Members of registered types -/

/-- The description that a draft becomes when it is registered. -/
def TypeDraft.described (d : TypeDraft) (info : TypeInfo) : HostType :=
  ⟨info, d.methods, d.properties, d.constructors, d.indexer?⟩

namespace TypeDraft

variable {d : TypeDraft} {written : String} {isStatic : Bool} {args : List Value} {place : Nat}

/-- The first method that a name may mean for arguments. -/
def methodFor? (d : TypeDraft) (written : String) (isStatic : Bool) (args : List Value) :
    Option (Method × Nat) :=
  (membersNamed Method.name d.methods written).find? fun m =>
    m.1.isStatic == isStatic && Params.accept m.1.params args

/-- The first property that a name may mean. -/
def propertyFor? (d : TypeDraft) (written : String) (isStatic : Bool) : Option (Property × Nat) :=
  (membersNamed Property.name d.properties written).find? fun p => p.1.isStatic == isStatic

theorem methodFor?_samples :
    d.methodFor? written isStatic (samples args) = d.methodFor? written isStatic args := by
  unfold methodFor?
  simp only [Params.accept_samples]

/-- A method is known by its place. -/
theorem methodFor?_eq_some {m : Method}
    (found : (d.methodFor? written isStatic (samples args)).map Prod.snd = some place)
    (there : d.methods[place]? = some m) : d.methodFor? written isStatic args = some (m, place) := by
  rw [methodFor?_samples] at found
  obtain ⟨⟨other, index⟩, hit, rfl⟩ := Option.map_eq_some_iff.1 found
  have placed := (mem_membersNamed.1 (List.mem_of_find?_eq_some hit)).1
  obtain rfl := Option.some.inj (placed.symm.trans there)
  exact hit

/-- A property is known by its place. -/
theorem propertyFor?_eq_some {p : Property}
    (found : (d.propertyFor? written isStatic).map Prod.snd = some place)
    (there : d.properties[place]? = some p) : d.propertyFor? written isStatic = some (p, place) := by
  obtain ⟨⟨other, index⟩, hit, rfl⟩ := Option.map_eq_some_iff.1 found
  have placed := (mem_membersNamed.1 (List.mem_of_find?_eq_some hit)).1
  obtain rfl := Option.some.inj (placed.symm.trans there)
  exact hit

end TypeDraft

namespace Registry

variable {registry : Registry} {d : TypeDraft}

theorem type_register (registry : Registry) (d : TypeDraft) :
    (registry.register d).2.type (registry.register d).1 = d.described (registry.register d).1 := by
  unfold Registry.type register
  dsimp only
  rw [Array.getElem?_push_size]
  rfl

/-- Registering another type changes nothing for those that are registered. -/
theorem type_register_of_lt {info : TypeInfo} (inside : info.id.index < registry.types.size)
    (d : TypeDraft) : (registry.register d).2.type info = registry.type info := by
  unfold Registry.type register
  dsimp only
  rw [Array.getElem?_push_lt inside, Array.getElem?_eq_getElem inside]

end Registry

namespace Store

variable {s : Store} {registry : Registry} {rt : RuntimeId} {module : NamespaceId} {d : TypeDraft}
  {info : TypeInfo} {receiver : Receiver} {rest : List (TypeInfo × Receiver)} {v : Value} {args : List Value}
  {written : String} {r : Except EvalError.Cause Value} {place : Nat}

/-- **Calling a member** of a value answers what the method of the draft does, if no source of the value's
members before that of the draft's type has a method that takes the arguments. -/
theorem answers_call_after {m : Method} {before : List (TypeInfo × Receiver)}
    (plain : ∀ id, v ≠ .space id)
    (sources : ((s.runtime rt).surface registry).memberSources v = before ++ (info, receiver) :: rest)
    (free : ∀ source ∈ before, ((s.runtime rt).surface registry).callable written args source = ∅)
    (registered : registry.type info = d.described info)
    (found : (d.methodFor? written (receiver == .static) (samples args)).map Prod.snd = some place)
    (there : d.methods[place]? = some m)
    (runs : replied (s.onHeap (m.run (receiverOf receiver (v :: args)) (Params.coerce m.params args))) =
      (.ofExcept r, s)) :
    s.Answers registry rt module (.invokeMember written args.length) (v :: args) r := by
  have taken : ((s.runtime rt).surface registry).taking? written args (info, receiver) =
      some (m, place) := by
    rw [Surface.taking?_eq]
    show (membersNamed Method.name (registry.type info).methods written).find? _ = _
    rw [registered]
    exact TypeDraft.methodFor?_eq_some found there
  have first : Surface.findInSources (((s.runtime rt).surface registry).taking? written args)
      (((s.runtime rt).surface registry).memberSources v) = some ((info, receiver), m, place) := by
    rw [sources]
    exact Surface.findInSources_of_before
      (fun source mem => (Surface.taking?_eq_none_iff source).2 (free source mem)) taken
  have placed : (d.described info).methods[place]? = some m := there
  refine answers_of_chosen (Surface.choose_invokeMember_of_found plain first) ?_
  unfold perform callMethod
  dsimp only
  rw [registered, placed]
  exact runs

/-- Calling a member of a value that has the members of the draft's type first. -/
theorem answers_call {m : Method} (plain : ∀ id, v ≠ .space id)
    (sources : ((s.runtime rt).surface registry).memberSources v = (info, receiver) :: rest)
    (registered : registry.type info = d.described info)
    (found : (d.methodFor? written (receiver == .static) (samples args)).map Prod.snd = some place)
    (there : d.methods[place]? = some m)
    (runs : replied (s.onHeap (m.run (receiverOf receiver (v :: args)) (Params.coerce m.params args))) =
      (.ofExcept r, s)) :
    s.Answers registry rt module (.invokeMember written args.length) (v :: args) r :=
  answers_call_after plain (sources.trans (List.nil_append _).symm) (List.forall_mem_nil _) registered
    found there runs

/-- **Reading a member** of a value answers what the property of the draft does, if the value has the
members of the draft's type first. -/
theorem answers_read {p : Property} (plain : ∀ id, v ≠ .space id)
    (sources : ((s.runtime rt).surface registry).memberSources v = (info, receiver) :: rest)
    (registered : registry.type info = d.described info)
    (found : (d.propertyFor? written (receiver == .static)).map Prod.snd = some place)
    (there : d.properties[place]? = some p)
    (runs : replied (s.onHeap (p.get (receiverOf receiver [v]))) = (.ofExcept r, s)) :
    s.Answers registry rt module (.getMember written) [v] r := by
  have here : ((s.runtime rt).surface registry).property? written (info, receiver) = some (p, place) := by
    unfold Surface.property?
    show (membersNamed Property.name (registry.type info).properties written).find? _ = _
    rw [registered]
    exact TypeDraft.propertyFor?_eq_some found there
  have first : Surface.findInSources (((s.runtime rt).surface registry).property? written)
      (((s.runtime rt).surface registry).memberSources v) = some ((info, receiver), p, place) := by
    rw [sources, Surface.findInSources, here]
  have placed : (d.described info).properties[place]? = some p := there
  refine answers_of_chosen (Surface.choose_property_of_found plain .null first).1 ?_
  unfold perform
  dsimp only
  rw [registered, placed]
  exact runs

end Store

end HostScript
