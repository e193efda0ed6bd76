import HostScript.Proofs.Dispatch.HostCalls

/-!
# Proofs/Dispatch/Callbacks — members of hosts get what they have declared

A machine that is about to call a method or constructor goes on after the member's answer; one that is
not makes the step it would make if no method or constructor did anything.  With what is known of the
calls themselves this gives `host_calls_honoured`: in all states of all machines, what arrives at a
member is what the member has declared.
-/

namespace HostScript

/-! ## Nothing else is called -/

/-- A method that answers null at once. -/
def Method.silent (m : Method) : Method := { m with run := fun _ _ => .pure (.value .null) }

theorem Method.params_silent (m : Method) : m.silent.params = m.params := rfl

/-- A constructor that answers null at once. -/
def Constructor.silent (c : Constructor) : Constructor :=
  { c with run := fun _ _ => .pure (.value .null) }

/-- A type with the same declarations whose methods and constructors do nothing. -/
def HostType.silent (t : HostType) : HostType :=
  { t with methods := t.methods.map Method.silent, constructors := t.constructors.map Constructor.silent }

/-- The types with the same declarations, whose methods and constructors do nothing. -/
def Registry.silent (r : Registry) : Registry := ⟨r.types.map HostType.silent⟩

theorem Registry.type_silent (r : Registry) (info : TypeInfo) :
    r.silent.type info = (r.type info).silent := by
  unfold type silent
  rw [Array.getElem?_map]
  cases r.types[info.id.index]? <;> rfl

theorem membersNamed_map {α : Type} (nameOf : α → String) (f : α → α)
    (kept : ∀ m, nameOf (f m) = nameOf m) (members : List α) (written : String) :
    membersNamed nameOf (members.map f) written =
      (membersNamed nameOf members written).map fun m => (f m.1, m.2) := by
  unfold membersNamed
  rw [List.map_flatMap]
  refine List.flatMap_congr fun spelling _ => ?_
  rw [List.zipIdx_map, List.filter_map]
  simp only [Function.comp_def, Prod.map_fst, kept]
  rfl

namespace Surface

/-- What a host offers, with methods and constructors that do nothing. -/
def silent (offer : Surface) : Surface := { offer with registry := offer.registry.silent }

variable (offer : Surface)

theorem methodsNamed_silent (written : String) (source : TypeInfo × Receiver) :
    offer.silent.methodsNamed written source =
      (offer.methodsNamed written source).map fun m => (m.1.silent, m.2) := by
  unfold methodsNamed silent
  rw [Registry.type_silent]
  show List.filter _ (membersNamed _ ((offer.registry.type source.1).methods.map Method.silent) _) = _
  rw [membersNamed_map Method.name Method.silent fun _ => rfl, List.filter_map]
  rfl

theorem property?_silent : offer.silent.property? = offer.property? := by
  funext written source
  unfold property? silent
  rw [Registry.type_silent]
  rfl

theorem indexerType?_silent : offer.silent.indexerType? = offer.indexerType? := by
  funext v
  unfold indexerType? silent
  simp only [Registry.type_silent, HostType.silent]

theorem getMember_silent (written : String) (v : Value) :
    offer.silent.getMember written v = offer.getMember written v := by
  unfold getMember
  rw [property?_silent]
  rfl

theorem setMember_silent (written : String) (v : Value) :
    offer.silent.setMember written v = offer.setMember written v := by
  unfold setMember
  rw [property?_silent]
  rfl

theorem getIndex_silent (v : Value) (args : List Value) :
    offer.silent.getIndex v args = offer.getIndex v args := by
  unfold getIndex
  rw [indexerType?_silent]

theorem setIndex_silent (v : Value) (args : List Value) :
    offer.silent.setIndex v args = offer.setIndex v args := by
  unfold setIndex
  rw [indexerType?_silent]

theorem findInSources_map {α β : Type} (f : α → β) (find : TypeInfo × Receiver → Option α)
    (sources : List (TypeInfo × Receiver)) :
    findInSources (fun source => (find source).map f) sources =
      (findInSources find sources).map fun found => (found.1, f found.2) := by
  induction sources with
  | nil => rfl
  | cons source rest ih =>
    rw [findInSources, findInSources]
    cases find source with
    | none => exact ih
    | some found => rfl

theorem invokeMember_silent (written : String) (v : Value) (args : List Value) :
    offer.silent.invokeMember written v args = offer.invokeMember written v args := by
  have sources : offer.silent.memberSources = offer.memberSources := rfl
  unfold invokeMember
  dsimp only
  rw [sources]
  simp only [methodsNamed_silent, List.find?_map, Function.comp_def, findInSources_map,
    List.isEmpty_map, Method.params_silent]
  split
  · rfl
  · cases findInSources (fun source => (offer.methodsNamed written source).find? fun m =>
      Params.accept m.1.params args) (offer.memberSources v) <;> rfl

theorem createInstance_silent (v : Value) (args : List Value) :
    offer.silent.createInstance v args = offer.createInstance v args := by
  unfold createInstance silent
  simp only [Registry.type_silent]
  split
  · dsimp only [HostType.silent]
    rw [List.findIdx?_map]
    rfl
  · rfl

theorem calledMethod?_silent (written : String) (args : List Value) :
    offer.silent.calledMethod? written args = offer.calledMethod? written args := by
  unfold calledMethod? boundMethod? silent
  simp only [Registry.type_silent, HostType.silent, List.findIdx?_map]
  rfl

/-- **A choice is made from declarations.** -/
theorem choose_silent (signature : Signature) (args : List Value) :
    offer.silent.choose signature args = offer.choose signature args := by
  unfold choose
  dsimp only
  rw [getMember_silent, setMember_silent, invokeMember_silent, getIndex_silent, setIndex_silent,
    createInstance_silent, calledMethod?_silent]

end Surface

namespace Store

variable {s : Store} {globals module : NamespaceId} {signature : Signature} {args : List Value}
  {registry : Registry} {action : Action}

/-- An action that calls a host member answers with what the member does. -/
theorem perform_of_hostCall? {call : HostCall}
    (h : action.hostCall? registry s globals module signature.name args = some call) :
    s.perform registry globals module action signature args = replied (s.onHeap call.effect) := by
  cases action with
  | callNamed fallback? =>
    cases fallback? with
    | none => cases h
    | some bound =>
      unfold Action.hostCall? at h
      dsimp only at h
      split at h
      next => cases h
      next free =>
        obtain ⟨m, there, rfl⟩ := Option.map_eq_some_iff.1 h
        unfold perform callMethod
        dsimp only
        rw [free]
        dsimp only
        rw [there]
        rfl
  | invokeMethod type index receiver =>
    obtain ⟨m, there, rfl⟩ := Option.map_eq_some_iff.1 h
    unfold perform callMethod
    dsimp only
    rw [there]
    rfl
  | construct type index =>
    obtain ⟨c, there, rfl⟩ := Option.map_eq_some_iff.1 h
    unfold perform
    dsimp only
    rw [there]
    rfl
  | _ => cases h

theorem callMethod_silent {type : TypeInfo} {index : Nat} (receiver : Method → Option Value)
    (name : String) (h : (registry.type type).methods[index]? = none) :
    s.callMethod registry.silent type index receiver name args =
      s.callMethod registry type index receiver name args := by
  unfold callMethod
  rw [Registry.type_silent, h]
  dsimp only [HostType.silent]
  rw [List.getElem?_map, h]
  rfl

/-- An action that calls no host member does not depend on what methods and constructors do. -/
theorem perform_silent
    (h : action.hostCall? registry s globals module signature.name args = none) :
    s.perform registry.silent globals module action signature args =
      s.perform registry globals module action signature args := by
  unfold perform
  dsimp only
  split
  case h_6 fallback =>
    unfold Action.hostCall? at h
    cases fallback with
    | none => cases s.named? globals module signature.name <;> rfl
    | some bound =>
      dsimp only at h
      split at h
      next found => rw [found]
      next free =>
        rw [free]
        exact callMethod_silent _ _ (Option.map_eq_none_iff.1 h)
  case h_8 => rw [Registry.type_silent]; rfl
  case h_9 => rw [Registry.type_silent]; rfl
  case h_10 type index receiver => exact callMethod_silent _ _ (Option.map_eq_none_iff.1 h)
  case h_11 type index =>
    have gone := Option.map_eq_none_iff.1 h
    rw [Registry.type_silent, gone]
    dsimp only [HostType.silent]
    rw [List.getElem?_map, gone]
    rfl
  case h_12 => rw [Registry.type_silent]; rfl
  case h_13 => rw [Registry.type_silent]; rfl
  all_goals rfl

theorem decide_silent (rt : RuntimeId) :
    s.decide registry.silent rt signature args = s.decide registry rt signature args := by
  unfold decide
  dsimp only
  rw [show (s.runtime rt).surface registry.silent = ((s.runtime rt).surface registry).silent from rfl,
    Surface.choose_silent]

end Store

/-! ## Machines -/

namespace Machine

variable {setting : Setting} {c : Config} {call : HostCall}

/-- A machine that calls a host member goes on after the member's answer, on the heap that the member
leaves behind. -/
theorem step_of_hostCall? (h : c.hostCall? setting = some call) :
    (step setting c).control = .ofReply (call.effect c.store.toHeap).1 ∧
      (step setting c).store.toHeap = (call.effect c.store.toHeap).2 := by
  obtain ⟨control, stack, s⟩ := c
  cases control with
  | dispatch env signature args =>
    have heap := (s.alike_decide setting.registry env.runtime signature args).heap
    unfold Config.hostCall? Store.hostCall? at h
    dsimp only at h
    unfold step Store.dispatch
    dsimp only
    rw [Store.perform_of_hostCall? h, ← heap]
    exact ⟨rfl, rfl⟩
  | _ => cases h

/-- A machine that calls no host member does not depend on what methods and constructors do. -/
theorem step_silent (h : c.hostCall? setting = none) :
    step { setting with registry := setting.registry.silent } c = step setting c := by
  obtain ⟨control, stack, s⟩ := c
  cases control with
  | dispatch env signature args =>
    unfold Config.hostCall? Store.hostCall? at h
    dsimp only at h
    unfold step Store.dispatch
    dsimp only
    rw [Store.decide_silent, Store.perform_silent h]
  | value v => cases stack <;> rfl
  | exit e => cases stack <;> rfl
  | _ => rfl

/-- A step from an operation to another hands the operation over. -/
theorem handed_of_step {env env' : Env} {signature other : Signature} {args passed : List Value}
    {stack : List Pending} {s : Store}
    (h : (step setting ⟨.dispatch env signature args, stack, s⟩).control =
      .dispatch env' other passed) :
    ∃ t, s.dispatch setting.registry env.runtime env.module signature args =
      (.dispatch other passed, t) := by
  have comes := stepsTo setting ⟨.dispatch env signature args, stack, s⟩
  generalize step setting _ = after at comes h
  cases comes with
  | @replies _ _ _ _ _ _ reply _ => cases reply <;> cases h
  | handsOver handed =>
    obtain ⟨-, rfl, rfl⟩ := Control.dispatch.inj h
    exact ⟨_, handed⟩
  | rests answered => cases answered

end Machine

/-- **What a machine ends up with passes on what is written**, where rules are faithful. -/
theorem Config.EndsUp.passes {setting : Setting} {c : Config} {call : HostCall}
    (h : c.EndsUp setting call) (faithful : c.store.Faithful setting.registry) {env : Env}
    {signature : Signature} {args : List Value} (operating : c.control = .dispatch env signature args) :
    call.Passes c.store (c.store.runtime env.runtime).globals env.module signature args := by
  induction h generalizing env signature args with
  | @now c call calls =>
    obtain ⟨control, stack, s⟩ := c
    obtain rfl : control = .dispatch env signature args := operating
    exact (faithful.honoured calls).2
  | @later c call env' other passed next _ ih =>
    obtain ⟨control, stack, s⟩ := c
    obtain rfl : control = .dispatch env signature args := operating
    obtain ⟨t, handed⟩ := Machine.handed_of_step next
    obtain ⟨same, kind⟩ := faithful.dispatch_handed handed
    rcases ih (Machine.faithful_step faithful) next with kept | ⟨named, -⟩
    · exact .inl (kept.trans same)
    · cases kind.symm.trans named

/-! ## Sessions -/

/-- **Host members get what they have declared.**  In every state of every machine that runs in a
session: where the next step calls a method or constructor, the call is honoured and the step goes on
after what the member does; where it calls none, it is the step that would be made if no method or
constructor did anything; and an operation that ends up with a call passes on the arguments that are
written for it, but for the conversion of those of a called name that nothing is bound to. -/
theorem host_calls_honoured {registry : Registry} {setting : Setting} {c : Config}
    (h : Moment registry setting c) :
    (∀ call, c.hostCall? setting = some call → call.Honoured ∧
      (Machine.step setting c).control = .ofReply (call.effect c.store.toHeap).1 ∧
      (Machine.step setting c).store.toHeap = (call.effect c.store.toHeap).2) ∧
    (c.hostCall? setting = none →
      Machine.step { setting with registry := setting.registry.silent } c =
        Machine.step setting c) ∧
    (∀ env signature args call, c.control = .dispatch env signature args → c.EndsUp setting call →
      call.Passes c.store (c.store.runtime env.runtime).globals env.module signature args) := by
  have faithful := (Invariant.faithful registry).moment h
  obtain rfl := h.registry_eq
  refine ⟨fun call calls => ⟨?_, Machine.step_of_hostCall? calls⟩, Machine.step_silent,
    fun env signature args call operating ends => ends.passes faithful operating⟩
  obtain ⟨control, stack, s⟩ := c
  cases control with
  | dispatch env signature args => exact (faithful.honoured calls).1
  | _ => cases calls

/-- A script asks the type of types for its name. -/
theorem host_calls_honoured_type_name :
    ∃ c call, Moment .initial ⟨.initial, #[], .empty⟩ c ∧
      c.hostCall? ⟨.initial, #[], .empty⟩ = some call ∧ call.Honoured := by
  let ask (request : Request) : Turn := ⟨⟨.initial, #[], .empty⟩, 0, request⟩
  let turns := [ask (.build [[metaInfo]] [] defaultExtension), ask (.change fun h => h.newSpace.2)]
  have shared : ∀ turn ∈ turns, turn.setting.registry = .initial := by
    intro turn mem
    simp only [turns, List.mem_cons, List.not_mem_nil, or_false] at mem
    rcases mem with rfl | rfl <;> rfl
  have reaches : ((Turn.stateAfter turns ⟨.initial, #[], .empty⟩
      (.source ⟨0⟩ ⟨2⟩ "System.Type.ToString()") 9).bind fun c =>
        c.hostCall? ⟨.initial, #[], .empty⟩).isSome = true := by decide +kernel
  obtain ⟨call, found⟩ := Option.isSome_iff_exists.1 reaches
  obtain ⟨c, reached, calls⟩ := Option.bind_eq_some_iff.1 found
  have here := Turn.moment_stateAfter shared rfl reached
  exact ⟨c, call, here, calls, ((host_calls_honoured here).1 call calls).1⟩

end HostScript
