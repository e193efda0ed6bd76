import HostScript.Proofs.Dispatch.Handover
import HostScript.Proofs.Dispatch.Transparency
import Mathlib.Data.List.Forall2

/-!
# Proofs/Dispatch/HostCalls — what host members are called with

A host declares what each of its methods and constructors takes.  The member is chosen for the shapes
of some arguments and called with others of these shapes, by its place and with arguments that are
converted on the way.  `Action.hostCall?` is the call that comes of an action; a chosen action calls as
has been declared (`Faithful.honoured`).
-/

namespace HostScript

/-! ## Calls -/

/-- A call of a method or of a constructor, with what it is given. -/
inductive HostCall where
  | method (m : Method) (receiver? : Option Value) (args : List Value)
  | construct (type : TypeInfo) (c : Constructor) (args : List Value)

namespace HostCall

/-- What is called does this. -/
def effect : HostCall → Effect
  | method m receiver? args => m.run receiver? args
  | construct type c args => c.run type args

/-- What is declared of the arguments. -/
def params : HostCall → List Param
  | method m _ _ => m.params
  | construct _ c _ => c.params

/-- The arguments given. -/
def args : HostCall → List Value
  | method _ _ args => args
  | construct _ _ args => args

/-- **What is called gets what it has declared.** -/
structure Honoured (call : HostCall) : Prop where
  /-- As many arguments as there are parameters. -/
  count : call.args.length = call.params.length
  /-- No parameter is one that scripts have no argument for. -/
  takes : ∀ p ∈ call.params, p.out = false ∧ p.type ≠ .char
  /-- Each argument is of the type of its parameter as it is. -/
  accepted : List.Forall₂ (fun p v => p.type.accepts v = true) call.params call.args
  /-- Methods have a receiver just if they are not static. -/
  receiver : ∀ m receiver? args, call = method m receiver? args → receiver?.isSome = !m.isStatic

/-- The arguments passed are the given ones, but for integers that have become the floats which
parameters ask for. -/
def PassesConverted (call : HostCall) (given : List Value) : Prop :=
  call.args.length = given.length ∧ ∀ i : Nat, call.args[i]? = given[i]? ∨
    ∃ n : Int64, given[i]? = some (.int n) ∧ call.args[i]? = some (.float n.toFloat) ∧
      (call.params[i]?).map (·.type) = some .float

end HostCall

/-- The call of a host member that an action makes of the arguments of an operation, if it makes
one. -/
def Action.hostCall? (action : Action) (registry : Registry) (s : Store)
    (globals module : NamespaceId) (name : String) (args : List Value) : Option HostCall :=
  match action with
  | .callNamed (some bound) =>
    match s.named? globals module name with
    | some _ => none
    | none =>
      (registry.type bound.holder.type).methods[bound.index]?.map fun m =>
        .method m (if m.isStatic then none else some (.object bound.holder))
          (Params.coerce m.params args)
  | .invokeMethod type index receiver =>
    (registry.type type).methods[index]?.map fun m =>
      .method m (Store.receiverOf receiver args) (Params.coerce m.params args.tail)
  | .construct type index =>
    (registry.type type).constructors[index]?.map fun c =>
      .construct type c (Params.coerce c.params args.tail)
  | _ => none

/-- The call of a host member that is made of an operation, if one is. -/
def Store.hostCall? (s : Store) (registry : Registry) (env : Env) (signature : Signature)
    (args : List Value) : Option HostCall :=
  let (action, s) := s.decide registry env.runtime signature args
  action.hostCall? registry s (s.runtime env.runtime).globals env.module signature.name args

/-- The call of a host member that the next step of a machine makes, if it makes one. -/
def Config.hostCall? (setting : Setting) : Config → Option HostCall
  | ⟨.dispatch env signature args, _, s⟩ => s.hostCall? setting.registry env signature args
  | _ => none

/-- **A machine ends up with a call**: the next step makes it, or the next step hands an operation over
and the machine then ends up with the call. -/
inductive Config.EndsUp (setting : Setting) : Config → HostCall → Prop where
  | now {c : Config} {call : HostCall} : c.hostCall? setting = some call → EndsUp setting c call
  | later {c : Config} {call : HostCall} {env : Env} {signature : Signature} {args : List Value} :
    (Machine.step setting c).control = .dispatch env signature args →
      EndsUp setting (Machine.step setting c) call → EndsUp setting c call

/-! ## Parameters -/

namespace Params

variable {params : List Param} {args : List Value}

theorem acceptConverted_of_accept (h : accept params args = true) :
    acceptConverted params args = true := by
  unfold accept at h
  unfold acceptConverted
  simp only [Bool.and_eq_true, List.all_eq_true] at h ⊢
  exact ⟨h.1, fun p mem => ⟨(h.2 p mem).1, ParamType.acceptsConverted_of_accepts (h.2 p mem).2⟩⟩

theorem acceptConverted_of_acceptLoosely (h : acceptLoosely params args = true) :
    acceptConverted params args = true := by
  unfold acceptLoosely at h
  unfold acceptConverted
  simp only [Bool.and_eq_true, List.all_eq_true] at h ⊢
  exact ⟨h.1, fun p mem => ⟨(h.2 p mem).1.1.1, (h.2 p mem).2⟩⟩

theorem acceptConverted_iff :
    acceptConverted params args = true ↔
      List.Forall₂ (fun p v => p.out = false ∧ p.type.acceptsConverted v = true) params args := by
  unfold acceptConverted
  rw [List.forall₂_iff_zip]
  simp only [Bool.and_eq_true, beq_iff_eq, List.all_eq_true, Bool.not_eq_true', Prod.forall]

theorem accept_iff :
    accept params args = true ↔
      List.Forall₂ (fun p v => p.out = false ∧ p.type.accepts v = true) params args := by
  unfold accept
  rw [List.forall₂_iff_zip]
  simp only [Bool.and_eq_true, beq_iff_eq, List.all_eq_true, Bool.not_eq_true', Prod.forall]

/-- What is accepted as it is arrives as it is. -/
theorem coerce_of_accept (h : accept params args = true) : coerce params args = args := by
  have each := accept_iff.1 h
  clear h
  induction each with
  | nil => rfl
  | cons first _ ih => exact congrArg₂ List.cons (ParamType.coerce_of_accepts first.2) ih

/-- **What arrives is accepted** where the arguments are accepted after conversion. -/
theorem coerce_accepted (h : acceptConverted params args = true) :
    List.Forall₂ (fun p v => p.out = false ∧ p.type.accepts v = true) params
      (coerce params args) := by
  have each := acceptConverted_iff.1 h
  clear h
  induction each with
  | nil => exact .nil
  | cons first _ ih => exact .cons ⟨first.1, ParamType.accepts_coerce first.2⟩ ih

theorem coerce_converts (type : ParamType) (v : Value) :
    type.coerce v = v ∨
      ∃ n : Int64, v = .int n ∧ type.coerce v = .float n.toFloat ∧ type = .float := by
  unfold ParamType.coerce
  split
  next n => exact .inr ⟨n, rfl, rfl, rfl⟩
  next => exact .inl rfl

end Params

/-- No value is of the type of characters. -/
theorem ParamType.ne_char_of_accepts {type : ParamType} {v : Value} (h : type.accepts v = true) :
    type ≠ .char := by
  rintro rfl
  cases v <;> cases h

namespace HostCall

/-- A call with arguments that are accepted is honoured if the receiver is right. -/
theorem Honoured.of_accepted {call : HostCall}
    (accepted : List.Forall₂ (fun p v => p.out = false ∧ p.type.accepts v = true) call.params
      call.args)
    (receiver : ∀ m receiver? args, call = method m receiver? args →
      receiver?.isSome = !m.isStatic) : call.Honoured where
  count := accepted.length_eq.symm
  takes p mem := by
    obtain ⟨i, within, rfl⟩ := List.getElem_of_mem mem
    obtain ⟨noOut, takes⟩ := accepted.get within (accepted.length_eq ▸ within)
    exact ⟨noOut, ParamType.ne_char_of_accepts takes⟩
  accepted := accepted.imp fun _ _ both => both.2
  receiver := receiver

/-- A call passes converted what it coerces. -/
theorem passesConverted_of_eq {call : HostCall} {given : List Value}
    (count : call.params.length = given.length)
    (same : call.args = Params.coerce call.params given) : call.PassesConverted given := by
  rw [PassesConverted, same]
  refine ⟨by rw [Params.coerce, List.length_zipWith, count, Nat.min_self], fun i => ?_⟩
  rw [Params.coerce, List.getElem?_zipWith]
  cases there : given[i]? with
  | none =>
    cases call.params[i]? with
    | none => exact .inl rfl
    | some p => exact .inl rfl
  | some v =>
    have within : i < call.params.length := count ▸ (List.getElem?_eq_some_iff.1 there).1
    rw [List.getElem?_eq_getElem within]
    rcases Params.coerce_converts (call.params[i]).type v with kept | ⟨n, rfl, turned, asked⟩
    · exact .inl (congrArg some kept)
    · exact .inr ⟨n, rfl, congrArg some turned, congrArg some asked⟩

end HostCall

/-! ## What is chosen -/

theorem getElem?_of_mem_membersNamed {α : Type} {nameOf : α → String} {members : List α}
    {written : String} {m : α × Nat} (h : m ∈ membersNamed nameOf members written) :
    members[m.2]? = some m.1 := by
  obtain ⟨spelling, -, hit⟩ := List.mem_flatMap.1 h
  exact List.mem_zipIdx_iff_getElem?.1 (List.mem_filter.1 hit).1

namespace Surface

variable {offer : Surface} {written : String}

theorem mem_of_findInSources {α : Type} {find : TypeInfo × Receiver → Option α}
    {sources : List (TypeInfo × Receiver)} {source : TypeInfo × Receiver} {found : α}
    (h : findInSources find sources = some (source, found)) : source ∈ sources := by
  induction sources with
  | nil => cases h
  | cons first rest ih =>
    rw [findInSources] at h
    cases here : find first with
    | none => exact List.mem_cons_of_mem _ (ih (by rwa [here] at h))
    | some other =>
      rw [here] at h
      obtain ⟨rfl, -⟩ := Prod.mk.inj (Option.some.inj h)
      exact List.mem_cons_self

/-- A member that is found in the members of a target belongs to a target that is there. -/
theorem ne_nil_of_mem_memberSources {args : List Value} {source : TypeInfo × Receiver}
    (h : source ∈ offer.memberSources (args.head?.getD .null)) : args ≠ [] := by
  rintro rfl
  exact absurd h List.not_mem_nil

/-- A method that is chosen for a target and arguments is there, takes these arguments and is static
just if it gets no receiver. -/
theorem of_invokeMember {v : Value} {args : List Value} {type : TypeInfo} {index : Nat}
    {receiver : Receiver} (h : offer.invokeMember written v args = .invokeMethod type index receiver) :
    (type, receiver) ∈ offer.memberSources v ∧
      ∃ m, (offer.registry.type type).methods[index]? = some m ∧
        m.isStatic = (receiver == .static) ∧ Params.accept m.params args = true := by
  unfold invokeMember at h
  split at h
  · cases h
  · dsimp only at h
    split at h
    next found =>
      obtain ⟨rfl, rfl, rfl⟩ := Action.invokeMethod.inj h
      have hit := of_findInSources found
      have accepts := List.find?_some hit
      obtain ⟨named, static⟩ := List.mem_filter.1 (List.mem_of_find?_eq_some hit)
      exact ⟨mem_of_findInSources found, _, getElem?_of_mem_membersNamed named, beq_iff_eq.1 static,
        accepts⟩
    next => split at h <;> cases h

/-- A constructor that is chosen is there and takes the arguments. -/
theorem of_createInstance {v : Value} {args : List Value} {type : TypeInfo} {index : Nat}
    (h : offer.createInstance v args = .construct type index) :
    ∃ c, (offer.registry.type type).constructors[index]? = some c ∧
      Params.accept c.params args = true := by
  unfold createInstance at h
  split at h
  · split at h
    next found =>
      obtain ⟨rfl, rfl⟩ := Action.construct.inj h
      obtain ⟨within, accepts, -⟩ := List.findIdx?_eq_some_iff_getElem.1 found
      exact ⟨_, List.getElem?_eq_getElem within, accepts⟩
    next => cases h
  · cases h

/-- A method that a called name means is there and takes the arguments after conversion. -/
theorem of_calledMethod? {args : List Value} {bound : BoundMethod}
    (h : offer.calledMethod? written args = some bound) :
    ∃ m, (offer.registry.type bound.holder.type).methods[bound.index]? = some m ∧
      Params.acceptConverted m.params args = true := by
  obtain ⟨object, -, here⟩ := List.exists_of_findSome?_eq_some h
  obtain ⟨index, found, rfl⟩ := Option.map_eq_some_iff.1 here
  rw [Option.or_eq_some_iff, Option.or_eq_some_iff] at found
  rcases found with (hit | ⟨-, hit⟩) | ⟨-, hit⟩ <;>
    obtain ⟨within, fits, -⟩ := List.findIdx?_eq_some_iff_getElem.1 hit <;>
    refine ⟨_, List.getElem?_eq_getElem within, ?_⟩
  · exact (Bool.and_eq_true_iff.1 fits).2
  · exact (Bool.and_eq_true_iff.1 fits).2
  · exact Params.acceptConverted_of_acceptLoosely (Bool.and_eq_true_iff.1 fits).2

end Surface

namespace Surface

variable {offer : Surface}

theorem choose_call {signature : Signature} {args : List Value} (kind : signature.operation = .call) :
    offer.choose signature args = .callNamed (offer.calledMethod? signature.name args) := by
  unfold choose
  rw [kind]

theorem choose_invokeMember {signature : Signature} {args : List Value}
    (kind : signature.operation = .invokeMember) :
    offer.choose signature args =
      offer.invokeMember signature.name (args.head?.getD .null) args.tail := by
  unfold choose
  rw [kind]

theorem choose_createInstance {signature : Signature} {args : List Value}
    (kind : signature.operation = .createInstance) :
    offer.choose signature args = offer.createInstance (args.head?.getD .null) args.tail := by
  unfold choose
  rw [kind]

end Surface

namespace HostCall

variable {s : Store} {globals module : NamespaceId} {name : String} {args : List Value}
  {call : HostCall} {offer : Surface}

/-- The fallback of a called name. -/
theorem honoured_of_calledMethod? {bound : BoundMethod}
    (found : offer.calledMethod? name args = some bound)
    (h : (Action.callNamed (some bound)).hostCall? offer.registry s globals module name args =
      some call) :
    call.Honoured ∧ s.named? globals module name = none ∧ call.PassesConverted args := by
  obtain ⟨m, there, fits⟩ := Surface.of_calledMethod? found
  unfold Action.hostCall? at h
  dsimp only at h
  split at h
  next => cases h
  next free =>
    rw [there] at h
    obtain rfl := Option.some.inj h
    have count := (Params.acceptConverted_iff.1 fits).length_eq
    refine ⟨.of_accepted (Params.coerce_accepted fits) ?_, free, passesConverted_of_eq count rfl⟩
    rintro _ _ _ ⟨⟩
    cases m.isStatic <;> rfl

/-- A method of a value or of a type. -/
theorem honoured_of_invokeMember {type : TypeInfo} {index : Nat} {receiver : Receiver}
    (found : offer.invokeMember name (args.head?.getD .null) args.tail =
      .invokeMethod type index receiver)
    (h : (Action.invokeMethod type index receiver).hostCall? offer.registry s globals module name
      args = some call) :
    call.Honoured ∧ call.args = args.tail := by
  obtain ⟨source, m, there, static, fits⟩ := Surface.of_invokeMember found
  unfold Action.hostCall? at h
  dsimp only at h
  rw [there] at h
  obtain rfl := Option.some.inj h
  have accepted := Params.coerce_accepted (Params.acceptConverted_of_accept fits)
  refine ⟨.of_accepted accepted ?_, Params.coerce_of_accept fits⟩
  rintro _ _ _ ⟨⟩
  rw [static]
  cases receiver with
  | static => rfl
  | target => exact List.isSome_head?.2 (Surface.ne_nil_of_mem_memberSources source)

/-- A constructor. -/
theorem honoured_of_createInstance {v : Value} {type : TypeInfo} {index : Nat}
    (found : offer.createInstance v args.tail = .construct type index)
    (h : (Action.construct type index).hostCall? offer.registry s globals module name args =
      some call) :
    call.Honoured ∧ call.args = args.tail := by
  obtain ⟨c, there, fits⟩ := Surface.of_createInstance found
  unfold Action.hostCall? at h
  dsimp only at h
  rw [there] at h
  obtain rfl := Option.some.inj h
  have accepted := Params.coerce_accepted (Params.acceptConverted_of_accept fits)
  refine ⟨.of_accepted accepted ?_, Params.coerce_of_accept fits⟩
  rintro _ _ _ ⟨⟩

/-- What a call passes on for the arguments that are written: these, and the floats that parameters
ask for if a name is called that nothing is bound to. -/
def Passes (call : HostCall) (s : Store) (globals module : NamespaceId) (signature : Signature)
    (args : List Value) : Prop :=
  call.args = signature.written args ∨
    signature.operation = .call ∧ s.named? globals module signature.name = none ∧
      call.PassesConverted (signature.written args)

/-- **A chosen action calls as has been declared.** -/
theorem honoured_of_choose (offer : Surface) {signature : Signature}
    (h : (offer.choose signature args).hostCall? offer.registry s globals module signature.name args =
      some call) :
    call.Honoured ∧ call.Passes s globals module signature args := by
  have unnamed {op : Operation} (kind : signature.operation = op) (other : op ≠ .call) :
      signature.written args = args.tail := by
    rw [Signature.written, kind, if_neg other]
  cases chosen : offer.choose signature args with
  | callNamed fallback? =>
    have kind := Surface.caller?_choose (congrArg Action.caller? chosen)
    rw [chosen] at h
    cases fallback? with
    | none => cases h
    | some bound =>
      rw [Surface.choose_call kind] at chosen
      obtain ⟨honoured, free, passes⟩ := honoured_of_calledMethod? (Action.callNamed.inj chosen) h
      refine ⟨honoured, .inr ⟨kind, free, ?_⟩⟩
      rwa [Signature.written, if_pos kind]
  | invokeMethod type index receiver =>
    have kind := Surface.caller?_choose (congrArg Action.caller? chosen)
    rw [chosen] at h
    rw [Surface.choose_invokeMember kind] at chosen
    obtain ⟨honoured, passes⟩ := honoured_of_invokeMember chosen h
    exact ⟨honoured, .inl (passes.trans (unnamed kind (by decide)).symm)⟩
  | construct type index =>
    have kind := Surface.caller?_choose (congrArg Action.caller? chosen)
    rw [chosen] at h
    rw [Surface.choose_createInstance kind] at chosen
    obtain ⟨honoured, passes⟩ := honoured_of_createInstance chosen h
    exact ⟨honoured, .inl (passes.trans (unnamed kind (by decide)).symm)⟩
  | _ =>
    rw [chosen] at h
    cases h

end HostCall

/-! ## Operations -/

namespace Store

variable {s : Store} {signature : Signature} {args : List Value} {registry : Registry}

/-- **An operation calls as has been declared**, where rules are faithful. -/
theorem Faithful.honoured (h : s.Faithful registry) {env : Env} {call : HostCall}
    (calls : s.hostCall? registry env signature args = some call) :
    call.Honoured ∧ call.Passes s (s.runtime env.runtime).globals env.module signature args := by
  have chosen := (h.decide env.runtime signature args).1
  have alike := s.alike_decide registry env.runtime signature args
  unfold Store.hostCall? at calls
  dsimp only at calls
  rw [chosen] at calls
  obtain ⟨honoured, passes⟩ :=
    HostCall.honoured_of_choose ((s.runtime env.runtime).surface registry) calls
  refine ⟨honoured, ?_⟩
  unfold HostCall.Passes at passes ⊢
  unfold named? at passes ⊢
  rwa [alike.globals, alike.heap] at passes

end Store

end HostScript
