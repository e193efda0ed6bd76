import HostScript.Proofs.Dispatch.Faithful

/-!
# Proofs/Dispatch/Handover — operations that are answered by others

An instance is called by handing the operation over to the method of the name it has been called by.
Only actions that read what a name is bound to do so (`perform_dispatch`), and these are chosen for
calls alone (`caller?_choose`); so what is handed over is the call of a method with the arguments that
are written (`Faithful.dispatch_handed`).
-/

namespace HostScript

/-! ## Which operations call -/

/-- The arguments that are written for an operation; a name that is called is no target. -/
def Signature.written (signature : Signature) (args : List Value) : List Value :=
  if signature.operation = .call then args else args.tail

/-- The operation that an action which may lead to a call is chosen for. -/
def Action.caller? : Action → Option Operation
  | namespaceInvoke | invokeMethod _ _ _ => some .invokeMember
  | callNamed _ => some .call
  | construct _ _ => some .createInstance
  | _ => none

namespace Surface

variable {offer : Surface} {written : String}

theorem caller?_getMember (v : Value) : (offer.getMember written v).caller? = none := by
  unfold getMember
  split
  · rfl
  · split <;> rfl

theorem caller?_setMember (v : Value) : (offer.setMember written v).caller? = none := by
  unfold setMember
  split
  · rfl
  · split
    · split <;> rfl
    · rfl

theorem caller?_getIndex (v : Value) (args : List Value) :
    (offer.getIndex v args).caller? = none := by
  unfold getIndex
  split
  · rfl
  · rfl
  · rfl
  · split <;> rfl

theorem caller?_setIndex (v : Value) (args : List Value) :
    (offer.setIndex v args).caller? = none := by
  unfold setIndex
  split
  · rfl
  · rfl
  · split <;> rfl

theorem caller?_invokeMember {v : Value} {args : List Value} {op : Operation}
    (h : (offer.invokeMember written v args).caller? = some op) : .invokeMember = op := by
  unfold invokeMember at h
  split at h
  · exact Option.some.inj h
  · dsimp only at h
    split at h
    · exact Option.some.inj h
    · split at h <;> cases h

theorem caller?_createInstance {v : Value} {args : List Value} {op : Operation}
    (h : (offer.createInstance v args).caller? = some op) : .createInstance = op := by
  unfold createInstance at h
  split at h
  · split at h
    · exact Option.some.inj h
    · cases h
  · cases h

/-- **Only calls lead to calls**: an action that may lead to one is chosen for the operation it
belongs to. -/
theorem caller?_choose {signature : Signature} {args : List Value} {op : Operation}
    (h : (offer.choose signature args).caller? = some op) : signature.operation = op := by
  unfold choose at h
  cases kind : signature.operation with
  | getMember => rw [kind] at h; cases (caller?_getMember _).symm.trans h
  | setMember => rw [kind] at h; cases (caller?_setMember _).symm.trans h
  | lookup => rw [kind] at h; cases h
  | invoke => rw [kind] at h; dsimp only at h; split at h <;> cases h
  | invokeMember => rw [kind] at h; exact caller?_invokeMember h
  | call => rw [kind] at h; exact Option.some.inj h
  | getIndex => rw [kind] at h; cases (caller?_getIndex _ _).symm.trans h
  | setIndex => rw [kind] at h; cases (caller?_setIndex _ _).symm.trans h
  | binary => rw [kind] at h; dsimp only at h; split at h <;> cases h
  | unary => rw [kind] at h; dsimp only at h; split at h <;> cases h
  | createInstance => rw [kind] at h; exact caller?_createInstance h

end Surface

/-! ## Outcomes -/

/-- Whether an outcome is an answer. -/
def Outcome.isReply : Outcome → Bool
  | reply _ => true
  | dispatch _ _ => false

/-- An operation that is handed over is the call of an instance under a name. -/
theorem Outcome.of_ofCall {name? : Option String} {callee : Value} {args passed : List Value}
    {other : Signature} (h : ofCall name? callee args = .dispatch other passed) :
    (∃ name, name? = some name ∧ other = .invokeMember name args.length) ∧
      ∃ o, callee = .object o ∧ passed = callee :: args := by
  unfold ofCall at h
  split at h
  · split at h <;> cases h
  next o name =>
    obtain ⟨rfl, rfl⟩ := Outcome.dispatch.inj h
    exact ⟨⟨name, rfl, rfl⟩, o, rfl, rfl⟩
  · cases h

theorem Outcome.isReply_ofCall (callee : Value) (args : List Value) :
    (ofCall none callee args).isReply = true := by
  cases ended : ofCall none callee args with
  | reply r => rfl
  | dispatch other passed =>
    obtain ⟨⟨name, never, -⟩, -⟩ := of_ofCall ended
    cases never

theorem Outcome.ne_dispatch {o : Outcome} (h : o.isReply = true) (other : Signature)
    (passed : List Value) : o ≠ .dispatch other passed := by
  rintro rfl
  cases h

theorem Outcome.isReply_ofExcept (result : Except EvalError.Cause Value) :
    (ofExcept result).isReply = true := by
  cases result <;> rfl

namespace Store

variable {s : Store} {globals module : NamespaceId} {signature : Signature} {args : List Value}
  {registry : Registry} {action : Action}

theorem isReply_callMethod (type : TypeInfo) (index : Nat) (receiver : Method → Option Value)
    (name : String) : (s.callMethod registry type index receiver name args).1.isReply = true := by
  unfold callMethod
  split <;> rfl

theorem isReply_spaceGet (id : NamespaceId) (name : String) :
    (s.spaceGet id name).isReply = true := by
  unfold spaceGet
  split <;> rfl

theorem isReply_listGet (id : ListId) (i : Int64) : (s.listGet id i).isReply = true := by
  unfold listGet
  dsimp only
  split <;> rfl

theorem isReply_listSet (id : ListId) (i : Int64) (v : Value) :
    (s.listSet id i v).1.isReply = true := by
  unfold listSet
  dsimp only
  split <;> split <;> rfl

theorem isReply_textGet (text : String) (i : Int64) : (textGet text i).isReply = true := by
  unfold textGet
  dsimp only
  split <;> rfl

/-- Only what is bound to a name can be an instance that is called. -/
theorem isReply_perform (space : action ≠ .namespaceInvoke) (named : ∀ f, action ≠ .callNamed f) :
    (s.perform registry globals module action signature args).1.isReply = true := by
  unfold perform
  dsimp only
  split
  case h_2 => exact isReply_spaceGet _ _
  case h_4 => exact absurd rfl space
  case h_5 => split <;> rfl
  case h_6 => exact absurd rfl (named _)
  case h_7 => exact Outcome.isReply_ofCall _ _
  case h_8 => split <;> rfl
  case h_9 type index target v =>
    cases (registry.type type).properties[index]? with
    | none => rfl
    | some p =>
      dsimp only
      cases p.set? with
      | none => rfl
      | some set => dsimp only; split <;> rfl
  case h_10 => exact isReply_callMethod _ _ _ _
  case h_11 => split <;> rfl
  case h_12 => split <;> rfl
  case h_13 type target index v =>
    cases (registry.type type).indexer? with
    | none => rfl
    | some indexer => dsimp only; split <;> rfl
  case h_14 => exact isReply_listGet _ _
  case h_15 => exact isReply_listSet _ _ _
  case h_16 => exact isReply_textGet _ _
  case h_17 => exact isReply_spaceGet _ _
  case h_19 => exact Outcome.isReply_ofExcept _
  case h_20 => exact Outcome.isReply_ofExcept _
  all_goals rfl

/-- **Only the call of a bound instance is handed over**, to the method of the name that has been
called. -/
theorem perform_dispatch {other : Signature} {passed : List Value}
    (h : (s.perform registry globals module action signature args).1 = .dispatch other passed) :
    other.operation = .invokeMember ∧
      (action = .namespaceInvoke ∧ passed.tail = args.tail ∨
        ∃ fallback?, action = .callNamed fallback? ∧ passed.tail = args) := by
  by_cases space : action = .namespaceInvoke
  · subst space
    unfold perform at h
    dsimp only at h
    split at h
    case h_4 =>
      split at h
      · obtain ⟨⟨name, -, rfl⟩, o, -, rfl⟩ := Outcome.of_ofCall h
        exact ⟨rfl, .inl ⟨rfl, rfl⟩⟩
      · cases h
    all_goals contradiction
  by_cases named : ∃ fallback?, action = .callNamed fallback?
  · obtain ⟨fallback?, rfl⟩ := named
    unfold perform at h
    dsimp only at h
    split at h
    · obtain ⟨⟨name, -, rfl⟩, o, -, rfl⟩ := Outcome.of_ofCall h
      exact ⟨rfl, .inr ⟨_, rfl, rfl⟩⟩
    · exact absurd h (Outcome.ne_dispatch (isReply_callMethod _ _ _ _) _ _)
    · cases h
  · exact absurd h (Outcome.ne_dispatch (isReply_perform space (not_exists.1 named)) _ _)

/-- What is handed over is the call of a method with the arguments that are written. -/
theorem Faithful.dispatch_handed (h : s.Faithful registry) {rt : RuntimeId} {other : Signature}
    {passed : List Value} {t : Store}
    (handed : s.dispatch registry rt module signature args = (.dispatch other passed, t)) :
    other.written passed = signature.written args ∧ other.operation = .invokeMember := by
  unfold Store.dispatch at handed
  dsimp only at handed
  rw [(h.decide rt signature args).1] at handed
  obtain ⟨kind, from_space | ⟨fallback?, from_name, same⟩⟩ := perform_dispatch (Prod.ext_iff.1 handed).1
  · obtain ⟨chosen, same⟩ := from_space
    have invoked := Surface.caller?_choose (congrArg Action.caller? chosen)
    rw [Signature.written, Signature.written, kind, invoked, if_neg nofun, if_neg nofun, same]
    exact ⟨rfl, rfl⟩
  · have called := Surface.caller?_choose (congrArg Action.caller? from_name)
    rw [Signature.written, Signature.written, kind, called, if_neg nofun, if_pos rfl, same]
    exact ⟨rfl, rfl⟩

end Store

end HostScript
