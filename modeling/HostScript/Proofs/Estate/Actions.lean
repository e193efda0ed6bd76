import HostScript.Proofs.Dispatch.HostCalls
import HostScript.Proofs.Estate.Fences

/-!
# Proofs/Estate/Actions — dynamic operations outside of an estate

A dynamic operation whose operands are outside of an estate works outside of it, if the members of the
host do and if what the module and the globals at hand bind is outside.  Operators make values that refer
to no cell; everything else that an operation reads or changes is reached through its operands.
-/

namespace HostScript

variable {estate grounds : Cell → Prop}

/-! ## Operators -/

theorem BinaryOp.plain_compareAs (op : BinaryOp) (o : Ordering) (a b : Value) :
    Value.ResultPlain (op.compareAs o a b) := by
  unfold compareAs
  split <;> trivial

theorem BinaryOp.plain_onInt (op : BinaryOp) (a b : Int64) : Value.ResultPlain (op.onInt a b) := by
  unfold onInt
  split
  case h_4 => split <;> trivial
  case h_5 => split <;> trivial
  case h_8 => exact plain_compareAs _ _ _ _
  all_goals rfl

/-- **Operators make values that refer to no cell.** -/
theorem BinaryOp.plain_evaluate (op : BinaryOp) (a b : Value) : Value.ResultPlain (op.evaluate a b) := by
  unfold evaluate
  split
  · exact plain_onInt op _ _
  · unfold onFloat
    split <;> trivial
  · unfold onBool
    split <;> trivial
  · unfold onText
    split
    · rfl
    · exact plain_compareAs _ _ _ _
  · split <;> trivial

theorem UnaryOp.plain_evaluate (op : UnaryOp) (v : Value) : Value.ResultPlain (op.evaluate v) := by
  unfold evaluate
  split <;> trivial

theorem ParamType.outside_coerce (type : ParamType) {v : Value} (outside : v.Outside estate) :
    (type.coerce v).Outside estate := by
  unfold coerce
  split
  · trivial
  · exact outside

theorem Params.outside_coerce (params : List Param) {args : List Value}
    (outside : ∀ v ∈ args, v.Outside estate) : ∀ v ∈ coerce params args, v.Outside estate := by
  intro v mem
  unfold coerce at mem
  rw [← List.map_uncurry_zip_eq_zipWith] at mem
  obtain ⟨⟨p, a⟩, among, rfl⟩ := List.mem_map.1 mem
  exact p.type.outside_coerce (outside a (List.of_mem_zip among).2)

/-! ## Actions -/

/-- An action that keeps no instance of an estate. -/
@[simp] def Action.Outside (estate : Cell → Prop) : Action → Prop
  | .callNamed (some bound) => ¬estate (.payload bound.holder.payload)
  | _ => True

/-- An outcome with no cell of an estate in it. -/
@[simp] def Outcome.Outside (estate : Cell → Prop) : Outcome → Prop
  | .reply r => r.Outside estate
  | .dispatch _ args => ∀ v ∈ args, v.Outside estate

/-- **What is chosen outside**: among the actions only the call of a name keeps a cell, that of an
instance. -/
theorem Surface.outside_choose {offer : Surface}
    (instances : ∀ o ∈ offer.instances, ¬estate (.payload o.payload)) (signature : Signature)
    (args : List Value) : (offer.choose signature args).Outside estate := by
  cases chosen : offer.choose signature args with
  | callNamed fallback =>
    have kind : signature.operation = .call := caller?_choose (by rw [chosen]; rfl)
    rw [choose_call kind] at chosen
    cases fallback with
    | none => trivial
    | some bound =>
      obtain ⟨o, among, here⟩ := List.exists_of_findSome?_eq_some (Action.callNamed.inj chosen)
      obtain ⟨index, -, rfl⟩ := Option.map_eq_some_iff.1 here
      exact instances o among
  | _ => trivial

theorem Outcome.outside_ofExcept {result : Except EvalError.Cause Value}
    (plain : Value.ResultPlain result) : (ofExcept result).Outside estate := by
  cases result with
  | ok v => exact Value.outside_of_plain plain
  | error cause => trivial

theorem Outcome.outside_ofCall (name? : Option String) {callee : Value} {args : List Value}
    (own : callee.Outside estate) (outside : ∀ v ∈ args, v.Outside estate) :
    (ofCall name? callee args).Outside estate := by
  unfold ofCall
  split
  · split
    · exact ⟨own, outside⟩
    · trivial
  · exact List.forall_mem_cons.2 ⟨own, outside⟩
  · trivial

namespace Store

variable {s : Store} {registry : Registry}

/-- **An action that works outside of an estate.** -/
def EndsOutside (estate grounds : Cell → Prop) (s : Store) (p : Outcome × Store) : Prop :=
  p.1.Outside estate ∧ s.toHeap.Leaves estate grounds p.2.toHeap

theorem endsOutside_spaceGet (fenced : s.toHeap.Fenced estate grounds) {id : NamespaceId}
    (away : ¬estate (.space id)) (name : String) :
    s.EndsOutside estate grounds (s.spaceGet id name, s) := by
  refine ⟨?_, fenced.leaves⟩
  unfold spaceGet
  split
  next bound => exact fenced.get? (fenced.off away) bound
  next => trivial

theorem endsOutside_callMethod (fenced : s.toHeap.Fenced estate grounds)
    (respects : registry.Respects estate grounds) (type : TypeInfo) (index : Nat)
    {receiver : Method → Option Value} (receives : ∀ m, ReceiverOutside estate (receiver m)) (name : String) {args : List Value}
    (outside : ∀ v ∈ args, v.Outside estate) :
    s.EndsOutside estate grounds (s.callMethod registry type index receiver name args) := by
  unfold callMethod
  split
  next m found =>
    exact (respects.type type).methods m (List.mem_of_getElem? found) _ _ (receives m)
      (Params.outside_coerce _ outside) s.toHeap fenced
  next => exact ⟨trivial, fenced.leaves⟩

theorem receiverOutside_receiverOf (receiver : Receiver) {args : List Value}
    (outside : ∀ v ∈ args, v.Outside estate) : ReceiverOutside estate (receiverOf receiver args) := by
  intro v found
  cases receiver with
  | target => exact outside v (List.mem_of_mem_head? found)
  | static => cases found

theorem endsOutside_listGet (fenced : s.toHeap.Fenced estate grounds) {id : ListId}
    (away : ¬estate (.list id)) (i : Int64) : s.EndsOutside estate grounds (s.listGet id i, s) := by
  refine ⟨?_, fenced.leaves⟩
  unfold listGet
  dsimp only
  split
  next v found =>
    obtain ⟨place, -, held⟩ := Option.bind_eq_some_iff.1 found
    exact fenced.lists id (fenced.off away) v (Array.mem_of_getElem? held)
  next => trivial

theorem endsOutside_listSet (fenced : s.toHeap.Fenced estate grounds) (id : ListId) (i : Int64)
    {v : Value} (outside : v.Outside estate) : s.EndsOutside estate grounds (s.listSet id i v) := by
  have ends (done : Bool) (t : Store) (leaves : s.toHeap.Leaves estate grounds t.toHeap) :
      s.EndsOutside estate grounds
        (if done then .value v else .fail (.indexOutOfBounds i (t.list id).size), t) := by
    refine ⟨?_, leaves⟩
    cases done with
    | true => exact outside
    | false => trivial
  unfold listSet
  cases i.toInt.toNat? with
  | some place => exact ends _ _ (fenced.setItem id place outside)
  | none => exact ends false s fenced.leaves

theorem outside_textGet (text : String) (i : Int64) : (textGet text i).Outside estate := by
  unfold textGet
  dsimp only
  split <;> trivial

/-- **Doing what has been chosen** works outside of an estate, if what names are bound to is outside. -/
theorem endsOutside_perform (fenced : s.toHeap.Fenced estate grounds)
    (respects : registry.Respects estate grounds) {globals module : NamespaceId} {action : Action}
    {signature : Signature} (own : action.Outside estate)
    (binds : ∀ v, s.named? globals module signature.name = some v → v.Outside estate)
    {args : List Value} (outside : ∀ v ∈ args, v.Outside estate) :
    s.EndsOutside estate grounds (s.perform registry globals module action signature args) := by
  have fails (cause : EvalError.Cause) : s.EndsOutside estate grounds (.fail cause, s) :=
    ⟨trivial, fenced.leaves⟩
  unfold perform
  dsimp only
  split
  case h_1 => exact fails _
  case h_2 => exact endsOutside_spaceGet fenced (outside (.space _) List.mem_cons_self) _
  case h_3 id v =>
    obtain ⟨away, value, -⟩ := List.forall_mem_cons.1 outside |>.imp_right List.forall_mem_cons.1
    exact ⟨value, fenced.bind away _ value⟩
  case h_4 id rest =>
    obtain ⟨away, others⟩ := List.forall_mem_cons.1 outside
    split
    next bound =>
      have called := fenced.get? (fenced.off away) bound
      exact ⟨Outcome.outside_ofCall _ called others, fenced.leaves⟩
    next => exact fails _
  case h_5 =>
    split
    next found => exact ⟨binds _ found, fenced.leaves⟩
    next => exact fails _
  case h_6 fallback =>
    split
    next found => exact ⟨Outcome.outside_ofCall _ (binds _ found) outside, fenced.leaves⟩
    next bound _ =>
      refine endsOutside_callMethod fenced respects _ _ (fun m v found => ?_) _ outside
      split at found
      · cases found
      · obtain rfl := Option.some.inj found
        exact own
    next => exact fails _
  case h_7 callee rest =>
    obtain ⟨called, others⟩ := List.forall_mem_cons.1 outside
    exact ⟨Outcome.outside_ofCall _ called others, fenced.leaves⟩
  case h_8 type index receiver =>
    split
    next p found =>
      exact ((respects.type type).properties p (List.mem_of_getElem? found)).get _
        (receiverOutside_receiverOf receiver outside) s.toHeap fenced
    next => exact fails _
  case h_9 type index target v =>
    obtain ⟨held, value, -⟩ := List.forall_mem_cons.1 outside |>.imp_right List.forall_mem_cons.1
    split
    next p found =>
      split
      next set writable =>
        have leaves := ((respects.type type).properties p (List.mem_of_getElem? found)).set set writable
          (some target) v (fun w same => Option.some.inj same ▸ held) value s.toHeap fenced
        split
        next done =>
          obtain rfl := congrArg Prod.snd done
          exact ⟨value, leaves⟩
        next failed =>
          obtain rfl := congrArg Prod.snd failed
          exact ⟨trivial, leaves⟩
      next => exact fails _
    next => exact fails _
  case h_10 type index receiver =>
    exact endsOutside_callMethod fenced respects type index
      (fun _ => receiverOutside_receiverOf receiver outside) _
      fun v mem => outside v (List.mem_of_mem_tail mem)
  case h_11 type index =>
    split
    next c found =>
      exact (respects.type type).constructors c (List.mem_of_getElem? found) _ _
        (Params.outside_coerce _ fun v mem => outside v (List.mem_of_mem_tail mem)) s.toHeap fenced
    next => exact fails _
  case h_12 type target index =>
    obtain ⟨held, place, -⟩ := List.forall_mem_cons.1 outside |>.imp_right List.forall_mem_cons.1
    split
    next indexer found =>
      exact ((respects.type type).indexer indexer found).get _ _ held place s.toHeap fenced
    next => exact fails _
  case h_13 type target index v =>
    obtain ⟨held, place, value, -⟩ := List.forall_mem_cons.1 outside
      |>.imp_right List.forall_mem_cons.1 |>.imp_right (And.imp_right List.forall_mem_cons.1)
    split
    next indexer found =>
      split
      next set writable =>
        exact ((respects.type type).indexer indexer found).set set writable _ _ _ held place value
          s.toHeap fenced
      next => exact fails _
    next => exact fails _
  case h_14 => exact endsOutside_listGet fenced (outside (.list _) List.mem_cons_self) _
  case h_15 v =>
    exact endsOutside_listSet fenced _ _
      (outside v (List.mem_cons_of_mem _ (List.mem_cons_of_mem _ List.mem_cons_self)))
  case h_16 => exact ⟨outside_textGet _ _, fenced.leaves⟩
  case h_17 => exact endsOutside_spaceGet fenced (outside (.space _) List.mem_cons_self) _
  case h_18 id key v =>
    have value := outside v (List.mem_cons_of_mem _ (List.mem_cons_of_mem _ List.mem_cons_self))
    exact ⟨value, fenced.bind (outside (.space id) List.mem_cons_self) _ value⟩
  case h_19 op conversion a b =>
    exact ⟨Outcome.outside_ofExcept (op.plain_evaluate _ _), fenced.leaves⟩
  case h_20 op v => exact ⟨Outcome.outside_ofExcept (op.plain_evaluate v), fenced.leaves⟩
  case h_21 => exact fails _

end Store

end HostScript
