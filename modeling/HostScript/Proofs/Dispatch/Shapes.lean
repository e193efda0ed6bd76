import HostScript.Dispatch.Perform

/-!
# Proofs/Dispatch/Shapes — a choice sees shapes only

Rules remember a choice under the shapes of the arguments it was made for, while `Surface.choose` is
given the arguments themselves.  That is enough: every function a choice is made of answers for a
value what it answers for the *sample* of the value's shape.  The main statement is `choose_congr`,
that arguments of the same shapes lead to the same choice.
-/

namespace HostScript

/-- A value of a shape. -/
def Shape.sample : Shape → Value
  | null => .null
  | bool => .bool false
  | int => .int 0
  | float => .float 0
  | text => .text ""
  | list => .list default
  | space => .space default
  | function => .function default
  | type info => .type info
  | object info => .object ⟨info, default⟩

@[simp] theorem Shape.shape_sample (shape : Shape) : shape.sample.shape = shape := by
  cases shape <;> rfl

namespace Value

/-- A value to stand for all values of the same shape. -/
def sample (v : Value) : Value := v.shape.sample

@[simp] theorem shape_sample (v : Value) : v.sample.shape = v.shape := v.shape.shape_sample

@[simp] theorem primitive?_sample (v : Value) : v.sample.primitive? = v.primitive? := by
  cases v <;> rfl

end Value

/-! ## Parameters -/

namespace ParamType

@[simp] theorem accepts_sample (type : ParamType) (v : Value) :
    type.accepts v.sample = type.accepts v := by
  cases v <;> cases type <;> rfl

@[simp] theorem acceptsConverted_sample (type : ParamType) (v : Value) :
    type.acceptsConverted v.sample = type.acceptsConverted v := by
  cases v <;> cases type <;> rfl

end ParamType

/-- The values that stand for arguments. -/
def samples (args : List Value) : List Value := args.map Value.sample

@[simp] theorem length_samples (args : List Value) : (samples args).length = args.length :=
  List.length_map _

namespace Params

variable (params : List Param) (args : List Value)

/-- The arguments that parameters are tested with may be replaced by others that pass the same
tests. -/
theorem all_zip_samples (test : Param × Value → Bool)
    (blind : ∀ p v, test (p, v.sample) = test (p, v)) :
    (params.zip (samples args)).all test = (params.zip args).all test := by
  rw [samples, List.zip_map_right, List.all_map]
  exact congrArg (List.all _) (funext fun (p, v) => blind p v)

@[simp] theorem accept_samples : accept params (samples args) = accept params args := by
  rw [accept, accept, length_samples, all_zip_samples]
  exact fun p v => congrArg (!p.out && ·) (p.type.accepts_sample v)

@[simp] theorem acceptConverted_samples :
    acceptConverted params (samples args) = acceptConverted params args := by
  rw [acceptConverted, acceptConverted, length_samples, all_zip_samples]
  exact fun p v => congrArg (!p.out && ·) (p.type.acceptsConverted_sample v)

@[simp] theorem acceptLoosely_samples :
    acceptLoosely params (samples args) = acceptLoosely params args := by
  rw [acceptLoosely, acceptLoosely, length_samples, all_zip_samples]
  exact fun p v => congrArg (!p.out && p.type.isPrimitive && p.type != .char && ·)
    (p.type.acceptsConverted_sample v)

end Params

/-! ## Choices -/

namespace Surface

variable (offer : Surface) (written : String) (v : Value) (args : List Value)

theorem getMember_sample : offer.getMember written v.sample = offer.getMember written v := by
  cases v <;> rfl

theorem setMember_sample : offer.setMember written v.sample = offer.setMember written v := by
  cases v <;> rfl

theorem invokeMember_sample :
    offer.invokeMember written v.sample (samples args) = offer.invokeMember written v args := by
  have blind : offer.invokeMember written v (samples args) = offer.invokeMember written v args := by
    unfold invokeMember
    simp only [Params.accept_samples, length_samples]
  rw [← blind]
  cases v <;> rfl

theorem createInstance_sample :
    offer.createInstance v.sample (samples args) = offer.createInstance v args := by
  have blind : offer.createInstance v (samples args) = offer.createInstance v args := by
    unfold createInstance
    simp only [Params.accept_samples, length_samples]
  rw [← blind]
  cases v <;> rfl

/-- An index matters only where it is the single one. -/
theorem getIndex_sample : offer.getIndex v.sample (samples args) = offer.getIndex v args := by
  match args with
  | [] => cases v <;> rfl
  | [i] => cases v <;> cases i <;> rfl
  | i :: _ :: _ => cases v <;> cases i <;> rfl

theorem setIndex_sample : offer.setIndex v.sample (samples args) = offer.setIndex v args := by
  match args with
  | [] => cases v <;> rfl
  | [i] => cases v <;> cases i <;> rfl
  | [i, _] => cases v <;> cases i <;> rfl
  | i :: _ :: _ :: _ => cases v <;> cases i <;> rfl

theorem calledMethod?_samples :
    offer.calledMethod? written (samples args) = offer.calledMethod? written args := by
  unfold calledMethod? boundMethod?
  simp only [Params.acceptConverted_samples, Params.acceptLoosely_samples]

/-- **What is chosen for arguments is what is chosen for their samples.** -/
theorem choose_samples (signature : Signature) :
    offer.choose signature (samples args) = offer.choose signature args := by
  have target : (samples args).head?.getD .null = (args.head?.getD .null).sample := by
    cases args <;> rfl
  have rest : (samples args).tail = samples args.tail := by cases args <;> rfl
  unfold choose
  rw [target, rest]
  cases signature.operation with
  | getMember => exact offer.getMember_sample _ _
  | setMember => exact offer.setMember_sample _ _
  | lookup => rfl
  | invoke => cases args.head?.getD .null <;> rfl
  | invokeMember => exact offer.invokeMember_sample _ _ _
  | call => exact congrArg Action.callNamed (offer.calledMethod?_samples _ _)
  | getIndex => exact offer.getIndex_sample _ _
  | setIndex => exact offer.setIndex_sample _ _
  | binary =>
    cases found : BinaryOp.ofSymbol? signature.name with
    | none => simp only [found]
    | some op =>
      match args with
      | [] | [_] | _ :: _ :: _ :: _ => simp only [found, samples, List.map_cons, List.map_nil]
      | [a, b] =>
        simp only [found, samples, List.map_cons, List.map_nil, Value.shape_sample]
  | unary => rfl
  | createInstance => exact offer.createInstance_sample _ _

/-- **A choice sees shapes only.** -/
theorem choose_congr (signature : Signature) {args others : List Value}
    (same : args.map Value.shape = others.map Value.shape) :
    offer.choose signature args = offer.choose signature others := by
  have samples_eq : samples args = samples others := by
    have sampled := congrArg (List.map Shape.sample) same
    rwa [List.map_map, List.map_map] at sampled
  rw [← choose_samples, samples_eq, choose_samples]

end Surface

end HostScript
