import HostScript.Machine

/-!
# Proofs/Machine/Transitions — what a step comes to

What a state comes to depends on what the machine is about to do (`Machine.StepsTo`).  Code is evaluated by
its constructor, and a value is handed to waiting work by the constructor of the work.  How a function is
entered depends on the store, and where an exit goes on both the exit and the work; so these cases are told
apart here, once (`Machine.EntersTo`, `Machine.UnwindsTo`).
-/

namespace HostScript

/-! ## What catches exits -/

/-- Whether pending work may be more than passed by an exit: it catches exits or changes them. -/
def Pending.Catches : Pending → Prop
  | .loop _ _ _ | .call _ | .load _ => True
  | _ => False

/-- Whether pending work is where an activation has been begun. -/
def Pending.Begins : Pending → Prop
  | .call _ | .load _ => True
  | _ => False

namespace Machine

/-! ## Values -/

/-- A value that a test has come to decides what is evaluated next, and nothing else. -/
theorem resume_test (v : Value) (env : Env) (body : Code) (rest : List (Code × Code)) (otherwise : Code)
    (stack : List Pending) (s : Store) : resume v (.test env body rest otherwise) stack s =
      ⟨.eval env (if v.holds then body else .choose rest otherwise), stack, s⟩ := by
  unfold resume
  dsimp only
  split <;> rfl

/-! ## Functions -/

/-- **What entering a function comes to.** -/
inductive EntersTo (setting : Setting) (function : FunctionInfo) (args : List Value) (stack : List Pending)
    (s : Store) : Config → Prop where
  | native {name : String} {arity index : Nat} (native : List Value → Effect) :
    s.function? function.id = some (.native name arity index) → setting.natives[index]? = some native →
    EntersTo setting function args stack s
      ⟨.ofReply (s.onHeap (native args)).1, stack, (s.onHeap (native args)).2⟩
  | noNative {name : String} {arity index : Nat} :
    s.function? function.id = some (.native name arity index) → setting.natives[index]? = none →
    EntersTo setting function args stack s ⟨.value .null, stack, s⟩
  | script (template : Template Code) (frame : FrameId) (module : NamespaceId) (rt : RuntimeId) :
    s.function? function.id = some (.script template frame module rt) → (s.runtime rt).alive = true →
    EntersTo setting function args stack s
      ⟨.eval ⟨(s.newFrame template.layout args (some frame)).1, module, rt⟩ template.body,
        .call template.returnLabel? :: stack, (s.newFrame template.layout args (some frame)).2⟩
  | dropped {template : Template Code} {frame : FrameId} {module : NamespaceId} {rt : RuntimeId} :
    s.function? function.id = some (.script template frame module rt) → (s.runtime rt).alive = false →
    EntersTo setting function args stack s ⟨.fail .runtimeDropped, stack, s⟩
  | noFunction : s.function? function.id = none →
    EntersTo setting function args stack s ⟨.value .null, stack, s⟩

theorem entersTo (setting : Setting) (function : FunctionInfo) (args : List Value) (stack : List Pending)
    (s : Store) : EntersTo setting function args stack s (enter setting function args stack s) := by
  unfold enter
  split
  next found =>
    split
    next native offered => exact .native native found offered
    next missing => exact .noNative found missing
  next template frame module rt found =>
    split
    next alive => exact .script template frame module rt found alive
    next dropped => exact .dropped found (Bool.eq_false_iff.2 dropped)
  next missing => exact .noFunction missing

/-! ## Exits -/

/-- **What an exit comes to at waiting work.** -/
inductive UnwindsTo (stack : List Pending) (s : Store) : Exit → Pending → Config → Prop where
  /-- A loop is left with a value. -/
  | left {env : Env} {label : Label} {body : Code} {v : Value} :
    UnwindsTo stack s (.leave label v) (.loop env label body) ⟨.value v, stack, s⟩
  /-- A call returns with a value. -/
  | returned {label : Label} {v : Value} :
    UnwindsTo stack s (.give label v) (.call (some label)) ⟨.value v, stack, s⟩
  | located {position : Position} {e : EvalError} :
    UnwindsTo stack s (.fail e) (.locate position) ⟨.exit (.fail (e.locate position)), stack, s⟩
  /-- What is not for a call gets out of it as a failure. -/
  | failed {e : Exit} {returnLabel? : Option Label} : (∀ label v, e = .give label v → returnLabel? ≠ some label) →
    UnwindsTo stack s e (.call returnLabel?) ⟨.exit (.fail e.toError), stack, s⟩
  | undone {e : Exit} {load : Load} :
    UnwindsTo stack s e (.load load) ⟨.exit (.fail e.toError), stack, s.undoLoad load⟩
  | passed {e : Exit} {p : Pending} : ¬ p.Begins → UnwindsTo stack s e p ⟨.exit e, stack, s⟩

theorem unwindsTo (e : Exit) (p : Pending) (stack : List Pending) (s : Store) :
    UnwindsTo stack s e p (unwind e p stack s) := by
  cases p with
  | loop env label body =>
    cases e with
    | leave target v =>
      unfold unwind
      dsimp only
      split
      next same =>
        subst same
        exact .left
      next => exact .passed id
    | _ => exact .passed id
  | locate position =>
    cases e with
    | fail error => exact .located
    | _ => exact .passed id
  | call returnLabel? =>
    cases e with
    | give target v =>
      unfold unwind
      dsimp only
      split
      next own =>
        subst own
        exact .returned
      next other =>
        refine .failed ?_
        rintro label w ⟨⟩
        exact other
    | _ => exact .failed nofun
  | load => exact .undone
  | _ => exact .passed id

/-! ## Steps -/

/-- **What a state comes to in one step.** -/
inductive StepsTo (setting : Setting) : Config → Config → Prop where
  | evaluates {env : Env} {code : Code} {stack : List Pending} {s : Store} :
    StepsTo setting ⟨.eval env code, stack, s⟩ (eval setting env code stack s)
  | replies {env : Env} {signature : Signature} {args : List Value} {stack : List Pending} {s t : Store}
    {reply : Reply} :
    s.dispatch setting.registry env.runtime env.module signature args = (.reply reply, t) →
    StepsTo setting ⟨.dispatch env signature args, stack, s⟩ ⟨.ofReply reply, stack, t⟩
  /-- An operation comes to another one. -/
  | handsOver {env : Env} {signature other : Signature} {args passed : List Value} {stack : List Pending}
    {s t : Store} :
    s.dispatch setting.registry env.runtime env.module signature args = (.dispatch other passed, t) →
    StepsTo setting ⟨.dispatch env signature args, stack, s⟩ ⟨.dispatch env other passed, stack, t⟩
  | enters {function : FunctionInfo} {args : List Value} {stack : List Pending} {s : Store} :
    StepsTo setting ⟨.enter function args, stack, s⟩ (enter setting function args stack s)
  | resumes {v : Value} {p : Pending} {stack : List Pending} {s : Store} :
    StepsTo setting ⟨.value v, p :: stack, s⟩ (resume v p stack s)
  | unwinds {e : Exit} {p : Pending} {stack : List Pending} {s : Store} :
    StepsTo setting ⟨.exit e, p :: stack, s⟩ (unwind e p stack s)
  | rests {c : Config} : (answer? c).isSome = true → StepsTo setting c c

theorem stepsTo (setting : Setting) (c : Config) : StepsTo setting c (step setting c) := by
  obtain ⟨control, stack, s⟩ := c
  cases control with
  | eval env code => exact .evaluates
  | dispatch env signature args =>
    unfold step
    dsimp only
    split
    next done => exact .replies done
    next done => exact .handsOver done
  | enter function args => exact .enters
  | value v =>
    cases stack with
    | nil => exact .rests rfl
    | cons p rest => exact .resumes
  | exit e =>
    cases stack with
    | nil => exact .rests rfl
    | cons p rest => exact .unwinds

end Machine

end HostScript
