import HostScript.Proofs.Estate.Stores
import HostScript.Proofs.Machine.Transitions
import HostScript.Session

/-!
# Proofs/Estate/Steps — machines and hosts outside of an estate

A machine that begins outside of an estate of a runtime stays outside, and leaves the runtime and the
namespaces of the estate as they are, as long as it does not enter a function that this runtime has made
(`Machine.sends_step`).  A host does so too if what it hands over is outside (`Request.leaves_begin`).
-/

namespace HostScript

variable {estate : Cell → Prop} {a : RuntimeId}

/-- **A setting that works outside of an estate**: its members and functions do. -/
structure Setting.Respects (estate : Cell → Prop) (setting : Setting) : Prop where
  registry : setting.registry.Respects estate estate
  natives : ∀ native ∈ setting.natives, ∀ args : List Value, (∀ v ∈ args, v.Outside estate) →
    (native args).Respects estate estate

/-- **A state outside of an estate of a runtime.** -/
structure Config.Outside (estate : Cell → Prop) (a : RuntimeId) (c : Config) : Prop where
  control : c.control.Outside estate
  stack : ∀ p ∈ c.stack, p.Outside estate
  store : c.store.Fenced estate a

/-- **A state that enters a function made by a runtime.** -/
def Config.Enters (a : RuntimeId) (c : Config) : Prop :=
  ∃ function args template frame module, c.control = .enter function args ∧
    c.store.function? function.id = some (.script template frame module a)

theorem Value.outside_ofLiteral (literal : Literal) : (Value.ofLiteral literal).Outside estate := by
  cases literal <;> trivial

/-- **What is done outside**, from a store to a state. -/
structure Store.Sends (estate : Cell → Prop) (a : RuntimeId) (s : Store) (c : Config) : Prop where
  control : c.control.Outside estate
  stack : ∀ p ∈ c.stack, p.Outside estate
  leaves : s.Leaves estate a c.store

namespace Store

variable {s t : Store} {c : Config}

theorem Sends.outside (sends : s.Sends estate a c) : c.Outside estate a :=
  ⟨sends.control, sends.stack, sends.leaves.fenced⟩

theorem Leaves.sends {control : Control} {stack : List Pending} (leaves : s.Leaves estate a t)
    (own : control.Outside estate) (below : ∀ p ∈ stack, p.Outside estate) :
    s.Sends estate a ⟨control, stack, t⟩ := ⟨own, below, leaves⟩

end Store

namespace Machine

variable {setting : Setting} {env : Env} {stack : List Pending} {s : Store}

theorem sends_importPath (fenced : s.Fenced estate a) (own : env.Outside estate) (path : List String)
    (below : ∀ p ∈ stack, p.Outside estate) :
    s.Sends estate a (importPath setting env path stack s) := by
  match importPath setting env path stack s, importsTo setting env path stack s with
  | _, .bound bound =>
    exact fenced.leaves.sends (fenced.lookUpPath (fenced.runtimes _ own.runtime).globals bound) below
  | _, .missing _ _ => exact fenced.leaves.sends trivial below
  | _, .starts file =>
    obtain ⟨load, begun⟩ := fenced.beginLoad own.runtime _
    obtain ⟨leaves, starts⟩ := begun.fenced.startFile own.runtime load.module file.started
    exact (begun.trans leaves).sends (starts _ rfl) (List.forall_mem_cons.2 ⟨load, below⟩)
  | _, .refused file =>
    obtain ⟨load, begun⟩ := fenced.beginLoad own.runtime _
    obtain ⟨leaves, -⟩ := begun.fenced.startFile own.runtime load.module file.started
    exact (begun.trans leaves).sends trivial (List.forall_mem_cons.2 ⟨load, below⟩)

/-- **Evaluating code.** -/
theorem sends_eval (fenced : s.Fenced estate a) (own : env.Outside estate)
    (below : ∀ p ∈ stack, p.Outside estate) (code : Code) :
    s.Sends estate a (eval setting env code stack s) := by
  -- What is put on the stack waits in the environment at hand.
  have push (p : Pending) (waits : p.Outside estate) (inner : Control) (goes : inner.Outside estate) :
      s.Sends estate a ⟨inner, p :: stack, s⟩ :=
    fenced.leaves.sends goes (List.forall_mem_cons.2 ⟨waits, below⟩)
  have go (inner : Control) (goes : inner.Outside estate) : s.Sends estate a ⟨inner, stack, s⟩ :=
    fenced.leaves.sends goes below
  have none : ∀ v ∈ ([] : List Value), v.Outside estate := List.forall_mem_nil _
  cases code with
  | null => exact go _ trivial
  | constant literal => exact go _ (Value.outside_ofLiteral literal)
  | thisModule => exact go _ own.module
  | read slot => exact go _ (fenced.readSlot own.frame slot)
  | write slot value => exact push (.write env.frame slot) trivial _ own
  | dispatch position signature operands =>
    cases operands with
    | nil => exact push (.locate position) trivial _ ⟨own, none⟩
    | cons first rest => exact push (.operands env position signature [] rest) ⟨own, none⟩ _ own
  | closure template =>
    obtain ⟨fresh, leaves⟩ := fenced.newFunction (f := .script template env.frame env.module env.runtime)
      fun _ => ⟨own.frame, own.module, own.runtime⟩
    exact leaves.sends fresh below
  | choose branches otherwise =>
    cases branches with
    | nil => exact go _ own
    | cons first rest => exact push (.test env first.2 rest otherwise) own _ own
  | loop label body => exact push (.loop env label body) own _ own
  | leave label value => exact push (.leave label) trivial _ own
  | give label value => exact push (.give label) trivial _ own
  | sequence codes =>
    cases codes with
    | nil => exact go _ trivial
    | cons first rest => exact push (.sequence env rest) own _ own
  | importAs position path name =>
    have waits : ∀ p ∈ Pending.locate position :: .bind env.module name :: stack, p.Outside estate :=
      List.forall_mem_cons.2 ⟨trivial, List.forall_mem_cons.2 ⟨own.module, below⟩⟩
    exact sends_importPath fenced own path waits

/-- **Handing a value to what waits for it.** -/
theorem sends_resume (fenced : s.Fenced estate a) {v : Value} (outside : v.Outside estate) {p : Pending}
    (own : p.Outside estate) (below : ∀ p ∈ stack, p.Outside estate) :
    s.Sends estate a (resume v p stack s) := by
  have push (q : Pending) (waits : q.Outside estate) (inner : Control) (goes : inner.Outside estate) :
      s.Sends estate a ⟨inner, q :: stack, s⟩ :=
    fenced.leaves.sends goes (List.forall_mem_cons.2 ⟨waits, below⟩)
  have go (inner : Control) (goes : inner.Outside estate) : s.Sends estate a ⟨inner, stack, s⟩ :=
    fenced.leaves.sends goes below
  cases p with
  | operands env position signature done todo =>
    obtain ⟨home, evaluated⟩ := own
    have args : ∀ w ∈ v :: done, w.Outside estate := List.forall_mem_cons.2 ⟨outside, evaluated⟩
    cases todo with
    | nil =>
      have all : ∀ w ∈ (v :: done).reverse, w.Outside estate := fun w mem => args w (List.mem_reverse.1 mem)
      exact push (.locate position) trivial _ ⟨home, all⟩
    | cons next todo => exact push (.operands env position signature (v :: done) todo) ⟨home, args⟩ _ home
  | write frame slot => exact (fenced.writeSlot frame slot outside).sends outside below
  | test env body rest otherwise =>
    rw [resume_test]
    exact go _ own
  | sequence env codes =>
    cases codes with
    | nil => exact go _ outside
    | cons next rest => exact push (.sequence env rest) own _ own
  | loop env label body => exact push (.loop env label body) own _ own
  | leave => exact go _ outside
  | give => exact go _ outside
  | bind module name => exact (fenced.bind own name outside).sends trivial below
  | locate => exact go _ outside
  | call returnLabel? =>
    refine go (.value _) ?_
    show Value.Outside estate (if returnLabel?.isSome then .null else v)
    split
    · trivial
    · exact outside
  | load l =>
    have module : (Control.value (.space l.module)).Outside estate := own.module
    exact go _ module

/-- **Taking pending work off the stack.** -/
theorem sends_unwind (fenced : s.Fenced estate a) {e : Exit} (outside : e.Outside estate) {p : Pending}
    (own : p.Outside estate) (below : ∀ p ∈ stack, p.Outside estate) :
    s.Sends estate a (unwind e p stack s) := by
  have go (inner : Control) (goes : inner.Outside estate) : s.Sends estate a ⟨inner, stack, s⟩ :=
    fenced.leaves.sends goes below
  match e, p, unwind e p stack s, unwindsTo e p stack s with
  | _, _, _, .left | _, _, _, .returned | _, _, _, .passed _ => exact go _ outside
  | _, _, _, .located | _, _, _, .failed _ => exact go _ trivial
  | _, _, _, .undone => exact (fenced.undoLoad own).sends trivial below

/-- **Entering a function** that the runtime of the estate has not made. -/
theorem sends_enter (fenced : s.Fenced estate a) (respects : setting.Respects estate)
    {function : FunctionInfo} (away : ¬estate (.function function.id)) {args : List Value}
    (outside : ∀ v ∈ args, v.Outside estate) (below : ∀ p ∈ stack, p.Outside estate)
    (foreign : ¬Config.Enters a ⟨.enter function args, stack, s⟩) :
    s.Sends estate a (enter setting function args stack s) := by
  have go (inner : Control) (goes : inner.Outside estate) : s.Sends estate a ⟨inner, stack, s⟩ :=
    fenced.leaves.sends goes below
  match enter setting function args stack s, entersTo setting function args stack s with
  | _, .noFunction _ | _, .noNative _ _ | _, .dropped _ _ => exact go _ trivial
  | _, .native native _ offered =>
    obtain ⟨reply, leaves⟩ :=
      respects.natives native (Array.mem_of_getElem? offered) args outside s.toHeap fenced.heap
    exact (fenced.onHeap leaves).sends (Control.outside_ofReply reply) below
  | _, .script template frame module rt found _ =>
    have other : rt ≠ a := fun same =>
      foreign ⟨function, args, template, frame, module, rfl, same ▸ found⟩
    obtain ⟨around, home, runtime⟩ := fenced.functions function.id away _ found other
    obtain ⟨fresh, leaves⟩ := fenced.newFrame template.layout outside
      fun outer linked => Option.some.inj linked ▸ around
    have waits : ∀ p ∈ Pending.call template.returnLabel? :: stack, p.Outside estate :=
      List.forall_mem_cons.2 ⟨trivial, below⟩
    have starts : Env.Outside estate ⟨_, module, rt⟩ := ⟨fresh, home, runtime⟩
    exact leaves.sends starts waits

/-- **A step outside of an estate stays outside** and leaves the estate alone, unless it enters a function
that the runtime of the estate has made. -/
theorem sends_step {c : Config} (outside : c.Outside estate a) (respects : setting.Respects estate)
    (foreign : ¬c.Enters a) : c.store.Sends estate a (step setting c) := by
  obtain ⟨own, below, fenced⟩ := outside
  match c, step setting c, stepsTo setting c with
  | _, _, .evaluates => exact sends_eval fenced own below _
  | ⟨.dispatch _ signature _, _, _⟩, _, .replies done =>
    obtain ⟨home, given⟩ := own
    obtain ⟨outcome, leaves⟩ :=
      fenced.dispatch respects.registry home.runtime home.module signature given
    rw [done] at outcome leaves
    exact leaves.sends (Control.outside_ofReply outcome) below
  | ⟨.dispatch _ signature _, _, _⟩, _, .handsOver done =>
    obtain ⟨home, given⟩ := own
    obtain ⟨outcome, leaves⟩ :=
      fenced.dispatch respects.registry home.runtime home.module signature given
    rw [done] at outcome leaves
    exact leaves.sends ⟨home, outcome⟩ below
  | _, _, .enters => exact sends_enter fenced respects own.1 own.2 below foreign
  | _, _, .resumes =>
    obtain ⟨waits, deeper⟩ := List.forall_mem_cons.1 below
    exact sends_resume fenced own waits deeper
  | _, _, .unwinds =>
    obtain ⟨waits, deeper⟩ := List.forall_mem_cons.1 below
    exact sends_unwind fenced own waits deeper
  | _, _, .rests _ => exact fenced.leaves.sends own below

end Machine

/-! ## Requests -/

namespace Request

/-- **A request to a runtime**, or one that concerns no runtime. -/
def On (b : RuntimeId) : Request → Prop
  | .build _ _ _ => False
  | .drop rt | .source rt _ _ | .fileIn rt _ _ | .fileAs rt _ _ => rt = b
  | .change _ | .offer _ _ _ | .call _ _ | .effect _ => True

/-- **A request that hands over nothing of an estate**, and works outside of it. -/
def Spares (estate : Cell → Prop) : Request → Prop
  | .source _ module _ | .fileIn _ module _ => ¬estate (.space module)
  | .call function args => ¬estate (.function function.id) ∧ ∀ v ∈ args, v.Outside estate
  | .change f => ∀ h : Heap, h.Fenced estate estate → h.Leaves estate estate (f h)
  | .effect e => e.Respects estate estate
  | .build _ _ _ | .drop _ | .offer _ _ _ | .fileAs _ _ _ => True

/-- **A request to a runtime outside of an estate** that hands over nothing of the estate leaves it
alone, and its machine begins outside. -/
theorem leaves_begin (setting : Setting) {s : Store} {request : Request} {b : RuntimeId}
    (fenced : s.Fenced estate a) (away : ¬estate (.runtime b)) (on : request.On b)
    (spares : request.Spares estate) :
    match request.begin setting s with
    | .done _ t => s.Leaves estate a t
    | .running c => s.Sends estate a c := by
  have none : ∀ p ∈ ([] : List Pending), p.Outside estate := List.forall_mem_nil _
  match request, request.begin setting s, request.beginsAs setting s with
  | _, _, .build => exact on.elim
  | .drop rt, _, .drop =>
    obtain rfl := on
    obtain ⟨globals, instances, rules⟩ := fenced.runtimes rt away
    exact fenced.changeRuntime away ⟨globals, instances, rules⟩
  | _, _, .change => exact fenced.onHeap (spares s.toHeap fenced.heap)
  | .offer name arity index, _, .offer =>
    exact (fenced.newFunction (f := .native name arity index) trivial).2
  | _, _, .source prepared =>
    obtain rfl := on
    have ready := fenced.prepare away prepared
    obtain ⟨starts, started⟩ := ready.fenced.startProgram away spares _
    exact (ready.trans started).sends starts none
  | _, _, .noSource prepared =>
    obtain rfl := on
    exact fenced.prepare away prepared
  | _, _, .fileIn started =>
    obtain rfl := on
    obtain ⟨leaves, starts⟩ := fenced.startFile away spares started
    exact leaves.sends (starts _ rfl) none
  | _, _, .noFileIn started =>
    obtain rfl := on
    exact (fenced.startFile away spares started).1
  | _, _, .fileAs started =>
    obtain rfl := on
    obtain ⟨load, begun⟩ := fenced.beginLoad away _
    obtain ⟨leaves, starts⟩ := begun.fenced.startFile away load.module started
    exact (begun.trans leaves).sends (starts _ rfl) (List.forall_mem_cons.2 ⟨load, none⟩)
  | _, _, .noFileAs started =>
    obtain rfl := on
    obtain ⟨load, begun⟩ := fenced.beginLoad away _
    obtain ⟨leaves, -⟩ := begun.fenced.startFile away load.module started
    have ready := begun.trans leaves
    exact ready.trans (ready.fenced.undoLoad load)
  | _, _, .call => exact fenced.leaves.sends spares none
  | _, _, .effect =>
    obtain ⟨reply, leaves⟩ := spares s.toHeap fenced.heap
    exact (fenced.onHeap leaves).sends (Control.outside_ofReply reply) none

end Request

end HostScript
