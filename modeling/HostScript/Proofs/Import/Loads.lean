import HostScript.Proofs.Import.Discreet
import HostScript.Proofs.Import.Runtimes
import HostScript.Proofs.Machine.Leads
import HostScript.Proofs.Machine.Untouched

/-!
# Proofs/Import/Loads — what a step does to global names

As long as the root of the global names is hidden, scripts bind global names by loading files and in no
other way.  `Shift` says what one step does to the names and to the loads in progress: nothing, or it
begins a load of a name that is not bound, or it ends the innermost load, with the name left bound or put
back.  `tame_step` says that every step keeps the root hidden and is a shift.
-/

namespace HostScript

variable {root : NamespaceId}

theorem Value.avoids_ofLiteral (literal : Literal) : (Value.ofLiteral literal).Avoids root := by
  cases literal <;> trivial

/-! ## States -/

/-- An exit with no root of the global names in it. -/
def Exit.Avoids (root : NamespaceId) : Exit → Prop
  | .leave _ v => v.Avoids root
  | .give _ v => v.Avoids root
  | .fail _ => True

/-- What a machine is about to do neither has the root of the global names nor runs in it. -/
def Control.Hides (root : NamespaceId) : Control → Prop
  | .eval env _ => env.module ≠ root
  | .dispatch env _ args => env.module ≠ root ∧ ∀ v ∈ args, v.Avoids root
  | .enter _ args => ∀ v ∈ args, v.Avoids root
  | .value v => v.Avoids root
  | .exit e => e.Avoids root

/-- What a load keeps is no root of the global names. -/
structure Load.Hides (root : NamespaceId) (l : Load) : Prop where
  module : l.module ≠ root
  previous : ∀ v, l.previous? = some v → v.Avoids root

/-- What waits neither has the root of the global names nor runs in it. -/
def Pending.Hides (root : NamespaceId) : Pending → Prop
  | .operands env _ _ done _ => env.module ≠ root ∧ ∀ v ∈ done, v.Avoids root
  | .test env _ _ _ => env.module ≠ root
  | .sequence env _ => env.module ≠ root
  | .loop env _ _ => env.module ≠ root
  | .bind module _ => module ≠ root
  | .load l => l.Hides root
  | _ => True

/-- **A state that hides the root of the global names.** -/
structure Config.Hides (root : NamespaceId) (c : Config) : Prop where
  control : c.control.Hides root
  stack : ∀ p ∈ c.stack, p.Hides root
  store : c.store.Hides root

theorem Control.hides_ofReply {reply : Reply} (avoid : reply.Avoids root) :
    (ofReply reply).Hides root := by
  cases reply with
  | value v => exact avoid
  | fail cause => trivial
  | call f args => exact avoid

/-! ## Loads in progress -/

/-- The load that waits, if it binds a name under a root. -/
def Pending.load? (root : NamespaceId) : Pending → Option Load
  | .load l => if l.globals = root then some l else none
  | _ => none

/-- **The loads in progress** that bind names under a root, the innermost first. -/
def loadsOf (root : NamespaceId) (stack : List Pending) : List Load :=
  stack.filterMap (Pending.load? root)

theorem loadsOf_cons_none {p : Pending} (none : p.load? root = none) (stack : List Pending) :
    loadsOf root (p :: stack) = loadsOf root stack := List.filterMap_cons_none none

theorem loadsOf_cons_load {l : Load} (here : l.globals = root) (stack : List Pending) :
    loadsOf root (.load l :: stack) = l :: loadsOf root stack :=
  List.filterMap_cons_some (if_pos here)

theorem mem_loadsOf {l : Load} {stack : List Pending} :
    l ∈ loadsOf root stack ↔ Pending.load l ∈ stack ∧ l.globals = root := by
  constructor
  · intro mem
    obtain ⟨p, among, found⟩ := List.mem_filterMap.1 mem
    cases p with
    | load other =>
      have own : (if other.globals = root then some other else none) = some l := found
      split at own
      next here =>
        obtain rfl := Option.some.inj own
        exact ⟨among, here⟩
      next => cases own
    | _ => cases found
  · rintro ⟨among, here⟩
    exact List.mem_filterMap.2 ⟨_, among, if_pos here⟩

/-- The load that is about to complete. -/
def Config.completing? (c : Config) : Option Load :=
  match c.control, c.stack with
  | .value _, .load l :: _ => some l
  | _, _ => none

theorem Config.completing?_eq_some {c : Config} {l : Load} :
    c.completing? = some l ↔ ∃ v rest, c.control = .value v ∧ c.stack = .load l :: rest := by
  obtain ⟨control, stack, s⟩ := c
  constructor
  · intro h
    unfold completing? at h
    dsimp only at h
    split at h
    next v l rest =>
      obtain rfl := Option.some.inj h
      exact ⟨v, rest, rfl, rfl⟩
    next => cases h
  · rintro ⟨v, rest, control, stack⟩
    dsimp only at control stack
    subst control stack
    rfl

/-- The names after a load has been undone. -/
def Load.restore (l : Load) (names : Namespace Value) : Namespace Value :=
  match l.previous? with
  | some v => names.insert l.name v
  | none => names.erase l.name

namespace Machine

/-- **What a step does to the names under a root** and to the loads in progress. -/
inductive Shift (root : NamespaceId) (c d : Config) : Prop where
  | quiet : d.store.space root = c.store.space root → loadsOf root d.stack = loadsOf root c.stack →
    Shift root c d
  /-- A load begins, of a name that the code imports and that is not bound. -/
  | begins (l : Load) : l.globals = root → l.previous? = none → c.store.get? root l.name = none →
    [l.name] ∈ c.imports → d.store.space root = (c.store.space root).insert l.name (.space l.module) →
      loadsOf root d.stack = l :: loadsOf root c.stack → Shift root c d
  | completes (l : Load) (v : Value) : l.globals = root → c.control = .value v →
    c.stack = .load l :: d.stack → d.store.space root = c.store.space root → Shift root c d
  | undoes (l : Load) (e : Exit) : l.globals = root → c.control = .exit e →
    c.stack = .load l :: d.stack → d.store.space root = l.restore (c.store.space root) → Shift root c d

/-- A step that keeps the root hidden and shifts the names under it. -/
structure Tame (root : NamespaceId) (c d : Config) : Prop where
  hides : d.Hides root
  shift : Shift root c d

end Machine

/-! ## Beginning and undoing loads -/

namespace Store

variable {s t : Store}

theorem toHeap_writeSlot (s : Store) (id : FrameId) (slot : SlotRef) (v : Value) :
    (s.writeSlot id slot v).toHeap = s.toHeap := by
  unfold Store.writeSlot
  split <;> rfl

theorem get?_eq_space (s : Store) (id : NamespaceId) (name : String) :
    s.get? id name = (s.space id).get? name := rfl

theorem Hides.bind (hides : s.Hides root) (id : NamespaceId) (name : String) {v : Value}
    (avoid : v.Avoids root) : (s.bind id name v).Hides root :=
  ⟨hides.heap.bind id name avoid, hides.frames, hides.functions⟩

theorem space_bind (hides : s.Hides root) (id : NamespaceId) (name : String) (v : Value) :
    (s.bind id name v).space root =
      if id = root then (s.space root).insert name v else s.space root := by
  split
  next here =>
    subst here
    exact Heap.space_setSpace_self hides.heap.there _
  next other => exact Heap.space_setSpace_of_ne other _ _

theorem space_unbind (hides : s.Hides root) (id : NamespaceId) (name : String) :
    (s.unbind id name).space root = if id = root then (s.space root).erase name else s.space root := by
  split
  next here =>
    subst here
    exact Heap.space_setSpace_self hides.heap.there _
  next other => exact Heap.space_setSpace_of_ne other _ _

/-- **Beginning a load** binds its name to its module. -/
theorem Hides.beginLoad (hides : s.Hides root) (rt : RuntimeId) (name : String) :
    (s.beginLoad rt name).2.Hides root ∧ (s.beginLoad rt name).1.Hides root ∧
      (s.beginLoad rt name).2.space root =
        if (s.runtime rt).globals = root then
          (s.space root).insert name (.space (s.beginLoad rt name).1.module)
        else s.space root := by
  obtain ⟨fresh, made, same⟩ := hides.newSpace
  refine ⟨made.bind _ name fresh, ⟨fresh, fun v bound => hides.heap.get? bound⟩, ?_⟩
  show (s.newSpace.2.bind _ name _).space root = _
  rw [space_bind made, same]
  rfl

/-- **Undoing a load** puts the name back. -/
theorem Hides.undoLoad (hides : s.Hides root) {l : Load} (own : l.Hides root) :
    (s.undoLoad l).Hides root ∧ (s.undoLoad l).space root =
      if l.globals = root then l.restore (s.space root) else s.space root := by
  unfold Store.undoLoad Load.restore
  cases previous : l.previous? with
  | some v => exact ⟨hides.bind _ _ (own.previous v previous), space_bind hides _ _ _⟩
  | none =>
    exact ⟨⟨hides.heap.unbind _ _, hides.frames, hides.functions⟩, space_unbind hides _ _⟩

/-- Preparing a source does nothing to the heap. -/
theorem Hides.prepare (hides : s.Hides root) {rt : RuntimeId} {text : String}
    {result : Except ScriptError Program} (h : s.prepare rt text = (result, t)) :
    t.Hides root ∧ t.space root = s.space root := by
  have untouched := untouched_prepare h
  have heap : t.toHeap = s.toHeap := untouched.heap
  exact ⟨hides.of_code (heap ▸ hides.heap) ⟨untouched.frames, untouched.functions⟩,
    congrArg (Heap.space · root) heap⟩

theorem Hides.startProgram (hides : s.Hides root) (rt : RuntimeId) {module : NamespaceId}
    (other : module ≠ root) (program : Program) :
    (s.startProgram rt module program).1.Hides root ∧
      (s.startProgram rt module program).2.Hides root :=
  ⟨other, hides.newFrame _ (List.forall_mem_nil _) _⟩

/-- **Starting a file** works in its module alone. -/
theorem Hides.startFile (hides : s.Hides root) {files : Files} {rt : RuntimeId} {module : NamespaceId}
    (other : module ≠ root) {path : String} {result : Except ScriptError Control}
    (h : s.startFile files rt module path = (result, t)) :
    t.Hides root ∧ t.space root = s.space root ∧
      ∀ control, result = .ok control → control.Hides root := by
  have told (full : String) : (s.bind module "__file__" (.text full)).Hides root := hides.bind _ _ trivial
  have kept (full : String) : (s.bind module "__file__" (.text full)).space root = s.space root :=
    (space_bind hides _ _ _).trans (if_neg other)
  cases fileStarts_of_eq h with
  | unreadable => exact ⟨hides, rfl, nofun⟩
  | refused _ prepared =>
    obtain ⟨ready, same⟩ := (told _).prepare prepared
    exact ⟨ready, same.trans (kept _), nofun⟩
  | starts _ prepared =>
    obtain ⟨ready, same⟩ := (told _).prepare prepared
    obtain ⟨starts, started⟩ := ready.startProgram rt other _
    refine ⟨started, same.trans (kept _), ?_⟩
    rintro _ ⟨⟩
    exact starts

/-- No path of names leads to the root. -/
theorem Hides.lookUpPath (hides : s.Hides root) {id : NamespaceId} {path : List String} {v : Value}
    (found : s.lookUpPath id path = some v) : v.Avoids root := by
  induction path generalizing id with
  | nil => cases found
  | cons name rest ih =>
    cases rest with
    | nil => exact hides.heap.get? found
    | cons next rest =>
      unfold Store.lookUpPath at found
      split at found
      · exact ih found
      · cases found

end Store

/-! ## Steps -/

namespace Machine

variable {setting : Setting} {env : Env} {stack waiting : List Pending} {s : Store}

/-- A step that does not touch the names under the root and changes nothing of the loads. -/
theorem Tame.quiet {c d : Config} (hides : d.Hides root) (same : d.store.space root = c.store.space root)
    (loads : loadsOf root d.stack = loadsOf root c.stack) : Tame root c d := ⟨hides, .quiet same loads⟩

theorem tame_importPath (kept : s.Hides root) (position : Position)
    (path : List String) (target : String) (below : ∀ p ∈ waiting, p.Hides root)
    (loads : loadsOf root waiting = loadsOf root stack) :
    Tame root ⟨.eval env (.importAs position path target), stack, s⟩
      (importPath setting env path waiting s) := by
  -- Whether a file starts or not, its load is there and the names are those with its own.
  have shift {name : String} {result : Except ScriptError Control} {control : Control} {t u : Store}
      (file : FindsFile setting env path s name result u)
      (same : t.space root = (s.beginLoad env.runtime name).2.space root) :
      Shift root ⟨.eval env (.importAs position path target), stack, s⟩
        ⟨control, .load (s.beginLoad env.runtime name).1 :: waiting, t⟩ := by
    obtain ⟨rfl, unbound, -, -⟩ := file
    obtain ⟨-, -, names⟩ := kept.beginLoad env.runtime name
    by_cases here : (s.runtime env.runtime).globals = root
    · rw [if_pos here] at names
      have imports : [name] ∈ (Code.importAs position [name] target).imports := List.mem_cons_self
      exact .begins (s.beginLoad env.runtime name).1 here unbound (here ▸ unbound)
        (List.mem_append_left _ imports) (same.trans names)
        ((loadsOf_cons_load here waiting).trans (congrArg _ loads))
    · rw [if_neg here] at names
      have none : (Pending.load (s.beginLoad env.runtime name).1).load? root = none := if_neg here
      exact .quiet (same.trans names) ((loadsOf_cons_none none waiting).trans loads)
  match importPath setting env path waiting s, importsTo setting env path waiting s with
  | _, .bound bound => exact ⟨⟨kept.lookUpPath bound, below, kept⟩, .quiet rfl loads⟩
  | _, .missing _ _ => exact ⟨⟨trivial, below, kept⟩, .quiet rfl loads⟩
  | _, .starts file =>
    obtain ⟨begun, own, -⟩ := kept.beginLoad env.runtime _
    obtain ⟨ready, same, starts⟩ := begun.startFile own.module file.started
    exact ⟨⟨starts _ rfl, List.forall_mem_cons.2 ⟨own, below⟩, ready⟩, shift file same⟩
  | _, .refused file =>
    obtain ⟨begun, own, -⟩ := kept.beginLoad env.runtime _
    obtain ⟨ready, same, -⟩ := begun.startFile own.module file.started
    exact ⟨⟨trivial, List.forall_mem_cons.2 ⟨own, below⟩, ready⟩, shift file same⟩

variable {code : Code}

/-- **Evaluating code.** -/
theorem tame_eval (outside : env.module ≠ root) (below : ∀ p ∈ stack, p.Hides root) (kept : s.Hides root) :
    Tame root ⟨.eval env code, stack, s⟩ (eval setting env code stack s) := by
  -- What is put on the stack waits in the environment at hand.
  have push (p : Pending) (own : p.Hides root) (none : p.load? root = none) (inner : Control)
      (hides : inner.Hides root) : Tame root ⟨.eval env code, stack, s⟩ ⟨inner, p :: stack, s⟩ :=
    ⟨⟨hides, List.forall_mem_cons.2 ⟨own, below⟩, kept⟩, .quiet rfl (loadsOf_cons_none none stack)⟩
  have go (inner : Control) (hides : inner.Hides root) :
      Tame root ⟨.eval env code, stack, s⟩ ⟨inner, stack, s⟩ := ⟨⟨hides, below, kept⟩, .quiet rfl rfl⟩
  cases code with
  | null => exact go _ trivial
  | constant literal => exact go _ (Value.avoids_ofLiteral literal)
  | thisModule => exact go _ outside
  | read slot => exact go _ (kept.readSlot _ _)
  | write slot value => exact push (.write env.frame slot) trivial rfl _ outside
  | dispatch position signature operands =>
    cases operands with
    | nil => exact push (.locate position) trivial rfl _ ⟨outside, List.forall_mem_nil _⟩
    | cons first rest =>
      exact push (.operands env position signature [] rest) ⟨outside, List.forall_mem_nil _⟩ rfl _ outside
  | closure template =>
    refine .quiet ⟨trivial, below, kept.newFunction ?_⟩ rfl rfl
    rintro _ _ _ _ ⟨⟩
    exact outside
  | choose branches otherwise =>
    cases branches with
    | nil => exact go _ outside
    | cons first rest => exact push (.test env first.2 rest otherwise) outside rfl _ outside
  | loop label body => exact push (.loop env label body) outside rfl _ outside
  | leave label value => exact push (.leave label) trivial rfl _ outside
  | give label value => exact push (.give label) trivial rfl _ outside
  | sequence codes =>
    cases codes with
    | nil => exact go _ trivial
    | cons first rest => exact push (.sequence env rest) outside rfl _ outside
  | importAs position path name =>
    exact tame_importPath kept position path name
      (List.forall_mem_cons.2 ⟨trivial, List.forall_mem_cons.2 ⟨outside, below⟩⟩) rfl

/-- **Handing a value to what waits for it.** -/
theorem tame_resume {v : Value} (avoid : v.Avoids root) {p : Pending} (own : p.Hides root)
    (below : ∀ p ∈ stack, p.Hides root) (kept : s.Hides root) :
    Tame root ⟨.value v, p :: stack, s⟩ (resume v p stack s) := by
  have go (none : p.load? root = none) (inner : Control) (hides : inner.Hides root) :
      Tame root ⟨.value v, p :: stack, s⟩ ⟨inner, stack, s⟩ :=
    ⟨⟨hides, below, kept⟩, .quiet rfl (loadsOf_cons_none none stack).symm⟩
  have push (none : p.load? root = none) (q : Pending) (waits : q.Hides root)
      (other : q.load? root = Option.none) (inner : Control) (hides : inner.Hides root) :
      Tame root ⟨.value v, p :: stack, s⟩ ⟨inner, q :: stack, s⟩ := by
    refine ⟨⟨hides, List.forall_mem_cons.2 ⟨waits, below⟩, kept⟩, .quiet rfl ?_⟩
    rw [loadsOf_cons_none other, loadsOf_cons_none none]
  cases p with
  | operands env position signature done todo =>
    obtain ⟨outside, evaluated⟩ := own
    have args : ∀ w ∈ v :: done, w.Avoids root := List.forall_mem_cons.2 ⟨avoid, evaluated⟩
    cases todo with
    | nil =>
      have all : ∀ w ∈ (v :: done).reverse, w.Avoids root := fun w mem => args w (List.mem_reverse.1 mem)
      exact push rfl (.locate position) trivial rfl _ ⟨outside, all⟩
    | cons next todo =>
      exact push rfl (.operands env position signature (v :: done) todo) ⟨outside, args⟩ rfl _ outside
  | write id slot =>
    refine .quiet ⟨avoid, below, kept.writeSlot id slot avoid⟩ ?_ rfl
    exact congrArg (Heap.space · root) (s.toHeap_writeSlot id slot v)
  | test env body rest otherwise =>
    rw [resume_test]
    exact go rfl _ own
  | sequence env codes =>
    cases codes with
    | nil => exact go rfl _ avoid
    | cons next rest => exact push rfl (.sequence env rest) own rfl _ own
  | loop env label body => exact push rfl (.loop env label body) own rfl _ own
  | leave => exact go rfl _ avoid
  | give => exact go rfl _ avoid
  | bind module name =>
    refine .quiet ⟨trivial, below, kept.bind module name avoid⟩ ?_ rfl
    exact (Store.space_bind kept module name v).trans (if_neg own)
  | locate => exact go rfl _ avoid
  | call returnLabel? =>
    refine go rfl (.value _) ?_
    show Value.Avoids root (if returnLabel?.isSome then .null else v)
    split
    · trivial
    · exact avoid
  | load l =>
    have module : (Control.value (.space l.module)).Hides root := own.module
    by_cases here : l.globals = root
    · exact ⟨⟨module, below, kept⟩, .completes l v here rfl rfl rfl⟩
    · exact go (if_neg here) _ module

/-- **Taking pending work off the stack.** -/
theorem tame_unwind {e : Exit} (avoid : e.Avoids root) {p : Pending} (own : p.Hides root)
    (below : ∀ p ∈ stack, p.Hides root) (kept : s.Hides root) :
    Tame root ⟨.exit e, p :: stack, s⟩ (unwind e p stack s) := by
  have go (none : p.load? root = none) (inner : Control) (hides : inner.Hides root) :
      Tame root ⟨.exit e, p :: stack, s⟩ ⟨inner, stack, s⟩ :=
    ⟨⟨hides, below, kept⟩, .quiet rfl (loadsOf_cons_none none stack).symm⟩
  match e, p, unwind e p stack s, unwindsTo e p stack s with
  | _, _, _, .left | _, _, _, .returned => exact go rfl _ avoid
  | _, _, _, .located | _, _, _, .failed _ => exact go rfl _ trivial
  | e, .load l, _, .undone =>
    obtain ⟨undone, names⟩ := kept.undoLoad own
    by_cases here : l.globals = root
    · rw [if_pos here] at names
      exact ⟨⟨trivial, below, undone⟩, .undoes l e here rfl rfl names⟩
    · rw [if_neg here] at names
      have none : (Pending.load l).load? root = none := if_neg here
      exact ⟨⟨trivial, below, undone⟩, .quiet names (loadsOf_cons_none none stack).symm⟩
  | _, p, _, .passed free =>
    refine go ?_ _ avoid
    cases p with
    | load => exact absurd trivial free
    | _ => rfl

/-- **Going on after an answer.** -/
theorem tame_reply {control : Control} {t : Store} {reply : Reply} (avoid : reply.Avoids root)
    (below : ∀ p ∈ stack, p.Hides root) (kept : t.Hides root) (same : t.space root = s.space root) :
    Tame root ⟨control, stack, s⟩ ⟨.ofReply reply, stack, t⟩ :=
  .quiet ⟨Control.hides_ofReply avoid, below, kept⟩ same rfl

/-- **Entering a function.** -/
theorem tame_enter (discreet : setting.Discreet root) (function : FunctionInfo) {args : List Value}
    (avoid : ∀ v ∈ args, v.Avoids root) (below : ∀ p ∈ stack, p.Hides root) (kept : s.Hides root) :
    Tame root ⟨.enter function args, stack, s⟩ (enter setting function args stack s) := by
  match enter setting function args stack s, entersTo setting function args stack s with
  | _, .native native _ offered =>
    obtain ⟨reply, spares⟩ :=
      discreet.natives native (Array.mem_of_getElem? offered) args avoid s.toHeap kept.heap
    exact tame_reply reply below ⟨spares.hides, kept.frames, kept.functions⟩ spares.same
  | _, .script template _ module _ found _ =>
    have outside : module ≠ root := kept.function? found
    have waits : Pending.Hides root (.call template.returnLabel?) := trivial
    exact .quiet ⟨outside, List.forall_mem_cons.2 ⟨waits, below⟩, kept.newFrame _ avoid _⟩ rfl
      (loadsOf_cons_none rfl stack)
  | _, .noNative .. | _, .dropped .. | _, .noFunction .. => exact .quiet ⟨trivial, below, kept⟩ rfl rfl

/-- **Every step keeps the root hidden and shifts the names under it.** -/
theorem tame_step {c : Config} (discreet : setting.Discreet root) (hides : c.Hides root) :
    Tame root c (step setting c) := by
  obtain ⟨own, below, kept⟩ := hides
  match c, step setting c, stepsTo setting c with
  | _, _, .evaluates => exact tame_eval own below kept
  | ⟨.dispatch env signature _, _, _⟩, _, .replies done =>
    obtain ⟨outcome, after, same⟩ :=
      kept.dispatch discreet.registry env.runtime env.module signature own.2
    rw [done] at outcome after same
    exact tame_reply outcome below after same
  | ⟨.dispatch env signature _, _, _⟩, _, .handsOver done =>
    obtain ⟨outcome, after, same⟩ :=
      kept.dispatch discreet.registry env.runtime env.module signature own.2
    rw [done] at outcome after same
    exact .quiet ⟨⟨own.1, outcome⟩, below, after⟩ same rfl
  | _, _, .enters => exact tame_enter discreet _ own below kept
  | _, _, .resumes =>
    obtain ⟨waits, deeper⟩ := List.forall_mem_cons.1 below
    exact tame_resume own waits deeper kept
  | _, _, .unwinds =>
    obtain ⟨waits, deeper⟩ := List.forall_mem_cons.1 below
    exact tame_unwind own waits deeper kept
  | _, _, .rests _ => exact .quiet ⟨own, below, kept⟩ rfl rfl

end Machine

end HostScript
