import HostScript.Proofs.Dispatch.Transparency
import HostScript.Proofs.Machine.Launch

/-!
# Proofs/Machine/Reads — what undeclared names stand for

Whether a name that a source does not declare is read from a slot or looked up is settled when the
source is compiled, by the order of its text: from the first assignment on it is a variable of the module.
What a slot holds is settled by the order in which the source runs: the value that was assigned last,
or null if nothing was.  `reads_resolved` puts the two together.
-/

namespace HostScript

/-! ## Assignments -/

/-- The value that a machine is about to assign to a variable. -/
def Config.assigns? (v : Variable) (c : Config) : Option Value :=
  match c.control, c.stack with
  | .value x, .write _ slot :: _ => if slot.meant = v then some x else none
  | _, _ => none

/-- The value that was assigned to a variable last, in states of which the latest is the first. -/
def lastAssigned (v : Variable) (past : List Config) : Value :=
  (past.findSome? (·.assigns? v)).getD .null

theorem Machine.Writes.assigns? {c : Config} {x : Value} {id : FrameId} {slot : SlotRef} {v : Variable}
    (h : Writes c x id slot) : c.assigns? v = if slot.meant = v then some x else none := by
  obtain ⟨control, rest, stack⟩ := h
  unfold Config.assigns?
  rw [control, stack]

theorem Config.writes_of_assigns? {c : Config} {v : Variable} {x : Value}
    (h : c.assigns? v = some x) : ∃ id slot, Machine.Writes c x id slot ∧ slot.meant = v := by
  obtain ⟨control, stack, s⟩ := c
  unfold assigns? at h
  dsimp only at h
  split at h
  next y id slot rest =>
    split at h
    next meant =>
      obtain rfl := Option.some.inj h
      exact ⟨id, slot, ⟨rfl, rest, rfl⟩, meant⟩
    next => cases h
  next => cases h

/-- A state that is about to write makes the write its next step. -/
theorem Machine.Writes.step {setting : Setting} {c : Config} {x : Value} {id : FrameId} {slot : SlotRef}
    (h : Writes c x id slot) :
    (Machine.step setting c).store = c.store.writeSlot id slot x := by
  obtain ⟨control, stack, s⟩ := c
  obtain ⟨rfl, rest, rfl⟩ := h
  rfl

/-- The slot of a waiting write is there, in an activation of the variable's owner. -/
theorem Machine.Writes.addressed {c : Config} {x : Value} {id : FrameId} {slot : SlotRef}
    (h : Writes c x id slot) (sound : c.Sound) : ∃ place frame, c.store.Addressed id slot place frame := by
  obtain ⟨place, store, within, -, waits⟩ := sound
  obtain ⟨-, rest, stack⟩ := h
  rw [stack] at waits
  cases waits with
  | write stands _ => exact Activation.Sound.addressed within store stands rfl

/-! ## Operations on names -/

/-- How a machine goes on with the outcome of a dynamic operation. -/
def Outcome.goOn (env : Env) (stack : List Pending) (s : Store) : Outcome → Config
  | .reply r => ⟨.ofReply r, stack, s⟩
  | .dispatch signature args => ⟨.dispatch env signature args, stack, s⟩

/-- A dynamic operation whose arguments are known is made in the next step. -/
theorem Machine.step_dispatch (setting : Setting) (env : Env) (signature : Signature)
    (args : List Value) (stack : List Pending) (s : Store) :
    step setting ⟨.dispatch env signature args, stack, s⟩ =
      (s.dispatch setting.registry env.runtime env.module signature args).1.goOn env stack
        (s.dispatch setting.registry env.runtime env.module signature args).2 := by
  unfold step
  dsimp only
  cases s.dispatch setting.registry env.runtime env.module signature args with
  | mk outcome t => cases outcome <;> rfl

/-- **A state in which all operands of a dynamic operation are there.** -/
inductive Config.Operates (c : Config) (env : Env) (position : Position) (signature : Signature) :
    List Value → List Pending → Prop where
  | bare : c.control = .eval env (.dispatch position signature []) →
    Operates c env position signature [] c.stack
  | last {v : Value} {done : List Value} {rest : List Pending} : c.control = .value v →
    c.stack = .operands env position signature done [] :: rest →
      Operates c env position signature (v :: done).reverse rest

namespace Config.Operates

variable {c : Config} {env : Env} {position : Position} {signature : Signature} {args : List Value}
  {rest : List Pending} {setting : Setting}

theorem step_eq (h : c.Operates env position signature args rest) :
    Machine.step setting c = Machine.operate env position signature args rest c.store := by
  obtain ⟨control, stack, s⟩ := c
  cases h with
  | bare control =>
    dsimp only at control
    subst control
    rfl
  | last control stack =>
    dsimp only at control stack
    subst control stack
    rfl

/-- The operation is made in the next but one step. -/
theorem twice (h : c.Operates env position signature args rest) :
    (Machine.step setting)^[2] c =
      (c.store.dispatch setting.registry env.runtime env.module signature args).1.goOn env
        (.locate position :: rest)
        (c.store.dispatch setting.registry env.runtime env.module signature args).2 := by
  show Machine.step setting (Machine.step setting c) = _
  rw [h.step_eq]
  unfold Machine.operate Machine.step
  dsimp only
  cases c.store.dispatch setting.registry env.runtime env.module signature args with
  | mk outcome t => cases outcome <;> rfl

/-- The machine is in an activation whose environment the operation has. -/
theorem activation (h : c.Operates env position signature args rest) (sound : c.Sound) :
    env ∈ c.envs ∧ ∃ a : Activation, a.env = env ∧ (a.IsCall c.store ∨ a.IsModule c.store) := by
  obtain ⟨place, -, -, allowed, waits⟩ := sound
  unfold Config.envs
  cases h with
  | bare control =>
    rw [control] at allowed ⊢
    obtain ⟨a, l, inside, rfl, -⟩ := allowed
    exact ⟨List.mem_append_left _ List.mem_cons_self, a, rfl, waits.isCall_or_isModule inside⟩
  | last control stack =>
    rw [stack] at waits ⊢
    cases waits with
    | operands _ below =>
      exact ⟨List.mem_append_right _ List.mem_cons_self, _, rfl, below.isCall_or_isModule rfl⟩

end Config.Operates

namespace Store

variable {registry : Registry} {s : Store}

/-- **Looking a name up**, in the module and then among the globals. -/
theorem Faithful.dispatch_lookup (h : s.Faithful registry) (rt : RuntimeId) (module : NamespaceId)
    (name : String) (args : List Value) :
    (s.dispatch registry rt module (.lookup name) args).2.toHeap = s.toHeap ∧
      (∀ v, s.named? (s.runtime rt).globals module name = some v →
        (s.dispatch registry rt module (.lookup name) args).1 = .value v) ∧
      (s.named? (s.runtime rt).globals module name = none →
        (s.dispatch registry rt module (.lookup name) args).1 =
          .fail (.missingMember name "module")) := by
  obtain ⟨same, alike⟩ := h.agree_dispatch (.refl s) rt module (.lookup name) args
  have afresh : s.dispatchAfresh registry rt module (.lookup name) args =
      s.perform registry (s.runtime rt).globals module .lookup (.lookup name) args := rfl
  rw [same, alike.heap, afresh]
  unfold Store.perform
  dsimp only [Signature.lookup]
  refine ⟨?_, fun v found => ?_, fun free => ?_⟩
  · split <;> rfl
  · rw [found]
  · rw [free]

/-- **Calling a name**, what it is bound to in the module and then among the globals. -/
theorem Faithful.dispatch_call (h : s.Faithful registry) (rt : RuntimeId) (module : NamespaceId)
    (name : String) (arity : Nat) (args : List Value) :
    (∀ v, s.named? (s.runtime rt).globals module name = some v →
      (s.dispatch registry rt module (.call name arity) args).2.toHeap = s.toHeap ∧
        (s.dispatch registry rt module (.call name arity) args).1 = .ofCall (some name) v args) ∧
      (s.named? (s.runtime rt).globals module name = none →
        ((s.runtime rt).surface registry).calledMethod? name args = none →
          (s.dispatch registry rt module (.call name arity) args).2.toHeap = s.toHeap ∧
            (s.dispatch registry rt module (.call name arity) args).1 =
              .fail (.missingMember name "module")) := by
  obtain ⟨same, alike⟩ := h.agree_dispatch (.refl s) rt module (.call name arity) args
  have afresh : s.dispatchAfresh registry rt module (.call name arity) args =
      s.perform registry (s.runtime rt).globals module
        (.callNamed (((s.runtime rt).surface registry).calledMethod? name args)) (.call name arity)
        args := rfl
  rw [same, alike.heap, afresh]
  unfold Store.perform
  dsimp only [Signature.call]
  refine ⟨fun v found => ?_, fun free unoffered => ?_⟩
  · rw [found]
    exact ⟨rfl, rfl⟩
  · rw [free, unoffered]
    exact ⟨rfl, rfl⟩

end Store

/-! ## What a variable of the module holds -/

namespace Launch

variable {registry : Registry} {l : Launch} {tree : Node} {setting : Setting} {c d : Config}
  {past : List Config} {v : Variable}

/-- **A store remembers what was assigned last** to a variable of the module. -/
def Remembers (l : Launch) (v : Variable) (x : Value) (s : Store) : Prop :=
  ∃ frame, s.frames[l.number]? = some frame ∧ frame.layout = l.program.layout ∧
    ∀ i : Nat, l.program.layout.slots[i]? = some v → frame.slots[i]? = some x

theorem Remembers.kept {s t : Store} {x : Value} (h : l.Remembers v x s) (kept : s.KeepsFrames t) :
    l.Remembers v x t := by
  obtain ⟨frame, found, layout, held⟩ := h
  exact ⟨frame, kept _ _ found, layout, held⟩

/-- The activation of a variable of the module is that of the launch. -/
theorem place_eq {s : Store} {id place : FrameId} {slot : SlotRef} {frame : Frame} (sound : s.Sound)
    (h : s.Addressed id slot place frame) (owner : slot.meant.owner = ⟨l.number, 0⟩) :
    place.index = l.number := by
  have placed := sound.frames _ _ h.found
  have own : frame.layout.owner = ⟨l.number, 0⟩ := h.owner.trans owner
  cases linked : frame.parent? with
  | none => exact congrArg Owner.source ((placed.module linked).symm.trans own)
  | some outer => exact absurd (congrArg Owner.number own) (placed.inner outer linked).1

/-- **Writing** changes what is remembered of the variable that is meant and of no other. -/
theorem Remembers.written {s : Store} {x y : Value} {id place : FrameId} {slot : SlotRef} {frame : Frame}
    (h : l.Remembers v x s) (sound : s.Sound) (addressed : s.Addressed id slot place frame)
    (owner : v.owner = ⟨l.number, 0⟩) (once : Once v l.program.layout.slots) :
    l.Remembers v (if slot.meant = v then y else x) (s.writeSlot id slot y) := by
  obtain ⟨own, found, layout, held⟩ := h
  by_cases here : place.index = l.number
  · obtain rfl := Option.some.inj (found.symm.trans (here ▸ addressed.found))
    refine ⟨_, (addressed.frames_writeSlot y l.number).trans (if_pos here), layout, fun i known => ?_⟩
    have meant := layout ▸ addressed.meant
    by_cases same : slot.meant = v
    · obtain rfl : slot.index = i := once _ _ (same ▸ meant) known
      rw [if_pos same]
      exact Array.getElem?_setIfInBounds_self_of_lt addressed.inside
    · rw [if_neg same]
      have other : slot.index ≠ i := by
        rintro rfl
        exact same (Option.some.inj (meant.symm.trans known))
      exact (Array.getElem?_setIfInBounds_ne other).trans (held i known)
  · have other : slot.meant ≠ v := by
      rintro rfl
      exact here (place_eq sound addressed owner)
    rw [if_neg other]
    exact ⟨own, (addressed.frames_writeSlot y l.number).trans ((if_neg here).trans found), layout, held⟩

theorem Begins.remembers (h : l.Begins registry tree c) : l.Remembers v .null c.store := by
  obtain ⟨-, -, found⟩ := h.state
  refine ⟨_, found, rfl, fun i known => ?_⟩
  obtain ⟨inside, -⟩ := List.getElem?_eq_some_iff.1 known
  rw [List.getElem?_toArray, List.getElem?_replicate, if_pos inside]

/-- **What was assigned last is remembered** all along what follows a launch. -/
theorem Begins.course_remembers (h : l.Begins registry tree c) (moment : Moment registry setting c)
    (owner : v.owner = ⟨l.number, 0⟩) (once : Once v l.program.layout.slots) {phase : Phase}
    (course : Course (Over registry) (.busy setting c) past phase) :
    l.Remembers v (lastAssigned v past) phase.store := by
  have first : Phase.Holds registry Store.Sound (fun _ c => c.Sound) (.busy setting c) :=
    ⟨moment.registry_eq, (Invariant.sound registry).moment moment⟩
  induction course with
  | start => exact h.remembers
  | @done _ setting s t request _ _ _ begins ih =>
    have leads := request.leads_begin setting s
    rw [begins] at leads
    exact ih.kept leads.frames
  | @begun _ setting s request c _ _ begins ih =>
    have leads := request.leads_begin setting s
    rw [begins] at leads
    exact ih.kept leads.frames
  | @step past setting d before ih =>
    have sound : d.Sound := ((Invariant.sound registry).course before first).2
    have there := sound
    obtain ⟨place, store, -⟩ := there
    have latest : lastAssigned v (d :: past) =
        (d.assigns? v).getD (lastAssigned v past) := by
      unfold lastAssigned
      rw [List.findSome?_cons]
      cases d.assigns? v with
      | some x => rfl
      | none => rfl
    rw [latest]
    cases assigned : d.assigns? v with
    | some x =>
      obtain ⟨id, slot, writes, meant⟩ := Config.writes_of_assigns? assigned
      obtain ⟨place, frame, addressed⟩ := writes.addressed sound
      have written := ih.written (y := x) store addressed owner once
      rw [if_pos meant] at written
      show l.Remembers v x (Machine.step setting d).store
      rw [writes.step]
      exact written
    | none =>
      rcases (Machine.leads_step setting d).frames with
        ⟨x, id, slot, writes, same⟩ | kept
      · obtain ⟨place, frame, addressed⟩ := writes.addressed sound
        have other : slot.meant ≠ v := by
          intro meant
          rw [writes.assigns?, if_pos meant] at assigned
          cases assigned
        have written := ih.written (y := x) store addressed owner once
        rw [if_neg other] at written
        exact written.kept (.of_eq same)
      · exact ih.kept kept
  | answered _ _ ih => exact ih

/-- **Reading a variable of the module yields what was assigned to it last.** -/
theorem Begins.step_read (h : l.Begins registry tree c) (moment : Moment registry setting c)
    (owner : v.owner = ⟨l.number, 0⟩) (once : Once v l.program.layout.slots) {other : Setting}
    {d : Config} (course : Course (Over registry) (.busy setting c) past (.busy other d))
    (sound : d.Sound) {env : Env} {slot : SlotRef} (evaluated : d.control = .eval env (.read slot))
    (meant : slot.meant = v) :
    Machine.step other d = ⟨.value (lastAssigned v past), d.stack, d.store⟩ := by
  obtain ⟨own, found, layout, held⟩ := h.course_remembers moment owner once course
  obtain ⟨place, store, within, allowed, -⟩ := sound
  rw [evaluated] at allowed
  obtain ⟨a, loop?, rfl, rfl, stands⟩ := allowed
  obtain ⟨there, frame, addressed⟩ := Activation.Sound.addressed within store stands rfl
  have here := place_eq store addressed ((congrArg Variable.owner meant).trans owner)
  obtain rfl := Option.some.inj (found.symm.trans (here ▸ addressed.found))
  have known : own.layout.slots[slot.index]? = some v := addressed.meant.trans (congrArg some meant)
  have kept := held slot.index (layout ▸ known)
  have read := Option.some.inj (addressed.readSlot.symm.trans kept)
  obtain ⟨control, stack, s⟩ := d
  dsimp only at evaluated
  subst evaluated
  exact congrArg (fun x => Config.mk (.value x) stack s) read

/-! ## How launches begin -/

theorem begins_of_prepare {o s t : Store} {rt : RuntimeId} {text : String} {program : Program}
    (occurs : Reached registry o ∨ ∃ setting d, Moment registry setting d ∧ d.store = o)
    (code : o.SameCode s) (prepared : s.prepare rt text = (.ok program, t)) (module : NamespaceId) :
    ∃ (l : Launch) (tree : Node), l.module = module ∧ l.runtime = rt ∧ parse text = .ok tree ∧
      ∀ stack, l.Begins registry tree ⟨(t.startProgram rt module program).1, stack,
        (t.startProgram rt module program).2⟩ := by
  obtain ⟨tree, parsed, -⟩ := Store.compiled_of_prepare prepared
  exact ⟨⟨s.frames.size, module, rt, program⟩, tree, rfl, rfl, parsed, fun stack =>
    ⟨o, s, t, text, occurs, code, parsed, prepared, rfl, rfl⟩⟩

/-- **A source that starts is launched** in the module and the runtime it is asked for. -/
theorem begins_source {s : Store} {rt : RuntimeId} {module : NamespaceId} {text : String}
    (reached : Reached registry s)
    (begins : Request.begin setting s (.source rt module text) = .running c) :
    ∃ (l : Launch) (tree : Node), l.module = module ∧ l.runtime = rt ∧ parse text = .ok tree ∧
      l.Begins registry tree c := by
  cases begins ▸ Request.beginsAs setting s (.source rt module text) with
  | source prepared =>
    obtain ⟨l, tree, own, runs, parsed, launched⟩ :=
      begins_of_prepare (.inl reached) (.refl s) prepared module
    exact ⟨l, tree, own, runs, parsed, launched []⟩

/-- **A file that starts is launched** in the module that is made or given for it. -/
theorem begins_startFile {o s t : Store} {files : Files} {rt : RuntimeId} {module : NamespaceId}
    {path : String} {control : Control}
    (occurs : Reached registry o ∨ ∃ setting d, Moment registry setting d ∧ d.store = o)
    (code : o.SameCode s) (started : s.startFile files rt module path = (.ok control, t)) :
    ∃ (l : Launch) (tree : Node), l.module = module ∧ l.runtime = rt ∧
      (∃ text full, files.read path = .ok (text, full) ∧ parse text = .ok tree) ∧
        ∀ stack, l.Begins registry tree ⟨control, stack, t⟩ := by
  cases Store.fileStarts_of_eq started with
  | starts readable prepared =>
    have told (full : String) : o.SameCode (s.bind module "__file__" (.text full)) :=
      ⟨code.frames, code.functions⟩
    obtain ⟨l, tree, own, runs, parsed, launched⟩ := begins_of_prepare occurs (told _) prepared module
    exact ⟨l, tree, own, runs, ⟨_, _, readable, parsed⟩, launched⟩

end Launch

/-! ## Reads -/

/-- **Reads of undeclared names are settled in two steps.**  Every source or file that starts is
launched.  What happens to a name that its tree declares neither as a variable nor as a parameter is
settled by the order of the text: it is looked up before the first assignment, the value of which comes
before the assignment itself, and is a variable of the module from there on.  Wherever a session has come
to since the launch:

* reading that variable yields the value that was assigned to it last, in the order in which the session
  has gone, and null if none was, whatever the module and the globals hold;
* a name that is looked up is what the module binds it to now, else what the globals do, else fails;
* so is a name that is called, but that a method of an instance may take the place of the failure;
* and code of the launch is in its module and its runtime. -/
theorem reads_resolved (registry : Registry) :
    (∀ setting s rt module text c, Reached registry s →
      Request.begin setting s (.source rt module text) = .running c →
        ∃ (l : Launch) (tree : Node), l.module = module ∧ l.runtime = rt ∧ parse text = .ok tree ∧
          l.Begins registry tree c) ∧
    (∀ o s t files rt module path control,
      (Reached registry o ∨ ∃ setting d, Moment registry setting d ∧ d.store = o) → o.SameCode s →
        s.startFile files rt module path = (.ok control, t) →
          ∃ (l : Launch) (tree : Node), l.module = module ∧ l.runtime = rt ∧
            (∃ text full, files.read path = .ok (text, full) ∧ parse text = .ok tree) ∧
              ∀ stack, l.Begins registry tree ⟨control, stack, t⟩) ∧
    ∀ (l : Launch) (tree : Node) (setting : Setting) (c : Config), l.Begins registry tree c →
      Moment registry setting c → ∀ key, (∀ use ∈ tree.uses, use.declares key = false) →
        l.program.code.accesses.filter (·.isAbout key) =
          resolve key (l.moduleVariable key) false tree.uses ∧
        ∀ past other d, Course (Over registry) (.busy setting c) past (.busy other d) →
          (∀ env slot, d.control = .eval env (.read slot) → slot.meant = l.moduleVariable key →
            Machine.step other d =
              ⟨.value (lastAssigned (l.moduleVariable key) past), d.stack, d.store⟩) ∧
          (∀ env position name args rest, d.Operates env position (.lookup name) args rest →
            ∃ t, t.toHeap = d.store.toHeap ∧
              (∀ v, d.store.named? (d.store.runtime env.runtime).globals env.module name = some v →
                (Machine.step other)^[2] d = ⟨.value v, .locate position :: rest, t⟩) ∧
              (d.store.named? (d.store.runtime env.runtime).globals env.module name = none →
                (Machine.step other)^[2] d =
                  ⟨.fail (.missingMember name "module"), .locate position :: rest, t⟩)) ∧
          (∀ env position name arity args rest,
            d.Operates env position (.call name arity) args rest →
            (∀ v, d.store.named? (d.store.runtime env.runtime).globals env.module name = some v →
              ∃ t, t.toHeap = d.store.toHeap ∧ (Machine.step other)^[2] d =
                (Outcome.ofCall (some name) v args).goOn env (.locate position :: rest) t) ∧
            (d.store.named? (d.store.runtime env.runtime).globals env.module name = none →
              ((d.store.runtime env.runtime).surface registry).calledMethod? name args = none →
                ∃ t, t.toHeap = d.store.toHeap ∧ (Machine.step other)^[2] d =
                  ⟨.fail (.missingMember name "module"), .locate position :: rest, t⟩)) ∧
          ∀ env position signature args rest frame,
            d.Operates env position signature args rest →
              d.store.frames[env.frame.index]? = some frame →
                frame.layout.owner.source = l.number →
                  env.module = l.module ∧ env.runtime = l.runtime := by
  refine ⟨fun _ _ _ _ _ _ => Launch.begins_source, fun _ _ _ _ _ _ _ _ => Launch.begins_startFile, ?_⟩
  intro l tree setting c begins moment key undeclared
  obtain ⟨source, compiled⟩ := begins.compiled
  obtain ⟨resolved, once⟩ := (mirrors_compile compiled).2 key undeclared
  refine ⟨resolved, fun past other d course => ?_⟩
  have same := moment.registry_eq
  obtain ⟨shared, sound⟩ : other.registry = registry ∧ d.Sound :=
    (Invariant.sound registry).course course ⟨same, (Invariant.sound registry).moment moment⟩
  obtain ⟨-, faithful⟩ : other.registry = registry ∧ d.store.Faithful registry :=
    (Invariant.faithful registry).course course ⟨same, (Invariant.faithful registry).moment moment⟩
  refine ⟨?_, ?_, ?_, ?_⟩
  · intro env slot evaluated meant
    exact begins.step_read moment rfl once course sound evaluated meant
  · intro env position name args rest operates
    obtain ⟨heap, bound, free⟩ := faithful.dispatch_lookup env.runtime env.module name args
    rw [operates.twice, shared]
    refine ⟨_, heap, fun v found => ?_, fun missing => ?_⟩
    · rw [bound v found]
      rfl
    · rw [free missing]
      rfl
  · intro env position name arity args rest operates
    obtain ⟨bound, free⟩ := faithful.dispatch_call env.runtime env.module name arity args
    rw [operates.twice, shared]
    refine ⟨fun v found => ?_, fun missing unoffered => ?_⟩
    · obtain ⟨heap, outcome⟩ := bound v found
      exact ⟨_, heap, by rw [outcome]⟩
    · obtain ⟨heap, outcome⟩ := free missing unoffered
      exact ⟨_, heap, by rw [outcome]; rfl⟩
  · intro env position signature args rest frame operates found source
    obtain ⟨among, a, rfl, runs⟩ := operates.activation sound
    exact (begins.course moment course).home among runs found source

/-- The environment and the slot of the read that a machine is about to make. -/
def Config.reads? (c : Config) : Option (Env × SlotRef) :=
  match c.control with
  | .eval env (.read slot) => some (env, slot)
  | _ => none

theorem Config.control_of_reads? {c : Config} {env : Env} {slot : SlotRef}
    (h : c.reads? = some (env, slot)) : c.control = .eval env (.read slot) := by
  unfold reads? at h
  split at h
  next found =>
    obtain ⟨rfl, rfl⟩ := Prod.mk.inj (Option.some.inj h)
    exact found
  next => cases h

/-- The number that a value is. -/
def Value.number? : Value → Option Int64
  | .int i => some i
  | _ => none

theorem Value.eq_of_number? {v : Value} {i : Int64} (h : v.number? = some i) : v = .int i := by
  cases v with
  | int j => exact congrArg Value.int (Option.some.inj h)
  | _ => cases h

/-- A variable that a function has assigned, about to be read. -/
theorem reads_resolved_assigned :
    ∃ c d rest s, Config.ofSource "function set() { x = 7 } set(); x" 0 = some c ∧
      d = (Machine.step ⟨.initial, #[], .empty⟩)^[18] c ∧
      Machine.step ⟨.initial, #[], .empty⟩ d = ⟨.value (.int 7), rest, s⟩ := by
  have ends : (Config.ofSource "function set() { x = 7 } set(); x" 0).any fun c =>
      decide (c.store.frames.size = 1 ∧
        ((Machine.step ⟨.initial, #[], .empty⟩)^[18] c).reads? =
          some (⟨⟨0⟩, ⟨1⟩, ⟨0⟩⟩, ⟨⟨⟨0, 0⟩, none, "x"⟩, 0, 0⟩) ∧
        (lastAssigned ⟨⟨0, 0⟩, none, "x"⟩
          (Machine.trace ⟨.initial, #[], .empty⟩ c 18)).number? = some 7) := by decide +kernel
  have free : ((parse "function set() { x = 7 } set(); x").toOption.any fun tree =>
      tree.uses.all fun use => !use.declares "x") = true := by decide +kernel
  obtain ⟨c, starts, checked⟩ := (Option.any_eq_true _ _).1 ends
  obtain ⟨one, reading, assigned⟩ := of_decide_eq_true checked
  obtain ⟨s, reached, begins⟩ := Config.begin_of_ofSource starts
  obtain ⟨sources, -, launches⟩ := reads_resolved .initial
  obtain ⟨l, tree, -, -, parsed, launched⟩ := sources _ s _ _ _ c reached begins
  obtain ⟨-, size, -⟩ := launched.state
  have number : l.number = 0 := by omega
  have own : l.moduleVariable "x" = ⟨⟨0, 0⟩, none, "x"⟩ := by
    unfold Launch.moduleVariable
    rw [number]
  rw [parsed] at free
  have undeclared : ∀ use ∈ tree.uses, use.declares "x" = false := by
    intro use mem
    simpa using List.all_eq_true.1 free use mem
  obtain ⟨-, courses⟩ :=
    launches l tree _ c launched (.begun reached rfl begins) "x" undeclared
  obtain ⟨reads, -⟩ := courses _ _ _ (Course.start.trace 18)
  have read := reads _ _ (Config.control_of_reads? reading) own.symm
  rw [own, List.append_nil, Value.eq_of_number? assigned] at read
  exact ⟨c, _, _, _, starts, rfl, read⟩

/-- The failure that a machine has ended with. -/
def Config.failure? (c : Config) : Option EvalError :=
  match Machine.answer? c with
  | some (.error e) => some e
  | _ => none

/-- **Reads do not follow the order of execution alone.**  A variable is null if nothing has been
assigned to it, though its name is bound nowhere; and a name that the text assigns later is looked up in
vain, though it has been assigned. -/
theorem reads_not_by_execution :
    (∃ c d, Config.ofSource "if (false) then x = 1 end; x" 0 = some c ∧
      d = (Machine.step ⟨.initial, #[], .empty⟩)^[9] c ∧
      d.reads? = some (⟨⟨0⟩, ⟨1⟩, ⟨0⟩⟩, ⟨⟨⟨0, 0⟩, none, "x"⟩, 0, 0⟩) ∧
      ((Machine.trace ⟨.initial, #[], .empty⟩ c 9).findSome?
        (·.assigns? ⟨⟨0, 0⟩, none, "x"⟩)).isNone = true ∧
      (d.store.named? (d.store.runtime ⟨0⟩).globals ⟨1⟩ "x").isNone = true ∧
      (d.store.readSlot ⟨0⟩ ⟨⟨⟨0, 0⟩, none, "x"⟩, 0, 0⟩).same .null = true) ∧
    ∃ c, Config.ofSource "function f() { x } x = 1; f()" 0 = some c ∧
      (lastAssigned ⟨⟨0, 0⟩, none, "x"⟩
        (Machine.trace ⟨.initial, #[], .empty⟩ c 22)).number? = some 1 ∧
      ((Machine.step ⟨.initial, #[], .empty⟩)^[22] c).failure? =
        some ⟨.missingMember "x" "module", some ⟨1, 16⟩⟩ := by
  have unassigned : (Config.ofSource "if (false) then x = 1 end; x" 0).any fun c =>
      decide (((Machine.step ⟨.initial, #[], .empty⟩)^[9] c).reads? =
          some (⟨⟨0⟩, ⟨1⟩, ⟨0⟩⟩, ⟨⟨⟨0, 0⟩, none, "x"⟩, 0, 0⟩) ∧
        ((Machine.trace ⟨.initial, #[], .empty⟩ c 9).findSome?
          (·.assigns? ⟨⟨0, 0⟩, none, "x"⟩)).isNone = true ∧
        (((Machine.step ⟨.initial, #[], .empty⟩)^[9] c).store.named?
          (((Machine.step ⟨.initial, #[], .empty⟩)^[9] c).store.runtime ⟨0⟩).globals ⟨1⟩ "x").isNone =
            true ∧
        (((Machine.step ⟨.initial, #[], .empty⟩)^[9] c).store.readSlot ⟨0⟩
          ⟨⟨⟨0, 0⟩, none, "x"⟩, 0, 0⟩).same .null = true) := by decide +kernel
  have assigned : (Config.ofSource "function f() { x } x = 1; f()" 0).any fun c =>
      decide ((lastAssigned ⟨⟨0, 0⟩, none, "x"⟩
          (Machine.trace ⟨.initial, #[], .empty⟩ c 22)).number? = some 1 ∧
        ((Machine.step ⟨.initial, #[], .empty⟩)^[22] c).failure? =
          some ⟨.missingMember "x" "module", some ⟨1, 16⟩⟩) := by decide +kernel
  obtain ⟨c, starts, checked⟩ := (Option.any_eq_true _ _).1 unassigned
  obtain ⟨b, begins, failed⟩ := (Option.any_eq_true _ _).1 assigned
  exact ⟨⟨c, _, starts, rfl, of_decide_eq_true checked⟩, b, begins, of_decide_eq_true failed⟩

end HostScript
