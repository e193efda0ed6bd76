import HostScript.Proofs.Compile.Strands
import HostScript.Proofs.Machine.Reads

/-!
# Proofs/Machine/Shadowing — variables shadow what is around them

A variable that a scope declares hides what its name stood for in the scopes around it, wherever the
scope reads the name from there on.  That the reads go to the variable's slot is settled by the order of
the text (`Threads.shadows`); that they yield its value is settled by the order in which the source
runs, for an activation keeps what has been written to a slot until something else is
(`Store.Holds.course`).  `variables_shadow` puts the two together.

The parameters of a scope are not around it: its own variables do not hide them.
-/

namespace HostScript

/-! ## Slots that keep their values -/

/-- What an activation holds in a slot. -/
def Store.Holds (s : Store) (id : FrameId) (index : Nat) (v : Value) : Prop :=
  ∃ frame, s.frames[id.index]? = some frame ∧ frame.slots[index]? = some v

/-- Whether a machine is about to write to a slot of an activation. -/
def Config.WritesTo (c : Config) (id : FrameId) (index : Nat) : Prop :=
  ∃ v inner slot, Machine.Writes c v inner slot ∧
    c.store.outer? inner slot.depth = some id ∧ slot.index = index

/-- A slot of an activation itself is in that activation. -/
theorem Store.Addressed.place_eq {s : Store} {id place : FrameId} {slot : SlotRef} {frame : Frame}
    (h : s.Addressed id slot place frame) (here : slot.depth = 0) : place = id := by
  have leads := h.leads
  rw [here] at leads
  exact (Option.some.inj leads).symm

namespace Store.Holds

variable {registry : Registry} {setting : Setting} {s t : Store} {c : Config} {id : FrameId}
  {index : Nat} {v : Value}

theorem kept (h : s.Holds id index v) (kept : s.KeepsFrames t) : t.Holds id index v := by
  obtain ⟨frame, found, held⟩ := h
  exact ⟨frame, kept _ _ found, held⟩

/-- Writing elsewhere changes nothing. -/
theorem written {inner place : FrameId} {slot : SlotRef} {frame : Frame} (h : s.Holds id index v)
    (addressed : s.Addressed inner slot place frame) (apart : place = id → slot.index ≠ index)
    (y : Value) : (s.writeSlot inner slot y).Holds id index v := by
  obtain ⟨own, found, held⟩ := h
  have frames := addressed.frames_writeSlot y id.index
  by_cases here : place.index = id.index
  · have same : place = id := congrArg FrameId.mk here
    obtain rfl := Option.some.inj (found.symm.trans (here ▸ addressed.found))
    rw [if_pos here] at frames
    exact ⟨_, frames, (Array.getElem?_setIfInBounds_ne (apart same)).trans held⟩
  · rw [if_neg here] at frames
    exact ⟨own, frames.trans found, held⟩

theorem step (h : c.store.Holds id index v) (sound : c.Sound) (unwritten : ¬c.WritesTo id index) :
    (Machine.step setting c).store.Holds id index v := by
  rcases (Machine.leads_step setting c).frames with ⟨y, inner, slot, writes, same⟩ | frames
  · obtain ⟨place, frame, addressed⟩ := writes.addressed sound
    have apart : place = id → slot.index ≠ index := by
      rintro rfl here
      exact unwritten ⟨y, inner, slot, writes, addressed.leads, here⟩
    exact (h.written addressed apart y).kept (.of_eq same)
  · exact h.kept frames

/-- **A slot holds its value** as long as the session goes on and nothing is written to the slot. -/
theorem course {start phase : Phase} {past : List Config}
    (course : Course (Over registry) start past phase)
    (first : start.Holds registry Store.Sound fun _ c => c.Sound) (h : start.store.Holds id index v)
    (unwritten : ∀ b ∈ past, ¬b.WritesTo id index) : phase.store.Holds id index v := by
  induction course with
  | start => exact h
  | @done _ setting s t request _ _ _ begins ih =>
    have leads := request.leads_begin setting s
    rw [begins] at leads
    exact (ih unwritten).kept leads.frames
  | @begun _ setting s request c _ _ begins ih =>
    have leads := request.leads_begin setting s
    rw [begins] at leads
    exact (ih unwritten).kept leads.frames
  | step before ih =>
    obtain ⟨here, earlier⟩ := List.forall_mem_cons.1 unwritten
    exact (ih earlier).step ((Invariant.sound registry).course before first).2 here
  | answered _ _ ih => exact ih unwritten

/-- A read of a slot of the activation itself yields what the slot holds. -/
theorem step_read {env : Env} {slot : SlotRef} (h : c.store.Holds env.frame slot.index v)
    (sound : c.Sound) (evaluated : c.control = .eval env (.read slot)) (here : slot.depth = 0) :
    Machine.step setting c = ⟨.value v, c.stack, c.store⟩ := by
  obtain ⟨own, found, held⟩ := h
  obtain ⟨place, store, within, allowed, -⟩ := sound
  rw [evaluated] at allowed
  obtain ⟨a, loop?, rfl, rfl, stands⟩ := allowed
  obtain ⟨there, frame, addressed⟩ := Activation.Sound.addressed within store stands rfl
  obtain rfl := addressed.place_eq here
  obtain rfl := Option.some.inj (found.symm.trans addressed.found)
  have read := Option.some.inj (addressed.readSlot.symm.trans held)
  obtain ⟨control, stack, s⟩ := c
  dsimp only at evaluated
  subst evaluated
  exact congrArg (fun x => Config.mk (.value x) stack s) read

end Store.Holds

/-- What is written to a slot of the activation itself is held there afterwards. -/
theorem Machine.Writes.holds {setting : Setting} {c : Config} {v : Value} {id : FrameId} {slot : SlotRef}
    (h : Writes c v id slot) (sound : c.Sound) (here : slot.depth = 0) :
    (Machine.step setting c).store.Holds id slot.index v := by
  obtain ⟨place, frame, addressed⟩ := h.addressed sound
  obtain rfl := addressed.place_eq here
  rw [h.step]
  refine ⟨_, (addressed.frames_writeSlot v place.index).trans (if_pos rfl), ?_⟩
  exact Array.getElem?_setIfInBounds_self_of_lt addressed.inside

/-- **A read after a write**: if nothing has been written to the slot of the activation in between,
wherever the session has come to, the read yields what was written. -/
theorem Machine.Writes.step_read {registry : Registry} {setting last : Setting} {c r : Config}
    {v : Value} {slot : SlotRef} {past : List Config} {env : Env} (h : Writes c v env.frame slot)
    (same : setting.registry = registry) (sound : c.Sound) (here : slot.depth = 0)
    (course : Course (Over registry) (.busy setting (Machine.step setting c)) past (.busy last r))
    (unwritten : ∀ b ∈ past, ¬b.WritesTo env.frame slot.index)
    (evaluated : r.control = .eval env (.read slot)) :
    Machine.step last r = ⟨.value v, r.stack, r.store⟩ := by
  have first : Phase.Holds registry Store.Sound (fun _ c => c.Sound)
      (.busy setting (Machine.step setting c)) :=
    ⟨same, (Invariant.sound registry).step setting c same sound⟩
  have held := Store.Holds.course course first (h.holds sound here) unwritten
  exact held.step_read ((Invariant.sound registry).course course first).2 evaluated here

/-! ## Shadowing -/

/-- **Variables shadow.**  Right after a name has been declared in a scope, whatever its kind and its
variables and whatever is around it, the name in any casing stands for the variable that has just been
declared; only the name of one of the scope's own parameters goes on standing for the parameter.

In every scope of every source that is launched, after a variable that has no parameter's name has been
given its first value, all that the scope reads by the name is the variable's slot in the activation
itself.  Wherever the session has come to since a value was written to the slot, if nothing has been
written to it in between, a read of it in the same activation yields that value. -/
theorem variables_shadow (registry : Registry) :
    (∀ (s : Scope) (outer : Scopes) (name written : String), Text.fold written = Text.fold name →
      (Scopes.declareLocal (s :: outer) name).2.find? written =
        some (match s.params.lookup (Text.fold name) with
          | none => (Scopes.declareLocal (s :: outer) name).1
          | some index => ⟨s.variableOf (Text.fold name), 0, index⟩)) ∧
    ∀ (l : Launch) (tree : Node) (setting : Setting) (c : Config), l.Begins registry tree c →
      Moment registry setting c →
        ∀ (k : Nat) (params : List String) (mentions : List Mention),
          (tree.strands.all [])[k]? = some (params, mentions) →
          ∃ touches, (l.program.code.strands.all ())[k]? = some ((), touches) ∧
            ∀ (i j : Nat) (x y : String), i < j → mentions[i]? = some (Mention.var x) →
              mentions[j]? = some (Mention.read y) →
              Text.fold y = Text.fold x → Text.fold x ∉ params.map Text.fold →
                ∃ slot : SlotRef, slot.depth = 0 ∧ slot.meant.name = Text.fold x ∧
                  touches[i]? = some (Touch.write slot) ∧ touches[j]? = some (Touch.read slot) ∧
                  ∀ past other d v env,
                    Course (Over registry) (.busy setting c) past (.busy other d) →
                    Machine.Writes d v env.frame slot →
                    ∀ more last r,
                      Course (Over registry) (.busy other (Machine.step other d)) more
                        (.busy last r) →
                      (∀ b ∈ more, ¬b.WritesTo env.frame slot.index) →
                      r.control = .eval env (.read slot) →
                        Machine.step last r = ⟨.value v, r.stack, r.store⟩ := by
  refine ⟨fun s outer name written same => ?_, ?_⟩
  · cases param : s.params.lookup (Text.fold name) with
    | none => exact (Scopes.NoParam.intro param).declareLocal.find? same
    | some index => exact Scopes.find?_declareLocal_of_param param same
  · intro l tree setting c begins moment k params mentions strand
    obtain ⟨source, compiled⟩ := begins.compiled
    obtain ⟨touches, code, s, outer, after, own, threads⟩ := exists_strand_compile compiled strand
    refine ⟨touches, code, fun i j x y before declared read again other => ?_⟩
    have free : Scopes.NoParam (Text.fold x) (s :: outer) :=
      .intro (own ▸ Scopes.lookup_paramSlots_eq_none other)
    obtain ⟨slot, here, name, written, reads⟩ := threads.shadows free before declared read rfl again
    refine ⟨slot, here, name, written, reads, fun past around d v env course writes => ?_⟩
    obtain ⟨same, sound⟩ : around.registry = registry ∧ d.Sound :=
      (Invariant.sound registry).course course
        ⟨moment.registry_eq, (Invariant.sound registry).moment moment⟩
    intro more last r further unwritten evaluated
    exact writes.step_read same sound here further unwritten evaluated

/-- What a machine is about to write, and where. -/
def Config.writes? (c : Config) : Option (Value × FrameId × SlotRef) :=
  match c.control, c.stack with
  | .value v, .write id slot :: _ => some (v, id, slot)
  | _, _ => none

theorem Config.writes?_eq_some_iff {c : Config} {v : Value} {id : FrameId} {slot : SlotRef} :
    c.writes? = some (v, id, slot) ↔ Machine.Writes c v id slot := by
  obtain ⟨control, stack, s⟩ := c
  constructor
  · intro h
    unfold writes? at h
    dsimp only at h
    split at h
    next =>
      obtain ⟨rfl, rfl, rfl⟩ := Option.some.inj h
      exact ⟨rfl, _, rfl⟩
    next => cases h
  · rintro ⟨rfl, rest, rfl⟩
    rfl

/-- The name of the variable that a machine is about to write, and the number that it writes. -/
def Config.gives? (c : Config) : Option (String × Option Int64) :=
  c.writes?.map fun w => (w.2.2.meant.name, w.1.number?)

/-- The name of the variable that a machine is about to read, and the number that it reads. -/
def Config.gets? (c : Config) : Option (String × Option Int64) :=
  c.reads?.map fun r => (r.2.meant.name, (c.store.readSlot r.1.frame r.2).number?)

/-- The strands of the code that a machine is about to evaluate. -/
def Config.strands? (c : Config) : List (Unit × List Touch) :=
  match c.control with
  | .eval _ code => code.strands.all ()
  | _ => []

/-- A variable of a loop, given a value and read, beside one of the same name around the loop. -/
theorem variables_shadow_loop :
    ∃ c d rest s, Config.ofSource "var x = 1; loop { var x = 2; break(x) }" 0 = some c ∧
      d = (Machine.step ⟨.initial, #[], .empty⟩)^[9] c ∧ d.gives? = some ("x", some 2) ∧
      (Machine.step ⟨.initial, #[], .empty⟩)^[4] d = ⟨.value (.int 2), rest, s⟩ := by
  have ends : (Config.ofSource "var x = 1; loop { var x = 2; break(x) }" 0).any fun c =>
      decide (c.strands?[1]? = some ((), [.write ⟨⟨⟨0, 0⟩, some ⟨0⟩, "x"⟩, 0, 1⟩,
          .read ⟨⟨⟨0, 0⟩, some ⟨0⟩, "x"⟩, 0, 1⟩]) ∧
        (((Machine.step ⟨.initial, #[], .empty⟩)^[9] c).writes?.map fun w => (w.1.number?, w.2)) =
          some (some 2, ⟨0⟩, ⟨⟨⟨0, 0⟩, some ⟨0⟩, "x"⟩, 0, 1⟩) ∧
        (Machine.trace ⟨.initial, #[], .empty⟩ (Machine.step ⟨.initial, #[], .empty⟩
          ((Machine.step ⟨.initial, #[], .empty⟩)^[9] c)) 2).all (·.writes?.isNone) = true ∧
        ((Machine.step ⟨.initial, #[], .empty⟩)^[2] (Machine.step ⟨.initial, #[], .empty⟩
          ((Machine.step ⟨.initial, #[], .empty⟩)^[9] c))).reads? =
            some (⟨⟨0⟩, ⟨1⟩, ⟨0⟩⟩, ⟨⟨⟨0, 0⟩, some ⟨0⟩, "x"⟩, 0, 1⟩)) := by decide +kernel
  have strand : ((parse "var x = 1; loop { var x = 2; break(x) }").toOption.any fun tree =>
      decide ((tree.strands.all [])[1]? = some ([], [.var "x", .read "x"]))) = true := by
    decide +kernel
  obtain ⟨c, starts, checked⟩ := (Option.any_eq_true _ _).1 ends
  obtain ⟨known, giving, silent, reading⟩ := of_decide_eq_true checked
  obtain ⟨⟨v, place⟩, found, same⟩ := Option.map_eq_some_iff.1 giving
  obtain ⟨number, rfl⟩ := Prod.mk.inj same
  obtain rfl := Value.eq_of_number? number
  obtain ⟨s, reached, begins⟩ := Config.begin_of_ofSource starts
  obtain ⟨l, tree, -, -, parsed, launched⟩ := Launch.begins_source reached begins
  have code : c.strands? = l.program.code.strands.all () := by
    unfold Config.strands?
    rw [launched.state.1]
  rw [parsed] at strand
  obtain ⟨-, launches⟩ := variables_shadow .initial
  obtain ⟨touches, compiled, shadows⟩ :=
    launches l tree _ c launched (.begun reached rfl begins) 1 [] _ (of_decide_eq_true strand)
  rw [← code, known] at compiled
  obtain rfl := (Prod.mk.inj (Option.some.inj compiled)).2
  obtain ⟨slot, -, -, written, -, holds⟩ :=
    shadows 0 1 "x" "x" Nat.one_pos rfl rfl rfl List.not_mem_nil
  obtain rfl := Touch.write.inj (Option.some.inj written)
  have read := holds _ _ _ (.int 2) ⟨⟨0⟩, ⟨1⟩, ⟨0⟩⟩ (Course.start.trace 9)
    (Config.writes?_eq_some_iff.1 found) _ _ _ (Course.start.trace 2) ?_
    (Config.control_of_reads? reading)
  · have last := congrArg (Machine.step ⟨.initial, #[], .empty⟩) (Function.iterate_succ_apply
      (Machine.step ⟨.initial, #[], .empty⟩) 2 ((Machine.step ⟨.initial, #[], .empty⟩)^[9] c))
    refine ⟨c, _, _, _, starts, rfl, ?_,
      (Function.iterate_succ_apply' _ 3 _).trans (last.trans read)⟩
    unfold Config.gives?
    rw [found]
    rfl
  · rintro b mem ⟨v, inner, slot, writes, -⟩
    rw [List.append_nil] at mem
    have none := List.all_eq_true.1 silent b mem
    rw [Config.writes?_eq_some_iff.2 writes] at none
    cases none

/-- Whether a source, after some steps, gives a variable of a name a number, gives no variable of the
name anything in the steps after that, and then reads by the name something else. -/
def misreads (text name : String) (first between : Nat) (given : Int64) : Bool :=
  (Config.ofSource text first).any fun c =>
    let d := Machine.step ⟨.initial, #[], .empty⟩ c
    c.gives? = some (name, some given) &&
      (Machine.trace ⟨.initial, #[], .empty⟩ d between).all (fun b => b.gives?.all (·.1 ≠ name)) &&
      ((Machine.step ⟨.initial, #[], .empty⟩)^[between] d).gets?.any fun r =>
        r.1 = name ∧ r.2 ≠ some given

/-- **Variables do not shadow everything.**  A scope's own parameters stay visible; what a loop reads
before a variable, in the order of the text, it reads from around the loop also when it comes round again;
and another activation of the same function has a variable of its own. -/
theorem parameters_stay_visible :
    (Scopes.declareLocal [.function ⟨0, 1⟩ ["x"], .module ⟨0, 0⟩] "x").2.find? "x" ≠
        some (Scopes.declareLocal [.function ⟨0, 1⟩ ["x"], .module ⟨0, 0⟩] "x").1 ∧
      misreads "function f(x) { var x = 5; x } f(1)" "x" 17 1 5 ∧
      misreads "var x = 1; var n = 0; loop { if (n == 1) then break(x) end; var x = 5; n = 1 }" "x"
        27 17 5 ∧
      misreads "function f(n) { if (n == 0) then var x = 5; f(1) else x end } f(0)" "x" 26 16 5 := by
  decide +kernel

end HostScript
