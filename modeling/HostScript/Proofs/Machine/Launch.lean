import HostScript.Proofs.Machine.Addressing
import HostScript.Proofs.Machine.Course

/-!
# Proofs/Machine/Launch — the module of a source that runs

A source that is launched runs in an activation of its own, the newest one, and in a module.  Wherever
its code is evaluated later on, in the module itself or in functions it has made, it is evaluated in that
module: `Launch.Keeps` says so of a state and is kept all along a course.
-/

namespace HostScript

/-! ## Environments -/

/-- **Environments that are told apart by their activations**, which are there. -/
structure Config.Housed (c : Config) : Prop where
  there : ∀ env ∈ c.envs, env.frame.index < c.store.frames.size
  one : ∀ env ∈ c.envs, ∀ other ∈ c.envs, env.frame = other.frame → env = other

namespace Store

variable {s t : Store}

theorem KeepsFrames.size_le (h : s.KeepsFrames t) : s.frames.size ≤ t.frames.size := by
  by_contra less
  have inside : t.frames.size < s.frames.size := Nat.lt_of_not_le less
  have found := h t.frames.size _ (Array.getElem?_eq_getElem inside)
  exact absurd (Array.getElem?_eq_some_iff.1 found).1 (Nat.lt_irrefl _)

theorem size_writeSlot (s : Store) (id : FrameId) (slot : SlotRef) (v : Value) :
    (s.writeSlot id slot v).frames.size = s.frames.size := by
  unfold writeSlot
  split
  · exact Array.size_modify
  · rfl

end Store

namespace Machine

variable {setting : Setting} {c d : Config}

theorem Leads.size_le (h : Leads setting c d) : c.store.frames.size ≤ d.store.frames.size := by
  rcases h.frames with ⟨v, id, slot, -, same⟩ | kept
  · exact Nat.le_of_eq (same ▸ (c.store.size_writeSlot id slot v).symm)
  · exact kept.size_le

theorem Leads.housed (h : Leads setting c d) (housed : c.Housed) : d.Housed := by
  have apart {old new : Env} (before : old ∈ c.envs) (fresh : new.frame = ⟨c.store.frames.size⟩)
      (same : old.frame = new.frame) : False := by
    have inside := housed.there old before
    rw [same, fresh] at inside
    exact Nat.lt_irrefl _ inside
  refine ⟨fun env mem => ?_, fun env mem other also same => ?_⟩
  · rcases h.envs env mem with before | ⟨-, fresh, larger⟩
    · exact Nat.lt_of_lt_of_le (housed.there env before) h.size_le
    · rw [fresh]
      exact larger
  · rcases h.envs env mem with before | ⟨here, fresh, -⟩
    · rcases h.envs other also with earlier | ⟨-, new, -⟩
      · exact housed.one env before other earlier same
      · exact (apart before new same).elim
    · rcases h.envs other also with earlier | ⟨there, -, -⟩
      · exact (apart earlier fresh same.symm).elim
      · exact Option.some.inj (here.symm.trans there)

end Machine

/-- **Environments are told apart by their activations** throughout sessions. -/
theorem Invariant.housed (registry : Registry) :
    Invariant registry (fun _ => True) fun _ c => c.Housed where
  start := trivial
  begun setting s request := by
    intro _ _
    have leads := request.leads_begin setting s
    cases found : request.begin setting s with
    | done answer after => trivial
    | running c =>
      have envs := leads.envs c found
      refine ⟨fun env mem => ?_, fun env mem other also _ => ?_⟩
      · obtain ⟨-, fresh, larger⟩ := envs env mem
        rw [fresh]
        exact larger
      · exact Option.some.inj ((envs env mem).1.symm.trans (envs other also).1)
  step setting c _ housed := (Machine.leads_step setting c).housed housed
  finish _ _ _ _ _ := trivial

/-! ## Launches -/

/-- What a source is launched as: the place of its activation, by which its variables are known too, its
module, its runtime, and its program. -/
structure Launch where
  number : Nat
  module : NamespaceId
  runtime : RuntimeId
  program : Program

namespace Launch

/-- Where the program runs. -/
def env (l : Launch) : Env := ⟨⟨l.number⟩, l.module, l.runtime⟩

/-- The module's variable of a folded name. -/
def moduleVariable (l : Launch) (key : String) : Variable := ⟨⟨l.number, 0⟩, none, key⟩

/-- **A state in which a source with this tree has just been launched**: the source has been prepared
among the activations and functions of a session, and its program is about to run. -/
def Begins (registry : Registry) (l : Launch) (tree : Node) (c : Config) : Prop :=
  ∃ (o s t : Store) (text : String),
    (Reached registry o ∨ ∃ setting d, Moment registry setting d ∧ d.store = o) ∧ o.SameCode s ∧
      parse text = .ok tree ∧ s.prepare l.runtime text = (.ok l.program, t) ∧
      l.number = s.frames.size ∧ (c.control, c.store) = t.startProgram l.runtime l.module l.program

/-- **What is kept of a launch in a store**: functions of its source work in its module. -/
def Owns (l : Launch) (s : Store) : Prop :=
  ∀ id template frame module rt, s.function? id = some (.script template frame module rt) →
    template.layout.owner.source = l.number → module = l.module ∧ rt = l.runtime

/-- What is kept of a launch in a phase of a session: no other environment has its activation. -/
def Keeps (l : Launch) : Phase → Prop
  | .idle s => l.number < s.frames.size ∧ l.Owns s
  | .busy _ c => l.number < c.store.frames.size ∧ l.Owns c.store ∧
      ∀ env ∈ c.envs, env.frame = ⟨l.number⟩ → env = l.env

end Launch

/-- Sources are known by the places of their modules' activations, which are there. -/
theorem Store.Chain.source_lt {s : Store} (sound : s.Sound) {id : FrameId} {chain : List Layout}
    (h : s.Chain id chain) : ∀ layout ∈ chain, layout.owner.source < s.frames.size := by
  induction h with
  | @last id frame found alone =>
    intro layout mem
    obtain rfl := List.mem_singleton.1 mem
    rw [(sound.frames _ _ found).module alone]
    exact (Array.getElem?_eq_some_iff.1 found).1
  | @inner id outer frame rest found linked around ih =>
    intro layout mem
    rcases List.mem_cons.1 mem with rfl | mem
    · obtain ⟨-, other, there, same⟩ := (sound.frames _ _ found).inner outer linked
      obtain ⟨first, others, rfl⟩ := around.ne_nil
      obtain ⟨again, place, rfl⟩ := around.head
      obtain rfl := Option.some.inj (there.symm.trans place)
      rw [← same]
      exact ih _ List.mem_cons_self
    · exact ih layout mem

namespace Launch

variable {registry : Registry} {l : Launch} {tree : Node} {c : Config} {setting : Setting}

/-- A launch begins in its environment, and its activation is the newest one. -/
theorem Begins.state (h : l.Begins registry tree c) : c.control = .eval l.env l.program.code ∧
    c.store.frames.size = l.number + 1 ∧ c.store.frames[l.number]? = some ⟨l.program.layout,
      (List.replicate l.program.layout.slots.length Value.null).toArray, none⟩ := by
  obtain ⟨o, s, t, text, -, -, -, prepared, number, starts⟩ := h
  obtain ⟨same, -⟩ := Store.prepare_eq prepared
  obtain ⟨control, store⟩ := Prod.mk.inj starts
  have place : t.frames.size = l.number := (congrArg Array.size same.frames).trans number.symm
  refine ⟨?_, ?_, ?_⟩
  · rw [control]
    exact congrArg (fun n => Control.eval ⟨⟨n⟩, l.module, l.runtime⟩ l.program.code) place
  · rw [store]
    exact (Array.size_push _).trans (congrArg (· + 1) place)
  · rw [store, ← place]
    exact Array.getElem?_push_size

/-- The program of a launch has been compiled from its tree. -/
theorem Begins.compiled (h : l.Begins registry tree c) :
    ∃ source, (compile l.number source tree).1 = .ok l.program := by
  obtain ⟨o, s, t, text, -, -, parsed, prepared, number, -⟩ := h
  obtain ⟨_, same, compiled⟩ := Store.compiled_of_prepare prepared
  obtain rfl := Except.ok.inj (parsed.symm.trans same)
  exact ⟨text.toList, number ▸ compiled⟩

/-- No function of the source has been made before. -/
theorem Begins.owns (h : l.Begins registry tree c) : l.Owns c.store := by
  obtain ⟨o, s, t, text, occurs, code, -, prepared, number, starts⟩ := h
  have sound : o.Sound := by
    rcases occurs with reached | ⟨setting, d, moment, rfl⟩
    · exact (Invariant.sound registry).reached reached
    · obtain ⟨place, sound⟩ := (Invariant.sound registry).moment moment
      exact sound.store
  obtain ⟨same, -⟩ := Store.prepare_eq prepared
  obtain ⟨-, store⟩ := Prod.mk.inj starts
  intro id template frame module rt found source
  have before : o.function? id = some (.script template frame module rt) := by
    have functions : c.store.functions = o.functions :=
      (congrArg Store.functions store).trans (same.functions.trans code.functions)
    exact (Store.function?_congr functions _).symm.trans found
  obtain ⟨chain, linked, fits⟩ := sound.functions _ _ before
  cases fits with
  | closure _ equal _ =>
    obtain ⟨first, rest, rfl⟩ := linked.ne_nil
    have inside := linked.source_lt sound first List.mem_cons_self
    rw [equal first List.mem_cons_self, source, number, code.frames] at inside
    exact absurd inside (Nat.lt_irrefl _)

/-- **What is kept of a launch** is so when it begins. -/
theorem Begins.keeps (h : l.Begins registry tree c) (moment : Moment registry setting c) :
    l.Keeps (.busy setting c) := by
  obtain ⟨control, size, -⟩ := h.state
  refine ⟨by omega, h.owns, fun env mem same => ?_⟩
  have own : l.env ∈ c.envs := by
    unfold Config.envs
    rw [control]
    exact List.mem_append_left _ List.mem_cons_self
  exact ((Invariant.housed registry).moment moment).one env mem l.env own same

/-- **An activation of a launch is in the module of the launch.** -/
theorem Keeps.home (h : l.Keeps (.busy setting c)) {a : Activation} {frame : Frame}
    (among : a.env ∈ c.envs) (runs : a.IsCall c.store ∨ a.IsModule c.store)
    (found : c.store.frames[a.env.frame.index]? = some frame)
    (source : frame.layout.owner.source = l.number) :
    a.env.module = l.module ∧ a.env.runtime = l.runtime := by
  obtain ⟨-, owns, envs⟩ := h
  rcases runs with ⟨id, outer, own, called⟩ | ⟨program, own, loaded⟩
  · obtain rfl := Option.some.inj (found.symm.trans called.found)
    exact owns _ _ _ _ _ called.function (called.layout ▸ source)
  · obtain rfl := Option.some.inj (found.symm.trans loaded.found)
    rw [loaded.layout, loaded.sound.owner] at source
    have same : a.env = l.env := envs a.env among (congrArg FrameId.mk source)
    rw [same]
    exact ⟨rfl, rfl⟩

theorem Keeps.step (h : l.Keeps (.busy setting c)) (sound : c.Sound) :
    l.Keeps (.busy setting (Machine.step setting c)) := by
  have leads := Machine.leads_step setting c
  refine ⟨Nat.lt_of_lt_of_le h.1 leads.size_le, ?_, fun env mem same => ?_⟩
  · intro id template frame module rt found source
    rcases leads.functions _ _ found with before | ⟨env, made, evaluated, is_made⟩
    · exact h.2.1 _ _ _ _ _ before source
    · cases is_made
      have there := sound
      obtain ⟨place, store, within, allowed, waits⟩ := there
      rw [evaluated] at allowed
      obtain ⟨a, loop?, inside, rfl, stands⟩ := allowed
      subst inside
      obtain ⟨chain, linked, fits⟩ := Activation.Sound.fits within stands
      cases fits with
      | closure _ equal _ =>
        obtain ⟨first, rest, rfl⟩ := linked.ne_nil
        obtain ⟨around, found, rfl⟩ := linked.head
        have among : a.env ∈ c.envs := by
          unfold Config.envs
          rw [evaluated]
          exact List.mem_append_left _ List.mem_cons_self
        exact h.home among (waits.isCall_or_isModule rfl) found
          ((equal _ List.mem_cons_self).trans source)
  · rcases leads.envs env mem with before | ⟨-, fresh, -⟩
    · exact h.2.2 env before same
    · have size : c.store.frames.size = l.number := congrArg FrameId.index (fresh.symm.trans same)
      exact absurd h.1 (size ▸ Nat.lt_irrefl _)

theorem Keeps.begin {s : Store} (h : l.Keeps (.idle s)) (request : Request) :
    (∀ answer t, request.begin setting s = .done answer t → l.Keeps (.idle t)) ∧
      ∀ c, request.begin setting s = .running c → l.Keeps (.busy setting c) := by
  have leads := request.leads_begin setting s
  have larger := leads.frames.size_le
  have owns : l.Owns (request.begin setting s).store := by
    intro id template frame module rt found source
    rcases leads.functions _ _ found with before | ⟨name, arity, index, never⟩
    · exact h.2 _ _ _ _ _ before source
    · cases never
  refine ⟨fun answer t begins => ?_, fun c begins => ?_⟩
  · rw [begins] at larger owns
    exact ⟨Nat.lt_of_lt_of_le h.1 larger, owns⟩
  · have envs := leads.envs c begins
    rw [begins] at larger owns
    refine ⟨Nat.lt_of_lt_of_le h.1 larger, owns, fun env mem same => ?_⟩
    have size : s.frames.size = l.number :=
      congrArg FrameId.index ((envs env mem).2.1.symm.trans same)
    exact absurd h.1 (size ▸ Nat.lt_irrefl _)

/-- **What is kept of a launch is kept all along** what follows. -/
theorem Begins.course (h : l.Begins registry tree c) (moment : Moment registry setting c)
    {past : List Config} {phase : Phase} (course : Course (Over registry) (.busy setting c) past phase) :
    l.Keeps phase := by
  induction course with
  | start => exact h.keeps moment
  | done _ _ begins ih => exact (ih.begin _).1 _ _ begins
  | begun _ _ begins ih => exact (ih.begin _).2 _ begins
  | step before ih =>
    have first : Phase.Holds registry Store.Sound (fun _ c => c.Sound) (.busy setting c) :=
      ⟨moment.registry_eq, (Invariant.sound registry).moment moment⟩
    exact ih.step ((Invariant.sound registry).course before first).2
  | answered _ _ ih => exact ⟨ih.1, ih.2.1⟩

end Launch

end HostScript
