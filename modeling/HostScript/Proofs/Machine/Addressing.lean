import HostScript.Proofs.Machine.Sound

/-!
# Proofs/Machine/Addressing — variables are where the compiler says

`slots_addressed` puts together what is known of slots.  Compiling gives a name the slot of the
variable that the innermost scope around declares; running follows the slot to an activation of that
variable's owner, and finds the variable there.  So no read falls back on null, no write is lost, and
no two variables are kept in one place.
-/

namespace HostScript

/-- The slot that a code reads or writes. -/
def Code.slot? : Code → Option SlotRef
  | read slot | write slot _ => some slot
  | _ => none

theorem Code.Fits.reaches {Γ : Code.Context} {code : Code} {slot : SlotRef} (h : code.Fits Γ)
    (known : code.slot? = some slot) : slot.Reaches Γ.chain := by
  cases h with
  | read reaches =>
    obtain rfl := Option.some.inj known
    exact reaches
  | write reaches _ =>
    obtain rfl := Option.some.inj known
    exact reaches
  | _ => cases known

/-- What stands in the body of an activation leads to slots that are there. -/
theorem Activation.Sound.addressed {s : Store} {a : Activation} {l : Option (Label × Code)}
    {code : Code} {slot : SlotRef} (h : a.Sound s) (store : s.Sound)
    (stands : a.template.body.Stands l code) (known : code.slot? = some slot) :
    ∃ place frame, s.Addressed a.env.frame slot place frame := by
  obtain ⟨chain, linked, fits⟩ := h.fits stands
  exact store.addressed linked (fits.reaches known)

/-- The activation that a machine is in is one of a function or of a module. -/
theorem Waits.isCall_or_isModule {s : Store} {place : Standpoint} {stack : List Pending}
    (h : Waits s place stack) {a : Activation} {l : Option (Label × Code)}
    (inside : place = .inside a l) : a.IsCall s ∨ a.IsModule s := by
  induction h generalizing l with
  | bottom alone =>
    subst inside
    exact .inr alone.2
  | load alone _ _ _ =>
    subst inside
    exact .inr alone.2
  | call called _ _ _ =>
    cases inside
    exact .inl called
  | bind _ ih => exact ih inside
  | locate _ ih => exact ih inside
  | operands _ _ ih => exact ih inside
  | write _ _ ih => exact ih inside
  | test _ _ ih => exact ih inside
  | sequence _ _ ih => exact ih inside
  | loop _ _ ih =>
    cases inside
    exact ih rfl
  | leave _ _ ih => exact ih inside
  | give _ _ _ ih => exact ih inside

/-- **Variables are where the compiler says.**  A name stands for the variable of the innermost scope
around that declares it, and a declaration for the variable of its own scope; the owners and loops of a
program, by which variables are known besides their names, are told apart.  At every moment of a
machine:

* every activation has a slot for each of its variables, and is one of the module of its source just
  if there is none around it;
* code is evaluated in an activation of the definition whose body it stands in, which is a function
  made in the activation around or the program of a module;
* a slot that this code reads or writes is there, in an activation of the owner of the variable that is
  meant, as many links further out as the slot says;
* a read yields what that activation keeps in the slot;
* a write changes what is read from there and nothing that is kept for another variable;
* and slots that lead to one place mean one variable. -/
theorem slots_addressed (registry : Registry) :
    (∀ scopes name slot, Scopes.find? scopes name = some slot →
      Scopes.Resolves scopes (Text.fold name) slot) ∧
    (∀ s outer name,
      (Scopes.declareLocal (s :: outer) name).1.meant = s.variableOf (Text.fold name)) ∧
    (∀ scopes s name,
      (Scopes.declareGlobal (scopes ++ [s]) name).1.meant = s.variableOf (Text.fold name)) ∧
    (∀ number source tree program, (compile number source tree).1 = .ok program →
      program.Sound number) ∧
    ∀ (setting : Setting) (c : Config), Moment registry setting c →
      (∀ i frame, c.store.frames[i]? = some frame → c.store.Placed i frame) ∧
      (∀ env code, c.control = .eval env code → ∃ (a : Activation) (l : _), a.env = env ∧
        a.template.body.Stands l code ∧ (a.IsCall c.store ∨ a.IsModule c.store)) ∧
      (∀ env code slot, c.control = .eval env code → code.slot? = some slot →
        ∃ place frame, c.store.Addressed env.frame slot place frame ∧
          frame.slots[slot.index]? = some (c.store.readSlot env.frame slot)) ∧
      (∀ v id slot rest, c.control = .value v → c.stack = .write id slot :: rest →
        (∃ place frame, c.store.Addressed id slot place frame) ∧
        (c.store.writeSlot id slot v).readSlot id slot = v ∧
        ∀ id' slot' place' frame', c.store.Addressed id' slot' place' frame' →
          slot.meant ≠ slot'.meant →
            (c.store.writeSlot id slot v).readSlot id' slot' = c.store.readSlot id' slot') ∧
      ∀ id slot id' slot' place frame, c.store.Addressed id slot place frame →
        c.store.Addressed id' slot' place frame → slot.index = slot'.index →
          slot.meant = slot'.meant := by
  refine ⟨fun _ _ _ => Scopes.resolves_of_findKey?, Scopes.meant_declareLocal,
    Scopes.meant_declareGlobal, fun _ _ _ _ => sound_compile, ?_⟩
  intro setting c moment
  obtain ⟨place, store, within, allowed, waits⟩ := (Invariant.sound registry).moment moment
  refine ⟨store.frames, ?_, ?_, ?_, ?_⟩
  · intro env code evaluated
    rw [evaluated] at allowed
    obtain ⟨a, l, inside, rfl, stands⟩ := allowed
    exact ⟨a, l, rfl, stands, waits.isCall_or_isModule inside⟩
  · intro env code slot evaluated known
    rw [evaluated] at allowed
    obtain ⟨a, l, rfl, rfl, stands⟩ := allowed
    obtain ⟨there, frame, addressed⟩ := Activation.Sound.addressed within store stands known
    exact ⟨there, frame, addressed, addressed.readSlot⟩
  · intro v id slot rest _ pending
    rw [pending] at waits
    cases waits with
    | write stands _ =>
      obtain ⟨there, frame, addressed⟩ := Activation.Sound.addressed within store stands rfl
      refine ⟨⟨there, frame, addressed⟩, addressed.readSlot_writeSlot v, ?_⟩
      intro id' slot' place' frame' other differs
      exact addressed.readSlot_writeSlot_of_ne other differs v
  · intro id slot id' slot' there frame first second same
    exact first.meant_eq second same

/-- The activation and the slot that a value is about to be written to. -/
def Config.written? (c : Config) : Option (FrameId × SlotRef) :=
  match c.control, c.stack with
  | .value _, .write id slot :: _ => some (id, slot)
  | _, _ => none

/-- A lambda that adds to a variable of the module around it, about to write the sum. -/
theorem slots_addressed_lambda :
    ∃ c v id slot rest,
      Config.ofSource "var total = 3; var bump = lambda (n) { total = total + n }; bump(4)" 24 =
        some c ∧
      c.control = .value v ∧ c.stack = .write id slot :: rest ∧
      id = ⟨1⟩ ∧ slot = ⟨⟨⟨0, 0⟩, none, "total"⟩, 1, 0⟩ ∧
      (∃ place frame, c.store.Addressed id slot place frame) ∧
      (c.store.writeSlot id slot v).readSlot id slot = v := by
  have ends : (Config.ofSource
      "var total = 3; var bump = lambda (n) { total = total + n }; bump(4)" 24).bind
        Config.written? = some (⟨1⟩, ⟨⟨⟨0, 0⟩, none, "total"⟩, 1, 0⟩) := by decide +kernel
  obtain ⟨c, reached, writes⟩ := Option.bind_eq_some_iff.1 ends
  obtain ⟨-, -, -, -, moments⟩ := slots_addressed .initial
  obtain ⟨-, -, -, writing, -⟩ := moments _ c (Config.moment_ofSource reached)
  obtain ⟨control, stack, s⟩ := c
  unfold Config.written? at writes
  dsimp only at writes
  split at writes
  next v id slot rest =>
    obtain ⟨rfl, rfl⟩ := Prod.mk.inj (Option.some.inj writes)
    obtain ⟨there, kept, -⟩ := writing v _ _ rest rfl rfl
    exact ⟨_, v, _, _, rest, reached, rfl, rfl, rfl, rfl, there, kept⟩
  next => cases writes

end HostScript
