import HostScript.Proofs.Machine.Frames
import HostScript.Session

/-!
# Proofs/Machine/Stack — what waits on the stack of a machine

The code that a machine evaluates stands in the body of a definition, perhaps inside loops of it, and
runs in an activation of that definition.  `Waits` reads the stack from there outwards: first what
waits inside the innermost loop, then the loop, and so on to the call of the function or to the load
or start of the module, where it goes on with the place that the call or load was made from.
-/

namespace HostScript

/-! ## Standing in a body -/

/-- **Where code stands in a body**: the code itself, and the label and body of the innermost loop of
the body around it.  What is inside a function stands in the function's own body. -/
inductive Code.Stands (body : Code) : Option (Label × Code) → Code → Prop where
  | whole : Stands body none body
  | write {l : Option (Label × Code)} {slot : SlotRef} {value : Code} :
    Stands body l (.write slot value) → Stands body l value
  | operand {l : Option (Label × Code)} {position : Position} {signature : Signature}
    {operands : List Code} {code : Code} :
    Stands body l (.dispatch position signature operands) → code ∈ operands → Stands body l code
  | test {l : Option (Label × Code)} {branches : List (Code × Code)} {branch : Code × Code}
    {otherwise : Code} :
    Stands body l (.choose branches otherwise) → branch ∈ branches → Stands body l branch.1
  | branch {l : Option (Label × Code)} {branches : List (Code × Code)} {branch : Code × Code}
    {otherwise : Code} :
    Stands body l (.choose branches otherwise) → branch ∈ branches → Stands body l branch.2
  | otherwise {l : Option (Label × Code)} {branches : List (Code × Code)} {otherwise : Code} :
    Stands body l (.choose branches otherwise) → Stands body l otherwise
  /-- What is left of a choice when its first test does not hold. -/
  | rest {l : Option (Label × Code)} {first : Code × Code} {rest : List (Code × Code)}
    {otherwise : Code} :
    Stands body l (.choose (first :: rest) otherwise) → Stands body l (.choose rest otherwise)
  | loop {l : Option (Label × Code)} {label : Label} {inner : Code} :
    Stands body l (.loop label inner) → Stands body (some (label, inner)) inner
  | leave {l : Option (Label × Code)} {label : Label} {value : Code} :
    Stands body l (.leave label value) → Stands body l value
  | give {l : Option (Label × Code)} {label : Label} {value : Code} :
    Stands body l (.give label value) → Stands body l value
  | sequence {l : Option (Label × Code)} {codes : List Code} {code : Code} :
    Stands body l (.sequence codes) → code ∈ codes → Stands body l code

namespace Code.Stands

variable {body code inner : Code} {l : Option (Label × Code)} {label : Label}

/-- Code that stands in a body fits there if the body does. -/
theorem fits {chain : List Layout} {return? : Option Label} (h : body.Stands l code)
    (whole : body.Fits ⟨chain, none, return?⟩) : code.Fits ⟨chain, l.map (·.1), return?⟩ := by
  induction h with
  | whole => exact whole
  | write _ ih =>
    cases ih with
    | write _ value => exact value
  | operand _ mem ih =>
    cases ih with
    | dispatch operands => exact operands _ mem
  | test _ mem ih =>
    cases ih with
    | choose tests _ _ => exact tests _ mem
  | branch _ mem ih =>
    cases ih with
    | choose _ bodies _ => exact bodies _ mem
  | otherwise _ ih =>
    cases ih with
    | choose _ _ last => exact last
  | rest _ ih =>
    cases ih with
    | choose tests bodies last =>
      exact .choose (fun branch mem => tests branch (List.mem_cons_of_mem _ mem))
        (fun branch mem => bodies branch (List.mem_cons_of_mem _ mem)) last
  | loop _ ih =>
    cases ih with
    | loop inner => exact inner
  | leave _ ih =>
    cases ih with
    | leave _ value => exact value
  | give _ ih =>
    cases ih with
    | give _ value => exact value
  | sequence _ mem ih =>
    cases ih with
    | sequence codes => exact codes _ mem

/-- **What stands inside a loop stands in the loop's body**, with no other loop in between. -/
theorem in_loop (h : body.Stands (some (label, inner)) code) : inner.Stands none code := by
  generalize at_loop : some (label, inner) = l at h
  induction h with
  | whole => cases at_loop
  | write _ ih => exact (ih at_loop).write
  | operand _ mem ih => exact (ih at_loop).operand mem
  | test _ mem ih => exact (ih at_loop).test mem
  | branch _ mem ih => exact (ih at_loop).branch mem
  | otherwise _ ih => exact (ih at_loop).otherwise
  | rest _ ih => exact (ih at_loop).rest
  | loop _ _ =>
    cases at_loop
    exact .whole
  | leave _ ih => exact (ih at_loop).leave
  | give _ ih => exact (ih at_loop).give
  | sequence _ mem ih => exact (ih at_loop).sequence mem

end Code.Stands

/-! ## Activations and places -/

/-- A program as a definition: nothing is passed to it, and nothing returns from it. -/
def Program.template (program : Program) : Template Code :=
  ⟨"", 0, program.layout, none, program.code⟩

/-- An activation of a definition, and the environment that the definition's body runs in. -/
structure Activation where
  env : Env
  template : Template Code

namespace Activation

variable {a : Activation} {s t : Store}

/-- **A sound activation**: it has the layout of its definition, and the body of the definition fits
the activations around. -/
def Sound (s : Store) (a : Activation) : Prop :=
  ∃ outer, s.Chain a.env.frame (a.template.layout :: outer) ∧
    a.template.body.Fits ⟨a.template.layout :: outer, none, a.template.returnLabel?⟩

theorem Sound.extend (h : a.Sound s) (k : s.Extends t) : a.Sound t := by
  obtain ⟨outer, linked, fits⟩ := h
  exact ⟨outer, linked.extend k, fits⟩

/-- What stands in the body leads along the activations around. -/
theorem Sound.fits {l : Option (Label × Code)} {code : Code} (h : a.Sound s)
    (stands : a.template.body.Stands l code) :
    ∃ chain, s.Chain a.env.frame chain ∧
      code.Fits ⟨chain, l.map (·.1), a.template.returnLabel?⟩ := by
  obtain ⟨outer, linked, fits⟩ := h
  exact ⟨_, linked, stands.fits fits⟩

/-- An activation of a function: of one made from the definition, inside the activation that the
function was made in. -/
structure Called (s : Store) (a : Activation) (id : FunctionId) (outer : FrameId) (frame : Frame) :
    Prop where
  function : s.function? id = some (.script a.template outer a.env.module a.env.runtime)
  found : s.frames[a.env.frame.index]? = some frame
  layout : frame.layout = a.template.layout
  parent : frame.parent? = some outer

/-- An activation of a module: it is around all others of its source, and runs a program that was made
for its place. -/
structure Loaded (s : Store) (a : Activation) (program : Program) (frame : Frame) : Prop where
  template : a.template = program.template
  sound : program.Sound a.env.frame.index
  found : s.frames[a.env.frame.index]? = some frame
  layout : frame.layout = program.layout
  alone : frame.parent? = none

/-- Whether an activation is one of a function. -/
def IsCall (s : Store) (a : Activation) : Prop := ∃ id outer frame, a.Called s id outer frame

/-- Whether an activation is one of a module. -/
def IsModule (s : Store) (a : Activation) : Prop := ∃ program frame, a.Loaded s program frame

theorem IsCall.extend (h : a.IsCall s) (k : s.Extends t) : a.IsCall t := by
  obtain ⟨id, outer, frame, called⟩ := h
  obtain ⟨later, found, same⟩ := k.frames _ _ called.found
  exact ⟨id, outer, later, k.functions _ _ called.function, found, same.layout.trans called.layout,
    same.parent?.trans called.parent⟩

theorem IsModule.extend (h : a.IsModule s) (k : s.Extends t) : a.IsModule t := by
  obtain ⟨program, frame, loaded⟩ := h
  obtain ⟨later, found, same⟩ := k.frames _ _ loaded.found
  exact ⟨program, later, loaded.template, loaded.sound, found, same.layout.trans loaded.layout,
    same.parent?.trans loaded.alone⟩

/-- Nothing returns from a module. -/
theorem IsModule.returnLabel? (h : a.IsModule s) : a.template.returnLabel? = none := by
  obtain ⟨program, _, loaded⟩ := h
  rw [loaded.template]
  rfl

end Activation

/-- **Where a machine is**: in the host, or in an activation of a script inside a loop or none. -/
inductive Standpoint where
  | host
  | inside (a : Activation) (loop? : Option (Label × Code))

/-- A place in a sound activation. -/
def Standpoint.Sound (s : Store) : Standpoint → Prop
  | host => True
  | inside a _ => a.Sound s

/-- Whether nothing can be left or returned from in a place: in the host, or in a module outside all of
its loops. -/
def Standpoint.Outermost (s : Store) : Standpoint → Prop
  | host => True
  | inside a l => l = none ∧ a.IsModule s

theorem Standpoint.Outermost.extend {place : Standpoint} {s t : Store} (h : place.Outermost s)
    (k : s.Extends t) : place.Outermost t := by
  cases place with
  | host => trivial
  | inside a l => exact ⟨h.1, h.2.extend k⟩

theorem Standpoint.sound_host (s : Store) : Sound s .host := trivial

theorem Standpoint.Sound.extend {place : Standpoint} {s t : Store} (h : place.Sound s) (k : s.Extends t) :
    place.Sound t := by
  cases place with
  | host => trivial
  | inside a l => exact Activation.Sound.extend h k

/-! ## Stacks -/

/-- **What waits on a stack** for a machine that is in a place. -/
inductive Waits (s : Store) : Standpoint → List Pending → Prop where
  | bottom {place : Standpoint} : place.Outermost s → Waits s place []
  | load {place outer : Standpoint} {load : Load} {stack : List Pending} :
    place.Outermost s → outer.Sound s → Waits s outer stack → Waits s place (.load load :: stack)
  | call {a : Activation} {place : Standpoint} {stack : List Pending} :
    a.IsCall s → place.Sound s → Waits s place stack →
      Waits s (.inside a none) (.call a.template.returnLabel? :: stack)
  | bind {place : Standpoint} {module : NamespaceId} {name : String} {stack : List Pending} :
    Waits s place stack → Waits s place (.bind module name :: stack)
  | locate {place : Standpoint} {position : Position} {stack : List Pending} :
    Waits s place stack → Waits s place (.locate position :: stack)
  | operands {a : Activation} {l : Option (Label × Code)} {position : Position}
    {signature : Signature} {done : List Value} {todo : List Code} {stack : List Pending} :
    (∀ code ∈ todo, a.template.body.Stands l code) → Waits s (.inside a l) stack →
      Waits s (.inside a l) (.operands a.env position signature done todo :: stack)
  | write {a : Activation} {l : Option (Label × Code)} {slot : SlotRef} {value : Code}
    {stack : List Pending} :
    a.template.body.Stands l (.write slot value) → Waits s (.inside a l) stack →
      Waits s (.inside a l) (.write a.env.frame slot :: stack)
  | test {a : Activation} {l : Option (Label × Code)} {first : Code × Code}
    {rest : List (Code × Code)} {otherwise : Code} {stack : List Pending} :
    a.template.body.Stands l (.choose (first :: rest) otherwise) → Waits s (.inside a l) stack →
      Waits s (.inside a l) (.test a.env first.2 rest otherwise :: stack)
  | sequence {a : Activation} {l : Option (Label × Code)} {rest : List Code} {stack : List Pending} :
    (∀ code ∈ rest, a.template.body.Stands l code) → Waits s (.inside a l) stack →
      Waits s (.inside a l) (.sequence a.env rest :: stack)
  /-- The place outside a loop waits for the place inside. -/
  | loop {a : Activation} {l : Option (Label × Code)} {label : Label} {inner : Code}
    {stack : List Pending} :
    a.template.body.Stands l (.loop label inner) → Waits s (.inside a l) stack →
      Waits s (.inside a (some (label, inner))) (.loop a.env label inner :: stack)
  | leave {a : Activation} {label : Label} {inner value : Code} {stack : List Pending} :
    a.template.body.Stands (some (label, inner)) (.leave label value) →
      Waits s (.inside a (some (label, inner))) stack →
        Waits s (.inside a (some (label, inner))) (.leave label :: stack)
  | give {a : Activation} {l : Option (Label × Code)} {label : Label} {value : Code}
    {stack : List Pending} :
    a.template.body.Stands l (.give label value) → a.template.returnLabel? = some label →
      Waits s (.inside a l) stack → Waits s (.inside a l) (.give label :: stack)

namespace Waits

variable {s t : Store} {place : Standpoint} {stack : List Pending} {a : Activation}
  {l : Option (Label × Code)} {label : Label} {inner : Code}

theorem extend (h : Waits s place stack) (k : s.Extends t) : Waits t place stack := by
  induction h with
  | bottom alone => exact .bottom (alone.extend k)
  | load alone within _ ih => exact .load (alone.extend k) (within.extend k) ih
  | call called within _ ih => exact .call (called.extend k) (within.extend k) ih
  | bind _ ih => exact .bind ih
  | locate _ ih => exact .locate ih
  | operands todo _ ih => exact .operands todo ih
  | write stands _ ih => exact .write stands ih
  | test stands _ ih => exact .test stands ih
  | sequence rest _ ih => exact .sequence rest ih
  | loop stands _ ih => exact .loop stands ih
  | leave stands _ ih => exact .leave stands ih
  | give stands own _ ih => exact .give stands own ih

end Waits

/-! ## States -/

/-- What a machine may be about to do in a place. -/
def Standpoint.Allows (place : Standpoint) : Control → Prop
  | .eval env code => ∃ a l, place = .inside a l ∧ env = a.env ∧ a.template.body.Stands l code
  | .exit (.leave label _) => ∃ a inner, place = .inside a (some (label, inner))
  | .exit (.give label _) => ∃ a l, place = .inside a l ∧ a.template.returnLabel? = some label
  | _ => True

/-- A state of a machine in a place. -/
structure Config.At (c : Config) (place : Standpoint) : Prop where
  store : c.store.Sound
  within : place.Sound c.store
  control : place.Allows c.control
  stack : Waits c.store place c.stack

/-- **Sound states**: the machine is in some place. -/
def Config.Sound (c : Config) : Prop := ∃ place, c.At place

end HostScript
