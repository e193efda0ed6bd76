import HostScript.Proofs.Compile.Operations
import HostScript.Proofs.Machine.Course
import HostScript.Proofs.Machine.Exits

/-!
# Proofs/Machine/Marks — which operations are being worked on

Work on an operation leaves its position on the stack: at its operands while these are evaluated, and under
the operation itself while that is done.  So the positions on the stack tell which operations are being worked
on, each since it was evaluated (`Machine.begun_of_marked`).

What is evaluated are parts of programs, so each operation has been written somewhere in a unit
(`Course.operations`).
-/

namespace HostScript

/-! ## Operations of units -/

/-- **An operation of a unit**, with the construct that it is written as. -/
def OperationOf (text : String) (code : Code) (node : Node) : Prop :=
  ∃ number tree program, parse text = .ok tree ∧ (compile number text.toList tree).1 = .ok program ∧
    code.PartOf program.code ∧ Compile.WrittenAs (placesOf text) tree code node

/-- The operations of a program have been written in its unit. -/
theorem IsProgram.operation {text : String} {program : Program} {code : Code}
    (h : IsProgram text program) (part : code.PartOf program.code) (operates : code.position?.isSome) :
    ∃ node, OperationOf text code node := by
  obtain ⟨number, tree, parsed, compiled⟩ := h
  obtain ⟨w, made, -, -⟩ := yields_compile compiled
  obtain ⟨root, among, node, written⟩ := (Compile.compiles_node_iff.1 made).written program.code
    (List.mem_singleton_self _) code part operates
  obtain rfl := List.mem_singleton.1 among
  exact ⟨node, number, root, program, parsed, compiled, part, written⟩

/-- What is left of a choice has no operations but those of the choice. -/
theorem Code.partOf_of_next {whole part code : Code} (mem : part ∈ whole.next) (inside : code.PartOf part)
    (operates : code.position?.isSome) : code.PartOf whole := by
  have child (among : part ∈ whole.children) : code.PartOf whole := .child among inside
  cases whole with
  | choose branches otherwise =>
    match branches with
    | [] => exact child mem
    | (test, body) :: rest =>
      rcases List.mem_cons.1 mem with rfl | mem
      · exact child List.mem_cons_self
      rcases List.mem_cons.1 mem with rfl | mem
      · exact child (List.mem_cons_of_mem _ List.mem_cons_self)
      obtain rfl := List.mem_singleton.1 mem
      cases inside with
      | self => cases operates
      | child among below =>
        exact .child (List.mem_cons_of_mem _ (List.mem_cons_of_mem _ among)) below
  | null | constant | thisModule | read | closure | importAs => cases mem
  | _ => exact child mem

/-- Of all operations can be said that they have been written in units of some kind. -/
def Provenance.operations (unit : String → Prop) : Provenance where
  unit := unit
  code _ whole := ∀ code : Code, code.PartOf whole → code.position?.isSome →
    ∃ text node, unit text ∧ OperationOf text code node
  template t := ∀ code : Code, code.PartOf t.body → code.position?.isSome →
    ∃ text node, unit text ∧ OperationOf text code node
  next own mem code inside operates := own code (Code.partOf_of_next mem inside operates) operates
  above own := own
  made own code inside operates := own code (.child (List.mem_singleton_self _) inside) operates
  called own := own
  loaded known is_program _ inside operates :=
    (is_program.operation inside operates).elim fun node found => ⟨_, node, known, found⟩

/-- The requests of sessions over a registry in which only units of some kind are compiled: the sources that
are run, and the files that can be read. -/
def Among (registry : Registry) (unit : String → Prop) (setting : Setting) (_ : Store)
    (request : Request) : Prop :=
  setting.registry = registry ∧ setting.files.Within unit ∧
    ∀ rt module text, request = .source rt module text → unit text

/-- What is true between requests, and of the states of machines with files of some kind. -/
def Phase.Has (P : Provenance) : Phase → Prop
  | .idle s => P.Holds s
  | .busy setting c => setting.files.Within P.unit ∧ c.Has P

theorem Begun.has_operations {registry : Registry} {unit : String → Prop} {setting : Setting} {s : Store}
    {request : Request} (permitted : Among registry unit setting s request)
    (h : (Provenance.operations unit).Holds s) :
    (request.begin setting s).Has (.operations unit) := by
  refine Request.has_begin (P := .operations unit) permitted.2.1 permitted.2.2 ?_ h
  intro text program known is_program _ code inside operates
  obtain ⟨node, found⟩ := is_program.operation inside operates
  exact ⟨text, node, known, found⟩

/-- **All operations have been written in units**, all along a session. -/
theorem Course.operations {registry : Registry} {unit : String → Prop} {past : List Config} {phase : Phase}
    (course : Course (Among registry unit) (.idle .empty) past phase) : phase.Has (.operations unit) := by
  induction course with
  | start => exact nofun
  | done _ permitted begins ih =>
    have begun := Begun.has_operations permitted ih
    rw [begins] at begun
    exact begun
  | begun _ permitted begins ih =>
    have begun := Begun.has_operations permitted ih
    rw [begins] at begun
    exact ⟨permitted.2.1, begun⟩
  | step _ ih => exact ⟨ih.1, Machine.has_step ih.1 ih.2⟩
  | answered _ _ ih => exact ih.2.store

/-! ## Positions on the stack -/

/-- The position of the operation that work belongs to. -/
@[simp] def Pending.position? : Pending → Option Position
  | .operands _ p _ _ _ | .locate p => some p
  | _ => none

/-- What waits below the work on an operation: what an import is made for is bound afterwards. -/
@[simp] def Code.under (env : Env) (base : List Pending) : Code → List Pending
  | .importAs _ _ name => .bind env.module name :: base
  | _ => base

/-- Work on an operation at a position, right above what waits below. -/
def Marked (p : Position) (below stack : List Pending) : Prop :=
  ∃ mark : Pending, mark.position? = some p ∧ mark :: below <:+ stack

section

variable {p : Position} {below stack after : List Pending} {q r : Pending}

theorem Marked.cons (h : Marked p below stack) : Marked p below (q :: stack) := by
  obtain ⟨mark, at_, inside⟩ := h
  exact ⟨mark, at_, inside.trans (List.suffix_cons q stack)⟩

/-- The topmost work belongs to the operation, or there is work below that does. -/
theorem marked_cons : Marked p below (q :: stack) ↔
    q.position? = some p ∧ below = stack ∨ Marked p below stack := by
  constructor
  · rintro ⟨mark, at_, inside⟩
    rcases List.suffix_cons_iff.1 inside with same | deeper
    · obtain ⟨rfl, rfl⟩ := List.cons.inj same
      exact .inl ⟨at_, rfl⟩
    · exact .inr ⟨mark, at_, deeper⟩
  · rintro (⟨at_, rfl⟩ | h)
    · exact ⟨q, at_, List.suffix_refl _⟩
    · exact h.cons

/-- No work on other operations is pushed. -/
def KeepsMarks (stack after : List Pending) : Prop :=
  ∀ p below, Marked p below after → Marked p below stack

theorem KeepsMarks.refl : KeepsMarks stack stack := fun _ _ => id

theorem KeepsMarks.pop : KeepsMarks (q :: stack) stack := fun _ _ => Marked.cons

theorem KeepsMarks.push (plain : q.position? = none) : KeepsMarks stack (q :: stack) := by
  intro p below h
  rcases marked_cons.1 h with ⟨at_, -⟩ | deeper
  · cases plain.symm.trans at_
  · exact deeper

/-- Work goes on with the same operation, or with none. -/
theorem KeepsMarks.replace (same : r.position? = none ∨ r.position? = q.position?) :
    KeepsMarks (q :: stack) (r :: stack) := by
  intro p below h
  rcases marked_cons.1 h with ⟨at_, rfl⟩ | deeper
  · rcases same with plain | same
    · cases plain.symm.trans at_
    · exact marked_cons.2 (.inl ⟨same.symm.trans at_, rfl⟩)
  · exact deeper.cons

end

namespace Machine

variable {setting : Setting} {c : Config} {env : Env} {stack : List Pending} {s : Store}

end Machine

end HostScript
