import HostScript.Proofs.Estate.Steps
import HostScript.Proofs.Heap.Paths
import HostScript.Proofs.Machine.Course
import Mathlib.Logic.Relation

/-!
# Proofs/Estate/Apart — what is done to one runtime apart from another

The estate of a runtime `a` are the cells from which references lead to a namespace in the tree of its
global names.  A runtime `b` outside of it cannot get there, whatever is done to it, if nothing of the
estate is handed over and no function of `a` is called (`Course.apart`): the estate may only shrink, and
`a` and its tree stay as they are.
-/

namespace HostScript

variable {estate : Cell → Prop} {a b : RuntimeId}

/-! ## References -/

/-- **What refers to what.**  Who holds a function that `a` has made can only call it, so such a function
refers to nothing. -/
inductive Store.Refers (a : RuntimeId) (s : Store) : Cell → Cell → Prop where
  | item {id : ListId} {v : Value} {cell : Cell} :
    v ∈ s.list id → v.cell? = some cell → Refers a s (.list id) cell
  | entry {id : NamespaceId} {e : String × Value} {cell : Cell} :
    e ∈ (s.space id).entries → e.2.cell? = some cell → Refers a s (.space id) cell
  | state {id : PayloadId} {v : Value} {cell : Cell} :
    s.payload? id = some (.state v) → v.cell? = some cell → Refers a s (.payload id) cell
  | slot {id : FrameId} {frame : Frame} {v : Value} {cell : Cell} :
    s.frames[id.index]? = some frame → v ∈ frame.slots → v.cell? = some cell →
      Refers a s (.frame id) cell
  | parent {id outer : FrameId} {frame : Frame} :
    s.frames[id.index]? = some frame → frame.parent? = some outer → Refers a s (.frame id) (.frame outer)
  | closure {id : FunctionId} {template : Template Code} {frame : FrameId} {module : NamespaceId}
    {rt : RuntimeId} {cell : Cell} :
    s.function? id = some (.script template frame module rt) → rt ≠ a →
      cell ∈ [.frame frame, .space module, .runtime rt] → Refers a s (.function id) cell
  | globals {rt : RuntimeId} : Refers a s (.runtime rt) (.space (s.runtime rt).globals)
  | injected {rt : RuntimeId} {o : HostObject} :
    o ∈ (s.runtime rt).instances → Refers a s (.runtime rt) (.payload o.payload)
  /-- The instance that a called name has been decided to mean. -/
  | decided {rt : RuntimeId} {signature : Signature} {branch : Branch} {bound : BoundMethod} :
    branch ∈ (s.runtime rt).rules.branches signature → branch.action = .callNamed (some bound) →
      Refers a s (.runtime rt) (.payload bound.holder.payload)

namespace Store

variable {s t u : Store} {cell other : Cell} {path : List String} {id : NamespaceId}

/-- **The estate of a runtime**: the cells from which references lead to a namespace in the tree of its
global names. -/
def estateOf (s : Store) (a : RuntimeId) (cell : Cell) : Prop :=
  ∃ path id, s.walk (s.runtime a).globals path = some id ∧
    Relation.ReflTransGen (s.Refers a) cell (.space id)

/-- **A tree of global names that is there**: all namespaces in it have been made. -/
def Rooted (s : Store) (a : RuntimeId) : Prop :=
  ∀ path id, s.walk (s.runtime a).globals path = some id → id.index < s.namespaces.size

theorem estateOf_of_walk (leads : s.walk (s.runtime a).globals path = some id) :
    s.estateOf a (.space id) := ⟨path, id, leads, .refl⟩

theorem estateOf_of_refers (refers : s.Refers a cell other) (own : s.estateOf a other) :
    s.estateOf a cell := by
  obtain ⟨path, id, leads, follows⟩ := own
  exact ⟨path, id, leads, .head refers follows⟩

/-- A cell of the estate is in the tree or refers into the estate. -/
theorem estateOf_cases (own : s.estateOf a cell) :
    (∃ path id, s.walk (s.runtime a).globals path = some id ∧ cell = .space id) ∨
      ∃ other, s.Refers a cell other := by
  obtain ⟨path, id, leads, follows⟩ := own
  rcases follows.cases_head with same | ⟨other, refers, -⟩
  · exact .inl ⟨path, id, leads, same⟩
  · exact .inr ⟨other, refers⟩

/-- What refers outside of the estate only is outside. -/
theorem outside_of_refers {v : Value} (away : ¬s.estateOf a cell)
    (refers : ∀ other, v.cell? = some other → s.Refers a cell other) : v.Outside (s.estateOf a) :=
  Value.outside_iff.2 fun other same own => away (estateOf_of_refers (refers other same) own)

/-- **The estate of a runtime is fenced.** -/
theorem fenced_estateOf (rooted : s.Rooted a) : s.Fenced (s.estateOf a) a where
  heap := by
    refine ⟨fun _ => id, fun id away v mem => outside_of_refers away fun _ => .item mem,
      fun id away e mem => outside_of_refers away fun _ => .entry mem,
      fun id away v held => outside_of_refers away fun _ => .state held,
      fun id own => ?_, fun id own => ?_, fun id own => ?_⟩
    · rcases estateOf_cases own with ⟨_, _, _, never⟩ | ⟨_, refers⟩
      · cases never
      · cases refers with
        | item mem _ =>
          by_contra outside
          rw [Heap.list, Array.getElem?_eq_none (Nat.le_of_not_lt outside)] at mem
          exact absurd mem (Array.not_mem_empty _)
    · rcases estateOf_cases own with ⟨path, _, leads, same⟩ | ⟨_, refers⟩
      · obtain rfl := Cell.space.inj same
        exact rooted path id leads
      · cases refers with
        | entry mem _ =>
          by_contra outside
          rw [Heap.space, Array.getElem?_eq_none (Nat.le_of_not_lt outside)] at mem
          exact absurd mem List.not_mem_nil
    · rcases estateOf_cases own with ⟨_, _, _, never⟩ | ⟨_, refers⟩
      · cases never
      · cases refers with
        | state held _ => exact (Array.getElem?_eq_some_iff.1 held).1
  frames id away frame found :=
    ⟨fun _ mem => outside_of_refers away fun _ => .slot found mem,
      fun _ linked own => away (estateOf_of_refers (.parent found linked) own)⟩
  functions id away f found := by
    cases f with
    | native name arity index => trivial
    | script template frame module rt =>
      have leads (foreign : rt ≠ a) (cell : Cell)
          (mem : cell ∈ [.frame frame, .space module, .runtime rt]) : ¬s.estateOf a cell :=
        fun own => away (estateOf_of_refers (.closure found foreign mem) own)
      intro foreign
      refine ⟨leads foreign _ ?_, leads foreign _ ?_, leads foreign _ ?_⟩ <;> simp
  runtimes rt away := by
    refine ⟨fun own => away (estateOf_of_refers .globals own),
      fun o mem own => away (estateOf_of_refers (.injected mem) own), fun signature branch mem => ?_⟩
    cases action : branch.action with
    | callNamed fallback =>
      cases fallback with
      | none => trivial
      | some bound => exact fun own => away (estateOf_of_refers (.decided mem action) own)
    | _ => trivial
  framesThere id own := by
    rcases estateOf_cases own with ⟨_, _, _, never⟩ | ⟨_, refers⟩
    · cases never
    · cases refers with
      | slot found _ _ => exact (Array.getElem?_eq_some_iff.1 found).1
      | parent found _ => exact (Array.getElem?_eq_some_iff.1 found).1
  functionsThere id own := by
    rcases estateOf_cases own with ⟨_, _, _, never⟩ | ⟨_, refers⟩
    · cases never
    · cases refers with
      | closure found _ _ => exact (Array.getElem?_eq_some_iff.1 found).1
  own := estateOf_of_refers .globals (estateOf_of_walk Heap.walk_nil)

/-- **Nothing outside of a fence refers to anything inside.** -/
theorem Fenced.of_refers (fenced : s.Fenced estate a) (refers : s.Refers a cell other)
    (own : estate other) : estate cell := by
  by_contra away
  cases refers with
  | item mem same => exact Value.outside_iff.1 (fenced.heap.lists _ away _ mem) _ same own
  | entry mem same => exact Value.outside_iff.1 (fenced.heap.spaces _ away _ mem) _ same own
  | state held same => exact Value.outside_iff.1 (fenced.heap.payloads _ away _ held) _ same own
  | slot found mem same =>
    exact Value.outside_iff.1 ((fenced.frames _ away _ found).slots _ mem) _ same own
  | parent found linked => exact (fenced.frames _ away _ found).parent _ linked own
  | closure found foreign mem =>
    obtain ⟨frame, module, runtime⟩ := fenced.functions _ away _ found foreign
    simp only [List.mem_cons, List.not_mem_nil, or_false] at mem
    rcases mem with rfl | rfl | rfl
    · exact frame own
    · exact module own
    · exact runtime own
  | globals => exact (fenced.runtimes _ away).globals own
  | injected mem => exact (fenced.runtimes _ away).instances _ mem own
  | decided mem action =>
    have kept := (fenced.runtimes _ away).rules _ _ mem
    rw [action] at kept
    exact kept own

/-- **The estate is the smallest one** that has the tree in it. -/
theorem Fenced.of_estateOf (fenced : s.Fenced estate a)
    (tree : ∀ path id, s.walk (s.runtime a).globals path = some id → estate (.space id))
    (own : s.estateOf a cell) : estate cell := by
  obtain ⟨path, id, leads, follows⟩ := own
  induction follows using Relation.ReflTransGen.head_induction_on with
  | refl => exact tree path id leads
  | head refers _ inside => exact fenced.of_refers refers inside

/-- **A fence around the tree** shows that the tree is there, and what is not of the estate. -/
theorem Fenced.apart (fenced : s.Fenced estate a)
    (tree : ∀ path id, s.walk (s.runtime a).globals path = some id → estate (.space id)) :
    s.Rooted a ∧ ∀ cell, ¬estate cell → ¬s.estateOf a cell :=
  ⟨fun path id leads => fenced.heap.spacesThere id (tree path id leads),
    fun _ away own => away (fenced.of_estateOf tree own)⟩

/-! ## Unchanged runtimes -/

/-- **A runtime that is unchanged** from one store to another: what it offers, all that has been decided for
it, and the tree of its global names with all that is bound there. -/
structure Unchanged (a : RuntimeId) (s t : Store) : Prop where
  runtime : t.runtime a = s.runtime a
  walk (path : List String) : t.walk (s.runtime a).globals path = s.walk (s.runtime a).globals path
  space (path : List String) (id : NamespaceId) : s.walk (s.runtime a).globals path = some id →
    t.space id = s.space id

theorem Unchanged.refl (s : Store) : s.Unchanged a s := ⟨rfl, fun _ => rfl, fun _ _ _ => rfl⟩

theorem Unchanged.trans (first : s.Unchanged a t) (second : t.Unchanged a u) : s.Unchanged a u := by
  have walks (path : List String) :
      t.walk (t.runtime a).globals path = s.walk (s.runtime a).globals path := by
    rw [first.runtime]
    exact first.walk path
  refine ⟨second.runtime.trans first.runtime, fun path => ?_, fun path id leads => ?_⟩
  · rw [← walks path, ← second.walk path, first.runtime]
  · exact (second.space path id ((walks path).trans leads)).trans (first.space path id leads)

/-- **Who leaves an estate with the tree in it alone** leaves the runtime unchanged. -/
theorem Leaves.unchanged (leaves : s.Leaves estate a t)
    (tree : ∀ path id, s.walk (s.runtime a).globals path = some id → estate (.space id)) :
    s.Unchanged a t := by
  have space (path : List String) (id : NamespaceId) (leads : s.walk (s.runtime a).globals path = some id) :
      t.space id = s.space id := leaves.same id (tree path id leads)
  refine ⟨leaves.runtime, fun path => ?_, space⟩
  induction path using List.reverseRecOn with
  | nil => rfl
  | append_singleton path name ih =>
    rw [Heap.walk_concat, Heap.walk_concat, ih]
    cases leads : s.walk (s.runtime a).globals path with
    | none => rfl
    | some id =>
      rw [Option.bind_some, Option.bind_some, Heap.inner?, Heap.inner?, Heap.get?, Heap.get?,
        space path id leads]

end Store

/-! ## Courses -/

/-- **What a host may do to a runtime `b` apart from a runtime `a`**: it works on `b`, its members and
functions work outside of the estate of `a`, and it hands over nothing of it. -/
structure Request.Apart (a b : RuntimeId) (setting : Setting) (s : Store) (request : Request) : Prop where
  on : request.On b
  respects : setting.Respects (s.estateOf a)
  spares : request.Spares (s.estateOf a)

/-- Where a session stands while `b` is worked on apart from `a`, which is unchanged since a store. -/
def Phase.Apart (a b : RuntimeId) (s : Store) : Phase → Prop
  | .idle t => t.Rooted a ∧ ¬t.estateOf a (.runtime b) ∧ s.Unchanged a t
  | .busy setting c => s.Unchanged a c.store ∧ ∃ estate, c.Outside estate a ∧ setting.Respects estate ∧
    ¬estate (.runtime b) ∧ ∀ path id, c.store.walk (c.store.runtime a).globals path = some id →
      estate (.space id)

/-- A tree is the same in a store in which the runtime is unchanged. -/
theorem Store.Unchanged.tree {s t : Store} (same : s.Unchanged a t)
    (tree : ∀ path id, s.walk (s.runtime a).globals path = some id → estate (.space id))
    (path : List String) (id : NamespaceId) (leads : t.walk (t.runtime a).globals path = some id) :
    estate (.space id) := by
  rw [same.runtime, same.walk] at leads
  exact tree path id leads

/-- **Who leaves an estate with the tree in it alone** makes the estate of the runtime no larger. -/
theorem Store.Leaves.apart {s t : Store} (leaves : s.Leaves estate a t)
    (tree : ∀ path id, s.walk (s.runtime a).globals path = some id → estate (.space id)) :
    t.Rooted a ∧ ∀ cell, ¬estate cell → ¬t.estateOf a cell :=
  leaves.fenced.apart ((leaves.unchanged tree).tree tree)

namespace Phase

variable {s t : Store} {setting : Setting} {c : Config} {request : Request}

theorem Apart.begin (h : Phase.Apart a b s (.idle t)) (apart : request.Apart a b setting t) :
    (∀ answer u, request.begin setting t = .done answer u → Phase.Apart a b s (.idle u)) ∧
      ∀ c, request.begin setting t = .running c → Phase.Apart a b s (.busy setting c) := by
  obtain ⟨rooted, away, since⟩ := h
  have fenced := Store.fenced_estateOf rooted
  have leaves := Request.leaves_begin setting fenced away apart.on apart.spares
  have tree : ∀ path id, t.walk (t.runtime a).globals path = some id → t.estateOf a (.space id) :=
    fun _ _ => Store.estateOf_of_walk
  refine ⟨fun answer u begins => ?_, fun c begins => ?_⟩
  · rw [begins] at leaves
    obtain ⟨rooted, others⟩ := leaves.apart tree
    exact ⟨rooted, others _ away, since.trans (leaves.unchanged tree)⟩
  · rw [begins] at leaves
    have same := leaves.leaves.unchanged tree
    exact ⟨since.trans same, t.estateOf a, leaves.outside, apart.respects, away, same.tree tree⟩

theorem Apart.step (h : Phase.Apart a b s (.busy setting c)) (foreign : ¬c.Enters a) :
    Phase.Apart a b s (.busy setting (Machine.step setting c)) := by
  obtain ⟨since, estate, outside, respects, away, tree⟩ := h
  have sends := Machine.sends_step outside respects foreign
  have same := sends.leaves.unchanged tree
  exact ⟨since.trans same, estate, sends.outside, respects, away, same.tree tree⟩

theorem Apart.answered (h : Phase.Apart a b s (.busy setting c)) : Phase.Apart a b s (.idle c.store) := by
  obtain ⟨since, estate, outside, -, away, tree⟩ := h
  obtain ⟨rooted, others⟩ := outside.store.apart tree
  exact ⟨rooted, others _ away, since⟩

end Phase

/-- **What is done to one runtime apart from another** leaves the other one unchanged all along. -/
theorem Course.apart {s : Store} {past : List Config} {phase : Phase} (rooted : s.Rooted a)
    (away : ¬s.estateOf a (.runtime b)) (course : Course (Request.Apart a b) (.idle s) past phase)
    (foreign : ∀ c ∈ past, ¬c.Enters a) : phase.Apart a b s := by
  induction course with
  | start => exact ⟨rooted, away, .refl s⟩
  | done _ apart begins ih => exact ((ih foreign).begin apart).1 _ _ begins
  | begun _ apart begins ih => exact ((ih foreign).begin apart).2 _ begins
  | step _ ih =>
    obtain ⟨here, before⟩ := List.forall_mem_cons.1 foreign
    exact (ih before).step here
  | answered _ _ ih => exact (ih foreign).answered

theorem Phase.Apart.unchanged {s : Store} {phase : Phase} (h : phase.Apart a b s) :
    s.Unchanged a phase.store := by
  cases phase with
  | idle t => exact h.2.2
  | busy setting c => exact h.1

end HostScript
