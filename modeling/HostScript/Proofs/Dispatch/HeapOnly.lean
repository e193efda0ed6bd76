import HostScript.Dispatch.Perform

/-!
# Proofs/Dispatch/HeapOnly — an action works on the heap

What has been chosen for an operation is done by reading and changing the heap; activations,
functions and runtimes are neither read nor changed.  `heapOnly_perform` says so, and the frame facts
about `dispatch` follow: it leaves all activations and functions as they are, and of the runtimes it
changes no more than the rules of its own.
-/

namespace HostScript

namespace Store

/-- **An operation on the heap alone**: of two stores with one heap it makes stores with one heap, and
it leaves everything else in them. -/
def HeapOnly {α : Type} (f : Store → α × Store) : Prop :=
  ∀ (heap : Heap) (s t : Store),
    f { s with toHeap := heap } =
      ((f { t with toHeap := heap }).1, { s with toHeap := (f { t with toHeap := heap }).2.toHeap })

namespace HeapOnly

variable {α : Type} {f : Store → α × Store}

theorem eq_of (h : HeapOnly f) (s : Store) : f s = ((f s).1, { s with toHeap := (f s).2.toHeap }) :=
  h s.toHeap s s

/-- What is beside the heap may be replaced before or after. -/
theorem replaced (h : HeapOnly f) (s : Store) (frames : Array Frame) (functions : Array Callable)
    (runtimes : Array Runtime) :
    f { s with frames, functions, runtimes } =
      ((f s).1, { (f s).2 with frames, functions, runtimes }) :=
  h s.toHeap { s with frames, functions, runtimes } s

theorem frames (h : HeapOnly f) (s : Store) : (f s).2.frames = s.frames := by
  rw [h.eq_of s]

theorem functions (h : HeapOnly f) (s : Store) : (f s).2.functions = s.functions := by
  rw [h.eq_of s]

theorem runtimes (h : HeapOnly f) (s : Store) : (f s).2.runtimes = s.runtimes := by
  rw [h.eq_of s]

end HeapOnly

variable (registry : Registry) (globals module : NamespaceId) (signature : Signature)
  (args : List Value)

theorem heapOnly_callMethod (type : TypeInfo) (index : Nat) (receiver : Method → Option Value)
    (name : String) :
    HeapOnly fun s => s.callMethod registry type index receiver name args := by
  unfold callMethod
  cases (registry.type type).methods[index]? with
  | none => exact fun _ _ _ => rfl
  | some m => exact fun _ _ _ => rfl

theorem heapOnly_listSet (id : ListId) (i : Int64) (v : Value) :
    HeapOnly fun s => s.listSet id i v := by
  unfold listSet
  cases i.toInt.toNat? with
  | none => exact fun _ _ _ => rfl
  | some place => exact fun _ _ _ => rfl

/-- **Doing what has been chosen works on the heap alone.** -/
theorem heapOnly_perform (action : Action) :
    HeapOnly fun s => s.perform registry globals module action signature args := by
  unfold perform
  dsimp only
  split
  case h_4 id rest =>
    intro heap s t
    dsimp only
    cases heap.get? id signature.name <;> rfl
  case h_5 =>
    intro heap s t
    unfold named?
    dsimp only
    cases (heap.get? module signature.name).or (heap.get? globals signature.name) <;> rfl
  case h_6 fallback =>
    cases fallback with
    | none =>
      intro heap s t
      unfold named?
      dsimp only
      cases (heap.get? module signature.name).or (heap.get? globals signature.name) <;> rfl
    | some bound =>
      intro heap s t
      unfold named?
      dsimp only
      cases (heap.get? module signature.name).or (heap.get? globals signature.name) with
      | none => exact heapOnly_callMethod registry args _ _ _ _ heap s t
      | some callee => rfl
  case h_8 type index receiver =>
    cases (registry.type type).properties[index]? <;> exact fun _ _ _ => rfl
  case h_9 type index target v =>
    cases (registry.type type).properties[index]? with
    | none => exact fun _ _ _ => rfl
    | some p =>
      obtain ⟨name, isStatic, get, set?⟩ := p
      cases set? with
      | none => exact fun _ _ _ => rfl
      | some set =>
        intro heap s t
        dsimp only [Store.onHeap]
        cases (set (some target) v heap).1 <;> rfl
  case h_10 => exact heapOnly_callMethod registry _ _ _ _ _
  case h_11 type index =>
    cases (registry.type type).constructors[index]? <;> exact fun _ _ _ => rfl
  case h_12 type target index =>
    cases (registry.type type).indexer? <;> exact fun _ _ _ => rfl
  case h_13 type target index v =>
    cases (registry.type type).indexer? with
    | none => exact fun _ _ _ => rfl
    | some indexer =>
      obtain ⟨get, set?⟩ := indexer
      cases set? <;> exact fun _ _ _ => rfl
  case h_15 id i v => exact heapOnly_listSet id i v
  all_goals exact fun _ _ _ => rfl

/-! ## What a dynamic operation leaves as it is -/

theorem decide_eq (s : Store) (rt : RuntimeId) :
    (s.decide registry rt signature args).2 =
      { s with runtimes := (s.decide registry rt signature args).2.runtimes } := by
  unfold decide
  dsimp only
  split
  · rfl
  · rfl

theorem frames_dispatch (s : Store) (rt : RuntimeId) :
    (s.dispatch registry rt module signature args).2.frames = s.frames := by
  unfold dispatch
  dsimp only
  rw [(heapOnly_perform registry _ module signature args _).frames, decide_eq]

theorem functions_dispatch (s : Store) (rt : RuntimeId) :
    (s.dispatch registry rt module signature args).2.functions = s.functions := by
  unfold dispatch
  dsimp only
  rw [(heapOnly_perform registry _ module signature args _).functions, decide_eq]

theorem runtimes_dispatch (s : Store) (rt : RuntimeId) :
    (s.dispatch registry rt module signature args).2.runtimes =
      (s.decide registry rt signature args).2.runtimes := by
  unfold dispatch
  exact (heapOnly_perform registry _ module signature args _).runtimes _

end Store

end HostScript
