import HostScript.Proofs.Compile.Parts
import HostScript.Proofs.Dispatch.Overloads
import HostScript.Proofs.Machine.Reads

/-!
# Proofs/Machine/MemberCalls — calling a member is not calling what it holds

A call of a member is one operation on the value that has the member, whether the member stands in
brackets of its own or not.  What it comes to is told by `Store.CallsMember`: a namespace is asked for what
it binds the name to; of any other value only the methods count.  For a namespace that is what reading the
member and invoking the value comes to, unless the value is an instance; a property of any other value
is never read.
-/

namespace HostScript

namespace Outcome

/-- Only instances are called otherwise under a name. -/
theorem ofCall_some {callee : Value} (plain : ∀ o, callee ≠ .object o) (name : String)
    (args : List Value) : ofCall (some name) callee args = ofCall none callee args := by
  cases callee with
  | object o => exact absurd rfl (plain o)
  | _ => rfl

end Outcome

namespace Store

/-- **What calling a member of a value comes to**, under what a host offers, and the heap that is
left. -/
inductive CallsMember (s : Store) (offer : Surface) (name : String) :
    Value → List Value → Outcome → Heap → Prop where
  /-- What a namespace binds the name to is called. -/
  | bound {id : NamespaceId} {callee : Value} {args : List Value} : s.get? id name = some callee →
    CallsMember s offer name (.space id) args (.ofCall (some name) callee args) s.toHeap
  | unbound {id : NamespaceId} {args : List Value} : s.get? id name = none →
    CallsMember s offer name (.space id) args (.fail (.missingMember name "namespace")) s.toHeap
  /-- The best method that takes the arguments is called. -/
  | method {v : Value} {args : List Value} {type : TypeInfo} {receiver : Receiver} {index : ℕ}
    {m : Method} : (∀ id, v ≠ .space id) →
    FirstBest (offer.callable name args) (offer.memberSources v) (type, receiver) index →
    (offer.registry.type type).methods[index]? = some m →
    CallsMember s offer name v args
      (.reply (m.run (receiverOf receiver [v]) (Params.coerce m.params args) s.toHeap).1)
      (m.run (receiverOf receiver [v]) (Params.coerce m.params args) s.toHeap).2
  /-- There are methods of the name, but none that takes the arguments. -/
  | unmatched {v : Value} {args : List Value} : (∀ id, v ≠ .space id) →
    (∀ source ∈ offer.memberSources v, offer.callable name args source = ∅) →
    (∃ source ∈ offer.memberSources v, (offer.named name source).Nonempty) →
    CallsMember s offer name v args (.fail (.noMatchingOverload name v.typeName args.length)) s.toHeap
  /-- There are no methods of the name, whatever properties there are. -/
  | missing {v : Value} {args : List Value} : (∀ id, v ≠ .space id) →
    (∀ source ∈ offer.memberSources v, offer.named name source = ∅) →
    CallsMember s offer name v args (.fail (.missingMember name v.typeName)) s.toHeap

/-- **A member without methods is missing.** -/
theorem CallsMember.eq_missing {s : Store} {offer : Surface} {name : String} {v : Value}
    {args : List Value} {outcome : Outcome} {heap : Heap}
    (h : s.CallsMember offer name v args outcome heap) (plain : ∀ id, v ≠ .space id)
    (free : ∀ source ∈ offer.memberSources v, offer.named name source = ∅) :
    outcome = .fail (.missingMember name v.typeName) := by
  cases h with
  | bound | unbound => exact absurd rfl (plain _)
  | method _ best _ =>
    obtain ⟨before, after, rank, sources, -, ⟨m, placed, ranks, fitting, -⟩, -⟩ := best
    have empty := free _ (sources ▸ List.mem_append_right before List.mem_cons_self)
    exact absurd empty (Set.Nonempty.ne_empty ⟨_, m, placed, ranks, fitting⟩)
  | unmatched _ _ there =>
    obtain ⟨source, mem, some⟩ := there
    exact absurd (free source mem) some.ne_empty
  | missing => rfl

/-- Reading a member of a value and then invoking what has been read. -/
def callRead (s : Store) (registry : Registry) (rt : RuntimeId) (module : NamespaceId) (name : String)
    (v : Value) (args : List Value) : Outcome × Store :=
  match s.dispatch registry rt module (.getMember name) [v] with
  | (.reply (.value callee), s) =>
    s.dispatch registry rt module (.invoke args.length) (callee :: args)
  | unread => unread

variable {registry : Registry} {s : Store} {name : String} {v : Value} {args : List Value}

/-- A method that is there is called on the heap. -/
theorem callMethod_of_placed {type : TypeInfo} {index : ℕ} {m : Method} {receiver : Method → Option Value}
    (placed : (registry.type type).methods[index]? = some m) :
    s.callMethod registry type index receiver name args =
      replied (s.onHeap (m.run (receiver m) (Params.coerce m.params args))) := by
  unfold callMethod
  rw [placed]

/-- What is chosen for a call of a member is what the call comes to. -/
theorem callsMember_choose (s : Store) (offer : Surface) (globals module : NamespaceId) (name : String)
    (v : Value) (args : List Value) :
    let signature := Signature.invokeMember name args.length
    let done := s.perform offer.registry globals module (offer.choose signature (v :: args)) signature
      (v :: args)
    s.CallsMember offer name v args done.1 done.2.toHeap := by
  intro signature done
  have performs {action : Action} (chosen : offer.choose signature (v :: args) = action) :
      done = s.perform offer.registry globals module action signature (v :: args) :=
    congrArg (fun action => s.perform offer.registry globals module action signature (v :: args)) chosen
  by_cases plain : ∀ id, v ≠ .space id
  · have order : offer.InOrder name v args (offer.memberSources v) := Surface.inOrder plain
    cases found : Surface.findInSources (offer.taking? name args) (offer.memberSources v) with
    | some hit =>
      obtain ⟨⟨type, receiver⟩, m, index⟩ := hit
      have best := Surface.firstBest_callable_iff.2 ⟨m, found⟩
      have here := Surface.of_findInSources found
      rw [Surface.taking?_eq] at here
      obtain ⟨placed, -⟩ := mem_membersNamed.1 (List.mem_of_find?_eq_some here)
      have called : done =
          replied (s.onHeap (m.run (receiverOf receiver [v]) (Params.coerce m.params args))) := by
        rw [performs ((order.call type index receiver).2 best)]
        cases receiver <;> exact callMethod_of_placed placed
      rw [called]
      exact .method plain best placed
    | none =>
      have free : ∀ source ∈ offer.memberSources v, offer.callable name args source = ∅ :=
        fun source mem => (Surface.taking?_eq_none_iff source).1
          (Surface.findInSources_eq_none_iff.1 found source mem)
      by_cases none : ∀ source ∈ offer.memberSources v, offer.named name source = ∅
      · rw [performs (order.missing none)]
        exact .missing plain none
      · have there : ∃ source ∈ offer.memberSources v, (offer.named name source).Nonempty := by
          by_contra never
          exact none fun source mem =>
            Set.not_nonempty_iff_eq_empty.1 fun some => never ⟨source, mem, some⟩
        rw [performs (order.unmatched free there)]
        exact .unmatched plain free there
  · obtain ⟨id, rfl⟩ : ∃ id, v = .space id := by
      by_contra never
      exact plain fun id same => never ⟨id, same⟩
    have asked : done = s.perform offer.registry globals module .namespaceInvoke signature
      (.space id :: args) := rfl
    unfold perform at asked
    dsimp only at asked
    cases found : s.get? id signature.name with
    | some callee =>
      rw [found] at asked
      rw [asked]
      exact .bound found
    | none =>
      rw [found] at asked
      rw [asked]
      exact .unbound found

namespace Faithful

/-- A dynamic operation ends as what is chosen for it does. -/
theorem dispatch_eq (h : s.Faithful registry) (rt : RuntimeId) (module : NamespaceId)
    (signature : Signature) (args : List Value) :
    let done := s.perform registry (s.runtime rt).globals module
      (((s.runtime rt).surface registry).choose signature args) signature args
    (s.dispatch registry rt module signature args).1 = done.1 ∧
      (s.dispatch registry rt module signature args).2.toHeap = done.2.toHeap := by
  obtain ⟨same, alike⟩ := h.agree_dispatch (.refl s) rt module signature args
  exact ⟨same, alike.heap⟩

/-- **Calling a member comes to what it should**, whatever has been decided before. -/
theorem dispatch_invokeMember (h : s.Faithful registry) (rt : RuntimeId) (module : NamespaceId)
    (name : String) (v : Value) (args : List Value) :
    s.CallsMember ((s.runtime rt).surface registry) name v args
      (s.dispatch registry rt module (.invokeMember name args.length) (v :: args)).1
      (s.dispatch registry rt module (.invokeMember name args.length) (v :: args)).2.toHeap := by
  obtain ⟨outcome, heap⟩ := h.dispatch_eq rt module (.invokeMember name args.length) (v :: args)
  rw [outcome, heap]
  exact s.callsMember_choose ((s.runtime rt).surface registry) _ module name v args

theorem dispatch_invoke (h : s.Faithful registry) (rt : RuntimeId) (module : NamespaceId)
    (callee : Value) (args : List Value) :
    (s.dispatch registry rt module (.invoke args.length) (callee :: args)).1 =
      .ofCall none callee args := by
  rw [(h.dispatch_eq rt module (.invoke args.length) (callee :: args)).1]
  cases callee <;> rfl

/-- A value that is read is invoked. -/
theorem callRead_eq (h : s.Faithful registry) {rt : RuntimeId} {module : NamespaceId} {callee : Value}
    (reads : (s.dispatch registry rt module (.getMember name) [v]).1 = .value callee) :
    (s.callRead registry rt module name v args).1 = .ofCall none callee args := by
  have kept := h.dispatch rt module (.getMember name) [v]
  unfold callRead
  cases read : s.dispatch registry rt module (.getMember name) [v] with
  | mk outcome t =>
    rw [read] at reads kept
    obtain rfl : outcome = .value callee := reads
    exact kept.dispatch_invoke rt module callee args

/-- Where nothing is read, nothing is invoked. -/
theorem callRead_of_fail {rt : RuntimeId} {module : NamespaceId} {cause : EvalError.Cause}
    (reads : (s.dispatch registry rt module (.getMember name) [v]).1 = .fail cause) :
    (s.callRead registry rt module name v args).1 = .fail cause := by
  unfold callRead
  cases read : s.dispatch registry rt module (.getMember name) [v] with
  | mk outcome t =>
    rw [read] at reads
    obtain rfl : outcome = .fail cause := reads
    rfl

/-- **Reading a member of a namespace and invoking the value** comes to the same as calling the member,
unless the value is an instance. -/
theorem callRead_space (h : s.Faithful registry) (rt : RuntimeId) (module : NamespaceId)
    {id : NamespaceId} {offer : Surface} {outcome : Outcome} {heap : Heap}
    (calls : s.CallsMember offer name (.space id) args outcome heap)
    (plain : ∀ o, s.get? id name ≠ some (.object o)) :
    (s.callRead registry rt module name (.space id) args).1 = outcome := by
  have reads : (s.dispatch registry rt module (.getMember name) [.space id]).1 = s.spaceGet id name :=
    (h.dispatch_eq rt module (.getMember name) [.space id]).1
  unfold spaceGet at reads
  cases calls with
  | @bound _ callee _ found =>
    rw [found] at reads
    rw [h.callRead_eq reads]
    exact (Outcome.ofCall_some (fun o same => plain o (same ▸ found)) name args).symm
  | unbound found =>
    rw [found] at reads
    exact callRead_of_fail reads
  | method other _ _ | unmatched other _ _ | missing other _ => exact absurd rfl (other id)

/-- So it does where there is nothing of the name to be called or read. -/
theorem callRead_missing (h : s.Faithful registry) (rt : RuntimeId) (module : NamespaceId)
    {outcome : Outcome} {heap : Heap}
    (calls : s.CallsMember ((s.runtime rt).surface registry) name v args outcome heap)
    (plain : ∀ id, v ≠ .space id)
    (free : ∀ source ∈ ((s.runtime rt).surface registry).memberSources v,
      ((s.runtime rt).surface registry).named name source = ∅ ∧
        ((s.runtime rt).surface registry).readable name source = ∅) :
    (s.callRead registry rt module name v args).1 = outcome := by
  have reads : (s.dispatch registry rt module (.getMember name) [v]).1 =
      .fail (.missingMember name v.typeName) := by
    have order : ((s.runtime rt).surface registry).InOrder name v args _ := Surface.inOrder plain
    rw [(h.dispatch_eq rt module (.getMember name) [v]).1,
      order.unread fun source mem => (free source mem).2]
    rfl
  rw [callRead_of_fail reads, calls.eq_missing plain fun source mem => (free source mem).1]

end Faithful

end Store

/-- **A call of a member takes methods, however the member is written.**  A program does not depend on
whether members stand before arguments or alone.  In every program, every call of a member, be the member
in brackets of its own, is one operation on the value that has the member and the arguments, the value
first.  Wherever a session has come to, such an operation comes to what `Store.CallsMember` says: a
namespace is asked for what it binds the name to, and of any other value only methods count, so that the
member is missing if there are none, whatever properties there are.

Reading the member first and then invoking what has been read comes to the same for a namespace, unless
that is an instance, and for a value that has neither methods nor properties of the name. -/
theorem member_calls_take_methods (registry : Registry) :
    (∀ (number : Nat) (source : List Char) (tree : Node) (kind : MemberKind),
      compile number source (tree.withKind kind) = compile number source tree) ∧
    (∀ (number : Nat) (source : List Char) (tree : Node) (program : Program),
      (compile number source tree).1 = .ok program →
        ∀ (span inner : Span) (target : Node) (name : String) (kind : MemberKind) (args : List Node),
          (Node.call span (.member inner target name kind) args).PartOf tree →
            let places : Compile.Places := fun span => (LineIndex.ofSource source).position span.start
            ∃ w codes w', Compile.Yields (Compile.nodes places (target :: args)) w codes w' ∧
              (Code.dispatch (places span) (.invokeMember name args.length) codes).PartOf
                program.code) ∧
    ∀ (setting : Setting) (c : Config), Moment registry setting c →
      ∀ (env : Env) (position : Position) (name : String) (v : Value) (args : List Value)
        (rest : List Pending),
        c.Operates env position (.invokeMember name args.length) (v :: args) rest →
          let offer := (c.store.runtime env.runtime).surface registry
          let read := (c.store.callRead registry env.runtime env.module name v args).1
          ∃ outcome t, c.store.CallsMember offer name v args outcome t.toHeap ∧
            (Machine.step setting)^[2] c = outcome.goOn env (.locate position :: rest) t ∧
            (∀ id, v = .space id → (∀ o, c.store.get? id name ≠ some (.object o)) → read = outcome) ∧
            ((∀ id, v ≠ .space id) →
              (∀ source ∈ offer.memberSources v,
                offer.named name source = ∅ ∧ offer.readable name source = ∅) → read = outcome) := by
  refine ⟨compile_withKind, ?_, ?_⟩
  · intro number source tree program compiled span inner target name kind args part places
    obtain ⟨w, code, w', made, inside⟩ := (compiled_of_compile compiled).part part rfl
    obtain ⟨codes, _, operands, rfl, -⟩ := made.operates rfl
    exact ⟨w, codes, _, operands, inside⟩
  · intro setting c moment env position name v args rest operates offer read
    have faithful : c.store.Faithful registry := (Invariant.faithful registry).moment moment
    have calls := faithful.dispatch_invokeMember env.runtime env.module name v args
    refine ⟨_, _, calls, ?_, ?_, fun plain free => ?_⟩
    · rw [operates.twice, moment.registry_eq]
    · rintro id rfl plain
      exact faithful.callRead_space env.runtime env.module calls plain
    · exact faithful.callRead_missing env.runtime env.module calls plain free

/-! ## A host with a property -/

/-- A type of instances that hold a value, with a property that reads it. -/
def box : TypeDraft :=
  (TypeDraft.named "Box")
    |>.constructor (.ofPayload [.ofType .any] fun args => .ok (.state (args.head?.getD .null)))
    |>.property (.onPayload Payload.state? "f" fun _ held => .pure (.value held))

/-- The types of a host that offers that one. -/
def boxHost : List TypeInfo × Registry := Registry.initial.registerAll [box]

/-- A session that builds a runtime with that type and makes a module for it. -/
def Turn.boxOpening : List Turn :=
  let ask (request : Request) : Turn := ⟨⟨boxHost.2, #[], .empty⟩, 0, request⟩
  [ask (.build [boxHost.1] [] defaultExtension), ask (.change fun h => h.newSpace.2)]

/-- The state of a machine that runs a source in that module, after a number of steps. -/
def Config.ofBoxSource (text : String) (n : Nat) : Option Config :=
  Turn.stateAfter Turn.boxOpening ⟨boxHost.2, #[], .empty⟩ (.source ⟨0⟩ ⟨1⟩ text) n

theorem Config.moment_ofBoxSource {text : String} {n : Nat} {c : Config}
    (h : ofBoxSource text n = some c) : Moment boxHost.2 ⟨boxHost.2, #[], .empty⟩ c := by
  refine Turn.moment_stateAfter (fun turn mem => ?_) rfl h
  simp only [Turn.boxOpening, List.mem_cons, List.not_mem_nil, or_false] at mem
  rcases mem with rfl | rfl <;> rfl

/-- The operation of which a machine has just got the last operand, on an instance and a number. -/
def Config.operates? (c : Config) : Option ((Env × HostObject × Int64) × Position × Signature) :=
  match c.control, c.stack with
  | .value (.int i), .operands env position signature [.object o] [] :: _ =>
    some ((env, o, i), position, signature)
  | _, _ => none

theorem Config.operates_of_operates? {c : Config} {env : Env} {o : HostObject} {i : Int64}
    {position : Position} {signature : Signature}
    (h : c.operates? = some ((env, o, i), position, signature)) :
    ∃ rest, c.Operates env position signature [.object o, .int i] rest := by
  obtain ⟨control, stack, s⟩ := c
  unfold operates? at h
  dsimp only at h
  split at h
  next rest =>
    cases h
    refine ⟨rest, ?_⟩
    show Config.Operates _ env position signature [.int i, .object o].reverse _
    exact .last rfl rfl
  next => cases h

/-- The span and the name of the call of a member that a source of two statements ends with. -/
def Node.lastCall? : Node → Option (Span × String)
  | .block _ [_, .plain _ (.call span (.member _ _ name _) [_])] => some (span, name)
  | _ => none

theorem Node.partOf_of_lastCall? {tree : Node} {span : Span} {name : String}
    (h : tree.lastCall? = some (span, name)) : ∃ inner target kind arg,
      (Node.call span (.member inner target name kind) [arg]).PartOf tree := by
  unfold lastCall? at h
  split at h
  next first _ _ inner target _ kind arg =>
    cases h
    exact ⟨inner, target, kind, arg,
      .child (List.mem_cons_of_mem first List.mem_cons_self) (.child List.mem_cons_self .self)⟩
  next => cases h

/-- A member in brackets that is called: its property holds a function, and the member is missing. -/
theorem member_calls_take_methods_box :
    let text := "var b = new Box(lambda(x) { return x + 1 }); (b.f)(2)"
    (∃ tree, parse text = .ok tree ∧
      compile 0 text.toList (tree.withKind .methodCall) = compile 0 text.toList tree ∧
      ∃ program codes, (compile 0 text.toList tree).1 = .ok program ∧
        (Code.dispatch ⟨1, 47⟩ (.invokeMember "f" 1) codes).PartOf program.code) ∧
    ∃ c rest t o, Config.ofBoxSource text 17 = some c ∧
      (Machine.step ⟨boxHost.2, #[], .empty⟩)^[2] c =
        ⟨.fail (.missingMember "f" (Value.object o).typeName), .locate ⟨1, 47⟩ :: rest, t⟩ := by
  intro text
  obtain ⟨kinds, calls, moments⟩ := member_calls_take_methods boxHost.2
  constructor
  · have shape : (parse text).toOption.any fun tree =>
        decide ((compile 0 text.toList tree).1.isOk = true ∧ (tree.lastCall?.map fun call =>
          ((LineIndex.ofSource text.toList).position call.1.start, call.2)) = some (⟨1, 47⟩, "f")) := by
      decide +kernel
    obtain ⟨tree, parsed, facts⟩ := parsed_of_any shape
    obtain ⟨compiles, called⟩ := of_decide_eq_true facts
    obtain ⟨⟨span, name⟩, found, same⟩ := Option.map_eq_some_iff.1 called
    obtain ⟨place, rfl⟩ := Prod.mk.inj same
    obtain ⟨inner, target, kind, arg, stands⟩ := Node.partOf_of_lastCall? found
    cases made : (compile 0 text.toList tree).1 with
    | error e =>
      rw [made] at compiles
      cases compiles
    | ok program =>
      obtain ⟨_, codes, _, -, part⟩ := calls _ _ _ _ made span inner target "f" kind [arg] stands
      exact ⟨tree, parsed, kinds 0 _ _ _, program, codes, made, place ▸ part⟩
  · have ends : (Config.ofBoxSource text 17).any fun c => c.operates?.any fun operation =>
        decide (operation.2 = (⟨1, 47⟩, .invokeMember "f" 1) ∧
          (Surface.methodsNamed ⟨boxHost.2, [], []⟩ "f" (operation.1.2.1.type, .target)).isEmpty =
            true) := by decide +kernel
    obtain ⟨c, starts, checked⟩ := (Option.any_eq_true _ _).1 ends
    obtain ⟨⟨⟨env, o, i⟩, position, signature⟩, operation, facts⟩ := (Option.any_eq_true _ _).1 checked
    obtain ⟨same, none⟩ := of_decide_eq_true facts
    obtain ⟨rfl, rfl⟩ := Prod.mk.inj same
    obtain ⟨rest, operates⟩ := Config.operates_of_operates? operation
    obtain ⟨outcome, t, called, steps, -⟩ :=
      moments _ c (Config.moment_ofBoxSource starts) env _ "f" (.object o) [.int i] rest operates
    have free : ∀ source ∈ [(o.type, Receiver.target)],
        ((c.store.runtime env.runtime).surface boxHost.2).named "f" source = ∅ :=
      List.forall_mem_singleton.2 ((Surface.methodsNamed_isEmpty_iff _).1 none)
    obtain rfl := called.eq_missing (fun _ => Value.noConfusion) free
    exact ⟨c, rest, t, o, starts, steps⟩

/-- **A function that a property holds is not called** through the property, neither where the property
stands before arguments nor where it stands in brackets of its own; it is when it has been read before. -/
theorem property_in_brackets_is_not_called :
    (match parse "var b = new Box(lambda(x) { return x + 1 }); (b.f)(2)" with
      | .ok (.block _ [_, .plain _ (.call _ (.member _ (.named _ "b") "f" .get) [_])]) => true
      | _ => false) = true ∧
    (Config.ofBoxSource "var b = new Box(lambda(x) { return x + 1 }); (b.f)(2)" 21).bind
        Config.failure? = some ⟨.missingMember "f" "Box", some ⟨1, 47⟩⟩ ∧
    ((Config.ofBoxSource "var b = new Box(lambda(x) { return x + 1 }); var g = b.f; g(2)" 40).bind
        Machine.answer?).any (fun answer => answer.toOption.any fun v => v.number? = some 3) = true := by
  decide +kernel

end HostScript
