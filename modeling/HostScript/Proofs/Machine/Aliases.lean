import HostScript.Proofs.Compile.Bare
import HostScript.Proofs.Estate.Instances
import HostScript.Proofs.Host.Published
import HostScript.Proofs.Machine.Outcomes

/-!
# Proofs/Machine/Aliases — calls by an alias

An import binds what a path of names leads to under another name.  A call by that name and a call through
the path are different operations: one looks the name up when the arguments are there, the other one reads the
path up to its last name before them.  Where the name and the path lead to one value when the arguments are
there, both do the same with it (`aliases_called_alike`), unless it is an instance: that is called under the
name that stands before the arguments.
-/

namespace HostScript

/-! ## Paths -/

/-- A path of names as an expression. -/
inductive Node.Spells : List String → Node → Prop where
  | named {span : Span} {name : String} : Spells [name] (.named span name)
  | member {path : List String} {target : Node} {span : Span} {name : String} {kind : MemberKind} :
    Spells path target → Spells (path ++ [name]) (.member span target name kind)

/-- The code that reads a path of names which no scope declares. -/
inductive Code.Reads : List String → Code → Prop where
  | lookup {position : Position} {name : String} : Reads [name] (.dispatch position (.lookup name) [])
  | member {path : List String} {code : Code} {position : Position} {name : String} :
    Reads path code → Reads (path ++ [name]) (.dispatch position (.getMember name) [code])

theorem Node.Spells.ne_nil {path : List String} {tree : Node} (h : tree.Spells path) : path ≠ [] := by
  cases h with
  | named => exact List.cons_ne_nil _ _
  | member => exact List.concat_ne_nil _ _

theorem Code.Reads.ne_nil {path : List String} {code : Code} (h : code.Reads path) : path ≠ [] := by
  cases h with
  | lookup => exact List.cons_ne_nil _ _
  | member => exact List.concat_ne_nil _ _

/-- The code that calls what a path of names leads to. -/
inductive Code.CallsPath (codes : List Code) : List String → Code → Prop where
  | name {position : Position} {name : String} :
    CallsPath codes [name] (.dispatch position (.call name codes.length) codes)
  | member {path : List String} {target : Code} {position : Position} {name : String} :
    Reads path target → CallsPath codes (path ++ [name])
      (.dispatch position (.invokeMember name codes.length) (target :: codes))

/-- A path of names is a program wherever it stands. -/
theorem Node.Spells.wellPlaced {path : List String} {tree : Node} (h : tree.Spells path)
    (around : List Body) : ∀ c ∈ tree.constructs around, c.2.WellPlaced c.1 := by
  induction h with
  | named => exact List.forall_mem_singleton.2 trivial
  | member _ ih => exact List.forall_mem_cons.2 ⟨trivial, ih⟩

/-- A call through a path is a program where its arguments are. -/
theorem Node.Spells.wellPlaced_call {path : List String} {tree : Node} (h : tree.Spells path)
    (around : List Body) (span : Span) (args : List Node) :
    (∀ c ∈ (Node.call span tree args).constructs around, c.2.WellPlaced c.1) ↔
      ∀ c ∈ Node.constructsOf around args, c.2.WellPlaced c.1 := by
  rw [Node.constructs, List.forall_mem_cons, List.forall_mem_append]
  exact ⟨fun all => all.2.2, fun args => ⟨trivial, h.wellPlaced around, args⟩⟩

theorem Code.CallsPath.member_inv {codes : List Code} {path : List String} {name : String} {code : Code}
    (h : code.CallsPath codes (path ++ [name])) (some : path ≠ []) :
    ∃ position target, target.Reads path ∧
      code = .dispatch position (.invokeMember name codes.length) (target :: codes) := by
  generalize whole : path ++ [name] = all at h
  cases h with
  | name =>
    obtain ⟨rfl, -⟩ := List.append_inj' (whole.trans (List.nil_append _).symm) rfl
    exact absurd rfl some
  | member reads =>
    obtain ⟨rfl, same⟩ := List.append_inj' whole rfl
    obtain rfl := List.head_eq_of_cons_eq same
    exact ⟨_, _, reads, rfl⟩

namespace Compile

variable {places : Places} {w w' : Workspace} {path : List String} {tree : Node}

theorem yields_path (h : tree.Spells path) (unknown : ∀ first ∈ path.head?, w.scopes.find? first = none)
    (places : Places) :
    ∃ code w', Yields (node places tree) w code w' ∧ code.Reads path ∧ w'.asking [] = w.asking [] := by
  induction h with
  | named => exact ⟨_, _, compiles_node_iff.2 (.lookup (unknown _ rfl)), .lookup, rfl⟩
  | member spells ih =>
    rw [List.head?_append_of_ne_nil _ spells.ne_nil] at unknown
    obtain ⟨code, w', made, reads, same⟩ := ih unknown
    exact ⟨_, _, .of_operation rfl (made.of_cons (.of_nil w')), .member reads, same⟩

/-- **A call through a path** is compiled just as its arguments are. -/
theorem yields_callPath {around : List Body} {v : Workspace} {args args' : List Node} {codes : List Code}
    (h : tree.Spells path) (unknown : ∀ first ∈ path.head?, w.scopes.find? first = none)
    (alike : w.asking [] = v.asking []) (stands : w.scopes.Stand around) (same : SameTrees args args')
    (made : Yields (nodes places args) w codes w') (places' : Places) (span : Span) :
    ∃ code codes' v', Yields (node places' (.call span tree args')) v code v' ∧
      code.CallsPath codes' path ∧ Code.unplacedAll codes = Code.unplacedAll codes' ∧
        w'.asking [] = v'.asking [] := by
  have scopes : w.scopes = v.scopes := by
    show (w.asking []).scopes = (v.asking []).scopes
    rw [alike]
  cases h with
  | named =>
    obtain ⟨codes', v', made', unplaced, after⟩ := same.yields alike stands made places'
    have missing : v.scopes.find? _ = none := scopes ▸ unknown _ rfl
    exact ⟨_, codes', _, compiles_node_iff.2 (.call missing (derives_nodes places' args' made')), .name,
      unplaced, after⟩
  | @member _ object inner name kind spells =>
    rw [List.head?_append_of_ne_nil _ spells.ne_nil, scopes] at unknown
    obtain ⟨target, between, read, reads, quiet⟩ := yields_path spells unknown places'
    obtain ⟨codes', v', made', unplaced, after⟩ :=
      same.yields (alike.trans quiet.symm) stands made places'
    have called := @Yields.of_operation places' (.call span (.member inner object name kind) args')
      (.invokeMember name args'.length) _ v v' _ rfl (read.of_cons made')
    rw [← made'.length_eq] at called
    exact ⟨_, codes', _, called, .member reads, unplaced, after⟩

end Compile

/-! ## What leads where -/

namespace Store

variable {registry : Registry} {s t : Store} {rt : RuntimeId} {root : NamespaceId} {path : List String}

theorem lookUpPath_of_walk {id : NamespaceId} (leads : s.toHeap.walk root path = some id)
    (some : path ≠ []) : s.lookUpPath root path = Option.some (.space id) := by
  obtain ⟨front, last, rfl⟩ := (List.eq_nil_or_concat path).resolve_left some
  rw [List.concat_eq_append] at leads ⊢
  rw [Heap.walk_concat] at leads
  obtain ⟨inner, front_leads, last_leads⟩ := Option.bind_eq_some_iff.1 leads
  rw [lookUpPath_concat, Heap.find?_of_walk front_leads]
  exact Heap.get?_of_inner? last_leads

/-- **A name and a path lead to one value**: the module binds the name to it, the path leads to it from the
globals, in a namespace to be found there, and the module does not bind the first name of the path. -/
structure Aliased (s : Store) (env : Env) (name : String) (front : List String) (last : String)
    (id : NamespaceId) (v : Value) : Prop where
  bound : s.get? env.module name = some v
  free : ∀ first ∈ (front ++ [last]).head?, s.get? env.module first = none
  holder : s.toHeap.walk (s.runtime env.runtime).globals front = some id
  entry : s.get? id last = some v

theorem Aliased.leads {env : Env} {name last : String} {front : List String} {id : NamespaceId} {v : Value}
    (h : s.Aliased env name front last id v) :
    s.lookUpPath (s.runtime env.runtime).globals (front ++ [last]) = some v := by
  rw [lookUpPath_concat, Heap.find?_of_walk h.holder]
  exact h.entry

/-- A path that does not go through what is bound leads where it led before. -/
theorem walk_bind_of_apart {h : Heap} {place : NamespaceId} {name : String} {v : Value}
    (apart : ∀ before part after, path = before ++ part :: after → h.walk root before = some place →
      Text.fold part ≠ Text.fold name) :
    (h.bind place name v).walk root path = h.walk root path := by
  induction path using List.reverseRecOn with
  | nil => rfl
  | append_singleton path part ih =>
    rw [Heap.walk_concat, Heap.walk_concat, ih fun before other after split => by
      exact apart before other (after ++ [part]) (by rw [split, List.append_assoc, List.cons_append])]
    cases leads : h.walk root path with
    | none => rfl
    | some id =>
      have kept : (h.bind place name v).get? id part = h.get? id part := by
        refine Heap.get?_bind_of_ne ?_
        rintro ⟨rfl, same⟩
        exact apart path part [] rfl leads same
      rw [Option.bind_some, Option.bind_some, Heap.inner?, Heap.inner?, kept]

/-- **Binding a name to what a path leads to** makes it an alias, if the path does not go through what is
bound. -/
theorem aliased_bind {env : Env} {name last : String} {front : List String} {id : NamespaceId} {v : Value}
    (inside : env.module.index < s.namespaces.size)
    (free : ∀ first ∈ (front ++ [last]).head?,
      s.get? env.module first = none ∧ Text.fold first ≠ Text.fold name)
    (apart : ∀ before part after, front = before ++ part :: after →
      s.toHeap.walk (s.runtime env.runtime).globals before = some env.module →
        Text.fold part ≠ Text.fold name)
    (holder : s.toHeap.walk (s.runtime env.runtime).globals front = some id)
    (entry : s.get? id last = some v) :
    (s.bind env.module name v).Aliased env name front last id v where
  bound := Heap.get?_bind_self inside rfl
  free first mem := by
    obtain ⟨unbound, other⟩ := free first mem
    exact (Heap.get?_bind_of_ne fun both => other both.2).trans unbound
  holder := (walk_bind_of_apart apart).trans holder
  entry := by
    by_cases same : id = env.module ∧ Text.fold last = Text.fold name
    · obtain ⟨rfl, same⟩ := same
      exact Heap.get?_bind_self inside same
    · exact (Heap.get?_bind_of_ne same).trans entry

/-- **An operation that changes nothing** afresh changes nothing but rules. -/
theorem Faithful.dispatch_quiet (h : s.Faithful registry) {module : NamespaceId} {signature : Signature}
    {args : List Value} {outcome : Outcome}
    (afresh : s.dispatchAfresh registry rt module signature args = (outcome, s)) :
    (s.dispatch registry rt module signature args).1 = outcome ∧
      (s.dispatch registry rt module signature args).2.Alike s := by
  obtain ⟨same, alike⟩ := h.agree_dispatch (.refl s) rt module signature args
  rw [afresh] at same alike
  exact ⟨same, alike⟩

section

variable {module id : NamespaceId} {name : String} {v : Value}

theorem dispatchAfresh_lookup (found : s.named? (s.runtime rt).globals module name = some v) :
    s.dispatchAfresh registry rt module (.lookup name) [] = (.value v, s) := by
  show s.perform registry (s.runtime rt).globals module .lookup (.lookup name) [] = _
  unfold Store.perform
  dsimp only [Signature.lookup]
  rw [found]

theorem dispatchAfresh_getMember (found : s.get? id name = some v) :
    s.dispatchAfresh registry rt module (.getMember name) [.space id] = (.value v, s) := by
  show (s.spaceGet id name, s) = _
  rw [spaceGet, found]

theorem dispatchAfresh_call (found : s.named? (s.runtime rt).globals module name = some v) (arity : Nat)
    (args : List Value) :
    s.dispatchAfresh registry rt module (.call name arity) args = (.ofCall (some name) v args, s) := by
  show s.perform registry (s.runtime rt).globals module (.callNamed _) (.call name arity) args = _
  unfold Store.perform
  dsimp only [Signature.call]
  rw [found]

theorem dispatchAfresh_invokeMember (found : s.get? id name = some v) (arity : Nat) (args : List Value) :
    s.dispatchAfresh registry rt module (.invokeMember name arity) (.space id :: args) =
      (.ofCall (some name) v args, s) := by
  show s.perform registry (s.runtime rt).globals module .namespaceInvoke (.invokeMember name arity)
    (.space id :: args) = _
  unfold Store.perform
  dsimp only [Signature.invokeMember]
  rw [found]

end

end Store

/-! ## Runs -/

namespace Machine

variable {setting : Setting} {env : Env} {s t : Store} {v : Value} {stack : List Pending}
  {path front : List String} {name last : String} {id : NamespaceId} {position : Position}

/-- **An import binds what its path leads to.** -/
theorem iterate_importAs (leads : s.lookUpPath (s.runtime env.runtime).globals path = some v) :
    (step setting)^[3] ⟨.eval env (.importAs position path name), stack, s⟩ =
      ⟨.value .null, stack, s.bind env.module name v⟩ := by
  show step setting (step setting (importPath setting env path
    (.locate position :: .bind env.module name :: stack) s)) = _
  unfold importPath
  rw [leads]
  rfl

theorem step_quiet (faithful : s.Faithful setting.registry) {signature : Signature} {args : List Value}
    {outcome : Outcome}
    (afresh : s.dispatchAfresh setting.registry env.runtime env.module signature args = (outcome, s)) :
    ∃ t, step setting (operate env position signature args stack s) =
      outcome.goOn env (.locate position :: stack) t ∧ t.Alike s ∧ t.Faithful setting.registry := by
  obtain ⟨same, alike⟩ := faithful.dispatch_quiet afresh
  refine ⟨_, ?_, alike, faithful.dispatch env.runtime env.module signature args⟩
  rw [operate, step_dispatch, same]

/-- **Reading a path** comes to what it leads to: by induction on the path, from its first name on. -/
theorem iterate_reads {code : Code} (reads : code.Reads path) (faithful : s.Faithful setting.registry)
    (free : ∀ first ∈ path.head?, s.get? env.module first = none)
    (leads : s.lookUpPath (s.runtime env.runtime).globals path = some v) :
    ∃ n t, (step setting)^[n] ⟨.eval env code, stack, s⟩ = ⟨.value v, stack, t⟩ ∧ t.Alike s ∧
      t.Faithful setting.registry := by
  induction reads generalizing v stack with
  | @lookup position name =>
    have found : s.named? (s.runtime env.runtime).globals env.module name = some v := by
      rw [Store.named?, free _ rfl]
      exact leads
    obtain ⟨t, made, alike, kept⟩ :=
      step_quiet faithful (Store.dispatchAfresh_lookup found)
    refine ⟨3, t, ?_, alike, kept⟩
    show step setting (step setting (operate env position (.lookup name) [] stack s)) = _
    rw [made]
    rfl
  | @member path code position name inner ih =>
    rw [List.head?_append_of_ne_nil _ inner.ne_nil] at free
    rw [Store.lookUpPath_concat] at leads
    obtain ⟨id, walks, bound⟩ := Option.bind_eq_some_iff.1 leads
    obtain ⟨n, t, ran, alike, kept⟩ : ∃ n t, (step setting)^[n]
        ⟨.eval env code, .operands env position (.getMember name) [] [] :: stack, s⟩ =
          ⟨.value (.space id), .operands env position (.getMember name) [] [] :: stack, t⟩ ∧
        t.Alike s ∧ t.Faithful setting.registry :=
      ih free (Store.lookUpPath_of_walk walks inner.ne_nil)
    have bound : t.get? id name = some v := by rwa [alike.heap]
    obtain ⟨u, made, more, kept⟩ := step_quiet kept (Store.dispatchAfresh_getMember bound)
    refine ⟨3 + (n + 1), u, ?_, more.trans alike, kept⟩
    rw [Function.iterate_add_apply, Function.iterate_succ_apply]
    show (step setting)^[3] ((step setting)^[n] ⟨.eval env code, _, s⟩) = _
    rw [ran]
    show step setting (step setting (operate env position (.getMember name) [.space id] stack t)) = _
    rw [made]
    rfl

/-- An operation on a path waits for its other operands. -/
theorem iterate_operand {target : Code} (reads : target.Reads path) (faithful : s.Faithful setting.registry)
    (free : ∀ first ∈ path.head?, s.get? env.module first = none)
    (leads : s.lookUpPath (s.runtime env.runtime).globals path = some v) (signature : Signature)
    (codes : List Code) :
    ∃ n t, (step setting)^[n] ⟨.eval env (.dispatch position signature (target :: codes)), stack, s⟩ =
        awaiting env position signature [v] codes stack t ∧
      t.Alike s ∧ t.Faithful setting.registry := by
  obtain ⟨n, t, ran, alike, kept⟩ : ∃ n t, (step setting)^[n]
      ⟨.eval env target, .operands env position signature [] codes :: stack, s⟩ =
        ⟨.value v, .operands env position signature [] codes :: stack, t⟩ ∧
      t.Alike s ∧ t.Faithful setting.registry := iterate_reads reads faithful free leads
  refine ⟨1 + (n + 1), t, ?_, alike, kept⟩
  rw [Function.iterate_add_apply, Function.iterate_succ_apply]
  show step setting ((step setting)^[n] ⟨.eval env target, _, s⟩) = _
  rw [ran]
  exact step_operand v codes t

/-- **A call through a path waits for its arguments**, and calls what the path leads to when they are
there. -/
theorem iterate_callsPath {code : Code} {codes : List Code} (calls : code.CallsPath codes (front ++ [last]))
    (faithful : s.Faithful setting.registry) (aliased : s.Aliased env name front last id v) :
    ∃ n t position signature done,
      (step setting)^[n] ⟨.eval env code, stack, s⟩ = awaiting env position signature done codes stack t ∧
        t.Alike s ∧ t.Faithful setting.registry ∧
        ∀ (u : Store) (vs : List Value), u.Aliased env name front last id v →
          u.dispatchAfresh setting.registry env.runtime env.module signature (done.reverse ++ vs) =
            (.ofCall (some last) v vs, u) := by
  generalize whole : front ++ [last] = path at calls
  cases calls with
  | @name position last =>
    obtain ⟨rfl, same⟩ := List.append_inj' (whole.trans (List.nil_append _).symm) rfl
    obtain rfl := List.head_eq_of_cons_eq same
    refine ⟨1, s, position, _, [], step_operation codes s, .refl s, faithful, fun u vs there => ?_⟩
    obtain rfl := Option.some.inj there.holder
    refine Store.dispatchAfresh_call ?_ _ vs
    rw [Store.named?, there.free _ rfl]
    exact there.entry
  | @member path target position name reads =>
    obtain ⟨rfl, same⟩ := List.append_inj' whole rfl
    obtain rfl := List.head_eq_of_cons_eq same
    have free := aliased.free
    rw [List.head?_append_of_ne_nil _ reads.ne_nil] at free
    have leads := Store.lookUpPath_of_walk aliased.holder reads.ne_nil
    obtain ⟨n, t, waits, alike, kept⟩ := iterate_operand reads faithful free leads _ codes
    exact ⟨n, t, position, _, [.space id], waits, alike, kept, fun u vs there =>
      Store.dispatchAfresh_invokeMember there.entry _ vs⟩

/-- Operations with one outcome that change nothing. -/
theorem SameOutcome.operate {q : Position} {signature signature' : Signature} {args args' : List Value}
    {outcome : Outcome} (similar : s.Similar t) (left : s.Faithful setting.registry)
    (right : t.Faithful setting.registry)
    (first : s.dispatchAfresh setting.registry env.runtime env.module signature args = (outcome, s))
    (second : t.dispatchAfresh setting.registry env.runtime env.module signature' args' = (outcome, t)) :
    SameOutcome setting (Machine.operate env position signature args stack s)
      (Machine.operate env q signature' args' stack t) := by
  obtain ⟨s', made, alike, left⟩ := step_quiet left first
  obtain ⟨t', made', alike', right⟩ := step_quiet right second
  have after : s'.Similar t' := alike.similar.trans (similar.trans alike'.similar.symm)
  refine of_iterate (n := 1) (m := 1) ?_
  rw [Function.iterate_one, made, made']
  cases outcome with
  | reply r => exact of_similar ⟨rfl, rfl, after⟩ left right
  | dispatch => exact of_similar ⟨rfl, rfl, after⟩ left right

theorem Operands.length_eq {codes : List Code} {vs : List Value} (h : Operands setting env codes s vs t) :
    vs.length = codes.length := by
  induction h with
  | nil => rfl
  | cons _ _ ih => exact congrArg (· + 1) ih

end Machine

/-- What leads where is the same in similar stores. -/
theorem Store.Aliased.of_similar {s t : Store} {env : Env} {name last : String} {front : List String}
    {id : NamespaceId} {v : Value} (h : s.Aliased env name front last id v) (similar : s.Similar t) :
    t.Aliased env name front last id v := by
  have heap := similar.heap
  have alike : s.unplaced.Alike t.unplaced := similar
  have globals : (s.runtime env.runtime).globals = (t.runtime env.runtime).globals :=
    alike.globals env.runtime
  exact ⟨heap ▸ h.bound, heap ▸ h.free, heap ▸ globals ▸ h.holder, heap ▸ h.entry⟩

namespace Machine

variable {setting : Setting} {env : Env} {s : Store} {v : Value} {stack : List Pending} {front : List String}
  {name last : String} {id : NamespaceId} {position : Position} {code : Code} {codes codes' : List Code}

/-- **A call by an alias and a call through the path** have the same outcome, where what is called does not
depend on the name before the arguments. -/
theorem sameOutcome_call (calls : code.CallsPath codes' (front ++ [last]))
    (same : Code.unplacedAll codes = Code.unplacedAll codes') (faithful : s.Faithful setting.registry)
    (aliased : s.Aliased env name front last id v)
    (stays : ∀ vs t, Operands setting env codes s vs t → t.Aliased env name front last id v)
    (plain : ∀ args, Outcome.ofCall (some name) v args = .ofCall (some last) v args) :
    SameOutcome setting ⟨.eval env (.dispatch position (.call name codes.length) codes), stack, s⟩
      ⟨.eval env code, stack, s⟩ := by
  obtain ⟨n, s', q, signature, done, ran, alike, kept, asks⟩ := iterate_callsPath calls faithful aliased
  refine .of_iterate (n := 1) (m := n) ?_
  rw [Function.iterate_one, step_operation, ran]
  refine .awaiting same alike.similar.symm faithful kept fun vs t t' operands similar left right => ?_
  have there := stays vs t operands
  have bound : t.named? (t.runtime env.runtime).globals env.module name = some v := by
    rw [Store.named?, there.bound]
    rfl
  have first : t.dispatchAfresh setting.registry env.runtime env.module (.call name codes.length) vs =
      (.ofCall (some name) v vs, t) := Store.dispatchAfresh_call bound codes.length vs
  rw [plain] at first
  exact .operate similar left right first (asks t' vs (there.of_similar similar))

/-- **A call by an alias of an instance** is a call of the instance's member of that name. -/
theorem sameOutcome_member {o : HostObject} {q : Position} {target : Code}
    (reads : target.Reads (front ++ [last])) (same : Code.unplacedAll codes = Code.unplacedAll codes')
    (faithful : s.Faithful setting.registry) (aliased : s.Aliased env name front last id (.object o))
    (stays : ∀ vs t, Operands setting env codes s vs t → t.Aliased env name front last id (.object o)) :
    SameOutcome setting ⟨.eval env (.dispatch position (.call name codes.length) codes), stack, s⟩
      ⟨.eval env (.dispatch q (.invokeMember name codes'.length) (target :: codes')), stack, s⟩ := by
  obtain ⟨n, s', waits, alike, kept⟩ := iterate_operand reads faithful aliased.free aliased.leads
    (.invokeMember name codes'.length) codes'
  refine .of_iterate (n := 1) (m := n) ?_
  rw [Function.iterate_one, step_operation, waits]
  refine .awaiting same alike.similar.symm faithful kept fun vs t t' operands similar left right => ?_
  have there := stays vs t operands
  have bound : t.named? (t.runtime env.runtime).globals env.module name = some (.object o) := by
    rw [Store.named?, there.bound]
    rfl
  obtain ⟨u, made, more, kept⟩ := step_quiet left (Store.dispatchAfresh_call bound codes.length vs)
  have arity : codes'.length = vs.length := by
    rw [operands.length_eq, ← Code.length_unplacedAll codes, same, Code.length_unplacedAll]
  refine .of_iterate (n := 1) (m := 0) ?_
  rw [Function.iterate_one, List.reverse_nil, List.nil_append, made, arity]
  exact .of_similar ⟨rfl, rfl, more.similar.trans similar⟩ kept right

end Machine

open Compile in
/-- **A call by an alias is the call through the path, but for instances.**  An import of a path that leads
to a value binds its name to the value and makes it an alias, where the module does not bind the first name of
the path and the path does not go through what the import binds.

Let a name and a path be known to no scope.  Then a call by the name is a program just if the call through
the path is.  From every state whose store makes the name an alias, and where the arguments leave it one, if
they come to values:

* both calls have the same outcome, unless the path leads to an instance under another name;
* if it leads to an instance, the call by the name has the outcome of calling the member of that name of
  what the path leads to. -/
theorem calls_by_alias (setting : Setting) :
    (∀ (env : Env) (position : Position) (front : List String) (last name : String) (id : NamespaceId)
      (x : Value) (stack : List Pending) (s : Store), env.module.index < s.namespaces.size →
        (∀ first ∈ (front ++ [last]).head?,
          s.get? env.module first = none ∧ Text.fold first ≠ Text.fold name) →
        (∀ before part after, front = before ++ part :: after →
          s.toHeap.walk (s.runtime env.runtime).globals before = some env.module →
            Text.fold part ≠ Text.fold name) →
        s.toHeap.walk (s.runtime env.runtime).globals front = some id → s.get? id last = some x →
          (Machine.step setting)^[3]
              ⟨.eval env (.importAs position (front ++ [last]) name), stack, s⟩ =
            ⟨.value .null, stack, s.bind env.module name x⟩ ∧
          (s.bind env.module name x).Aliased env name front last id x) ∧
    ∀ (places places' : Places) (w v : Workspace) (around : List Body) (name last : String)
      (front : List String) (callee : Node) (args args' : List Node) (span inner other outer : Span)
      (kind : MemberKind), w.scopes.Stand around → w.asking [] = v.asking [] →
        w.scopes.find? name = none → (∀ first ∈ (front ++ [last]).head?, w.scopes.find? first = none) →
        callee.Spells (front ++ [last]) → SameTrees args args' →
        ((∃ code w', Yields (node places (.call span (.named inner name) args)) w code w') ↔
          ∃ code v', Yields (node places' (.call other callee args')) v code v') ∧
        ∀ code w', Yields (node places (.call span (.named inner name) args)) w code w' →
          ∃ codes through v₁ member v₂,
            code = .dispatch (places span) (.call name codes.length) codes ∧
            Yields (node places' (.call other callee args')) v through v₁ ∧
            Yields (node places' (.call other (.member outer callee name kind) args')) v member v₂ ∧
            ∀ (env : Env) (stack : List Pending) (s : Store) (id : NamespaceId) (x : Value),
              s.Faithful setting.registry → s.Aliased env name front last id x →
              (∀ vs t, Machine.Operands setting env codes s vs t → t.Aliased env name front last id x) →
                ((∀ o, x ≠ .object o) ∨ name = last →
                  Machine.SameOutcome setting ⟨.eval env code, stack, s⟩ ⟨.eval env through, stack, s⟩) ∧
                ∀ o, x = .object o →
                  Machine.SameOutcome setting ⟨.eval env code, stack, s⟩ ⟨.eval env member, stack, s⟩ := by
  constructor
  · intro env position front last name id x stack s inside free apart holder entry
    have leads : s.lookUpPath (s.runtime env.runtime).globals (front ++ [last]) = some x := by
      rw [Store.lookUpPath_concat, Heap.find?_of_walk holder]
      exact entry
    exact ⟨Machine.iterate_importAs leads, Store.aliased_bind inside free apart holder entry⟩
  · intro places places' w v around name last front callee args args' span inner other outer kind stands
      alike unknown unknown_first spells same
    have scopes : w.scopes = v.scopes := by
      show (w.asking []).scopes = (v.asking []).scopes
      rw [alike]
    constructor
    · rw [yields_node_iff stands, yields_node_iff (scopes ▸ stands), spells.wellPlaced_call,
        Node.Spells.named.wellPlaced_call]
      exact same.wellPlaced around
    · intro code w' compiled
      obtain ⟨codes, between, made, ⟨slot, known, -⟩ | ⟨-, rfl, -⟩⟩ := compiled.callName
      · cases unknown.symm.trans known
      have unknown_member : ∀ first ∈ (front ++ [last] ++ [name]).head?, w.scopes.find? first = none := by
        rwa [List.head?_append_of_ne_nil _ spells.ne_nil]
      obtain ⟨through, codes₁, v₁, made₁, calls, same₁, -⟩ :=
        yields_callPath spells unknown_first alike stands same made places' other
      obtain ⟨member, codes₂, v₂, made₂, asks, same₂, -⟩ :=
        yields_callPath (.member spells) unknown_member alike stands same made places' other
      refine ⟨codes, through, v₁, member, v₂, rfl, made₁, made₂, ?_⟩
      intro env stack s id x faithful aliased stays
      refine ⟨fun plain => ?_, ?_⟩
      · refine Machine.sameOutcome_call calls same₁ faithful aliased stays fun args => ?_
        rcases plain with plain | rfl
        · rw [Outcome.ofCall_some plain, Outcome.ofCall_some plain]
        · rfl
      · rintro o rfl
        obtain ⟨q, target, reads, rfl⟩ := asks.member_inv spells.ne_nil
        exact Machine.sameOutcome_member reads same₂ faithful aliased stays

/-! ## An alias of a function -/

/-- A setting with one function, which answers 1. -/
def oneSetting : Setting := ⟨.initial, #[fun _ => .pure (.value (.int 1))], .empty⟩

/-- The module in which it is asked for. -/
def oneEnv : Env := ⟨⟨0⟩, ⟨2⟩, ⟨0⟩⟩

/-- A store in which that function is `m.f`, with a runtime and a module without names. -/
def oneStore : Store :=
  let (load, s) := (Store.empty.buildRuntime .initial [] [] "").2.beginLoad ⟨0⟩ "m"
  let (f, s) := s.newFunction (.native "one" 0 0)
  (s.bind load.module "f" (.function f)).newSpace.2

theorem faithful_oneStore : oneStore.Faithful oneSetting.registry :=
  have built : (Store.empty.buildRuntime .initial [] [] "").2.Faithful .initial :=
    (Store.withNewRuntime_buildRuntime _ _ _ _ _).faithful Store.faithful_empty
  built.of_runtimes rfl

/-- The workspace in which a source is compiled. -/
def oneWorkspace : Compile.Workspace := ⟨0, ⟨0, 1⟩, [], [.module ⟨0, 0⟩]⟩

/-- After `import m.f as g`, the calls `g()` and `m.f()` have the same outcome. -/
theorem calls_by_alias_one :
    ∃ t codes through v₁, (Machine.step oneSetting)^[3]
        ⟨.eval oneEnv (.importAs ⟨1, 1⟩ ["m", "f"] "g"), [], oneStore⟩ = ⟨.value .null, [], t⟩ ∧
      Compile.Yields (Compile.node Compile.nowhere
        (.call .none (.member .none (.named .none "m") "f" .methodCall) [])) oneWorkspace through v₁ ∧
      Machine.SameOutcome oneSetting ⟨.eval oneEnv (.dispatch .nowhere (.call "g" 0) codes), [], t⟩
        ⟨.eval oneEnv through, [], t⟩ := by
  have entry : oneStore.get? ⟨1⟩ "f" = some (.function ⟨⟨0⟩, "one", 0⟩) := rfl
  have free : oneStore.get? ⟨2⟩ "m" = none := rfl
  have holder : oneStore.toHeap.walk (oneStore.runtime ⟨0⟩).globals ["m"] = some ⟨1⟩ := rfl
  obtain ⟨imports, calls⟩ := calls_by_alias oneSetting
  have apart (before : List String) (part : String) (after : List String)
      (split : ["m"] = before ++ part :: after)
      (leads : oneStore.toHeap.walk (oneStore.runtime ⟨0⟩).globals before = some ⟨2⟩) :
      Text.fold part ≠ Text.fold "g" := by
    cases before with
    | nil => cases (show some (⟨0⟩ : NamespaceId) = some ⟨2⟩ from leads)
    | cons _ before => cases before <;> cases split
  obtain ⟨bound, aliased⟩ := imports oneEnv ⟨1, 1⟩ ["m"] "f" "g" ⟨1⟩ _ [] oneStore (by decide)
    (fun first mem => Option.some.inj mem ▸ ⟨free, by decide +kernel⟩) apart holder entry
  have stands : oneWorkspace.scopes.Stand [] := rfl
  have spells : (Node.member .none (.named .none "m") "f" .methodCall).Spells (["m"] ++ ["f"]) :=
    .member .named
  have compiled : Compile.Yields (Compile.node Compile.nowhere (.call .none (.named .none "g") []))
      oneWorkspace _ _ := Compile.compiles_node_iff.2 (.call rfl .nil)
  obtain ⟨-, outcome⟩ := calls Compile.nowhere Compile.nowhere oneWorkspace oneWorkspace [] "g" "f" ["m"]
    (.member .none (.named .none "m") "f" .methodCall) [] [] .none .none .none .none .get stands rfl rfl
    (fun first mem => Option.some.inj mem ▸ rfl) spells rfl
  obtain ⟨codes, through, v₁, _, _, same, reads, -, runs⟩ := outcome _ _ compiled
  obtain ⟨-, -, rfl⟩ := Code.dispatch.inj same
  have kept : (oneStore.bind ⟨2⟩ "g" (.function ⟨⟨0⟩, "one", 0⟩)).Faithful oneSetting.registry :=
    faithful_oneStore.of_runtimes rfl
  refine ⟨_, [], through, v₁, bound, reads, ?_⟩
  refine (runs oneEnv [] _ ⟨1⟩ _ kept aliased fun vs t operands => ?_).1 (.inl nofun)
  cases operands
  exact aliased

/-! ## Aliases that part -/

/-- What a source comes to with two counters: a number, or the cause of a failure. -/
def tallied (text : String) : Option (Option Int64 × Option EvalError.Cause) :=
  match tallyBegun text with
  | .running c => (Machine.run tallySetting 60 c).map fun
    | (.ok v, _) => (v.number?, none)
    | (.error e, _) => (none, some e.cause)
  | .done _ _ => none

/-- The beginning of a source that puts a function into a namespace and imports it under another name. -/
def importing : String := "Counter.f = lambda(x) { return 1 }; import Counter.f as g; "

/-- **An instance is not called by an alias of its method**, since the counter has no member of that name;
and an argument may bind the last name of the path to another function, which only a call through the path
then calls. -/
theorem aliases_part :
    tallied "import Counter.Bump as b; b()" = some (none, some (.missingMember "b" "Counter")) ∧
      tallied "import Counter.Bump as b; Counter.Bump()" = some (some 2, none) ∧
      tallied (importing ++ "g(Counter.f = lambda(x) { return 2 })") = some (some 1, none) ∧
      tallied (importing ++ "Counter.f(Counter.f = lambda(x) { return 2 })") =
        some (some 2, none) := by
  decide +kernel

end HostScript
