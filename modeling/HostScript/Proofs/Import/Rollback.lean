import HostScript.Proofs.Import.Bounded
import HostScript.Proofs.Machine.Above

/-!
# Proofs/Import/Rollback — loads that fail leave no trace

While a file is being loaded, files that it imports are loaded inside, and so on.  `Fate` says what may
have become of a global name meanwhile: it is bound as it was before, it is being loaded, or it has been
loaded.  A load binds only names that are not bound, so when it fails its name is unbound again, and when a
load is over no name is being loaded inside it.  So a host that runs a file as a module of its own finds
the names as they were but for modules of files that have been loaded (`failed_loads_restore`).
-/

namespace HostScript

variable {root : NamespaceId}

/-! ## What becomes of a name -/

/-- **What has become of a name** that was bound in some way before the steps that the machine has made. -/
inductive Fate (root : NamespaceId) (before : Option (String × Value)) (past : List Config) (name : String)
    (c : Config) : Prop where
  | untouched : (c.store.space root).binding? name = before →
    (∀ l ∈ loadsOf root c.stack, Text.fold name ≠ Text.fold l.name) → Fate root before past name c
  | loading (l : Load) : before = none → l ∈ loadsOf root c.stack → Text.fold name = Text.fold l.name →
    l.previous? = none → (c.store.space root).binding? name = some (l.name, .space l.module) →
      Fate root before past name c
  | loaded (d : Config) (l : Load) : before = none → d ∈ past → d.completing? = some l →
    l.globals = root → Text.fold name = Text.fold l.name →
      (c.store.space root).binding? name = some (l.name, .space l.module) →
        (∀ m ∈ loadsOf root c.stack, Text.fold name ≠ Text.fold m.name) → Fate root before past name c

/-- A load that was of an unbound name leaves it unbound when it is undone. -/
theorem Load.binding?_restore_self {l : Load} (fresh : l.previous? = none) (names : Namespace Value)
    {name : String} (same : Text.fold name = Text.fold l.name) :
    (l.restore names).binding? name = none := by
  unfold restore
  rw [fresh, Namespace.binding?_congr _ same]
  exact names.binding?_erase_self l.name

/-- A name that begins to be loaded is bound in the spelling of the load. -/
theorem Namespace.binding?_insert_unbound {α : Type} (names : Namespace α) {name : String} (value : α)
    (unbound : names.binding? name = none) :
    (names.insert name value).binding? name = some (name, value) := by
  rw [names.binding?_insert_self, unbound]
  rfl

/-- **The innermost load is the only one of its name.** -/
theorem Config.Tidy.innermost {c : Config} (tidy : c.Tidy root) {m : Load} {rest : List Pending}
    (here : m.globals = root) (stack : c.stack = .load m :: rest) :
    (∀ l ∈ loadsOf root rest, Text.fold m.name ≠ Text.fold l.name) ∧
      ∀ l ∈ loadsOf root c.stack, l = m ∨ l ∈ loadsOf root rest := by
  have distinct := tidy.distinct
  rw [stack, loadsOf_cons_load here] at distinct ⊢
  exact ⟨(List.pairwise_cons.1 distinct).1, fun l mem => List.mem_cons.1 mem⟩

namespace Fate

variable {before : Option (String × Value)} {past : List Config} {name : String} {c d : Config}

/-- What a step makes of a name that is being loaded. -/
theorem of_loading {l : Load} (tidy : c.Tidy root) (shift : Machine.Shift root c d)
    (absent : before = none) (mem : l ∈ loadsOf root c.stack)
    (same : Text.fold name = Text.fold l.name) (fresh : l.previous? = none)
    (bound : (c.store.space root).binding? name = some (l.name, .space l.module)) :
    Fate root before (c :: past) name d := by
  cases shift with
  | quiet names loads =>
    exact .loading l absent (loads ▸ mem) same fresh ((congrArg (·.binding? name) names).trans bound)
  | begins m _ _ unbound _ names loads =>
    have taken : (c.store.get? root l.name).isSome := Option.isSome_of_eq_some (tidy.bound l mem)
    have differs : Text.fold name ≠ Text.fold m.name :=
      same ▸ Store.fold_ne_of_unbound taken unbound
    refine .loading l absent (loads ▸ List.mem_cons_of_mem _ mem) same fresh ?_
    rw [names]
    exact (Namespace.binding?_insert_of_ne _ _ differs).trans bound
  | completes m v here control stack names =>
    obtain ⟨only, among⟩ := tidy.innermost here stack
    have kept := (congrArg (·.binding? name) names).trans bound
    rcases among l mem with rfl | inner
    · have completing : c.completing? = some l := Config.completing?_eq_some.2 ⟨v, _, control, stack⟩
      refine .loaded c l absent List.mem_cons_self completing here same kept fun k waits => ?_
      exact same ▸ only k waits
    · exact .loading l absent inner same fresh kept
  | undoes m e here _ stack names =>
    obtain ⟨only, among⟩ := tidy.innermost here stack
    rcases among l mem with rfl | inner
    · refine .untouched ?_ fun k waits => same ▸ only k waits
      rw [names, absent]
      exact l.binding?_restore_self fresh _ same
    · refine .loading l absent inner same fresh ?_
      rw [names]
      exact (m.binding?_restore_of_ne _ (same ▸ (only l inner).symm)).trans bound

/-- **What a step makes of a name.** -/
theorem step (fate : Fate root before past name c) (tidy : c.Tidy root)
    (shift : Machine.Shift root c d) : Fate root before (c :: past) name d := by
  cases fate with
  | untouched kept free =>
    rcases shift.spares free with ⟨same, still⟩ | ⟨l, same, fresh, unbound, names, mem⟩
    · exact .untouched (same.trans kept) still
    · rw [Store.get?_eq_space, Namespace.get?_eq_map_binding?, Option.map_eq_none_iff] at unbound
      have absent : before = none := by
        rw [← kept, Namespace.binding?_congr _ same, unbound]
      refine .loading l absent mem same fresh ?_
      rw [names, Namespace.binding?_congr _ same]
      exact Namespace.binding?_insert_unbound _ _ unbound
  | loading l absent mem same fresh bound => exact of_loading tidy shift absent mem same fresh bound
  | loaded e l absent among completing here same bound free =>
    have there : (c.store.get? root name).isSome := by
      rw [Store.get?_eq_space, Namespace.get?_eq_map_binding?, bound]
      rfl
    obtain ⟨kept, still⟩ := shift.settled there free
    exact .loaded e l absent (List.mem_cons_of_mem _ among) completing here same (kept.trans bound) still

end Fate

/-- **What a machine that begins without loads makes of the names.** -/
theorem Config.fate_iterate {setting : Setting} {c : Config} (discreet : setting.Discreet root)
    (hides : c.Hides root) (none : loadsOf root c.stack = []) (n : Nat) :
    ((Machine.step setting)^[n] c).Hides root ∧ ((Machine.step setting)^[n] c).Tidy root ∧
      ∀ name, Fate root ((c.store.space root).binding? name) (Machine.trace setting c n) name
        ((Machine.step setting)^[n] c) := by
  induction n with
  | zero =>
    exact ⟨hides, tidy_of_no_loads none, fun name =>
      .untouched rfl fun _ never => absurd (none ▸ never) List.not_mem_nil⟩
  | succ n ih =>
    obtain ⟨kept, tidy, fates⟩ := ih
    rw [Function.iterate_succ_apply']
    have tame := Machine.tame_step discreet kept
    exact ⟨tame.hides, tame.shift.tidy tidy, fun name => (fates name).step tidy tame.shift⟩

theorem Machine.exists_of_mem_trace {setting : Setting} {c d : Config} {n : Nat}
    (mem : d ∈ trace setting c n) : ∃ k < n, d = (step setting)^[k] c := by
  induction n with
  | zero => cases mem
  | succ n ih =>
    rcases List.mem_cons.1 mem with rfl | before
    · exact ⟨n, Nat.lt_succ_self n, rfl⟩
    · obtain ⟨k, less, same⟩ := ih before
      exact ⟨k, Nat.lt_succ_of_lt less, same⟩

/-! ## The end of a load -/

theorem Config.completing?_onto {c : Config} {l : Load} (completing : c.completing? = some l)
    (base : List Pending) : (c.onto base).completing? = some l := by
  obtain ⟨v, rest, control, stack⟩ := completing?_eq_some.1 completing
  refine completing?_eq_some.2 ⟨v, rest ++ base, control, ?_⟩
  show c.stack ++ base = _
  rw [stack]
  rfl

/-- **How a load ends**: with its module, or with a failure and undone. -/
theorem Machine.run_load {setting : Setting} {fuel : Nat} {c : Config} {l : Load}
    {answer : Except EvalError Value} {t : Store} (answered : (answer? c).isSome)
    (ran : run setting fuel (c.onto [.load l]) = some (answer, t)) :
    c.stack = [] ∧ (answer = .ok (.space l.module) ∧ t = c.store ∨
      (∃ e, answer = .error e) ∧ t = c.store.undoLoad l) := by
  obtain ⟨control, stack, s⟩ := c
  cases stack with
  | cons p rest => cases control <;> cases answered
  | nil =>
    refine ⟨rfl, ?_⟩
    -- The first step takes the load off the stack, and then there is an answer.
    cases fuel with
    | zero => cases ran
    | succ fuel =>
      cases fuel with
      | zero => cases control <;> cases ran
      | succ fuel =>
        cases control with
        | value v =>
          obtain ⟨rfl, rfl⟩ := Prod.mk.inj (Option.some.inj ran)
          exact .inl ⟨rfl, rfl⟩
        | exit e =>
          obtain ⟨rfl, rfl⟩ := Prod.mk.inj (Option.some.inj ran)
          exact .inr ⟨⟨_, rfl⟩, rfl⟩
        | _ => cases answered

/-- A name after a load of it has been undone is bound as it was before the load. -/
theorem Load.binding?_restore_insert {l : Load} (names : Namespace Value)
    (before : l.previous? = names.get? l.name) (after : Namespace Value) {v : Value}
    (bound : after.binding? l.name = (names.insert l.name v).binding? l.name) :
    (l.restore after).binding? l.name = names.binding? l.name := by
  rw [names.binding?_insert_self] at bound
  rw [Namespace.get?_eq_map_binding?] at before
  unfold restore
  cases found : names.binding? l.name with
  | none =>
    rw [found] at before
    rw [before]
    exact after.binding?_erase_self l.name
  | some entry =>
    rw [found] at before bound
    rw [before]
    show (after.insert l.name entry.2).binding? l.name = some entry
    rw [after.binding?_insert_self, bound]
    rfl

/-- **A load that completes** while a machine runs for a request. -/
def Request.Completes (setting : Setting) (s : Store) (request : Request) (l : Load) : Prop :=
  ∃ c k, request.begin setting s = .running c ∧ ((Machine.step setting)^[k] c).completing? = some l

/-- What a name is bound to after a file has been run: what it was bound to, or, if it was not bound, the
module of a load that has completed meanwhile. -/
def SettledBy (root : NamespaceId) (completes : Load → Prop) (before : Option (String × Value))
    (name : String) (after : Option (String × Value)) : Prop :=
  after = before ∨ before = none ∧ ∃ l, completes l ∧ l.globals = root ∧
    Text.fold l.name = Text.fold name ∧ after = some (l.name, .space l.module)

/-- When no name is being loaded, every name is settled. -/
theorem Fate.settled {before : Option (String × Value)} {past : List Config} {name : String} {c : Config}
    (fate : Fate root before past name c) (none : loadsOf root c.stack = []) {completes : Load → Prop}
    (known : ∀ d ∈ past, ∀ l, d.completing? = some l → completes l) :
    SettledBy root completes before name ((c.store.space root).binding? name) := by
  cases fate with
  | untouched kept _ => exact .inl kept
  | loading l _ mem => exact absurd (none ▸ mem) List.not_mem_nil
  | loaded d l absent among completing here same bound =>
    exact .inr ⟨absent, l, known d among l completing, here, same.symm, bound⟩

theorem SettledBy.mono {completes known : Load → Prop} {before after : Option (String × Value)}
    {name : String} (settled : SettledBy root completes before name after)
    (within : ∀ l, completes l → known l) : SettledBy root known before name after := by
  rcases settled with same | ⟨absent, l, completed, here, same, bound⟩
  · exact .inl same
  · exact .inr ⟨absent, l, within l completed, here, same, bound⟩

/-- A name that is bound before stays bound as it is. -/
theorem SettledBy.eq_of_isSome {completes : Load → Prop} {before after : Option (String × Value)}
    {name : String} (settled : SettledBy root completes before name after) (bound : before.isSome) :
    after = before := by
  rcases settled with same | ⟨rfl, -⟩
  · exact same
  · cases bound

namespace Machine

variable {setting : Setting} {fuel : Nat} {rt : RuntimeId} {path name : String} {s t : Store}
  {answer : Except ScriptError Value}

/-- **A machine that works above a load** settles every name, and then the load ends. -/
theorem run_above_load {root : NamespaceId} {c : Config} {l : Load} {answer : Except EvalError Value}
    (discreet : setting.Discreet root) (hides : c.Hides root) (none : loadsOf root c.stack = [])
    (ran : run setting fuel (c.onto [.load l]) = some (answer, t)) :
    ∃ last : Store, last.Hides root ∧
      (∀ other, SettledBy root
        (fun m => ∃ k, ((step setting)^[k] (c.onto [.load l])).completing? = some m)
        ((c.store.space root).binding? other) other ((last.space root).binding? other)) ∧
      (answer = .ok (.space l.module) ∧ t = last ∨ (∃ e, answer = .error e) ∧ t = last.undoLoad l) := by
  obtain ⟨n, rest, answered, above, after⟩ := run_onto ran
  obtain ⟨kept, -, fates⟩ := Config.fate_iterate discreet hides none n
  obtain ⟨stack, outcome⟩ := run_load answered after
  have empty : loadsOf root ((step setting)^[n] c).stack = [] := by
    rw [stack]
    rfl
  refine ⟨((step setting)^[n] c).store, kept.store, fun other => (fates other).settled empty ?_, outcome⟩
  intro d mem m completing
  obtain ⟨k, less, rfl⟩ := exists_of_mem_trace mem
  refine ⟨k, ?_⟩
  rw [above k (Nat.le_of_lt less)]
  exact Config.completing?_onto completing _

/-- **How running a file as a module of its own ends.**  Its own name stays bound to the module and the
others are settled; then it answers with the module, or it fails and its own name is put back. -/
theorem executeFileAs_ends (hides : s.Hides (s.runtime rt).globals)
    (discreet : setting.Discreet (s.runtime rt).globals)
    (ran : executeFileAs setting fuel rt path name s = some (answer, t)) :
    ∃ names : Namespace Value,
      names.binding? name = ((s.space (s.runtime rt).globals).insert name
        (.space (s.beginLoad rt name).1.module)).binding? name ∧
      (∀ other, Text.fold other ≠ Text.fold name →
        SettledBy (s.runtime rt).globals (Request.Completes setting s (.fileAs rt path name))
          ((s.space (s.runtime rt).globals).binding? other) other (names.binding? other)) ∧
      (answer = .ok (.space (s.beginLoad rt name).1.module) ∧ t.space (s.runtime rt).globals = names ∨
        (∃ e, answer = .error e) ∧
          t.space (s.runtime rt).globals = (s.beginLoad rt name).1.restore names) := by
  obtain ⟨begun, own, names⟩ := hides.beginLoad rt name
  rw [if_pos rfl] at names
  have taken : (((s.beginLoad rt name).2.space (s.runtime rt).globals).binding? name).isSome := by
    rw [names, Namespace.binding?_insert_self]
    rfl
  have others (other : String) (differs : Text.fold other ≠ Text.fold name) :
      ((s.beginLoad rt name).2.space (s.runtime rt).globals).binding? other =
        (s.space (s.runtime rt).globals).binding? other := by
    rw [names]
    exact Namespace.binding?_insert_of_ne _ _ differs
  unfold executeFileAs at ran
  dsimp only at ran
  split at ran
  next control u started =>
    obtain ⟨ready, same, starts⟩ := begun.startFile own.module started
    obtain ⟨⟨reply, last⟩, ended, both⟩ := Option.map_eq_some_iff.1 ran
    obtain ⟨rfl, rfl⟩ := Prod.mk.inj both
    have begins : Request.begin setting s (.fileAs rt path name) =
        .running ⟨control, [.load (s.beginLoad rt name).1], u⟩ := by
      unfold Request.begin
      dsimp only
      rw [started]
    have first : Config.Hides (s.runtime rt).globals ⟨control, [], u⟩ :=
      ⟨starts control rfl, List.forall_mem_nil _, ready⟩
    have whole : run setting fuel (Config.onto ⟨control, [], u⟩ [.load (s.beginLoad rt name).1]) =
        some (reply, last) := ended
    obtain ⟨after, kept, settled, outcome⟩ := run_above_load discreet first rfl whole
    refine ⟨after.space (s.runtime rt).globals, ?_, ?_, ?_⟩
    · rw [← names, ← same]
      exact (settled name).eq_of_isSome (same ▸ taken)
    · intro other differs
      rw [← others other differs, ← same]
      exact (settled other).mono fun l completes => ⟨_, completes.choose, begins, completes.choose_spec⟩
    · rcases outcome with ⟨rfl, rfl⟩ | ⟨⟨e, rfl⟩, rfl⟩
      · exact .inl ⟨rfl, rfl⟩
      · obtain ⟨-, undone⟩ := kept.undoLoad own
        exact .inr ⟨⟨_, rfl⟩, undone.trans (if_pos rfl)⟩
  next e u started =>
    obtain ⟨ready, same, -⟩ := begun.startFile own.module started
    obtain ⟨rfl, rfl⟩ := Prod.mk.inj (Option.some.inj ran)
    obtain ⟨-, undone⟩ := ready.undoLoad own
    refine ⟨u.space (s.runtime rt).globals, ?_, ?_, .inr ⟨⟨_, rfl⟩, undone.trans (if_pos rfl)⟩⟩
    · rw [same, names]
    · intro other differs
      rw [same]
      exact .inl (others other differs)

end Machine

/-- **A file that fails to load leaves its name as it was.**  If nothing that scripts can get at has the
root of the global names, and a host runs a file as a module of its own:

* if this fails, in whatever way, the name is bound as it was before, in the same spelling, or not bound;
* if not, the answer is the module of the load and the name is bound to it;
* and in both cases every other name is bound as it was before, or it was not bound and is now bound to
  the module of an import whose own load has completed. -/
theorem failed_loads_restore (setting : Setting) (fuel : Nat) (rt : RuntimeId) (path name : String)
    (s t : Store) (answer : Except ScriptError Value) (hides : s.Hides (s.runtime rt).globals)
    (discreet : setting.Discreet (s.runtime rt).globals)
    (ran : Machine.executeFileAs setting fuel rt path name s = some (answer, t)) :
    (∀ e, answer = .error e →
      (t.space (s.runtime rt).globals).binding? name = (s.space (s.runtime rt).globals).binding? name) ∧
    (∀ v, answer = .ok v → v = .space (s.beginLoad rt name).1.module ∧
      t.get? (s.runtime rt).globals name = some v) ∧
    ∀ other, Text.fold other ≠ Text.fold name →
      SettledBy (s.runtime rt).globals (Request.Completes setting s (.fileAs rt path name))
        ((s.space (s.runtime rt).globals).binding? other) other
        ((t.space (s.runtime rt).globals).binding? other) := by
  obtain ⟨names, own, others, ends⟩ := Machine.executeFileAs_ends hides discreet ran
  rcases ends with ⟨rfl, same⟩ | ⟨⟨e, rfl⟩, same⟩
  · refine ⟨?_, ?_, fun other differs => same ▸ others other differs⟩
    · rintro _ ⟨⟩
    · rintro _ ⟨⟩
      refine ⟨rfl, ?_⟩
      rw [Store.get?_eq_space, same, Namespace.get?_eq_map_binding?, own,
        Namespace.binding?_insert_self]
      rfl
  · refine ⟨fun _ _ => ?_, ?_, fun other differs => ?_⟩
    · rw [same]
      exact Load.binding?_restore_insert _ rfl names own
    · rintro _ ⟨⟩
    · rw [same, Load.binding?_restore_of_ne _ _ differs]
      exact others other differs

theorem Store.runtime_bind (s : Store) (id : NamespaceId) (name : String) (v : Value) (rt : RuntimeId) :
    (s.bind id name v).runtime rt = s.runtime rt := rfl

/-- A file that imports another one and then fails. -/
def Files.broken : Files :=
  ⟨"/r", [], [(["a.brisk"], some "import b; nope()"), (["b.brisk"], some "var x = 1")], []⟩

/-- A file that fails to load under a name that is bound in another spelling, after it has imported
another file. -/
theorem failed_loads_restore_broken :
    ∃ e t, Machine.executeFileAs (defaultHost .broken).1 20 (defaultHost .broken).2.2 "a.brisk" "a"
        ((defaultHost .broken).2.1.bind ⟨0⟩ "A" (.int 1)) = some (.error e, t) ∧
      (t.space ⟨0⟩).binding? "a" = some ("A", .int 1) ∧
      ∃ l, Request.Completes (defaultHost .broken).1 ((defaultHost .broken).2.1.bind ⟨0⟩ "A" (.int 1))
          (.fileAs (defaultHost .broken).2.2 "a.brisk" "a") l ∧
        (t.space ⟨0⟩).binding? "b" = some ("b", .space l.module) := by
  have globals : ((defaultHost .broken).2.1.runtime (defaultHost .broken).2.2).globals = ⟨0⟩ := by
    decide +kernel
  have ends : (Machine.executeFileAs (defaultHost .broken).1 20 (defaultHost .broken).2.2 "a.brisk" "a"
      ((defaultHost .broken).2.1.bind ⟨0⟩ "A" (.int 1))).any fun r => r.1.toOption.isNone &&
        decide (((r.2.space ⟨0⟩).binding? "b").map Prod.fst = some "b") := by decide +kernel
  have free : (((defaultHost .broken).2.1.space ⟨0⟩).binding? "A").isNone ∧
      (((defaultHost .broken).2.1.space ⟨0⟩).binding? "b").isNone := by decide +kernel
  have hides := hides_defaultHost .broken
  rw [globals] at hides
  have same : (((defaultHost .broken).2.1.bind ⟨0⟩ "A" (.int 1)).runtime
      (defaultHost .broken).2.2).globals = ⟨0⟩ := by rw [Store.runtime_bind, globals]
  have bound : ((defaultHost .broken).2.1.bind ⟨0⟩ "A" (.int 1)).space ⟨0⟩ =
      ((defaultHost .broken).2.1.space ⟨0⟩).insert "A" (.int 1) :=
    (Store.space_bind hides ⟨0⟩ "A" (.int 1)).trans (if_pos rfl)
  obtain ⟨⟨answer, t⟩, ran, checked⟩ := (Option.any_eq_true _ _).1 ends
  obtain ⟨failed, spelling⟩ := Bool.and_eq_true_iff.1 checked
  have kept : ((defaultHost .broken).2.1.bind ⟨0⟩ "A" (.int 1)).Hides
      (((defaultHost .broken).2.1.bind ⟨0⟩ "A" (.int 1)).runtime (defaultHost .broken).2.2).globals :=
    same.symm ▸ hides.bind ⟨0⟩ "A" trivial
  obtain ⟨restored, -, others⟩ := failed_loads_restore _ 20 _ "a.brisk" "a" _ t answer kept
    (discreet_defaultHost .broken) ran
  rw [same] at restored others
  obtain ⟨e, rfl⟩ : ∃ e, answer = .error e := by
    cases answer with
    | error e => exact ⟨e, rfl⟩
    | ok v => cases failed
  refine ⟨e, t, ran, ?_, ?_⟩
  · have folds : Text.fold "a" = Text.fold "A" := by decide +kernel
    rw [restored e rfl, bound, Namespace.binding?_congr _ folds]
    exact Namespace.binding?_insert_unbound _ _ (Option.isNone_iff_eq_none.1 free.1)
  · have loaded : ((t.space ⟨0⟩).binding? "b").map Prod.fst = some "b" := of_decide_eq_true spelling
    rcases others "b" (by decide +kernel) with same | ⟨-, l, completes, -, -, after⟩
    · rw [same, bound, Namespace.binding?_insert_of_ne _ _ (by decide +kernel),
        Option.isNone_iff_eq_none.1 free.2] at loaded
      cases loaded
    · rw [after] at loaded
      have name : l.name = "b" := Option.some.inj loaded
      exact ⟨l, completes, name ▸ after⟩

end HostScript
