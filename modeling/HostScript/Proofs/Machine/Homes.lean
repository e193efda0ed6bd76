import HostScript.Proofs.Dispatch.Throughout
import HostScript.Proofs.Machine.Demands
import HostScript.Proofs.Machine.Launch

/-!
# Proofs/Machine/Homes — functions run where they were made

A function of a script keeps the module and the runtime that it was made in, as long as the session goes on
(`Course.keepsFunctions`).  Whoever calls it, it runs in a new activation in that module and for that runtime
(`Machine.home_enter`), and no other code ever runs in this activation (`Machine.houses_iterate`).
-/

namespace HostScript

/-! ## Functions stay -/

namespace Store

variable {s t u : Store}

/-- **Functions that stay what they are.** -/
def KeepsFunctions (s t : Store) : Prop :=
  ∀ (id : FunctionId) (f : Callable), s.function? id = some f → t.function? id = some f

theorem KeepsFunctions.refl (s : Store) : s.KeepsFunctions s := fun _ _ found => found

theorem KeepsFunctions.trans (first : s.KeepsFunctions t) (second : t.KeepsFunctions u) :
    s.KeepsFunctions u := fun id f found => second id f (first id f found)

theorem KeepsFunctions.of_eq (same : t.functions = s.functions) : s.KeepsFunctions t :=
  fun id _ found => (function?_congr same id).trans found

theorem keepsFunctions_newFunction (s : Store) (f : Callable) : s.KeepsFunctions (s.newFunction f).2 :=
  (Extends.newFunction s f).functions

end Store

namespace Machine

variable {setting : Setting} {env : Env} {stack : List Pending} {s : Store}

theorem keepsFunctions_importPath (path : List String) :
    s.KeepsFunctions (importPath setting env path stack s).store := by
  match importPath setting env path stack s, importsTo setting env path stack s with
  | _, .bound _ | _, .missing _ _ => exact .refl s
  | _, .starts file | _, .refused file => exact .of_eq (Store.startFile_leads file.started).2.1

theorem keepsFunctions_eval (code : Code) :
    s.KeepsFunctions (eval setting env code stack s).store := by
  cases code with
  | closure template => exact s.keepsFunctions_newFunction _
  | importAs _ path _ => exact keepsFunctions_importPath path
  | dispatch _ _ operands => cases operands <;> exact .refl s
  | choose branches _ => cases branches <;> exact .refl s
  | sequence codes => cases codes <;> exact .refl s
  | _ => exact .refl s

theorem keepsFunctions_resume (v : Value) (waiting : Pending) :
    s.KeepsFunctions (resume v waiting stack s).store := by
  cases waiting with
  | write frame slot => exact .of_eq (s.functions_writeSlot frame slot v)
  | operands _ _ _ _ todo => cases todo <;> exact .refl s
  | sequence _ codes => cases codes <;> exact .refl s
  | test =>
    rw [resume_test]
    exact .refl s
  | _ => exact .of_eq rfl

theorem keepsFunctions_unwind (e : Exit) (waiting : Pending) :
    s.KeepsFunctions (unwind e waiting stack s).store := by
  match e, waiting, unwind e waiting stack s, unwindsTo e waiting stack s with
  | _, _, _, .undone => exact .of_eq (s.sameCode_undoLoad _).functions
  | _, _, _, .left | _, _, _, .returned | _, _, _, .located | _, _, _, .failed _ | _, _, _, .passed _ =>
    exact .refl s

theorem keepsFunctions_enter (function : FunctionInfo) (args : List Value) :
    s.KeepsFunctions (enter setting function args stack s).store := by
  match enter setting function args stack s, entersTo setting function args stack s with
  | _, .native .. | _, .noNative .. | _, .script .. | _, .dropped .. | _, .noFunction .. => exact .of_eq rfl

/-- **A step keeps the functions there are.** -/
theorem keepsFunctions_step (setting : Setting) (c : Config) :
    c.store.KeepsFunctions (step setting c).store := by
  match c, step setting c, stepsTo setting c with
  | _, _, .evaluates => exact keepsFunctions_eval _
  | _, _, .replies done | _, _, .handsOver done => exact .of_eq (Store.sameCode_of_dispatch done).functions
  | _, _, .enters => exact keepsFunctions_enter _ _
  | _, _, .resumes => exact keepsFunctions_resume _ _
  | _, _, .unwinds => exact keepsFunctions_unwind _ _
  | _, _, .rests _ => exact .refl _

end Machine

/-- **A request keeps the functions there are.** -/
theorem Request.keepsFunctions_begin (setting : Setting) (s : Store) (request : Request) :
    s.KeepsFunctions (request.begin setting s).store := by
  match request, request.begin setting s, request.beginsAs setting s with
  | _, _, .build => exact .of_eq (s.sameCode_buildRuntime setting.registry _ _ _).functions
  | _, _, .drop | _, _, .change | _, _, .effect => exact .of_eq rfl
  | _, _, .offer => exact s.keepsFunctions_newFunction _
  | _, _, .source prepared | _, _, .noSource prepared =>
    exact .of_eq (Store.prepare_eq prepared).1.functions
  | _, _, .fileIn started | _, _, .noFileIn started | _, _, .fileAs started =>
    exact .of_eq (Store.startFile_leads started).2.1
  | _, _, .noFileAs started =>
    exact .of_eq ((Store.sameCode_undoLoad _ _).functions.trans (Store.startFile_leads started).2.1)
  | _, _, .call => exact .refl s

/-- **Functions stay all along** a course. -/
theorem Course.keepsFunctions {allowed : Setting → Store → Request → Prop} {start phase : Phase}
    {past : List Config} (course : Course allowed start past phase) :
    start.store.KeepsFunctions phase.store := by
  induction course with
  | start => exact .refl _
  | @done _ setting s t request _ _ _ begins ih =>
    have kept := request.keepsFunctions_begin setting s
    rw [begins] at kept
    exact ih.trans kept
  | @begun _ setting s request c _ _ begins ih =>
    have kept := request.keepsFunctions_begin setting s
    rw [begins] at kept
    exact ih.trans kept
  | step _ ih => exact ih.trans (Machine.keepsFunctions_step _ _)
  | answered _ _ ih => exact ih

/-! ## Activations of functions -/

/-- **An activation with an environment of its own**, which is there: no other environment has it. -/
structure Config.Houses (home : Env) (c : Config) : Prop where
  there : home.frame.index < c.store.frames.size
  only : ∀ env ∈ c.envs, env.frame = home.frame → env = home

namespace Machine

variable {setting : Setting} {home : Env} {c : Config}

theorem houses_step (houses : c.Houses home) : (step setting c).Houses home := by
  have leads := leads_step setting c
  refine ⟨Nat.lt_of_lt_of_le houses.there leads.size_le, fun env mem same => ?_⟩
  rcases leads.envs env mem with before | ⟨-, fresh, -⟩
  · exact houses.only env before same
  · have again : c.store.frames.size = home.frame.index :=
      congrArg FrameId.index (fresh.symm.trans same)
    exact absurd houses.there (again ▸ Nat.lt_irrefl _)

theorem houses_iterate (houses : c.Houses home) (n : Nat) : ((step setting)^[n] c).Houses home := by
  induction n with
  | zero => exact houses
  | succ n ih =>
    rw [Function.iterate_succ_apply']
    exact houses_step ih

/-- **A function runs where it was made**: whatever waits for its answer, it is entered in a new activation
in its own module and for its own runtime. -/
theorem home_enter (housed : c.Housed) {function : FunctionInfo} {args : List Value}
    (enters : c.control = .enter function args) {template : Template Code} {frame : FrameId}
    {module : NamespaceId} {rt : RuntimeId}
    (is_script : c.store.function? function.id = some (.script template frame module rt))
    (alive : (c.store.runtime rt).alive = true) :
    (step setting c).control = .eval ⟨⟨c.store.frames.size⟩, module, rt⟩ template.body ∧
      (step setting c).Houses ⟨⟨c.store.frames.size⟩, module, rt⟩ := by
  obtain ⟨control, stack, s⟩ := c
  dsimp only at enters is_script alive
  subst enters
  have entered : step setting ⟨.enter function args, stack, s⟩ =
      ⟨.eval ⟨⟨s.frames.size⟩, module, rt⟩ template.body, .call template.returnLabel? :: stack,
        (s.newFrame template.layout args (some frame)).2⟩ := by
    show enter setting function args stack s = _
    unfold enter
    rw [is_script]
    dsimp only
    rw [if_pos alive]
    rfl
  rw [entered]
  refine ⟨rfl, s.size_lt_newFrame _ _ _, fun env mem same => ?_⟩
  rcases List.mem_append.1 mem with here | below
  · exact (Option.some.inj (Option.mem_toList.1 here)).symm
  · have inside := housed.there env (List.mem_append_right _ below)
    rw [same] at inside
    exact absurd inside (Nat.lt_irrefl _)

end Machine

end HostScript
