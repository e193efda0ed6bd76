import HostScript.Proofs.Compile.Returns
import HostScript.Proofs.Machine.Demands

/-!
# Proofs/Machine/Provenance — where the code comes from that a machine evaluates

What a machine evaluates is a part of what it has been evaluating, or the body of a function that it calls,
or a program that it loads; and what a function is made from is a part of what the machine has been
evaluating.  So what is passed on to parts, and can be said of these bodies and programs, can be said of all
that a machine comes to (`Machine.has_step`).

Said of templates, this tells that each function has been compiled from a definition in a source
(`Invariant.defined`).
-/

namespace HostScript

/-! ## What goes on with what -/

/-- The codes that a code goes on with. -/
@[simp] def Code.next : Code → List Code
  | .write _ value | .leave _ value | .give _ value => [value]
  | .dispatch _ _ operands => operands
  | .choose [] otherwise => [otherwise]
  | .choose ((test, body) :: rest) otherwise => [test, body, .choose rest otherwise]
  | .loop _ body => [body]
  | .sequence codes => codes
  | _ => []

/-- The codes that pending work goes on with. -/
def Pending.next : Pending → List Code
  | .operands _ _ _ _ todo => todo
  | .test _ body rest otherwise => [body, .choose rest otherwise]
  | .sequence _ rest => rest
  | .loop _ _ body => [body]
  | _ => []

/-- The code that is about to be evaluated. -/
def Control.code? : Control → Option Code
  | .eval _ code => some code
  | _ => none

/-- Files with texts of some kind. -/
def Files.Within (files : Files) (unit : String → Prop) : Prop :=
  ∀ path text full, files.read path = .ok (text, full) → unit text

/-- **What can be said of codes, above what waits below them, and of templates**, and is passed on in all
the ways in which a machine comes to a code, as long as it loads only sources of some kind. -/
structure Provenance where
  unit : String → Prop
  code : List Pending → Code → Prop
  template : Template Code → Prop
  next {stack : List Pending} {whole part : Code} : code stack whole → part ∈ whole.next → code stack part
  above {p : Pending} {stack : List Pending} {whole : Code} : code stack whole → code (p :: stack) whole
  made {stack : List Pending} {t : Template Code} : code stack (.closure t) → template t
  called {stack : List Pending} {t : Template Code} : template t →
    code (.call t.returnLabel? :: stack) t.body
  loaded {stack : List Pending} {load : Load} {source : String} {program : Program} :
    unit source → IsProgram source program → code (.load load :: stack) program.code

namespace Provenance

variable (P : Provenance)

/-- What can be said of the codes that a stack goes on with. -/
def Waits : List Pending → Prop
  | [] => True
  | p :: below => (∀ part ∈ p.next, P.code below part) ∧ Waits below

/-- What can be said of what is about to be done. -/
def Goes (stack : List Pending) (control : Control) : Prop :=
  ∀ code ∈ control.code?, P.code stack code

/-- What can be said of the functions there are. -/
def Holds (s : Store) : Prop :=
  ∀ f ∈ s.functions, ∀ t frame module rt, f = .script t frame module rt → P.template t

end Provenance

/-- **What can be said of a state**: of its codes, where they are, and of its functions. -/
structure Config.Has (P : Provenance) (c : Config) : Prop where
  control : P.Goes c.stack c.control
  stack : P.Waits c.stack
  store : P.Holds c.store

variable {P : Provenance}

theorem Provenance.Holds.of_functions {s t : Store} (h : P.Holds s) (same : t.functions = s.functions) :
    P.Holds t := fun f mem => h f (same ▸ mem)

theorem Provenance.goes_ofReply (stack : List Pending) (reply : Reply) :
    P.Goes stack (.ofReply reply) := by
  cases reply <;> exact nofun

theorem Provenance.goes_eval {stack : List Pending} {env : Env} {code : Code} (h : P.code stack code) :
    P.Goes stack (.eval env code) := fun _ mem => Option.mem_some.1 mem ▸ h

/-! ## Programs that start -/

/-- Starting a file makes no functions, and leads to the program that the file holds. -/
theorem Store.startFile_isProgram {s t : Store} {files : Files} {rt : RuntimeId} {module : NamespaceId}
    {path : String} {result : Except ScriptError Control}
    (h : s.startFile files rt module path = (result, t)) :
    t.functions = s.functions ∧ ∀ control, result = .ok control →
      ∃ env source full program, files.read path = .ok (source, full) ∧ IsProgram source program ∧
        control = .eval env program.code := by
  cases fileStarts_of_eq h with
  | unreadable => exact ⟨rfl, nofun⟩
  | refused _ prepared => exact ⟨(prepare_eq prepared).1.functions, nofun⟩
  | starts readable prepared =>
    refine ⟨(prepare_eq prepared).1.functions, ?_⟩
    rintro _ ⟨⟩
    exact ⟨_, _, _, _, readable, isProgram_prepare prepared, rfl⟩

/-! ## Steps -/

namespace Machine

variable {setting : Setting} {env : Env} {stack : List Pending} {s : Store}

theorem has_importPath (files : setting.files.Within P.unit) (path : List String) (waiting : P.Waits stack) (h : P.Holds s) :
    (importPath setting env path stack s).Has P := by
  have loading (name : String) : P.Holds (s.beginLoad env.runtime name).2 := h
  match importPath setting env path stack s, importsTo setting env path stack s with
  | _, .bound _ | _, .missing _ _ => exact ⟨nofun, waiting, h⟩
  | _, .starts file =>
    obtain ⟨same, starts⟩ := Store.startFile_isProgram file.started
    obtain ⟨inner, source, full, program, readable, is_program, rfl⟩ := starts _ rfl
    exact ⟨P.goes_eval (P.loaded (files _ _ _ readable) is_program), ⟨nofun, waiting⟩,
      (loading _).of_functions same⟩
  | _, .refused file =>
    exact ⟨nofun, ⟨nofun, waiting⟩, (loading _).of_functions (Store.startFile_isProgram file.started).1⟩

/-- Code goes on with parts of it. -/
theorem has_eval (files : setting.files.Within P.unit) {code : Code} (own : P.code stack code) (waiting : P.Waits stack) (h : P.Holds s) :
    (eval setting env code stack s).Has P := by
  have go {env : Env} {p : Pending} {part : Code} (first : part ∈ code.next)
      (others : ∀ other ∈ p.next, other ∈ code.next) :
      Config.Has P ⟨.eval env part, p :: stack, s⟩ :=
    ⟨P.goes_eval (P.above (P.next own first)), ⟨fun other mem => P.next own (others other mem), waiting⟩,
      h⟩
  cases code with
  | write => exact go List.mem_cons_self nofun
  | dispatch _ _ operands =>
    cases operands with
    | nil => exact ⟨nofun, ⟨nofun, waiting⟩, h⟩
    | cons first rest => exact go List.mem_cons_self fun _ mem => List.mem_cons_of_mem _ mem
  | closure template =>
    refine ⟨nofun, waiting, fun f mem => ?_⟩
    rcases Array.mem_push.1 mem with before | rfl
    · exact h f before
    · rintro _ _ _ _ ⟨⟩
      exact P.made own
  | choose branches otherwise =>
    cases branches with
    | nil => exact ⟨P.goes_eval (P.next own List.mem_cons_self), waiting, h⟩
    | cons first rest => exact go List.mem_cons_self fun _ mem => List.mem_cons_of_mem _ mem
  | loop => exact go List.mem_cons_self fun _ mem => mem
  | leave => exact go List.mem_cons_self nofun
  | give => exact go List.mem_cons_self nofun
  | sequence codes =>
    cases codes with
    | nil => exact ⟨nofun, waiting, h⟩
    | cons first rest => exact go List.mem_cons_self fun _ mem => List.mem_cons_of_mem _ mem
  | importAs => exact has_importPath files _ ⟨nofun, ⟨nofun, waiting⟩⟩ h
  | _ => exact ⟨nofun, waiting, h⟩

theorem has_resume {v : Value} {p : Pending} (own : ∀ part ∈ p.next, P.code stack part)
    (waiting : P.Waits stack) (h : P.Holds s) : (resume v p stack s).Has P := by
  have go {env : Env} {q : Pending} {part : Code} (first : part ∈ p.next)
      (others : ∀ other ∈ q.next, other ∈ p.next) :
      Config.Has P ⟨.eval env part, q :: stack, s⟩ :=
    ⟨P.goes_eval (P.above (own part first)), ⟨fun other mem => own other (others other mem), waiting⟩, h⟩
  cases p with
  | operands _ _ _ _ todo =>
    cases todo with
    | nil => exact ⟨nofun, ⟨nofun, waiting⟩, h⟩
    | cons next todo => exact go List.mem_cons_self fun _ mem => List.mem_cons_of_mem _ mem
  | write frame slot => exact ⟨nofun, waiting, h.of_functions (s.functions_writeSlot frame slot v)⟩
  | test =>
    rw [resume_test]
    split
    · exact ⟨P.goes_eval (own _ List.mem_cons_self), waiting, h⟩
    · exact ⟨P.goes_eval (own _ (List.mem_cons_of_mem _ List.mem_cons_self)), waiting, h⟩
  | sequence _ codes =>
    cases codes with
    | nil => exact ⟨nofun, waiting, h⟩
    | cons next rest => exact go List.mem_cons_self fun _ mem => List.mem_cons_of_mem _ mem
  | loop => exact go List.mem_cons_self fun _ mem => mem
  | _ => exact ⟨nofun, waiting, h⟩

theorem has_unwind {e : Exit} {p : Pending} (waiting : P.Waits stack) (h : P.Holds s) :
    (unwind e p stack s).Has P := by
  match e, p, unwind e p stack s, unwindsTo e p stack s with
  | _, _, _, .undone => exact ⟨nofun, waiting, h.of_functions (s.sameCode_undoLoad _).functions⟩
  | _, _, _, .left | _, _, _, .returned | _, _, _, .located | _, _, _, .failed _ | _, _, _, .passed _ =>
    exact ⟨nofun, waiting, h⟩

theorem has_enter {function : FunctionInfo} {args : List Value} (waiting : P.Waits stack)
    (h : P.Holds s) : (enter setting function args stack s).Has P := by
  match enter setting function args stack s, entersTo setting function args stack s with
  | _, .native _ _ _ => exact ⟨P.goes_ofReply _ _, waiting, h⟩
  | _, .script template frame module rt found _ =>
    have own := h _ (Array.mem_of_getElem? found) template frame module rt rfl
    exact ⟨P.goes_eval (P.called own), ⟨nofun, waiting⟩, h⟩
  | _, .noNative _ _ | _, .dropped _ _ | _, .noFunction _ => exact ⟨nofun, waiting, h⟩

/-- **What can be said of a state can be said of the next one.** -/
theorem has_step (files : setting.files.Within P.unit) {c : Config} (h : c.Has P) : (step setting c).Has P := by
  obtain ⟨own, waiting, functions⟩ := h
  match c, step setting c, stepsTo setting c with
  | _, _, .evaluates => exact has_eval files (own _ rfl) waiting functions
  | _, _, .replies done =>
    exact ⟨P.goes_ofReply _ _, waiting, functions.of_functions (Store.sameCode_of_dispatch done).functions⟩
  | _, _, .handsOver done =>
    exact ⟨nofun, waiting, functions.of_functions (Store.sameCode_of_dispatch done).functions⟩
  | _, _, .enters => exact has_enter waiting functions
  | _, _, .resumes => exact has_resume waiting.1 waiting.2 functions
  | _, _, .unwinds => exact has_unwind waiting.2 functions
  | _, _, .rests _ => exact ⟨own, waiting, functions⟩

theorem has_iterate (files : setting.files.Within P.unit) {c : Config} (h : c.Has P) (n : Nat) : ((step setting)^[n] c).Has P := by
  induction n with
  | zero => exact h
  | succ n ih =>
    rw [Function.iterate_succ_apply']
    exact has_step files ih

end Machine

/-! ## Requests -/

/-- What can be said of what a request begins with. -/
def Begun.Has (P : Provenance) : Begun → Prop
  | .done _ after => P.Holds after
  | .running c => c.Has P

/-- **What can be said of the functions there are can be said of what a request begins with**, if it can be
said of the programs of the sources that may be run. -/
theorem Request.has_begin {setting : Setting} {s : Store} {request : Request}
    (files : setting.files.Within P.unit)
    (sources : ∀ rt module text, request = .source rt module text → P.unit text)
    (starts : ∀ {source : String} {program : Program}, P.unit source → IsProgram source program →
      ∀ stack, P.code stack program.code) (h : P.Holds s) : (request.begin setting s).Has P := by
  have loading (rt : RuntimeId) (name : String) : P.Holds (s.beginLoad rt name).2 := h
  match request, request.begin setting s, request.beginsAs setting s with
  | _, _, .build => exact h.of_functions (s.sameCode_buildRuntime setting.registry _ _ _).functions
  | _, _, .drop | _, _, .change => exact h
  | _, _, .offer =>
    intro f mem
    rcases Array.mem_push.1 mem with before | rfl
    · exact h f before
    · exact nofun
  | _, _, .source prepared =>
    have own := starts (sources _ _ _ rfl) (Store.isProgram_prepare prepared) []
    exact ⟨P.goes_eval own, trivial, h.of_functions (Store.prepare_eq prepared).1.functions⟩
  | _, _, .noSource prepared => exact h.of_functions (Store.prepare_eq prepared).1.functions
  | _, _, .fileIn started =>
    obtain ⟨same, program⟩ := Store.startFile_isProgram started
    obtain ⟨env, source, full, program, readable, is_program, rfl⟩ := program _ rfl
    exact ⟨P.goes_eval (starts (files _ _ _ readable) is_program _), trivial, h.of_functions same⟩
  | _, _, .noFileIn started => exact h.of_functions (Store.startFile_isProgram started).1
  | _, _, .fileAs started =>
    obtain ⟨same, program⟩ := Store.startFile_isProgram started
    obtain ⟨env, source, full, program, readable, is_program, rfl⟩ := program _ rfl
    have own := starts (files _ _ _ readable) is_program
    exact ⟨P.goes_eval (own _), ⟨nofun, trivial⟩, (loading _ _).of_functions same⟩
  | _, _, .noFileAs started =>
    have kept := (loading _ _).of_functions (Store.startFile_isProgram started).1
    exact kept.of_functions (Store.sameCode_undoLoad _ _).functions
  | _, _, .call => exact ⟨nofun, trivial, h⟩
  | _, _, .effect => exact ⟨P.goes_ofReply _ _, trivial, h⟩

/-! ## Functions come from definitions -/

namespace Code

theorem answers_of_mem {code : Code} {codes : List Code} (mem : code ∈ codes) :
    code.answers.Within (answersOf codes) := by
  induction codes with
  | nil => cases mem
  | cons first rest ih =>
    rcases List.mem_cons.1 mem with rfl | later
    · exact Strands.within_left _ _
    · exact (ih later).trans (Strands.within_right _ _)

/-- What a code goes on with returns and defines what the code does. -/
theorem answers_next {code part : Code} (mem : part ∈ code.next) : part.answers.Within code.answers := by
  cases code with
  | null | constant | thisModule | read | closure | importAs => cases mem
  | write | leave | loop =>
    obtain rfl := List.mem_singleton.1 mem
    exact .refl _
  | give label value =>
    obtain rfl := List.mem_singleton.1 mem
    exact Strands.within_right _ _
  | dispatch _ _ codes => exact answers_of_mem mem
  | sequence codes => exact answers_of_mem mem
  | choose branches otherwise =>
    match branches with
    | [] =>
      obtain rfl := List.mem_singleton.1 mem
      exact .refl _
    | (test, body) :: rest =>
      have parts : (Code.choose ((test, body) :: rest) otherwise).answers =
          test.answers ++ (body.answers ++ (Code.choose rest otherwise).answers) := by
        rw [answers, answersOfArms, answers, Strands.append_assoc, Strands.append_assoc]
      have later := Strands.within_right test.answers
        (body.answers ++ (Code.choose rest otherwise).answers)
      rw [parts]
      obtain rfl | rfl | rfl : part = test ∨ part = body ∨ part = .choose rest otherwise := by
        simpa using mem
      · exact Strands.within_left _ _
      · exact (Strands.within_left _ _).trans later
      · exact (Strands.within_right _ _).trans later

end Code

/-- The positions of what is written in a source. -/
def placesOf (source : String) : Compile.Places :=
  fun span => (LineIndex.ofSource source.toList).position span.start

namespace Template

/-- **The template that a definition in a source is compiled to**: the one with its place among those of
the program. -/
def IsOf (template : Template Code) (source : String) (definition : Definition) : Prop :=
  ∃ (number : Nat) (tree : Node) (program : Program) (i : Nat), parse source = .ok tree ∧
    (compile number source.toList tree).1 = .ok program ∧
    tree.answers.inner[i]? = some (definition, definition.body.returns) ∧
    program.code.answers.inner[i]? = some (template, template.body.gives)

/-- Whether a template has been compiled from a definition. -/
def IsDefined (template : Template Code) : Prop := ∃ source definition, template.IsOf source definition

variable {template : Template Code} {source : String} {definition : Definition}

theorem IsOf.defines (h : template.IsOf source definition) :
    Compile.Defines (placesOf source) (definition, definition.body.returns)
      (template, template.body.gives) := by
  obtain ⟨number, tree, program, i, -, compiled, written, made⟩ := h
  obtain ⟨within, is_written⟩ := List.getElem?_eq_some_iff.1 written
  obtain ⟨reached, is_made⟩ := List.getElem?_eq_some_iff.1 made
  have defines := (List.forall₂_iff_get.1 (answers_compile compiled)).2 i within reached
  rw [List.get_eq_getElem, List.get_eq_getElem, is_written, is_made] at defines
  exact defines

section

variable {number : Nat} {tree : Node} {program : Program} (parsed : parse source = .ok tree)
  (compiled : (compile number source.toList tree).1 = .ok program)

include parsed compiled

theorem isOf_getElem {i : Nat} (within : i < tree.answers.inner.length)
    (reached : i < program.code.answers.inner.length) :
    program.code.answers.inner[i].1.IsOf source tree.answers.inner[i].1 := by
  obtain ⟨written, made⟩ := ((List.forall₂_iff_get.1 (answers_compile compiled)).2 i within reached).own
  refine ⟨number, tree, program, i, parsed, compiled, ?_, ?_⟩
  · rw [List.getElem?_eq_getElem within]
    exact congrArg (fun returns => some (_, returns)) written
  · rw [List.getElem?_eq_getElem reached]
    exact congrArg (fun gives => some (_, gives)) made

/-- **Each definition in a source that compiles has its template.** -/
theorem exists_isOf {found : Definition × List (Option Node)} (mem : found ∈ tree.answers.inner) :
    ∃ template : Template Code, template.IsOf source found.1 := by
  obtain ⟨i, within, rfl⟩ := List.getElem_of_mem mem
  exact ⟨_, isOf_getElem parsed compiled within ((answers_compile compiled).length_eq ▸ within)⟩

end

/-- The templates of a program are compiled from definitions. -/
theorem isDefined_of_mem {program : Program} (h : IsProgram source program)
    {found : Template Code × List Code} (mem : found ∈ program.code.answers.inner) :
    found.1.IsDefined := by
  obtain ⟨number, tree, parsed, compiled⟩ := h
  obtain ⟨i, reached, rfl⟩ := List.getElem_of_mem mem
  have within : i < tree.answers.inner.length := (answers_compile compiled).length_eq ▸ reached
  exact ⟨source, tree.answers.inner[i].1, isOf_getElem parsed compiled within reached⟩

/-- What a definition is compiled to has templates of definitions inside. -/
theorem IsDefined.inner (h : template.IsDefined) {found : Template Code × List Code}
    (mem : found ∈ template.body.answers.inner) : found.1.IsDefined := by
  obtain ⟨source, definition, number, tree, program, i, parsed, compiled, -, made⟩ := h
  have own : (template, template.body.gives) ∈ program.code.answers.inner := List.mem_of_getElem? made
  exact isDefined_of_mem ⟨number, tree, parsed, compiled⟩ ((program.code.closed_answers _ own).2 mem)

end Template

/-- Of all templates can be said that they have been compiled from definitions. -/
def Provenance.definitions : Provenance where
  unit _ := True
  code _ code := ∀ found ∈ code.answers.inner, found.1.IsDefined
  template t := t.IsDefined
  next own mem found below := own found ((Code.answers_next mem).2 below)
  above own := own
  made own := own _ List.mem_cons_self
  called defined _ below := defined.inner below
  loaded _ is_program _ below := Template.isDefined_of_mem is_program below

/-- **Functions have been compiled from definitions**, throughout sessions. -/
theorem Invariant.defined (registry : Registry) :
    Invariant registry Provenance.definitions.Holds fun _ c => c.Has .definitions where
  start := nofun
  begun setting s request := by
    intro _ h
    have begins : (request.begin setting s).Has Provenance.definitions := by
      refine Request.has_begin (fun _ _ _ _ => trivial) (fun _ _ _ _ => trivial) ?_ h
      exact fun _ is_program _ _ below => Template.isDefined_of_mem is_program below
    cases found : request.begin setting s with
    | done answer after =>
      rw [found] at begins
      exact begins
    | running c =>
      rw [found] at begins
      exact begins
  step setting c _ h := Machine.has_step (fun _ _ _ _ => trivial) h
  finish _ c _ h _ := h.store

/-- A function that is called has been compiled from a definition. -/
theorem Moment.isDefined {registry : Registry} {setting : Setting} {c : Config}
    (moment : Moment registry setting c) {id : FunctionId} {template : Template Code} {outer : FrameId}
    {module : NamespaceId} {rt : RuntimeId}
    (found : c.store.function? id = some (.script template outer module rt)) : template.IsDefined :=
  ((Invariant.defined registry).moment moment).store _ (Array.mem_of_getElem? found) _ _ _ _ rfl

end HostScript
