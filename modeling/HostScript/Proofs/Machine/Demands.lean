import HostScript.Proofs.Compile.Requests
import HostScript.Proofs.Machine.Entries

/-!
# Proofs/Machine/Demands — what may still be done, and where it may fail

Code that is evaluated, waits or belongs to a function has sites: dynamic operations and imports that may
be done later, in its runtime, and may fail where they stand.  A step brings in no sites but those of a
file it loads, no operations but those at sites and those that are handed over, and no positions of
failures but those of sites; so whatever allows the sites of a state and these allows those of the next
one (`demands_step`).
-/

namespace HostScript

open Code (sitesOf sitesOfArms)

/-! ## What is demanded -/

/-- What may be demanded of runtimes: which sites code may have, which operations may be done, and where
failures may be. -/
structure Allowance where
  site : RuntimeId → Site → Prop
  asks : RuntimeId → Signature → Prop
  place : Position → Prop
  /-- An operation may be done if it is at a site that is allowed. -/
  asked {rt : RuntimeId} {position : Position} {s : Signature} : site rt (position, some s) → asks rt s
  /-- A failure may be where a site is allowed. -/
  placed {rt : RuntimeId} {position : Position} {s? : Option Signature} :
    site rt (position, s?) → place position

/-- Sites that are allowed. -/
def Allowance.allows (P : Allowance) (rt : RuntimeId) (sites : List Site) : Prop :=
  ∀ site ∈ sites, P.site rt site

variable {P : Allowance}

namespace Allowance

variable {rt : RuntimeId} {some others : List Site}

theorem allows_append : P.allows rt (some ++ others) ↔ P.allows rt some ∧ P.allows rt others :=
  List.forall_mem_append

theorem allows_cons {site : Site} : P.allows rt (site :: others) ↔ P.site rt site ∧ P.allows rt others :=
  List.forall_mem_cons

end Allowance

/-- A failure has no position that is not allowed. -/
def EvalError.Demands (P : Allowance) (e : EvalError) : Prop :=
  ∀ position, e.position? = some position → P.place position

/-- What an exit amounts to has no position that is not allowed. -/
def Exit.Demands (P : Allowance) (e : Exit) : Prop := e.toError.Demands P

/-- What the machine is about to do demands nothing that is not allowed. -/
def Control.Demands (P : Allowance) : Control → Prop
  | .eval env code => P.allows env.runtime code.sites
  | .dispatch env s _ => P.asks env.runtime s
  | .exit e => e.Demands P
  | _ => True

/-- What waits demands nothing that is not allowed. -/
def Pending.Demands (P : Allowance) : Pending → Prop
  | .operands env position s _ todo =>
    P.site env.runtime (position, some s) ∧ P.allows env.runtime (sitesOf todo)
  | .test env body rest otherwise =>
    P.allows env.runtime body.sites ∧ P.allows env.runtime (Code.choose rest otherwise).sites
  | .sequence env rest => P.allows env.runtime (sitesOf rest)
  | .loop env _ body => P.allows env.runtime body.sites
  | .locate position => P.place position
  | _ => True

/-- A function demands nothing that is not allowed. -/
def Callable.Demands (P : Allowance) : Callable → Prop
  | .script template _ _ rt => P.allows rt template.body.sites
  | .native _ _ _ => True

/-- No function demands what is not allowed. -/
def Store.Demands (P : Allowance) (s : Store) : Prop := ∀ f ∈ s.functions, f.Demands P

/-- **A state that demands nothing that is not allowed.** -/
structure Config.Demands (P : Allowance) (c : Config) : Prop where
  control : c.control.Demands P
  stack : ∀ p ∈ c.stack, p.Demands P
  store : c.store.Demands P

theorem Store.Demands.of_functions {s t : Store} (h : s.Demands P) (same : t.functions = s.functions) :
    t.Demands P := fun f mem => h f (same ▸ mem)

/-- A failure whose operation is not known demands nothing. -/
theorem EvalError.demands_ofCause (cause : EvalError.Cause) : (EvalError.ofCause cause).Demands P :=
  nofun

theorem EvalError.Demands.locate {e : EvalError} (h : e.Demands P) {position : Position}
    (allowed : P.place position) : (e.locate position).Demands P := by
  intro there same
  unfold EvalError.locate at same
  cases own : e.position? with
  | none =>
    rw [own] at same
    exact Option.some.inj same ▸ allowed
  | some known =>
    rw [own] at same
    exact h there (own.trans same)

theorem Control.demands_ofReply (reply : Reply) : (Control.ofReply reply).Demands P := by
  cases reply with
  | value v => trivial
  | fail cause => exact EvalError.demands_ofCause cause
  | call f args => trivial

/-! ### More may be allowed -/

/-- An allowance that allows all that another one does. -/
structure Allowance.Within (P Q : Allowance) : Prop where
  site (rt : RuntimeId) (site : Site) : P.site rt site → Q.site rt site
  asks (rt : RuntimeId) (s : Signature) : P.asks rt s → Q.asks rt s
  place (position : Position) : P.place position → Q.place position

section

variable {Q : Allowance} (within : P.Within Q)

include within

theorem Allowance.Within.allows {rt : RuntimeId} {sites : List Site} (h : P.allows rt sites) :
    Q.allows rt sites := fun site mem => within.site rt site (h site mem)

theorem Control.Demands.mono {control : Control} (h : control.Demands P) : control.Demands Q := by
  cases control with
  | eval env code => exact within.allows h
  | dispatch env s args => exact within.asks _ _ h
  | exit e => exact fun position same => within.place position (h position same)
  | _ => trivial

theorem Pending.Demands.mono {p : Pending} (h : p.Demands P) : p.Demands Q := by
  cases p with
  | operands env position s done todo => exact ⟨within.site _ _ h.1, within.allows h.2⟩
  | test env body rest otherwise => exact ⟨within.allows h.1, within.allows h.2⟩
  | sequence env rest => exact within.allows h
  | loop env label body => exact within.allows h
  | locate position => exact within.place position h
  | _ => trivial

theorem Callable.Demands.mono {f : Callable} (h : f.Demands P) : f.Demands Q := by
  cases f with
  | script template frame module rt => exact within.allows h
  | native name arity index => trivial

theorem Store.Demands.mono {s : Store} (h : s.Demands P) : s.Demands Q :=
  fun f mem => (h f mem).mono within

theorem Config.Demands.mono {c : Config} (h : c.Demands P) : c.Demands Q :=
  ⟨h.control.mono within, fun p mem => (h.stack p mem).mono within, h.store.mono within⟩

end

/-! ## Programs that start -/

/-- A program that a source is compiled to, whatever its number. -/
def IsProgram (source : String) (program : Program) : Prop :=
  ∃ number tree, parse source = .ok tree ∧ (compile number source.toList tree).1 = .ok program

/-- A source whose sites are allowed. -/
def Allowance.allowsSource (P : Allowance) (rt : RuntimeId) (source : String) : Prop :=
  ∀ program, IsProgram source program → P.allows rt program.code.sites

namespace Store

variable {s t : Store}

theorem isProgram_prepare {rt : RuntimeId} {text : String} {program : Program}
    (h : s.prepare rt text = (.ok program, t)) : IsProgram text program :=
  ⟨s.frames.size, compiled_of_prepare h⟩

/-- A source that is no program fails without a position, as seen from an import of it. -/
theorem toEval_prepare {rt : RuntimeId} {text : String} {e : ScriptError}
    (h : s.prepare rt text = (.error e, t)) : e.toEval.position? = none := by
  obtain ⟨failed, -, rfl⟩ | ⟨tree, failed, -, -, rfl⟩ := refused_of_prepare h
  · cases failed <;> rfl
  · rfl

/-- Starting a file makes no functions, and has the sites of its program. -/
theorem Demands.startFile (h : s.Demands P) {module : NamespaceId} {files : Files} {rt : RuntimeId}
    {path : String} {result : Except ScriptError Control}
    (lowered : ∀ source, .lowered rt source ∈ files.cacheEvents rt path → P.allowsSource rt source)
    (started : s.startFile files rt module path = (result, t)) :
    t.Demands P ∧ (∀ control, result = .ok control → control.Demands P) ∧
      ∀ e, result = .error e → e.toEval.position? = none := by
  unfold Files.cacheEvents at lowered
  cases fileStarts_of_eq started with
  | unreadable =>
    refine ⟨h, nofun, ?_⟩
    rintro _ ⟨⟩
    rfl
  | refused _ prepared =>
    refine ⟨h.of_functions (prepare_eq prepared).1.functions, nofun, ?_⟩
    rintro _ ⟨⟩
    exact toEval_prepare prepared
  | starts readable prepared =>
    rw [readable] at lowered
    refine ⟨h.of_functions (prepare_eq prepared).1.functions, ?_, nofun⟩
    rintro _ ⟨⟩
    exact lowered _ (List.mem_singleton_self _) _ (isProgram_prepare prepared)

end Store

/-! ## Steps -/

namespace Machine

variable {setting : Setting} {env : Env} {stack : List Pending} {s : Store}

theorem demands_importPath {path : List String} (waiting : ∀ p ∈ stack, p.Demands P) (h : s.Demands P)
    (lowered : ∀ source, .lowered env.runtime source ∈ s.importEvents setting.files env path →
      P.allowsSource env.runtime source) :
    (importPath setting env path stack s).Demands P := by
  have loading (name : String) : (s.beginLoad env.runtime name).2.Demands P := h
  match importPath setting env path stack s, importsTo setting env path stack s with
  | _, .bound _ => exact ⟨trivial, waiting, h⟩
  | _, .missing _ _ => exact ⟨EvalError.demands_ofCause _, waiting, h⟩
  | _, .starts file =>
    rw [Store.importEvents_of_findsFile file] at lowered
    obtain ⟨kept, starts, -⟩ := (loading _).startFile lowered file.started
    exact ⟨starts _ rfl, List.forall_mem_cons.2 ⟨trivial, waiting⟩, kept⟩
  | _, .refused file =>
    rw [Store.importEvents_of_findsFile file] at lowered
    obtain ⟨kept, -, fails⟩ := (loading _).startFile lowered file.started
    refine ⟨fun position known => ?_, List.forall_mem_cons.2 ⟨trivial, waiting⟩, kept⟩
    cases (fails _ rfl).symm.trans known

/-- Code goes on with parts of it. -/
theorem demands_eval {code : Code} (allowed : P.allows env.runtime code.sites)
    (waiting : ∀ p ∈ stack, p.Demands P) (h : s.Demands P)
    (lowered : ∀ source,
      .lowered env.runtime source ∈ cacheEvents setting ⟨.eval env code, stack, s⟩ →
        P.allowsSource env.runtime source) :
    (eval setting env code stack s).Demands P := by
  have below (p : Pending) (own : p.Demands P) : ∀ q ∈ p :: stack, q.Demands P :=
    List.forall_mem_cons.2 ⟨own, waiting⟩
  cases code with
  | write slot value => exact ⟨allowed, below _ trivial, h⟩
  | dispatch position signature operands =>
    cases operands with
    | nil =>
      have own := (Allowance.allows_cons.1 allowed).1
      exact ⟨P.asked own, below _ (P.placed own), h⟩
    | cons first rest =>
      obtain ⟨own, operands⟩ := Allowance.allows_cons.1 allowed
      obtain ⟨now, later⟩ := Allowance.allows_append.1 operands
      exact ⟨now, below _ ⟨own, later⟩, h⟩
  | closure template =>
    refine ⟨trivial, waiting, fun f mem => ?_⟩
    rcases Array.mem_push.1 mem with before | rfl
    · exact h f before
    · exact allowed
  | choose branches otherwise =>
    cases branches with
    | nil => exact ⟨allowed, waiting, h⟩
    | cons first rest =>
      obtain ⟨test, body⟩ := first
      have parts : (Code.choose ((test, body) :: rest) otherwise).sites =
          test.sites ++ (body.sites ++ (Code.choose rest otherwise).sites) := by
        rw [Code.sites, Code.sites, sitesOfArms, List.append_assoc, List.append_assoc]
      rw [parts] at allowed
      obtain ⟨now, later⟩ := Allowance.allows_append.1 allowed
      exact ⟨now, below _ (Allowance.allows_append.1 later), h⟩
  | loop label body => exact ⟨allowed, below _ allowed, h⟩
  | leave label value => exact ⟨allowed, below _ trivial, h⟩
  | give label value => exact ⟨allowed, below _ trivial, h⟩
  | sequence codes =>
    cases codes with
    | nil => exact ⟨trivial, waiting, h⟩
    | cons first rest =>
      obtain ⟨now, later⟩ := Allowance.allows_append.1 allowed
      exact ⟨now, below _ later, h⟩
  | importAs position path name =>
    refine demands_importPath ?_ h lowered
    refine List.forall_mem_cons.2 ⟨?_, below _ trivial⟩
    exact P.placed (allowed _ (List.mem_singleton_self _))
  | _ => exact ⟨trivial, waiting, h⟩

theorem demands_resume {v : Value} {p : Pending} (own : p.Demands P)
    (waiting : ∀ p ∈ stack, p.Demands P) (h : s.Demands P) : (resume v p stack s).Demands P := by
  have below (p : Pending) (own : p.Demands P) : ∀ q ∈ p :: stack, q.Demands P :=
    List.forall_mem_cons.2 ⟨own, waiting⟩
  cases p with
  | operands env position signature done todo =>
    cases todo with
    | nil => exact ⟨P.asked own.1, below _ (P.placed own.1), h⟩
    | cons next todo =>
      obtain ⟨now, later⟩ := Allowance.allows_append.1 own.2
      exact ⟨now, below _ ⟨own.1, later⟩, h⟩
  | write frame slot => exact ⟨trivial, waiting, h.of_functions (s.functions_writeSlot frame slot v)⟩
  | test env body rest otherwise =>
    rw [resume_test]
    split
    · exact ⟨own.1, waiting, h⟩
    · exact ⟨own.2, waiting, h⟩
  | sequence env codes =>
    cases codes with
    | nil => exact ⟨trivial, waiting, h⟩
    | cons next rest =>
      obtain ⟨now, later⟩ := Allowance.allows_append.1 own
      exact ⟨now, below _ later, h⟩
  | loop => exact ⟨own, below _ own, h⟩
  | leave | give => exact ⟨EvalError.demands_ofCause _, waiting, h⟩
  | _ => exact ⟨trivial, waiting, h⟩

theorem demands_unwind {e : Exit} (leaving : e.Demands P) {p : Pending} (own : p.Demands P)
    (waiting : ∀ p ∈ stack, p.Demands P) (h : s.Demands P) : (unwind e p stack s).Demands P := by
  match e, p, unwind e p stack s, unwindsTo e p stack s with
  | _, _, _, .left | _, _, _, .returned => exact ⟨trivial, waiting, h⟩
  | _, _, _, .located => exact ⟨EvalError.Demands.locate leaving own, waiting, h⟩
  | _, _, _, .undone => exact ⟨leaving, waiting, h.of_functions (s.sameCode_undoLoad _).functions⟩
  | _, _, _, .failed _ | _, _, _, .passed _ => exact ⟨leaving, waiting, h⟩

theorem demands_enter {function : FunctionInfo} {args : List Value}
    (waiting : ∀ p ∈ stack, p.Demands P) (h : s.Demands P) :
    (enter setting function args stack s).Demands P := by
  match enter setting function args stack s, entersTo setting function args stack s with
  | _, .native _ _ _ => exact ⟨Control.demands_ofReply _, waiting, h⟩
  | _, .script _ _ _ _ found _ =>
    have held := h _ (Array.mem_of_getElem? found)
    exact ⟨held, List.forall_mem_cons.2 ⟨trivial, waiting⟩, h⟩
  | _, .dropped _ _ => exact ⟨EvalError.demands_ofCause _, waiting, h⟩
  | _, .noNative _ _ | _, .noFunction _ => exact ⟨trivial, waiting, h⟩

/-- **A step demands nothing new** but the operations of a file that it loads and an operation that is
handed over. -/
theorem demands_step {c : Config} (h : c.Demands P)
    (lowered : ∀ rt source, .lowered rt source ∈ cacheEvents setting c → P.allowsSource rt source)
    (called : ∀ rt signature, .called rt signature ∈ cacheEvents setting c → P.asks rt signature) :
    (step setting c).Demands P := by
  obtain ⟨own, waiting, functions⟩ := h
  match c, step setting c, stepsTo setting c with
  | ⟨.eval env _, _, _⟩, _, .evaluates => exact demands_eval own waiting functions (lowered env.runtime)
  | _, _, .replies done =>
    have same := (Store.sameCode_of_dispatch done).functions
    exact ⟨Control.demands_ofReply _, waiting, functions.of_functions same⟩
  | _, _, .handsOver done =>
    have same := (Store.sameCode_of_dispatch done).functions
    refine ⟨called _ _ ?_, waiting, functions.of_functions same⟩
    unfold cacheEvents
    dsimp only
    rw [done]
    exact List.mem_cons_of_mem _ (List.mem_singleton_self _)
  | _, _, .enters => exact demands_enter waiting functions
  | _, _, .resumes =>
    obtain ⟨first, others⟩ := List.forall_mem_cons.1 waiting
    exact demands_resume first others functions
  | _, _, .unwinds =>
    obtain ⟨first, others⟩ := List.forall_mem_cons.1 waiting
    exact demands_unwind own first others functions
  | _, _, .rests _ => exact ⟨own, waiting, functions⟩

end Machine

/-! ## Requests -/

/-- What a request begins with demands nothing that is not allowed. -/
def Begun.Demands (P : Allowance) : Begun → Prop
  | done _ s => s.Demands P
  | running c => c.Demands P

/-- **A request demands nothing new** but the operations of the source that is run. -/
theorem Request.demands_begin {setting : Setting} {s : Store} (h : s.Demands P) (request : Request)
    (lowered : ∀ rt source, .lowered rt source ∈ request.cacheEvents setting →
      P.allowsSource rt source) : (request.begin setting s).Demands P := by
  have loading (rt : RuntimeId) (name : String) : (s.beginLoad rt name).2.Demands P := h
  match request, request.begin setting s, request.beginsAs setting s with
  | _, _, .build => exact h.of_functions (s.sameCode_buildRuntime setting.registry _ _ _).functions
  | _, _, .drop | _, _, .change => exact h
  | _, _, .offer =>
    intro f mem
    rcases Array.mem_push.1 mem with before | rfl
    · exact h f before
    · trivial
  | _, _, .source prepared =>
    have own := lowered _ _ (List.mem_singleton_self _) _ (Store.isProgram_prepare prepared)
    exact ⟨own, nofun, h.of_functions (Store.prepare_eq prepared).1.functions⟩
  | _, _, .noSource prepared => exact h.of_functions (Store.prepare_eq prepared).1.functions
  | _, _, .fileIn started =>
    obtain ⟨kept, starts, -⟩ := h.startFile (lowered _) started
    exact ⟨starts _ rfl, nofun, kept⟩
  | _, _, .noFileIn started => exact (h.startFile (lowered _) started).1
  | _, _, .fileAs started =>
    obtain ⟨kept, starts, -⟩ := (loading _ _).startFile (lowered _) started
    exact ⟨starts _ rfl, List.forall_mem_singleton.2 trivial, kept⟩
  | _, _, .noFileAs started =>
    obtain ⟨kept, -⟩ := (loading _ _).startFile (lowered _) started
    exact kept.of_functions (Store.sameCode_undoLoad _ _).functions
  | _, _, .call => exact ⟨trivial, nofun, h⟩
  | _, _, .effect => exact ⟨Control.demands_ofReply _, nofun, h⟩

end HostScript
