import HostScript.Proofs.Machine.Demands
import HostScript.Proofs.Machine.Untouched
import HostScript.Proofs.Syntax.Located

/-!
# Proofs/Machine/Failures — where sources fail

A source that cannot be read or compiled fails where its tokens stand.  One that runs fails where an
operation is written: in the source itself, or in a file that it imports, for a machine demands nothing
but what these have.  `Turn.failsIn` says both of requests to run sources.
-/

namespace HostScript

open Text (byteLength)

/-! ## Trees that are no programs -/

namespace Node

/-- Constructs whose parts all have one of the spans. -/
def Within (constructs : List (List Body × Node)) (spans : List Span) : Prop :=
  ∀ c ∈ constructs, c.2.spans ⊆ spans

namespace Within

variable {some others : List (List Body × Node)} {spans more : List Span} {around : List Body}
  {tree : Node}

theorem append (first : Within some spans) (second : Within others more) :
    Within (some ++ others) (spans ++ more) := by
  intro c mem
  rcases List.mem_append.1 mem with left | right
  · exact List.subset_append_of_subset_left _ (first c left)
  · exact List.subset_append_of_subset_right _ (second c right)

/-- A construct and those in its parts. -/
theorem cons {own : Span} (same : tree.spans = own :: spans) (parts : Within others spans) :
    Within ((around, tree) :: others) tree.spans := by
  refine List.forall_mem_cons.2 ⟨List.Subset.refl _, fun c mem => ?_⟩
  exact same ▸ List.subset_cons_of_subset own (parts c mem)

theorem single (same : tree.spans = [tree.span]) : Within [(around, tree)] tree.spans := cons same nofun

end Within

mutual

/-- The spans of the constructs of a tree, parts included, are spans of the tree. -/
theorem within_constructs : ∀ (tree : Node) (around : List Body),
    Within (tree.constructs around) tree.spans
  | .literal _ _, _ | .named _ _, _ | .importFrom _ _ _, _ | .empty _, _ | .declare _ _ none, _
  | .leave _ none, _ | .give _ none, _ => .single rfl
  | .member _ part _ _, around | .unary _ _ part, around | .plain _ part, around
  | .declare _ _ (some part), around | .leave _ (some part), around | .give _ (some part), around =>
    .cons rfl (within_constructs part around)
  | .function _ _ _ body, around | .lambda _ _ body, around =>
    .cons rfl (within_constructs body (.function :: around))
  | .loop _ body, around => .cons rfl (within_constructs body (.loop :: around))
  | .index _ first second, around | .binary _ _ first second, around | .assign _ first second, around =>
    .cons rfl ((within_constructs first around).append (within_constructs second around))
  | .call _ first args, around | .create _ first args, around =>
    .cons rfl ((within_constructs first around).append (within_constructsOf args around))
  | .choose _ branches none, around => .cons rfl (within_constructsOfArms branches around)
  | .choose _ branches (some otherwise), around =>
    .cons rfl ((within_constructsOfArms branches around).append (within_constructs otherwise around))
  | .block _ statements, around => .cons rfl (within_constructsOf statements around)

theorem within_constructsOf : ∀ (trees : List Node) (around : List Body),
    Within (constructsOf around trees) (spansOf trees)
  | [], _ => nofun
  | first :: rest, around =>
    (within_constructs first around).append (within_constructsOf rest around)

theorem within_constructsOfArms : ∀ (branches : List (Node × Node)) (around : List Body),
    Within (constructsOfArms around branches) (spansOfArms branches)
  | [], _ => nofun
  | (test, body) :: rest, around =>
    (within_constructs test around).append
      ((within_constructs body around).append (within_constructsOfArms rest around))

end

/-- What is wrong with a construct is wrong at one of its spans. -/
theorem span_of_fault? {tree : Node} {around : List Body} {cause : CompileError.Cause} {span : Span}
    (h : tree.fault? around = some (cause, span)) : span ∈ tree.spans := by
  unfold fault? at h
  split at h
  case h_5 _ target value =>
    split at h
    · cases h
    · obtain ⟨-, rfl⟩ := Prod.mk.inj (Option.some.inj h)
      exact List.mem_cons_of_mem _ (List.mem_append_left _ target.span_mem_spans)
  case h_6 => cases h
  all_goals
    split at h
    · cases h
    · obtain ⟨-, rfl⟩ := Prod.mk.inj (Option.some.inj h)
      exact span_mem_spans _

end Node

/-- **A tree that is no program is at fault where one of its constructs starts.** -/
theorem stands_compile {number : Nat} {source : List Char} {tree : Node} {e : CompileError}
    (starts : tree.StartsIn source) (h : (compile number source tree).1 = .error e) :
    e.position.Stands source e.span := by
  obtain ⟨position, before, around, part, after, constructs, -, fault⟩ := compile_error_iff.1 h
  have among : (around, part) ∈ tree.constructs [] := by
    rw [constructs]
    exact List.mem_append_right _ List.mem_cons_self
  have inside := tree.within_constructs [] _ among (Node.span_of_fault? fault)
  exact position ▸ (starts _ inside).stands

/-! ## Operations of sources -/

/-- A source that does an operation or an import at a position, if it gets there. -/
def OperatesAt (source : String) (p : Position) : Prop :=
  ∃ program, IsProgram source program ∧ ∃ s?, (p, s?) ∈ program.code.sites

/-- **Operations are written at spots.** -/
theorem OperatesAt.spot {source : String} {p : Position} (h : OperatesAt source p)
    (size : byteLength source.toList ≤ Span.limit) :
    ∃ spot : Spot source.toList, p = spot.position := by
  obtain ⟨program, ⟨number, tree, parsed, compiled⟩, s?, site⟩ := h
  have starts := located_parse size
  rw [parsed] at starts
  obtain ⟨span, inside, stands⟩ := sites_compile compiled _ site
  exact (starts span inside).stands.imp fun _ there => stands.trans there.1

/-- A text that may be compiled when a source is run: the source itself, or that of a file. -/
def Compiled (files : Files) (source text : String) : Prop :=
  text = source ∨ ∃ path full, files.read path = .ok (text, full)

/-- **What may be done when a source is run**, and where it may fail: at operations of the source and of
files. -/
def Allowance.ofSources (files : Files) (source : String) : Allowance where
  site _ site := ∃ text, Compiled files source text ∧ OperatesAt text site.1
  asks _ _ := True
  place p := ∃ text, Compiled files source text ∧ OperatesAt text p
  asked _ := trivial
  placed h := h

theorem Allowance.ofSources_allowsSource {files : Files} {source text : String}
    (compiled : Compiled files source text) (rt : RuntimeId) :
    (ofSources files source).allowsSource rt text := by
  rintro program is_program ⟨p, s?⟩ site
  exact ⟨text, compiled, program, is_program, s?, site⟩

/-! ## Runs -/

theorem Files.read_of_lowered {files : Files} {rt there : RuntimeId} {path text : String}
    (mem : .lowered there text ∈ files.cacheEvents rt path) :
    ∃ full, files.read path = .ok (text, full) := by
  unfold cacheEvents at mem
  split at mem
  · exact absurd mem List.not_mem_nil
  next read =>
    cases List.mem_singleton.1 mem
    exact ⟨_, read⟩

/-- A machine compiles only files. -/
theorem Machine.read_of_lowered {setting : Setting} {c : Config} {rt : RuntimeId} {text : String}
    (mem : .lowered rt text ∈ cacheEvents setting c) :
    ∃ path full, setting.files.read path = .ok (text, full) := by
  unfold cacheEvents at mem
  split at mem
  next env position path name _ =>
    unfold Store.importEvents at mem
    split at mem
    · split at mem
      · exact ⟨_, Files.read_of_lowered mem⟩
      · exact absurd mem List.not_mem_nil
    · exact absurd mem List.not_mem_nil
  next =>
    rcases List.mem_cons.1 mem with never | called
    · cases never
    · split at called
      · cases List.mem_singleton.1 called
      · exact absurd called List.not_mem_nil
  next => exact absurd mem List.not_mem_nil

/-- A machine goes on to demand only what sources have. -/
theorem Machine.demands_sources {setting : Setting} {source : String} {c : Config}
    (h : c.Demands (.ofSources setting.files source)) :
    (step setting c).Demands (.ofSources setting.files source) := by
  refine demands_step h (fun rt text mem => ?_) fun _ _ _ => trivial
  exact Allowance.ofSources_allowsSource (.inr (read_of_lowered mem)) rt

theorem Machine.demands_answer {P : Allowance} {c : Config} {e : EvalError} (h : c.Demands P)
    (answered : answer? c = some (.error e)) : e.Demands P := by
  unfold answer? at answered
  split at answered
  · cases answered
  · obtain rfl := Except.error.inj (Option.some.inj answered)
    exact h.control
  · cases answered

/-! ## Requests -/

/-- **A failure of a source that is run**: it stands at a spot of the source, or is one of an operation of
the source or a file. -/
def ScriptError.FailsIn (files : Files) (source : String) : ScriptError → Prop
  | .lex e => e.Stands source.toList
  | .parse e => e.position.Stands source.toList e.span
  | .compile e => e.position.Stands source.toList e.span
  | .eval e => e.Demands (.ofSources files source)

namespace Store

variable {s t : Store} {files : Files} {text : String} {e : ScriptError}

/-- A source that is no program fails at a spot. -/
theorem failsIn_prepare {rt : RuntimeId} (size : byteLength text.toList ≤ Span.limit)
    (h : s.prepare rt text = (.error e, t)) : e.FailsIn files text := by
  have located := located_parse size
  obtain ⟨failed, read, rfl⟩ | ⟨tree, failed, read, compiled, rfl⟩ := refused_of_prepare h
  · rw [read] at located
    cases failed <;> exact located
  · rw [read] at located
    exact stands_compile located compiled

/-- A file that cannot be started cannot be read, or its text is no program. -/
theorem failsIn_startFile {rt : RuntimeId} {module : NamespaceId} {path full : String}
    (size : byteLength text.toList ≤ Span.limit) (readable : files.read path = .ok (text, full))
    (h : s.startFile files rt module path = (.error e, t)) : e.FailsIn files text := by
  cases fileStarts_of_eq h with
  | unreadable unreadable => cases unreadable.symm.trans readable
  | refused reads prepared =>
    obtain ⟨rfl, rfl⟩ := Prod.mk.inj (Except.ok.inj (reads.symm.trans readable))
    exact failsIn_prepare size prepared

end Store

/-- A request to run a source, which it may read from a file. -/
inductive Request.Runs (files : Files) (source : String) : Request → Prop where
  | source {rt : RuntimeId} {module : NamespaceId} : Runs files source (.source rt module source)
  | file {rt : RuntimeId} {path name full : String} :
    files.read path = .ok (source, full) → Runs files source (.fileAs rt path name)

/-- What a request to run a source compiles first is the source. -/
theorem Request.Runs.compiled {setting : Setting} {source text : String} {request : Request}
    {rt : RuntimeId} (h : request.Runs setting.files source)
    (mem : .lowered rt text ∈ request.cacheEvents setting) : Compiled setting.files source text := by
  cases h with
  | source =>
    cases List.mem_singleton.1 mem
    exact .inl rfl
  | file => exact .inr ⟨_, Files.read_of_lowered mem⟩

/-- A request to run a source that is done at once has failed in it. -/
theorem Request.Runs.failsIn {setting : Setting} {source : String} {request : Request} {s t : Store}
    {e : ScriptError} (h : request.Runs setting.files source)
    (size : byteLength source.toList ≤ Span.limit) (failed : request.begin setting s = .done (.error e) t) :
    e.FailsIn setting.files source := by
  have begins := request.beginsAs setting s
  rw [failed] at begins
  cases h with
  | source =>
    cases begins with
    | noSource prepared => exact Store.failsIn_prepare size prepared
  | file readable =>
    cases begins with
    | noFileAs started => exact Store.failsIn_startFile size readable started

/-- **A request to run a source fails in it**, or in a file, if there are no functions yet. -/
theorem Turn.failsIn {turn : Turn} {source : String} {s t : Store} {e : ScriptError}
    (runs : turn.request.Runs turn.setting.files source) (fresh : s.functions = #[])
    (size : byteLength source.toList ≤ Span.limit)
    (failed : turn.play Machine.step s = some (.error e, t)) : e.FailsIn turn.setting.files source := by
  -- Functions that are there already could belong to sources that nobody asks to run now.
  have first : s.Demands (.ofSources turn.setting.files source) := by
    intro f mem
    rw [fresh] at mem
    exact absurd mem (Array.not_mem_empty f)
  have begun : (turn.request.begin turn.setting s).Demands _ :=
    Request.demands_begin first turn.request fun rt _ mem =>
      Allowance.ofSources_allowsSource (runs.compiled mem) rt
  unfold Turn.play at failed
  cases begins : turn.request.begin turn.setting s with
  | done answer u =>
    rw [begins] at failed
    obtain ⟨rfl, rfl⟩ := Prod.mk.inj (Option.some.inj failed)
    exact runs.failsIn size begins
  | running c =>
    rw [begins] at failed begun
    obtain ⟨⟨answer, u⟩, ran, same⟩ := Option.map_eq_some_iff.1 failed
    obtain ⟨last, demands, answered, -⟩ := Machine.runBy_induct (fun _ => Machine.demands_sources) begun ran
    cases answer with
    | ok v => cases congrArg Prod.fst same
    | error failure =>
      obtain rfl := Except.error.inj (congrArg Prod.fst same)
      exact Machine.demands_answer demands answered

end HostScript
