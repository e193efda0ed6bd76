import HostScript.Command
import HostScript.Proofs.Machine.Failures

/-!
# Proofs/Source/Reports — what reports point at

The report of an error starts at the spot of the error, counted in bytes, and shows the line and column
of the character with this number (`Report.location?_ofError`).  So a report of a source that is run shows
the position of its error where each character before it takes one byte and only line feeds end lines
(`Command.reports_point_in_plain_text`), and not where there are other characters: on a source of one line
it shows the number of bytes (`Report.label?_singleLine`).

A position does not say of which file it is, and every report is made against the source that is run, so
an error in a function of another file is shown where the source has the same position.
-/

namespace HostScript

open Text (byteLength)

/-- An error at a spot of a source. -/
structure ScriptError.StandsAt {source : List Char} (e : ScriptError) (spot : Spot source) : Prop where
  position : e.position? = some spot.position
  span (span : Span) : e.span? = some span → span.start = spot.offset

namespace Report

variable {source : List Char} {e : ScriptError} {spot : Spot source}

/-! ## Ranges and labels -/

/-- **The range of an error starts at its spot.** -/
theorem range?_at (h : e.StandsAt spot) :
    ∃ stop, range? source e = some (spot.offset, stop) ∧ stop ≤ byteLength source := by
  have inside := spot.offset_le
  unfold range?
  dsimp only
  cases known : e.span? with
  | some span =>
    refine ⟨min (max span.stop (span.start + 1)) (byteLength source), ?_, Nat.min_le_right _ _⟩
    have start := h.span span known
    have least : min span.start (min (max span.stop (span.start + 1)) (byteLength source)) =
        spot.offset := by omega
    dsimp only
    rw [least]
  | none =>
    refine ⟨max (min (spot.offset + 1) (byteLength source)) spot.offset, ?_, by omega⟩
    dsimp only
    rw [h.position, Option.map_some, offsetOf_position]

/-- What ends inside of a plain source has a label. -/
theorem label?_ne_none (plain : IsPlain source) {start stop : Nat} (first : start ≤ byteLength source)
    (last : stop ≤ byteLength source) : label? source (start, stop) ≠ none := by
  rw [plain.byteLength] at first last
  have inside : (source.length < start || (start < stop && source.length < stop - 1)) = false := by
    rw [Bool.or_eq_false_iff, Bool.and_eq_false_iff, decide_eq_false_iff_not, decide_eq_false_iff_not,
      decide_eq_false_iff_not]
    omega
  unfold label?
  dsimp only
  rw [inside]
  exact Option.some_ne_none _

theorem lineStarts_eq_nil {place : Nat} {cs : List Char} (single : ∀ c ∈ cs, endsLine c = false) :
    lineStarts place cs = [] := by
  induction place, cs using lineStarts.induct with
  | case1 => rfl
  | case2 => rfl
  | case3 => rfl
  | case4 place rest more ih => exact absurd (single '\r' List.mem_cons_self) (by decide)
  | case5 place c rest more final pair ends ih =>
    rw [single c List.mem_cons_self] at ends
    exact absurd ends Bool.false_ne_true
  | case6 place c rest more final pair inside ih =>
    rw [lineStarts.eq_5 place c rest more final pair, if_neg inside]
    exact ih fun d mem => single d (List.mem_cons_of_mem _ mem)

/-- **On a source of one line the label shows the number of bytes** before it, one more. -/
theorem label?_singleLine (single : ∀ c ∈ source, endsLine c = false) {start stop : Nat} {p : Position}
    (shown : label? source (start, stop) = some p) : p = ⟨1, start + 1⟩ := by
  unfold label? at shown
  dsimp only at shown
  split at shown
  · cases shown
  · rw [lineStarts_eq_nil single] at shown
    exact (Option.some.inj shown).symm

/-! ## Locations -/

/-- **What a report shows of a spot**: the label of a range that starts there, which is the position of
the spot in plain text. -/
structure Locates (path : String) (spot : Spot source) (report : Report) : Prop where
  label : ∃ stop, report.location? =
    (label? source (spot.offset, stop)).map fun shown => path ++ ":" ++ shown.text
  plain (location : String) : IsPlain spot.front → ¬spot.IsPastLastLine →
    report.location? = some location → location = path ++ ":" ++ spot.position.text
  shown : IsPlain source → report.location? ≠ none

theorem locates_ofError {text : String} {spot : Spot text.toList} (h : e.StandsAt spot) (path : String) :
    Locates path spot (ofError path text e) := by
  obtain ⟨stop, range, inside⟩ := range?_at h
  have location : (ofError path text e).location? =
      (label? text.toList (spot.offset, stop)).map fun shown => path ++ ":" ++ shown.text := by
    unfold ofError
    dsimp only
    rw [h.position, range]
    rfl
  refine ⟨⟨stop, location⟩, fun shown plain more same => ?_, fun plain none => ?_⟩
  · obtain ⟨p, label, rfl⟩ := Option.map_eq_some_iff.1 (location.symm.trans same)
    rw [label?_offset plain more label]
  · exact label?_ne_none plain spot.offset_le inside (Option.map_eq_none_iff.1 (location.symm.trans none))

end Report

/-! ## Errors of sources -/

namespace ScriptError.FailsIn

variable {files : Files} {source : String} {e : ScriptError}

/-- An error of a source is at the spot that has its position. -/
theorem standsAt (h : e.FailsIn files source) {spot : Spot source.toList}
    (known : e.position? = some spot.position) : e.StandsAt spot := by
  have start {p : Position} {span : Span} (stands : p.Stands source.toList span)
      (same : some p = some spot.position) : span.start = spot.offset := by
    obtain ⟨there, rfl, start⟩ := stands
    exact start.trans (Report.offset_eq_of_position (Option.some.inj same))
  refine ⟨known, fun span same => ?_⟩
  cases e with
  | lex e => exact Option.some.inj same ▸ start h known
  | parse e => exact Option.some.inj same ▸ start h known
  | compile e => exact Option.some.inj same ▸ start h known
  | eval e => cases same

/-- An error of a source is written in it, or is a failure of an operation of another file. -/
theorem written (h : e.FailsIn files source) (size : byteLength source.toList ≤ Span.limit) {p : Position}
    (known : e.position? = some p) :
    (∃ spot : Spot source.toList, p = spot.position ∧ ∀ failure, e = .eval failure → OperatesAt source p) ∨
      ∃ failure path text full, e = .eval failure ∧ files.read path = .ok (text, full) ∧ text ≠ source ∧
        OperatesAt text p := by
  have here {there : Position} {span : Span} (stands : there.Stands source.toList span)
      (same : some there = some p) : ∃ spot : Spot source.toList, p = spot.position :=
    stands.imp fun spot at_spot => (Option.some.inj same).symm.trans at_spot.1
  cases e with
  | lex e => exact .inl ((here h known).imp fun _ position => ⟨position, nofun⟩)
  | parse e => exact .inl ((here h known).imp fun _ position => ⟨position, nofun⟩)
  | compile e => exact .inl ((here h known).imp fun _ position => ⟨position, nofun⟩)
  | eval failure =>
    obtain ⟨text, compiled, operates⟩ := h p known
    by_cases same : text = source
    · subst same
      exact .inl ((operates.spot size).imp fun _ position => ⟨position, fun _ _ => operates⟩)
    · obtain ⟨path, full, readable⟩ := compiled.resolve_left same
      exact .inr ⟨failure, path, text, full, rfl, readable, same, operates⟩

end ScriptError.FailsIn

/-! ## Commands -/

namespace Command

/-- The source that a command runs, with the path that it is shown with. -/
def subject? (files : Files) : Command → Option (String × String)
  | run path => (files.read path).toOption.map fun read => (path, read.1)
  | eval source => some ("<expr>", source)
  | _ => none

/-- What a command answers that runs a source. -/
def outcome (files : Files) (fuel : Nat) : Command → Option (Except ScriptError Value × Store)
  | run path =>
    let (setting, s, rt) := defaultHost files
    Machine.executeFile setting fuel rt path s
  | eval source =>
    let (setting, s, rt) := defaultHost files
    let (module, s) := s.newSpace
    Machine.execute setting fuel rt module source s
  | _ => none

/-- The error that a command fails with that runs a source, and what has been printed before. -/
def failure? (files : Files) (fuel : Nat) (command : Command) : Option (ScriptError × String) :=
  (command.outcome files fuel).bind fun (answer, s) =>
    match answer with
    | .error e => some (e, s.printed)
    | .ok _ => none

variable {files : Files} {fuel : Nat} {command : Command} {path source printed : String}
  {e : ScriptError} {p : Position}

theorem outcome_of_failure (failed : command.failure? files fuel = some (e, printed)) :
    ∃ s, command.outcome files fuel = some (.error e, s) ∧ s.printed = printed := by
  obtain ⟨⟨answer, s⟩, ended, same⟩ := Option.bind_eq_some_iff.1 failed
  cases answer with
  | ok v => cases same
  | error e =>
    obtain ⟨rfl, rfl⟩ := Prod.mk.inj (Option.some.inj same)
    exact ⟨s, ended, rfl⟩

theorem read_of_subject {file : String} (subject : (run file).subject? files = some (path, source)) :
    path = file ∧ ∃ full, files.read file = .ok (source, full) := by
  unfold subject? at subject
  dsimp only at subject
  cases read : files.read file with
  | error failed =>
    rw [read] at subject
    cases subject
  | ok found =>
    rw [read] at subject
    obtain ⟨rfl, rfl⟩ := Prod.mk.inj (Option.some.inj subject)
    exact ⟨rfl, found.2, rfl⟩

/-- A command that fails responds with its error, seen against the source. -/
theorem respond_of_failure (subject : command.subject? files = some (path, source))
    (failed : command.failure? files fuel = some (e, printed)) :
    command.respond files fuel = some (.ofError printed path (some source) e) := by
  obtain ⟨s, ended, rfl⟩ := outcome_of_failure failed
  cases command with
  | run file =>
    obtain ⟨rfl, full, readable⟩ := read_of_subject subject
    unfold outcome at ended
    unfold respond runFile
    dsimp only at ended ⊢
    rw [ended, readable]
    rfl
  | eval text =>
    obtain ⟨rfl, rfl⟩ := Prod.mk.inj (Option.some.inj subject)
    unfold outcome at ended
    unfold respond evalSource
    dsimp only at ended ⊢
    rw [ended]
    rfl
  | _ => cases subject

theorem functions_defaultHost (files : Files) : (defaultHost files).2.1.functions = #[] :=
  (Store.sameCode_buildRuntime .empty _ _ _ _).functions

/-- A command that runs a source fails in it, or in a file. -/
theorem failsIn_of_failure (subject : command.subject? files = some (path, source))
    (size : byteLength source.toList ≤ Span.limit)
    (failed : command.failure? files fuel = some (e, printed)) : e.FailsIn files source := by
  obtain ⟨s, ended, rfl⟩ := outcome_of_failure failed
  have fresh := functions_defaultHost files
  have same : (defaultHost files).1.files = files := rfl
  unfold outcome at ended
  -- The library takes long to compute, and nothing more is needed of it.
  generalize defaultHost files = host at ended fresh same
  obtain ⟨setting, start, rt⟩ := host
  subst same
  cases command with
  | run file =>
    obtain ⟨rfl, full, readable⟩ := read_of_subject subject
    dsimp only at ended
    rw [Machine.executeFile, ← Turn.play_fileAs] at ended
    exact @Turn.failsIn ⟨setting, fuel, _⟩ source start s e (.file readable) fresh size ended
  | eval text =>
    obtain ⟨rfl, rfl⟩ := Prod.mk.inj (Option.some.inj subject)
    dsimp only at ended
    rw [← Turn.play_source] at ended
    exact @Turn.failsIn ⟨setting, fuel, _⟩ text start.newSpace.2 s e .source fresh size ended
  | _ => cases subject

/-- **A report of a source that is run points at its error in plain text.**  It shows the position of the
error in the source, as far as the text before that is plain; and there the error is written, unless it is
a failure of an operation of another file. -/
theorem reports_point_in_plain_text (subject : command.subject? files = some (path, source))
    (failed : command.failure? files fuel = some (e, printed)) (known : e.position? = some p)
    (size : byteLength source.toList ≤ Span.limit) :
    ∃ report : Report, command.respond files fuel = some (.failure printed (.report report)) ∧
      (∀ spot : Spot source.toList, p = spot.position → report.Locates path spot) ∧
      ((∃ spot : Spot source.toList, p = spot.position ∧
          ∀ failure, e = .eval failure → OperatesAt source p) ∨
        ∃ failure file text full, e = .eval failure ∧ files.read file = .ok (text, full) ∧
          text ≠ source ∧ OperatesAt text p) := by
  have fails := failsIn_of_failure subject size failed
  refine ⟨.ofError path source e, ?_, fun spot position => ?_, fails.written size known⟩
  · rw [respond_of_failure subject failed]
    unfold Response.ofError
    rw [known]
  · exact Report.locates_ofError (fails.standsAt (position ▸ known)) path

end Command

/-- The text of a file that can be read is among the files. -/
theorem Files.mem_of_read {files : Files} {path text full : String}
    (h : files.read path = .ok (text, full)) : ∃ names, (names, some text) ∈ files.entries := by
  unfold read at h
  cases leads : files.locate path with
  | error failed =>
    rw [leads] at h
    cases h
  | ok found =>
    rw [leads] at h
    cases found with
    | above => cases h
    | inside names =>
      dsimp only [Bind.bind, Except.bind] at h
      split at h
      next other text' entry =>
        cases h
        exact ⟨other, List.mem_of_find?_eq_some entry⟩
      · cases h
      · cases h

/-- A file that divides by zero in its second line. -/
def Files.dividing : Files := ⟨"/r", [], [(["a.brisk"], some "x = 1\nx / 0")], []⟩

namespace Command

/-- The file with a division by zero in its second line is reported there. -/
theorem reports_point_in_plain_text_division :
    ∃ report : Report,
      (run "a.brisk").respond .dividing 20 = some (.failure "" (.report report)) ∧
        report.location? = some "a.brisk:2:1" ∧ OperatesAt "x = 1\nx / 0" ⟨2, 1⟩ := by
  have subject : (run "a.brisk").subject? .dividing = some ("a.brisk", "x = 1\nx / 0") := by
    decide +kernel
  have failed : (run "a.brisk").failure? .dividing 20 =
      some (.eval ⟨.divisionByZero, some ⟨2, 1⟩⟩, "") := by decide +kernel
  obtain ⟨report, responds, locates, written⟩ :=
    reports_point_in_plain_text subject failed rfl (by decide +kernel)
  have own (path text full : String) (readable : Files.dividing.read path = .ok (text, full)) :
      text = "x = 1\nx / 0" := by
    obtain ⟨names, mem⟩ := Files.mem_of_read readable
    cases List.mem_singleton.1 mem
    rfl
  obtain ⟨spot, position, operates⟩ := written.resolve_right fun there => by
    obtain ⟨-, path, text, full, -, readable, other, -⟩ := there
    exact other (own path text full readable)
  have locates := locates spot position
  have plain : Report.IsPlain "x = 1\nx / 0".toList := by decide +kernel
  obtain ⟨location, shown⟩ := Option.ne_none_iff_exists'.1 (locates.shown plain)
  have before : Report.IsPlain spot.front := fun c mem =>
    plain c (spot.split.symm ▸ List.mem_append_left _ mem)
  have inside : ¬spot.IsPastLastLine := by
    rintro ⟨rest, last⟩
    have split := spot.split
    rw [rest, List.append_nil] at split
    rw [← split] at last
    exact absurd last (by decide +kernel)
  refine ⟨report, responds, ?_, operates _ rfl⟩
  rw [shown, locates.plain location before inside shown, ← position]
  rfl

/-- **A report does not point at its error after characters of more than one byte**: the division is in
the sixth column, and the seventh is reported. -/
theorem report_counts_bytes :
    (eval "'é'; 1/0").failure? .empty 20 = some (.eval ⟨.divisionByZero, some ⟨1, 6⟩⟩, "") ∧
      (eval "'é'; 1/0").respond .empty 20 =
        some (.failure "" (.report ⟨"Error: runtime error: division by zero", some "<expr>:1:7"⟩)) := by
  decide +kernel

end Command

end HostScript
