import HostScript.Token.Cursor

/-!
# Proofs/Syntax/Consumption — a cursor neither loses nor repeats tokens

What is done with a cursor is an `Action`, and a `log` of actions keeps what each of them answered.  An action
goes in one of three ways (`Entry.Goes`): it leaves the cursor as it is, it takes the held token and pulls the
next one from the stream, or it pulls an error, which it reports while the held token stays.

So each pull is accounted for.  Whatever is done, the items pulled are those of the stream in order, the
tokens taken are those among them, up to the one that is held, and the errors reported are the others:
`Cursor.log_exact`, by induction on the actions.
-/

namespace HostScript

namespace TokenStream

/-- The first items of a stream, whose end repeats. -/
def first (s : TokenStream) (n : Nat) : List (Except LexError Token) :=
  (s.items ++ List.replicate n (Except.ok s.final.token)).take n

theorem first_nil (final : EndMark) (n : Nat) :
    first ⟨[], final⟩ (n + 1) = .ok final.token :: first ⟨[], final⟩ n := rfl

theorem first_cons (item : Except LexError Token) (rest : List (Except LexError Token)) (final : EndMark)
    (n : Nat) : first ⟨item :: rest, final⟩ (n + 1) = item :: first ⟨rest, final⟩ n := by
  refine congrArg (item :: ·) ?_
  show (rest ++ List.replicate (n + 1) _).take n = (rest ++ List.replicate n _).take n
  rw [List.replicate_succ', ← List.append_assoc, List.take_append_of_le_length (by simp)]

end TokenStream

/-- The error of an item. -/
def faultOf? : Except LexError Token → Option LexError
  | .ok _ => none
  | .error e => some e

namespace Cursor

/-! ## Actions -/

/-- What is done with a cursor. -/
inductive Action where
  | peek
  | advance
  | check (kind : Kind)
  | accept (kind : Kind)
  | expect (kind : Kind)
  /-- Expects an identifier for its text. -/
  | expectName
  deriving DecidableEq, Repr

/-- What an action answers. -/
inductive Answer where
  | token (token : Token)
  | truth (holds : Bool)
  | name (text : String)
  | error (e : SyntaxError)
  deriving DecidableEq, Repr

/-- The answer that a result makes. -/
def Answer.ofResult {α : Type} (good : α → Answer) : Except SyntaxError α → Answer
  | .ok a => good a
  | .error e => .error e

/-- Does one thing with a cursor. -/
def perform (c : Cursor) : Action → Answer × Cursor
  | .peek => (.token c.current, c)
  | .advance => (.ofResult .token (c.advance.1.mapError .lex), c.advance.2)
  | .check kind => (.truth (c.kind = kind), c)
  | .accept kind => (.ofResult .truth ((c.accept kind).1.mapError .lex), (c.accept kind).2)
  | .expect kind => (.ofResult .token (c.expect kind).1, (c.expect kind).2)
  | .expectName => (.ofResult (.name ·.text) (c.expect .identifier).1, (c.expect .identifier).2)

/-- An action with its answer, between the cursor before it and the one after it. -/
structure Entry where
  before : Cursor
  action : Action
  answer : Answer
  after : Cursor

/-- What actions answer, one after the other. -/
def log : List Action → Cursor → List Entry
  | [], _ => []
  | action :: rest, c =>
    ⟨c, action, (c.perform action).1, (c.perform action).2⟩ :: log rest (c.perform action).2

/-- The cursor after actions. -/
def afterAll (actions : List Action) (c : Cursor) : Cursor :=
  actions.foldl (fun c action => (c.perform action).2) c

/-- The token that an action has returned or eaten. -/
def Entry.taken? (entry : Entry) : Option Token :=
  match entry.action, entry.answer with
  | .advance, .token token | .expect _, .token token => some token
  | .accept _, .truth true | .expectName, .name _ => some entry.before.current
  | _, _ => none

/-- The error of the stream that an action has reported. -/
def Entry.reported? (entry : Entry) : Option LexError :=
  match entry.answer with
  | .error (.lex e) => some e
  | _ => none

/-- The item of the stream that an action has pulled: the error it reports, or the token that is held in place
of the one it has taken. -/
def Entry.pulled? (entry : Entry) : Option (Except LexError Token) :=
  match entry.reported? with
  | some e => some (.error e)
  | none => entry.taken?.map fun _ => .ok entry.after.current

/-! ## How an action goes -/

/-- The next item of the stream. -/
def next (c : Cursor) : Except LexError Token := c.upcoming.head?.getD (.ok c.final.token)

/-- Past an error of the stream: the held token stays. -/
def pastError (c : Cursor) : Cursor := { c with upcoming := c.upcoming.tail }

/-- Past the held token, with the next one held. -/
def pastToken (c : Cursor) (token : Token) : Cursor :=
  { c with current := token, upcoming := c.upcoming.tail, previous := c.current.span }

/-- Advancing takes the held token just if the next item is a token. -/
theorem advance_eq (c : Cursor) : c.advance =
    match c.next with
    | .ok token => (.ok c.current, c.pastToken token)
    | .error e => (.error e, c.pastError) := by
  obtain ⟨current, upcoming, final, previous⟩ := c
  match upcoming with
  | [] | .ok _ :: _ | .error _ :: _ => rfl

/-- Whether an action is to take the held token. -/
def Action.wants (c : Cursor) : Action → Bool
  | .peek | .check _ => false
  | .advance => true
  | .accept kind | .expect kind => c.kind = kind
  | .expectName => c.kind = .identifier

/-- What an action answers that takes a token. -/
def Action.given (token : Token) : Action → Answer
  | .advance | .expect _ | .peek => .token token
  | .accept _ | .check _ => .truth true
  | .expectName => .name token.text

/-- What an action answers that takes nothing. -/
def Action.left (c : Cursor) : Action → Answer
  | .peek | .advance => .token c.current
  | .check kind => .truth (c.kind = kind)
  | .accept _ => .truth false
  | .expect kind => .error (.parse (c.unexpected kind.name))
  | .expectName => .error (.parse (c.unexpected Kind.identifier.name))

/-- **How an action goes.**  What does not want the held token changes nothing; what wants it takes it if
the next item of the stream is a token, and else reports the error that this item is, while the held token
and the place of the last one stay. -/
inductive Entry.Goes (entry : Entry) : Prop where
  | stays : entry.action.wants entry.before = false → entry.answer = entry.action.left entry.before →
    entry.after = entry.before → Goes entry
  | takes {token : Token} : entry.action.wants entry.before = true → entry.before.next = .ok token →
    entry.answer = entry.action.given entry.before.current → entry.after = entry.before.pastToken token →
    Goes entry
  | fails {e : LexError} : entry.action.wants entry.before = true → entry.before.next = .error e →
    entry.answer = .error (.lex e) → entry.after = entry.before.pastError → Goes entry

theorem perform_of_wants {c : Cursor} {action : Action} (h : action.wants c = true) :
    c.perform action =
      match c.next with
      | .ok token => (action.given c.current, c.pastToken token)
      | .error e => (.error (.lex e), c.pastError) := by
  cases action with
  | peek | check => cases h
  | advance =>
    rw [perform, advance_eq]
    cases c.next <;> rfl
  | accept kind =>
    rw [perform, accept, if_pos (of_decide_eq_true h), advance_eq]
    cases c.next <;> rfl
  | expect kind =>
    rw [perform, expect, if_pos (of_decide_eq_true h), advance_eq]
    cases c.next <;> rfl
  | expectName =>
    rw [perform, expect, if_pos (of_decide_eq_true h), advance_eq]
    cases c.next <;> rfl

theorem perform_of_wants_eq_false {c : Cursor} {action : Action} (h : action.wants c = false) :
    c.perform action = (action.left c, c) := by
  cases action with
  | advance => cases h
  | peek | check => rfl
  | accept kind =>
    rw [perform, accept, if_neg (of_decide_eq_false h)]
    rfl
  | expect kind =>
    rw [perform, expect, if_neg (of_decide_eq_false h)]
    rfl
  | expectName =>
    rw [perform, expect, if_neg (of_decide_eq_false h)]
    rfl

theorem goes_perform (c : Cursor) (action : Action) :
    Entry.Goes ⟨c, action, (c.perform action).1, (c.perform action).2⟩ := by
  cases wants : action.wants c with
  | false =>
    rw [perform_of_wants_eq_false wants]
    exact .stays wants rfl rfl
  | true =>
    rw [perform_of_wants wants]
    cases next : c.next with
    | ok token => exact .takes wants next rfl rfl
    | error e => exact .fails wants next rfl rfl

/-- What an action that goes so has taken, reported and pulled. -/
theorem Entry.Goes.accounts {entry : Entry} (h : entry.Goes) :
    (entry.taken? = none ∧ entry.reported? = none ∧ entry.pulled? = none ∧
      entry.after = entry.before) ∨
    (∃ token, entry.taken? = some entry.before.current ∧ entry.reported? = none ∧
      entry.pulled? = some (.ok token) ∧ entry.before.next = .ok token ∧
      entry.after = entry.before.pastToken token) ∨
    (∃ e, entry.taken? = none ∧ entry.reported? = some e ∧ entry.pulled? = some (.error e) ∧
      entry.before.next = .error e ∧ entry.after = entry.before.pastError) := by
  obtain ⟨before, action, answer, after⟩ := entry
  cases h with
  | stays wants answered unchanged =>
    dsimp only at answered
    subst answered
    refine .inl ?_
    cases action with
    | advance => cases wants
    | _ => exact ⟨rfl, rfl, rfl, unchanged⟩
  | @takes token wants next answered moved =>
    dsimp only at answered moved
    subst answered moved
    refine .inr (.inl ⟨token, ?_⟩)
    cases action with
    | peek | check => cases wants
    | _ => exact ⟨rfl, rfl, rfl, next, rfl⟩
  | @fails e wants next answered moved =>
    dsimp only at answered
    subst answered
    refine .inr (.inr ⟨e, ?_⟩)
    cases action with
    | peek | check => cases wants
    | _ => exact ⟨rfl, rfl, rfl, next, moved⟩

/-! ## Logs -/

/-- The next items that a cursor pulls. -/
def ahead (c : Cursor) (n : Nat) : List (Except LexError Token) :=
  TokenStream.first ⟨c.upcoming, c.final⟩ n

theorem ahead_succ (c : Cursor) (n : Nat) : c.ahead (n + 1) = c.next :: c.pastError.ahead n := by
  obtain ⟨current, upcoming, final, previous⟩ := c
  cases upcoming with
  | nil => exact TokenStream.first_nil final n
  | cons item rest => exact TokenStream.first_cons item rest final n

/-- **What a log accounts for**, from the cursor it starts with to the one it ends with. -/
structure Accounted (c : Cursor) (entries : List Entry) (last : Cursor) : Prop where
  pulled : entries.filterMap Entry.pulled? = c.ahead (entries.filterMap Entry.pulled?).length
  taken : entries.filterMap Entry.taken? ++ [last.current] =
    c.current :: (entries.filterMap Entry.pulled?).filterMap Except.toOption
  reported : entries.filterMap Entry.reported? = (entries.filterMap Entry.pulled?).filterMap faultOf?
  goes : ∀ entry ∈ entries, entry.Goes

theorem Accounted.cons {entry : Entry} {entries : List Entry} {last : Cursor} (first : entry.Goes)
    (rest : Accounted entry.after entries last) : Accounted entry.before (entry :: entries) last := by
  have goes := List.forall_mem_cons.2 ⟨first, rest.goes⟩
  obtain ⟨taken, reported, pulled, unchanged⟩ | ⟨token, taken, reported, pulled, next, moved⟩ |
    ⟨e, taken, reported, pulled, next, moved⟩ := first.accounts
  · rw [unchanged] at rest
    refine ⟨?_, ?_, ?_, goes⟩
    · rw [List.filterMap_cons_none pulled]
      exact rest.pulled
    · rw [List.filterMap_cons_none taken, List.filterMap_cons_none pulled]
      exact rest.taken
    · rw [List.filterMap_cons_none reported, List.filterMap_cons_none pulled]
      exact rest.reported
  · rw [moved] at rest
    refine ⟨?_, ?_, ?_, goes⟩
    · rw [List.filterMap_cons_some pulled, List.length_cons, ahead_succ, next]
      exact congrArg _ rest.pulled
    · rw [List.filterMap_cons_some taken, List.filterMap_cons_some pulled, List.cons_append, rest.taken]
      rfl
    · rw [List.filterMap_cons_none reported, List.filterMap_cons_some pulled]
      exact rest.reported
  · rw [moved] at rest
    refine ⟨?_, ?_, ?_, goes⟩
    · rw [List.filterMap_cons_some pulled, List.length_cons, ahead_succ, next]
      exact congrArg _ rest.pulled
    · rw [List.filterMap_cons_none taken, List.filterMap_cons_some pulled]
      exact rest.taken
    · rw [List.filterMap_cons_some reported, List.filterMap_cons_some pulled, rest.reported]
      rfl

theorem accounted_log (actions : List Action) (c : Cursor) :
    Accounted c (log actions c) (afterAll actions c) := by
  induction actions generalizing c with
  | nil => exact ⟨rfl, rfl, rfl, List.forall_mem_nil _⟩
  | cons action rest ih => exact .cons (goes_perform c action) (ih _)

/-- A cursor starts with the first item of the stream, and the others are ahead of it. -/
theorem ahead_ofSource {source : String} {c : Cursor} (h : ofSource source = .ok c) (n : Nat) :
    (TokenStream.ofSource source.toList).first (n + 1) = .ok c.current :: c.ahead n := by
  unfold ofSource at h
  dsimp only at h
  generalize TokenStream.ofSource source.toList = stream at h ⊢
  obtain ⟨items, final⟩ := stream
  match items with
  | [] =>
    obtain rfl := Except.ok.inj h
    rfl
  | .ok token :: rest =>
    obtain rfl := Except.ok.inj h
    exact TokenStream.first_cons (.ok token) rest final n
  | .error e :: rest => cases h

/-- **A cursor neither loses nor repeats tokens.**  The first item of the stream and those that are pulled are
the first items of the stream; the tokens that have been taken, and the one that is held in the end, are the
tokens among them, in order; the errors that have been reported are the errors among them; and every action
goes as `Entry.Goes` says. -/
theorem log_exact {source : String} {c : Cursor} (start : ofSource source = .ok c) (actions : List Action) :
    let entries := log actions c
    let met := (TokenStream.ofSource source.toList).first ((entries.filterMap Entry.pulled?).length + 1)
    .ok c.current :: entries.filterMap Entry.pulled? = met ∧
      entries.filterMap Entry.taken? ++ [(afterAll actions c).current] = met.filterMap Except.toOption ∧
      entries.filterMap Entry.reported? = met.filterMap faultOf? ∧
      ∀ entry ∈ entries, entry.Goes := by
  obtain ⟨pulled, taken, reported, goes⟩ := accounted_log actions c
  dsimp only
  rw [ahead_ofSource start, ← pulled]
  exact ⟨rfl, taken, reported, goes⟩

/-- A cursor on `a # b` that meets an error, refuses a comma and then goes past the end. -/
theorem log_exact_over_error : ∃ c, ofSource "a # b" = .ok c ∧
    let actions := [.peek, .advance, .expect .comma, .accept .dot, .expectName, .advance, .advance]
    let entries := log actions c
    let met := (TokenStream.ofSource "a # b".toList).first ((entries.filterMap Entry.pulled?).length + 1)
    .ok c.current :: entries.filterMap Entry.pulled? = met ∧
      entries.filterMap Entry.taken? ++ [(afterAll actions c).current] = met.filterMap Except.toOption ∧
      entries.filterMap Entry.reported? = met.filterMap faultOf? ∧
      ∀ entry ∈ entries, entry.Goes := by
  cases start : ofSource "a # b" with
  | ok c => exact ⟨c, rfl, log_exact start _⟩
  | error e =>
    have good : (ofSource "a # b").toBool = true := by decide +kernel
    rw [start] at good
    cases good

end Cursor

end HostScript
