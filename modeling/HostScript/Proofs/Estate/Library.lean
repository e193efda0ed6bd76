import HostScript.Library
import HostScript.Proofs.Estate.Fences

/-!
# Proofs/Estate/Library — the library works outside of every estate

Members are put together from a few kinds, each of which works outside of an estate if what it is given
does.  So the type of types does, and so does every type of the library: most of them make nothing but
truth values, numbers and texts, and lists are reached through their receiver alone.
-/

namespace HostScript

variable {estate grounds : Cell → Prop}

/-! ## Members -/

namespace Effect

/-- An effect that only reads the heap. -/
theorem respects_reads {reply : Heap → Reply} (outside : ∀ h : Heap, (reply h).Outside estate) :
    Respects estate grounds fun h => (reply h, h) :=
  fun h fenced => ⟨outside h, fenced.leaves⟩

theorem respects_refuse (message : String) : (refuse message).Respects estate grounds :=
  respects_reads fun _ => trivial

theorem respects_onReceiver (member : String) {receiver : Option Value} {f : Value → Effect}
    (receives : ReceiverOutside estate receiver)
    (respects : ∀ v, v.Outside estate → (f v).Respects estate grounds) :
    (onReceiver member receiver f).Respects estate grounds := by
  unfold onReceiver
  split
  next v => exact respects v (receives v rfl)
  next => exact respects_refuse _

theorem respects_onHeld {α : Type} (view : Payload → Option α) (member : String)
    (receiver : Option Value) {f : PayloadId → α → Effect}
    (respects : ∀ id held, (f id held).Respects estate grounds) :
    (onHeld view member receiver f).Respects estate grounds := by
  intro h fenced
  unfold onHeld
  split
  · exact respects _ _ h fenced
  · exact ⟨trivial, fenced.leaves⟩

end Effect

theorem Method.respects_onValue (name : String) (params : List Param) {f : Value → List Value → Effect}
    (respects : ∀ v args, v.Outside estate → (∀ a ∈ args, a.Outside estate) →
      (f v args).Respects estate grounds) :
    (Method.onValue name params f).Respects estate grounds := fun _ args receives outside =>
  Effect.respects_onReceiver name receives fun v own => respects v args own outside

theorem Method.respects_onPayload {α : Type} (view : Payload → Option α) (name : String)
    (params : List Param) {f : PayloadId → α → List Value → Effect}
    (respects : ∀ id held args, (f id held args).Respects estate grounds) :
    (Method.onPayload view name params f).Respects estate grounds := fun receiver args _ _ =>
  Effect.respects_onHeld view name receiver fun id held => respects id held args

theorem Method.respects_static (name : String) (params : List Param) {f : List Value → Effect}
    (respects : ∀ args, (∀ a ∈ args, a.Outside estate) → (f args).Respects estate grounds) :
    (Method.static name params f).Respects estate grounds := fun _ args _ outside => respects args outside

theorem Property.respects_onValue (name : String) {get : Value → Effect}
    (respects : ∀ v, v.Outside estate → (get v).Respects estate grounds) :
    (Property.onValue name get).Respects estate grounds :=
  ⟨fun _ receives => Effect.respects_onReceiver name receives respects, fun _ never => by cases never⟩

theorem Property.respects_onPayload {α : Type} (view : Payload → Option α) (name : String)
    {get : PayloadId → α → Effect} (respects : ∀ id held, (get id held).Respects estate grounds) :
    (Property.onPayload view name get).Respects estate grounds :=
  ⟨fun receiver _ => Effect.respects_onHeld view name receiver respects, fun _ never => by cases never⟩

theorem Property.respects_static (name : String) {get : Effect} (respects : get.Respects estate grounds) :
    (Property.static name get).Respects estate grounds :=
  ⟨fun _ _ => respects, fun _ never => by cases never⟩

theorem Constructor.respects_ofPayload (params : List Param)
    {f : List Value → Except EvalError.Cause Payload}
    (outside : ∀ args payload, f args = .ok payload → ∀ v, payload = .state v → v.Outside estate) :
    (Constructor.ofPayload params f).Respects estate grounds := by
  intro type args _ h fenced
  unfold Constructor.ofPayload
  dsimp only
  split
  next payload made => exact fenced.newPayload (outside args payload made)
  next => exact ⟨trivial, fenced.leaves⟩

namespace TypeDraft

/-- A type that is described with members that work outside of an estate. -/
def Respects (estate grounds : Cell → Prop) (d : TypeDraft) : Prop :=
  MembersRespect estate grounds d.methods d.properties d.constructors d.indexer?

variable {d : TypeDraft}

theorem respects_named (fullName : String) : (named fullName).Respects estate grounds :=
  membersRespect_nil

namespace Respects

theorem describing (h : d.Respects estate grounds) (kind : Primitive) :
    (d.describing kind).Respects estate grounds := h

theorem method (h : d.Respects estate grounds) {m : Method} (respects : m.Respects estate grounds) :
    (d.method m).Respects estate grounds := by
  refine ⟨fun other mem => ?_, h.properties, h.constructors, h.indexer⟩
  rcases List.mem_append.1 mem with before | last
  · exact h.methods other before
  · exact List.mem_singleton.1 last ▸ respects

theorem property (h : d.Respects estate grounds) {p : Property} (respects : p.Respects estate grounds) :
    (d.property p).Respects estate grounds := by
  refine ⟨h.methods, fun other mem => ?_, h.constructors, h.indexer⟩
  rcases List.mem_append.1 mem with before | last
  · exact h.properties other before
  · exact List.mem_singleton.1 last ▸ respects

theorem constructor (h : d.Respects estate grounds) {c : Constructor}
    (respects : c.Respects estate grounds) : (d.constructor c).Respects estate grounds := by
  refine ⟨h.methods, h.properties, fun other mem => ?_, h.indexer⟩
  rcases List.mem_append.1 mem with before | last
  · exact h.constructors other before
  · exact List.mem_singleton.1 last ▸ respects

theorem indexer (h : d.Respects estate grounds) {i : Indexer} (respects : i.Respects estate grounds) :
    (d.indexer i).Respects estate grounds :=
  ⟨h.methods, h.properties, h.constructors, fun _ same => Option.some.inj same ▸ respects⟩

end Respects

end TypeDraft

theorem Registry.Respects.register {registry : Registry} (h : registry.Respects estate grounds)
    {d : TypeDraft} (respects : d.Respects estate grounds) :
    (registry.register d).2.Respects estate grounds := by
  intro t mem
  rcases Array.mem_push.1 mem with before | rfl
  · exact h t before
  · exact respects

/-- The type of types works outside of every estate. -/
theorem respects_metaDraft : metaDraft.Respects estate grounds := by
  refine ((((TypeDraft.respects_named _).property ?_).property ?_).method ?_).method ?_
  · refine Property.respects_onValue _ fun v _ => ?_
    cases v with
    | type info => exact Effect.respects_reads fun _ => trivial
    | _ => exact Effect.respects_refuse _
  · refine Property.respects_onValue _ fun v _ => ?_
    cases v with
    | type info => exact Effect.respects_reads fun _ => trivial
    | _ => exact Effect.respects_refuse _
  · refine Method.respects_onValue _ _ fun v args _ _ => ?_
    cases v with
    | type info =>
      refine Effect.respects_reads fun _ => ?_
      split <;> trivial
    | _ => exact Effect.respects_refuse _
  · refine Method.respects_onValue _ _ fun v _ _ _ => ?_
    cases v with
    | type info => exact Effect.respects_reads fun _ => trivial
    | _ => exact Effect.respects_refuse _

theorem Registry.respects_initial : Registry.initial.Respects estate grounds :=
  Registry.Respects.register (fun _ never => absurd never (Array.not_mem_empty _)) respects_metaDraft

/-! ## The types of the library -/

namespace Library

/-! ### Results that refer to no cell -/

/-- A result that is made of others refers to no cell if what is made of them does not. -/
theorem plain_bind {ε α : Type} (x : Except ε α) {f : α → Except ε Value}
    (plain : ∀ a, Value.ResultPlain (f a)) : Value.ResultPlain (x >>= f) := by
  cases x with
  | ok a => exact plain a
  | error e => trivial

theorem outside_ofExcept {result : Except String Value} (plain : Value.ResultPlain result) :
    (Reply.ofExcept result).Outside estate := by
  cases result with
  | ok v => exact Value.outside_of_plain plain
  | error message => trivial

theorem respects_answer {result : Except String Value} (plain : Value.ResultPlain result) :
    (answer result).Respects estate grounds := Effect.respects_reads fun _ => outside_ofExcept plain

/-! ### Numbers and conversions -/

theorem respects_ofInt (name : String) (f : Int64 → Int64) : (ofInt name f).Respects estate grounds :=
  Method.respects_static _ _ fun _ _ => respects_answer (plain_bind _ fun _ => rfl)

theorem respects_ofInts (name : String) (f : Int64 → Int64 → Int64) :
    (ofInts name f).Respects estate grounds :=
  Method.respects_static _ _ fun _ _ =>
    respects_answer (plain_bind _ fun _ => plain_bind _ fun _ => rfl)

theorem respects_ofFloat (name : String) (f : Float → Float) :
    (ofFloat name f).Respects estate grounds :=
  Method.respects_static _ _ fun _ _ => respects_answer (plain_bind _ fun _ => rfl)

theorem respects_ofFloats (name : String) (f : Float → Float → Float) :
    (ofFloats name f).Respects estate grounds :=
  Method.respects_static _ _ fun _ _ =>
    respects_answer (plain_bind _ fun _ => plain_bind _ fun _ => rfl)

theorem respects_mathDraft : mathDraft.Respects estate grounds :=
  TypeDraft.respects_named _
    |>.method (respects_ofInt _ _)
    |>.method (respects_ofFloat _ _)
    |>.method (respects_ofInts _ _)
    |>.method (respects_ofFloats _ _)
    |>.method (respects_ofInts _ _)
    |>.method (respects_ofFloats _ _)
    |>.method (respects_ofFloats _ _)
    |>.method (respects_ofFloat _ _)
    |>.method (respects_ofFloat _ _)
    |>.method (respects_ofFloat _ _)
    |>.method (respects_ofFloat _ _)
    |>.property (Property.respects_static _ (Effect.respects_reads fun _ => trivial))

theorem respects_conversion {α : Type} (name target : String) (convert? : Value → Option α)
    {make : α → Value} (plain : ∀ a, (make a).cell? = none) :
    (conversion name target convert? make).Respects estate grounds := by
  refine Method.respects_static _ _ fun args _ => Effect.respects_reads fun h => outside_ofExcept ?_
  refine plain_bind _ fun v => ?_
  split
  · exact plain _
  · trivial

theorem respects_convertDraft : convertDraft.Respects estate grounds := by
  refine ((((TypeDraft.respects_named _).method ?_).method ?_).method ?_).method ?_
  · exact respects_conversion _ _ _ fun _ => rfl
  · exact respects_conversion _ _ _ fun _ => rfl
  · refine Method.respects_static _ _ fun args _ => Effect.respects_reads fun h => outside_ofExcept ?_
    exact plain_bind (argument "ToString" args 0) fun _ => rfl
  · exact respects_conversion _ _ _ fun _ => rfl

/-! ### Texts -/

theorem respects_transform (name : String) (f : String → String) :
    (transform name f).Respects estate grounds :=
  Method.respects_onValue _ _ fun _ _ _ _ => respects_answer (plain_bind _ fun _ => rfl)

theorem respects_predicate (name : String) (test : List Char → List Char → Bool) :
    (predicate name test).Respects estate grounds :=
  Method.respects_onValue _ _ fun _ _ _ _ =>
    respects_answer (plain_bind _ fun _ => plain_bind _ fun _ => rfl)

theorem plain_indexOf (receiver : Value) (args : List Value) :
    Value.ResultPlain (indexOf receiver args) := by
  unfold indexOf
  refine plain_bind _ fun text => plain_bind _ fun pattern => ?_
  split <;> rfl

theorem plain_substring (receiver : Value) (args : List Value) :
    Value.ResultPlain (substring receiver args) := by
  unfold substring
  refine plain_bind _ fun text => plain_bind _ fun first => plain_bind _ fun start =>
    plain_bind _ fun second => plain_bind _ fun length => ?_
  dsimp only
  split
  · trivial
  · rfl

theorem plain_replace (receiver : Value) (args : List Value) :
    Value.ResultPlain (replace receiver args) := by
  unfold replace
  refine plain_bind _ fun text => plain_bind _ fun pattern => ?_
  dsimp only
  split
  · trivial
  · exact plain_bind _ fun replacement => rfl

theorem respects_textDraft : textDraft.Respects estate grounds := by
  refine (TypeDraft.Respects.describing (TypeDraft.respects_named _) _)
    |>.property ?_
    |>.method (respects_transform _ _)
    |>.method (respects_transform _ _)
    |>.method (respects_transform _ _)
    |>.method (respects_predicate _ _)
    |>.method (respects_predicate _ _)
    |>.method (respects_predicate _ _)
    |>.method ?_
    |>.method ?_
    |>.method ?_
  · exact Property.respects_onValue _ fun v _ =>
      respects_answer (plain_bind (textReceiver "Length" v) fun _ => rfl)
  · exact Method.respects_onValue _ _ fun v args _ _ => respects_answer (plain_indexOf v args)
  · exact Method.respects_onValue _ _ fun v args _ _ => respects_answer (plain_substring v args)
  · exact Method.respects_onValue _ _ fun v args _ _ => respects_answer (plain_replace v args)

theorem respects_append {receiver : Value} (own : receiver.Outside estate) (args : List Value) :
    (append receiver args).Respects estate grounds := by
  intro h fenced
  unfold append
  split
  · exact ⟨own, fenced.setPayload _ fun _ never => by cases never⟩
  · exact ⟨trivial, fenced.leaves⟩

theorem respects_builderDraft : builderDraft.Respects estate grounds := by
  refine ((((((TypeDraft.respects_named _).constructor ?_).constructor ?_).method ?_).method ?_)).property
    ?_
  · refine Constructor.respects_ofPayload _ fun args payload made v state => ?_
    obtain rfl := Except.ok.inj made
    cases state
  · refine Constructor.respects_ofPayload _ fun args payload made v state => ?_
    split at made
    · obtain rfl := Except.ok.inj made
      cases state
    · cases made
  · exact Method.respects_onValue _ _ fun v args own _ => respects_append own args
  · exact Method.respects_onPayload _ _ _ fun id text args => Effect.respects_reads fun _ => trivial
  · exact Property.respects_onPayload _ _ fun id text => Effect.respects_reads fun _ => trivial

/-! ### Lists -/

theorem respects_onList (name : String) {receiver : Value} (own : receiver.Outside estate)
    {f : ListId → Effect} (respects : ∀ id, ¬estate (.list id) → (f id).Respects estate grounds) :
    (onList name receiver f).Respects estate grounds := by
  unfold onList
  cases receiver with
  | list id => exact respects id own
  | _ => exact Effect.respects_refuse _

theorem outside_head? {args : List Value} (outside : ∀ v ∈ args, v.Outside estate) :
    (args.head?.getD .null).Outside estate := by
  cases args with
  | nil => trivial
  | cons v rest => exact outside v List.mem_cons_self

theorem respects_listIndexer : listIndexer.Respects estate grounds where
  get receiver index own _ := by
    refine respects_onList _ own fun id away h fenced => ?_
    split
    next place _ =>
      refine ⟨?_, fenced.leaves⟩
      cases held : (h.list id)[place]? with
      | some v => exact fenced.lists id (fenced.off away) v (Array.mem_of_getElem? held)
      | none => trivial
    next => exact ⟨trivial, fenced.leaves⟩
  set := by
    rintro _ ⟨⟩ receiver index v own _ outside
    refine respects_onList _ own fun id _ h fenced => ?_
    split
    · exact ⟨outside, fenced.setItem id _ outside⟩
    · exact ⟨trivial, fenced.leaves⟩

theorem respects_listDraft : listDraft.Respects estate grounds := by
  refine (TypeDraft.Respects.describing (TypeDraft.respects_named _) _)
    |>.constructor ?_
    |>.method ?_
    |>.property ?_
    |>.method ?_
    |>.method ?_
    |>.indexer respects_listIndexer
  · exact fun type args _ h fenced => fenced.newList (List.forall_mem_nil _)
  · refine Method.respects_onValue _ _ fun v args own outside =>
      respects_onList _ own fun id _ h fenced => ?_
    exact ⟨trivial, fenced.pushItem id (outside_head? outside)⟩
  · refine Property.respects_onValue _ fun v own => respects_onList _ own fun id _ => ?_
    exact Effect.respects_reads fun _ => trivial
  · refine Method.respects_onValue _ _ fun v args own _ => respects_onList _ own fun id _ h fenced => ?_
    exact ⟨trivial, fenced.clearList id⟩
  · refine Method.respects_onValue _ _ fun v args own _ => respects_onList _ own fun id _ => ?_
    exact Effect.respects_reads fun _ => trivial

theorem respects_consoleDraft : consoleDraft.Respects estate grounds := by
  refine (((TypeDraft.respects_named _).method ?_).method ?_).method ?_
  · exact Method.respects_static _ _ fun args _ h fenced => ⟨trivial, fenced.print _⟩
  · exact Method.respects_static _ _ fun args _ h fenced => ⟨trivial, fenced.print _⟩
  · exact Method.respects_static _ _ fun args _ h fenced => ⟨trivial, fenced.print _⟩

/-- **All types of the library work outside of every estate.** -/
theorem respects_drafts : ∀ d ∈ drafts, d.Respects estate grounds := by
  intro d mem
  simp only [drafts, List.mem_cons, List.not_mem_nil, or_false] at mem
  rcases mem with rfl | rfl | rfl | rfl | rfl | rfl
  · exact respects_mathDraft
  · exact respects_textDraft
  · exact respects_builderDraft
  · exact respects_listDraft
  · exact respects_convertDraft
  · exact respects_consoleDraft

end Library

theorem Registry.Respects.registerAll {registry : Registry} (h : registry.Respects estate grounds)
    {drafts : List TypeDraft} (respects : ∀ d ∈ drafts, d.Respects estate grounds) :
    (registry.registerAll drafts).2.Respects estate grounds := by
  have others (infos : List TypeInfo) : (drafts.foldl (fun found d =>
      (found.1 ++ [(found.2.register d).1], (found.2.register d).2)) (infos, registry)).2.Respects
        estate grounds := by
    induction drafts generalizing registry infos with
    | nil => exact h
    | cons d rest ih =>
      exact ih (h.register (respects d List.mem_cons_self))
        (fun other mem => respects other (List.mem_cons_of_mem _ mem)) _
  exact others []

end HostScript
