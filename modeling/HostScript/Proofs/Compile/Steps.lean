import HostScript.Code.Compile

/-!
# Proofs/Compile/Steps — taking steps of compilation apart

A step of compilation that succeeds is a sequence of smaller ones that succeed.  `Yields` says what a
step yields and what workspace it leaves; `Yields.bind` splits it, and there is one inversion lemma
for each primitive step.
-/

namespace HostScript

namespace Compile

/-- **A step that succeeds**, from one workspace to another. -/
def Yields {α : Type} (step : Step α) (w : Workspace) (result : α) (w' : Workspace) : Prop :=
  step.run w = (.ok result, w')

/-- One step after another: what the first refuses, both refuse. -/
theorem run_bind {α β : Type} (first : Step α) (rest : α → Step β) (w : Workspace) :
    (first >>= rest).run w =
      match first.run w with
      | (.ok a, between) => (rest a).run between
      | (.error e, between) => (.error e, between) := by
  show (ExceptT.bindCont rest (first.run w).1).run (first.run w).2 = _
  cases first.run w with
  | mk result between => cases result <;> rfl

namespace Yields

variable {α β : Type} {w w' : Workspace}

/-- What succeeds in two parts succeeds in each of them. -/
theorem bind {first : Step α} {rest : α → Step β} {b : β} (h : Yields (first >>= rest) w b w') :
    ∃ a between, Yields first w a between ∧ Yields (rest a) between b w' := by
  unfold Yields at h
  rw [run_bind] at h
  unfold Yields
  cases found : first.run w with
  | mk result between =>
    rw [found] at h
    cases result with
    | error e => cases congrArg Prod.fst h
    | ok a => exact ⟨a, between, rfl, h⟩

theorem pure {a b : α} (h : Yields (pure a) w b w') : b = a ∧ w' = w := by
  cases h
  exact ⟨rfl, rfl⟩

theorem refuse {places : Places} {cause : CompileError.Cause} {span : Span} {a : α}
    (h : Yields (refuse places cause span) w a w') : False := by
  cases congrArg Prod.fst h

theorem scopes {found : Scopes} (h : Yields scopes w found w') : found = w.scopes ∧ w = w' := by
  cases h
  exact ⟨rfl, rfl⟩

theorem changeScopes {f : Scopes → α × Scopes} {a : α} (h : Yields (changeScopes f) w a w') :
    a = (f w.scopes).1 ∧ w' = { w with scopes := (f w.scopes).2 } := by
  cases h
  exact ⟨rfl, rfl⟩

theorem push {s : Scope} {u : Unit} (h : Yields (push s) w u w') :
    w' = { w with scopes := s :: w.scopes } := h.changeScopes.2

theorem pop {u : Unit} (h : Yields pop w u w') : w' = { w with scopes := w.scopes.drop 1 } :=
  h.changeScopes.2

theorem request {s : Signature} {u : Unit} (h : Yields (request s) w u w') :
    w' = { w with requests := s :: w.requests } := by
  cases h
  rfl

theorem freshLabel {label : Label} (h : Yields freshLabel w label w') :
    label = ⟨w.labels⟩ ∧ w' = { w with labels := w.labels + 1 } := by
  cases h
  exact ⟨rfl, rfl⟩

theorem freshOwner {owner : Owner} (h : Yields freshOwner w owner w') :
    owner = w.next ∧ w' = { w with next := { w.next with number := w.next.number + 1 } } := by
  cases h
  exact ⟨rfl, rfl⟩

theorem operation {position : Position} {s : Signature} {operands : List Code} {code : Code}
    (h : Yields (operation position s operands) w code w') :
    code = .dispatch position s operands ∧ w' = { w with requests := s :: w.requests } := by
  obtain ⟨_, between, requested, made⟩ := h.bind
  obtain ⟨rfl, rfl⟩ := made.pure
  exact ⟨rfl, requested.request⟩

/-- The label of a function is the one it has, or a new one that it gets. -/
theorem returnLabel {label : Label} (h : Yields returnLabel w label w') :
    (w.scopes.returnLabel? = some label ∧ w' = w) ∨
      (w.scopes.returnLabel? = none ∧ label = ⟨w.labels⟩ ∧
        w' = { w with labels := w.labels + 1, scopes := w.scopes.setReturnLabel label }) := by
  obtain ⟨around, between, found, rest⟩ := h.bind
  obtain ⟨rfl, rfl⟩ := found.scopes
  split at rest
  next here =>
    obtain ⟨rfl, rfl⟩ := rest.pure
    exact .inl ⟨here, rfl⟩
  next missing =>
    obtain ⟨fresh, between, made, rest⟩ := rest.bind
    obtain ⟨rfl, rfl⟩ := made.freshLabel
    obtain ⟨_, between, set, rest⟩ := rest.bind
    obtain ⟨-, rfl⟩ := set.changeScopes
    obtain ⟨rfl, rfl⟩ := rest.pure
    exact .inr ⟨missing, rfl, rfl⟩

theorem template {name : String} {params : List String} {body : Code} {t : Template Code}
    (h : Yields (template name params body) w t w') :
    t = ⟨name, params.length, w.scopes.layout, w.scopes.returnLabel?, body⟩ ∧
      w' = { w with scopes := w.scopes.drop 1 } := by
  obtain ⟨inside, between, found, rest⟩ := h.bind
  obtain ⟨rfl, rfl⟩ := found.scopes
  obtain ⟨_, between, popped, rest⟩ := rest.bind
  obtain rfl := popped.pop
  obtain ⟨rfl, rfl⟩ := rest.pure
  exact ⟨rfl, rfl⟩

/-- An expression that stands as a statement is compiled as the expression. -/
theorem plain {places : Places} {span : Span} {tree : Node} {code : Code}
    (h : Yields (node places (.plain span tree)) w code w') : Yields (node places tree) w code w' := by
  rwa [node] at h

end Yields

end Compile

end HostScript
