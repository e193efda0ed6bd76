import HostScript.Execute
import HostScript.Proofs.Estate.Library
import HostScript.Proofs.Estate.Offers
import HostScript.Proofs.Import.Hidden
import HostScript.Proofs.Machine.Sound

/-!
# Proofs/Import/Runtimes — building a runtime keeps globals hidden

Types and instances are offered in namespaces below the root of the global names of their runtime.  So a
runtime that is built leaves hidden what is hidden and touches no global names but its own, which are
hidden as well.
-/

namespace HostScript

variable {root : NamespaceId}

namespace Store

variable {s : Store}

/-- **Building a runtime** keeps hidden what would be hidden if it had nothing to offer, and touches no
global names but its own. -/
theorem hides_buildRuntime (s : Store) (registry : Registry) (libraries : List (List TypeInfo))
    (instances : List HostObject) (extension : String) (hides : s.newSpace.2.Hides root) :
    (s.buildRuntime registry libraries instances extension).2.Hides root ∧
      ((s.buildRuntime registry libraries instances extension).2.runtime
        (s.buildRuntime registry libraries instances extension).1).globals = s.newSpace.1 ∧
      (s.newSpace.1 ≠ root →
        (s.buildRuntime registry libraries instances extension).2.space root =
          s.newSpace.2.space root) := by
  obtain ⟨fenced, globals, same, -⟩ := s.offers_buildRuntime registry libraries instances extension
    (Heap.hides_iff.1 hides.heap) (fun never => never) fun _ _ => nofun
  have code := s.sameCode_buildRuntime registry libraries instances extension
  exact ⟨hides.of_code (Heap.hides_iff.2 fenced) ⟨code.frames, code.functions⟩, globals,
    fun other => same (fun own => other (Cell.space.inj own)) root rfl⟩

theorem Hides.newSpace (hides : s.Hides root) :
    s.newSpace.1 ≠ root ∧ s.newSpace.2.Hides root ∧ s.newSpace.2.space root = s.space root := by
  obtain ⟨fresh, spares⟩ := hides.heap.newSpace
  exact ⟨fresh, ⟨spares.hides, hides.frames, hides.functions⟩, spares.same⟩

/-- **Another runtime changes nothing** for the global names that are hidden. -/
theorem Hides.buildRuntime (hides : s.Hides root) (registry : Registry)
    (libraries : List (List TypeInfo)) (instances : List HostObject) (extension : String) :
    (s.buildRuntime registry libraries instances extension).2.Hides root ∧
      (s.buildRuntime registry libraries instances extension).2.space root = s.space root := by
  obtain ⟨fresh, kept, same⟩ := hides.newSpace
  obtain ⟨built, -, spared⟩ := s.hides_buildRuntime registry libraries instances extension kept
  exact ⟨built, (spared fresh).trans same⟩

/-- **A runtime hides its own globals** if nothing that is there before it can refer to them. -/
theorem hides_buildRuntime_own (registry : Registry) (libraries : List (List TypeInfo))
    (instances : List HostObject) (extension : String) (hides : s.newSpace.2.Hides s.newSpace.1) :
    (s.buildRuntime registry libraries instances extension).2.Hides
      ((s.buildRuntime registry libraries instances extension).2.runtime
        (s.buildRuntime registry libraries instances extension).1).globals := by
  obtain ⟨built, own, -⟩ := s.hides_buildRuntime registry libraries instances extension hides
  rw [own]
  exact built

theorem hides_newSpace_empty : empty.newSpace.2.Hides empty.newSpace.1 := by
  refine ⟨⟨?_, fun table mem => ?_, ?_, Nat.zero_lt_one⟩, ?_, ?_⟩
  · exact fun _ never => absurd never (Array.not_mem_empty _)
  · rcases Array.mem_push.1 mem with never | rfl
    · exact absurd never (Array.not_mem_empty _)
    · exact List.forall_mem_nil _
  · exact fun _ never => absurd never (Array.not_mem_empty _)
  · exact fun _ never => absurd never (Array.not_mem_empty _)
  · exact fun _ never => absurd never (Array.not_mem_empty _)

end Store

/-! ## Hosts -/

/-- **A setting that is discreet**: neither the members nor the functions of the host show the root of the
global names or touch them. -/
structure Setting.Discreet (root : NamespaceId) (setting : Setting) : Prop where
  registry : setting.registry.Discreet root
  natives : ∀ native ∈ setting.natives, ∀ args : List Value, (∀ v ∈ args, v.Avoids root) →
    (native args).Discreet root

/-- **The host with the library is discreet.** -/
theorem discreet_defaultHost (files : Files) : (defaultHost files).1.Discreet root :=
  ⟨Registry.discreet_iff.2 (Registry.Respects.registerAll Registry.respects_initial Library.respects_drafts),
    fun _ never => absurd never (Array.not_mem_empty _)⟩

/-- **The host with the library hides its globals.** -/
theorem hides_defaultHost (files : Files) : (defaultHost files).2.1.Hides
    ((defaultHost files).2.1.runtime (defaultHost files).2.2).globals :=
  Store.hides_buildRuntime_own _ _ _ _ Store.hides_newSpace_empty

end HostScript
