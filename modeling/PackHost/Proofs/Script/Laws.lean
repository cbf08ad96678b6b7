import PackHost.Proofs.Language.Law
import PackHost.Script.Engine

/-!
# The language of the scripts keeps to the laws

Its values are lossless (`language_lossless`), its variables are found by name
(`language_scoped`), and its trees are put together as their functions and statements are
(`language_merging`).
-/

namespace PackHost.Script

theorem language_lossless : language.Lossless where
  test_make t c := by cases t <;> rfl
  test_make_of_ne {t t'} h c := by
    cases t <;> cases t' <;> first | rfl | exact absurd rfl h

namespace Scope

theorem isSome_find? {s : Scope} {name : String} :
    (s.find? name).isSome = true ↔ name ∈ s.map Variable.name := by
  simp [find?]

end Scope

theorem language_scoped : language.Scoped where
  find?_noVariables _ := rfl
  find?_push s name constant d other := by
    change Option.map Variable.held (Scope.find? (_ :: s) other) = _
    rw [Scope.find?, List.find?_cons]
    by_cases h : other = name
    · rw [if_pos h, h, beq_self_eq_true]
      rfl
    · rw [if_neg h, beq_eq_false_iff_ne.mpr (Ne.symm h)]
      rfl
  contains_eq s name := by
    change (Scope.find? s name).isSome = ((Scope.find? s name).map Variable.held).isSome
    rw [Option.isSome_map]
  mem_variableNames s name := by
    change name ∈ List.map Variable.name s ↔ ((Scope.find? s name).map Variable.held).isSome = true
    rw [Option.isSome_map, Scope.isSome_find?]

namespace Library

variable {l more : Library} {name : String} {count : Nat}

/-- Of two functions that answer the same calls, the one of the second library is found. -/
theorem find?_merge :
    (l.merge more).find? name count = (more.find? name count).or (l.find? name count) := by
  have hsame : ∀ r : Routine, r.answers name count = true ↔
      r.name = name ∧ r.params.length = count := by
    intro r
    simp [Routine.answers]
  rw [find?, merge, List.find?_append]
  cases hmore : find? more name count with
  | none =>
    have hkept : List.find? (fun r => r.answers name count)
        (l.filter fun r => !more.any fun s => s.answers r.name r.params.length) =
          l.find? name count := by
      rw [List.find?_filter]
      refine congrArg (List.find? · l) (funext fun r => ?_)
      cases hr : r.answers name count with
      | false => simp
      | true =>
        obtain ⟨rfl, rfl⟩ := (hsame r).mp hr
        have hnone : (more.any fun s => s.answers r.name r.params.length) = false :=
          List.any_eq_false.mpr (List.find?_eq_none.mp hmore)
        simp [hnone]
    rw [hkept, show List.find? (fun r => r.answers name count) more = none from hmore,
      Option.or_none, Option.none_or]
  | some s =>
    have hgone : List.find? (fun r => r.answers name count)
        (l.filter fun r => !more.any fun s => s.answers r.name r.params.length) = none := by
      refine List.find?_eq_none.mpr fun r hr hanswers => ?_
      obtain ⟨rfl, rfl⟩ := (hsame r).mp hanswers
      have hany : (more.any fun s => s.answers r.name r.params.length) = true :=
        List.any_eq_true.mpr ⟨s, List.mem_of_find?_eq_some hmore, by
          simpa using List.find?_some hmore⟩
      simpa [hany] using (List.mem_filter.mp hr).2
    rw [hgone, Option.none_or]
    exact hmore

end Library

theorem language_merging : language.Merging where
  statements_empty := rfl
  routine?_merge _ _ _ _ := Library.find?_merge
  statements_merge _ _ := rfl
  routine?_combine _ _ _ _ := Library.find?_merge
  statements_combine _ _ := rfl
  routine?_functionsOnly _ _ _ := rfl
  statements_functionsOnly _ := rfl

/-! ## A host that runs scripts and nothing else -/

theorem compile_eq_ok {off : List String} {text : String} {t : Tree}
    (h : (compile off text).toOption = some t) : compile off text = .ok t := by
  cases hread : compile off text <;> rw [hread] at h <;> cases h
  rfl

theorem exists_compile_eq_error {off : List String} {text : String}
    (h : (compile off text).toOption = none) : ∃ f, compile off text = .error f := by
  cases hread : compile off text <;> rw [hread] at h <;> cases h
  exact ⟨_, rfl⟩

/-- The language where the state of the host is its heap. -/
def barePort : language.Port Heap Callback := port .whole id

def bareRunner : Runner Heap Callback := ⟨fun c => c.perform barePort, 8⟩

end PackHost.Script
