import Mathlib.Data.List.Basic
import PackHost.Proofs.Source.Reading

/-!
# Nested brackets

`Nested ls`: the brackets among the lexemes are closed in the right order and each by its partner.
The bracket that is innermost at some point is determined by what stands before it
(`Nested.innermost_unique`), and so is the end of a group (`Nested.group_unique`).
-/

namespace PackHost.Source

def Lexeme.isBracket : Lexeme → Bool
  | .opening _ => true
  | .closing _ => true
  | _ => false

theorem eq_of_closingOf {b : Char} (h : isOpening b) (hb : ')' = closingOf b) : b = '(' := by
  rcases eq_of_isOpening h with rfl | rfl | rfl
  · rfl
  · cases hb
  · cases hb

inductive Nested : List Lexeme → Prop
  | nil : Nested []
  | leaf {l : Lexeme} {ls : List Lexeme} : l.isBracket = false → Nested ls → Nested (l :: ls)
  | group {bracket : Char} {inner ls : List Lexeme} : Nested inner → Nested ls →
      Nested (.opening bracket :: (inner ++ .closing (closingOf bracket) :: ls))

def openings : List Lexeme → Nat
  | [] => 0
  | .opening _ :: ls => openings ls + 1
  | _ :: ls => openings ls

def closings : List Lexeme → Nat
  | [] => 0
  | .closing _ :: ls => closings ls + 1
  | _ :: ls => closings ls

theorem openings_leaf {l : Lexeme} (h : l.isBracket = false) (ls : List Lexeme) :
    openings (l :: ls) = openings ls := by
  cases l with
  | opening => cases h
  | closing => cases h
  | _ => rfl

theorem closings_leaf {l : Lexeme} (h : l.isBracket = false) (ls : List Lexeme) :
    closings (l :: ls) = closings ls := by
  cases l with
  | opening => cases h
  | closing => cases h
  | _ => rfl

theorem openings_append (ls ms : List Lexeme) :
    openings (ls ++ ms) = openings ls + openings ms := by
  induction ls with
  | nil => simp [openings]
  | cons l ls ih =>
    rw [List.cons_append]
    cases l <;> simp only [openings, ih]
    omega

theorem closings_append (ls ms : List Lexeme) :
    closings (ls ++ ms) = closings ls + closings ms := by
  induction ls with
  | nil => simp [closings]
  | cons l ls ih =>
    rw [List.cons_append]
    cases l <;> simp only [closings, ih]
    omega

namespace Nested

theorem append {ls ms : List Lexeme} (h : Nested ls) (hm : Nested ms) : Nested (ls ++ ms) := by
  induction h with
  | nil => exact hm
  | leaf hl _ ih => exact .leaf hl ih
  | group hi _ _ ih =>
    rw [List.cons_append, List.append_assoc, List.cons_append]
    exact .group hi ih

theorem singleton {l : Lexeme} (h : l.isBracket = false) : Nested [l] := .leaf h .nil

theorem of_leaves {ls : List Lexeme} (h : ∀ l ∈ ls, l.isBracket = false) : Nested ls := by
  induction ls with
  | nil => exact .nil
  | cons l ls ih =>
    obtain ⟨hl, hls⟩ := List.forall_mem_cons.mp h
    exact .leaf hl (ih hls)

theorem openings_eq_closings {ls : List Lexeme} (h : Nested ls) : openings ls = closings ls := by
  induction h with
  | nil => rfl
  | leaf hl _ ih => rw [openings_leaf hl, closings_leaf hl, ih]
  | group _ _ ihi ih =>
    simp only [openings, closings, openings_append, closings_append]
    omega

/-- No start of nested brackets closes more than it opens. -/
theorem closings_le_openings {ls ms : List Lexeme} (h : Nested (ls ++ ms)) :
    closings ls ≤ openings ls := by
  generalize hq : ls ++ ms = q at h
  induction h generalizing ls ms with
  | nil =>
    obtain ⟨rfl, -⟩ := List.append_eq_nil_iff.mp hq
    exact Nat.le_refl 0
  | @leaf l q hl _ ih =>
    cases ls with
    | nil => exact Nat.le_refl 0
    | cons l' ls =>
      obtain ⟨rfl, hq'⟩ := List.cons_eq_cons.mp hq
      rw [openings_leaf hl, closings_leaf hl]
      exact ih hq'
  | @group b inner q hi _ ihi ih =>
    cases ls with
    | nil => exact Nat.le_refl 0
    | cons l' ls =>
      obtain ⟨rfl, hq'⟩ := List.cons_eq_cons.mp hq
      simp only [openings, closings]
      rcases List.append_eq_append_iff.mp hq' with ⟨x, hx, -⟩ | ⟨x, rfl, hx⟩
      · -- the start ends inside the group
        have := ihi hx.symm
        omega
      · have heq := hi.openings_eq_closings
        rw [openings_append, closings_append]
        cases x with
        | nil => simp only [openings, closings]; omega
        | cons l x =>
          obtain ⟨rfl, hx'⟩ := List.cons_eq_cons.mp hx
          have := ih hx'.symm
          simp only [openings, closings]
          omega

/-- No end of nested brackets opens more than it closes. -/
theorem openings_le_closings {ls ms : List Lexeme} (h : Nested (ls ++ ms)) :
    openings ms ≤ closings ms := by
  have htotal := h.openings_eq_closings
  have hstart := h.closings_le_openings
  rw [openings_append, closings_append] at htotal
  omega

theorem not_opening {ls ms : List Lexeme} {b : Char} (hm : Nested ms) :
    ¬ Nested (ls ++ .opening b :: ms) := by
  intro h
  have hend := h.openings_le_closings
  have heq := hm.openings_eq_closings
  simp only [openings, closings] at hend
  omega

theorem not_closing {ls ms : List Lexeme} {b : Char} (hl : Nested ls) :
    ¬ Nested (ls ++ .closing b :: ms) := by
  intro h
  have hstart := (List.append_cons ls (.closing b) ms ▸ h).closings_le_openings
  have heq := hl.openings_eq_closings
  simp only [openings_append, closings_append, openings, closings] at hstart
  omega

theorem innermost_unique {p p' q q' : List Lexeme} {b b' : Char}
    (h : p ++ .opening b :: q = p' ++ .opening b' :: q') (hq : Nested q) (hq' : Nested q') :
    p = p' ∧ b = b' ∧ q = q' := by
  rcases List.append_eq_append_iff.mp h with ⟨x, rfl, hx⟩ | ⟨x, rfl, hx⟩
  · cases x with
    | nil => simp_all
    | cons l x =>
      obtain ⟨-, rfl⟩ := List.cons_eq_cons.mp hx
      exact absurd hq (not_opening hq')
  · cases x with
    | nil => simp_all
    | cons l x =>
      obtain ⟨-, rfl⟩ := List.cons_eq_cons.mp hx
      exact absurd hq' (not_opening hq)

theorem group_unique {p p' q q' : List Lexeme} {b b' : Char}
    (h : p ++ .closing b :: q = p' ++ .closing b' :: q') (hp : Nested p) (hp' : Nested p') :
    p = p' ∧ b = b' ∧ q = q' := by
  rcases List.append_eq_append_iff.mp h with ⟨x, rfl, hx⟩ | ⟨x, rfl, hx⟩
  · cases x with
    | nil => simp_all
    | cons l x =>
      obtain ⟨rfl, -⟩ := List.cons_eq_cons.mp hx
      exact absurd hp' (not_closing hp)
  · cases x with
    | nil => simp_all
    | cons l x =>
      obtain ⟨rfl, -⟩ := List.cons_eq_cons.mp hx
      exact absurd hp (not_closing hp')

theorem tail {l : Lexeme} {ls : List Lexeme} (h : Nested (l :: ls)) (hl : l.isBracket = false) :
    Nested ls := by
  cases h with
  | leaf _ h => exact h
  | group => cases hl

theorem exists_group {b : Char} {ls : List Lexeme} (h : Nested (.opening b :: ls)) :
    ∃ inner after, ls = inner ++ .closing (closingOf b) :: after ∧ Nested inner ∧ Nested after := by
  cases h with
  | leaf hl _ => cases hl
  | group hi h => exact ⟨_, _, rfl, hi, h⟩

/-- What follows nested brackets inside of nested brackets is nested. -/
theorem of_append {ls ms : List Lexeme} (h : Nested (ls ++ ms)) (hl : Nested ls) : Nested ms := by
  induction hl with
  | nil => exact h
  | leaf hleaf _ ih => exact ih (tail h hleaf)
  | @group b inner ls hi _ _ ih =>
    rw [List.cons_append, List.append_assoc, List.cons_append] at h
    obtain ⟨inner', after, heq, hi', hafter⟩ := exists_group h
    obtain ⟨-, -, rfl⟩ := group_unique heq hi hi'
    exact ih hafter

/-- What precedes nested brackets inside of nested brackets is nested. -/
theorem init {ls ms : List Lexeme} (h : Nested (ls ++ ms)) (hm : Nested ms) : Nested ls := by
  generalize hq : ls ++ ms = q at h
  induction h generalizing ls with
  | nil =>
    obtain ⟨rfl, -⟩ := List.append_eq_nil_iff.mp hq
    exact .nil
  | leaf hl _ ih =>
    cases ls with
    | nil => exact .nil
    | cons l ls =>
      obtain ⟨rfl, hq'⟩ := List.cons_eq_cons.mp hq
      exact .leaf hl (ih hq')
  | @group b inner q hi _ _ ih =>
    cases ls with
    | nil => exact .nil
    | cons l ls =>
      obtain ⟨rfl, hq'⟩ := List.cons_eq_cons.mp hq
      rcases List.append_eq_append_iff.mp hq' with ⟨x, rfl, rfl⟩ | ⟨x, rfl, hx⟩
      · -- the rest would close the bracket
        have hstart := (List.append_cons x _ q ▸ hm).closings_le_openings
        have hend := hi.openings_le_closings
        simp only [openings_append, closings_append, openings, closings] at hstart
        omega
      · cases x with
        | nil =>
          obtain rfl : .closing (closingOf b) :: q = ms := by simpa using hx
          exact absurd hm (not_closing .nil)
        | cons l x =>
          obtain ⟨rfl, rfl⟩ := List.cons_eq_cons.mp hx
          exact .group hi (ih rfl)

/-- What a bracket at the end of nested brackets closes. -/
theorem exists_group_concat {c : Char} {ls : List Lexeme} (h : Nested (ls ++ [.closing c])) :
    ∃ before b inner, ls = before ++ .opening b :: inner ∧ c = closingOf b ∧ Nested before ∧
      Nested inner := by
  generalize hq : ls ++ [.closing c] = q at h
  induction h generalizing ls with
  | nil => simp at hq
  | leaf hl _ ih =>
    cases ls with
    | nil =>
      obtain ⟨rfl, -⟩ := List.cons_eq_cons.mp hq
      cases hl
    | cons l ls =>
      obtain ⟨rfl, hq'⟩ := List.cons_eq_cons.mp hq
      obtain ⟨before, b, inner, rfl, hc, hbefore, hinner⟩ := ih hq'
      exact ⟨l :: before, b, inner, rfl, hc, .leaf hl hbefore, hinner⟩
  | @group b inner q hi _ _ ih =>
    cases ls with
    | nil => simp at hq
    | cons l ls =>
      obtain ⟨rfl, hq'⟩ := List.cons_eq_cons.mp hq
      rcases List.eq_nil_or_concat' q with rfl | ⟨q, l, rfl⟩
      · obtain ⟨rfl, hc⟩ := List.append_inj' hq' rfl
        cases hc
        exact ⟨[], b, ls, rfl, rfl, .nil, hi⟩
      · rw [← List.cons_append, ← List.append_assoc] at hq'
        obtain ⟨rfl, hl⟩ := List.append_inj' hq' rfl
        cases hl
        obtain ⟨before, b', inner', rfl, hc, hbefore, hinner⟩ := ih rfl
        exact ⟨.opening b :: (inner ++ .closing (closingOf b) :: before), b', inner', by simp, hc,
          .group hi hbefore, hinner⟩

end Nested

end PackHost.Source
