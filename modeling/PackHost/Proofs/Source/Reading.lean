import PackHost.Source.Downlevel
import PackHost.Proofs.Source.Rules

/-!
# Readings

A reading of a text is a list of lexemes that stand one after another as the lexical rules allow and
are the whole text. The pass over a text is the pass over its reading: `downlevel_eq_ok_iff`.
-/

namespace PackHost.Source

def sources (ls : List Lexeme) : List Char := ls.flatMap Lexeme.source

@[simp] theorem sources_nil : sources [] = [] := rfl

@[simp] theorem sources_cons (l : Lexeme) (ls : List Lexeme) :
    sources (l :: ls) = l.source ++ sources ls := rfl

@[simp] theorem sources_append (ls ms : List Lexeme) :
    sources (ls ++ ms) = sources ls ++ sources ms :=
  List.flatMap_append

def InPlace : List Lexeme → Prop
  | [] => True
  | l :: ls => l.Stands (sources ls) ∧ InPlace ls

theorem InPlace.of_append {ls ms : List Lexeme} (h : InPlace (ls ++ ms)) : InPlace ms := by
  induction ls with
  | nil => exact h
  | cons l ls ih => exact ih h.2

theorem InPlace.stands {before after : List Lexeme} {l : Lexeme}
    (h : InPlace (before ++ l :: after)) : l.Stands (sources after) :=
  h.of_append.1

/-- The text is the given lexemes, one after another, each as the lexical rules allow. -/
def Reads (text : List Char) (ls : List Lexeme) : Prop := text = sources ls ∧ InPlace ls

theorem reads_nil : Reads [] [] := ⟨rfl, trivial⟩

theorem reads_cons {text rest : List Char} {l : Lexeme} {ls : List Lexeme}
    (h : read? text = some (.lexeme l rest)) (hr : Reads rest ls) : Reads text (l :: ls) := by
  obtain ⟨rfl, hl⟩ := read?_eq_lexeme_iff.mp h
  obtain ⟨rfl, hls⟩ := hr
  exact ⟨rfl, hl, hls⟩

theorem Lexeme.Stands.source_ne_nil {l : Lexeme} {rest : List Char} (h : l.Stands rest) :
    l.source ≠ [] :=
  source_ne_nil_of_read? (read?_append h)

theorem getLast?_sources_concat {ls : List Lexeme} {l : Lexeme} (hl : l.source ≠ []) :
    (sources (ls ++ [l])).getLast? = l.source.getLast? := by
  rw [sources_append, sources_cons, sources_nil, List.append_nil, List.getLast?_append,
    List.getLast?_eq_some_getLast hl]
  rfl

/-- A text has at most one reading. -/
theorem Reads.unique {text : List Char} {ls ms : List Lexeme} (h : Reads text ls)
    (h' : Reads text ms) : ls = ms := by
  induction ls generalizing text ms with
  | nil =>
    obtain ⟨rfl, -⟩ := h
    cases ms with
    | nil => rfl
    | cons m ms =>
      obtain ⟨heq, hm, -⟩ := h'
      exact absurd (List.append_eq_nil_iff.mp heq.symm).1 hm.source_ne_nil
  | cons l ls ih =>
    obtain ⟨rfl, hl, hls⟩ := h
    cases ms with
    | nil =>
      obtain ⟨heq, -⟩ := h'
      exact absurd (List.append_eq_nil_iff.mp heq).1 hl.source_ne_nil
    | cons m ms =>
      obtain ⟨heq, hm, hms⟩ := h'
      rw [sources_cons, sources_cons] at heq
      have hread := read?_append hl
      rw [heq, read?_append hm] at hread
      obtain ⟨rfl, hrest⟩ := Reading.lexeme.inj (Option.some.inj hread)
      rw [ih ⟨hrest, hls⟩ ⟨rfl, hms⟩]

namespace Scan

/-- The state after the given lexemes, the first of which stands at the given place and the last in
front of `tail`. -/
def feed (s : Scan) (p : Position) (tail : List Char) : List Lexeme → Except Fault Scan
  | [] => .ok s
  | l :: ls =>
    match s.step p (sources ls ++ tail) l with
    | .error f => .error f
    | .ok s' => s'.feed (p.advance l.source) tail ls

theorem feed_cons_eq_ok {s s' : Scan} {p : Position} {tail : List Char} {l : Lexeme}
    {ls : List Lexeme} :
    s.feed p tail (l :: ls) = .ok s' ↔
      ∃ m, s.step p (sources ls ++ tail) l = .ok m ∧
        m.feed (p.advance l.source) tail ls = .ok s' := by
  rw [feed]
  cases s.step p (sources ls ++ tail) l <;> simp

theorem feed_append_eq_ok {s s' : Scan} {p : Position} {tail : List Char} {ls ms : List Lexeme} :
    s.feed p tail (ls ++ ms) = .ok s' ↔
      ∃ m, s.feed p (sources ms ++ tail) ls = .ok m ∧
        m.feed (p.advance (sources ls)) tail ms = .ok s' := by
  induction ls generalizing s p with
  | nil => simp [feed, Position.advance_nil]
  | cons l ls ih =>
    rw [List.cons_append, feed_cons_eq_ok]
    constructor
    · rintro ⟨m, hm, h⟩
      obtain ⟨m', hm', h'⟩ := ih.mp h
      refine ⟨m', feed_cons_eq_ok.mpr ⟨m, by simpa using hm, hm'⟩, ?_⟩
      rwa [sources_cons, Position.advance_append]
    · rintro ⟨m', h, h'⟩
      obtain ⟨m, hm, hm'⟩ := feed_cons_eq_ok.mp h
      refine ⟨m, by simpa using hm, ih.mpr ⟨m', hm', ?_⟩⟩
      rwa [sources_cons, Position.advance_append] at h'

theorem feed_singleton {s : Scan} {p : Position} {tail : List Char} {l : Lexeme} :
    s.feed p tail [l] = s.step p tail l := by
  simp only [feed, sources_nil, List.nil_append]
  cases s.step p tail l <;> rfl

theorem run_lexeme {s : Scan} {p : Position} {text rest : List Char} {l : Lexeme}
    (h : read? text = some (.lexeme l rest)) :
    s.run p text =
      match s.step p rest l with
      | .error f => .error f
      | .ok s' => s'.run (p.advance l.source) rest := by
  rw [run]
  split
  · next hnone => rw [h] at hnone; cases hnone
  · next hopen => rw [h] at hopen; cases hopen
  · next hopen => rw [h] at hopen; cases hopen
  · next l' rest' hsome =>
    rw [h] at hsome
    cases hsome
    rfl

theorem run_eq_feed {s : Scan} {p : Position} {text : List Char} {ls : List Lexeme}
    (h : Reads text ls) : s.run p text = s.feed p [] ls := by
  induction ls generalizing s p text with
  | nil =>
    obtain ⟨rfl, -⟩ := h
    rw [run]
    rfl
  | cons l ls ih =>
    obtain ⟨rfl, hl, hls⟩ := h
    have hread : read? (sources (l :: ls)) = some (.lexeme l (sources ls)) := read?_append hl
    rw [run_lexeme hread, feed, List.append_nil]
    cases s.step p (sources ls) l with
    | error f => rfl
    | ok s' => exact ih ⟨rfl, hls⟩

theorem reads_of_run {s s' : Scan} {p : Position} {text : List Char}
    (h : s.run p text = .ok s') : ∃ ls, Reads text ls := by
  fun_induction run s p text with
  | case1 s p text hread =>
    obtain rfl := eq_nil_of_read? hread
    exact ⟨[], reads_nil⟩
  | case2 => cases h
  | case3 => cases h
  | case4 => cases h
  | case5 s p text l rest hread s' hstep ih =>
    obtain ⟨ls, hls⟩ := ih h
    exact ⟨l :: ls, reads_cons hread hls⟩

end Scan

/-- A source text is accepted exactly if it has a reading over which the pass ends with no open
bracket; what the pass has written is the result. -/
theorem downlevel_eq_ok_iff {source text : String} :
    downlevel source = .ok text ↔
      ∃ ls s, Reads source.toList ls ∧ Scan.start.feed Position.start [] ls = .ok s ∧
        s.stack = [] ∧ text = String.ofList s.out.reverse := by
  constructor
  · intro h
    unfold downlevel at h
    split at h
    · cases h
    · next s hrun =>
      obtain ⟨ls, hls⟩ := Scan.reads_of_run hrun
      rw [Scan.run_eq_feed hls] at hrun
      unfold Scan.finish at h
      split at h
      · next hstack =>
        cases h
        exact ⟨ls, s, hls, hrun, hstack, rfl⟩
      · cases h
  · rintro ⟨ls, s, hls, hfeed, hstack, rfl⟩
    unfold downlevel
    rw [Scan.run_eq_feed hls, hfeed]
    simp [Scan.finish, hstack]

end PackHost.Source
