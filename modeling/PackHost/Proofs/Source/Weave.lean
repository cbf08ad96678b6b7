import PackHost.Proofs.Source.Rendering

/-!
# What becomes of every lexeme

`woven_of_accepted`: the result for an accepted source is woven from texts for its lexemes, unless
an arrow takes away what follows a line comment. The proof goes by the number of lexemes between
brackets (`nestedWeaves`): an arrow looks back at nested lexemes, for which less is left to show.
-/

namespace PackHost.Source

/-! ## Blanks that arrows take away -/

/-- An arrow behind `before` takes the blanks `bs` away, which stand behind `k`: those behind its
parameters, and those at either end of a parameter list. -/
inductive Trimmed : List Lexeme → List Lexeme → List Lexeme → Prop
  | behind {k bs : List Lexeme} : Blanks bs → Trimmed (k ++ bs) k bs
  | left {a inner bs bs' : List Lexeme} : Nested (bs ++ inner) → Blanks bs → Blanks bs' →
      Trimmed (a ++ .opening '(' :: (bs ++ inner ++ .closing ')' :: bs')) (a ++ [.opening '(']) bs
  | right {a inner bs bs' : List Lexeme} : Nested (inner ++ bs) → Blanks bs → Blanks bs' →
      Trimmed (a ++ .opening '(' :: (inner ++ bs ++ .closing ')' :: bs')) (a ++ .opening '(' :: inner)
        bs

/-- Arrows outside of `switch` bodies take no other blanks away than the given ones, and none behind
a line comment. -/
def TrimsOnly (lost : Char → Prop) (ls : List Lexeme) : Prop :=
  ∀ before after k bs, ls = before ++ .arrow :: after → ¬ InMarked before → Trimmed before k bs →
    (∀ c, .other c ∈ bs → lost c) ∧ ∀ l ∈ k.getLast?, l.isLineComment = false

theorem Trimmed.starts {before k bs : List Lexeme} (h : Trimmed before k bs) :
    k ++ bs <+: before := by
  cases h with
  | behind => exact List.prefix_rfl
  | @left a inner bs bs' => exact ⟨inner ++ .closing ')' :: bs', by simp⟩
  | @right a inner bs bs' => exact ⟨.closing ')' :: bs', by simp⟩

namespace TrimsOnly

variable {lost : Char → Prop} {ls k a b₁ core b₂ bs after : List Lexeme}

theorem behind (h : TrimsOnly lost ls) (hls : ls = k ++ bs ++ .arrow :: after) (hb : Blanks bs)
    (hm : ¬ InMarked (k ++ bs)) :
    (∀ c, .other c ∈ bs → lost c) ∧ ∀ l ∈ k.getLast?, l.isLineComment = false :=
  h _ after k bs hls hm (.behind hb)

/-- The three places at which an arrow behind a parameter list takes blanks away. -/
theorem group (h : TrimsOnly lost ls)
    (hls : ls = a ++ .opening '(' ::
      (b₁ ++ core ++ b₂ ++ .closing ')' :: (bs ++ .arrow :: after)))
    (hn : Nested (b₁ ++ core ++ b₂)) (hb₁ : Blanks b₁) (hb₂ : Blanks b₂) (hb : Blanks bs)
    (hm : ¬ InMarked (a ++ .opening '(' :: (b₁ ++ core ++ b₂ ++ .closing ')' :: bs))) :
    (∀ c, .other c ∈ b₁ ++ b₂ ++ bs → lost c) ∧
      ∀ l ∈ core.getLast?, l.isLineComment = false := by
  let before : List Lexeme := a ++ .opening '(' :: (b₁ ++ core ++ b₂ ++ .closing ')' :: bs)
  have hbefore : ls = before ++ .arrow :: after := by simpa [before] using hls
  have hleft : Trimmed before (a ++ [.opening '(']) b₁ := by
    have hsplit : before = a ++ .opening '(' :: (b₁ ++ (core ++ b₂) ++ .closing ')' :: bs) := by
      simp [before]
    rw [hsplit]
    exact .left (by simpa using hn) hb₁ hb
  have hright : Trimmed before (a ++ .opening '(' :: (b₁ ++ core)) b₂ := .right hn hb₂ hb
  have hbehind : before = a ++ .opening '(' :: (b₁ ++ core ++ b₂ ++ [.closing ')']) ++ bs := by
    simp [before]
  obtain ⟨hlost₁, -⟩ := h before after _ b₁ hbefore hm hleft
  obtain ⟨hlost₂, hline⟩ := h before after _ b₂ hbefore hm hright
  obtain ⟨hlost₃, -⟩ := h.behind (hbehind ▸ hbefore) hb (hbehind ▸ hm)
  refine ⟨fun c hc => ?_, fun l hl => hline l ?_⟩
  · rcases List.mem_append.mp hc with hc | hc
    · exact (List.mem_append.mp hc).elim (hlost₁ c) (hlost₂ c)
    · exact hlost₃ c hc
  · rw [← List.cons_append, ← List.append_assoc, List.getLast?_append, Option.mem_def.mp hl]
    rfl

end TrimsOnly

/-! ## Parts of a source -/

/-- What is written for `m`, behind `a` and in front of `after`, is woven from texts for its
lexemes, and something is written for the last one. -/
def Weaves (lost : Char → Prop) (a m after : List Lexeme) : Prop :=
  ∃ u ts, Written a (m ++ after) u ∧ Written (a ++ m) after (u ++ ts.flatten) ∧
    Woven lost (sources after) m ts ∧ ∀ t ∈ ts.getLast?, t ≠ []

namespace Weaves

variable {lost : Char → Prop} {a m m₁ m₂ after : List Lexeme}

theorem nil {s : Scan} (h : Passed a after s) : Weaves lost a [] after :=
  ⟨_, [], ⟨s, h, rfl⟩, ⟨s, by rwa [List.append_nil], by simp⟩, .nil, fun t ht => by cases ht⟩

theorem copy {l : Lexeme} {t : List Char} (h : Weaves lost a m (l :: after))
    (hl : l.Stands (sources after)) (ht : Copied l t)
    (hw : ∀ w, Written (a ++ m) (l :: after) w → Written (a ++ m ++ [l]) after (w ++ t)) :
    Weaves lost a (m ++ [l]) after := by
  obtain ⟨u, ts, hu, hm, hwoven, hlast⟩ := h
  refine ⟨u, ts ++ [t], by simpa using hu, ?_, ?_, ?_⟩
  · simpa using hw _ hm
  · refine .append ?_ (.singleton (.copied ht) hl.safe)
    exact hwoven.change hlast fun _ _ hs => hs.copied hl (by simpa using ht)
  · rw [List.getLast?_concat]
    rintro _ ⟨⟩
    exact ht.ne_nil hl.source_ne_nil

theorem append (h₁ : Weaves lost a m₁ (m₂ ++ after)) (h₂ : Weaves lost (a ++ m₁) m₂ after)
    (hsafe : ∀ l ∈ m₁.getLast?, ∀ c, Safe c l) : Weaves lost a (m₁ ++ m₂) after := by
  obtain ⟨u, ts, hu, hm₁, hw₁, hlast₁⟩ := h₁
  obtain ⟨v, us, hv, hm₂, hw₂, hlast₂⟩ := h₂
  obtain rfl := hm₁.unique hv
  refine ⟨u, ts ++ us, by rwa [List.append_assoc], ?_, ?_, ?_⟩
  · simpa using hm₂
  · exact .append (hw₁.change hlast₁ fun l hl _ => hsafe l hl _) hw₂
  · intro t ht
    rw [List.getLast?_append] at ht
    cases hus : us.getLast? with
    | none =>
      rw [hus, Option.none_or] at ht
      exact hlast₁ t ht
    | some t' =>
      rw [hus, Option.some_or] at ht
      cases ht
      exact hlast₂ t hus

/-- The name of a parameter goes between bars, and the blanks behind it are gone. -/
theorem closure_word {bs : List Lexeme} {text : List Char} {final : Scan}
    (h : Weaves lost a m (.word text :: (bs ++ .arrow :: after)))
    (hp : InPlace (a ++ m ++ .word text :: (bs ++ .arrow :: after)))
    (hf : Passed (a ++ m ++ .word text :: (bs ++ .arrow :: after)) [] final)
    (hb : Blanks bs) (hlost : ∀ c, .other c ∈ bs → lost c)
    (hm : ¬ InMarked (a ++ m ++ .word text :: bs)) (hdot : ¬ EndsInDot (a ++ m))
    (hrun : ¬ EndsInWord (a ++ m)) :
    Weaves lost a (m ++ .word text :: bs ++ [.arrow]) after := by
  obtain ⟨u, ts, hu, hm', hwoven, hlast⟩ := h
  obtain ⟨v, x, hx, hv, -, hout⟩ := Passed.closure_word hp hf hb hm hdot hrun
  obtain rfl := hm'.unique hv
  obtain ⟨⟨c, cs, rfl, hc⟩, -, -⟩ := hp.stands
  have hne : c ≠ '\n' := by
    rintro rfl
    exact absurd hc (by decide)
  let us := ('|' :: x) :: (bs.map fun _ => []) ++ [['|']]
  have hus : us.flatten = '|' :: x ++ ['|'] := by simp [us]
  refine ⟨u, ts ++ us, by simpa using hu, ?_, ?_, ?_⟩
  · rw [List.flatten_append, hus]
    simpa using hout
  · rw [List.append_assoc]
    refine .append (hwoven.change hlast fun l _ hs => ?_) ?_
    · rw [hus]
      exact safe_bar (not_isLineComment_of_safe hs hne)
    · have hword : Woven lost ([['|']].flatten ++ sources after) (.word (c :: cs) :: bs)
          (('|' :: x) :: bs.map fun _ => []) := .cons (.parameter hx) trivial (.blanks hb hlost)
      exact hword.append (.singleton .arrow trivial)
  · rw [← List.append_assoc, List.getLast?_concat]
    rintro _ ⟨⟩
    simp

end Weaves

/-- The parameter list goes between bars, and the blanks at its ends and behind it are gone. -/
theorem Weaves.closure_group {lost : Char → Prop} {a m after b₁ core b₂ bs : List Lexeme}
    {final : Scan}
    (h : Weaves lost a m
      (.opening '(' :: (b₁ ++ core ++ b₂ ++ .closing ')' :: (bs ++ .arrow :: after))))
    (hcore : Weaves lost (a ++ m ++ .opening '(' :: b₁) core
      (b₂ ++ .closing ')' :: (bs ++ .arrow :: after)))
    (hp : InPlace (a ++ m ++ .opening '(' ::
      (b₁ ++ core ++ b₂ ++ .closing ')' :: (bs ++ .arrow :: after))))
    (hf : Passed (a ++ m ++ .opening '(' ::
      (b₁ ++ core ++ b₂ ++ .closing ')' :: (bs ++ .arrow :: after))) [] final)
    (hn : Nested (b₁ ++ core ++ b₂)) (hb₁ : Blanks b₁) (hb₂ : Blanks b₂) (hb : Blanks bs)
    (hlost : ∀ c, .other c ∈ b₁ ++ b₂ ++ bs → lost c)
    (head : ∀ l ∈ core.head?, l.isBlank = false ∧ l ≠ .closing ')')
    (last : ∀ l ∈ core.getLast?, l.isBlank = false ∧ l.isLineComment = false)
    (hm : ¬ InMarked (a ++ m ++ .opening '(' :: (b₁ ++ core ++ b₂ ++ .closing ')' :: bs))) :
    Weaves lost a (m ++ .opening '(' :: (b₁ ++ core ++ b₂ ++ .closing ')' :: bs ++ [.arrow]))
      after := by
  obtain ⟨u, ts, hu, hm', hwoven, hlast⟩ := h
  obtain ⟨v, cs, hv, hv', hcs, hcslast⟩ := hcore
  obtain ⟨w, x, hw, hx, hout⟩ := Passed.closure_group hp hf hn hb hm
  obtain rfl := hm'.unique hw
  -- the inside of the group: what was written for the core, between blanks
  have hopen : Written (a ++ m ++ .opening '(' :: b₁)
      (core ++ (b₂ ++ .closing ')' :: (bs ++ .arrow :: after)))
      (u ++ ts.flatten ++ ['('] ++ sources b₁) := by
    have hfirst : Written (a ++ m ++ [.opening '('])
        (b₁ ++ (core ++ (b₂ ++ .closing ')' :: (bs ++ .arrow :: after))))
        (u ++ ts.flatten ++ ['(']) := Written.opening (by simpa using hm')
    simpa using hfirst.blanks hb₁
  obtain rfl := hv.unique hopen
  have hinner : x = sources b₁ ++ cs.flatten ++ sources b₂ := by
    have hend := (Written.blanks hb₂ hv').unique (by simpa using hx)
    simpa using hend.symm
  have hp' : InPlace (a ++ m ++ .opening '(' :: b₁ ++ core ++
      (b₂ ++ .closing ')' :: (bs ++ .arrow :: after))) := by simpa using hp
  have htrim : trim x = cs.flatten := by
    rw [hinner]
    have hp'' : InPlace (core ++ (b₂ ++ .closing ')' :: (bs ++ .arrow :: after))) := by
      rw [List.append_assoc] at hp'
      exact hp'.of_append
    refine trim_eq hb₁.sources hb₂.sources (hcs.head_visible hp'' head) ?_
    refine hv'.last_visible hp' ?_ last
    rintro rfl
    cases hcs
    rfl
  let us := ['|'] :: ((b₁.map fun _ => []) ++ cs ++ (b₂.map fun _ => []) ++
    [] :: (bs.map fun _ => [])) ++ [['|']]
  have hus : us.flatten = '|' :: cs.flatten ++ ['|'] := by simp [us]
  refine ⟨u, ts ++ us, by simpa using hu, ?_, ?_, ?_⟩
  · rw [List.flatten_append, hus]
    rw [htrim] at hout
    simpa using hout
  · refine .append (hwoven.change hlast fun l _ hs => ?_) (.group ?_ hb₁ hb₂ hb hlost)
    · rw [hus]
      exact safe_bar (not_isLineComment_of_safe hs (by decide))
    · exact hcs.change hcslast fun l hl _ => safe_bar (last l hl).2
  · rw [← List.append_assoc, List.getLast?_concat]
    rintro _ ⟨⟩
    simp

/-! ## Every lexeme -/

namespace Weaves

variable {lost : Char → Prop} {a m after : List Lexeme} {l : Lexeme} {final : Scan}

theorem leaf (h : Weaves lost a m (l :: after)) (hp : InPlace (a ++ m ++ l :: after))
    (hf : Passed (a ++ m ++ l :: after) [] final) (hb : l.isBracket = false) (ha : l ≠ .arrow) :
    Weaves lost a (m ++ [l]) after := by
  obtain ⟨s, hs⟩ := hf.exists_split
  obtain ⟨s', hs'⟩ := hf.exists_concat
  obtain ⟨p, hstep⟩ := hs.step hs'
  obtain ⟨t, ht, rfl⟩ := Scan.step_leaf hb ha hstep
  refine h.copy hp.stands ht fun w hw => ⟨_, hs', ?_⟩
  obtain rfl := hw.unique ⟨s, hs, rfl⟩
  simp [Scan.copy]

theorem brackets {b c : Char} {inner : List Lexeme}
    (h : Weaves lost a m (.opening b :: (inner ++ .closing c :: after)))
    (hinner : Weaves lost (a ++ m ++ [.opening b]) inner (.closing c :: after))
    (hp : InPlace (a ++ m ++ .opening b :: (inner ++ .closing c :: after)))
    (hf : Passed (a ++ m ++ .opening b :: (inner ++ .closing c :: after)) [] final) :
    Weaves lost a (m ++ .opening b :: inner ++ [.closing c]) after := by
  have hopen : Weaves lost a (m ++ [.opening b]) (inner ++ .closing c :: after) :=
    h.copy hp.stands (.opening b) fun w hw => hw.opening
  have hboth : Weaves lost a (m ++ .opening b :: inner) (.closing c :: after) := by
    have := hopen.append (by simpa using hinner) fun l hl c => by
      rw [List.getLast?_concat] at hl
      cases hl
      trivial
    simpa using this
  have hsplit : a ++ m ++ .opening b :: (inner ++ .closing c :: after) =
      a ++ (m ++ .opening b :: inner) ++ .closing c :: after := by simp
  rw [hsplit] at hp hf
  exact hboth.copy hp.stands (.closing c) fun w hw => hw.closing hf

theorem arrow_alone {k bs : List Lexeme} {s : Scan} (h : Weaves lost a (k ++ bs) (.arrow :: after))
    (hs : Passed (a ++ k) (bs ++ .arrow :: after) s) (hb : Blanks bs) (hmark : s.inSwitch = false)
    (hc : closureParams? s.out s.group = none) :
    Weaves lost a (k ++ bs ++ [.arrow]) after := by
  refine h.copy trivial .arrow fun w hw => ?_
  have hbefore : Written (a ++ k ++ bs) (.arrow :: after) (s.out.reverse ++ sources bs) :=
    Written.blanks hb ⟨s, hs, rfl⟩
  rw [← List.append_assoc] at hw ⊢
  obtain rfl := hw.unique hbefore
  exact hs.alone hb hmark hc

end Weaves

/-- An arrow behind `a`, in front of `after`, would stand alone. -/
def Fresh (a after : List Lexeme) : Prop :=
  ∀ s, Passed a after s → closureParams? s.out s.group = none

theorem fresh_nil (after : List Lexeme) : Fresh [] after := by
  rintro _ ⟨⟩
  rfl

theorem fresh_opening {a after : List Lexeme} {b : Char} (hp : InPlace (a ++ .opening b :: after)) :
    Fresh (a ++ [.opening b]) after := by
  intro s hs
  obtain ⟨m, hm, hstep⟩ := Passed.concat_iff.mp hs
  exact alone_of_step (hm.tidy hp) hp.stands (by rintro _ ⟨⟩) (by rintro ⟨⟩) rfl rfl hstep

theorem Fresh.blanks {a bs after : List Lexeme} (h : Fresh a (bs ++ after)) (hb : Blanks bs) :
    Fresh (a ++ bs) after := by
  intro s' hs'
  obtain ⟨s, hs⟩ := hs'.exists_init
  obtain rfl := hs'.unique (hs.blanks hb)
  rw [closureParams?_write hb.sources]
  exact h s hs

section Induction

variable {lost : Char → Prop} {ls a m after : List Lexeme} {final : Scan}

def NestedWeaves (lost : Char → Prop) (ls : List Lexeme) (n : Nat) : Prop :=
  ∀ a m after, m.length < n → ls = a ++ m ++ after → Nested m → Fresh a (m ++ after) →
    Weaves lost a m after

theorem weaves_closing {n : Nat} {c : Char} (ih : NestedWeaves lost ls n) (hp : InPlace ls)
    (hf : Passed ls [] final) (hlen : (m ++ [Lexeme.closing c]).length ≤ n)
    (hls : ls = a ++ m ++ .closing c :: after) (hn : Nested (m ++ [.closing c]))
    (hstart : Fresh a (m ++ .closing c :: after)) : Weaves lost a (m ++ [.closing c]) after := by
  obtain ⟨m₁, b, inner, rfl, -, hn₁, hinner⟩ := hn.exists_group_concat
  have hls' : ls = a ++ m₁ ++ .opening b :: (inner ++ .closing c :: after) := by simpa using hls
  simp only [List.length_append, List.length_cons, List.length_nil] at hlen
  have hbefore : Weaves lost a m₁ (.opening b :: (inner ++ .closing c :: after)) :=
    ih _ _ _ (by omega) hls' hn₁ (by simpa using hstart)
  have hinside : Weaves lost (a ++ m₁ ++ [.opening b]) inner (.closing c :: after) :=
    ih _ _ _ (by omega) (by simpa using hls') hinner (fresh_opening (hls' ▸ hp))
  exact hbefore.brackets hinside (hls' ▸ hp) (hls' ▸ hf)

theorem weaves_group_arrow {n : Nat} {bs : List Lexeme} (ih : NestedWeaves lost ls n)
    (hp : InPlace ls) (hf : Passed ls [] final) (htrim : TrimsOnly lost ls)
    (hlen : (m ++ Lexeme.closing ')' :: bs).length ≤ n)
    (hls : ls = a ++ m ++ .closing ')' :: (bs ++ .arrow :: after)) (hn : Nested (m ++ [.closing ')']))
    (hb : Blanks bs) (hm : ¬ InMarked (a ++ (m ++ .closing ')' :: bs)))
    (hstart : Fresh a (m ++ .closing ')' :: (bs ++ .arrow :: after))) :
    Weaves lost a (m ++ .closing ')' :: bs ++ [.arrow]) after := by
  obtain ⟨m₁, b, inner, rfl, hbracket, hn₁, hinner⟩ := hn.exists_group_concat
  obtain ⟨b₁, core, b₂, rfl, hb₁, hb₂, head, last⟩ := exists_core Lexeme.isBlank inner
  have hls' : ls = a ++ m₁ ++ .opening b ::
      (b₁ ++ core ++ b₂ ++ .closing ')' :: (bs ++ .arrow :: after)) := by simpa using hls
  have hm' : ¬ InMarked
      (a ++ m₁ ++ .opening b :: (b₁ ++ core ++ b₂ ++ .closing ')' :: bs)) := by simpa using hm
  have hp' := hls' ▸ hp
  obtain rfl := eq_of_closingOf hp'.stands hbracket
  have hcore : Nested core := (hinner.init (Blanks.nested hb₂)).of_append (Blanks.nested hb₁)
  simp only [List.length_append, List.length_cons] at hlen
  have hw : Weaves lost a m₁
      (.opening '(' :: (b₁ ++ core ++ b₂ ++ .closing ')' :: (bs ++ .arrow :: after))) :=
    ih _ _ _ (by omega) hls' hn₁ (by simpa using hstart)
  -- the blanks at either end are not copied here, so the induction goes by what is between them
  have hwcore : Weaves lost (a ++ m₁ ++ .opening '(' :: b₁) core
      (b₂ ++ .closing ')' :: (bs ++ .arrow :: after)) := by
    refine ih _ _ _ (by omega) (by simpa using hls') hcore ?_
    have hopen : Fresh (a ++ m₁ ++ [.opening '('])
        (b₁ ++ (core ++ (b₂ ++ .closing ')' :: (bs ++ .arrow :: after)))) :=
      fresh_opening (by simpa using hp')
    simpa using hopen.blanks hb₁
  obtain ⟨hlost, hline⟩ := htrim.group hls' hinner hb₁ hb₂ hb hm'
  have hfirst : ∀ l ∈ core.head?, l.isBlank = false ∧ l ≠ .closing ')' := by
    refine fun l hl => ⟨head l hl, ?_⟩
    rintro rfl
    obtain ⟨core, rfl⟩ := List.head?_eq_some_iff.mp hl
    exact Nested.not_closing .nil hcore
  have hlast : ∀ l ∈ core.getLast?, l.isBlank = false ∧ l.isLineComment = false :=
    fun l hl => ⟨last l hl, hline l hl⟩
  simpa using hw.closure_group hwcore hp' (hls' ▸ hf) hinner hb₁ hb₂ hb hlost hfirst hlast hm'

theorem weaves_arrow {n : Nat} (ih : NestedWeaves lost ls n) (hp : InPlace ls)
    (hf : Passed ls [] final) (htrim : TrimsOnly lost ls) (hlen : m.length < n)
    (hls : ls = a ++ m ++ .arrow :: after) (hn : Nested m)
    (hstart : Fresh a (m ++ .arrow :: after)) : Weaves lost a (m ++ [.arrow]) after := by
  have hw : Weaves lost a m (.arrow :: after) := ih _ _ _ hlen hls hn hstart
  have hp' : InPlace (a ++ m ++ .arrow :: after) := hls ▸ hp
  by_cases hm : InMarked (a ++ m)
  · refine hw.copy trivial .arrow fun w ⟨s, hs, hout⟩ => ?_
    rw [hout]
    exact hs.arm ((hs.control hp').inSwitch_iff.mpr hm)
  obtain ⟨k, bs, rfl, hb, hk⟩ := exists_blanks m
  have hls' : ls = a ++ k ++ (bs ++ .arrow :: after) := by simpa using hls
  rw [← List.append_assoc] at hm
  obtain ⟨s, hs⟩ : ∃ s, Passed (a ++ k) (bs ++ .arrow :: after) s := (hls' ▸ hf).exists_split
  have halone : closureParams? s.out s.group = none → Weaves lost a (k ++ bs ++ [.arrow]) after :=
    fun hc => hw.arrow_alone hs hb (hs.not_inSwitch hb (hls' ▸ hp) hm) hc
  rcases List.eq_nil_or_concat' k with rfl | ⟨k, l, rfl⟩
  · exact halone (hstart s (by simpa using hs))
  have hsplit : ls = a ++ k ++ l :: (bs ++ .arrow :: after) := by simpa using hls'
  have hp₁ : InPlace (a ++ k ++ l :: (bs ++ .arrow :: after)) := hsplit ▸ hp
  have hf₁ : Passed (a ++ k ++ l :: (bs ++ .arrow :: after)) [] final := hsplit ▸ hf
  -- the lexeme in front of the blanks, and the step that reads it
  have hblank : l.isBlank = false := hk l List.getLast?_concat
  obtain ⟨hlost, hlines⟩ := htrim.behind (by simpa using hls) hb hm
  have hline : l.isLineComment = false := by
    refine hlines l ?_
    rw [← List.append_assoc, List.getLast?_concat]
    rfl
  obtain ⟨s₀, hs₀⟩ := hf₁.exists_split
  obtain ⟨p, hstep⟩ := hs₀.step (by simpa using hs)
  have hn₁ : Nested (k ++ [l]) := hn.init hb.nested
  by_cases hg : l = .closing ')'
  · subst hg
    have := weaves_group_arrow (m := k) ih hp hf htrim (by simpa using Nat.le_of_lt hlen) hsplit
      hn₁ hb (by simpa using hm) (by simpa using hstart)
    simpa using this
  by_cases hword : ∃ text, l = .word text
  · obtain ⟨text, rfl⟩ := hword
    by_cases hfree : EndsInWord (a ++ k) ∨ EndsInDot (a ++ k)
    · obtain ⟨t, -, -, hc⟩ := word_of_step (hs₀.tidy hp₁) hp₁.stands hstep
      have hfree' : s₀.out.head?.any isWordPart = true ∨ s₀.afterDot = true :=
        hfree.imp (hs₀.run_iff hp₁).mpr (hs₀.control hp₁).dot.mpr
      rw [if_pos hfree'] at hc
      exact halone hc
    · obtain ⟨hrun, hdot⟩ := not_or.mp hfree
      have hk' : Weaves lost a k (.word text :: (bs ++ .arrow :: after)) := by
        refine ih _ _ _ ?_ hsplit (hn₁.init (.singleton rfl)) (by simpa using hstart)
        simp only [List.length_append, List.length_singleton] at hlen
        omega
      have := hk'.closure_word hp₁ hf₁ hb hlost (by simpa using hm) hdot hrun
      simpa using this
  · exact halone (alone_of_step (hs₀.tidy hp₁) hp₁.stands (fun text heq => hword ⟨text, heq⟩) hg
      hline hblank hstep)

end Induction

/-- **What is written for nested lexemes is woven**, where an arrow in front of them would stand
alone. -/
theorem nestedWeaves {lost : Char → Prop} {ls : List Lexeme} {final : Scan}
    (hp : InPlace ls) (hf : Passed ls [] final) (htrim : TrimsOnly lost ls) (n : Nat) :
    NestedWeaves lost ls n := by
  induction n with
  | zero => exact fun a m after hlen => absurd hlen (Nat.not_lt_zero _)
  | succ n ih =>
    intro a m after hlen hls hn hstart
    rcases List.eq_nil_or_concat' m with rfl | ⟨m, l, rfl⟩
    · rw [List.append_nil] at hls
      rw [hls] at hf
      obtain ⟨s, hs⟩ := hf.exists_split
      exact .nil hs
    have hls' : ls = a ++ m ++ l :: after := by simpa using hls
    have hstart' : Fresh a (m ++ l :: after) := by simpa using hstart
    have hlen' : m.length < n := by
      simp only [List.length_append, List.length_singleton] at hlen
      omega
    cases l with
    | opening b => exact absurd hn (Nested.not_opening .nil)
    | closing c => exact weaves_closing ih hp hf (Nat.le_of_lt_succ hlen) hls' hn hstart'
    | arrow => exact weaves_arrow ih hp hf htrim hlen' hls' (hn.init (.singleton rfl)) hstart'
    | _ =>
      exact (ih _ _ _ hlen' hls' (hn.init (.singleton rfl)) hstart').leaf (hls' ▸ hp) (hls' ▸ hf)
        rfl (by rintro ⟨⟩)

/-- **The result is woven from texts for the lexemes of the source**, if no arrow takes away what
follows a line comment. -/
theorem woven_of_accepted {lost : Char → Prop} {source text : String} {ls : List Lexeme}
    (hr : Reads source.toList ls) (h : downlevel source = .ok text) (htrim : TrimsOnly lost ls) :
    ∃ ts, text.toList = ts.flatten ∧ Woven lost [] ls ts := by
  obtain ⟨s, hs, hstack, rfl⟩ := exists_passed hr h
  have hw : Weaves lost [] ls [] := by
    refine nestedWeaves hr.2 hs htrim (ls.length + 1) [] ls [] (Nat.lt_succ_self _) (by simp)
      (hs.nested (by simpa using hr.2) hstack) (fresh_nil _)
  obtain ⟨u, ts, hu, hout, hwoven, -⟩ := hw
  obtain rfl := hu.unique ⟨Scan.start, rfl, rfl⟩
  have hfinal : ts.flatten = s.out.reverse := hout.unique ⟨s, by simpa using hs, rfl⟩
  exact ⟨ts, by rw [String.toList_ofList, hfinal], hwoven⟩

end PackHost.Source
