import PackHost.Proofs.Source.Mark

/-!
# Texts without arrows

In a text without an arrow every lexeme has an image of its own, which depends on the character in
front of it and on the first visible character behind it and on nothing else. The result is the
images in order (`images_of_accepted`), and a text without any of the forms that are rewritten is
its own result.
-/

namespace PackHost.Source

/-- A `var` that declares: it names no member, and no key of a map. -/
def Declares (before after : List Lexeme) : Prop :=
  ¬ EndsInDot before ∧ firstVisible? (sources after) ≠ some ':'

instance (before after : List Lexeme) : Decidable (Declares before after) :=
  inferInstanceAs (Decidable (_ ∧ _))

def Lexeme.image (before after : List Lexeme) : Lexeme → List Char
  | .word text => if text = "var".toList ∧ Declares before after then "let".toList else text
  | .tripleEqual => ['=', '=']
  | .notDoubleEqual => ['!', '=']
  | .literal quote items => (Lexeme.literal quote items).converted.source
  | l => l.source

def images (before : List Lexeme) : List Lexeme → List Char
  | [] => []
  | l :: after => l.image before after ++ images (before ++ [l]) after

/-- The forms whose images differ from them. -/
inductive Rewritten (before after : List Lexeme) : Lexeme → Prop
  | declaration : Declares before after → Rewritten before after (.word "var".toList)
  | tripleEqual : Rewritten before after .tripleEqual
  | notDoubleEqual : Rewritten before after .notDoubleEqual
  | quoted {items : List Item} : items.length ≠ 1 →
      Rewritten before after (.literal '\'' items)

theorem image_eq_source {before after : List Lexeme} {l : Lexeme}
    (h : ¬ Rewritten before after l) : l.image before after = l.source := by
  cases l with
  | word text =>
    refine if_neg ?_
    rintro ⟨rfl, hdeclares⟩
    exact h (.declaration hdeclares)
  | tripleEqual => exact absurd .tripleEqual h
  | notDoubleEqual => exact absurd .notDoubleEqual h
  | literal quote items =>
    refine congrArg Lexeme.source (converted_other ?_)
    rintro ⟨rfl, hlength⟩
    exact h (.quoted hlength)
  | _ => rfl

theorem images_eq_sources {before ls : List Lexeme}
    (h : ∀ front l after, ls = front ++ l :: after → ¬ Rewritten (before ++ front) after l) :
    images before ls = sources ls := by
  induction ls generalizing before with
  | nil => rfl
  | cons l ls ih =>
    have hl : ¬ Rewritten before ls l := by simpa using h [] l ls rfl
    have hls : images (before ++ [l]) ls = sources ls := by
      refine ih fun front m after heq => ?_
      have := h (l :: front) m after (congrArg (l :: ·) heq)
      rwa [List.append_cons] at this
    rw [images, image_eq_source hl, hls, sources_cons]

namespace Scan

variable {s s' : Scan} {p : Position} {rest : List Char}

theorem out_step_word {text : List Char} (h : s.step p rest (.word text) = .ok s') :
    s'.out = (if text = "var".toList ∧ s.afterDot = false ∧ firstVisible? rest ≠ some ':' then
      "let".toList else text).reverse ++ s.out := by
  rw [step_word_eq h]
  rfl

/-- Every lexeme but an arrow adds its image to what is written, and no other step looks at it. -/
theorem out_step {before after : List Lexeme} {l : Lexeme} (hc : Control before s)
    (ha : l ≠ .arrow) (h : s.step p (sources after) l = .ok s') :
    s'.out.reverse = s.out.reverse ++ l.image before after := by
  cases l with
  | word text =>
    have hdeclares : (s.afterDot = false ∧ firstVisible? (sources after) ≠ some ':') ↔
        Declares before after := by
      rw [Declares, ← hc.dot, Bool.not_eq_true]
    simp only [out_step_word h, hdeclares, List.reverse_append, List.reverse_reverse]
    rfl
  | literal quote items =>
    cases h
    simp [write, Lexeme.image, writeLiteral_eq_source]
  | opening b =>
    cases h
    simp [openBracket, Lexeme.image, Lexeme.source]
  | closing c =>
    obtain ⟨b, stack, -, -, rfl⟩ := step_closing.mp h
    simp [Lexeme.image, Lexeme.source]
  | arrow => exact absurd rfl ha
  | _ =>
    cases h
    simp [write, Lexeme.image, Lexeme.source]

end Scan

/-- What is written and the images of what is still to be read are together the images of the whole
text, wherever the pass is. -/
theorem Passed.images {before after : List Lexeme} {s : Scan} (hp : InPlace (before ++ after))
    (ha : .arrow ∉ before) (h : Passed before after s) :
    Source.images [] (before ++ after) = s.out.reverse ++ Source.images before after := by
  refine (h.invariant (P := fun before after s => Control before s ∧ (.arrow ∉ before →
      Source.images [] (before ++ after) = s.out.reverse ++ Source.images before after))
    (fun _ => ⟨Control.start, fun _ => rfl⟩) ?_ hp).2 ha
  rintro before after l s s' p hl ⟨hc, hout⟩ hstep
  refine ⟨hc.step hl.source_ne_nil hstep, fun hnot => ?_⟩
  simp only [List.mem_append, List.mem_singleton, not_or] at hnot
  obtain ⟨hbefore, harrow⟩ := hnot
  rw [List.append_assoc, List.singleton_append, hout hbefore, Scan.out_step hc (Ne.symm harrow) hstep,
    List.append_assoc]
  rfl

/-- **A text without arrows is rewritten lexeme by lexeme**: an accepted text has a reading, and if
no arrow is in it the result is the images of its lexemes in order. A text with none of the forms
that are rewritten is returned as it is. -/
theorem images_of_accepted {source text : String} (h : downlevel source = .ok text) :
    ∃ ls, Reads source.toList ls ∧ (.arrow ∉ ls → text.toList = images [] ls ∧
      ((∀ before l after, ls = before ++ l :: after → ¬ Rewritten before after l) →
        text = source)) := by
  obtain ⟨ls, -, hr, -⟩ := downlevel_eq_ok_iff.mp h
  obtain ⟨s, hs, -, rfl⟩ := exists_passed hr h
  refine ⟨ls, hr, fun ha => ?_⟩
  have himages : (String.ofList s.out.reverse).toList = images [] ls := by
    have hall := hs.images (by simpa using hr.2) ha
    rw [List.append_nil, images, List.append_nil] at hall
    rw [hall, String.toList_ofList]
  refine ⟨himages, fun hnone => String.toList_inj.mp ?_⟩
  rw [himages, images_eq_sources hnone, ← hr.1]

theorem images_of_accepted_sample :
    downlevel "var a = b.var !== '\"s' ==== #{var : x} + 'c';" =
        .ok "let a = b.var != \"\\\"s\" === #{var : x} + 'c';" ∧
      ∃ ls, Reads "var a = b.var !== '\"s' ==== #{var : x} + 'c';".toList ls ∧ .arrow ∉ ls ∧
        "let a = b.var != \"\\\"s\" === #{var : x} + 'c';".toList = images [] ls := by
  let start : List Lexeme := [.word "var".toList, .other ' ', .word ['a'], .other ' ', .other '=',
    .other ' ', .word ['b'], .other '.', .word "var".toList, .other ' ', .notDoubleEqual, .other ' ']
  let middle : List Lexeme := [.other ' ', .tripleEqual, .other '=', .other ' ', .other '#',
    .opening '{', .word "var".toList, .other ' ', .other ':', .other ' ', .word ['x'], .closing '}',
    .other ' ', .other '+', .other ' ']
  let ls : List Lexeme := start ++ .literal '\'' [.plain '"', .plain 's'] :: middle ++
    [.literal '\'' [.plain 'c'], .other ';']
  have hend : Reads ";".toList [.other ';'] := reads_cons (by rfl) reads_nil
  have hsecond : Reads "'c';".toList [.literal '\'' [.plain 'c'], .other ';'] :=
    ⟨rfl, ⟨rfl, by simp [AreItems]⟩, hend.2⟩
  have hmiddle : Reads " ==== #{var : x} + 'c';".toList (ls.drop 13) := by
    repeat' first | exact hsecond | refine reads_cons (by rfl) ?_
  have hfirst : Reads "'\"s' ==== #{var : x} + 'c';".toList (ls.drop 12) :=
    ⟨rfl, ⟨rfl, by simp [AreItems]⟩, hmiddle.2⟩
  have hr : Reads "var a = b.var !== '\"s' ==== #{var : x} + 'c';".toList ls := by
    repeat' first | exact hfirst | refine reads_cons (by rfl) ?_
  have h : downlevel "var a = b.var !== '\"s' ==== #{var : x} + 'c';" =
      .ok "let a = b.var != \"\\\"s\" === #{var : x} + 'c';" :=
    downlevel_eq_ok_iff.mpr ⟨_, _, hr, rfl, rfl, rfl⟩
  obtain ⟨ls', hr', hall⟩ := images_of_accepted h
  obtain rfl := hr.unique hr'
  exact ⟨h, ls, hr, by decide, (hall (by decide)).1⟩

end PackHost.Source
