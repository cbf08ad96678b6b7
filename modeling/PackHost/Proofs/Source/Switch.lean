import Mathlib.Data.List.Basic
import PackHost.Proofs.Source.Arrow

/-!
# The arms of a `switch`

* `arm_or_closure`: where the first brace after every `switch` stands at the depth of the `switch`
  and opens no map, the arrows directly inside of `switch` bodies are copied, and behind parameters
  every other arrow becomes a closure;
* `default_arm_rewritten`: without that condition it fails. The pass takes the first brace after a
  `switch` for its body, be it a map inside of the subject.
-/

namespace PackHost.Source

/-- The character directly in front of what comes next is the mark of a map literal. -/
def EndsInHash (ls : List Lexeme) : Prop := (sources ls).getLast? = some '#'

instance (ls : List Lexeme) : Decidable (EndsInHash ls) :=
  inferInstanceAs (Decidable ((sources ls).getLast? = some '#'))

/-- A brace behind these lexemes opens the body of a `switch`: it is the first one at the depth of
the `switch` that opens no map. -/
def OpensBody (p : List Lexeme) : Prop :=
  ∃ k m, p = k ++ .word "switch".toList :: m ∧ ¬ EndsInDot k ∧ Nested m ∧ ¬ EndsInHash p ∧
    ∀ m₁ q m₂, m = m₁ ++ .opening '{' :: (q ++ .closing '}' :: m₂) → Nested m₁ → Nested q →
      EndsInHash (k ++ .word "switch".toList :: m₁)

/-- What comes next stands directly inside the body of a `switch`. -/
def InBody (ls : List Lexeme) : Prop :=
  ∃ p q, ls = p ++ .opening '{' :: q ∧ Nested q ∧ OpensBody p

/-- The first brace after every `switch` stands at the depth of the `switch` and opens no map. -/
def PlainSubjects (ls : List Lexeme) : Prop :=
  ∀ k m rest, ls = k ++ .word "switch".toList :: (m ++ .opening '{' :: rest) → ¬ EndsInDot k →
    .opening '{' ∉ m → Nested m ∧ ¬ EndsInHash (k ++ .word "switch".toList :: m)

/-- These lexemes end with a parameter list or with the name of a single parameter, and blanks. -/
inductive Params : List Lexeme → Prop
  | group {a inner bs : List Lexeme} : Nested inner → Blanks bs →
      Params (a ++ .opening '(' :: (inner ++ .closing ')' :: bs))
  | word {a bs : List Lexeme} {text : List Char} : Blanks bs → ¬ EndsInDot a → ¬ EndsInWord a →
      Params (a ++ .word text :: bs)

def ArrowKept (before after : List Lexeme) : Prop :=
  ∃ t, Written before (.arrow :: after) t ∧ Written (before ++ [.arrow]) after (t ++ ['=', '>'])

/-- The parameters in front of the arrow stand between bars, and it is gone. -/
inductive ArrowClosed (after : List Lexeme) : List Lexeme → Prop
  | group {a inner bs : List Lexeme} {u x : List Char} :
      Written a (.opening '(' :: (inner ++ .closing ')' :: (bs ++ .arrow :: after))) u →
      Written (a ++ .opening '(' :: inner) (.closing ')' :: (bs ++ .arrow :: after))
        (u ++ '(' :: x) →
      Written (a ++ .opening '(' :: (inner ++ .closing ')' :: bs) ++ [.arrow]) after
        (u ++ '|' :: trim x ++ ['|']) →
      ArrowClosed after (a ++ .opening '(' :: (inner ++ .closing ')' :: bs))
  | word {a bs : List Lexeme} {text u x : List Char} : Copied (.word text) x →
      Written a (.word text :: (bs ++ .arrow :: after)) u →
      Written (a ++ [.word text]) (bs ++ .arrow :: after) (u ++ x) →
      Written (a ++ .word text :: bs ++ [.arrow]) after (u ++ '|' :: x ++ ['|']) →
      ArrowClosed after (a ++ .word text :: bs)

/-! ## The mark of the pass and the body -/

theorem afterSwitch_iff_opensBody {ls p rest : List Lexeme} (hs : PlainSubjects ls)
    (h : ls = p ++ .opening '{' :: rest) : AfterSwitch p ↔ OpensBody p := by
  constructor
  · rintro ⟨k, m, rfl, hdot, hbrace⟩
    obtain ⟨hn, hhash⟩ := hs k m rest (by simpa using h) hdot hbrace
    refine ⟨k, m, rfl, hdot, hn, hhash, fun m₁ q m₂ heq _ _ => ?_⟩
    exact absurd (heq ▸ List.mem_append_right m₁ List.mem_cons_self) hbrace
  · rintro ⟨k, m, rfl, hdot, hn, -, hmaps⟩
    refine ⟨k, m, rfl, hdot, fun hbrace => ?_⟩
    -- the first brace would have opened the body
    obtain ⟨m₁, m₂, rfl, hfirst⟩ := List.eq_append_cons_of_mem hbrace
    obtain ⟨hn₁, hhash⟩ := hs k m₁ (m₂ ++ .opening '{' :: rest) (by simpa using h) hdot hfirst
    obtain ⟨q, m₃, rfl, hq, -⟩ := (hn.of_append hn₁).exists_group
    exact hhash (hmaps m₁ q m₃ rfl hn₁ hq)

theorem inMarked_iff_inBody {ls before after : List Lexeme} (hs : PlainSubjects ls)
    (h : ls = before ++ after) : InMarked before ↔ InBody before := by
  have hmark : ∀ p q, before = p ++ .opening '{' :: q → (AfterSwitch p ↔ OpensBody p) := by
    rintro p q rfl
    have hls : ls = p ++ .opening '{' :: (q ++ after) := by simpa using h
    exact afterSwitch_iff_opensBody hs hls
  constructor
  · rintro ⟨p, q, heq, hq, hp⟩
    exact ⟨p, q, heq, hq, (hmark p q heq).mp hp⟩
  · rintro ⟨p, q, heq, hq, hp⟩
    exact ⟨p, q, heq, hq, (hmark p q heq).mpr hp⟩

/-! ## Arms and closures -/

theorem Passed.arrowKept {before after : List Lexeme} {final : Scan}
    (hp : InPlace (before ++ .arrow :: after)) (hf : Passed (before ++ .arrow :: after) [] final)
    (hm : InMarked before) : ArrowKept before after := by
  obtain ⟨s, hs⟩ := hf.exists_split
  exact ⟨_, ⟨s, hs, rfl⟩, hs.arm ((hs.control hp).inSwitch_iff.mpr hm)⟩

theorem Passed.arrowClosed {before after : List Lexeme} {final : Scan}
    (hp : InPlace (before ++ .arrow :: after)) (hf : Passed (before ++ .arrow :: after) [] final)
    (hm : ¬ InMarked before) (h : Params before) : ArrowClosed after before := by
  cases h with
  | @group a inner bs hn hb =>
    have hsplit : a ++ .opening '(' :: (inner ++ .closing ')' :: bs) ++ .arrow :: after =
        a ++ .opening '(' :: (inner ++ .closing ')' :: (bs ++ .arrow :: after)) := by simp
    rw [hsplit] at hp hf
    obtain ⟨u, x, hu, hx, hout⟩ := closure_group hp hf hn hb hm
    exact .group hu hx hout
  | @word a bs text hb hdot hrun =>
    have hsplit : a ++ .word text :: bs ++ .arrow :: after =
        a ++ .word text :: (bs ++ .arrow :: after) := by simp
    rw [hsplit] at hp hf
    obtain ⟨u, x, hx, hu, hux, hout⟩ := closure_word hp hf hb hm hdot hrun
    exact .word hx hu hux hout

/-- **Arms stay and arrow functions become closures**, in every accepted text in which the first
brace after each `switch` opens its body. -/
theorem arm_or_closure {source text : String} {ls before after : List Lexeme}
    (hr : Reads source.toList ls) (h : downlevel source = .ok text) (hs : PlainSubjects ls)
    (hls : ls = before ++ .arrow :: after) :
    (InBody before → ArrowKept before after) ∧
      (¬ InBody before → Params before → ArrowClosed after before) := by
  obtain ⟨final, hf, -, -⟩ := exists_passed hr h
  have hbody := inMarked_iff_inBody hs hls
  have hp := hr.2
  rw [hls] at hf hp
  constructor
  · intro hin
    exact hf.arrowKept hp (hbody.mpr hin)
  · intro hin hparams
    exact hf.arrowClosed hp (fun hm => hin (hbody.mp hm)) hparams

/-- The lexemes of `switch x{y=>(z=>1)}` up to the second arrow. -/
def plainBefore : List Lexeme :=
  [.word "switch".toList, .other ' ', .word ['x'], .opening '{', .word ['y'], .arrow, .opening '(',
    .word ['z']]

theorem arm_or_closure_sample :
    ArrowKept (plainBefore.take 5)
        [.opening '(', .word ['z'], .arrow, .digits ['1'], .closing ')', .closing '}'] ∧
      ArrowClosed [.digits ['1'], .closing ')', .closing '}'] plainBefore := by
  let subject : List Lexeme := [.other ' ', .word ['x']]
  let body : List Lexeme := [.word ['y'], .arrow, .opening '(', .word ['z'], .arrow, .digits ['1'],
    .closing ')', .closing '}']
  let ls : List Lexeme := .word "switch".toList :: (subject ++ .opening '{' :: body)
  have hr : Reads "switch x{y=>(z=>1)}".toList ls := by
    repeat' first | exact reads_nil | refine reads_cons (by rfl) ?_
  have h : downlevel "switch x{y=>(z=>1)}" = .ok "switch x{y=>(|z|1)}" :=
    downlevel_eq_ok_iff.mpr ⟨ls, _, hr, rfl, rfl, rfl⟩
  have hsubject : Nested subject := .of_leaves (by decide)
  have hhash : ¬ EndsInHash (.word "switch".toList :: subject) := by decide
  -- there is one `switch`, and one brace behind it
  have hplain : PlainSubjects ls := by
    intro k m rest heq _ _
    have hswitch : [] ++ .word "switch".toList :: (subject ++ .opening '{' :: body) =
        k ++ .word "switch".toList :: (m ++ .opening '{' :: rest) := heq
    rw [List.append_cons_inj_of_notMem (by decide) (by decide)] at hswitch
    obtain ⟨rfl, -, hrest⟩ := hswitch
    rw [List.append_cons_inj_of_notMem (by decide) (by decide)] at hrest
    obtain ⟨rfl, -, -⟩ := hrest
    exact ⟨hsubject, hhash⟩
  have hbody : OpensBody (.word "switch".toList :: subject) := by
    refine ⟨[], subject, rfl, by decide, hsubject, hhash, fun m₁ q m₂ heq => ?_⟩
    have hbrace : Lexeme.opening '{' ∈ subject := heq ▸ List.mem_append_right m₁ List.mem_cons_self
    exact absurd hbrace (by decide)
  have hinner : ¬ InBody plainBefore := by
    rintro ⟨p, q, heq, hq, -⟩
    have hbrace : .word "switch".toList :: subject ++ .opening '{' :: (body.take 4) =
        p ++ .opening '{' :: q := heq
    rw [List.append_cons_inj_of_notMem (by decide) (by decide)] at hbrace
    obtain ⟨-, -, rfl⟩ := hbrace
    exact absurd hq.openings_eq_closings (by decide)
  have hparams : Params (plainBefore.take 7 ++ .word ['z'] :: []) :=
    .word (fun l hl => absurd hl List.not_mem_nil) (by decide) (by decide)
  constructor
  · exact (arm_or_closure hr h hplain rfl).1
      ⟨.word "switch".toList :: subject, [.word ['y']], rfl, .singleton rfl, hbody⟩
  · exact (arm_or_closure hr h hplain rfl).2 hinner hparams

/-- **A map in the subject is taken for the body.** The default arm of `switch #{a: 1}.a { _ => 2 }`
is directly inside the body of the `switch`, and it becomes a closure. -/
theorem default_arm_rewritten :
    ∃ ls before after, Reads "switch #{a: 1}.a { _ => 2 }".toList ls ∧
      downlevel "switch #{a: 1}.a { _ => 2 }" = .ok "switch #{a: 1}.a { |_| 2 }" ∧
      ls = before ++ .arrow :: after ∧ InBody before ∧ ¬ ArrowKept before after := by
  let entry : List Lexeme := [.word ['a'], .other ':', .other ' ', .digits ['1']]
  let member : List Lexeme := [.other '.', .word ['a'], .other ' ']
  let subject : List Lexeme :=
    [.other ' ', .other '#'] ++ .opening '{' :: (entry ++ .closing '}' :: member)
  let before : List Lexeme := .word "switch".toList :: subject ++
    .opening '{' :: [.other ' ', .word ['_'], .other ' ']
  let after : List Lexeme := [.other ' ', .digits ['2'], .other ' ', .closing '}']
  have hr : Reads "switch #{a: 1}.a { _ => 2 }".toList (before ++ .arrow :: after) := by
    repeat' first | exact reads_nil | refine reads_cons (by rfl) ?_
  have h : downlevel "switch #{a: 1}.a { _ => 2 }" = .ok "switch #{a: 1}.a { |_| 2 }" :=
    downlevel_eq_ok_iff.mpr ⟨_, _, hr, rfl, rfl, rfl⟩
  have hsubject : Nested subject :=
    .append (.of_leaves (by decide)) (.group (.of_leaves (by decide)) (.of_leaves (by decide)))
  have hbody : OpensBody (.word "switch".toList :: subject) := by
    refine ⟨[], subject, rfl, by decide, hsubject, by decide, fun m₁ q m₂ heq _ _ => ?_⟩
    have hbrace : [Lexeme.other ' ', .other '#'] ++ .opening '{' :: (entry ++ .closing '}' :: member)
        = m₁ ++ .opening '{' :: (q ++ .closing '}' :: m₂) := heq
    rw [List.append_cons_inj_of_notMem (by decide) (by decide)] at hbrace
    obtain ⟨rfl, -, -⟩ := hbrace
    decide
  have hbefore : Written before (.arrow :: after) "switch #{a: 1}.a \x7b _ ".toList :=
    ⟨_, rfl, rfl⟩
  have hbehind : Written (before ++ [.arrow]) after "switch #{a: 1}.a \x7b |_|".toList :=
    ⟨_, rfl, rfl⟩
  refine ⟨_, before, after, hr, h, rfl, ⟨_, _, rfl, .of_leaves (by decide), hbody⟩, ?_⟩
  rintro ⟨t, ht, hkept⟩
  obtain rfl := hbefore.unique ht
  exact absurd (hbehind.unique hkept) (by decide)

end PackHost.Source
