import PackHost.Pack.Header
import PackHost.Proofs.Source.Rules
import PackHost.Proofs.Source.Tidy

/-!
# Headings

The heading of a text is its first lines up to one that is neither blank nor a comment. What a line
of it sets is told here without the reader of headers (`Sets`), and so are the values that a
directive takes (`WritesPriority`, `WritesTruth`). The reader finds in a line what the line sets
(`sets_iff`), and in a value what the value writes (`priority?_eq_some_iff`, `truth?_eq_some_iff`).
-/

namespace PackHost.Pack.Header

open Source (trim)

/-! ## The heading of a text -/

def unreturned (line : List Char) : List Char :=
  if line.getLast? = some '\r' then line.dropLast else line

/-- The lines that the parts between line feeds stand for. A part before a line feed may end in a
carriage return, which is of the break then; the last part is no line if it is empty. -/
def linesOf : List (List Char) → List (List Char)
  | [] => []
  | [last] => if last = [] then [] else [last]
  | part :: next :: parts => unreturned part :: linesOf (next :: parts)

def lines (source : String) : List (List Char) := linesOf (Files.splitAtAll '\n' source.toList)

def IsHeading (line : List Char) : Prop := trim line = [] ∨ ['/', '/'] <+: trim line

instance (line : List Char) : Decidable (IsHeading line) :=
  inferInstanceAs (Decidable (_ ∨ _))

def heading (source : String) : List (List Char) := (lines source).takeWhile (IsHeading ·)

/-! ## What a line sets -/

/-- The line is a comment; up to the first colon it holds the key, and behind it the value. -/
def Sets (line key value : List Char) : Prop :=
  ∃ name rest, trim line = '/' :: '/' :: (name ++ ':' :: rest) ∧ ':' ∉ name ∧
    trim name = key ∧ trim rest = value

/-- An optional sign and decimal digits, for a number of 32 bits. -/
def WritesPriority (text : List Char) (n : Int) : Prop :=
  ∃ sign digits, text = sign ++ digits ∧ (sign = [] ∨ sign = ['+'] ∨ sign = ['-']) ∧
    digits ≠ [] ∧ (∀ c ∈ digits, c.isDigit = true) ∧
    n = (if sign = ['-'] then -1 else 1) * (Nat.ofDigitChars 10 digits 0 : Int) ∧
    -2147483648 ≤ n ∧ n ≤ 2147483647

def WritesTruth (text : List Char) (b : Bool) : Prop :=
  text = (if b then "true" else "false").toList

def Misfit (key value : List Char) : Prop :=
  key = "priority".toList ∧ (∀ n, ¬ WritesPriority value n) ∨
    key = "ignored".toList ∧ ∀ b, ¬ WritesTruth value b

def Fine (line : List Char) : Prop := ∀ key value, Sets line key value → ¬ Misfit key value

/-! ## The reader of a line -/

section Line

variable {text key value line : List Char}

theorem ofText_eq_directive_iff : HeaderLine.ofText text = .directive key value ↔
    ∃ name rest, text = '/' :: '/' :: (name ++ ':' :: rest) ∧ ':' ∉ name ∧
      trim name = key ∧ trim rest = value := by
  have hsplit : ∀ name rest : List Char, ':' ∉ name →
      (name ++ ':' :: rest).takeWhile (· ≠ ':') = name ∧
        (name ++ ':' :: rest).dropWhile (· ≠ ':') = ':' :: rest := by
    intro name rest hname
    have hall : ∀ c ∈ name, decide (c ≠ ':') = true :=
      fun c hc => decide_eq_true fun heq => hname (heq ▸ hc)
    rw [List.takeWhile_append_of_pos hall, List.dropWhile_append_of_pos hall]
    exact ⟨List.append_nil _, rfl⟩
  constructor
  · intro h
    unfold HeaderLine.ofText at h
    split at h
    · cases h
    · next comment =>
      split at h
      · next hmem =>
        obtain ⟨name, rest, rfl, hname⟩ := List.eq_append_cons_of_mem hmem
        rw [(hsplit name rest hname).1, (hsplit name rest hname).2] at h
        cases h
        exact ⟨name, rest, rfl, hname, rfl, rfl⟩
      · cases h
    · cases h
  · rintro ⟨name, rest, rfl, hname, rfl, rfl⟩
    have hmem : ':' ∈ name ++ ':' :: rest := List.mem_append_right _ List.mem_cons_self
    rw [HeaderLine.ofText, if_pos hmem, (hsplit name rest hname).1, (hsplit name rest hname).2]
    rfl

theorem ofText_eq_code_iff :
    HeaderLine.ofText text = .code ↔ ¬ (text = [] ∨ ['/', '/'] <+: text) := by
  unfold HeaderLine.ofText
  split
  · simp
  · next comment => split <;> simp
  · next hnil hcomment =>
    refine iff_of_true rfl fun h => ?_
    rcases h with h | ⟨comment, h⟩
    · exact hnil h
    · exact hcomment comment h.symm

theorem sets_iff : Sets line key value ↔ HeaderLine.ofText (trim line) = .directive key value :=
  ofText_eq_directive_iff.symm

theorem isHeading_iff : IsHeading line ↔ HeaderLine.ofText (trim line) ≠ .code := by
  rw [ne_eq, ofText_eq_code_iff, not_not, IsHeading]

theorem Sets.unique {key' value' : List Char} (h : Sets line key value)
    (h' : Sets line key' value') : key = key' ∧ value = value' := by
  have heq := (sets_iff.mp h).symm.trans (sets_iff.mp h')
  exact HeaderLine.directive.inj heq

/-- The carriage return of a break is a blank around the line. -/
theorem trim_unreturned (line : List Char) : trim (unreturned line) = trim line := by
  unfold unreturned
  split
  · next hlast =>
    obtain ⟨before, rfl⟩ := List.getLast?_eq_some_iff.mp hlast
    rw [List.dropLast_concat]
    -- at the end, a blank is what it is at the start of the reversed line
    calc trim before
      _ = trim before.reverse.reverse := by rw [List.reverse_reverse]
      _ = (trim before.reverse).reverse := Source.trim_reverse _
      _ = (trim ('\r' :: before.reverse)).reverse := rfl
      _ = trim ('\r' :: before.reverse).reverse := (Source.trim_reverse _).symm
      _ = trim (before ++ ['\r']) := by rw [List.reverse_cons, List.reverse_reverse]
  · rfl

end Line

/-! ## The reader of a value -/

theorem digitsValue?_eq_some_iff {digits : List Char} {n : Nat} :
    digitsValue? digits = some n ↔
      digits ≠ [] ∧ (∀ c ∈ digits, c.isDigit = true) ∧ Nat.ofDigitChars 10 digits 0 = n := by
  unfold digitsValue?
  split
  · simp
  · next hne =>
    have hnil : digits ≠ [] := hne
    rw [← List.all_eq_true, Nat.ofDigitChars_eq_foldl]
    split
    · next hall => simp [hnil, hall]
    · next hall => simp [hall]

theorem fits32_iff {n : Int} : fits32 n = true ↔ -2147483648 ≤ n ∧ n ≤ 2147483647 := by
  simp only [fits32, Bool.and_eq_true, decide_eq_true_eq]

/-- What a sign and digits stand for, if it fits. -/
theorem priority?_append {sign digits : List Char}
    (hsign : sign = [] ∨ sign = ['+'] ∨ sign = ['-']) (hne : digits ≠ [])
    (hall : ∀ c ∈ digits, c.isDigit = true) :
    priority? (sign ++ digits) =
      (some ((if sign = ['-'] then -1 else 1) * (Nat.ofDigitChars 10 digits 0 : Int))).filter
        fits32 := by
  have hvalue := digitsValue?_eq_some_iff.mpr ⟨hne, hall, rfl⟩
  have hhead : ∀ c cs, c.isDigit = false → digits ≠ c :: cs := by
    rintro c cs hc rfl
    rw [hall c List.mem_cons_self] at hc
    cases hc
  unfold priority?
  rcases hsign with rfl | rfl | rfl
  · split
    · next heq => exact absurd heq (hhead '-' _ rfl)
    · next heq => exact absurd heq (hhead '+' _ rfl)
    · simp [hvalue]
  · simp [hvalue]
  · simp [hvalue]

theorem priority?_eq_some_iff {text : List Char} {n : Int} :
    priority? text = some n ↔ WritesPriority text n := by
  constructor
  · intro h
    unfold priority? at h
    rw [Option.filter_eq_some_iff, fits32_iff] at h
    obtain ⟨h, hfits⟩ := h
    split at h
    all_goals
      obtain ⟨_, hcast, rfl⟩ := Option.map_eq_some_iff.mp h
      obtain ⟨k, hk, hpure⟩ := Option.bind_eq_some_iff.mp hcast
      cases hpure
      obtain ⟨hne, hall, rfl⟩ := digitsValue?_eq_some_iff.mp hk
    · next digits =>
      exact ⟨['-'], digits, rfl, .inr (.inr rfl), hne, hall, by simp, hfits⟩
    · next digits =>
      exact ⟨['+'], digits, rfl, .inr (.inl rfl), hne, hall, by simp, hfits⟩
    · exact ⟨[], text, rfl, .inl rfl, hne, hall, by simp, hfits⟩
  · rintro ⟨sign, digits, rfl, hsign, hne, hall, rfl, hfits⟩
    rw [priority?_append hsign hne hall, Option.filter_some, if_pos (fits32_iff.mpr hfits)]

theorem truth?_eq_some_iff {text : List Char} {b : Bool} :
    truth? text = some b ↔ WritesTruth text b := by
  have hne : "true".toList ≠ "false".toList := by decide
  unfold truth? WritesTruth
  split
  · next h => cases b <;> simp [h]
  · split
    · next h => cases b <;> simp [h]
    · next htrue hfalse => cases b <;> simp_all

/-! ## A priority written plainly -/

theorem exists_sign_digits (n : Int) : ∃ sign digits, (toString n).toList = sign ++ digits ∧
    (sign = [] ∨ sign = ['+'] ∨ sign = ['-']) ∧ digits ≠ [] ∧ (∀ c ∈ digits, c.isDigit = true) ∧
    n = (if sign = ['-'] then -1 else 1) * (Nat.ofDigitChars 10 digits 0 : Int) := by
  have hdigit : ∀ k, ∀ c ∈ Nat.toDigits 10 k, c.isDigit = true :=
    fun k c hc => Nat.isDigit_of_mem_toDigits (by decide) (by decide) hc
  rw [Int.toString_eq_repr, Int.repr_eq_if]
  split
  · next hn =>
    refine ⟨[], Nat.toDigits 10 n.toNat, Nat.toList_repr, .inl rfl, Nat.toDigits_ne_nil, hdigit _,
      ?_⟩
    rw [Nat.ofDigitChars_ten_toDigits, if_neg (List.cons_ne_nil _ _).symm, Int.one_mul,
      Int.toNat_of_nonneg hn]
  · next hn =>
    refine ⟨['-'], Nat.toDigits 10 (-n).toNat, ?_, .inr (.inr rfl), Nat.toDigits_ne_nil, hdigit _,
      ?_⟩
    · rw [String.toList_append, Nat.toList_repr]
      rfl
    · rw [Nat.ofDigitChars_ten_toDigits]
      simp only [↓reduceIte]
      omega

theorem priority?_toString (n : Int) :
    priority? (toString n).toList = (some n).filter fits32 := by
  obtain ⟨sign, digits, htext, hsign, hne, hall, hn⟩ := exists_sign_digits n
  rw [htext, priority?_append hsign hne hall, ← hn]

theorem toString_visible (n : Int) :
    (toString n).toList ≠ [] ∧ ∀ c ∈ (toString n).toList, Text.isBlank c = false := by
  obtain ⟨sign, digits, htext, hsign, hne, hall, -⟩ := exists_sign_digits n
  rw [htext]
  refine ⟨fun h => hne (List.append_eq_nil_iff.mp h).2, fun c hc => ?_⟩
  rcases List.mem_append.mp hc with hc | hc
  · rcases hsign with rfl | rfl | rfl
    · cases hc
    · obtain rfl := List.mem_singleton.mp hc
      rfl
    · obtain rfl := List.mem_singleton.mp hc
      rfl
  · exact Source.not_isBlank_of_isWordPart (Source.isWordPart_of_isDigit (hall c hc))

theorem trim_visible {text : List Char} (visible : ∀ c ∈ text, Text.isBlank c = false) :
    trim (' ' :: text) = text := by
  have hspace : ∀ c ∈ [' '], Text.isBlank c = true := List.forall_mem_singleton.mpr rfl
  have htrim : trim ([' '] ++ text ++ []) = text :=
    Source.trim_eq hspace (List.forall_mem_nil _)
      (fun c hc => visible c (List.mem_of_mem_head? hc))
      fun c hc => visible c (List.mem_of_mem_getLast? hc)
  rwa [List.append_nil] at htrim

theorem sets_plain {key value : List Char} (hkey : ':' ∉ key) (hvalue : value ≠ [])
    (visible : ∀ c ∈ key ++ value, Text.isBlank c = false) :
    Sets ("// ".toList ++ key ++ ": ".toList ++ value) key value := by
  obtain ⟨hkeys, hvalues⟩ := List.forall_mem_append.mp visible
  have hwhole : trim ("// ".toList ++ key ++ ": ".toList ++ value) =
      "// ".toList ++ key ++ ": ".toList ++ value := by
    have hlast : ∀ c ∈ ("// ".toList ++ key ++ ": ".toList ++ value).getLast?,
        Text.isBlank c = false := by
      intro c hc
      rw [List.getLast?_append_of_ne_nil _ hvalue] at hc
      exact hvalues c (List.mem_of_mem_getLast? hc)
    have htrim := Source.trim_eq (a := []) (b := []) (List.forall_mem_nil _) (List.forall_mem_nil _)
      (fun c hc => by cases hc; rfl) hlast
    rwa [List.append_nil, List.nil_append] at htrim
  refine ⟨' ' :: key, ' ' :: value, ?_, ?_, trim_visible hkeys, trim_visible hvalues⟩
  · rw [hwhole]
    simp
  · simp [hkey]

end PackHost.Pack.Header
