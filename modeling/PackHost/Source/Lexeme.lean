import PackHost.Text.Alphabet

/-!
# The lexical rules of script text

A source text is a sequence of lexemes: comments, quoted literals, brackets, the operators that the
rewriting looks at, words, runs of digits, and single characters. `read?` takes the first lexeme
off a text; `Reading.lexeme` always leaves a shorter rest (`length_lt_of_read?`) and loses nothing
(`append_of_read?`).
-/

namespace PackHost.Source

def isWordStart (c : Char) : Bool := Text.isAlphabetic c || c == '_'

def isWordPart (c : Char) : Bool := Text.isAlphanumeric c || c == '_'

/-- How many hexadecimal digits belong to the escape with the given letter. -/
def escapeWidth (c : Char) : Nat :=
  if c = 'x' then 2 else if c = 'u' then 4 else if c = 'U' then 8 else 0

inductive Item where
  | plain (c : Char)
  /-- A backslash, the character after it and the hexadecimal digits that belong to it. -/
  | escape (c : Char) (digits : List Char)
deriving DecidableEq, Repr

namespace Item

def raw : Item → List Char
  | .plain c => [c]
  | .escape c digits => '\\' :: c :: digits

/-- The item of a single-quoted literal, written for double quotes. -/
def doubleQuoted : Item → List Char
  | .plain c => if c = '"' then ['\\', '"'] else [c]
  | .escape c digits => if c = '\'' then ['\''] else '\\' :: c :: digits

end Item

/-- The longest start of the text that holds hexadecimal digits only, at most `n` of them. -/
def takeHexDigits : Nat → List Char → List Char
  | 0, _ => []
  | _ + 1, [] => []
  | n + 1, c :: cs => if Text.isHexDigit c then c :: takeHexDigits n cs else []

def dropHexDigits : Nat → List Char → List Char
  | 0, cs => cs
  | _ + 1, [] => []
  | n + 1, c :: cs => if Text.isHexDigit c then dropHexDigits n cs else c :: cs

theorem takeHexDigits_append_dropHexDigits (n : Nat) (cs : List Char) :
    takeHexDigits n cs ++ dropHexDigits n cs = cs := by
  induction n generalizing cs with
  | zero => simp [takeHexDigits, dropHexDigits]
  | succ n ih =>
    cases cs with
    | nil => simp [takeHexDigits, dropHexDigits]
    | cons c cs =>
      by_cases h : Text.isHexDigit c
      · simp [takeHexDigits, dropHexDigits, h, ih]
      · simp [takeHexDigits, dropHexDigits, h]

theorem length_dropHexDigits_le (n : Nat) (cs : List Char) :
    (dropHexDigits n cs).length ≤ cs.length := by
  have h := congrArg List.length (takeHexDigits_append_dropHexDigits n cs)
  simp at h
  omega

/-- The items of a literal up to its closing quote, and the text after that quote; nothing if the
literal is not closed. Only a back-quoted literal may hold a newline that is not escaped. -/
def readItems? (quote : Char) : List Char → Option (List Item × List Char)
  | [] => none
  | '\\' :: [] => none
  | '\\' :: e :: cs =>
    (readItems? quote (dropHexDigits (escapeWidth e) cs)).map fun r =>
      (.escape e (takeHexDigits (escapeWidth e) cs) :: r.1, r.2)
  | c :: cs =>
    if c = '\n' ∧ quote ≠ '`' then none
    else if c = quote then some ([], cs)
    else (readItems? quote cs).map fun r => (.plain c :: r.1, r.2)
termination_by cs => cs.length
decreasing_by
  · have := length_dropHexDigits_le (escapeWidth e) cs
    simp
    omega
  · simp

/-- The text of a block comment after its opening, up to and with its end, and the text after it. -/
def readComment? : List Char → Option (List Char × List Char)
  | [] => none
  | '*' :: '/' :: cs => some (['*', '/'], cs)
  | c :: cs => (readComment? cs).map fun r => (c :: r.1, r.2)

inductive Lexeme where
  | lineComment (text : List Char)
  | blockComment (text : List Char)
  | literal (quote : Char) (items : List Item)
  | opening (bracket : Char)
  | closing (bracket : Char)
  | tripleEqual
  | notDoubleEqual
  | arrow
  | word (text : List Char)
  | digits (text : List Char)
  | other (c : Char)
deriving DecidableEq, Repr

/-- What stands at the start of a text that is not empty. -/
inductive Reading where
  | lexeme (l : Lexeme) (rest : List Char)
  | openLiteral
  | openComment
deriving DecidableEq, Repr

def isQuote (c : Char) : Bool := c == '"' || c == '\'' || c == '`'

def isOpening (c : Char) : Bool := c == '(' || c == '[' || c == '{'

def isClosing (c : Char) : Bool := c == ')' || c == ']' || c == '}'

/-- The reading of a text that starts with `c` and does not start with a comment or with one of the
operators that are lexemes. -/
def readPlain (c : Char) (cs : List Char) : Reading :=
  if isQuote c then
    match readItems? c cs with
    | some (items, rest) => .lexeme (.literal c items) rest
    | none => .openLiteral
  else if isOpening c then .lexeme (.opening c) cs
  else if isClosing c then .lexeme (.closing c) cs
  else if isWordStart c then .lexeme (.word (c :: cs.takeWhile isWordPart)) (cs.dropWhile isWordPart)
  else if c.isDigit then .lexeme (.digits (c :: cs.takeWhile isWordPart)) (cs.dropWhile isWordPart)
  else .lexeme (.other c) cs

/-- What stands at the start of the text; nothing if it is empty. -/
def read? : List Char → Option Reading
  | [] => none
  | '/' :: '/' :: cs =>
    some (.lexeme (.lineComment ('/' :: '/' :: cs.takeWhile (· ≠ '\n'))) (cs.dropWhile (· ≠ '\n')))
  | '/' :: '*' :: cs =>
    match readComment? cs with
    | some (text, rest) => some (.lexeme (.blockComment ('/' :: '*' :: text)) rest)
    | none => some .openComment
  | '=' :: '=' :: '=' :: cs => some (.lexeme .tripleEqual cs)
  | '!' :: '=' :: '=' :: cs => some (.lexeme .notDoubleEqual cs)
  | '=' :: '>' :: cs => some (.lexeme .arrow cs)
  | c :: cs => some (readPlain c cs)

namespace Lexeme

def source : Lexeme → List Char
  | .lineComment text => text
  | .blockComment text => text
  | .literal quote items => quote :: items.flatMap Item.raw ++ [quote]
  | .opening bracket => [bracket]
  | .closing bracket => [bracket]
  | .tripleEqual => ['=', '=', '=']
  | .notDoubleEqual => ['!', '=', '=']
  | .arrow => ['=', '>']
  | .word text => text
  | .digits text => text
  | .other c => [c]

end Lexeme

/-! ## Nothing is lost -/

theorem append_of_readItems? {quote : Char} {cs rest : List Char} {items : List Item}
    (h : readItems? quote cs = some (items, rest)) :
    items.flatMap Item.raw ++ quote :: rest = cs := by
  fun_induction readItems? quote cs generalizing items with
  | case1 => simp at h
  | case2 => simp at h
  | case3 e cs ih =>
    obtain ⟨⟨items', rest'⟩, hr, heq⟩ := Option.map_eq_some_iff.1 h
    simp only [Prod.mk.injEq] at heq
    obtain ⟨rfl, rfl⟩ := heq
    have := ih hr
    simp only [List.flatMap_cons, Item.raw, List.cons_append, List.append_assoc, this]
    rw [takeHexDigits_append_dropHexDigits]
  | case4 => simp at h
  | case5 =>
    simp only [Option.some.injEq, Prod.mk.injEq] at h
    obtain ⟨rfl, rfl⟩ := h
    simp
  | case6 _ _ _ _ _ _ ih =>
    obtain ⟨⟨items', rest'⟩, hr, heq⟩ := Option.map_eq_some_iff.1 h
    simp only [Prod.mk.injEq] at heq
    obtain ⟨rfl, rfl⟩ := heq
    simp [Item.raw, ih hr]

theorem append_of_readComment? {cs text rest : List Char}
    (h : readComment? cs = some (text, rest)) : text ++ rest = cs := by
  fun_induction readComment? cs generalizing text with
  | case1 => simp at h
  | case2 cs =>
    simp only [Option.some.injEq, Prod.mk.injEq] at h
    obtain ⟨rfl, rfl⟩ := h
    simp
  | case3 c cs _ ih =>
    obtain ⟨⟨text', rest'⟩, hr, heq⟩ := Option.map_eq_some_iff.1 h
    simp only [Prod.mk.injEq] at heq
    obtain ⟨rfl, rfl⟩ := heq
    simp [ih hr]

theorem append_of_readPlain {c : Char} {cs rest : List Char} {l : Lexeme}
    (h : readPlain c cs = .lexeme l rest) : l.source ++ rest = c :: cs := by
  unfold readPlain at h
  split at h
  · split at h
    · next hr =>
      cases h
      simpa [Lexeme.source] using append_of_readItems? hr
    · cases h
  · split at h
    · cases h; rfl
    · split at h
      · cases h; rfl
      · split at h
        · cases h; simp [Lexeme.source]
        · split at h
          · cases h; simp [Lexeme.source]
          · cases h; rfl

theorem append_of_read? {cs rest : List Char} {l : Lexeme}
    (h : read? cs = some (.lexeme l rest)) : l.source ++ rest = cs := by
  unfold read? at h
  split at h
  · cases h
  · cases h; simp [Lexeme.source]
  · split at h
    · next hr =>
      cases h
      simpa [Lexeme.source] using append_of_readComment? hr
    · cases h
  · cases h; rfl
  · cases h; rfl
  · cases h; rfl
  · simp only [Option.some.injEq] at h
    exact append_of_readPlain h

theorem source_ne_nil_of_readPlain {c : Char} {cs rest : List Char} {l : Lexeme}
    (h : readPlain c cs = .lexeme l rest) : l.source ≠ [] := by
  unfold readPlain at h
  repeat' split at h
  all_goals cases h
  all_goals simp [Lexeme.source]

theorem source_ne_nil_of_read? {cs rest : List Char} {l : Lexeme}
    (h : read? cs = some (.lexeme l rest)) : l.source ≠ [] := by
  unfold read? at h
  split at h
  · cases h
  · cases h; simp [Lexeme.source]
  · split at h
    · cases h; simp [Lexeme.source]
    · cases h
  · cases h; simp [Lexeme.source]
  · cases h; simp [Lexeme.source]
  · cases h; simp [Lexeme.source]
  · simp only [Option.some.injEq] at h
    exact source_ne_nil_of_readPlain h

theorem length_lt_of_read? {cs rest : List Char} {l : Lexeme}
    (h : read? cs = some (.lexeme l rest)) : rest.length < cs.length := by
  have hl := congrArg List.length (append_of_read? h)
  have hn := List.length_pos_iff.2 (source_ne_nil_of_read? h)
  simp at hl
  omega

end PackHost.Source
