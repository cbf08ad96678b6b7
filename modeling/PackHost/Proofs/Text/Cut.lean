import Mathlib.Data.String.Basic

/-!
# Cutting text at bytes

A text is a list of characters, each of which takes one to four bytes. A place in a text is a number
of bytes, and cutting there has no result if there are fewer bytes or if the place is inside a
character. Between two characters it has one (`splitAt?_utf8Len`, `between?_utf8Len`).
-/

namespace PackHost.Text

open String (utf8Len utf8Len_cons utf8Len_append)

/-! ## Cuts -/

/-- The text before and the text behind a number of bytes. -/
def splitAt? (n : Nat) : List Char → Option (List Char × List Char)
  | [] => if n = 0 then some ([], []) else none
  | c :: cs =>
    if n = 0 then some ([], c :: cs)
    else if c.utf8Size ≤ n then (splitAt? (n - c.utf8Size) cs).map fun r => (c :: r.1, r.2)
    else none

def from? (n : Nat) (text : List Char) : Option (List Char) := (splitAt? n text).map Prod.snd

def upTo? (n : Nat) (text : List Char) : Option (List Char) := (splitAt? n text).map Prod.fst

def between? (first last : Nat) (text : List Char) : Option (List Char) :=
  if first ≤ last then (upTo? last text).bind (from? first) else none

/-- The text cut off behind a number of bytes; nothing is cut off if it is shorter. -/
def truncate? (n : Nat) (text : List Char) : Option (List Char) :=
  if n ≤ utf8Len text then upTo? n text else some text

theorem splitAt?_utf8Len (a b : List Char) : splitAt? (utf8Len a) (a ++ b) = some (a, b) := by
  induction a with
  | nil => cases b <;> rfl
  | cons c a ih =>
    have hpos := c.utf8Size_pos
    rw [utf8Len_cons, List.cons_append, splitAt?, if_neg (by omega), if_pos (Nat.le_add_left _ _),
      Nat.add_sub_cancel, ih]
    rfl

section

variable (a b c : List Char)

@[simp] theorem from?_utf8Len : from? (utf8Len a) (a ++ b) = some b := by
  rw [from?, splitAt?_utf8Len]
  rfl

@[simp] theorem upTo?_utf8Len : upTo? (utf8Len a) (a ++ b) = some a := by
  rw [upTo?, splitAt?_utf8Len]
  rfl

theorem between?_utf8Len : between? (utf8Len a) (utf8Len a + utf8Len b) (a ++ b ++ c) = some b := by
  have hupTo : upTo? (utf8Len a + utf8Len b) (a ++ b ++ c) = some (a ++ b) := by
    rw [← utf8Len_append, upTo?_utf8Len]
  rw [between?, if_pos (Nat.le_add_right _ _), hupTo, Option.bind_some, from?_utf8Len]

@[simp] theorem truncate?_utf8Len : truncate? (utf8Len a) (a ++ b) = some a := by
  rw [truncate?, if_pos (by simp), upTo?_utf8Len]

end

/-! ## Characters with their places -/

/-- The characters of a text that begins at the given place, with the places where they begin. -/
def places : Nat → List Char → List (Nat × Char)
  | _, [] => []
  | n, c :: cs => (n, c) :: places (n + c.utf8Size) cs

theorem places_append (n : Nat) (a b : List Char) :
    places n (a ++ b) = places n a ++ places (n + utf8Len a) b := by
  induction a generalizing n with
  | nil => rfl
  | cons c a ih => simp [places, ih, Nat.add_assoc, Nat.add_comm]

theorem map_snd_places (n : Nat) (text : List Char) : (places n text).map Prod.snd = text := by
  induction text generalizing n with
  | nil => rfl
  | cons c text ih => rw [places, List.map_cons, ih]

end PackHost.Text
