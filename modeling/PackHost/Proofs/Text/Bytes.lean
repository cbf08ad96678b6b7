/-!
# The bytes of texts

Texts are compared character by character. Comparing the bytes of their encodings gives the same
order (`bytes_lt_iff`): of two characters the lower one has the lower first byte, or the same one
and lower followers.
-/

namespace PackHost.Text

def bytes (s : String) : List UInt8 := s.toUTF8.data.toList

theorem bytes_eq_flatMap (s : String) : bytes s = s.toList.flatMap String.utf8EncodeChar := by
  have hchars : s.toUTF8 = s.toList.utf8Encode := by simp
  rw [bytes, hchars, List.utf8Encode, List.toList_data_toByteArray]

/-- A number without its last `k` groups of six bits. -/
def lead : Nat → Nat → Nat
  | 0, v => v
  | k + 1, v => lead k v / 64

/-- The last `k` bytes of the encoding of a number, six bits in each. -/
def followers : Nat → Nat → List UInt8
  | 0, _ => []
  | k + 1, v => .ofNat (lead k v % 64 + 128) :: followers k v

/-- The encoding of a character is a first byte, which tells how many follow, and the followers. -/
theorem exists_utf8EncodeChar_eq (c : Char) : ∃ k first,
    String.utf8EncodeChar c = .ofNat first :: followers k c.toNat ∧
      (k = 0 ∧ c.toNat < 0x80 ∧ first = lead 0 c.toNat ∧ first < 0x80 ∨
        k = 1 ∧ 0x80 ≤ c.toNat ∧ c.toNat < 0x800 ∧
          first = lead 1 c.toNat + 0xC0 ∧ first < 0xE0 ∨
        k = 2 ∧ 0x800 ≤ c.toNat ∧ c.toNat < 0x10000 ∧
          first = lead 2 c.toNat + 0xE0 ∧ first < 0xF0 ∨
        k = 3 ∧ 0x10000 ≤ c.toNat ∧ first = lead 3 c.toNat + 0xF0 ∧ first < 0xF8) := by
  have hbound : c.toNat < 0x110000 := by
    rcases c.valid with h | h
    · exact Nat.lt_trans h (by decide)
    · exact h.2
  have hval : c.val.toNat = c.toNat := rfl
  unfold String.utf8EncodeChar
  simp only [hval]
  have hlead : lead 1 c.toNat = c.toNat / 64 ∧ lead 2 c.toNat = c.toNat / 4096 ∧
      lead 3 c.toNat = c.toNat / 262144 := by
    simp [lead, Nat.div_div_eq_div_mul]
  split
  · exact ⟨0, c.toNat, rfl, .inl ⟨rfl, by omega, rfl, by omega⟩⟩
  · split
    · have hfirst : c.toNat / 64 % 0x20 = lead 1 c.toNat := by omega
      exact ⟨1, lead 1 c.toNat + 0xC0, by simp [followers, hfirst, lead], by omega⟩
    · split
      · have hfirst : c.toNat / 4096 % 0x10 = lead 2 c.toNat := by omega
        exact ⟨2, lead 2 c.toNat + 0xE0, by simp [followers, hfirst, lead], by omega⟩
      · have hfirst : c.toNat / 262144 % 0x08 = lead 3 c.toNat := by omega
        refine ⟨3, lead 3 c.toNat + 0xF0, ?_, by omega⟩
        simp [followers, hfirst, lead, Nat.div_div_eq_div_mul]

theorem ofNat_lt_ofNat {m n : Nat} (h : m < n) (hn : n < 256) : UInt8.ofNat m < UInt8.ofNat n := by
  rw [UInt8.lt_iff_toNat_lt, UInt8.toNat_ofNat', UInt8.toNat_ofNat', Nat.mod_eq_of_lt hn,
    Nat.mod_eq_of_lt (Nat.lt_trans h hn)]
  exact h

theorem lead_le {v w : Nat} (h : v ≤ w) (k : Nat) : lead k v ≤ lead k w := by
  induction k with
  | zero => exact h
  | succ k ih => exact Nat.div_le_div_right ih

/-- Where the leading bits agree, the followers are in the order of the numbers. -/
theorem followers_lt {k v w : Nat} (h : v < w) (hsame : lead k v = lead k w) (x y : List UInt8) :
    followers k v ++ x < followers k w ++ y := by
  induction k with
  | zero => exact absurd hsame (Nat.ne_of_lt h)
  | succ k ih =>
    rw [followers, followers, List.cons_append, List.cons_append, List.cons_lt_cons_iff]
    rw [lead, lead] at hsame
    rcases Nat.lt_or_eq_of_le (lead_le (Nat.le_of_lt h) k) with hlt | heq
    · exact .inl (ofNat_lt_ofNat (by omega) (by omega))
    · exact .inr ⟨by rw [heq], ih heq⟩

/-- Characters are encoded in their order, whatever comes behind them. -/
theorem utf8EncodeChar_lt {c d : Char} (h : c < d) (x y : List UInt8) :
    String.utf8EncodeChar c ++ x < String.utf8EncodeChar d ++ y := by
  have hlt : c.toNat < d.toNat := h
  obtain ⟨k, first, hc, hk⟩ := exists_utf8EncodeChar_eq c
  obtain ⟨l, second, hd, hl⟩ := exists_utf8EncodeChar_eq d
  -- a character with fewer followers has a lower first byte
  have hbytes : first < second ∧ second < 256 ∨
      k = l ∧ first = second ∧ lead k c.toNat = lead k d.toNat := by
    have hle := lead_le (Nat.le_of_lt hlt) k
    rcases hk with ⟨rfl, hk⟩ | ⟨rfl, hk⟩ | ⟨rfl, hk⟩ | ⟨rfl, hk⟩ <;>
      rcases hl with ⟨rfl, hl⟩ | ⟨rfl, hl⟩ | ⟨rfl, hl⟩ | ⟨rfl, hl⟩ <;> omega
  rw [hc, hd, List.cons_append, List.cons_append, List.cons_lt_cons_iff]
  rcases hbytes with ⟨hfirst, hbound⟩ | ⟨rfl, rfl, hsame⟩
  · exact .inl (ofNat_lt_ofNat hfirst hbound)
  · exact .inr ⟨rfl, followers_lt hlt hsame x y⟩

theorem flatMap_utf8EncodeChar_lt {cs ds : List Char} (h : cs < ds) :
    cs.flatMap String.utf8EncodeChar < ds.flatMap String.utf8EncodeChar := by
  induction h with
  | @nil d ds =>
    rw [List.flatMap_nil, List.flatMap_cons]
    obtain ⟨b, bs, hb⟩ := List.exists_cons_of_ne_nil (String.utf8EncodeChar_ne_nil (c := d))
    rw [hb]
    exact .nil
  | @rel c cs d ds hlt => exact utf8EncodeChar_lt hlt _ _
  | @cons c cs ds _ ih => exact List.append_left_lt ih

/-- **Texts are ordered as their bytes are.** -/
theorem bytes_lt_iff {s t : String} : bytes s < bytes t ↔ s < t := by
  rw [bytes_eq_flatMap, bytes_eq_flatMap, String.lt_iff]
  constructor
  · intro h
    apply Classical.byContradiction
    intro hnot
    rcases Std.le_iff_lt_or_eq.mp (Std.not_lt.mp hnot) with hlt | heq
    · exact List.lt_asymm h (flatMap_utf8EncodeChar_lt hlt)
    · rw [heq] at h
      exact Std.lt_irrefl h
  · exact flatMap_utf8EncodeChar_lt

theorem bytes_le_iff {s t : String} : bytes s ≤ bytes t ↔ s ≤ t := by
  rw [← Std.not_lt, ← Std.not_lt, bytes_lt_iff]

end PackHost.Text
