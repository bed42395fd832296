import Mathlib.Tactic
import SourceNavigator.Text.Utf8

set_option autoImplicit false

/-! # Decoding what was encoded

The octets of a character take the machine of `Utf8.pieces` from its start back to its start and
yield that character (`pieces_encodeChar`), so decoding undoes encoding (`decode_encode`). The cases
are the lengths of a sequence: the first octet says how many are to come and bounds the second one
so that overlong forms and halves of pairs are left out.
-/

namespace SourceNavigator.Text.Utf8

/-! ## Octets -/

theorem toNat_octet {n : Nat} (h : n < 256) : (UInt8.ofNat n).toNat = n := by
  rw [UInt8.toNat_ofNat']
  exact Nat.mod_eq_of_lt h

theorem octet_eq (b : UInt8) {n : Nat} (h : n = b.toNat) : UInt8.ofNat n = b := by
  rw [h, UInt8.ofNat_toNat]

theorem toNat_valid (c : Char) : c.toNat < 0xD800 ∨ 0xDFFF < c.toNat ∧ c.toNat < 0x110000 := c.valid

theorem lead_ascii (pos : Nat) {n : Nat} (h : n < 0x80) : lead pos (UInt8.ofNat n) = .ascii := by
  have hn := toNat_octet (show n < 256 by omega)
  rw [lead, hn]
  simp only [h, if_true]

theorem lead_two (pos : Nat) {a : Nat} (hlow : 2 ≤ a) (hhigh : a < 32) :
    lead pos (UInt8.ofNat (a + 0xC0)) = .sequence ⟨pos, 1, 1, 0x80, 0xBF, a⟩ := by
  have hn := toNat_octet (show a + 0xC0 < 256 by omega)
  rw [lead, hn]
  simp only [Nat.add_sub_cancel]
  rw [if_neg (by omega), if_neg (by omega), if_pos (by omega)]

theorem lead_three (pos : Nat) {a : Nat} (h : a < 16) :
    lead pos (UInt8.ofNat (a + 0xE0))
      = .sequence ⟨pos, 1, 2, if a = 0 then 0xA0 else 0x80, if a = 13 then 0x9F else 0xBF, a⟩ := by
  have hn := toNat_octet (show a + 0xE0 < 256 by omega)
  have hzero : a + 0xE0 = 0xE0 ↔ a = 0 := by omega
  have hhalves : a + 0xE0 = 0xED ↔ a = 13 := by omega
  rw [lead, hn]
  simp only [hzero, hhalves, Nat.add_sub_cancel]
  rw [if_neg (by omega), if_neg (by omega), if_neg (by omega), if_pos (by omega)]

theorem lead_four (pos : Nat) {a : Nat} (h : a < 5) :
    lead pos (UInt8.ofNat (a + 0xF0))
      = .sequence ⟨pos, 1, 3, if a = 0 then 0x90 else 0x80, if a = 4 then 0x8F else 0xBF, a⟩ := by
  have hn := toNat_octet (show a + 0xF0 < 256 by omega)
  have hzero : a + 0xF0 = 0xF0 ↔ a = 0 := by omega
  have hlast : a + 0xF0 = 0xF4 ↔ a = 4 := by omega
  rw [lead, hn]
  simp only [hzero, hlast, Nat.add_sub_cancel]
  rw [if_neg (by omega), if_neg (by omega), if_neg (by omega), if_neg (by omega), if_pos (by omega)]

/-! ## Steps of the machine -/

/-- The octet that carries six bits of a character. -/
def tail (n : Nat) : UInt8 := UInt8.ofNat (n % 0x40 + 0x80)

theorem toNat_tail (n : Nat) : (tail n).toNat = n % 0x40 + 0x80 := by
  rw [tail, toNat_octet (by omega)]

theorem push_tail (p : Partial) (n : Nat) : p.push (tail n) = p.value * 64 + n % 0x40 := by
  show p.value * 64 + ((tail n).toNat - 0x80) = _
  rw [toNat_tail, Nat.add_sub_cancel]

theorem pieces_last (pos : Nat) {p : Partial} (n : Nat) (bs : List UInt8)
    (hlow : p.low ≤ n % 0x40 + 0x80) (hhigh : n % 0x40 + 0x80 ≤ p.high) (hneed : p.need ≤ 1) :
    pieces pos (some p) (tail n :: bs)
      = .char (Char.ofNat (p.value * 64 + n % 0x40)) :: pieces (pos + 1) none bs := by
  rw [pieces, toNat_tail, if_pos ⟨hlow, hhigh⟩, if_pos hneed, push_tail]

theorem pieces_more (pos : Nat) {p : Partial} (n : Nat) (bs : List UInt8)
    (hlow : p.low ≤ n % 0x40 + 0x80) (hhigh : n % 0x40 + 0x80 ≤ p.high) (hneed : 1 < p.need) :
    pieces pos (some p) (tail n :: bs)
      = pieces (pos + 1) (some ⟨p.start, p.taken + 1, p.need - 1, 0x80, 0xBF,
          p.value * 64 + n % 0x40⟩) bs := by
  rw [pieces, toNat_tail, if_pos ⟨hlow, hhigh⟩, if_neg (by omega), push_tail]

theorem pieces_sequence (pos : Nat) {b : UInt8} {p : Partial} (h : lead pos b = .sequence p)
    (bs : List UInt8) : pieces pos none (b :: bs) = pieces (pos + 1) (some p) bs := by
  rw [pieces, h]

/-! ## Characters -/

theorem pieces_one (pos : Nat) {n : Nat} (h : n < 0x80) (bs : List UInt8) :
    pieces pos none (UInt8.ofNat n :: bs) = .char (Char.ofNat n) :: pieces (pos + 1) none bs := by
  rw [pieces, lead_ascii pos h, toNat_octet (by omega)]

theorem pieces_two (pos : Nat) {n : Nat} (hlow : 0x80 ≤ n) (hhigh : n < 0x800) (bs : List UInt8) :
    pieces pos none (UInt8.ofNat (n / 64 + 0xC0) :: tail n :: bs)
      = .char (Char.ofNat n) :: pieces (pos + 2) none bs := by
  have hvalue : n / 64 * 64 + n % 64 = n := by omega
  rw [pieces_sequence pos (lead_two pos (by omega) (by omega)),
    pieces_last (pos + 1) n bs (by simp) (by simp only; omega) (Nat.le_refl 1)]
  simp only
  rw [hvalue]

theorem pieces_three (pos : Nat) {n : Nat} (hlow : 0x800 ≤ n) (hhigh : n < 0x10000)
    (hhalf : n < 0xD800 ∨ 0xDFFF < n) (bs : List UInt8) :
    pieces pos none (UInt8.ofNat (n / 4096 + 0xE0) :: tail (n / 64) :: tail n :: bs)
      = .char (Char.ofNat n) :: pieces (pos + 3) none bs := by
  have hvalue : (n / 4096 * 64 + n / 64 % 64) * 64 + n % 64 = n := by omega
  -- the second octet keeps the bounds that the first one sets
  have hfirst : (if n / 4096 = 0 then 0xA0 else 0x80) ≤ n / 64 % 64 + 0x80 := by
    split <;> omega
  have hsecond : n / 64 % 64 + 0x80 ≤ if n / 4096 = 13 then 0x9F else 0xBF := by
    split <;> omega
  rw [pieces_sequence pos (lead_three pos (by omega)),
    pieces_more (pos + 1) (n / 64) (tail n :: bs) hfirst hsecond (Nat.lt_succ_self 1),
    pieces_last (pos + 1 + 1) n bs (by simp) (by simp only; omega) (Nat.le_refl 1)]
  simp only
  rw [hvalue]

theorem pieces_four (pos : Nat) {n : Nat} (hlow : 0x10000 ≤ n) (hhigh : n < 0x110000)
    (bs : List UInt8) :
    pieces pos none
        (UInt8.ofNat (n / 262144 + 0xF0) :: tail (n / 4096) :: tail (n / 64) :: tail n :: bs)
      = .char (Char.ofNat n) :: pieces (pos + 4) none bs := by
  have hvalue : ((n / 262144 * 64 + n / 4096 % 64) * 64 + n / 64 % 64) * 64 + n % 64 = n := by omega
  have hfirst : (if n / 262144 = 0 then 0x90 else 0x80) ≤ n / 4096 % 64 + 0x80 := by
    split <;> omega
  have hsecond : n / 4096 % 64 + 0x80 ≤ if n / 262144 = 4 then 0x8F else 0xBF := by
    split <;> omega
  rw [pieces_sequence pos (lead_four pos (by omega)),
    pieces_more (pos + 1) (n / 4096) (tail (n / 64) :: tail n :: bs) hfirst hsecond (by decide : 1 < 3),
    pieces_more (pos + 1 + 1) (n / 64) (tail n :: bs) (by simp) (by simp only; omega) (by decide : 1 < 3 - 1),
    pieces_last (pos + 1 + 1 + 1) n bs (by simp) (by simp only; omega) (Nat.le_refl 1)]
  simp only
  rw [hvalue]

/-- The octets of a character, by the length of their sequence. -/
theorem encodeChar_cases (c : Char) :
    (c.toNat < 0x80 ∧ String.utf8EncodeChar c = [UInt8.ofNat c.toNat]) ∨
      (0x80 ≤ c.toNat ∧ c.toNat < 0x800 ∧
        String.utf8EncodeChar c = [UInt8.ofNat (c.toNat / 64 + 0xC0), tail c.toNat]) ∨
      (0x800 ≤ c.toNat ∧ c.toNat < 0x10000 ∧ String.utf8EncodeChar c
        = [UInt8.ofNat (c.toNat / 4096 + 0xE0), tail (c.toNat / 64), tail c.toNat]) ∨
      (0x10000 ≤ c.toNat ∧ String.utf8EncodeChar c
        = [UInt8.ofNat (c.toNat / 262144 + 0xF0), tail (c.toNat / 4096), tail (c.toNat / 64),
            tail c.toNat]) := by
  have hvalid := toNat_valid c
  have hval : c.val.toNat = c.toNat := rfl
  unfold String.utf8EncodeChar
  simp only [hval]
  -- in each range the remainder that the lead octet takes is the whole quotient
  by_cases hone : c.toNat ≤ 0x7f
  · rw [if_pos hone]
    exact Or.inl ⟨by omega, rfl⟩
  · by_cases htwo : c.toNat ≤ 0x7ff
    · rw [if_neg hone, if_pos htwo, Nat.mod_eq_of_lt (show c.toNat / 64 < 32 by omega)]
      exact Or.inr (Or.inl ⟨by omega, by omega, rfl⟩)
    · by_cases hthree : c.toNat ≤ 0xffff
      · rw [if_neg hone, if_neg htwo, if_pos hthree,
          Nat.mod_eq_of_lt (show c.toNat / 4096 < 16 by omega)]
        exact Or.inr (Or.inr (Or.inl ⟨by omega, by omega, rfl⟩))
      · rw [if_neg hone, if_neg htwo, if_neg hthree,
          Nat.mod_eq_of_lt (show c.toNat / 262144 < 8 by omega)]
        exact Or.inr (Or.inr (Or.inr ⟨by omega, rfl⟩))

/-- The machine reads a character and is back at its start. -/
theorem pieces_encodeChar (pos : Nat) (c : Char) (bs : List UInt8) :
    ∃ next, pieces pos none (String.utf8EncodeChar c ++ bs) = .char c :: pieces next none bs := by
  have hvalid := toNat_valid c
  have hback : Char.ofNat c.toNat = c := Char.ofNat_toNat c
  rcases encodeChar_cases c with ⟨h, hc⟩ | ⟨hlow, hhigh, hc⟩ | ⟨hlow, hhigh, hc⟩ | ⟨hlow, hc⟩
  · refine ⟨pos + 1, ?_⟩
    rw [hc]
    exact (pieces_one pos h bs).trans (by rw [hback])
  · refine ⟨pos + 2, ?_⟩
    rw [hc]
    exact (pieces_two pos hlow hhigh bs).trans (by rw [hback])
  · refine ⟨pos + 3, ?_⟩
    rw [hc]
    exact (pieces_three pos hlow hhigh (by omega) bs).trans (by rw [hback])
  · refine ⟨pos + 4, ?_⟩
    rw [hc]
    exact (pieces_four pos hlow (by omega) bs).trans (by rw [hback])

theorem pieces_encode (pos : Nat) (cs : List Char) :
    pieces pos none (encode cs) = cs.map Piece.char := by
  induction cs generalizing pos with
  | nil => rfl
  | cons c cs ih =>
      obtain ⟨next, hnext⟩ := pieces_encodeChar pos c (encode cs)
      rw [List.map_cons, ← ih next]
      exact hnext

/-- **Decoding undoes encoding.** -/
theorem decode_encode (cs : List Char) : decode (encode cs) = cs := by
  calc decode (encode cs) = (cs.map Piece.char).map Piece.shown := by rw [decode, pieces_encode]
    _ = cs.map id := by
        rw [List.map_map]
        rfl
    _ = cs := List.map_id cs

end SourceNavigator.Text.Utf8
