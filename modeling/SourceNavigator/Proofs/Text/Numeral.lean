import Mathlib.Tactic
import SourceNavigator.Text.Numeral

set_option autoImplicit false

/-! # Numbers that can be written

A whole number is written as long as it has no more digits than are allowed, whatever its sign
(`decimal?_eq_some`, `decimal?_eq_none`). Where a blank follows its digits, they can be told from what
follows (`takeWhile_isDigit_toDigits`, `dropWhile_isDigit_toDigits`).
-/

namespace SourceNavigator.Text

/-- The number has no more digits than can be written. -/
def IsWritable (n : Int) : Prop := n.natAbs < 10 ^ maxDigits

theorem isWritable_iff {n : Int} :
    IsWritable n ↔ (Nat.toDigits 10 n.natAbs).length ≤ maxDigits := by
  rw [Nat.length_toDigits_le_iff (by decide) (by decide)]
  exact Iff.rfl

theorem decimal?_eq_some {n : Int} (h : IsWritable n) : decimal? n = some (toString n) := by
  rw [decimal?, if_neg (Nat.not_lt.mpr (isWritable_iff.mp h))]

theorem decimal?_eq_none {n : Int} (h : ¬ IsWritable n) : decimal? n = none := by
  rw [decimal?, if_pos (Nat.not_le.mp fun hle => h (isWritable_iff.mpr hle))]

theorem isWritable_iff_lt {n : Int} (h : 0 ≤ n) : IsWritable n ↔ n < 10 ^ maxDigits := by
  obtain ⟨k, rfl⟩ := Int.eq_ofNat_of_zero_le h
  rw [IsWritable, Int.natAbs_natCast]
  exact_mod_cast Iff.rfl

/-- A number between two others that can be written can be written. -/
theorem IsWritable.of_le {n m : Int} (h : IsWritable m) (hn : 0 ≤ n) (hle : n ≤ m) : IsWritable n := by
  unfold IsWritable at h ⊢
  omega

theorem isWritable_of_natAbs_lt {n : Int} (h : n.natAbs < 10) : IsWritable n :=
  h.trans_le (Nat.le_self_pow (by decide) 10)

/-! ## Digits and what follows them -/

theorem takeWhile_isDigit_toDigits (k : Nat) (rest : List Char) :
    (Nat.toDigits 10 k ++ ' ' :: rest).takeWhile Char.isDigit = Nat.toDigits 10 k := by
  have hdigits : ∀ c ∈ Nat.toDigits 10 k, c.isDigit = true :=
    fun c hc => Nat.isDigit_of_mem_toDigits (by decide) (by decide) hc
  have hblank : (' ' :: rest).takeWhile Char.isDigit = [] := List.takeWhile_cons_of_neg (by decide)
  rw [List.takeWhile_append_of_pos hdigits, hblank, List.append_nil]

theorem dropWhile_isDigit_toDigits (k : Nat) (rest : List Char) :
    (Nat.toDigits 10 k ++ ' ' :: rest).dropWhile Char.isDigit = ' ' :: rest := by
  have hsplit := List.takeWhile_append_dropWhile (p := Char.isDigit)
    (l := Nat.toDigits 10 k ++ ' ' :: rest)
  rw [takeWhile_isDigit_toDigits] at hsplit
  exact List.append_cancel_left hsplit

end SourceNavigator.Text
