import SourceNavigator.Proofs.Text.Utf8
import SourceNavigator.Text.Base64

set_option autoImplicit false

/-! # Octets in base 64

`encode` writes octets in the standard alphabet: three octets are four digits, and a last group of one
or two octets is filled up with padding. The lenient reader gives them back (`decode?_encode`).
-/

namespace SourceNavigator.Text.Base64

open Utf8 (octet_eq)

/-- The standard alphabet. -/
def alphabet : List Char :=
  "ABCDEFGHIJKLMNOPQRSTUVWXYZabcdefghijklmnopqrstuvwxyz0123456789+/".toList

/-- The digit of a number below 64. -/
def digit (n : Nat) : Char := alphabet.getD n '='

/-- The text of octets. -/
def encode : List UInt8 → List Char
  | [] => []
  | [a] => [digit (a.toNat / 4), digit (a.toNat % 4 * 16), '=', '=']
  | [a, b] =>
    [digit (a.toNat / 4), digit (a.toNat % 4 * 16 + b.toNat / 16), digit (b.toNat % 16 * 4), '=']
  | a :: b :: c :: rest =>
    digit (a.toNat / 4) :: digit (a.toNat % 4 * 16 + b.toNat / 16) ::
      digit (b.toNat % 16 * 4 + c.toNat / 64) :: digit (c.toNat % 64) :: encode rest

theorem digit_cases : ∀ n < 64, digit? (digit n) = some n ∧ digit n ≠ '=' ∧ (digit n).toNat < 128 := by
  decide +kernel

/-! ## One digit -/

section Steps

variable {n left pads octets : Nat} {cs : List Char}

theorem decodeFrom_digit (g : Group) (h : n < 64) :
    decodeFrom g octets (digit n :: cs)
      = match g.filled with
        | 0 => decodeFrom ⟨1, n, 0⟩ octets cs
        | 1 => (decodeFrom ⟨2, n % 16, 0⟩ (octets + 1) cs).map (UInt8.ofNat (g.left * 4 + n / 16) :: ·)
        | 2 => (decodeFrom ⟨3, n % 4, 0⟩ (octets + 1) cs).map (UInt8.ofNat (g.left * 16 + n / 4) :: ·)
        | _ => (decodeFrom ⟨0, 0, 0⟩ (octets + 1) cs).map (UInt8.ofNat (g.left * 64 + n) :: ·) := by
  obtain ⟨hdigit, hpad, -⟩ := digit_cases n h
  rewrite [decodeFrom, if_neg hpad, hdigit]
  rfl

theorem decodeFrom_first (h : n < 64) :
    decodeFrom ⟨0, left, pads⟩ octets (digit n :: cs) = decodeFrom ⟨1, n, 0⟩ octets cs :=
  decodeFrom_digit _ h

theorem decodeFrom_second (h : n < 64) :
    decodeFrom ⟨1, left, pads⟩ octets (digit n :: cs)
      = (decodeFrom ⟨2, n % 16, 0⟩ (octets + 1) cs).map (UInt8.ofNat (left * 4 + n / 16) :: ·) :=
  decodeFrom_digit _ h

theorem decodeFrom_third (h : n < 64) :
    decodeFrom ⟨2, left, pads⟩ octets (digit n :: cs)
      = (decodeFrom ⟨3, n % 4, 0⟩ (octets + 1) cs).map (UInt8.ofNat (left * 16 + n / 4) :: ·) :=
  decodeFrom_digit _ h

theorem decodeFrom_fourth (h : n < 64) :
    decodeFrom ⟨3, left, pads⟩ octets (digit n :: cs)
      = (decodeFrom ⟨0, 0, 0⟩ (octets + 1) cs).map (UInt8.ofNat (left * 64 + n) :: ·) :=
  decodeFrom_digit _ h

/-- Two padding characters end a group with two digits. -/
theorem decodeFrom_pads : decodeFrom ⟨2, left, 0⟩ octets ['=', '='] = .ok [] := rfl

/-- One padding character ends a group with three digits. -/
theorem decodeFrom_pad : decodeFrom ⟨3, left, 0⟩ octets ['='] = .ok [] := rfl

end Steps

/-! ## Octets -/

theorem decodeFrom_encode (bs : List UInt8) (octets : Nat) :
    decodeFrom ⟨0, 0, 0⟩ octets (encode bs) = .ok bs := by
  induction bs using encode.induct generalizing octets with
  | case1 => rfl
  | case2 a =>
      have ha := a.toNat_lt
      rw [encode, decodeFrom_first (by omega), decodeFrom_second (by omega), decodeFrom_pads,
        octet_eq a (by omega)]
      rfl
  | case3 a b =>
      have ha := a.toNat_lt
      have hb := b.toNat_lt
      rw [encode, decodeFrom_first (by omega), decodeFrom_second (by omega),
        decodeFrom_third (by omega), decodeFrom_pad, octet_eq a (by omega), octet_eq b (by omega)]
      rfl
  | case4 a b c rest ih =>
      have ha := a.toNat_lt
      have hb := b.toNat_lt
      have hc := c.toNat_lt
      rw [encode, decodeFrom_first (by omega), decodeFrom_second (by omega),
        decodeFrom_third (by omega), decodeFrom_fourth (by omega), ih, octet_eq a (by omega),
        octet_eq b (by omega), octet_eq c (by omega)]
      rfl

theorem isAscii_encode (bs : List UInt8) : ∀ c ∈ encode bs, c.toNat < 128 := by
  have hdigit {n : Nat} (h : n < 64) : (digit n).toNat < 128 := (digit_cases n h).2.2
  have hpad : '='.toNat < 128 := by decide
  induction bs using encode.induct with
  | case1 => exact fun c hc => absurd hc List.not_mem_nil
  | case2 a =>
      have ha := a.toNat_lt
      simp only [encode, List.forall_mem_cons]
      exact ⟨hdigit (by omega), hdigit (by omega), hpad, hpad, fun c hc => absurd hc List.not_mem_nil⟩
  | case3 a b =>
      have ha := a.toNat_lt
      have hb := b.toNat_lt
      simp only [encode, List.forall_mem_cons]
      exact ⟨hdigit (by omega), hdigit (by omega), hdigit (by omega), hpad,
        fun c hc => absurd hc List.not_mem_nil⟩
  | case4 a b c rest ih =>
      have ha := a.toNat_lt
      have hb := b.toNat_lt
      have hc := c.toNat_lt
      simp only [encode, List.forall_mem_cons]
      exact ⟨hdigit (by omega), hdigit (by omega), hdigit (by omega), hdigit (by omega), ih⟩

/-- **Reading base 64 undoes writing it.** -/
theorem decode?_encode (bs : List UInt8) : decode? (encode bs) = .ok bs := by
  have hascii : (encode bs).all (·.toNat < 128) = true :=
    List.all_eq_true.mpr fun c hc => decide_eq_true (isAscii_encode bs c hc)
  rw [decode?, if_pos hascii, decodeFrom_encode]

end SourceNavigator.Text.Base64
