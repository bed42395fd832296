import Mathlib.Data.List.TakeWhile
import SourceNavigator.Proofs.Data.Entries
import SourceNavigator.Proofs.Data.Validation
import SourceNavigator.Proofs.Text.Numeral

set_option autoImplicit false

/-! # Short numbers of data

A whole number goes into words if it has not too many digits. One that is written as text is not taken
if it has more, and a double that counts as a whole number fits into 64 bits; so what a rule takes for a
whole number is short, if the datum is not a long whole number itself (`isWritable_of_integer`). Whether
one occurs anywhere in a datum is what `HasShortNumbers` says.
-/

namespace SourceNavigator

/-! ## Digits -/

namespace Text

theorem ofDigits_lt {digits : List Nat} (h : ∀ d ∈ digits, d < 10) :
    ofDigits digits < 10 ^ digits.length := by
  have hfrom (n : Nat) : digits.foldl (fun n d => 10 * n + d) n < (n + 1) * 10 ^ digits.length := by
    induction digits generalizing n with
    | nil => simp
    | cons d ds ih =>
        obtain ⟨hd, hds⟩ := List.forall_mem_cons.mp h
        calc ds.foldl (fun n d => 10 * n + d) (10 * n + d)
            < (10 * n + d + 1) * 10 ^ ds.length := ih hds _
          _ ≤ (n + 1) * 10 * 10 ^ ds.length := Nat.mul_le_mul_right _ (by omega)
          _ = (n + 1) * 10 ^ (d :: ds).length := by rw [List.length_cons, pow_succ']; ring
  simpa [ofDigits] using hfrom 0

/-- A number with a sign can be written if its digits are not too many. -/
theorem isWritable_withSign {digits : List Nat} (h : ∀ d ∈ digits, d < 10)
    (hlength : digits.length ≤ maxDigits) (negative : Bool) :
    IsWritable (withSign negative (ofDigits digits)) := by
  have hlt : ofDigits digits < 10 ^ maxDigits :=
    (ofDigits_lt h).trans_le (Nat.pow_le_pow_right (by decide) hlength)
  cases negative with
  | true =>
      show (-(ofDigits digits : Int)).natAbs < _
      rwa [Int.natAbs_neg, Int.natAbs_natCast]
  | false => exact hlt

/-- The value of a digit is below ten. -/
theorem digit_lt {c : Char} (h : c.isDigit = true) : c.toNat - 48 < 10 := by
  have hlast : c.toNat ≤ 57 := by
    simp only [Char.isDigit, Bool.and_eq_true, decide_eq_true_eq] at h
    exact UInt32.le_iff_toNat_le.mp h.2
  omega

/-- Digits are read from as many characters or from more, one from each of some of them. -/
theorem readDigits_eq_some {value? : Char → Option Nat} {cs : List Char} {digits : List Nat}
    (h : readDigits value? cs = some digits) :
    digits.length ≤ cs.length ∧ ∀ d ∈ digits, ∃ c, value? c = some d := by
  have hone (rest : List Char) {c : Char} {d : Nat} {ds : List Nat} (hd : value? c = some d)
      (hds : ds.length ≤ rest.length ∧ ∀ d ∈ ds, ∃ c, value? c = some d) :
      (d :: ds).length ≤ (c :: rest).length ∧ ∀ d' ∈ d :: ds, ∃ c, value? c = some d' :=
    ⟨Nat.succ_le_succ hds.1, List.forall_mem_cons.mpr ⟨⟨c, hd⟩, hds.2⟩⟩
  induction cs using readDigits.induct generalizing digits with
  | case1 => cases h
  | case2 c =>
      obtain ⟨d, hd, rfl⟩ := Option.map_eq_some_iff.mp h
      exact hone [] hd ⟨Nat.le_refl _, fun _ hmem => absurd hmem List.not_mem_nil⟩
  | case3 c cs ih =>
      obtain ⟨d, hd, h⟩ := Option.bind_eq_some_iff.mp h
      obtain ⟨ds, hds, rfl⟩ := Option.map_eq_some_iff.mp h
      obtain ⟨hlength, hvalues⟩ := ih hds
      exact hone _ hd ⟨hlength.trans (Nat.le_succ _), hvalues⟩
  | case4 c cs _ _ ih =>
      rw [readDigits] at h
      · obtain ⟨d, hd, h⟩ := Option.bind_eq_some_iff.mp h
        obtain ⟨ds, hds, rfl⟩ := Option.map_eq_some_iff.mp h
        exact hone _ hd (ih hds)
      · assumption
      · assumption

end Text

open Text (IsWritable isWritable_withSign)

/-! ## Rules -/

namespace Data.Rule

theorem isWritable_of_plainInteger? {cs : List Char} {n : Int} (hshort : beginsTooLong cs = false)
    (h : plainInteger? cs = some n) : IsWritable n := by
  unfold plainInteger? at h
  unfold beginsTooLong at hshort
  cases hsign : readMinus cs with
  | mk negative body =>
      simp only [hsign] at h hshort
      split at h
      · cases h
      · cases h
        exact Text.isWritable_of_natAbs_lt (by decide)
      · rename_i c rest _
        split at h
        · cases h
        · rename_i hplain
          obtain ⟨hzero, hdigits⟩ : c ≠ '0' ∧ (c :: rest).all Char.isDigit = true := by
            simpa using hplain
          obtain ⟨digits, hread, rfl⟩ := Option.map_eq_some_iff.mp h
          obtain ⟨hlength, hvalues⟩ := Text.readDigits_eq_some hread
          have htake : (c :: rest).takeWhile Char.isDigit = c :: rest :=
            List.takeWhile_eq_self_iff.mpr (List.all_eq_true.mp hdigits)
          have hfirst : c.isDigit = true := List.all_eq_true.mp hdigits c List.mem_cons_self
          have hmost : (c :: rest).length ≤ Text.maxDigits := by
            simpa [htake, hfirst, hzero] using hshort
          refine isWritable_withSign (fun d hd => ?_) (hlength.trans hmost) _
          obtain ⟨c, hc⟩ := hvalues d hd
          unfold Text.asciiDigit? at hc
          split at hc
          · cases hc
            exact Text.digit_lt ‹_›
          · cases hc

theorem isWritable_of_integerOfText {s : String} {n : Int} (h : integerOfText s = .valid n) :
    IsWritable n := by
  unfold integerOfText at h
  split at h
  · cases h
  · split at h
    · cases h
    · split at h
      · cases h
      · rename_i hshort
        split at h
        · rename_i hplain
          cases h
          exact isWritable_of_plainInteger? (Bool.eq_false_iff.mpr hshort) hplain
        · cases h

theorem isWritable_of_integerOfFloat {x : Number.Binary64} {n : Int}
    (h : integerOfFloat x = .valid n) : IsWritable n := by
  unfold integerOfFloat at h
  split at h
  · cases h
  · cases h
  · split at h
    · cases h
    · split at h
      · rename_i hbound
        cases h
        calc n.natAbs < 2 ^ 63 := hbound
          _ ≤ 10 ^ 19 := by norm_num
          _ ≤ 10 ^ Text.maxDigits := Nat.pow_le_pow_right (by decide) (by decide)
      · cases h

/-- **What a rule takes for a whole number can be written**, unless it is given as a whole number. -/
theorem isWritable_of_integer {d : Datum} {n : Int} (h : integer d = .valid n)
    (hgiven : ∀ m, d = .int m → IsWritable m) : IsWritable n := by
  cases d with
  | int m =>
      cases h
      exact hgiven n rfl
  | bool b =>
      cases h
      cases b with
      | true => exact Text.isWritable_of_natAbs_lt (by decide)
      | false => exact Text.isWritable_of_natAbs_lt (by decide)
  | float x => exact isWritable_of_integerOfFloat h
  | text s => exact isWritable_of_integerOfText h
  | bytes octets =>
      rw [integer] at h
      split at h
      · exact isWritable_of_integerOfText h
      · cases h
  | _ => cases h

end Data.Rule

/-! ## Data -/

namespace Data

/-- A datum occurs in another one: it is this one, an item of it, or the value of an entry, or it occurs
in one of these. -/
inductive Occurs (d : Datum) : Datum → Prop where
  | here : Occurs d d
  | item {items : List Datum} {outer : Datum} (hmem : outer ∈ items) (h : Occurs d outer) :
      Occurs d (.list items)
  | value {entries : List (Datum × Datum)} {e : Datum × Datum} (hmem : e ∈ entries)
      (h : Occurs d e.2) : Occurs d (.map entries)

/-- All whole numbers in a datum can be written. -/
def HasShortNumbers (d : Datum) : Prop := ∀ n, Occurs (.int n) d → IsWritable n

theorem hasShortNumbers_list {items : List Datum} (h : ∀ d ∈ items, HasShortNumbers d) :
    HasShortNumbers (.list items) := by
  intro n hn
  cases hn with
  | item hmem hn => exact h _ hmem n hn

theorem hasShortNumbers_map {entries : List (Datum × Datum)}
    (h : ∀ e ∈ entries, HasShortNumbers e.2) : HasShortNumbers (.map entries) := by
  intro n hn
  cases hn with
  | value hmem hn => exact h _ hmem n hn

theorem mem_of_lookup {name : String} {entries : List (Datum × Datum)} {d : Datum}
    (h : Datum.lookup name entries = some d) : ∃ e ∈ entries, e.2 = d := by
  induction entries with
  | nil => cases h
  | cons entry rest ih =>
      obtain ⟨key, value⟩ := entry
      rw [lookup_cons] at h
      split at h
      · exact ⟨_, List.mem_cons_self, Option.some.inj h⟩
      · obtain ⟨e, he, hvalue⟩ := ih h
        exact ⟨e, List.mem_cons_of_mem _ he, hvalue⟩

theorem HasShortNumbers.lookup {name : String} {entries : List (Datum × Datum)} {d : Datum}
    (h : HasShortNumbers (.map entries)) (hlookup : Datum.lookup name entries = some d) :
    HasShortNumbers d := by
  obtain ⟨e, he, rfl⟩ := mem_of_lookup hlookup
  exact fun n hn => h n (.value he hn)

/-- The value of an entry that is there after another one was put is that of the other one, or was there
before. -/
theorem value_of_mem_putEntry {key value : Datum} {entries : List (Datum × Datum)}
    {e : Datum × Datum} (h : e ∈ Datum.putEntry key value entries) :
    e.2 = value ∨ ∃ e' ∈ entries, e.2 = e'.2 := by
  induction entries with
  | nil => exact Or.inl (congrArg Prod.snd (List.mem_singleton.mp h))
  | cons entry rest ih =>
      obtain ⟨held, old⟩ := entry
      rw [Datum.putEntry] at h
      split at h
      · rcases List.mem_cons.mp h with rfl | h
        · exact Or.inl rfl
        · exact Or.inr ⟨e, List.mem_cons_of_mem _ h, rfl⟩
      · rcases List.mem_cons.mp h with rfl | h
        · exact Or.inr ⟨_, List.mem_cons_self, rfl⟩
        · rcases ih h with h | ⟨e', he', h⟩
          · exact Or.inl h
          · exact Or.inr ⟨e', List.mem_cons_of_mem _ he', h⟩

theorem hasShortNumbers_ofEntries {entries : List (Datum × Datum)}
    (h : ∀ e ∈ entries, HasShortNumbers e.2) : HasShortNumbers (Datum.ofEntries entries) := by
  refine hasShortNumbers_map ?_
  have hfold (before : List (Datum × Datum)) (hbefore : ∀ e ∈ before, HasShortNumbers e.2) :
      ∀ e ∈ entries.foldl (fun acc e => Datum.putEntry e.1 e.2 acc) before, HasShortNumbers e.2 := by
    induction entries generalizing before with
    | nil => exact hbefore
    | cons entry rest ih =>
        obtain ⟨hentry, hrest⟩ := List.forall_mem_cons.mp h
        refine ih hrest _ fun e he => ?_
        rcases value_of_mem_putEntry he with hvalue | ⟨e', he', hvalue⟩
        · rw [hvalue]
          exact hentry
        · rw [hvalue]
          exact hbefore e' he'
  exact hfold [] fun e he => absurd he List.not_mem_nil

end Data

end SourceNavigator
