import SourceNavigator.Json.Reader
import SourceNavigator.Proofs.Data.ShortNumbers
import SourceNavigator.Proofs.Results

set_option autoImplicit false

/-! # Short numbers of what is read

A reader refuses whole numbers with too many digits, and makes no others than those that it reads. So
none is too long in what a text stands for (`hasShortNumbers_of_parse`), however deep it stands there;
the readers of values, items and members are followed at once, by the fuel that they share.
-/

namespace SourceNavigator.Json

open Data (Datum HasShortNumbers hasShortNumbers_list hasShortNumbers_map hasShortNumbers_ofEntries)
open Text (isWritable_withSign)

/-! ## Numbers and words -/

theorem digitsValue_eq (cs : List Char) :
    digitsValue cs = Text.ofDigits (cs.map fun c => c.toNat - 48) := by
  rw [digitsValue, Text.ofDigits, List.foldl_map]

theorem isDigit_of_readWhole {cs whole rest : List Char} (h : readWhole cs = some (whole, rest)) :
    ∀ c ∈ whole, c.isDigit = true := by
  cases cs with
  | nil => cases h
  | cons c cs =>
      rw [readWhole] at h
      split at h
      · cases h
        intro c hc
        rw [List.mem_singleton.mp hc]
        rfl
      · split at h
        · rename_i hdigit
          cases h
          exact List.forall_mem_cons.mpr ⟨hdigit, fun c hc => List.mem_takeWhile_imp hc⟩
        · cases h

theorem hasShortNumbers_of_readNumber {negative : Bool} {start cs rest : List Char} {d : Datum}
    (h : readNumber negative start cs = .ok (d, rest)) : HasShortNumbers d := by
  unfold readNumber at h
  split at h
  · cases h
  · rename_i whole afterWhole hwhole
    simp only at h
    split at h
    · cases h
      exact fun n hn => nomatch hn
    · split at h
      · cases h
        exact fun n hn => nomatch hn
      · split at h
        · cases h
        · rename_i hcount
          cases h
          intro n hn
          cases hn
          rw [digitsValue_eq]
          refine isWritable_withSign (fun d hd => ?_) ?_ negative
          · obtain ⟨c, hc, rfl⟩ := List.mem_map.mp hd
            exact Text.digit_lt (isDigit_of_readWhole hwhole c hc)
          · rw [List.length_map]
            exact Nat.not_lt.mp hcount

theorem hasShortNumbers_of_readScalar {cs rest : List Char} {d : Datum}
    (h : readScalar cs = .ok (d, rest)) : HasShortNumbers d := by
  unfold readScalar at h
  split at h
  · rename_i result hword
    cases h
    obtain ⟨⟨word, value⟩, hmem, hvalue⟩ := List.exists_of_findSome?_eq_some hword
    simp only at hvalue
    split at hvalue
    · cases hvalue
      -- no word stands for a whole number
      simp only [words, List.mem_cons, Prod.mk.injEq, List.not_mem_nil, or_false] at hmem
      rcases hmem with ⟨-, rfl⟩ | ⟨-, rfl⟩ | ⟨-, rfl⟩ | ⟨-, rfl⟩ | ⟨-, rfl⟩ | ⟨-, rfl⟩
      all_goals exact fun n hn => nomatch hn
    · cases hvalue
  · split at h
    · exact hasShortNumbers_of_readNumber h
    · exact hasShortNumbers_of_readNumber h

theorem hasShortNumbers_ofPoints (points : Text.Points) : HasShortNumbers (Datum.ofPoints points) := by
  unfold Datum.ofPoints
  split
  · exact fun n hn => nomatch hn
  · exact fun n hn => nomatch hn

/-! ## Values -/

/-- The values that are read with this much fuel have short numbers. -/
def ValuesShort (fuel : Nat) : Prop :=
  ∀ room cs d rest, readValue fuel room cs = .ok (d, rest) → HasShortNumbers d

/-- The items that are read with this much fuel have short numbers. -/
def ItemsShort (fuel : Nat) : Prop :=
  ∀ room cs items rest, readItems fuel room cs = .ok (items, rest) → ∀ d ∈ items, HasShortNumbers d

/-- The members that are read with this much fuel have short numbers. -/
def MembersShort (fuel : Nat) : Prop :=
  ∀ room cs entries rest, readMembers fuel room cs = .ok (entries, rest) →
    ∀ e ∈ entries, HasShortNumbers e.2

theorem valuesShort_succ {fuel : Nat} (hitems : ItemsShort fuel) (hmembers : MembersShort fuel) :
    ValuesShort (fuel + 1) := by
  intro room cs d rest h
  rw [readValue.eq_def] at h
  simp only at h
  split at h
  · obtain ⟨⟨text, after⟩, -, hresult⟩ := exists_of_map_eq_ok h
    cases hresult
    exact hasShortNumbers_ofPoints text
  · split at h
    · cases h
    · split at h
      · cases h
        exact hasShortNumbers_list fun d hd => absurd hd List.not_mem_nil
      · obtain ⟨⟨items, last⟩, hread, hresult⟩ := exists_of_map_eq_ok h
        cases hresult
        exact hasShortNumbers_list (hitems _ _ _ _ hread)
  · split at h
    · cases h
    · split at h
      · cases h
        exact hasShortNumbers_map fun e he => absurd he List.not_mem_nil
      · obtain ⟨⟨entries, last⟩, hread, hresult⟩ := exists_of_map_eq_ok h
        cases hresult
        exact hasShortNumbers_ofEntries (hmembers _ _ _ _ hread)
  · exact hasShortNumbers_of_readScalar h

theorem itemsShort_succ {fuel : Nat} (hvalues : ValuesShort fuel) (hitems : ItemsShort fuel) :
    ItemsShort (fuel + 1) := by
  intro room cs items rest h
  rw [readItems] at h
  split at h
  · cases h
  · rename_i hread
    have hitem := hvalues _ _ _ _ hread
    split at h
    · cases h
      exact List.forall_mem_singleton.mpr hitem
    · obtain ⟨⟨more, last⟩, hmore, hresult⟩ := exists_of_map_eq_ok h
      cases hresult
      exact List.forall_mem_cons.mpr ⟨hitem, hitems _ _ _ _ hmore⟩
    · cases h

theorem membersShort_succ {fuel : Nat} (hvalues : ValuesShort fuel) (hmembers : MembersShort fuel) :
    MembersShort (fuel + 1) := by
  intro room cs entries rest h
  rw [readMembers.eq_def] at h
  simp only at h
  split at h
  · split at h
    · cases h
    · split at h
      · split at h
        · cases h
        · rename_i hread
          have hvalue := hvalues _ _ _ _ hread
          split at h
          · cases h
            exact List.forall_mem_singleton.mpr hvalue
          · obtain ⟨⟨more, last⟩, hmore, hresult⟩ := exists_of_map_eq_ok h
            cases hresult
            exact List.forall_mem_cons.mpr ⟨hvalue, hmembers _ _ _ _ hmore⟩
          · cases h
      · cases h
  · cases h

theorem readers_short (fuel : Nat) : ValuesShort fuel ∧ ItemsShort fuel ∧ MembersShort fuel := by
  induction fuel with
  | zero =>
      refine ⟨fun _ _ _ _ h => ?_, fun _ _ _ _ h => ?_, fun _ _ _ _ h => ?_⟩
      · cases h
      · cases h
      · cases h
  | succ fuel ih =>
      obtain ⟨hvalues, hitems, hmembers⟩ := ih
      exact ⟨valuesShort_succ hitems hmembers, itemsShort_succ hvalues hitems,
        membersShort_succ hvalues hmembers⟩

/-- **Whole numbers that are read can be written.** -/
theorem hasShortNumbers_of_parse {cs : List Char} {d : Datum} (h : parse cs = .ok d) :
    HasShortNumbers d := by
  unfold parse at h
  split at h
  · cases h
  · split at h
    · cases h
    · rename_i hread
      split at h
      · cases h
        exact (readers_short _).1 _ _ _ _ hread
      · cases h

end SourceNavigator.Json
