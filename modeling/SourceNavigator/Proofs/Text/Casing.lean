import SourceNavigator.Proofs.Text.Blank
import SourceNavigator.Text.Casing

set_option autoImplicit false

/-! # Lower case

A text in lower case is its own lower case (`lowerAfter_eq_self`), and what lower case leads to is in
lower case (`isLower_of_mem_lowerAfter`). This is a fact about the table: no code point that it leads to
is one that it moves (`lowerShifts_leadOut`). No blank is the lower case of anything else, so the lower
case of a trimmed text is trimmed (`isTrimmed_lower`).
-/

namespace SourceNavigator.Text

/-! ## The table -/

/-- Code points that no lower case is: blanks, the two that are mapped apart, surrogates, and those of
ASCII that are no small letters. -/
def neverLower : List (Nat × Nat) :=
  [(0, 96), (123, 127), (0x85, 0x85), (0xA0, 0xA0), (304, 304), (0x3A3, 0x3A3), (0x1680, 0x1680),
   (0x2000, 0x200A), (0x2028, 0x2029), (0x202F, 0x202F), (0x205F, 0x205F), (0x3000, 0x3000),
   (0xD800, 0xDFFF)]

/-- Whether an entry moves a code point. -/
def moves (e : Nat × Nat × Nat × Int) (n : Nat) : Bool :=
  decide (e.1 ≤ n ∧ n ≤ e.2.1) && (n - e.1) % e.2.2.1 == 0

/-- The entry moves no code point from `low` to `high`, or if `sparse` none of every other one: the
ranges are apart, or the code points of both fall in between each other. -/
def misses (low high : Nat) (sparse : Bool) (e : Nat × Nat × Nat × Int) : Bool :=
  Nat.blt high e.1 || Nat.blt e.2.1 low || sparse && Nat.beq e.2.2.1 2 && Nat.beq ((low + e.1) % 2) 1

/-- The code points from `low` to `high`, or if `sparse` every other one, are the lower case of
themselves. -/
def staysFrom (low high : Nat) (sparse : Bool) : Bool :=
  Nat.blt high 0x110000 && neverLower.all (fun r => Nat.blt high r.1 || Nat.blt r.2 low) &&
    lowerShifts.all (misses low high sparse)

/-- What an entry leads to is the lower case of itself. -/
def leadsOut (e : Nat × Nat × Nat × Int) : Bool :=
  Nat.blt 0 (e.1 + e.2.2.2).toNat &&
    staysFrom (e.1 + e.2.2.2).toNat (e.2.1 + e.2.2.2).toNat (Nat.beq e.2.2.1 2 || Nat.beq e.1 e.2.1)

theorem lowerShifts_leadOut : lowerShifts.all leadsOut = true := by decide +kernel

/-- A character is moved by an entry, or no entry moves it. -/
theorem shiftChar_cases (shifts : List (Nat × Nat × Nat × Int)) (c : Char) :
    (∃ e ∈ shifts, moves e c.toNat = true ∧
        shiftChar shifts c = Char.ofNat (c.toNat + e.2.2.2).toNat) ∨
      (∀ e ∈ shifts, moves e c.toNat = false) ∧ shiftChar shifts c = c := by
  unfold shiftChar
  split
  · rename_i first last step offset hfind
    have hmoved := List.find?_some hfind
    exact Or.inl ⟨_, List.mem_of_find?_eq_some hfind, hmoved, rfl⟩
  · rename_i hfind
    refine Or.inr ⟨fun e he => ?_, rfl⟩
    rw [← Bool.not_eq_true]
    exact List.find?_eq_none.mp hfind e he

/-- What stays from `low` to `high` is a character, is not one of those that are never in lower case,
and is not moved. -/
theorem stays_of_staysFrom {low high m : Nat} {sparse : Bool} (h : staysFrom low high sparse = true)
    (hlow : low ≤ m) (hhigh : m ≤ high) (hsparse : sparse = true → (m - low) % 2 = 0) :
    m < 0x110000 ∧ (∀ r ∈ neverLower, m < r.1 ∨ r.2 < m) ∧ ∀ e ∈ lowerShifts, moves e m = false := by
  simp only [staysFrom, Bool.and_eq_true, Nat.blt_eq, List.all_eq_true, Bool.or_eq_true] at h
  obtain ⟨⟨hbound, hnever⟩, hmisses⟩ := h
  refine ⟨by omega, fun r hr => ?_, fun e he => ?_⟩
  · have := hnever r hr
    omega
  · have hmiss := hmisses e he
    obtain ⟨first, last, step, offset⟩ := e
    simp only [misses, Bool.or_eq_true, Bool.and_eq_true, Nat.blt_eq, Nat.beq_eq] at hmiss
    simp only [moves, Bool.and_eq_false_iff, decide_eq_false_iff_not, beq_eq_false_iff_ne]
    rcases hmiss with (hafter | hbefore) | ⟨⟨hsome, hstep⟩, hodd⟩
    · exact Or.inl (by omega)
    · exact Or.inl (by omega)
    · have heven := hsparse hsome
      subst hstep
      omega

/-! ## One character -/

/-- The lower case of the character is the character itself, wherever it stands. -/
def IsLower (c : Char) : Prop :=
  c.toNat ≠ 0x3A3 ∧
    if c.toNat < 128 then c.toLower = c else mapCase lowerShifts lowerExpansions c = [c]

instance (c : Char) : Decidable (IsLower c) := inferInstanceAs (Decidable (_ ∧ _))

/-- Small letters and what is no ASCII, if no entry moves it, are in lower case. -/
theorem isLower_of_not_moves {c : Char} (hascii : c.toNat < 128 → 97 ≤ c.toNat ∧ c.toNat ≤ 122)
    (hsigma : c.toNat ≠ 0x3A3) (hdotted : c.toNat ≠ 304)
    (hmoves : ∀ e ∈ lowerShifts, moves e c.toNat = false) : IsLower c := by
  refine ⟨hsigma, ?_⟩
  split
  · rename_i hlow
    have hletter := hascii hlow
    refine dif_neg ?_
    rintro ⟨-, hcapital⟩
    have hcapital : c.toNat ≤ 90 := hcapital
    omega
  · have hexpansion : lowerExpansions.find? (fun entry => entry.1 == c.toNat) = none := by
      rw [List.find?_eq_none]
      intro entry hentry
      obtain rfl := List.mem_singleton.mp hentry
      simpa using Ne.symm hdotted
    rw [mapCase, hexpansion]
    rcases shiftChar_cases lowerShifts c with ⟨e, he, hmoved, -⟩ | ⟨-, hstays⟩
    · rw [hmoves e he] at hmoved
      cases hmoved
    · rw [hstays]

/-- A code point that the table leads to is a character in lower case, and no blank. -/
theorem isLower_of_leadsOut {e : Nat × Nat × Nat × Int} {n : Nat} (h : leadsOut e = true)
    (hn : moves e n = true) :
    IsLower (Char.ofNat (n + e.2.2.2).toNat) ∧ isBlank (Char.ofNat (n + e.2.2.2).toNat) = false := by
  obtain ⟨first, last, step, offset⟩ := e
  simp only [moves, Bool.and_eq_true, decide_eq_true_eq, beq_iff_eq] at hn
  obtain ⟨⟨hfirst, hlast⟩, hstep⟩ := hn
  simp only [leadsOut, Bool.and_eq_true, Nat.blt_eq] at h
  obtain ⟨hpositive, hstays⟩ := h
  generalize hm : ((n : Int) + offset).toNat = m
  obtain ⟨hbound, hnever, hmoves⟩ := stays_of_staysFrom (m := m) hstays (by omega) (by omega)
    (fun hsparse => by
      simp only [Bool.or_eq_true, Nat.beq_eq] at hsparse ⊢
      rcases hsparse with rfl | rfl
      · omega
      · omega)
  simp only [neverLower, List.forall_mem_cons, List.not_mem_nil, false_implies, implies_true,
    and_true] at hnever
  -- the image is a character, and no code point that is never in lower case
  have hvalid : m.isValidChar := by
    rw [Nat.isValidChar]
    omega
  have hpoint : (Char.ofNat m).toNat = m := by
    rw [Char.ofNat, dif_pos hvalid]
    rfl
  constructor
  · apply isLower_of_not_moves
    · rw [hpoint]
      omega
    · rw [hpoint]
      omega
    · rw [hpoint]
      omega
    · rw [hpoint]
      exact hmoves
  · rw [isBlank, isSpace, hpoint]
    simp only [Bool.or_eq_false_iff, Bool.and_eq_false_iff, decide_eq_false_iff_not,
      beq_eq_false_iff_ne]
    omega

theorem isLower_toLower {c : Char} (h : c.toNat < 128) :
    IsLower c.toLower ∧ (isBlank c = false → isBlank c.toLower = false) := by
  have hall : ∀ n < 128, IsLower (Char.ofNat n).toLower ∧
      (isBlank (Char.ofNat n) = false → isBlank (Char.ofNat n).toLower = false) := by
    decide
  have hc := hall c.toNat h
  rwa [Char.ofNat_toNat] at hc

/-- The code points that stand for the dotted capital I and for a sigma. -/
theorem isLower_images : ∀ n ∈ [105, 775, 0x3C2, 0x3C3],
    IsLower (Char.ofNat n) ∧ isBlank (Char.ofNat n) = false := by
  decide

theorem isLower_mapCase {c : Char} (hascii : ¬ c.toNat < 128) (hsigma : c.toNat ≠ 0x3A3) :
    ∀ d ∈ mapCase lowerShifts lowerExpansions c,
      IsLower d ∧ (isBlank c = false → isBlank d = false) := by
  intro d hd
  unfold mapCase at hd
  split at hd
  · -- the only expansion is that of the dotted capital I
    rename_i hfind
    obtain ⟨-, rfl⟩ := Prod.mk.inj (List.mem_singleton.mp (List.mem_of_find?_eq_some hfind))
    obtain ⟨n, hn, rfl⟩ := List.mem_map.mp hd
    obtain ⟨hlower, hblank⟩ := isLower_images n (List.mem_append_left [0x3C2, 0x3C3] hn)
    exact ⟨hlower, fun _ => hblank⟩
  · rename_i hfind
    obtain rfl := List.mem_singleton.mp hd
    rcases shiftChar_cases lowerShifts c with ⟨e, he, hmoved, hshift⟩ | ⟨hmoves, hstays⟩
    · rw [hshift]
      obtain ⟨hlower, hblank⟩ :=
        isLower_of_leadsOut (List.all_eq_true.mp lowerShifts_leadOut e he) hmoved
      exact ⟨hlower, fun _ => hblank⟩
    · rw [hstays]
      have hdotted : c.toNat ≠ 304 := by
        intro h
        have hnot := List.find?_eq_none.mp hfind _ (List.mem_singleton_self _)
        exact hnot (beq_iff_eq.mpr h.symm)
      exact ⟨isLower_of_not_moves (fun h => absurd h hascii) hsigma hdotted hmoves, id⟩

/-- **What becomes of a character**: characters in lower case, at least one, and no blanks unless it is
one itself. -/
theorem lowerAfter_cons (before : List Char) (c : Char) (cs : List Char) :
    ∃ image, lowerAfter before (c :: cs) = image ++ lowerAfter (c :: before) cs ∧ image ≠ [] ∧
      ∀ d ∈ image, IsLower d ∧ (isBlank c = false → isBlank d = false) := by
  refine ⟨_, by rw [lowerAfter], ?_, ?_⟩
  · split
    · exact List.cons_ne_nil _ _
    · split
      · exact List.cons_ne_nil _ _
      · unfold mapCase
        split
        · rename_i hfind
          obtain ⟨-, rfl⟩ := Prod.mk.inj (List.mem_singleton.mp (List.mem_of_find?_eq_some hfind))
          exact List.cons_ne_nil _ _
        · exact List.cons_ne_nil _ _
  · split
    · intro d hd
      -- a sigma takes one of its two small forms
      have hsigma : ∃ n ∈ [0x3C2, 0x3C3], d = Char.ofNat n := by
        rw [List.mem_singleton.mp hd]
        split
        · exact ⟨_, List.mem_cons_self, rfl⟩
        · exact ⟨_, List.mem_cons_of_mem _ List.mem_cons_self, rfl⟩
      obtain ⟨n, hn, rfl⟩ := hsigma
      obtain ⟨hlower, hblank⟩ := isLower_images n (List.mem_append_right [105, 775] hn)
      exact ⟨hlower, fun _ => hblank⟩
    · rename_i hsigma
      split
      · rename_i hascii
        intro d hd
        rw [List.mem_singleton.mp hd]
        exact isLower_toLower hascii
      · rename_i hascii
        exact isLower_mapCase hascii hsigma

/-- A character in lower case stays as it is. -/
theorem lowerAfter_cons_of_isLower {c : Char} (h : IsLower c) (before cs : List Char) :
    lowerAfter before (c :: cs) = c :: lowerAfter (c :: before) cs := by
  obtain ⟨hsigma, hsame⟩ := h
  rw [lowerAfter, if_neg hsigma]
  split
  · rename_i hascii
    rw [if_pos hascii] at hsame
    rw [hsame]
    rfl
  · rename_i hascii
    rw [if_neg hascii] at hsame
    rw [hsame]
    rfl

/-! ## Texts -/

theorem isLower_of_mem_lowerAfter {before cs : List Char} {d : Char}
    (h : d ∈ lowerAfter before cs) : IsLower d := by
  induction cs generalizing before with
  | nil => cases h
  | cons c cs ih =>
      obtain ⟨image, himage, -, hall⟩ := lowerAfter_cons before c cs
      rw [himage] at h
      rcases List.mem_append.mp h with h | h
      · exact (hall d h).1
      · exact ih h

theorem lowerAfter_eq_self {before cs : List Char} (h : ∀ c ∈ cs, IsLower c) :
    lowerAfter before cs = cs := by
  induction cs generalizing before with
  | nil => rfl
  | cons c cs ih =>
      obtain ⟨hc, hcs⟩ := List.forall_mem_cons.mp h
      rw [lowerAfter_cons_of_isLower hc, ih hcs]

theorem lowerAfter_eq_nil_iff {before cs : List Char} : lowerAfter before cs = [] ↔ cs = [] := by
  cases cs with
  | nil => exact iff_of_true rfl rfl
  | cons c cs =>
      obtain ⟨image, himage, hne, -⟩ := lowerAfter_cons before c cs
      rw [himage]
      simp [hne]

theorem isBlank_getLast_lowerAfter {before cs : List Char}
    (hlast : ∀ c, cs.getLast? = some c → isBlank c = false) {d : Char}
    (hd : (lowerAfter before cs).getLast? = some d) : isBlank d = false := by
  induction cs generalizing before with
  | nil => cases hd
  | cons c cs ih =>
      obtain ⟨image, himage, hne, hall⟩ := lowerAfter_cons before c cs
      rw [himage] at hd
      cases cs with
      | nil =>
          rw [lowerAfter, List.append_nil] at hd
          exact (hall d (List.mem_of_getLast? hd)).2 (hlast c rfl)
      | cons next rest =>
          have hrest : lowerAfter (c :: before) (next :: rest) ≠ [] :=
            mt lowerAfter_eq_nil_iff.mp (List.cons_ne_nil _ _)
          rw [List.getLast?_append_of_ne_nil _ hrest] at hd
          exact ih (fun e he => hlast e (by rwa [List.getLast?_cons_cons])) hd

/-- The lower case of a trimmed text is trimmed. -/
theorem isTrimmed_lower {cs : List Char} (h : IsTrimmed cs) : IsTrimmed (lower cs) := by
  refine ⟨fun d hd => ?_, fun d hd => isBlank_getLast_lowerAfter h.last hd⟩
  cases cs with
  | nil => cases hd
  | cons c cs =>
      obtain ⟨image, himage, hne, hall⟩ := lowerAfter_cons [] c cs
      obtain ⟨first, rest, rfl⟩ := List.exists_cons_of_ne_nil hne
      rw [lower, himage] at hd
      obtain rfl : first = d := Option.some.inj hd
      exact (hall first List.mem_cons_self).2 (h.head c rfl)

end SourceNavigator.Text
