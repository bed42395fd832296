import SourceNavigator.Proofs.Data.Entries
import SourceNavigator.Proofs.Json.Reading

set_option autoImplicit false

/-! # Members by name

The members of an object become the entries of a map, in which the last entry of a key counts. A name
can be spelled in many ways, but two spellings of the same name are the same key (`isNamed_ofPoints`).
So looking a name up gives the last of the values that are given under that name
(`exists_entries`), and it is the only one if the name is used once.
-/

namespace SourceNavigator.Json

open Data (Datum isNamed lookup_putEntry)

/-! ## Code points -/

theorem toNat_lt_points (c : Char) : c.toNat < 0x110000 := by
  have hvalid : c.toNat < 0xD800 ∨ 0xDFFF < c.toNat ∧ c.toNat < 0x110000 := c.valid
  omega

/-- A unit is below 65536. -/
theorem unitValue_lt (a b c d : HexDigit) : unitValue a b c d < 0x10000 := by
  have ha := a.value.isLt
  have hb := b.value.isLt
  have hc := c.value.isLt
  have hd := d.value.isLt
  rw [unitValue]
  omega

theorem pairPoint_lt {high low : Nat} (hhigh : Text.isHighHalf high = true)
    (hlow : Text.isLowHalf low = true) : Text.pairPoint high low < 0x110000 := by
  simp only [Text.isHighHalf, Bool.and_eq_true, decide_eq_true_eq] at hhigh
  simp only [Text.isLowHalf, Bool.and_eq_true, decide_eq_true_eq] at hlow
  unfold Text.pairPoint
  omega

theorem pointsOf_lt (gs : List Glyph) : ∀ n ∈ pointsOf gs, n < 0x110000 := by
  induction gs using pointsOf.induct with
  | case1 => exact fun n hn => absurd hn List.not_mem_nil
  | case2 c hc gs ih =>
      rw [pointsOf]
      exact List.forall_mem_cons.mpr ⟨toNat_lt_points c, ih⟩
  | case3 entry hentry gs ih =>
      rw [pointsOf]
      exact List.forall_mem_cons.mpr ⟨toNat_lt_points entry.1, ih⟩
  | case4 a b c d a' b' c' d' gs hpair ih =>
      -- only a pair stands for more than its unit
      have hpoint := pairPoint_lt (Bool.and_eq_true_iff.mp hpair).1 (Bool.and_eq_true_iff.mp hpair).2
      rw [pointsOf, if_pos hpair]
      intro n hn
      rcases List.mem_cons.mp hn with hn | hn
      · rw [hn]
        exact hpoint
      · exact ih n hn
  | case5 a b c d a' b' c' d' gs hpair ih =>
      rw [pointsOf, if_neg hpair]
      refine List.forall_mem_cons.mpr ⟨?_, ih⟩
      have := unitValue_lt a b c d
      omega
  | case6 a b c d gs hno ih =>
      have hpoints : pointsOf (.unit a b c d :: gs) = unitValue a b c d :: pointsOf gs := by
        rw [pointsOf]
        exact hno
      rw [hpoints]
      refine List.forall_mem_cons.mpr ⟨?_, ih⟩
      have := unitValue_lt a b c d
      omega

theorem ofPoints_ofChars (s : String) : Datum.ofPoints (Text.Points.ofChars s.toList) = .text s := by
  rw [Datum.ofPoints, Text.Points.chars?_ofChars]
  exact congrArg Datum.text String.ofList_toList

theorem ofPoints_ofString (s : String) : Datum.ofPoints (Text.Points.ofString s) = .text s :=
  ofPoints_ofChars s

/-- Code points without halves are those of their characters. -/
theorem eq_ofChars_of_chars? {ps : Text.Points} (hlt : ∀ n ∈ ps, n < 0x110000) {cs : List Char}
    (h : ps.chars? = some cs) : ps = Text.Points.ofChars cs := by
  unfold Text.Points.chars? at h
  split at h
  · cases h
  · rename_i hhalves
    cases h
    rw [Text.Points.ofChars, List.map_map]
    refine (List.map_id' ps).symm.trans (List.map_congr_left fun n hn => ?_)
    -- a code point that is no half and is not too large is that of a character
    have hhalf : Text.isHalf n = false := by
      by_contra hnot
      exact hhalves (List.any_eq_true.mpr ⟨n, hn, by simpa using hnot⟩)
    have hvalid : n.isValidChar := by
      simp only [Text.isHalf, Text.isHighHalf, Text.isLowHalf, Bool.or_eq_false_iff,
        Bool.and_eq_false_iff, decide_eq_false_iff_not] at hhalf
      have hn := hlt n hn
      show n < 0xD800 ∨ 0xDFFF < n ∧ n < 0x110000
      omega
    show n = (Char.ofNat n).toNat
    rw [Char.ofNat, dif_pos hvalid]
    rfl

/-! ## Keys -/

/-- A key is a name exactly if it is spelled with its characters. -/
theorem isNamed_ofPoints (name : String) {ps : Text.Points} (hlt : ∀ n ∈ ps, n < 0x110000) :
    isNamed name (Datum.ofPoints ps) = (ps == Text.Points.ofChars name.toList) := by
  rw [Bool.eq_iff_iff, beq_iff_eq]
  constructor
  · intro h
    unfold Datum.ofPoints at h
    cases hchars : ps.chars? with
    | none =>
        rw [hchars] at h
        cases h
    | some cs =>
        rw [hchars] at h
        have hname : String.ofList cs = name := beq_iff_eq.mp h
        rw [eq_ofChars_of_chars? hlt hchars, ← hname, String.toList_ofList]
  · rintro rfl
    rw [ofPoints_ofChars, isNamed, beq_self_eq_true]

/-! ## Members -/

/-- Whether a label spells a name. -/
def Label.spells (l : Label) (name : String) : Bool := pointsOf l.name == Text.Points.ofChars name.toList

/-- The values of the members with a name. -/
def named (name : String) (members : List (Label × Layout)) : List Layout :=
  (members.filter (·.1.spells name)).map (·.2)

theorem named_cons (name : String) (label : Label) (v : Layout) (members : List (Label × Layout)) :
    named name ((label, v) :: members)
      = if label.spells name then v :: named name members else named name members := by
  simp only [named, List.filter_cons]
  split
  · rfl
  · rfl

theorem isNamed_label (name : String) (l : Label) :
    isNamed name (Datum.ofPoints (pointsOf l.name)) = l.spells name :=
  isNamed_ofPoints name (pointsOf_lt l.name)

/-- The last member of a name is found, or what was there before. -/
theorem lookup_foldl (name : String) (members : List (Label × Layout)) (es : List (Datum × Datum)) :
    Datum.lookup name
        ((Layout.entries members).foldl (fun acc e => Datum.putEntry e.1 e.2 acc) es)
      = ((named name members).getLast?.map Layout.datum).or (Datum.lookup name es) := by
  induction members generalizing es with
  | nil => rfl
  | cons member members ih =>
      obtain ⟨label, v⟩ := member
      have hput : Datum.lookup name (Datum.putEntry (Datum.ofPoints (pointsOf label.name)) v.datum es)
          = if label.spells name then some v.datum else Datum.lookup name es := by
        rw [lookup_putEntry, isNamed_label]
      rw [Layout.entries, List.foldl_cons, ih, hput, named_cons]
      cases label.spells name with
      | false => rfl
      | true =>
          -- the value counts as long as no later member spells the name
          rw [if_pos rfl, if_pos rfl, List.getLast?_cons]
          cases (named name members).getLast? with
          | none => rfl
          | some last => rfl

/-- **A name is looked up in the members that spell it.** -/
theorem exists_entries (members : List (Label × Layout)) :
    ∃ es, Datum.ofEntries (Layout.entries members) = .map es ∧
      ∀ name, Datum.lookup name es = (named name members).getLast?.map Layout.datum := by
  refine ⟨_, rfl, fun name => ?_⟩
  rw [lookup_foldl]
  exact Option.or_none

end SourceNavigator.Json
