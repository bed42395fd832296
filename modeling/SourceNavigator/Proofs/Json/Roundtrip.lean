import SourceNavigator.Proofs.Json.Reading

set_option autoImplicit false

/-! # Reading what was written

A value as an engine writes it is one of the layouts of that value (`exists_layout`), so what is known
of reading layouts says what becomes of it (`parse_spell`): it is read as the datum that it stands for,
if its numbers are short enough and its nesting is not too deep. A long number that stands alone is
refused as such (`parse_of_long`).
-/

namespace SourceNavigator.Json

open Data (Datum)

/-! ## Strings -/

theorem pointsOf_unit {a b c d : HexDigit} (h : Text.isHighHalf (unitValue a b c d) = false)
    (gs : List Glyph) : pointsOf (.unit a b c d :: gs) = unitValue a b c d :: pointsOf gs := by
  cases gs with
  | nil => rfl
  | cons g gs =>
      cases g with
      | plain c hc => rfl
      | letter entry hentry => rfl
      | unit a' b' c' d' => rw [pointsOf, h, Bool.false_and, if_neg (by decide)]

/-- The four small digits of a control character. -/
theorem unitEscape_glyph : ∀ n < 0x20, ∃ a b c d : Fin 16,
    (Glyph.unit ⟨a, false⟩ ⟨b, false⟩ ⟨c, false⟩ ⟨d, false⟩).text = unitEscape n ∧
      unitValue ⟨a, false⟩ ⟨b, false⟩ ⟨c, false⟩ ⟨d, false⟩ = n := by
  have hdigits : ∀ n : Fin 32, (Glyph.unit ⟨0, false⟩ ⟨0, false⟩ ⟨⟨n.val / 16, by omega⟩, false⟩
      ⟨⟨n.val % 16, by omega⟩, false⟩).text = unitEscape n := by
    decide
  intro n hn
  refine ⟨0, 0, ⟨n / 16, by omega⟩, ⟨n % 16, by omega⟩, hdigits ⟨n, hn⟩, ?_⟩
  show ((0 * 16 + 0) * 16 + n / 16) * 16 + n % 16 = n
  omega

/-- A written character is a piece that stands for the character. -/
theorem exists_glyph (c : Char) : ∃ g : Glyph, g.text = spellChar c ∧
    ∀ gs, pointsOf (g :: gs) = c.toNat :: pointsOf gs := by
  unfold spellChar
  cases hletter : letterOf? c with
  | some letter =>
      obtain ⟨entry, hfind, rfl⟩ := Option.map_eq_some_iff.mp hletter
      have hentry : entry.1 = c := by simpa using List.find?_some hfind
      refine ⟨.letter entry (List.mem_cons_of_mem _ (List.mem_of_find?_eq_some hfind)), rfl, ?_⟩
      intro gs
      show entry.1.toNat :: pointsOf gs = _
      rw [hentry]
  | none =>
      simp only
      split
      · rename_i hcontrol
        -- a control character is written as a unit, which is no half of a pair
        obtain ⟨a, b, d, e, htext, hvalue⟩ := unitEscape_glyph c.toNat hcontrol
        refine ⟨_, htext, fun gs => ?_⟩
        have hhigh : Text.isHighHalf c.toNat = false := by
          rw [Text.isHighHalf, Bool.and_eq_false_iff]
          exact Or.inl (decide_eq_false (by omega))
        rw [pointsOf_unit (by rw [hvalue]; exact hhigh), hvalue]
      · rename_i hcontrol
        have hne (d : Char) (hd : ∃ letter, letterOf? d = some letter) : c ≠ d := by
          rintro rfl
          obtain ⟨letter, hd⟩ := hd
          rw [hletter] at hd
          cases hd
        -- what has no letter and is no control character stands for itself
        have hplain : isPlain c = true := by
          simp [isPlain, hne '"' ⟨_, rfl⟩, hne '\\' ⟨_, rfl⟩, Nat.not_lt.mp hcontrol]
        exact ⟨.plain c hplain, rfl, fun gs => rfl⟩

theorem exists_glyphs (cs : List Char) :
    ∃ gs, glyphsText gs = cs.flatMap spellChar ∧ pointsOf gs = Text.Points.ofChars cs := by
  induction cs with
  | nil => exact ⟨[], rfl, rfl⟩
  | cons c cs ih =>
      obtain ⟨g, htext, hpoints⟩ := exists_glyph c
      obtain ⟨gs, hrest, hof⟩ := ih
      refine ⟨g :: gs, ?_, ?_⟩
      · rw [glyphsText_cons, htext, hrest, List.flatMap_cons]
      · rw [hpoints, hof]
        rfl

theorem exists_name (s : String) : ∃ gs, stringText gs = spellText s ∧
    Datum.ofPoints (pointsOf gs) = .text s := by
  obtain ⟨gs, htext, hpoints⟩ := exists_glyphs s.toList
  refine ⟨gs, ?_, ?_⟩
  · rw [stringText, htext, spellText]
  · rw [hpoints, Datum.ofPoints, Text.Points.chars?_ofChars]
    exact congrArg Datum.text String.ofList_toList

/-! ## Values -/

namespace Value

open Layout (itemsText itemsText_cons membersText membersText_cons)

mutual

/-- **A written value is a layout of it.** -/
theorem exists_layout : (v : Value) → ∃ l : Layout, l.text = v.spell ∧ l.datum = v.datum ∧
    ∀ room, l.isReadable room = v.isReadable room
  | .null => ⟨.null, rfl, rfl, fun _ => rfl⟩
  | .number n => by
      refine ⟨.number (.ofNat n), ?_, rfl, fun _ => rfl⟩
      exact List.append_nil _
  | .text s => by
      obtain ⟨gs, htext, hdatum⟩ := exists_name s
      exact ⟨.string gs, htext, hdatum, fun _ => rfl⟩
  | .list items => by
      obtain ⟨ls, htext, hdata, hreadable, -⟩ := exists_items items
      refine ⟨.list [] ls, ?_, ?_, fun room => ?_⟩
      · rw [Layout.text, htext, spell]
        rfl
      · rw [Layout.datum, hdata, datum]
      · rw [Layout.isReadable, hreadable, isReadable]
  | .object members => by
      obtain ⟨ls, htext, hentries, hreadable, -⟩ := exists_members members
      refine ⟨.object [] ls, ?_, ?_, fun room => ?_⟩
      · rw [Layout.text, htext, spell]
        rfl
      · rw [Layout.datum, hentries, datum]
      · rw [Layout.isReadable, hreadable, isReadable]

theorem exists_items : (items : List Value) → ∃ ls : List (Slot × Layout),
    itemsText ls = spellItems items ∧ Layout.data ls = data items ∧
      (∀ room, Layout.areReadable room ls = areReadable room items) ∧ (ls = [] → items = [])
  | [] => ⟨[], rfl, rfl, fun _ => rfl, fun _ => rfl⟩
  | [item] => by
      obtain ⟨l, htext, hdatum, hreadable⟩ := exists_layout item
      refine ⟨[(⟨[], []⟩, l)], ?_, ?_, fun room => ?_, fun h => by cases h⟩
      · rw [itemsText, htext, spellItems]
        exact List.append_nil _
      · rw [Layout.data, hdatum, data]
        rfl
      · rw [Layout.areReadable, hreadable, areReadable]
        rfl
  | item :: next :: rest => by
      obtain ⟨l, htext, hdatum, hreadable⟩ := exists_layout item
      obtain ⟨ls, hrest, hdata, hall, hne⟩ := exists_items (next :: rest)
      obtain ⟨first, more, rfl⟩ := List.exists_cons_of_ne_nil (mt hne (List.cons_ne_nil _ _))
      refine ⟨(⟨[], []⟩, l) :: first :: more, ?_, ?_, fun room => ?_, fun h => by cases h⟩
      · rw [itemsText_cons, htext, hrest, spellItems_cons]
        rfl
      · rw [Layout.data, hdatum, hdata]
        rfl
      · rw [Layout.areReadable, hreadable, hall]
        rfl

theorem exists_members : (members : List (String × Value)) → ∃ ls : List (Label × Layout),
    membersText ls = spellMembers members ∧ Layout.entries ls = entries members ∧
      (∀ room, Layout.areReadableMembers room ls = areReadableMembers room members) ∧
        (ls = [] → members = [])
  | [] => ⟨[], rfl, rfl, fun _ => rfl, fun _ => rfl⟩
  | [(name, value)] => by
      obtain ⟨gs, hname, hkey⟩ := exists_name name
      obtain ⟨l, htext, hdatum, hreadable⟩ := exists_layout value
      refine ⟨[(⟨[], gs, [], [], []⟩, l)], ?_, ?_, fun room => ?_, fun h => by cases h⟩
      · rw [membersText, Label.text, hname, htext, spellMembers]
        simp [Gap.text]
      · rw [Layout.entries, hdatum, hkey, entries]
        rfl
      · rw [Layout.areReadableMembers, hreadable, areReadableMembers]
        rfl
  | (name, value) :: next :: rest => by
      obtain ⟨gs, hname, hkey⟩ := exists_name name
      obtain ⟨l, htext, hdatum, hreadable⟩ := exists_layout value
      obtain ⟨ls, hrest, hentries, hall, hne⟩ := exists_members (next :: rest)
      obtain ⟨first, more, rfl⟩ := List.exists_cons_of_ne_nil (mt hne (List.cons_ne_nil _ _))
      refine ⟨(⟨[], gs, [], [], []⟩, l) :: first :: more, ?_, ?_, fun room => ?_,
        fun h => by cases h⟩
      · rw [membersText_cons, Label.text, hname, htext, hrest, spellMembers_cons]
        simp [Gap.text]
      · rw [Layout.entries, hdatum, hkey, hentries]
        rfl
      · rw [Layout.areReadableMembers, hreadable, hall]
        rfl

end

/-- **Reading what was written.** A written value is parsed as the datum that it stands for, if its
numbers are short enough and its nesting is not too deep, and refused otherwise. -/
theorem parse_spell (v : Value) :
    (parse v.spell).toOption = if v.isReadable maxDepth then some v.datum else none := by
  obtain ⟨l, htext, hdatum, hreadable⟩ := v.exists_layout
  have hparse := Layout.parse_text [] [] l
  rw [hdatum, hreadable, htext] at hparse
  rw [← hparse]
  exact congrArg (fun cs => (parse cs).toOption) (List.append_nil _).symm

end Value

/-! ## Long numbers -/

/-- **A long number is refused.** The reader gives up on a number with too many digits. -/
theorem parse_of_long {c : Char} {cs : List Char} (hzero : c ≠ '0')
    (hdigits : ∀ d ∈ c :: cs, d.isDigit = true) (hlong : Text.maxDigits < (c :: cs).length) :
    parse (c :: cs) = .error (.tooManyDigits (c :: cs).length) := by
  have hc : c.isDigit = true := hdigits c List.mem_cons_self
  have hne (d : Char) (hd : d.isDigit = false) : c ≠ d := by
    rintro rfl
    rw [hc] at hd
    cases hd
  have hstart : isStart c = true := by simp [isStart, hc]
  obtain ⟨hwhite, -, -, hmark⟩ := isStart_cases hstart
  have hwhole : readWhole (c :: cs) = some (c :: cs, []) := by
    have hend : NoDigit [] := fun _ h => by cases h
    obtain ⟨htake, hdrop⟩ := span_digits (fun d hd => hdigits d (List.mem_cons_of_mem _ hd)) hend
    rw [List.append_nil] at htake hdrop
    rw [readWhole, if_neg hzero, if_pos hc, htake, hdrop]
  -- neither a fraction nor an exponent follows, so the digits are counted
  have hnumber : readNumber false (c :: cs) (c :: cs) = .error (.tooManyDigits (c :: cs).length) := by
    have hfraction : readFraction [] = none := rfl
    have hexponent : readExponent [] = none := rfl
    unfold readNumber
    simp only [hwhole, hfraction, hexponent, Option.getD_none, List.isEmpty_nil, Bool.not_true,
      Bool.false_eq_true, if_false]
    rw [if_pos hlong]
  unfold parse
  split
  · rename_i hfirst
    exact absurd (List.cons.inj hfirst).1 hmark
  · rw [skipWhite_cons hwhite, readValue_scalar (hne _ (by decide)) (hne _ (by decide))
      (hne _ (by decide)), readScalar_of_digit hc, hnumber]

end SourceNavigator.Json
