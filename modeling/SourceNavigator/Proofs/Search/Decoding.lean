import SourceNavigator.Proofs.Json.Members
import SourceNavigator.Proofs.Search.Emission
import SourceNavigator.Proofs.Text.Base64
import SourceNavigator.Proofs.Text.Lossy

set_option autoImplicit false

/-! # Records in any spelling

A record can be spelled in many ways (`Spells`): its members stand in any order with others between
them, its strings are escaped in any way, a text is given as it is or by its octets in base 64, and the
column is left out if it is zero. Whatever the spelling, the record is read back exactly if the spelling
can be read at all (`parse_spelling_iff`): no whole number in it, be it in a member that nobody asks
for, has more than 4300 digits, and brackets are not nested too deeply. A number that is too long fails
the record (`long_extra_fails`).
-/

namespace SourceNavigator.Search

open Data (Datum Rule Validated)
open Json (Gap Glyph Label Layout Numeral Slot named pointsOf)
open Text (Points)

/-! ## Spellings -/

/-- The value is a string with these code points. -/
def SpellsPoints (v : Layout) (ps : Points) : Prop := ∃ gs, v = .string gs ∧ pointsOf gs = ps

/-- The value is a string with these characters. -/
def SpellsText (v : Layout) (cs : List Char) : Prop := SpellsPoints v (Points.ofChars cs)

/-- The value is an object that gives a text as it is, or by its octets: what is no UTF-8 among them is
shown as U+FFFD. -/
def SpellsContent (v : Layout) (ps : Points) : Prop :=
  ∃ inner members, v = .object inner members ∧
    ((∃ t, named "text" members = [t] ∧ SpellsPoints t ps) ∨
      named "text" members = [] ∧ ∃ t octets cs, named "bytes" members = [t] ∧
        SpellsText t (Text.Base64.encode octets) ∧ Text.Utf8.Shows octets cs ∧ ps = Points.ofChars cs)

/-- The members give a column: the start of the first submatch, or zero if there is no submatch. -/
def SpellsColumn (members : List (Label × Layout)) (n : Nat) : Prop :=
  (n = 0 ∧ named "submatches" members = []) ∨
    (n = 0 ∧ ∃ inner, named "submatches" members = [.list inner []]) ∨
      ∃ inner slot inner' first more, named "submatches" members
          = [.list inner ((slot, .object inner' first) :: more)] ∧
        named "start" first = [.number (.ofNat n)]

/-- The members give a path, a line and the text of the line. -/
structure SpellsPlace (members : List (Label × Layout)) (path : Points) (line : Int) (text : Points) :
    Prop where
  path : ∃ v, named "path" members = [v] ∧ SpellsContent v path
  line : ∃ n : Nat, line = n ∧ 1 ≤ n ∧ named "line_number" members = [.number (.ofNat n)]
  text : ∃ v, named "lines" members = [v] ∧ SpellsContent v text

/-- The members give what a record holds. A path that holds halves of pairs names no file. -/
def SpellsData (members : List (Label × Layout)) : Record → Prop
  | .found path line column text =>
    SpellsPlace members path line text ∧ ∃ n : Nat, column = n ∧ SpellsColumn members n
  | .misnamed path line column text =>
    path.chars? = none ∧ SpellsPlace members path line text ∧
      ∃ n : Nat, column = n ∧ SpellsColumn members n
  | .context path line text => SpellsPlace members path line text
  | .other _ => False

/-- The type that a record is announced by. -/
def kindOf : Record → String
  | .found .. | .misnamed .. => matchKind
  | .context .. => contextKind
  | .other kind => kind

/-- The value is a match or context record. -/
def Spells (v : Layout) (r : Record) : Prop :=
  ∃ inner members kind inner' data, v = .object inner members ∧ named "type" members = [kind] ∧
    SpellsText kind (kindOf r).toList ∧ named "data" members = [.object inner' data] ∧ SpellsData data r

/-! ## Parts -/

theorem datum_of_spellsPoints {v : Layout} {ps : Points} (h : SpellsPoints v ps) :
    v.datum = Datum.ofPoints ps := by
  obtain ⟨gs, rfl, rfl⟩ := h
  rw [Layout.datum]

theorem datum_of_spellsText {v : Layout} {cs : List Char} (h : SpellsText v cs) :
    v.datum = .text (String.ofList cs) := by
  have hchars := Json.ofPoints_ofChars (String.ofList cs)
  rw [String.toList_ofList] at hchars
  rw [datum_of_spellsPoints h, hchars]

theorem datum_number (n : Nat) : (Layout.number (.ofNat n)).datum = .int n := rfl

/-- The entries of an object whose members are looked up by name. -/
def HoldsMembers (entries : List (Datum × Datum)) (members : List (Label × Layout)) : Prop :=
  ∀ name, Datum.lookup name entries = (named name members).getLast?.map Layout.datum

section Members

variable {entries : List (Datum × Datum)} {members : List (Label × Layout)} {name : String} {v : Layout}

theorem HoldsMembers.one (h : HoldsMembers entries members) (hv : named name members = [v]) :
    Datum.lookup name entries = some v.datum := by
  rw [h name, hv]
  rfl

theorem HoldsMembers.none (h : HoldsMembers entries members) (hv : named name members = []) :
    Datum.lookup name entries = none := by
  rw [h name, hv]
  rfl

/-- An object with a member counts as something. -/
theorem isTruthy_of_lookup {d : Datum} (h : Datum.lookup name entries = some d) :
    (Datum.map entries).isTruthy = true := by
  cases entries with
  | nil => cases h
  | cons e es => rfl

theorem textOf_text {d : Datum} (h : Datum.lookup "text" entries = some d) :
    textOf (.map entries) = .ok d := by
  rw [textOf, isTruthy_of_lookup h]
  simp only [Bool.not_true, Bool.false_eq_true, if_false, h]

theorem textOf_octets {d : Datum} (htext : Datum.lookup "text" entries = none)
    (h : Datum.lookup "bytes" entries = some d) : textOf (.map entries) = decodeOctets d := by
  rw [textOf, isTruthy_of_lookup h]
  simp only [Bool.not_true, Bool.false_eq_true, if_false, htext, h]

/-- A text is read in either way. -/
theorem textOf_of_spellsContent {ps : Points} (h : SpellsContent v ps) :
    textOf v.datum = .ok (Datum.ofPoints ps) := by
  obtain ⟨inner, members, rfl, hways⟩ := h
  obtain ⟨entries, hentries, hholds⟩ := Json.exists_entries members
  have hholds : HoldsMembers entries members := hholds
  rw [Layout.datum, hentries]
  rcases hways with ⟨t, ht, hspells⟩ | ⟨hnone, t, octets, cs, ht, hspells, hshows, rfl⟩
  · rw [textOf_text (hholds.one ht), datum_of_spellsPoints hspells]
  · have hchars := Json.ofPoints_ofChars (String.ofList cs)
    rw [String.toList_ofList] at hchars
    calc textOf (.map entries)
        = decodeOctets t.datum := textOf_octets (hholds.none hnone) (hholds.one ht)
      _ = decodeOctets (.text (String.ofList (Text.Base64.encode octets))) := by
          rw [datum_of_spellsText hspells]
      _ = .ok (.text (String.ofList (Text.Utf8.decode octets))) := by
          rw [decodeOctets, String.toList_ofList, Text.Base64.decode?_encode]
      _ = .ok (Datum.ofPoints (Points.ofChars cs)) := by
          rw [hchars, Text.Utf8.decode_eq_iff.mpr hshows]

theorem memberText_of_spellsContent (hholds : HoldsMembers entries members)
    (hv : named name members = [v]) {ps : Points} (h : SpellsContent v ps) :
    memberText (.map entries) name = .ok (Datum.ofPoints ps) := by
  have hmember : member? (.map entries) name = .ok (some v.datum) := by
    rw [member?, hholds.one hv]
  rw [memberText, hmember]
  exact textOf_of_spellsContent h

theorem lineOf_of_named (hholds : HoldsMembers entries members) {n : Nat}
    (h : named "line_number" members = [.number (.ofNat n)]) : lineOf (.map entries) = .ok (.int n) := by
  rw [lineOf, hholds.one h]
  rfl

/-- The column is read whether it is given or not. -/
theorem columnOf_of_spellsColumn (hholds : HoldsMembers entries members) {n : Nat}
    (h : SpellsColumn members n) : columnOf (.map entries) = .ok (.int n) := by
  rcases h with ⟨rfl, hnone⟩ | ⟨rfl, inner, hempty⟩ | ⟨inner, slot, inner', first, more, hfirst, hstart⟩
  · have hmember : member? (.map entries) "submatches" = .ok none := by
      rw [member?, hholds.none hnone]
    rw [columnOf, hmember]
    rfl
  · have hmember : member? (.map entries) "submatches" = .ok (some (.list [])) := by
      rw [member?, hholds.one hempty]
      rfl
    rw [columnOf, hmember]
    rfl
  · -- only the first submatch is looked at
    obtain ⟨es, hes, hholds'⟩ := Json.exists_entries first
    have hholds' : HoldsMembers es first := hholds'
    have hmember : member? (.map entries) "submatches"
        = .ok (some (.list (.map es :: Layout.data more))) := by
      rw [member?, hholds.one hfirst, Layout.datum, Layout.data, Layout.datum, hes]
    have hcolumn : member? (.map es) "start" = .ok (some (.int n)) := by
      rw [member?, hholds'.one hstart, datum_number]
    rw [columnOf, hmember]
    show (member? (.map es) "start").map (·.getD (.int 0)) = _
    rw [hcolumn]
    rfl

end Members

/-! ## Records -/

section Records

variable {entries : List (Datum × Datum)} {members : List (Label × Layout)} {path : Points}
  {line : Int} {text : Points}

theorem ofPoints_of_chars? (h : path.chars? = none) : Datum.ofPoints path = .illFormed path := by
  rw [Datum.ofPoints, h]

theorem SpellsContent.lt {v : Layout} {ps : Points} (h : SpellsContent v ps) :
    ∀ n ∈ ps, n < 0x110000 := by
  obtain ⟨inner, members, -, ⟨t, -, gs, -, rfl⟩ | ⟨-, t, octets, cs, -, -, -, rfl⟩⟩ := h
  · exact Json.pointsOf_lt gs
  · intro n hn
    obtain ⟨c, -, rfl⟩ := List.mem_map.mp hn
    exact Json.toNat_lt_points c

/-- What is read of code points are these code points. -/
theorem points_ofPoints {ps : Points} (hlt : ∀ n ∈ ps, n < 0x110000) :
    Rule.points (Datum.ofPoints ps) = .valid ps := by
  cases hchars : ps.chars? with
  | none =>
      rw [ofPoints_of_chars? hchars]
      rfl
  | some cs =>
      obtain rfl := Json.eq_ofChars_of_chars? hlt hchars
      rw [Datum.ofPoints, hchars]
      show Validated.valid (Points.ofString (String.ofList cs)) = _
      rw [Points.ofString, String.toList_ofList]

theorem matchParts_of_spellsPlace (hholds : HoldsMembers entries members)
    (h : SpellsPlace members path line text) {n : Nat} (hcolumn : SpellsColumn members n) :
    matchParts (.map entries) = .ok (Datum.ofPoints path, .int line, .int n, Datum.ofPoints text) := by
  obtain ⟨⟨p, hp, hpath⟩, ⟨k, rfl, -, hk⟩, ⟨t, ht, htext⟩⟩ := h
  rw [matchParts, columnOf_of_spellsColumn hholds hcolumn, memberText_of_spellsContent hholds hp hpath,
    lineOf_of_named hholds hk, memberText_of_spellsContent hholds ht htext]
  rfl

theorem contextParts_of_spellsPlace (hholds : HoldsMembers entries members)
    (h : SpellsPlace members path line text) :
    contextParts (.map entries) = .ok (Datum.ofPoints path, .int line, Datum.ofPoints text) := by
  obtain ⟨⟨p, hp, hpath⟩, ⟨k, rfl, -, hk⟩, ⟨t, ht, htext⟩⟩ := h
  rw [contextParts, memberText_of_spellsContent hholds hp hpath, lineOf_of_named hholds hk,
    memberText_of_spellsContent hholds ht htext]
  rfl

theorem SpellsPlace.one_le (h : SpellsPlace members path line text) : 1 ≤ line := by
  obtain ⟨n, rfl, hn, -⟩ := h.line
  exact_mod_cast hn

/-- What the members give is the record that is made of them. -/
theorem record_of_spellsData {r : Record} (hholds : HoldsMembers entries members)
    (h : SpellsData members r) :
    (kindOf r = matchKind ∧ ∃ p l c t, matchParts (.map entries) = .ok (p, l, c, t) ∧
        matchRecord p l c t = .valid r) ∨
      kindOf r = contextKind ∧ ∃ p l t, contextParts (.map entries) = .ok (p, l, t) ∧
        contextRecord p l t = .valid r := by
  cases r with
  | found path line column text =>
      obtain ⟨hplace, n, rfl, hcolumn⟩ := h
      refine Or.inl ⟨rfl, _, _, _, _, matchParts_of_spellsPlace hholds hplace hcolumn, ?_⟩
      rw [Json.ofPoints_ofString, Json.ofPoints_ofString, matchRecord,
        checked_integerFrom hplace.one_le, checked_integerFrom (Int.natCast_nonneg n)]
      rfl
  | misnamed path line column text =>
      obtain ⟨hhalves, hplace, n, rfl, hcolumn⟩ := h
      refine Or.inl ⟨rfl, _, _, _, _, matchParts_of_spellsPlace hholds hplace hcolumn, ?_⟩
      rw [ofPoints_of_chars? hhalves, Json.ofPoints_ofString, matchRecord,
        checked_integerFrom hplace.one_le, checked_integerFrom (Int.natCast_nonneg n)]
      rfl
  | context path line text =>
      refine Or.inr ⟨rfl, _, _, _, contextParts_of_spellsPlace hholds h, ?_⟩
      obtain ⟨p, -, hpath⟩ := h.path
      obtain ⟨t, -, htext⟩ := h.text
      rw [contextRecord, checked_integerFrom h.one_le, checked, checked, points_ofPoints hpath.lt,
        points_ofPoints htext.lt]
      rfl
  | other kind => exact h.elim

/-- The object of a spelled record is taken for that record. -/
theorem ofEntries_of_spells {v : Layout} {r : Record} (h : Spells v r) :
    ∃ entries, v.datum = .map entries ∧ Record.ofEntries entries = .ok r := by
  obtain ⟨inner, members, kind, inner', data, rfl, hkind, hspells, hdata, hrecord⟩ := h
  obtain ⟨entries, hentries, hholds⟩ := Json.exists_entries members
  obtain ⟨es, hes, hholds'⟩ := Json.exists_entries data
  have hholds : HoldsMembers entries members := hholds
  have hholds' : HoldsMembers es data := hholds'
  have hlookupKind := hholds.one hkind
  have hlookupData := hholds.one hdata
  rw [datum_of_spellsText hspells, String.ofList_toList] at hlookupKind
  rw [Layout.datum, hes] at hlookupData
  -- data that counted as nothing would be passed over, but a line stands in these
  have hsome : (Datum.map es).isTruthy = true := by
    obtain ⟨n, hn⟩ : ∃ n : Nat, named "line_number" data = [.number (.ofNat n)] := by
      cases r with
      | found path line column text => exact hrecord.1.line.imp fun n hn => hn.2.2
      | misnamed path line column text => exact hrecord.2.1.line.imp fun n hn => hn.2.2
      | context path line text => exact hrecord.line.imp fun n hn => hn.2.2
      | other kind => exact hrecord.elim
    exact isTruthy_of_lookup (hholds'.one hn)
  refine ⟨entries, by rw [Layout.datum, hentries], ?_⟩
  rw [ofEntries_of_kind hlookupKind hlookupData hsome]
  rcases record_of_spellsData hholds' hrecord with ⟨hmatch, p, l, c, t, hparts, hvalid⟩ |
    ⟨hcontext, p, l, t, hparts, hvalid⟩
  · rw [if_pos hmatch, hparts]
    simp only
    rw [hvalid]
    rfl
  · rw [if_neg (by rw [hcontext]; decide), if_pos hcontext, hparts]
    simp only
    rw [hvalid]
    rfl

end Records

theorem parse_of_isReadable {v : Layout} {r : Record} (h : Spells v r)
    (hreadable : v.isReadable Json.maxDepth = true) (before after : Gap) :
    Record.parse (before.text ++ (v.text ++ after.text)) = .ok r := by
  obtain ⟨entries, hdatum, hrecord⟩ := ofEntries_of_spells h
  have hparse := Layout.parse_text before after v
  rw [if_pos hreadable, hdatum] at hparse
  rw [parse_of_toOption hparse, hrecord]

theorem exists_fault_of_unreadable {v : Layout} (hreadable : v.isReadable Json.maxDepth = false)
    (before after : Gap) : ∃ fault, Record.parse (before.text ++ (v.text ++ after.text)) = .error fault := by
  have hparse := Layout.parse_text before after v
  rw [hreadable, if_neg (by decide)] at hparse
  exact exists_fault_of_toOption hparse

/-- **Reading a record in any spelling.** It is read back as the record exactly if the spelling can be
read: no whole number in it has too many digits, and its brackets are not nested too deeply. -/
theorem parse_spelling_iff {v : Layout} {r : Record} (h : Spells v r) (before after : Gap) :
    Record.parse (before.text ++ (v.text ++ after.text)) = .ok r ↔ v.isReadable Json.maxDepth = true := by
  refine ⟨fun hparse => ?_, fun hreadable => parse_of_isReadable h hreadable before after⟩
  cases hreadable : v.isReadable Json.maxDepth with
  | true => rfl
  | false =>
      obtain ⟨fault, hfault⟩ := exists_fault_of_unreadable hreadable before after
      rw [hfault] at hparse
      cases hparse

/-! ## Two records -/

/-- The characters of a text that can stand for themselves. -/
def plainGlyphs (s : String) : List Glyph :=
  s.toList.filterMap fun c => if h : Json.isPlain c = true then some (.plain c h) else none

/-- A string without escapes. -/
def plainString (s : String) : Layout := .string (plainGlyphs s)

/-- A member without white space. -/
def plainMember (name : String) (v : Layout) : Label × Layout := (⟨[], plainGlyphs name, [], [], []⟩, v)

/-- A match whose path is no UTF-8 and whose text is a pair of halves, with its members in an unusual
order. -/
def pairedRecord : Layout :=
  let path := Layout.object [] [plainMember "bytes" (plainString "/w==")]
  let pair := Layout.string [.unit ⟨13, true⟩ ⟨8, false⟩ ⟨3, false⟩ ⟨13, false⟩,
    .unit ⟨13, false⟩ ⟨14, true⟩ ⟨0, false⟩ ⟨0, false⟩]
  .object [.blank] [plainMember "data" (.object []
      [plainMember "submatches" (.list [.tab] []), plainMember "line_number" (.number (.ofNat 7)),
        plainMember "lines" (.object [] [plainMember "text" pair]), plainMember "path" path]),
    plainMember "type" (plainString "match")]

theorem parse_spelling_paired :
    Spells pairedRecord (.found "\uFFFD" 7 0 "😀") ∧
      Record.parse (Gap.text [.blank] ++ (pairedRecord.text ++ Gap.text []))
        = .ok (.found "\uFFFD" 7 0 "😀") := by
  have hspells : Spells pairedRecord (.found "\uFFFD" 7 0 "😀") := by
    have hpath : Text.Utf8.Shows [0xFF] ['\uFFFD'] := Text.Utf8.decode_eq_iff.mp (by decide)
    refine ⟨_, _, _, _, _, rfl, rfl, ⟨_, rfl, by decide⟩, rfl, ⟨?_, 0, rfl, Or.inr (Or.inl ⟨rfl, _, rfl⟩)⟩⟩
    refine ⟨⟨_, rfl, _, _, rfl, Or.inr ⟨rfl, _, [0xFF], _, rfl, ⟨_, rfl, by decide⟩, hpath, by decide⟩⟩,
      ⟨7, rfl, by decide, rfl⟩, ⟨_, rfl, _, _, rfl, Or.inl ⟨_, rfl, _, rfl, by decide⟩⟩⟩
  exact ⟨hspells, (parse_spelling_iff hspells [.blank] []).mpr (by decide)⟩

/-- A match with a number under a name that nobody asks for. -/
def recordWithExtra (n : Nat) : Layout :=
  .object [] [plainMember "type" (plainString "match"),
    plainMember "data" (.object []
      [plainMember "path" (.object [] [plainMember "text" (plainString "a")]),
        plainMember "line_number" (.number (.ofNat 1)),
        plainMember "lines" (.object [] [plainMember "text" (plainString "b")])]),
    plainMember "x" (.number (.ofNat n))]

theorem spells_recordWithExtra (n : Nat) : Spells (recordWithExtra n) (.found "a" 1 0 "b") := by
  refine ⟨_, _, _, _, _, rfl, rfl, ⟨_, rfl, by decide⟩, rfl, ⟨?_, 0, rfl, Or.inl ⟨rfl, rfl⟩⟩⟩
  exact ⟨⟨_, rfl, _, _, rfl, Or.inl ⟨_, rfl, _, rfl, by decide⟩⟩, ⟨1, rfl, Nat.le_refl 1, rfl⟩,
    ⟨_, rfl, _, _, rfl, Or.inl ⟨_, rfl, _, rfl, by decide⟩⟩⟩

theorem eq_tooManyDigits {α : Type} {x : Except LineFault α} {count : Nat}
    (h : (match x with
      | .error (.tooManyDigits n) => n == count
      | _ => false) = true) : x = .error (.tooManyDigits count) := by
  split at h
  · rw [beq_iff_eq.mp h]
  · cases h

/-- **A long number fails a record** even if nobody asks for it. -/
theorem long_extra_fails :
    Spells (recordWithExtra (10 ^ 4300)) (.found "a" 1 0 "b") ∧
      Record.parse (recordWithExtra (10 ^ 4300)).text = .error (.tooManyDigits 4301) :=
  ⟨spells_recordWithExtra _, eq_tooManyDigits (by decide +kernel)⟩

end SourceNavigator.Search
