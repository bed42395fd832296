import Mathlib.Tactic
import SourceNavigator.Json.Reader
import SourceNavigator.Proofs.Results

set_option autoImplicit false

/-! # Quotes

Whether a place of a JSON text lies inside a string is found by looking at quotes and backslashes
alone (`Mark.after`). Every reader leaves as much of the text as this look has left, so a text that
is read to its end does not end inside a string (`after_of_parse`). A line that was cut inside a
string is therefore refused.
-/

namespace SourceNavigator.Json

open Data (Datum)

/-- Where a place of a text lies: outside of strings, inside of one, or behind a backslash in one. -/
inductive Mark where
  | outside
  | inside
  | escaped
  deriving DecidableEq, Repr

namespace Mark

/-- The mark behind one more character. -/
def next : Mark → Char → Mark
  | .outside, c => if c = '"' then .inside else .outside
  | .inside, c => if c = '"' then .outside else if c = '\\' then .escaped else .inside
  | .escaped, _ => .inside

/-- The mark behind a text. -/
def after (m : Mark) (cs : List Char) : Mark := cs.foldl next m

theorem after_cons (m : Mark) (c : Char) (cs : List Char) : m.after (c :: cs) = (m.next c).after cs :=
  rfl

theorem after_append (m : Mark) (a b : List Char) : m.after (a ++ b) = (m.after a).after b :=
  List.foldl_append

theorem next_outside {c : Char} (h : c ≠ '"') : outside.next c = outside := if_neg h

theorem next_inside {c : Char} (hquote : c ≠ '"') (hslash : c ≠ '\\') :
    inside.next c = inside := by
  rw [next, if_neg hquote, if_neg hslash]

theorem after_outside {cs : List Char} (h : '"' ∉ cs) : outside.after cs = outside := by
  induction cs with
  | nil => rfl
  | cons c cs ih =>
      rw [List.mem_cons, not_or] at h
      rw [after_cons, next_outside (Ne.symm h.1), ih h.2]

theorem after_dropWhile {p : Char → Bool} (hp : p '"' = false) (cs : List Char) :
    outside.after (cs.dropWhile p) = outside.after cs := by
  have htaken : '"' ∉ cs.takeWhile p := by
    intro hmem
    have htaken := List.all_eq_true.mp (List.all_takeWhile (p := p) (l := cs)) _ hmem
    rw [hp] at htaken
    cases htaken
  calc outside.after (cs.dropWhile p)
      = (outside.after (cs.takeWhile p)).after (cs.dropWhile p) := by rw [after_outside htaken]
    _ = outside.after (cs.takeWhile p ++ cs.dropWhile p) := (after_append _ _ _).symm
    _ = outside.after cs := by rw [List.takeWhile_append_dropWhile]

end Mark

open Mark (after_cons after_append next_inside next_outside after_outside after_dropWhile)

/-! ## Strings -/

theorem hexValue?_ne {c : Char} {n : Nat} (h : hexValue? c = some n) : c ≠ '"' ∧ c ≠ '\\' := by
  constructor
  · rintro rfl
    have hnone : hexValue? '"' = none := by decide
    rw [hnone] at h
    cases h
  · rintro rfl
    have hnone : hexValue? '\\' = none := by decide
    rw [hnone] at h
    cases h

theorem after_hexFour {a b c d : Char} {n : Nat} (h : hexFour? a b c d = some n)
    (rest : List Char) : Mark.inside.after (a :: b :: c :: d :: rest) = Mark.inside.after rest := by
  unfold hexFour? at h
  simp only [Option.bind_eq_bind, Option.bind_eq_some_iff] at h
  obtain ⟨_, ha, _, hb, _, hc, _, hd, -⟩ := h
  have hstep {c : Char} {n : Nat} (h : hexValue? c = some n) : Mark.inside.next c = .inside :=
    next_inside (hexValue?_ne h).1 (hexValue?_ne h).2
  show Mark.after ((((Mark.inside.next a).next b).next c).next d) rest = _
  rw [hstep ha, hstep hb, hstep hc, hstep hd]

theorem after_readLowHalf {high n : Nat} {cs rest : List Char}
    (h : readLowHalf high cs = .ok (n, rest)) : Mark.inside.after cs = Mark.inside.after rest := by
  unfold readLowHalf at h
  split at h
  · split at h
    · cases h
    · rename_i hhex
      split at h
      · obtain ⟨-, rfl⟩ := Prod.mk.inj (Except.ok.inj h)
        exact after_hexFour hhex _
      · cases h
        rfl
  · cases h
    rfl

theorem after_readUnit {n : Nat} {cs rest : List Char} (h : readUnit cs = .ok (n, rest)) :
    Mark.inside.after cs = Mark.inside.after rest := by
  unfold readUnit at h
  split at h
  · split at h
    · cases h
    · rename_i hhex
      rw [after_hexFour hhex]
      split at h
      · exact after_readLowHalf h
      · cases h
        rfl
  · cases h

theorem after_readEscape {start cs rest : List Char} {n : Nat}
    (h : readEscape start cs = .ok (n, rest)) : Mark.escaped.after cs = Mark.inside.after rest := by
  unfold readEscape at h
  split at h
  · cases h
  · split at h
    · exact after_readUnit h
    · split at h
      · cases h
        rfl
      · cases h

theorem readString_raw {c : Char} (hquote : c ≠ '"') (hslash : c ≠ '\\') (hcontrol : 0x20 ≤ c.toNat)
    (start cs : List Char) : readString start (c :: cs)
      = (readString start cs).map fun (text, after) => (c.toNat :: text, after) := by
  rw [readString, if_neg hquote, if_neg hslash, if_neg (Nat.not_lt.mpr hcontrol)]

theorem readString_escape {start cs rest : List Char} {n : Nat}
    (h : readEscape start cs = .ok (n, rest)) : readString start ('\\' :: cs)
      = (readString start rest).map fun (text, after) => (n :: text, after) := by
  rw [readString, if_neg (by decide), if_pos rfl]
  split
  · rename_i hstop
    rw [h] at hstop
    cases hstop
  · rename_i hread
    rw [h] at hread
    cases hread
    rfl

theorem after_readString {start cs rest : List Char} {text : Text.Points}
    (h : readString start cs = .ok (text, rest)) : Mark.inside.after cs = Mark.outside.after rest := by
  -- an escape may be several characters long, hence the induction of the reader itself
  induction cs using readString.induct start generalizing text with
  | case1 =>
      rw [readString] at h
      cases h
  | case2 cs =>
      rw [readString, if_pos rfl] at h
      cases h
      rfl
  | case3 cs stop hescape _ =>
      rw [readString, if_neg (by decide), if_pos rfl] at h
      split at h
      · cases h
      · rename_i hread
        cases hescape.symm.trans hread
  | case4 cs n inner hescape _ ih =>
      rw [readString_escape hescape] at h
      obtain ⟨⟨more, last⟩, hread, hresult⟩ := exists_of_map_eq_ok h
      cases hresult
      exact (after_readEscape hescape).trans (ih hread)
  | case5 c cs hquote hslash hcontrol =>
      rw [readString, if_neg hquote, if_neg hslash, if_pos hcontrol] at h
      cases h
  | case6 c cs hquote hslash hcontrol ih =>
      rw [readString_raw hquote hslash (Nat.not_lt.mp hcontrol)] at h
      obtain ⟨⟨more, last⟩, hread, hresult⟩ := exists_of_map_eq_ok h
      cases hresult
      rw [after_cons, next_inside hquote hslash]
      exact ih hread

/-! ## Numbers and words -/

theorem after_readWhole {cs whole rest : List Char} (h : readWhole cs = some (whole, rest)) :
    Mark.outside.after cs = Mark.outside.after rest := by
  unfold readWhole at h
  split at h
  · cases h
  · split at h
    · rename_i hzero
      cases h
      rw [hzero]
      rfl
    · split at h
      · rename_i hdigit
        cases h
        rw [after_dropWhile (by decide), after_cons, next_outside]
        rintro rfl
        cases hdigit
      · cases h

theorem after_readFraction {cs digits rest : List Char} (h : readFraction cs = some (digits, rest)) :
    Mark.outside.after cs = Mark.outside.after rest := by
  unfold readFraction at h
  split at h
  · split at h
    · rename_i hdigit
      cases h
      rw [after_dropWhile (by decide), after_cons, next_outside (by decide), after_cons, next_outside]
      rintro rfl
      cases hdigit
    · cases h
  · cases h

theorem after_readSign (cs : List Char) :
    Mark.outside.after (Text.readSign cs).2 = Mark.outside.after cs := by
  unfold Text.readSign
  split
  · rfl
  · rfl
  · rfl

theorem after_readExponent {cs rest : List Char} {e : Int} (h : readExponent cs = some (e, rest)) :
    Mark.outside.after cs = Mark.outside.after rest := by
  unfold readExponent at h
  split at h
  · cases h
  · split at h
    · rename_i mark cs hmark
      cases hspan : spanDigits (Text.readSign cs).2 with
      | mk digits last =>
          have hlast : (Text.readSign cs).2.dropWhile Char.isDigit = last := congrArg Prod.snd hspan
          simp only [hspan] at h
          split at h
          · cases h
          · cases h
            rw [← hlast, after_dropWhile (by decide), after_readSign, after_cons, next_outside]
            rintro rfl
            rcases hmark with hmark | hmark
            · exact absurd hmark (by decide)
            · exact absurd hmark (by decide)
    · cases h

theorem after_readNumber {negative : Bool} {start cs rest : List Char} {d : Datum}
    (h : readNumber negative start cs = .ok (d, rest)) :
    Mark.outside.after cs = Mark.outside.after rest := by
  unfold readNumber at h
  split at h
  · cases h
  · rename_i whole afterWhole hwhole
    rw [after_readWhole hwhole]
    -- a fraction that is not there leaves the text as it is
    have hfraction : Mark.outside.after afterWhole
        = Mark.outside.after ((readFraction afterWhole).getD ([], afterWhole)).2 := by
      cases hread : readFraction afterWhole with
      | none => rfl
      | some found => exact after_readFraction hread
    rw [hfraction]
    simp only at h
    split at h
    · rename_i hexponent
      cases h
      exact after_readExponent hexponent
    · split at h
      · cases h
        rfl
      · split at h
        · cases h
        · cases h
          rfl

theorem after_readWord {cs rest : List Char} {d : Datum} (h : readWord cs = some (d, rest)) :
    Mark.outside.after cs = Mark.outside.after rest := by
  obtain ⟨⟨word, value⟩, hmem, hfound⟩ := List.exists_of_findSome?_eq_some h
  have hquote : ∀ entry ∈ words, '"' ∉ entry.1.toList := by decide
  simp only at hfound
  split at hfound
  · rename_i hprefix
    cases hfound
    obtain ⟨last, rfl⟩ := List.isPrefixOf_iff_prefix.mp hprefix
    rw [after_append, after_outside (hquote _ hmem), ← String.length_toList, List.drop_left]
  · cases hfound

theorem after_readScalar {cs rest : List Char} {d : Datum} (h : readScalar cs = .ok (d, rest)) :
    Mark.outside.after cs = Mark.outside.after rest := by
  unfold readScalar at h
  split at h
  · rename_i hword
    cases h
    exact after_readWord hword
  · split at h
    · rw [after_cons, next_outside (by decide)]
      exact after_readNumber h
    · exact after_readNumber h

/-! ## Values -/

theorem after_skipWhite (cs : List Char) : Mark.outside.after (skipWhite cs) = Mark.outside.after cs :=
  after_dropWhile (by decide) cs

/-- White space and the character behind it leave outside what was outside, unless this is a quote. -/
theorem after_token {c : Char} {cs rest : List Char} (h : skipWhite cs = c :: rest) (hc : c ≠ '"') :
    Mark.outside.after cs = Mark.outside.after rest := by
  rw [← after_skipWhite, h, after_cons, next_outside hc]

/-- Behind a bracket white space is passed over. -/
theorem after_bracket {c : Char} (hc : c ≠ '"') (cs : List Char) :
    Mark.outside.after (c :: cs) = Mark.outside.after (skipWhite cs) := by
  rw [after_skipWhite, after_cons, next_outside hc]

/-- Reading values leaves outside what was outside. -/
def ValuesLeave (fuel : Nat) : Prop :=
  ∀ room cs d rest, readValue fuel room cs = .ok (d, rest) →
    Mark.outside.after cs = Mark.outside.after rest

/-- Reading items leaves outside what was outside. -/
def ItemsLeave (fuel : Nat) : Prop :=
  ∀ room cs items rest, readItems fuel room cs = .ok (items, rest) →
    Mark.outside.after cs = Mark.outside.after rest

/-- Reading members leaves outside what was outside. -/
def MembersLeave (fuel : Nat) : Prop :=
  ∀ room cs entries rest, readMembers fuel room cs = .ok (entries, rest) →
    Mark.outside.after cs = Mark.outside.after rest

theorem valuesLeave_succ {fuel : Nat} (hitems : ItemsLeave fuel) (hmembers : MembersLeave fuel) :
    ValuesLeave (fuel + 1) := by
  intro room cs d rest h
  rw [readValue.eq_def] at h
  simp only at h
  split at h
  · obtain ⟨⟨text, last⟩, hread, hresult⟩ := exists_of_map_eq_ok h
    cases hresult
    exact after_readString hread
  · rename_i inner
    split at h
    · cases h
    · split at h
      · rename_i hclose
        cases h
        rw [after_cons, next_outside (by decide), after_token hclose (by decide)]
      · obtain ⟨⟨items, last⟩, hread, hresult⟩ := exists_of_map_eq_ok h
        cases hresult
        rw [after_bracket (by decide)]
        exact hitems _ _ _ _ hread
  · rename_i inner
    split at h
    · cases h
    · split at h
      · rename_i hclose
        cases h
        rw [after_cons, next_outside (by decide), after_token hclose (by decide)]
      · obtain ⟨⟨entries, last⟩, hread, hresult⟩ := exists_of_map_eq_ok h
        cases hresult
        rw [after_bracket (by decide)]
        exact hmembers _ _ _ _ hread
  · exact after_readScalar h

theorem itemsLeave_succ {fuel : Nat} (hvalues : ValuesLeave fuel) (hitems : ItemsLeave fuel) :
    ItemsLeave (fuel + 1) := by
  intro room cs items rest h
  rw [readItems] at h
  split at h
  · cases h
  · rename_i hread
    rw [hvalues _ _ _ _ hread]
    -- what follows an item is a closing bracket, or a comma and more items
    split at h
    · rename_i hclose
      cases h
      exact after_token hclose (by decide)
    · rename_i hcomma
      obtain ⟨⟨more, last⟩, hread, hresult⟩ := exists_of_map_eq_ok h
      cases hresult
      rw [after_token hcomma (by decide), ← after_skipWhite]
      exact hitems _ _ _ _ hread
    · cases h

theorem membersLeave_succ {fuel : Nat} (hvalues : ValuesLeave fuel) (hmembers : MembersLeave fuel) :
    MembersLeave (fuel + 1) := by
  intro room cs entries rest h
  rw [readMembers.eq_def] at h
  simp only at h
  split at h
  · split at h
    · cases h
    · rename_i hname
      -- the quote before the name leads inside, and its reader leads out again
      refine (after_readString hname).trans ?_
      split at h
      · rename_i hcolon
        rw [after_token hcolon (by decide), ← after_skipWhite]
        split at h
        · cases h
        · rename_i hvalue
          rw [hvalues _ _ _ _ hvalue]
          split at h
          · rename_i hclose
            cases h
            exact after_token hclose (by decide)
          · rename_i hcomma
            obtain ⟨⟨more, last⟩, hread, hresult⟩ := exists_of_map_eq_ok h
            cases hresult
            rw [after_token hcomma (by decide), ← after_skipWhite]
            exact hmembers _ _ _ _ hread
          · cases h
      · cases h
  · cases h

/-- The readers of values, items and members leave outside what was outside, whatever their
bounds. -/
theorem readers_leave (fuel : Nat) : ValuesLeave fuel ∧ ItemsLeave fuel ∧ MembersLeave fuel := by
  induction fuel with
  | zero =>
      refine ⟨fun _ _ _ _ h => ?_, fun _ _ _ _ h => ?_, fun _ _ _ _ h => ?_⟩
      · cases h
      · cases h
      · cases h
  | succ fuel ih =>
      obtain ⟨hvalues, hitems, hmembers⟩ := ih
      exact ⟨valuesLeave_succ hitems hmembers, itemsLeave_succ hvalues hitems,
        membersLeave_succ hvalues hmembers⟩

/-- **A text that is read to its end does not end inside a string.** -/
theorem after_of_parse {cs : List Char} {d : Datum} (h : parse cs = .ok d) :
    Mark.outside.after cs = .outside := by
  unfold parse at h
  split at h
  · cases h
  · split at h
    · cases h
    · rename_i rest hread
      split at h
      · rename_i hend
        have hleave := (readers_leave _).1 _ _ _ _ hread
        calc Mark.outside.after cs = Mark.outside.after (skipWhite cs) := (after_skipWhite cs).symm
          _ = Mark.outside.after rest := hleave
          _ = Mark.outside.after (skipWhite rest) := (after_skipWhite rest).symm
          _ = .outside := by
              rw [hend]
              rfl
      · cases h

end SourceNavigator.Json
