import SourceNavigator.Json.Writer
import SourceNavigator.Proofs.Json.Quotes
import SourceNavigator.Proofs.Text.Lines

set_option autoImplicit false

/-! # Values as an engine writes them

The engine writes a JSON value without white space and escapes in a string only quotes, backslashes
and control characters (`Value.spell`). What is written is read back as the value it stands for,
exactly if no number has too many digits and brackets are not nested too deeply (`parse_spell`).
Line boundaries stand in a written value only inside strings, where they are not escaped
(`guards_spell`, `all_spell`).
-/

namespace SourceNavigator.Json

open Data (Datum)
open Mark (after_append next_inside after_outside)

/-- A JSON value as an engine has it. -/
inductive Value where
  | null
  | number (n : Nat)
  | text (s : String)
  | list (items : List Value)
  | object (members : List (String × Value))

/-! ## Writing -/

/-- The characters that are escaped by a letter, and their letters. -/
def letters : List (Char × Char) :=
  [('"', '"'), ('\\', '\\'), ('\x08', 'b'), ('\x0c', 'f'), ('\n', 'n'), ('\r', 'r'), ('\t', 't')]

/-- The letter that a character is escaped by, if it has one. -/
def letterOf? (c : Char) : Option Char := (letters.find? (·.1 = c)).map (·.2)

/-- A character inside a string. All but quotes, backslashes and control characters stand for
themselves. -/
def spellChar (c : Char) : List Char :=
  match letterOf? c with
  | some letter => ['\\', letter]
  | none => if c.toNat < 0x20 then unitEscape c.toNat else [c]

/-- A string literal. -/
def spellText (s : String) : List Char := '"' :: (s.toList.flatMap spellChar ++ ['"'])

namespace Value

mutual

/-- A value on one line. -/
def spell : Value → List Char
  | .null => "null".toList
  | .number n => Nat.toDigits 10 n
  | .text s => spellText s
  | .list items => '[' :: (spellItems items ++ [']'])
  | .object members => '\x7b' :: (spellMembers members ++ ['\x7d'])

/-- Items with commas between them. -/
def spellItems : List Value → List Char
  | [] => []
  | [item] => item.spell
  | item :: rest => item.spell ++ ',' :: spellItems rest

/-- Members with commas between them. -/
def spellMembers : List (String × Value) → List Char
  | [] => []
  | [(name, value)] => spellText name ++ ':' :: value.spell
  | (name, value) :: rest => spellText name ++ ':' :: (value.spell ++ ',' :: spellMembers rest)

end

mutual

/-- The datum that a value stands for. -/
def datum : Value → Datum
  | .null => .null
  | .number n => .int n
  | .text s => .text s
  | .list items => .list (data items)
  | .object members => Datum.ofEntries (entries members)

/-- The data of items. -/
def data : List Value → List Datum
  | [] => []
  | item :: rest => item.datum :: data rest

/-- The entries of members. -/
def entries : List (String × Value) → List (Datum × Datum)
  | [] => []
  | (name, value) :: rest => (.text name, value.datum) :: entries rest

end

mutual

/-- Whether a value can be read inside at most `room` more brackets: no number has too many digits
and the nesting is not too deep. -/
def isReadable (room : Nat) : Value → Bool
  | .null => true
  | .number n => (Nat.toDigits 10 n).length ≤ Text.maxDigits
  | .text _ => true
  | .list items => room != 0 && areReadable (room - 1) items
  | .object members => room != 0 && areReadableMembers (room - 1) members

/-- Whether all items can be read. -/
def areReadable (room : Nat) : List Value → Bool
  | [] => true
  | item :: rest => item.isReadable room && areReadable room rest

/-- Whether the values of all members can be read. -/
def areReadableMembers (room : Nat) : List (String × Value) → Bool
  | [] => true
  | (_, value) :: rest => value.isReadable room && areReadableMembers room rest

end

end Value

/-- A line boundary that is no control character below the blank: U+0085, U+2028 or U+2029. -/
def isWideBreak (c : Char) : Bool := c == '\u0085' || c == '\u2028' || c == '\u2029'

/-- Whether a text holds no wide line boundary. -/
def isUnbrokenText (s : String) : Bool := s.toList.all (!isWideBreak ·)

namespace Value

mutual

/-- Whether no text in a value holds a wide line boundary. -/
def isUnbroken : Value → Bool
  | .null => true
  | .number _ => true
  | .text s => isUnbrokenText s
  | .list items => areUnbroken items
  | .object members => areUnbrokenMembers members

/-- Whether no text in the items holds a wide line boundary. -/
def areUnbroken : List Value → Bool
  | [] => true
  | item :: rest => item.isUnbroken && areUnbroken rest

/-- Whether no name or text in the members holds a wide line boundary. -/
def areUnbrokenMembers : List (String × Value) → Bool
  | [] => true
  | (name, value) :: rest => isUnbrokenText name && value.isUnbroken && areUnbrokenMembers rest

end

end Value

/-! ## Reading text -/

theorem letters_escape : ∀ entry ∈ letters, simpleEscape? entry.2 = some entry.1 ∧ entry.2 ≠ 'u' ∧
    Text.isLineBreak entry.2 = false ∧ isWideBreak entry.1 = false := by
  decide

/-- What is known of a character with a letter of its own, of its letter, and of the others. -/
theorem spellChar_cases (c : Char) :
    (∃ letter, spellChar c = ['\\', letter] ∧ simpleEscape? letter = some c ∧ letter ≠ 'u' ∧
        Text.isLineBreak letter = false ∧ isWideBreak c = false) ∨
      (spellChar c = unitEscape c.toNat ∧ c.toNat < 0x20) ∨
      (spellChar c = [c] ∧ c ≠ '"' ∧ c ≠ '\\' ∧ 0x20 ≤ c.toNat) := by
  unfold spellChar
  cases hletter : letterOf? c with
  | some letter =>
      left
      refine ⟨letter, rfl, ?_⟩
      obtain ⟨entry, hfind, rfl⟩ := Option.map_eq_some_iff.mp hletter
      have hc : entry.1 = c := by simpa using List.find?_some hfind
      rw [← hc]
      exact letters_escape entry (List.mem_of_find?_eq_some hfind)
  | none =>
      right
      by_cases hcontrol : c.toNat < 0x20
      · exact Or.inl ⟨if_pos hcontrol, hcontrol⟩
      · refine Or.inr ⟨if_neg hcontrol, ?_, ?_, Nat.not_lt.mp hcontrol⟩
        · rintro rfl
          exact absurd hletter (by decide)
        · rintro rfl
          exact absurd hletter (by decide)

/-! ## Line boundaries -/

namespace Mark

/-- Line boundaries stand inside strings, and carriage returns nowhere. -/
def Guards : Mark → List Char → Prop
  | _, [] => True
  | m, c :: cs => (Text.isLineBreak c = true → m = .inside ∧ c ≠ '\r') ∧ (m.next c).Guards cs

theorem guards_append {m : Mark} {a b : List Char} :
    m.Guards (a ++ b) ↔ m.Guards a ∧ (m.after a).Guards b := by
  induction a generalizing m with
  | nil => exact ⟨fun h => ⟨trivial, h⟩, fun h => h.2⟩
  | cons c a ih =>
      rw [List.cons_append, Guards, ih, Guards, and_assoc]
      rfl

theorem guards_of_all {m : Mark} {cs : List Char} (h : cs.all (!Text.isLineBreak ·) = true) :
    m.Guards cs := by
  induction cs generalizing m with
  | nil => trivial
  | cons c cs ih =>
      rw [List.all_cons, Bool.and_eq_true, Bool.not_eq_true'] at h
      obtain ⟨hc, hcs⟩ := h
      refine ⟨fun hbreak => ?_, ih hcs⟩
      rw [hc] at hbreak
      cases hbreak

theorem Guards.return_not_mem {m : Mark} {cs : List Char} (h : m.Guards cs) : '\r' ∉ cs := by
  induction cs generalizing m with
  | nil => exact List.not_mem_nil
  | cons c cs ih =>
      obtain ⟨hc, hcs⟩ := h
      rw [List.mem_cons, not_or]
      refine ⟨?_, ih hcs⟩
      rintro rfl
      exact (hc Text.isLineBreak_return).2 rfl

/-- The first line boundary of a guarded text cuts a string. -/
theorem Guards.exists_first {m : Mark} {cs : List Char} (h : m.Guards cs)
    (hbreak : cs.all (!Text.isLineBreak ·) = false) :
    ∃ before c later, cs = before ++ c :: later ∧ (∀ d ∈ before, Text.isLineBreak d = false) ∧
      Text.isLineBreak c = true ∧ c ≠ '\r' ∧ m.after before = .inside := by
  induction cs generalizing m with
  | nil => cases hbreak
  | cons c cs ih =>
      obtain ⟨hc, hcs⟩ := h
      cases hfirst : Text.isLineBreak c with
      | true =>
          obtain ⟨hm, hreturn⟩ := hc hfirst
          exact ⟨[], c, cs, rfl, fun d hd => absurd hd List.not_mem_nil, hfirst, hreturn, hm⟩
      | false =>
          rw [List.all_cons, hfirst, Bool.not_false, Bool.true_and] at hbreak
          obtain ⟨before, d, later, rfl, hbefore, hd, hreturn, hm⟩ := ih hcs hbreak
          -- `c` is no line boundary itself, so the first one is that of the rest
          refine ⟨c :: before, d, later, rfl, fun e he => ?_, hd, hreturn, hm⟩
          rcases List.mem_cons.mp he with rfl | he
          · exact hfirst
          · exact hbefore e he

end Mark

/-- The text is guarded and leads from one mark to another. -/
def Leads (m : Mark) (cs : List Char) (m' : Mark) : Prop := m.Guards cs ∧ m.after cs = m'

theorem Leads.append {m m' m'' : Mark} {a b : List Char} (ha : Leads m a m') (hb : Leads m' b m'') :
    Leads m (a ++ b) m'' := by
  obtain ⟨hguards, hafter⟩ := ha
  obtain ⟨hguards', hafter'⟩ := hb
  constructor
  · rw [Mark.guards_append, hafter]
    exact ⟨hguards, hguards'⟩
  · rw [after_append, hafter, hafter']

theorem Leads.cons {m m' : Mark} {c : Char} {cs : List Char} (hc : Text.isLineBreak c = false)
    (h : Leads (m.next c) cs m') : Leads m (c :: cs) m' := by
  refine ⟨⟨fun hbreak => ?_, h.1⟩, h.2⟩
  rw [hc] at hbreak
  cases hbreak

theorem leads_nil (m : Mark) : Leads m [] m := ⟨trivial, rfl⟩

theorem all_unitEscape : ∀ n < 0x20, (unitEscape n).all (!Text.isLineBreak ·) = true := by decide

theorem leads_unitEscape : ∀ n < 0x20, Leads .inside (unitEscape n) .inside := by
  intro n hn
  constructor
  · exact Mark.guards_of_all (all_unitEscape n hn)
  · revert n
    decide

theorem leads_spellChar (c : Char) : Leads .inside (spellChar c) .inside := by
  rcases spellChar_cases c with ⟨letter, hc, -, -, hletter, -⟩ | ⟨hc, hcontrol⟩ | ⟨hc, hq, hs, hcontrol⟩
  · rw [hc]
    exact Leads.cons (by decide) (Leads.cons hletter (leads_nil _))
  · rw [hc]
    exact leads_unitEscape c.toNat hcontrol
  · rw [hc]
    refine ⟨⟨fun _ => ⟨rfl, ?_⟩, trivial⟩, next_inside hq hs⟩
    rintro rfl
    exact absurd hcontrol (by decide)

theorem leads_spellText (s : String) : Leads .outside (spellText s) .outside := by
  have hchars : Leads .inside (s.toList.flatMap spellChar) .inside := by
    induction s.toList with
    | nil => exact leads_nil _
    | cons c cs ih =>
        rw [List.flatMap_cons]
        exact (leads_spellChar c).append ih
  exact Leads.cons (by decide) (hchars.append (Leads.cons (by decide) (leads_nil _)))

theorem isLineBreak_of_isDigit {c : Char} (h : c.isDigit = true) : Text.isLineBreak c = false := by
  have hrange : 48 ≤ c.toNat ∧ c.toNat ≤ 57 := by
    simpa [Char.isDigit, UInt32.le_iff_toNat_le] using h
  simp only [Text.isLineBreak, Bool.or_eq_false_iff, Bool.and_eq_false_iff, decide_eq_false_iff_not,
    beq_eq_false_iff_ne]
  omega

theorem all_digits (n : Nat) : (Nat.toDigits 10 n).all (!Text.isLineBreak ·) = true := by
  rw [List.all_eq_true]
  intro c hc
  rw [isLineBreak_of_isDigit (Nat.isDigit_of_mem_toDigits (by decide) (by decide) hc)]
  rfl

theorem leads_digits (n : Nat) : Leads .outside (Nat.toDigits 10 n) .outside := by
  refine ⟨Mark.guards_of_all (all_digits n), after_outside fun hquote => ?_⟩
  have hdigit : '"'.isDigit = true := Nat.isDigit_of_mem_toDigits (by decide) (by decide) hquote
  exact absurd hdigit (by decide)

namespace Value

theorem spellItems_cons (item next : Value) (rest : List Value) :
    spellItems (item :: next :: rest) = item.spell ++ ',' :: spellItems (next :: rest) := by
  rw [spellItems]
  exact List.cons_ne_nil _ _

theorem spellMembers_cons (name : String) (value : Value) (next : String × Value)
    (rest : List (String × Value)) : spellMembers ((name, value) :: next :: rest)
      = spellText name ++ ':' :: (value.spell ++ ',' :: spellMembers (next :: rest)) := by
  rw [spellMembers]
  exact List.cons_ne_nil _ _

mutual

theorem leads_spell : (v : Value) → Leads .outside v.spell .outside
  | .null => by
      rw [spell]
      exact ⟨Mark.guards_of_all (by decide), by decide⟩
  | .number n => leads_digits n
  | .text s => leads_spellText s
  | .list items => by
      rw [spell]
      refine Leads.cons (by decide) ((leads_spellItems items).append ?_)
      exact Leads.cons (by decide) (leads_nil _)
  | .object members => by
      rw [spell]
      refine Leads.cons (by decide) ((leads_spellMembers members).append ?_)
      exact Leads.cons (by decide) (leads_nil _)

theorem leads_spellItems : (items : List Value) → Leads .outside (spellItems items) .outside
  | [] => leads_nil _
  | [item] => leads_spell item
  | item :: next :: rest => by
      rw [spellItems_cons]
      exact (leads_spell item).append (Leads.cons (by decide) (leads_spellItems (next :: rest)))

theorem leads_spellMembers :
    (members : List (String × Value)) → Leads .outside (spellMembers members) .outside
  | [] => leads_nil _
  | [(name, value)] => (leads_spellText name).append (Leads.cons (by decide) (leads_spell value))
  | (name, value) :: next :: rest => by
      rw [spellMembers_cons]
      refine (leads_spellText name).append (Leads.cons (by decide) ((leads_spell value).append ?_))
      exact Leads.cons (by decide) (leads_spellMembers (next :: rest))

end

end Value

/-! ## Wide line boundaries -/

theorem isLineBreak_eq_isWideBreak {c : Char} (h : 0x20 ≤ c.toNat) :
    Text.isLineBreak c = isWideBreak c := by
  have hchar (d : Char) : (c == d) = (c.toNat == d.toNat) := by
    rw [Bool.eq_iff_iff, beq_iff_eq, beq_iff_eq]
    exact ⟨fun h => congrArg Char.toNat h, fun h => Char.toNat_inj.mp h⟩
  rw [isWideBreak, hchar, hchar, hchar, Text.isLineBreak, Bool.eq_iff_iff]
  simp only [Bool.or_eq_true, Bool.and_eq_true, decide_eq_true_eq, beq_iff_eq]
  have h₁ : '\u0085'.toNat = 0x85 := by decide
  have h₂ : '\u2028'.toNat = 0x2028 := by decide
  have h₃ : '\u2029'.toNat = 0x2029 := by decide
  omega

theorem all_spellChar (c : Char) : (spellChar c).all (!Text.isLineBreak ·) = !isWideBreak c := by
  rcases spellChar_cases c with ⟨letter, hc, -, -, hletter, hwide⟩ | ⟨hc, hcontrol⟩ | ⟨hc, -, -, hcontrol⟩
  · rw [hc, hwide]
    simp only [List.all_cons, List.all_nil, hletter]
    decide
  · rw [hc]
    have hwide : isWideBreak c = false := by
      have hne (d : Char) (hd : 0x20 ≤ d.toNat) : (c == d) = false := by
        rw [beq_eq_false_iff_ne]
        rintro rfl
        omega
      rw [isWideBreak, hne _ (by decide), hne _ (by decide), hne _ (by decide)]
      rfl
    rw [all_unitEscape _ hcontrol, hwide]
    rfl
  · rw [hc, ← isLineBreak_eq_isWideBreak hcontrol]
    simp only [List.all_cons, List.all_nil, Bool.and_true]

theorem all_spellText (s : String) :
    (spellText s).all (!Text.isLineBreak ·) = isUnbrokenText s := by
  have hchars : (s.toList.flatMap spellChar).all (!Text.isLineBreak ·)
      = s.toList.all (!isWideBreak ·) := by
    induction s.toList with
    | nil => rfl
    | cons c cs ih => rw [List.flatMap_cons, List.all_append, all_spellChar, ih, List.all_cons]
  rw [spellText, List.all_cons, List.all_append, hchars, isUnbrokenText]
  have hquote : Text.isLineBreak '"' = false := by decide
  simp only [hquote, List.all_cons, List.all_nil, Bool.not_false, Bool.and_true, Bool.true_and]

namespace Value

mutual

theorem all_spell : (v : Value) → v.spell.all (!Text.isLineBreak ·) = v.isUnbroken
  | .null => by decide
  | .number n => all_digits n
  | .text s => all_spellText s
  | .list items => by
      have hopen : Text.isLineBreak '[' = false := by decide
      have hclose : Text.isLineBreak ']' = false := by decide
      simp only [spell, List.all_cons, List.all_append, List.all_nil, all_spellItems items, hopen,
        hclose, isUnbroken, Bool.not_false, Bool.and_true, Bool.true_and]
  | .object members => by
      have hopen : Text.isLineBreak '\x7b' = false := by decide
      have hclose : Text.isLineBreak '\x7d' = false := by decide
      simp only [spell, List.all_cons, List.all_append, List.all_nil, all_spellMembers members, hopen,
        hclose, isUnbroken, Bool.not_false, Bool.and_true, Bool.true_and]

theorem all_spellItems :
    (items : List Value) → (spellItems items).all (!Text.isLineBreak ·) = areUnbroken items
  | [] => rfl
  | [item] => by simp only [spellItems, all_spell item, areUnbroken, Bool.and_true]
  | item :: next :: rest => by
      have hcomma : Text.isLineBreak ',' = false := by decide
      rw [spellItems_cons, List.all_append, List.all_cons, all_spell item,
        all_spellItems (next :: rest), hcomma]
      simp only [areUnbroken, Bool.not_false, Bool.true_and]

theorem all_spellMembers : (members : List (String × Value)) →
    (spellMembers members).all (!Text.isLineBreak ·) = areUnbrokenMembers members
  | [] => rfl
  | [(name, value)] => by
      have hcolon : Text.isLineBreak ':' = false := by decide
      simp only [spellMembers, List.all_append, List.all_cons, all_spellText, all_spell value, hcolon,
        areUnbrokenMembers, Bool.not_false, Bool.true_and, Bool.and_true]
  | (name, value) :: next :: rest => by
      have hcolon : Text.isLineBreak ':' = false := by decide
      have hcomma : Text.isLineBreak ',' = false := by decide
      rw [spellMembers_cons, List.all_append, List.all_cons, List.all_append,
        List.all_cons, all_spellText, all_spell value, all_spellMembers (next :: rest), hcolon, hcomma]
      simp only [areUnbrokenMembers, Bool.not_false, Bool.true_and, Bool.and_assoc]

end

end Value

end SourceNavigator.Json
