import SourceNavigator.Proofs.Json.Layout

set_option autoImplicit false

/-! # Reading a layout

The readers of strings and numbers get back what their texts stand for, whichever way these were put
down (`readString_glyphs`, `readScalar_numeral`). By induction on the layout the same holds of every
value that can be read within the bounds on nesting and digits, and all others are refused
(`readValue_text`). So `parse_text` says what becomes of a whole text: the white space, the escapes and
the other choices of its writer do not matter.
-/

namespace SourceNavigator.Json

open Data (Datum)

/-! ## Outcomes -/

/-- The outcome of reading what stands for `a` before `rest`, if it is `possible` to read it. -/
def Reads {α : Type} (result : Except Stop (α × List Char)) (possible : Bool) (a : α)
    (rest : List Char) : Prop :=
  match possible with
  | true => result = .ok (a, rest)
  | false => ∃ stop, result = .error stop

theorem Reads.eq_ok {α : Type} {result : Except Stop (α × List Char)} {a : α} {rest : List Char}
    (h : Reads result true a rest) : result = .ok (a, rest) := h

theorem Reads.map {α β : Type} {result : Except Stop (α × List Char)} {possible : Bool} {a : α}
    {rest : List Char} (h : Reads result possible a rest) (f : α → β) :
    Reads (result.map fun (a, rest) => (f a, rest)) possible (f a) rest := by
  cases possible with
  | true =>
      rw [h.eq_ok]
      rfl
  | false =>
      obtain ⟨stop, rfl⟩ := h
      exact ⟨stop, rfl⟩

/-! ## White space -/

theorem isWhite_char (w : White) : isWhite w.char = true := by
  cases w <;> rfl

theorem skipWhite_cons {c : Char} (h : isWhite c = false) (cs : List Char) :
    skipWhite (c :: cs) = c :: cs := by
  rw [skipWhite, List.dropWhile_cons, h]
  rfl

theorem skipWhite_gap (g : Gap) (cs : List Char) : skipWhite (g.text ++ cs) = skipWhite cs := by
  induction g with
  | nil => rfl
  | cons w g ih =>
      show skipWhite (w.char :: (Gap.text g ++ cs)) = _
      rw [skipWhite, List.dropWhile_cons, isWhite_char]
      exact ih

/-- What can follow a value: nothing, white space, a comma or a closing bracket. -/
def Follows (rest : List Char) : Prop :=
  ∀ c ∈ rest.head?, isWhite c = true ∨ c = ',' ∨ c = ']' ∨ c = '\x7d'

theorem follows_nil : Follows [] := fun _ h => by cases h

theorem follows_cons {c : Char} (h : c = ',' ∨ c = ']' ∨ c = '\x7d') (rest : List Char) :
    Follows (c :: rest) := by
  intro d hd
  cases hd
  exact Or.inr h

theorem follows_gap (g : Gap) {rest : List Char} (h : Follows rest) : Follows (g.text ++ rest) := by
  cases g with
  | nil => exact h
  | cons w g =>
      intro d hd
      cases hd
      exact Or.inl (isWhite_char w)

/-- A character that can follow a value is not part of a number. -/
theorem Follows.head {rest : List Char} (h : Follows rest) {c : Char} (hc : c ∈ rest.head?) :
    c.isDigit = false ∧ c ≠ '.' ∧ c ≠ 'e' ∧ c ≠ 'E' := by
  have hwhite (hc : isWhite c = true) : c = ' ' ∨ c = '\t' ∨ c = '\n' ∨ c = '\r' := by
    simpa [isWhite, or_assoc] using hc
  rcases (h c hc).imp_left hwhite with (rfl | rfl | rfl | rfl) | rfl | rfl | rfl
  all_goals decide

/-! ## Strings -/

theorem hexValue?_char (d : HexDigit) : hexValue? d.char = some d.value.val := by
  obtain ⟨value, isCapital⟩ := d
  revert value isCapital
  decide

theorem hexFour?_char (a b c d : HexDigit) :
    hexFour? a.char b.char c.char d.char = some (unitValue a b c d) := by
  simp only [hexFour?, hexValue?_char]
  rfl

theorem escapes_simple : ∀ entry ∈ escapes, simpleEscape? entry.2 = some entry.1 ∧ entry.2 ≠ 'u' := by
  decide

theorem isPlain_cases {c : Char} (h : isPlain c = true) : c ≠ '"' ∧ c ≠ '\\' ∧ 0x20 ≤ c.toNat := by
  simpa [isPlain, and_assoc] using h

theorem unit_append (a b c d : HexDigit) (cs : List Char) :
    (Glyph.unit a b c d).text ++ cs = '\\' :: 'u' :: a.char :: b.char :: c.char :: d.char :: cs := rfl

theorem readEscape_unit (start : List Char) (a b c d : HexDigit) {cs : List Char} (hcs : cs ≠ []) :
    readEscape start ('u' :: a.char :: b.char :: c.char :: d.char :: cs)
      = if Text.isHighHalf (unitValue a b c d) then readLowHalf (unitValue a b c d) cs
        else .ok (unitValue a b c d, cs) := by
  -- four digits are only taken for an escape if something follows them
  obtain ⟨first, rest, rfl⟩ := List.exists_cons_of_ne_nil hcs
  rw [readEscape, if_pos rfl, readUnit, hexFour?_char]

/-- A first half is joined with a unit that follows it if that is a second half. -/
theorem readLowHalf_unit (high : Nat) (a b c d : HexDigit) {cs : List Char} (hcs : cs ≠ []) :
    readLowHalf high ('\\' :: 'u' :: a.char :: b.char :: c.char :: d.char :: cs)
      = if Text.isLowHalf (unitValue a b c d) then .ok (Text.pairPoint high (unitValue a b c d), cs)
        else .ok (high, '\\' :: 'u' :: a.char :: b.char :: c.char :: d.char :: cs) := by
  obtain ⟨first, rest, rfl⟩ := List.exists_cons_of_ne_nil hcs
  rw [readLowHalf, hexFour?_char]

/-- A first half stands for itself if no unit follows it. -/
theorem readLowHalf_alone (high : Nat) {cs : List Char} (h : ∀ more, cs ≠ '\\' :: 'u' :: more) :
    readLowHalf high cs = .ok (high, cs) := by
  unfold readLowHalf
  split
  · exact absurd rfl (h _)
  · rfl

theorem glyphsText_cons (g : Glyph) (gs : List Glyph) : glyphsText (g :: gs) = g.text ++ glyphsText gs :=
  List.flatMap_cons

theorem quoted_ne_nil (gs : List Glyph) (rest : List Char) : glyphsText gs ++ '"' :: rest ≠ [] := by
  simp

/-- A unit that is no first half, or that no second half follows, stands for itself. -/
theorem readString_unit (start : List Char) (a b c d : HexDigit) {cs : List Char} (hcs : cs ≠ [])
    (h : Text.isHighHalf (unitValue a b c d) = true →
      readLowHalf (unitValue a b c d) cs = .ok (unitValue a b c d, cs)) :
    readString start ((Glyph.unit a b c d).text ++ cs)
      = (readString start cs).map fun (text, after) => (unitValue a b c d :: text, after) := by
  rw [unit_append]
  refine readString_escape ?_
  rw [readEscape_unit start a b c d hcs]
  split
  · rename_i hhigh
    exact h hhigh
  · rfl

/-- Two units that are the halves of a pair stand for the code point of the pair. -/
theorem readString_pair (start : List Char) {a b c d a' b' c' d' : HexDigit} {cs : List Char}
    (hcs : cs ≠ []) (hhigh : Text.isHighHalf (unitValue a b c d) = true)
    (hlow : Text.isLowHalf (unitValue a' b' c' d') = true) :
    readString start ((Glyph.unit a b c d).text ++ ((Glyph.unit a' b' c' d').text ++ cs))
      = (readString start cs).map fun (text, after) =>
          (Text.pairPoint (unitValue a b c d) (unitValue a' b' c' d') :: text, after) := by
  rw [unit_append, unit_append]
  refine readString_escape ?_
  have hmore : '\\' :: 'u' :: a'.char :: b'.char :: c'.char :: d'.char :: cs ≠ [] :=
    List.cons_ne_nil _ _
  rw [readEscape_unit start a b c d hmore, if_pos hhigh, readLowHalf_unit _ a' b' c' d' hcs,
    if_pos hlow]

/-- **A string is read whichever way it is written.** -/
theorem readString_glyphs (start : List Char) (gs : List Glyph) (rest : List Char) :
    readString start (glyphsText gs ++ '"' :: rest) = .ok (pointsOf gs, rest) := by
  induction gs using pointsOf.induct with
  | case1 => rw [glyphsText, List.flatMap_nil, List.nil_append, readString, if_pos rfl, pointsOf]
  | case2 c hc gs ih =>
      obtain ⟨hquote, hslash, hcontrol⟩ := isPlain_cases hc
      rw [glyphsText_cons, List.append_assoc]
      show readString start (c :: (glyphsText gs ++ '"' :: rest)) = _
      rw [readString_raw hquote hslash hcontrol, ih, pointsOf]
      rfl
  | case3 entry hentry gs ih =>
      -- an escape of one letter
      obtain ⟨hsimple, hu⟩ := escapes_simple entry hentry
      have hescape : readEscape start (entry.2 :: (glyphsText gs ++ '"' :: rest))
          = .ok (entry.1.toNat, glyphsText gs ++ '"' :: rest) := by
        rw [readEscape, if_neg hu, hsimple]
      rw [glyphsText_cons, List.append_assoc]
      show readString start ('\\' :: (entry.2 :: (glyphsText gs ++ '"' :: rest))) = _
      rw [readString_escape hescape, ih, pointsOf]
      rfl
  | case4 a b c d a' b' c' d' gs hpair ih =>
      -- two units that are the halves of a pair
      obtain ⟨hhigh, hlow⟩ := Bool.and_eq_true_iff.mp hpair
      rw [glyphsText_cons, glyphsText_cons, List.append_assoc, List.append_assoc, pointsOf,
        if_pos hpair, readString_pair start (quoted_ne_nil gs rest) hhigh hlow, ih]
      rfl
  | case5 a b c d a' b' c' d' gs hpair ih =>
      -- two units that are no pair: the first stands for itself
      rw [glyphsText_cons, List.append_assoc, pointsOf, if_neg hpair,
        readString_unit start a b c d (quoted_ne_nil _ rest), ih]
      · rfl
      · intro hhigh
        have hlow : ¬ Text.isLowHalf (unitValue a' b' c' d') = true := by
          rw [hhigh, Bool.true_and] at hpair
          exact hpair
        rw [glyphsText_cons, List.append_assoc, unit_append,
          readLowHalf_unit _ a' b' c' d' (quoted_ne_nil gs rest), if_neg hlow]
  | case6 a b c d gs hno ih =>
      -- a unit that no unit follows
      have hpoints : pointsOf (.unit a b c d :: gs) = unitValue a b c d :: pointsOf gs := by
        rw [pointsOf]
        exact hno
      rw [glyphsText_cons, List.append_assoc, hpoints,
        readString_unit start a b c d (quoted_ne_nil _ rest), ih]
      · rfl
      · intro hhigh
        refine readLowHalf_alone _ fun more hmore => ?_
        cases gs with
        | nil => cases hmore
        | cons g gs =>
            cases g with
            | plain c hc =>
                exact (isPlain_cases hc).2.1 (List.cons.inj hmore).1
            | letter entry hentry =>
                exact (escapes_simple entry hentry).2 (List.cons.inj (List.cons.inj hmore).2).1
            | unit a' b' c' d' => exact hno _ _ _ _ _ rfl

theorem stringText_append (gs : List Glyph) (cs : List Char) :
    stringText gs ++ cs = '"' :: (glyphsText gs ++ '"' :: cs) := by
  rw [stringText, List.cons_append, List.append_assoc]
  rfl

/-! ## Numbers -/

theorem digitChar_ne_zero : ∀ n < 10, 0 < n → n.digitChar ≠ '0' := by decide

/-- A positive number does not start with a zero. -/
theorem toDigits_head {n : Nat} (h : 0 < n) : ∃ c cs, Nat.toDigits 10 n = c :: cs ∧ c ≠ '0' := by
  induction n using Nat.strong_induction_on with
  | _ n ih =>
      by_cases hsmall : n < 10
      · exact ⟨_, [], Nat.toDigits_of_lt_base hsmall, digitChar_ne_zero n hsmall h⟩
      · obtain ⟨c, cs, hhead, hc⟩ := ih (n / 10) (by omega) (by omega)
        rw [Nat.toDigits_of_base_le (by decide) (Nat.not_lt.mp hsmall), hhead]
        exact ⟨c, _, rfl, hc⟩

theorem isDigit_of_mem_toDigits {n : Nat} {c : Char} (h : c ∈ Nat.toDigits 10 n) :
    c.isDigit = true :=
  Nat.isDigit_of_mem_toDigits (by decide) (by decide) h

theorem exists_digit (n : Nat) : ∃ c cs, Nat.toDigits 10 n = c :: cs ∧ c.isDigit = true := by
  obtain ⟨c, cs, hdigits⟩ := List.exists_cons_of_ne_nil (Nat.toDigits_ne_nil (n := n) (b := 10))
  refine ⟨c, cs, hdigits, isDigit_of_mem_toDigits (n := n) ?_⟩
  rw [hdigits]
  exact List.mem_cons_self

theorem digitsValue_toDigits (n : Nat) : digitsValue (Nat.toDigits 10 n) = n :=
  Nat.ofDigitChars_ten_toDigits

theorem isDigit_digitsText (ds : List (Fin 10)) : ∀ c ∈ digitsText ds, c.isDigit = true := by
  have hdigit : ∀ d : Fin 10, (Nat.digitChar d).isDigit = true := by decide
  intro c hc
  obtain ⟨d, -, rfl⟩ := List.mem_map.mp hc
  exact hdigit d

/-- The text does not go on with a digit. -/
def NoDigit (rest : List Char) : Prop := ∀ c ∈ rest.head?, c.isDigit = false

/-- Digits are taken as far as they go. -/
theorem span_digits {ds rest : List Char} (hds : ∀ c ∈ ds, c.isDigit = true) (hrest : NoDigit rest) :
    (ds ++ rest).takeWhile Char.isDigit = ds ∧ (ds ++ rest).dropWhile Char.isDigit = rest := by
  have hstop : rest.takeWhile Char.isDigit = [] ∧ rest.dropWhile Char.isDigit = rest := by
    cases rest with
    | nil => exact ⟨rfl, rfl⟩
    | cons c cs =>
        have hc : c.isDigit = false := hrest c rfl
        exact ⟨by rw [List.takeWhile_cons, hc]; rfl, by rw [List.dropWhile_cons, hc]; rfl⟩
  rw [List.takeWhile_append_of_pos hds, List.dropWhile_append_of_pos hds, hstop.1, hstop.2,
    List.append_nil]
  exact ⟨rfl, rfl⟩

theorem readWhole_digits (n : Nat) {rest : List Char} (h : NoDigit rest) :
    readWhole (Nat.toDigits 10 n ++ rest) = some (Nat.toDigits 10 n, rest) := by
  by_cases hn : n = 0
  · subst hn
    rfl
  · obtain ⟨c, cs, hdigits, hc⟩ := toDigits_head (Nat.pos_of_ne_zero hn)
    have hall : ∀ d ∈ c :: cs, d.isDigit = true := fun d hd =>
      isDigit_of_mem_toDigits (n := n) (hdigits ▸ hd)
    obtain ⟨htake, hdrop⟩ := span_digits (fun d hd => hall d (List.mem_cons_of_mem _ hd)) h
    rw [hdigits, List.cons_append, readWhole, if_neg hc, if_pos (hall c List.mem_cons_self), htake,
      hdrop]

theorem readFraction_none {rest : List Char} (h : ∀ c ∈ rest.head?, c ≠ '.') :
    readFraction rest = none := by
  unfold readFraction
  split
  · exact absurd rfl (h '.' rfl)
  · rfl

theorem readFraction_digits (d : Fin 10) (ds : List (Fin 10)) {rest : List Char} (h : NoDigit rest) :
    readFraction ('.' :: (digitsText (d :: ds) ++ rest)) = some (digitsText (d :: ds), rest) := by
  have hfirst : (Nat.digitChar d).isDigit = true :=
    isDigit_digitsText (d :: ds) _ List.mem_cons_self
  obtain ⟨htake, hdrop⟩ := span_digits (isDigit_digitsText ds) h
  show readFraction ('.' :: Nat.digitChar d :: (digitsText ds ++ rest)) = _
  rw [readFraction, if_pos hfirst, htake, hdrop]
  rfl

theorem readExponent_none {rest : List Char} (h : ∀ c ∈ rest.head?, c ≠ 'e' ∧ c ≠ 'E') :
    readExponent rest = none := by
  cases rest with
  | nil => rfl
  | cons c cs =>
      obtain ⟨hsmall, hcapital⟩ := h c rfl
      rw [readExponent, if_neg (fun hor => hor.elim hsmall hcapital)]

theorem readSign_digits (sign : Option Bool) (d : Fin 10) (cs : List Char) :
    Text.readSign (signText sign ++ Nat.digitChar d :: cs)
      = (sign == some true, Nat.digitChar d :: cs) := by
  rcases sign with _ | _ | _
  · have hdigit : ∀ d : Fin 10, Nat.digitChar d ≠ '-' ∧ Nat.digitChar d ≠ '+' := by decide
    show Text.readSign (Nat.digitChar d :: cs) = _
    unfold Text.readSign
    split
    · rename_i h
      exact absurd (List.cons.inj h).1 (hdigit d).1
    · rename_i h
      exact absurd (List.cons.inj h).1 (hdigit d).2
    · rfl
  · rfl
  · rfl

theorem mark_cases (e : Exponent) : e.mark = 'e' ∨ e.mark = 'E' := by
  unfold Exponent.mark
  split
  · exact Or.inr rfl
  · exact Or.inl rfl

theorem readExponent_text (e : Exponent) {rest : List Char} (h : NoDigit rest) :
    readExponent (e.text ++ rest) = some (e.value, rest) := by
  obtain ⟨htake, hdrop⟩ := span_digits (isDigit_digitsText (e.first :: e.more)) h
  have hsign : Text.readSign (signText e.sign ++ (digitsText (e.first :: e.more) ++ rest))
      = (e.sign == some true, digitsText (e.first :: e.more) ++ rest) :=
    readSign_digits e.sign e.first (digitsText e.more ++ rest)
  rw [Exponent.text, List.cons_append, readExponent, if_pos (mark_cases e), List.append_assoc, hsign]
  simp only [spanDigits, htake, hdrop]
  rfl

theorem words_start : ∀ entry ∈ words, (entry.1.toList.take 2).map Char.isDigit = [false, false] := by
  decide

/-- No word has a digit as one of its first two characters. -/
theorem readWord_digit {cs : List Char} (h : (cs.take 2).any Char.isDigit = true) :
    readWord cs = none := by
  refine List.findSome?_eq_none_iff.mpr fun entry hentry => ?_
  have hword : entry.1.toList.isPrefixOf cs = false := by
    rw [← Bool.not_eq_true, List.isPrefixOf_iff_prefix]
    rintro ⟨rest, rfl⟩
    -- a word that stands there would give two characters that are no digits
    have hstart := words_start entry hentry
    have hlength : 2 ≤ entry.1.toList.length := by
      have hmap := congrArg List.length hstart
      rw [List.length_map, List.length_take] at hmap
      simp only [List.length_cons, List.length_nil] at hmap
      omega
    have hany : (entry.1.toList.take 2).any Char.isDigit
        = ((entry.1.toList.take 2).map Char.isDigit).any id := by
      rw [List.any_map]
      rfl
    rw [List.take_append_of_le_length hlength, hany, hstart] at h
    cases h
  simp only [hword, Bool.false_eq_true, if_false]

theorem readScalar_of_digit {c : Char} (h : c.isDigit = true) (cs : List Char) :
    readScalar (c :: cs) = readNumber false (c :: cs) (c :: cs) := by
  unfold readScalar
  rw [readWord_digit (by cases cs <;> simp [h])]
  split
  · rename_i hword
    cases hword
  · split
    · rename_i hminus
      obtain ⟨rfl, -⟩ := List.cons.inj hminus
      exact absurd h (by decide)
    · rfl

/-- The only word with a sign goes on with a letter. -/
theorem readScalar_of_minus {c : Char} (h : c.isDigit = true) (cs : List Char) :
    readScalar ('-' :: c :: cs) = readNumber true ('-' :: c :: cs) (c :: cs) := by
  have hword : readWord ('-' :: c :: cs) = none := readWord_digit (by simp [h])
  unfold readScalar
  rw [hword]
  rfl

section Numerals

variable (n : Numeral) {rest : List Char}

theorem noDigit_exponent (h : NoDigit rest) : NoDigit (n.exponentText ++ rest) := by
  unfold Numeral.exponentText
  cases n.exponent with
  | none => exact h
  | some e =>
      intro c hc
      cases hc
      rcases mark_cases e with hmark | hmark
      · rw [hmark]
        decide
      · rw [hmark]
        decide

theorem noDigit_fraction (h : NoDigit rest) : NoDigit (n.fractionText ++ rest) := by
  unfold Numeral.fractionText
  split
  · exact h
  · intro c hc
    cases hc
    decide

/-- The point and the digits behind it are read, or nothing. -/
theorem readFraction_text (h : Follows rest) :
    (readFraction (n.fractionText ++ (n.exponentText ++ rest))).getD
        ([], n.fractionText ++ (n.exponentText ++ rest))
      = (digitsText n.fraction, n.exponentText ++ rest) := by
  have hend : NoDigit rest := fun c hc => (h.head hc).1
  unfold Numeral.fractionText
  cases hfraction : n.fraction with
  | nil =>
      have hnone : readFraction (n.exponentText ++ rest) = none := by
        refine readFraction_none fun c hc => ?_
        unfold Numeral.exponentText at hc
        cases hexponent : n.exponent with
        | none =>
            rw [hexponent] at hc
            exact (h.head hc).2.1
        | some e =>
            rw [hexponent] at hc
            cases hc
            rcases mark_cases e with hmark | hmark
            · rw [hmark]
              decide
            · rw [hmark]
              decide
      show (readFraction (n.exponentText ++ rest)).getD ([], n.exponentText ++ rest) = _
      rw [hnone]
      rfl
  | cons d ds =>
      show (readFraction ('.' :: (digitsText (d :: ds) ++ (n.exponentText ++ rest)))).getD _ = _
      rw [readFraction_digits d ds (noDigit_exponent n hend)]
      rfl

theorem readNumber_numeral (start : List Char) (h : Follows rest) :
    Reads (readNumber n.isNegative start (n.unsignedText ++ rest)) n.isReadable n.datum rest := by
  have hend : NoDigit rest := fun c hc => (h.head hc).1
  have hwhole : readWhole (n.unsignedText ++ rest)
      = some (Nat.toDigits 10 n.whole, n.fractionText ++ (n.exponentText ++ rest)) := by
    rw [Numeral.unsignedText, List.append_assoc, List.append_assoc]
    exact readWhole_digits n.whole (noDigit_fraction n (noDigit_exponent n hend))
  have hlength : (digitsText n.fraction).length = n.fraction.length := List.length_map ..
  have hempty : (digitsText n.fraction).isEmpty = n.fraction.isEmpty := by
    rw [digitsText, List.isEmpty_map]
  unfold readNumber
  rw [hwhole]
  simp only [readFraction_text n h, hlength, hempty]
  unfold Numeral.exponentText Numeral.isReadable Numeral.datum Numeral.digits
  cases n.exponent with
  | some e =>
      simp only [readExponent_text e hend]
      rfl
  | none =>
      rw [List.nil_append]
      simp only [readExponent_none fun c hc => (h.head hc).2.2]
      cases n.fraction.isEmpty with
      | false => rfl
      | true =>
          -- only here the number is a whole one, and its length counts
          rw [digitsValue_toDigits]
          by_cases hlong : Text.maxDigits < (Nat.toDigits 10 n.whole).length
          · rw [decide_eq_false (Nat.not_le.mpr hlong)]
            simp only [Bool.not_true, Bool.false_eq_true, if_false, if_pos hlong]
            exact ⟨_, rfl⟩
          · rw [decide_eq_true (Nat.not_lt.mp hlong)]
            simp only [Bool.not_true, Bool.false_eq_true, if_false, if_neg hlong, if_true]
            rfl

theorem exists_unsignedText : ∃ c cs, n.unsignedText = c :: cs ∧ c.isDigit = true := by
  obtain ⟨c, cs, hdigits, hc⟩ := exists_digit n.whole
  exact ⟨c, cs ++ (n.fractionText ++ n.exponentText), by rw [Numeral.unsignedText, hdigits]; rfl, hc⟩

/-- **A number is read whichever way it is put down.** -/
theorem readScalar_numeral (h : Follows rest) :
    Reads (readScalar (n.text ++ rest)) n.isReadable n.datum rest := by
  obtain ⟨c, cs, hunsigned, hc⟩ := exists_unsignedText n
  have hread := readNumber_numeral n (n.text ++ rest) h
  unfold Numeral.text at hread ⊢
  rw [hunsigned] at hread ⊢
  cases hsign : n.isNegative with
  | false =>
      rw [hsign] at hread
      rw [if_neg (by decide)] at hread ⊢
      rw [List.cons_append] at hread ⊢
      rw [readScalar_of_digit hc]
      exact hread
  | true =>
      rw [hsign] at hread
      rw [if_pos rfl] at hread ⊢
      rw [List.cons_append, List.cons_append] at hread ⊢
      rw [readScalar_of_minus hc]
      exact hread

end Numerals

/-! ## Starts -/

/-- What a value can start with. -/
def isStart (c : Char) : Bool :=
  c.isDigit || c == '-' || c == 'n' || c == 't' || c == 'f' || c == '"' || c == '[' || c == '\x7b'

theorem isStart_cases {c : Char} (h : isStart c = true) :
    isWhite c = false ∧ c ≠ ']' ∧ c ≠ '\x7d' ∧ c ≠ '\uFEFF' := by
  have hne (d : Char) (hd : isStart d = false) : c ≠ d := by
    rintro rfl
    rw [h] at hd
    cases hd
  refine ⟨?_, hne _ (by decide), hne _ (by decide), hne _ (by decide)⟩
  simp only [isWhite, hne ' ' (by decide), hne '\t' (by decide), hne '\n' (by decide),
    hne '\r' (by decide), decide_false, Bool.or_false]

theorem Numeral.text_head (n : Numeral) :
    ∃ c cs, n.text = c :: cs ∧ (c.isDigit = true ∨ c = '-') := by
  unfold Numeral.text
  cases n.isNegative with
  | true => exact ⟨'-', n.unsignedText, rfl, Or.inr rfl⟩
  | false =>
      obtain ⟨c, cs, hunsigned, hc⟩ := exists_unsignedText n
      exact ⟨c, cs, hunsigned, Or.inl hc⟩

namespace Layout

theorem text_head (v : Layout) : ∃ c cs, v.text = c :: cs ∧ isStart c = true := by
  cases v with
  | null => exact ⟨'n', _, rfl, by decide⟩
  | bool b =>
      cases b with
      | true => exact ⟨'t', _, rfl, by decide⟩
      | false => exact ⟨'f', _, rfl, by decide⟩
  | number n =>
      obtain ⟨c, cs, htext, hc⟩ := n.text_head
      refine ⟨c, cs, htext, ?_⟩
      rcases hc with hc | rfl
      · simp [isStart, hc]
      · decide
  | string gs => exact ⟨'"', _, rfl, by decide⟩
  | list inner items => exact ⟨'[', _, rfl, by decide⟩
  | object inner members => exact ⟨'\x7b', _, rfl, by decide⟩

theorem length_text_pos (v : Layout) : 0 < v.text.length := by
  obtain ⟨c, cs, htext, -⟩ := v.text_head
  rw [htext, List.length_cons]
  omega

theorem skipWhite_text (v : Layout) (rest : List Char) :
    skipWhite (v.text ++ rest) = v.text ++ rest := by
  obtain ⟨c, cs, htext, hc⟩ := v.text_head
  rw [htext, List.cons_append, skipWhite_cons (isStart_cases hc).1]

/-- The items of a list go on with a value. -/
theorem skipWhite_itemsText (item : Slot × Layout) (items : List (Slot × Layout)) (rest : List Char) :
    ∃ c cs, skipWhite (itemsText (item :: items) ++ rest) = c :: cs ∧ isStart c = true := by
  obtain ⟨slot, v⟩ := item
  obtain ⟨c, cs, htext, hc⟩ := v.text_head
  cases items with
  | nil =>
      refine ⟨c, cs ++ (slot.after.text ++ rest), ?_, hc⟩
      rw [itemsText, List.append_assoc, skipWhite_gap, List.append_assoc, skipWhite_text, htext]
      rfl
  | cons next items =>
      refine ⟨c, cs ++ (slot.after.text ++ (',' :: itemsText (next :: items) ++ rest)), ?_, hc⟩
      rw [itemsText_cons, List.append_assoc, skipWhite_gap, List.append_assoc, skipWhite_text, htext,
        List.append_assoc]
      rfl

theorem membersText_label (member : Label × Layout) (members : List (Label × Layout)) :
    ∃ cs, membersText (member :: members) = member.1.text ++ cs := by
  cases members with
  | nil => exact ⟨_, rfl⟩
  | cons next rest => exact ⟨_, membersText_cons member.1 member.2 next rest⟩

/-- The members of an object go on with a name. -/
theorem skipWhite_label (label : Label) (rest : List Char) :
    skipWhite (label.text ++ rest) = '"' :: (glyphsText label.name ++
      '"' :: (label.beforeColon.text ++ ':' :: (label.afterColon.text ++ rest))) := by
  rw [Label.text, List.append_assoc, skipWhite_gap, List.append_assoc, stringText_append,
    skipWhite_cons (by decide), List.append_assoc, List.cons_append]

end Layout

/-! ## One step of a reader -/

section Steps

variable {fuel room : Nat} {cs rest after : List Char} {d : Datum} {possible others : Bool}

theorem Reads.lastItem (g : Gap) (h : Reads (readValue fuel room cs) possible d (g.text ++ ']' :: rest)) :
    Reads (readItems (fuel + 1) room cs) possible [d] rest := by
  rw [readItems]
  cases possible with
  | true =>
      rw [h.eq_ok]
      simp only [skipWhite_gap, skipWhite_cons (c := ']') (by decide)]
      rfl
  | false =>
      obtain ⟨stop, hstop⟩ := h
      rw [hstop]
      exact ⟨stop, rfl⟩

theorem Reads.moreItems (g : Gap) {ds : List Datum}
    (h : Reads (readValue fuel room cs) possible d (g.text ++ ',' :: rest))
    (hrest : Reads (readItems fuel room (skipWhite rest)) others ds after) :
    Reads (readItems (fuel + 1) room cs) (possible && others) (d :: ds) after := by
  rw [readItems]
  cases possible with
  | true =>
      rw [h.eq_ok]
      simp only [skipWhite_gap, skipWhite_cons (c := ',') (by decide)]
      exact hrest.map (d :: ·)
  | false =>
      obtain ⟨stop, hstop⟩ := h
      rw [hstop]
      exact ⟨stop, rfl⟩

/-- The value of a member is read behind its name and the colon. -/
theorem readMembers_label (label : Label) (v : Layout) :
    readMembers (fuel + 1) room (skipWhite (label.text ++ (v.text ++ rest)))
      = match readValue fuel room (v.text ++ rest) with
        | .error stop => .error stop
        | .ok (value, rest) =>
          match skipWhite rest with
          | '\x7d' :: after => .ok ([(Datum.ofPoints (pointsOf label.name), value)], after)
          | ',' :: after =>
            (readMembers fuel room (skipWhite after)).map fun (entries, after) =>
              ((Datum.ofPoints (pointsOf label.name), value) :: entries, after)
          | place => .error (.fault .expectingComma place) := by
  rw [Layout.skipWhite_label, readMembers, readString_glyphs]
  simp only [skipWhite_gap, skipWhite_cons (c := ':') (by decide)]
  rewrite [v.skipWhite_text]
  rfl

theorem Reads.lastMember (label : Label) {v : Layout} (g : Gap)
    (h : Reads (readValue fuel room (v.text ++ cs)) possible d (g.text ++ '\x7d' :: rest)) :
    Reads (readMembers (fuel + 1) room (skipWhite (label.text ++ (v.text ++ cs)))) possible
      [(Datum.ofPoints (pointsOf label.name), d)] rest := by
  rw [readMembers_label]
  cases possible with
  | true =>
      rw [h.eq_ok]
      simp only [skipWhite_gap, skipWhite_cons (c := '\x7d') (by decide)]
      rfl
  | false =>
      obtain ⟨stop, hstop⟩ := h
      rw [hstop]
      exact ⟨stop, rfl⟩

theorem Reads.moreMembers (label : Label) {v : Layout} (g : Gap) {ds : List (Datum × Datum)}
    (h : Reads (readValue fuel room (v.text ++ cs)) possible d (g.text ++ ',' :: rest))
    (hrest : Reads (readMembers fuel room (skipWhite rest)) others ds after) :
    Reads (readMembers (fuel + 1) room (skipWhite (label.text ++ (v.text ++ cs))))
      (possible && others) ((Datum.ofPoints (pointsOf label.name), d) :: ds) after := by
  rw [readMembers_label]
  cases possible with
  | true =>
      rw [h.eq_ok]
      simp only [skipWhite_gap, skipWhite_cons (c := ',') (by decide)]
      exact hrest.map ((Datum.ofPoints (pointsOf label.name), d) :: ·)
  | false =>
      obtain ⟨stop, hstop⟩ := h
      rw [hstop]
      exact ⟨stop, rfl⟩

theorem readValue_list (inner : Gap) (item : Slot × Layout) (items : List (Slot × Layout))
    (hroom : room ≠ 0) :
    readValue (fuel + 1) room ('[' :: (inner.text ++ (Layout.itemsText (item :: items) ++ rest)))
      = (readItems fuel (room - 1) (skipWhite (Layout.itemsText (item :: items) ++ rest))).map
          fun (items, after) => (.list items, after) := by
  obtain ⟨c, cs, hskip, hc⟩ := Layout.skipWhite_itemsText item items rest
  have hclose : c ≠ ']' := (isStart_cases hc).2.1
  rw [readValue, if_neg hroom, skipWhite_gap, hskip]
  split
  · rename_i hcons
    exact absurd (List.cons.inj hcons).1 hclose
  · rfl

theorem readValue_object (inner : Gap) (label : Label) (hroom : room ≠ 0) :
    readValue (fuel + 1) room ('\x7b' :: (inner.text ++ (label.text ++ rest)))
      = (readMembers fuel (room - 1) (skipWhite (label.text ++ rest))).map
          fun (entries, after) => (Datum.ofEntries entries, after) := by
  rw [readValue, if_neg hroom, skipWhite_gap, Layout.skipWhite_label]
  rfl

theorem readValue_scalar {c : Char} (hquote : c ≠ '"') (hlist : c ≠ '[') (hobject : c ≠ '\x7b') :
    readValue (fuel + 1) room (c :: cs) = readScalar (c :: cs) := by
  rw [readValue]
  · rintro rest hcons
    exact hquote (List.cons.inj hcons).1
  · rintro rest hcons
    exact hlist (List.cons.inj hcons).1
  · rintro rest hcons
    exact hobject (List.cons.inj hcons).1

end Steps

/-! ## Values -/

namespace Layout

theorem readValue_number (n : Numeral) {fuel room : Nat} {rest : List Char} (h : Follows rest) :
    Reads (readValue (fuel + 1) room (n.text ++ rest)) n.isReadable n.datum rest := by
  obtain ⟨c, cs, htext, hc⟩ := n.text_head
  have hne (d : Char) (hd : d.isDigit = false) (hminus : d ≠ '-') : c ≠ d := by
    rintro rfl
    rcases hc with hc | hc
    · rw [hc] at hd
      cases hd
    · exact hminus hc
  have hread := readScalar_numeral n h
  rw [htext, List.cons_append] at hread ⊢
  rw [readValue_scalar (hne _ (by decide) (by decide)) (hne _ (by decide) (by decide))
    (hne _ (by decide) (by decide))]
  exact hread

mutual

/-- A text is read as the value that it stands for, if it can be, and is refused otherwise. Every
character pays for two steps. -/
theorem readValue_text : (v : Layout) → (fuel room : Nat) → (rest : List Char) →
    2 * v.text.length ≤ fuel + 1 → Follows rest →
    Reads (readValue fuel room (v.text ++ rest)) (v.isReadable room) v.datum rest
  | v, 0, _, _, hfuel, _ => by
      have := v.length_text_pos
      omega
  | .null, fuel + 1, room, rest, _, _ => by
      calc readValue (fuel + 1) room ("null".toList ++ rest)
          = readScalar ("null".toList ++ rest) :=
            readValue_scalar (by decide) (by decide) (by decide)
        _ = .ok (.null, rest) := rfl
  | .bool true, fuel + 1, room, rest, _, _ => by
      calc readValue (fuel + 1) room ("true".toList ++ rest)
          = readScalar ("true".toList ++ rest) :=
            readValue_scalar (by decide) (by decide) (by decide)
        _ = .ok (.bool true, rest) := rfl
  | .bool false, fuel + 1, room, rest, _, _ => by
      calc readValue (fuel + 1) room ("false".toList ++ rest)
          = readScalar ("false".toList ++ rest) :=
            readValue_scalar (by decide) (by decide) (by decide)
        _ = .ok (.bool false, rest) := rfl
  | .number n, fuel + 1, room, rest, _, hend => readValue_number n hend
  | .string gs, fuel + 1, room, rest, _, _ => by
      show readValue (fuel + 1) room (stringText gs ++ rest) = _
      rw [stringText_append, readValue, readString_glyphs, datum]
      rfl
  | .list inner [], fuel + 1, room, rest, _, _ => by
      rw [text, itemsText, List.nil_append, List.cons_append, List.append_assoc, readValue,
        skipWhite_gap, List.singleton_append, skipWhite_cons (by decide)]
      cases room with
      | zero => exact ⟨_, rfl⟩
      | succ room => rfl
  | .list inner (item :: items), fuel + 1, room, rest, hfuel, _ => by
      -- the opening bracket pays for the step into the items
      have hlength : 2 * (itemsText (item :: items)).length ≤ fuel := by
        rw [text, List.length_cons, List.length_append, List.length_append,
          List.length_singleton] at hfuel
        omega
      rw [text, List.cons_append, List.append_assoc, List.append_assoc, List.singleton_append]
      cases room with
      | zero =>
          rw [readValue]
          exact ⟨_, rfl⟩
      | succ room =>
          rw [readValue_list inner item items (Nat.succ_ne_zero room)]
          exact (readItems_text item items fuel room rest hlength).map Datum.list
  | .object inner [], fuel + 1, room, rest, _, _ => by
      rw [text, membersText, List.nil_append, List.cons_append, List.append_assoc, readValue,
        skipWhite_gap, List.singleton_append, skipWhite_cons (by decide)]
      cases room with
      | zero => exact ⟨_, rfl⟩
      | succ room => rfl
  | .object inner (member :: members), fuel + 1, room, rest, hfuel, _ => by
      have hlength : 2 * (membersText (member :: members)).length ≤ fuel := by
        rw [text, List.length_cons, List.length_append, List.length_append,
          List.length_singleton] at hfuel
        omega
      have hmembers := readMembers_text member members fuel (room - 1) rest hlength
      obtain ⟨cs, hcs⟩ := membersText_label member members
      rw [text, List.cons_append, List.append_assoc, List.append_assoc, List.singleton_append]
      rw [hcs, List.append_assoc] at hmembers ⊢
      cases room with
      | zero =>
          rw [readValue]
          exact ⟨_, rfl⟩
      | succ room =>
          rw [readValue_object inner member.1 (Nat.succ_ne_zero room)]
          exact hmembers.map Datum.ofEntries

/-- Items up to the closing bracket. -/
theorem readItems_text : (item : Slot × Layout) → (items : List (Slot × Layout)) →
    (fuel room : Nat) → (rest : List Char) → 2 * (itemsText (item :: items)).length ≤ fuel →
    Reads (readItems fuel room (skipWhite (itemsText (item :: items) ++ ']' :: rest)))
      (areReadable room (item :: items)) (data (item :: items)) rest
  | (slot, v), [], 0, _, _, hfuel => by
      have hpos := v.length_text_pos
      rw [itemsText, List.length_append, List.length_append] at hfuel
      omega
  | (slot, v), next :: items, 0, _, _, hfuel => by
      have hpos := v.length_text_pos
      rw [itemsText_cons, List.length_append, List.length_append] at hfuel
      omega
  | (slot, v), [], fuel + 1, room, rest, hfuel => by
      rw [itemsText, List.length_append, List.length_append] at hfuel
      have hitem := readValue_text v fuel room (slot.after.text ++ ']' :: rest) (by omega)
        (follows_gap _ (follows_cons (by simp) rest))
      rw [itemsText, List.append_assoc, skipWhite_gap, List.append_assoc, skipWhite_text, areReadable,
        areReadable, Bool.and_true]
      exact hitem.lastItem slot.after
  | (slot, v), next :: items, fuel + 1, room, rest, hfuel => by
      rw [itemsText_cons, List.length_append, List.length_append, List.length_append,
        List.length_cons] at hfuel
      have hitem := readValue_text v fuel room
        (slot.after.text ++ ',' :: (itemsText (next :: items) ++ ']' :: rest)) (by omega)
        (follows_gap _ (follows_cons (by simp) _))
      have hitems := readItems_text next items fuel room rest (by omega)
      rw [itemsText_cons, List.append_assoc, skipWhite_gap, List.append_assoc, skipWhite_text,
        List.append_assoc, List.cons_append]
      exact hitem.moreItems slot.after hitems

/-- Members up to the closing brace. -/
theorem readMembers_text : (member : Label × Layout) → (members : List (Label × Layout)) →
    (fuel room : Nat) → (rest : List Char) → 2 * (membersText (member :: members)).length ≤ fuel →
    Reads (readMembers fuel room (skipWhite (membersText (member :: members) ++ '\x7d' :: rest)))
      (areReadableMembers room (member :: members)) (entries (member :: members)) rest
  | (label, v), [], 0, _, _, hfuel => by
      have hpos := v.length_text_pos
      rw [membersText, List.length_append, List.length_append] at hfuel
      omega
  | (label, v), next :: members, 0, _, _, hfuel => by
      have hpos := v.length_text_pos
      rw [membersText_cons, List.length_append, List.length_append] at hfuel
      omega
  | (label, v), [], fuel + 1, room, rest, hfuel => by
      rw [membersText, List.length_append, List.length_append] at hfuel
      have hvalue := readValue_text v fuel room (label.after.text ++ '\x7d' :: rest) (by omega)
        (follows_gap _ (follows_cons (by simp) rest))
      rw [membersText, List.append_assoc, List.append_assoc, areReadableMembers, areReadableMembers,
        Bool.and_true]
      exact hvalue.lastMember label label.after
  | (label, v), next :: members, fuel + 1, room, rest, hfuel => by
      rw [membersText_cons, List.length_append, List.length_append, List.length_append,
        List.length_cons] at hfuel
      have hvalue := readValue_text v fuel room
        (label.after.text ++ ',' :: (membersText (next :: members) ++ '\x7d' :: rest)) (by omega)
        (follows_gap _ (follows_cons (by simp) _))
      have hmembers := readMembers_text next members fuel room rest (by omega)
      rw [membersText_cons, List.append_assoc, List.append_assoc, List.append_assoc, List.cons_append]
      exact hvalue.moreMembers label label.after hmembers

end

/-- A text does not start with a byte order mark. -/
theorem text_ne_mark (before : Gap) (v : Layout) (rest cs : List Char) :
    before.text ++ (v.text ++ rest) ≠ '\uFEFF' :: cs := by
  intro hcs
  cases before with
  | nil =>
      obtain ⟨c, more, htext, hc⟩ := v.text_head
      rw [htext] at hcs
      exact (isStart_cases hc).2.2.2 (List.cons.inj hcs).1
  | cons w before =>
      have hwhite := isWhite_char w
      rw [show w.char = '\uFEFF' from (List.cons.inj hcs).1] at hwhite
      exact absurd hwhite (by decide)

/-- **Reading a whole text.** A value with white space around it is parsed as the datum that it stands
for, if its numbers are short enough and its nesting is not too deep, and refused otherwise. -/
theorem parse_text (before after : Gap) (v : Layout) :
    (parse (before.text ++ (v.text ++ after.text))).toOption
      = if v.isReadable maxDepth then some v.datum else none := by
  have hfuel : 2 * v.text.length
      ≤ 2 * (before.text ++ (v.text ++ after.text)).length + 2 + 1 := by
    rw [List.length_append, List.length_append]
    omega
  have hend : Follows after.text := by
    have hgap := follows_gap after follows_nil
    rw [List.append_nil] at hgap
    exact hgap
  have hskip : skipWhite after.text = [] := by
    have hgap := skipWhite_gap after []
    rw [List.append_nil] at hgap
    exact hgap
  have hread := readValue_text v _ maxDepth after.text hfuel hend
  unfold parse
  split
  · rename_i hfirst
    exact absurd hfirst (text_ne_mark before v after.text _)
  · rw [skipWhite_gap, skipWhite_text]
    cases hreadable : v.isReadable maxDepth with
    | true =>
        rw [hreadable] at hread
        rw [hread.eq_ok]
        simp only [hskip]
        rfl
    | false =>
        rw [hreadable] at hread
        obtain ⟨stop, hstop⟩ := hread
        rw [hstop]
        rfl

end Layout

end SourceNavigator.Json
