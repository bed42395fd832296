import SourceNavigator.Proofs.Excerpt.Paging
import SourceNavigator.Proofs.Excerpt.Segments
import SourceNavigator.Proofs.World.Outline

set_option autoImplicit false

/-! # Line endings

Lines are written into a file one after another, each with a newline or with a carriage return and a
newline behind it (`written`). They are read from it as they were, if each of them can stand on a line
(`IsLine`), whichever way each of them ends; and nothing else is read from any file
(`isLine_of_mem_linesOf`). So a carriage return before each newline makes no difference, in a text
(`linesOfText_withReturns`), in any octets (`linesOf_withReturns`), and in the files of a world
(`GainsReturns`).
-/

namespace SourceNavigator.Excerpt

open SourceNavigator.Path (Address)
open Text.Utf8 (decode encode newline)

/-! ## Writing lines -/

/-- What ends a line: a newline, or a carriage return and a newline. -/
inductive LineEnd where
  | newline
  | returnNewline
  deriving DecidableEq, Repr

/-- What stands before the newline. -/
def LineEnd.returns : LineEnd → List Char
  | .newline => []
  | .returnNewline => ['\r']

/-- The text of lines, each with what ends it. -/
def written (rows : List (String × LineEnd)) : List Char :=
  rows.flatMap fun row => row.1.toList ++ row.2.returns ++ ['\n']

/-- A text that can stand on a line: no newline is in it, and no carriage return at its end. -/
structure IsLine (text : String) : Prop where
  newline_not_mem : '\n' ∉ text.toList
  last_ne_return : text.toList.getLast? ≠ some '\r'

instance (text : String) : Decidable (IsLine text) :=
  decidable_of_iff ('\n' ∉ text.toList ∧ text.toList.getLast? ≠ some '\r')
    ⟨fun h => ⟨h.1, h.2⟩, fun h => ⟨h.1, h.2⟩⟩

theorem written_cons (row : String × LineEnd) (rows : List (String × LineEnd)) :
    written (row :: rows) = row.1.toList ++ row.2.returns ++ '\n' :: written rows := by
  rw [written, List.flatMap_cons, List.append_assoc, List.singleton_append]
  rfl

theorem written_eq_nil_iff (rows : List (String × LineEnd)) : written rows = [] ↔ rows = [] := by
  cases rows with
  | nil => exact ⟨fun _ => rfl, fun _ => rfl⟩
  | cons row rows => simp [written_cons]

/-! ## Reading what was written -/

theorem dropReturns_concat (x : List Char) : dropReturns (x ++ ['\r']) = dropReturns x :=
  List.rdropWhile_concat_pos _ _ _ rfl

theorem dropReturns_append_returns (x : List Char) (e : LineEnd) :
    dropReturns (x ++ e.returns) = dropReturns x := by
  cases e with
  | newline => rw [LineEnd.returns, List.append_nil]
  | returnNewline => exact dropReturns_concat x

theorem newline_not_mem_append_returns {x : List Char} (h : '\n' ∉ x) (e : LineEnd) :
    '\n' ∉ x ++ e.returns := by
  rw [List.mem_append, not_or]
  refine ⟨h, ?_⟩
  cases e with
  | newline => exact List.not_mem_nil
  | returnNewline => decide

theorem IsLine.dropReturns_eq {text : String} (h : IsLine text) :
    dropReturns text.toList = text.toList := by
  refine Text.dropEndWhile_eq_self fun c hc => ?_
  have hne : c ≠ '\r' := by
    rintro rfl
    exact h.last_ne_return hc
  simpa using hne

/-- A line is read without what ends it. -/
theorem linesOfText_written {rows : List (String × LineEnd)} (hne : rows ≠ [])
    (h : ∀ row ∈ rows, IsLine row.1) : linesOfText (written rows) = rows.map fun row => row.1.toList := by
  induction rows with
  | nil => exact absurd rfl hne
  | cons row rows ih =>
      obtain ⟨hrow, hrows⟩ := List.forall_mem_cons.mp h
      have hmem := newline_not_mem_append_returns hrow.newline_not_mem row.2
      rw [written_cons, linesOfText_append_newline hmem, dropReturns_append_returns, hrow.dropReturns_eq,
        List.map_cons]
      by_cases hlast : rows = []
      · rw [if_pos ((written_eq_nil_iff rows).mpr hlast), hlast, List.map_nil]
      · rw [if_neg (mt (written_eq_nil_iff rows).mp hlast), ih hlast hrows]

/-- Whatever is read from a file can stand on a line. -/
theorem isLine_of_mem_linesOf {content : List UInt8} {text : String} (h : text ∈ linesOf content) :
    IsLine text := by
  refine ⟨newline_not_mem_linesOf h, fun hlast => ?_⟩
  obtain ⟨cs, hcs, rfl⟩ := List.mem_map.mp h
  obtain ⟨piece, -, rfl⟩ := List.mem_map.mp hcs
  rw [String.toList_ofList] at hlast
  exact absurd (Text.getLast?_dropEndWhile hlast) (by decide)

theorem linesOf_encode (cs : List Char) :
    linesOf (encode cs) = (linesOfText cs).map String.ofList := by
  rw [linesOf, Text.Utf8.decode_encode]

/-- Lines are read as they were written exactly if there are some and each can stand on a line. -/
theorem linesOf_written_iff (rows : List (String × LineEnd)) :
    linesOf (encode (written rows)) = rows.map (·.1) ↔ rows ≠ [] ∧ ∀ row ∈ rows, IsLine row.1 := by
  constructor
  · intro h
    refine ⟨?_, fun row hrow => ?_⟩
    · rintro rfl
      exact linesOf_ne_nil _ h
    · exact isLine_of_mem_linesOf (h ▸ List.mem_map_of_mem hrow)
  · rintro ⟨hne, hlines⟩
    calc linesOf (encode (written rows))
        = (rows.map fun row => row.1.toList).map String.ofList := by
          rw [linesOf_encode, linesOfText_written hne hlines]
      _ = rows.map (·.1) := by
          rw [List.map_map]
          exact List.map_congr_left fun row _ => String.ofList_toList

/-! ## Carriage returns before newlines -/

/-- A carriage return is put before every newline. -/
def withReturns {α : Type} [DecidableEq α] (ret newline : α) (xs : List α) : List α :=
  xs.flatMap fun x => if x = newline then [ret, newline] else [x]

section Returns

variable {α : Type} [DecidableEq α] (ret : α) {sep : α} {piece : List α}

theorem withReturns_of_not_mem (h : sep ∉ piece) : withReturns ret sep piece = piece := by
  induction piece with
  | nil => rfl
  | cons x piece ih =>
      rw [List.mem_cons, not_or] at h
      rw [withReturns, List.flatMap_cons, if_neg (Ne.symm h.1), List.singleton_append]
      exact congrArg (x :: ·) (ih h.2)

theorem withReturns_append (h : sep ∉ piece) (rest : List α) :
    withReturns ret sep (piece ++ sep :: rest)
      = piece ++ [ret] ++ sep :: withReturns ret sep rest := by
  have hpiece := withReturns_of_not_mem ret h
  rw [withReturns] at hpiece ⊢
  rw [List.flatMap_append, hpiece, List.flatMap_cons, if_pos rfl, List.append_assoc]
  rfl

theorem withReturns_eq_nil_iff (xs : List α) : withReturns ret sep xs = [] ↔ xs = [] := by
  cases xs with
  | nil => exact ⟨fun _ => rfl, fun _ => rfl⟩
  | cons x xs =>
      rw [withReturns, List.flatMap_cons]
      split
      · simp
      · simp

end Returns

/-- The lines of a text do not tell whether carriage returns stand before its newlines. -/
theorem linesOfText_withReturns (cs : List Char) :
    linesOfText (withReturns '\r' '\n' cs) = linesOfText cs := by
  -- on the lines of the text; the carriage return is at the end of each
  induction cs using Text.cut_induction '\n' with
  | last piece hpiece => rw [withReturns_of_not_mem _ hpiece]
  | more piece rest hpiece ih =>
      have hreturned : '\n' ∉ piece ++ ['\r'] :=
        newline_not_mem_append_returns hpiece .returnNewline
      rw [withReturns_append _ hpiece, linesOfText_append_newline hreturned,
        linesOfText_append_newline hpiece, dropReturns_concat, ih]
      simp only [withReturns_eq_nil_iff]

/-- The octet of a carriage return. -/
def returnOctet : UInt8 := 13

theorem decode_withReturns (content : List UInt8) :
    decode (withReturns returnOctet newline content) = withReturns '\r' '\n' (decode content) := by
  have hsingle : String.utf8EncodeChar '\r' = [returnOctet] := by decide
  induction content using Text.cut_induction newline with
  | last body hbody =>
      rw [withReturns_of_not_mem _ hbody, withReturns_of_not_mem _ (Text.Utf8.not_mem_decode hbody)]
  | more body rest hbody ih =>
      have hshown : decode (body ++ [returnOctet]) = decode body ++ ['\r'] :=
        Text.Utf8.decode_append_single hsingle body []
      rw [withReturns_append _ hbody, Text.Utf8.decode_append_newline, hshown, ih,
        Text.Utf8.decode_append_newline, withReturns_append _ (Text.Utf8.not_mem_decode hbody)]

/-- Octets that encode no text may stand between the newlines. -/
theorem linesOf_withReturns (content : List UInt8) :
    linesOf (withReturns returnOctet newline content) = linesOf content := by
  rw [linesOf, decode_withReturns, linesOfText_withReturns, linesOf]

/-! ## Files -/

/-- The second world is the first one, but some of its files may have a carriage return before each of
their newlines. -/
structure GainsReturns (w w' : World) : Prop where
  outline : w'.outline = w.outline
  file : ∀ place content, w.tree.at? place = some (.file content) →
    w'.tree.at? place = some (.file content) ∨
      w'.tree.at? place = some (.file (withReturns returnOctet newline content))

theorem readLines_of_octetsAt {w : World} {a : Address} {content : List UInt8}
    (h : w.octetsAt a = .ok content) : readLines w a = .ok (linesOf content) := by
  rw [readLines, h]

theorem GainsReturns.readLines_eq {w w' : World} (h : GainsReturns w w') (a : Address) :
    readLines w' a = readLines w a := by
  rcases World.octetsAt_cases h.outline a with
    ⟨t, herror, herror'⟩ | ⟨place, content, content', hat, hat', hread, hread'⟩
  · rw [readLines, readLines, herror, herror']
  · have hlines : linesOf content' = linesOf content := by
      rcases h.file place content hat with hsame | hreturns
      · cases hat'.symm.trans hsame
        rfl
      · cases hat'.symm.trans hreturns
        exact linesOf_withReturns content
    rw [readLines_of_octetsAt hread, readLines_of_octetsAt hread', hlines]

/-- **Lines are read as they were written**, whichever way each of them ends: exactly if there are some
and each can stand on a line. A file whose text has a carriage return before each newline has the same
lines as one without; and no read gives another answer, be it lines or a failure, in a world whose files
have gained such carriage returns, whatever octets they hold. -/
theorem readLines_written_iff {w : World} {a : Address} :
    (∀ rows, w.octetsAt a = .ok (encode (written rows)) →
      (readLines w a = .ok (rows.map (·.1)) ↔ rows ≠ [] ∧ ∀ row ∈ rows, IsLine row.1)) ∧
    (∀ {w' a' cs}, w.octetsAt a = .ok (encode cs) →
      w'.octetsAt a' = .ok (encode (withReturns '\r' '\n' cs)) → readLines w' a' = readLines w a) ∧
    ∀ {w'}, GainsReturns w w' → readLines w' a = readLines w a := by
  refine ⟨fun rows hfile => ?_, fun {w' a' cs} hfile hfile' => ?_, fun h => h.readLines_eq a⟩
  · rw [readLines_of_octetsAt hfile, Except.ok.injEq]
    exact linesOf_written_iff rows
  · rw [readLines_of_octetsAt hfile, readLines_of_octetsAt hfile', linesOf_encode, linesOf_encode,
      linesOfText_withReturns]

/-- A world with one file. -/
def holding (content : List UInt8) : World := ⟨.dir [("f.php", .file content)], [], "/", [], []⟩

/-- The address of the file. -/
def heldAddress : Address := Path.Route.address ⟨.root, ["f.php"]⟩

theorem octetsAt_holding (content : List UInt8) : (holding content).octetsAt heldAddress = .ok content := by
  rfl

theorem gainsReturns_holding (content : List UInt8) :
    GainsReturns (holding content) (holding (withReturns returnOctet newline content)) := by
  refine ⟨rfl, fun place content' hat => Or.inr ?_⟩
  -- the file is the only one
  cases place with
  | nil => cases hat
  | cons name rest =>
      have hnamed (other : List UInt8) : (holding other).tree.at? (name :: rest)
          = (if "f.php" = name then some (.file other) else none).bind (World.Node.at? · rest) := rfl
      rw [hnamed] at hat ⊢
      by_cases hname : "f.php" = name
      · rw [if_pos hname] at hat ⊢
        cases rest with
        | nil =>
            cases hat
            rfl
        | cons next rest => cases hat
      · rw [if_neg hname] at hat
        cases hat

/-- Lines with other separators in them, with a carriage return inside, and without anything, which end
in both ways. -/
def mixedRows : List (String × LineEnd) :=
  [("", .returnNewline), ("a\u2028b\x0Cc", .newline), ("d\re", .returnNewline), ("", .newline)]

theorem readLines_written_mixed :
    let content := encode (written mixedRows)
    let returned := encode (withReturns '\r' '\n' (written mixedRows))
    (holding content).octetsAt heldAddress = .ok content ∧
      (holding returned).octetsAt heldAddress = .ok returned ∧
      (mixedRows ≠ [] ∧ ∀ row ∈ mixedRows, IsLine row.1) ∧
      readLines (holding content) heldAddress = .ok ["", "a\u2028b\x0Cc", "d\re", ""] ∧
      readLines (holding returned) heldAddress = .ok ["", "a\u2028b\x0Cc", "d\re", ""] ∧
      GainsReturns (holding [0xE2, 0x82, 10, 97]) (holding [0xE2, 0x82, 13, 10, 97]) ∧
      readLines (holding [0xE2, 0x82, 10, 97]) heldAddress = .ok ["\uFFFD", "a"] ∧
      readLines (holding [0xE2, 0x82, 13, 10, 97]) heldAddress = .ok ["\uFFFD", "a"] := by
  intro content returned
  have hfile := octetsAt_holding content
  have hreturned := octetsAt_holding returned
  have hrows : mixedRows ≠ [] ∧ ∀ row ∈ mixedRows, IsLine row.1 := by decide
  have hread := (readLines_written_iff.1 mixedRows hfile).mpr hrows
  have hsame := readLines_written_iff.2.1 hfile hreturned
  have hgains : GainsReturns (holding [0xE2, 0x82, 10, 97]) (holding [0xE2, 0x82, 13, 10, 97]) :=
    gainsReturns_holding [0xE2, 0x82, 10, 97]
  have hbroken : readLines (holding [0xE2, 0x82, 10, 97]) heldAddress = .ok ["\uFFFD", "a"] :=
    eq_ok_of_toOption (by decide)
  exact ⟨hfile, hreturned, hrows, hread, hsame.trans hread, hgains, hbroken,
    (readLines_written_iff.2.2 hgains).trans hbroken⟩

end SourceNavigator.Excerpt
