import SourceNavigator.Excerpt.Source
import SourceNavigator.Proofs.Text.Blank
import SourceNavigator.Proofs.Text.Cut
import SourceNavigator.Proofs.Text.Newline

set_option autoImplicit false

/-! # Segments of a file

The octets of a file fall into segments (`segments`): each one ends with its only newline, but for the
last one, which may lack it. The lines of a file are found in its text, after all of its octets have been
decoded. They are nevertheless its segments, each decoded for itself (`linesOf_eq_map_segments`), and
differ from these in nothing but the line ending (`trim_lineOfSegment`). A file without octets is the
exception: it has no segment, but one line.
-/

namespace SourceNavigator.Excerpt

open SourceNavigator.Text (trim)
open SourceNavigator.Text.Utf8 (decode newline)

/-! ## Octets -/

/-- The octets of a file, cut behind every newline. -/
def segments : List UInt8 → List (List UInt8)
  | [] => []
  | b :: bs =>
    if b = newline then [b] :: segments bs
    else
      match segments bs with
      | [] => [[b]]
      | segment :: rest => (b :: segment) :: rest

theorem segments_append_newline {body : List UInt8} (h : newline ∉ body) (rest : List UInt8) :
    segments (body ++ newline :: rest) = (body ++ [newline]) :: segments rest := by
  induction body with
  | nil => rw [List.nil_append, segments, if_pos rfl, List.nil_append]
  | cons b body ih =>
      rw [List.mem_cons, not_or] at h
      rw [List.cons_append, segments, if_neg (Ne.symm h.1), ih h.2]
      rfl

theorem segments_of_not_mem {body : List UInt8} (h : newline ∉ body) (hne : body ≠ []) :
    segments body = [body] := by
  induction body with
  | nil => exact absurd rfl hne
  | cons b body ih =>
      rw [List.mem_cons, not_or] at h
      rw [segments, if_neg (Ne.symm h.1)]
      cases body with
      | nil => rfl
      | cons next body => rw [ih h.2 (List.cons_ne_nil _ _)]

/-- The first segment is taken off at its newline, until there is none. -/
@[elab_as_elim]
theorem segments_induction {P : List UInt8 → Prop} (empty : P [])
    (last : ∀ body, newline ∉ body → body ≠ [] → P body)
    (more : ∀ body rest, newline ∉ body → P rest → P (body ++ newline :: rest))
    (content : List UInt8) : P content := by
  refine Text.cut_induction newline (fun body hbody => ?_) more content
  by_cases hne : body = []
  · rw [hne]
    exact empty
  · exact last body hbody hne

/-! ## Lines of a text -/

section Lines

variable {x y : List Char}

theorem dropFinalNewline_of_not_mem (h : '\n' ∉ x) : dropFinalNewline x = x :=
  if_neg fun hlast => h (List.mem_of_getLast? hlast)

theorem dropFinalNewline_concat (x : List Char) : dropFinalNewline (x ++ ['\n']) = x := by
  rw [dropFinalNewline, if_pos List.getLast?_concat, List.dropLast_concat]

theorem dropFinalNewline_append (x : List Char) (hy : y ≠ []) :
    dropFinalNewline (x ++ y) = x ++ dropFinalNewline y := by
  rw [dropFinalNewline, dropFinalNewline, List.getLast?_append_of_ne_nil x hy,
    List.dropLast_append_of_ne_nil hy]
  split
  · rfl
  · rfl

theorem linesOfText_of_not_mem (h : '\n' ∉ x) : linesOfText x = [dropReturns x] := by
  rw [linesOfText, dropFinalNewline_of_not_mem h, Text.cut_of_not_mem h, List.map_singleton]

/-- The first line, and the others if there is something behind its newline. -/
theorem linesOfText_append_newline (h : '\n' ∉ x) (y : List Char) :
    linesOfText (x ++ '\n' :: y) = dropReturns x :: if y = [] then [] else linesOfText y := by
  by_cases hy : y = []
  · rw [if_pos hy, hy, linesOfText, dropFinalNewline_concat, Text.cut_of_not_mem h, List.map_singleton]
  · -- a newline at the end of the text is the one at the end of `y`
    have hfinal : dropFinalNewline (x ++ '\n' :: y) = x ++ '\n' :: dropFinalNewline y := by
      have happend := dropFinalNewline_append (x ++ ['\n']) hy
      rwa [List.append_assoc, List.append_assoc] at happend
    rw [if_neg hy, linesOfText, hfinal, Text.cut_append_sep, Text.cut_of_not_mem h,
      List.singleton_append, List.map_cons]
    rfl

end Lines

/-! ## Lines of a file -/

/-- The line that a segment is, decoded for itself. -/
def lineOfSegment (segment : List UInt8) : List Char := dropReturns (dropFinalNewline (decode segment))

theorem decode_concat_newline (body : List UInt8) : decode (body ++ [newline]) = decode body ++ ['\n'] :=
  Text.Utf8.decode_append_newline body []

theorem lineOfSegment_of_not_mem {body : List UInt8} (h : newline ∉ body) :
    lineOfSegment body = dropReturns (decode body) := by
  rw [lineOfSegment, dropFinalNewline_of_not_mem (Text.Utf8.not_mem_decode h)]

theorem lineOfSegment_concat (body : List UInt8) :
    lineOfSegment (body ++ [newline]) = dropReturns (decode body) := by
  rw [lineOfSegment, decode_concat_newline, dropFinalNewline_concat]

/-- **The lines of a file are its segments**, decoded one by one. -/
theorem linesOfText_decode {content : List UInt8} (h : content ≠ []) :
    linesOfText (decode content) = (segments content).map lineOfSegment := by
  induction content using segments_induction with
  | empty => exact absurd rfl h
  | last body hbody hne =>
      rw [segments_of_not_mem hbody hne, List.map_singleton, lineOfSegment_of_not_mem hbody,
        linesOfText_of_not_mem (Text.Utf8.not_mem_decode hbody)]
  | more body rest hbody ih =>
      have hshown := Text.Utf8.not_mem_decode hbody
      rw [segments_append_newline hbody, List.map_cons, lineOfSegment_concat,
        Text.Utf8.decode_append_newline, linesOfText_append_newline hshown]
      -- the newline that ends the last line starts no other one
      by_cases hrest : rest = []
      · rw [hrest]
        rfl
      · rw [if_neg (Text.Utf8.decode_ne_nil hrest), ih hrest]

theorem linesOf_eq_map_segments {content : List UInt8} (h : content ≠ []) :
    linesOf content = (segments content).map fun segment => String.ofList (lineOfSegment segment) := by
  rw [linesOf, linesOfText_decode h, List.map_map]
  rfl

/-- The line that a segment is. -/
theorem linesOf_getElem? {content segment : List UInt8} {n : Nat}
    (h : (segments content)[n]? = some segment) :
    (linesOf content)[n]? = some (String.ofList (lineOfSegment segment)) := by
  have hne : content ≠ [] := by
    rintro rfl
    cases h
  rw [linesOf_eq_map_segments hne, List.getElem?_map, h]
  rfl

/-! ## Line endings -/

theorem trim_dropFinalNewline (x : List Char) : trim (dropFinalNewline x) = trim x := by
  rw [dropFinalNewline]
  split
  · rename_i hlast
    conv_rhs => rw [← List.dropLast_append_getLast? _ hlast]
    rw [Text.trim_concat (by decide)]
  · rfl

theorem trim_dropReturns (x : List Char) : trim (dropReturns x) = trim x := by
  refine Text.trim_dropEndWhile (fun c hc => ?_) x
  rw [beq_iff_eq.mp hc]
  decide

/-- A line differs from its segment in blanks at its end only. -/
theorem trim_lineOfSegment (segment : List UInt8) :
    trim (lineOfSegment segment) = trim (decode segment) := by
  rw [lineOfSegment, trim_dropReturns, trim_dropFinalNewline]

theorem strip_lineOfSegment (segment : List UInt8) :
    Text.strip (String.ofList (lineOfSegment segment)) = Text.strip (String.ofList (decode segment)) := by
  rw [Text.strip, Text.strip, String.toList_ofList, String.toList_ofList, trim_lineOfSegment]

end SourceNavigator.Excerpt
