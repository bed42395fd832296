import SourceNavigator.Proofs.Excerpt.Range
import SourceNavigator.Proofs.Excerpt.Window

set_option autoImplicit false

/-! # Paging

A reader who reads a file page by page starts with its first line and goes on behind the last line of
each page, for as long as a page says that lines follow it (`Pages`). A page that is read in this way
takes as many lines as it may from the front of those that are left (`IsPage`), so that the pages are the
file, one after another (`Covers`), and there is one way to read them only (`Pages.unique`).
-/

namespace SourceNavigator.Excerpt

open SourceNavigator.Path (Address)
open Text (IsWritable)

/-! ## Runs -/

/-- The pages of at most `most` lines that are read from line `first` on. No read fails, and the page
with no lines behind it is the last one. -/
inductive Pages (w : World) (a : Address) (most : Int) : Int → List Range → Prop where
  | last {first : Int} {r : Range} (hread : (readRange w a first none most).HasResult (.ok r))
      (hend : r.isTruncated = false) : Pages w a most first [r]
  | more {first : Int} {r : Range} {rest : List Range}
      (hread : (readRange w a first none most).HasResult (.ok r)) (hmore : r.isTruncated = true)
      (hrest : Pages w a most (r.last + 1) rest) : Pages w a most first (r :: rest)

/-- The number of lines on pages. -/
def lineCount (pages : List Range) : Nat := (pages.map fun r => r.lines.length).sum

theorem lineCount_eq (pages : List Range) : lineCount pages = (pages.flatMap (·.lines)).length :=
  List.length_flatMap.symm

/-- The pages have the lines, each once and in order. No page is empty or has more than `most` lines, and
each page says how many lines follow it. -/
structure Covers (lines : List String) (most : Int) (pages : List Range) : Prop where
  lines_eq : pages.flatMap (·.lines) = lines
  nonempty : ∀ r ∈ pages, r.lines ≠ []
  length_le : ∀ r ∈ pages, (r.lines.length : Int) ≤ most
  remaining_eq : ∀ before r after, pages = before ++ r :: after → r.remaining = lineCount after

/-! ## One page -/

/-- The page takes at most `most` lines, and at least one, from the front of the lines from line `first`
on. What it leaves is behind its last line. -/
structure IsPage (lines : List String) (most first : Int) (r : Range) : Prop where
  one_le : 1 ≤ first
  lines_append : r.lines ++ lines.drop r.last.toNat = lines.drop (first - 1).toNat
  nonempty : r.lines ≠ []
  length_le : (r.lines.length : Int) ≤ most
  first_le : first ≤ r.last
  last_le : r.last ≤ lines.length
  total_eq : r.total = lines.length

section Page

variable {lines : List String} {most first last : Int} {r : Range}

theorem isPage_cutOut (path : String) (hfirst : 1 ≤ first) (horder : first ≤ last)
    (hlast : last ≤ lines.length) (hmost : last ≤ first + most - 1) :
    IsPage lines most first (cutOut path lines first last) := by
  have hlength := length_cutOut path hfirst hlast
  refine ⟨hfirst, ?_, ?_, ?_, horder, hlast, rfl⟩
  · have hjoin : (first - 1).toNat + (last.toNat - (first - 1).toNat) = last.toNat := by omega
    calc (lines.take last.toNat).drop (first - 1).toNat ++ lines.drop last.toNat
        = (lines.drop (first - 1).toNat).take (last.toNat - (first - 1).toNat)
            ++ lines.drop ((first - 1).toNat + (last.toNat - (first - 1).toNat)) := by
          rw [List.drop_take, hjoin]
      _ = lines.drop (first - 1).toNat := List.drop_take_append_drop _ _ _
  · intro hnil
    rw [hnil, List.length_nil] at hlength
    omega
  · rw [hlength]
    omega

namespace IsPage

variable (h : IsPage lines most first r)
include h

/-- A page says whether lines are left behind it. -/
theorem isTruncated_iff : r.isTruncated = true ↔ r.last < lines.length := by
  rw [Range.isTruncated, h.total_eq, decide_eq_true_iff]

/-- A page says how many lines are left behind it. -/
theorem remaining_eq : r.remaining = (lines.drop r.last.toNat).length := by
  have hone := h.one_le
  have hfirst := h.first_le
  have hlast := h.last_le
  rw [Range.remaining, h.total_eq, List.length_drop]
  omega

end IsPage

end Page

/-! ## Many pages -/

namespace Covers

variable {lines : List String} {most first : Int} {r : Range} {rest : List Range}

theorem nil (most : Int) : Covers [] most [] := by
  refine ⟨rfl, by simp, by simp, ?_⟩
  intro before r after hsplit
  cases List.nil_eq_append_iff.mp hsplit |>.2

/-- A page goes before the pages of what it leaves. -/
theorem cons (hpage : IsPage lines most first r) (hrest : Covers (lines.drop r.last.toNat) most rest) :
    Covers (lines.drop (first - 1).toNat) most (r :: rest) := by
  refine ⟨?_, List.forall_mem_cons.mpr ⟨hpage.nonempty, hrest.nonempty⟩,
    List.forall_mem_cons.mpr ⟨hpage.length_le, hrest.length_le⟩, ?_⟩
  · rw [List.flatMap_cons, hrest.lines_eq, hpage.lines_append]
  · intro before r' after hsplit
    cases before with
    | nil =>
        obtain ⟨rfl, rfl⟩ := List.cons.inj hsplit
        rw [hpage.remaining_eq, lineCount_eq, hrest.lines_eq]
    | cons r₀ before =>
        exact hrest.remaining_eq before r' after (List.cons.inj hsplit).2

end Covers

/-! ## Reading on -/

section Files

variable {w : World} {a : Address} {lines : List String} {most first : Int} {r : Range}
  {pages others : List Range}

/-- What a page says about the lines behind it is all that reading on depends on. -/
theorem Pages.unique (h : Pages w a most first pages) (hothers : Pages w a most first others) :
    others = pages := by
  induction h generalizing others with
  | last hread hend =>
      cases hothers with
      | last hread' hend' => rw [hread'.value_unique hread]
      | more hread' hmore' hrest' =>
          rw [hread'.value_unique hread, hend] at hmore'
          cases hmore'
  | more hread hmore hrest ih =>
      cases hothers with
      | last hread' hend' =>
          rw [hread'.value_unique hread, hmore] at hend'
          cases hend'
      | more hread' hmore' hrest' =>
          obtain rfl := hread'.value_unique hread
          rw [ih hrest']

section Reading

variable (hlines : readLines w a = .ok lines) (hfile : IsWritable lines.length) (hmost : 1 ≤ most)
include hlines hfile hmost

/-- **A read gives a page**, from any line that is there. -/
theorem exists_isPage (hfirst : 1 ≤ first) (hthere : first ≤ lines.length) :
    ∃ r, (readRange w a first none most).HasResult (.ok r) ∧ IsPage lines most first r := by
  have horder : first ≤ lastLine first none most lines.length := le_min hthere (by omega)
  exact ⟨_, hasResult_readRange_cutOut hlines hfile hfirst hthere rfl (by omega),
    isPage_cutOut a.text hfirst horder lastLine_le_total lastLine_le_most⟩

theorem isPage_of_hasResult (hfirst : 1 ≤ first) (hthere : first ≤ lines.length)
    (hread : (readRange w a first none most).HasResult (.ok r)) : IsPage lines most first r := by
  obtain ⟨r', hread', hpage⟩ := exists_isPage hlines hfile hmost hfirst hthere
  rwa [hread.value_unique hread']

/-- **There are pages** from any line that is there. Each page leaves fewer lines than there were. -/
theorem exists_pages (hfirst : 1 ≤ first) (hthere : first ≤ lines.length) :
    ∃ pages, Pages w a most first pages := by
  obtain ⟨left, hleft⟩ : ∃ left, left = (lines.length - first).toNat := ⟨_, rfl⟩
  induction left using Nat.strong_induction_on generalizing first with
  | _ left ih =>
      obtain ⟨r, hread, hpage⟩ := exists_isPage hlines hfile hmost hfirst hthere
      have hprogress := hpage.first_le
      by_cases hmore : r.isTruncated = true
      · have hbehind := hpage.isTruncated_iff.mp hmore
        have hfewer : (lines.length - (r.last + 1)).toNat < left := by omega
        obtain ⟨rest, hrest⟩ := ih _ hfewer (by omega) (by omega) rfl
        exact ⟨r :: rest, .more hread hmore hrest⟩
      · exact ⟨[r], .last hread (Bool.eq_false_iff.mpr hmore)⟩

/-- **Pages cover the lines from their first one on**, whichever line that is. -/
theorem Pages.covers (h : Pages w a most first pages) (hfirst : 1 ≤ first)
    (hthere : first ≤ lines.length) : Covers (lines.drop (first - 1).toNat) most pages := by
  induction h with
  | @last first r hread hend =>
      have hpage := isPage_of_hasResult hlines hfile hmost hfirst hthere hread
      have hleft : lines.drop r.last.toNat = [] := by
        refine List.drop_eq_nil_of_le (Nat.le_of_not_lt fun hbehind => ?_)
        have hmore := hpage.isTruncated_iff.mpr (by omega)
        rw [hend] at hmore
        cases hmore
      have hcovers : Covers (lines.drop r.last.toNat) most [] := by
        rw [hleft]
        exact Covers.nil most
      exact Covers.cons hpage hcovers
  | @more first r rest hread hmore hrest ih =>
      have hpage := isPage_of_hasResult hlines hfile hmost hfirst hthere hread
      have hlow := hpage.first_le
      have hbehind := hpage.isTruncated_iff.mp hmore
      have hcovers := ih (by omega) (by omega)
      -- the next page starts where this one ends
      have hnext : (r.last + 1 - 1).toNat = r.last.toNat := by omega
      rw [hnext] at hcovers
      exact Covers.cons hpage hcovers

end Reading

/-! ## A whole file -/

theorem linesOf_ne_nil (content : List UInt8) : linesOf content ≠ [] := by
  intro hnil
  have hpieces := List.map_eq_nil_iff.mp (List.map_eq_nil_iff.mp hnil)
  exact Text.cut_ne_nil _ _ hpieces

theorem ne_nil_of_readLines (h : readLines w a = .ok lines) : lines ≠ [] := by
  obtain ⟨content, -, rfl⟩ := exists_linesOf_of_readLines h
  exact linesOf_ne_nil content

/-- **A file is read page by page.** No read fails and the pages come to an end, there is one way to read
them, and they cover the file, also an empty one. The number of its lines is written to the log, so that
it has to have a writing; only a file of `10 ^ maxDigits` lines or more has none. -/
theorem exists_pages_covers (hlines : readLines w a = .ok lines) (hfile : IsWritable lines.length)
    (hmost : 1 ≤ most) :
    ∃ pages, Pages w a most 1 pages ∧ (∀ others, Pages w a most 1 others → others = pages) ∧
      Covers lines most pages := by
  have hthere : (1 : Int) ≤ lines.length := by
    have hpos := List.length_pos_of_ne_nil (ne_nil_of_readLines hlines)
    omega
  obtain ⟨pages, hpages⟩ := exists_pages hlines hfile hmost le_rfl hthere
  exact ⟨pages, hpages, fun others hothers => hpages.unique hothers,
    hpages.covers hlines hfile hmost le_rfl hthere⟩

/-! A file whose lines fill its pages. -/

/-- A world with a file of four lines. -/
def paged : World :=
  ⟨.dir [("f.php", .file ("a\nb\r\n\nd\n".toList.map fun c => .ofNat c.toNat))], [], "/", [], []⟩

/-- The address of the file. -/
def pagedAddress : Address := Path.Route.address ⟨.root, ["f.php"]⟩

theorem exists_pages_covers_full :
    readLines paged pagedAddress = .ok ["a", "b", "", "d"] ∧
      IsWritable (["a", "b", "", "d"].length : Int) ∧ (1 : Int) ≤ 2 ∧
      ∃ pages, Pages paged pagedAddress 2 1 pages ∧ Covers ["a", "b", "", "d"] 2 pages ∧
        pages.map (·.lines) = [["a", "b"], ["", "d"]] ∧ pages.map (·.remaining) = [2, 0] := by
  have hlines : readLines paged pagedAddress = .ok ["a", "b", "", "d"] :=
    eq_ok_of_toOption (by decide)
  have hfile : IsWritable (["a", "b", "", "d"].length : Int) :=
    Text.isWritable_of_natAbs_lt (by decide)
  obtain ⟨pages, hpages, hunique, hcovers⟩ := exists_pages_covers hlines hfile (by decide : (1 : Int) ≤ 2)
  have hfront : (readRange paged pagedAddress 1 none 2).HasResult
      (.ok (cutOut pagedAddress.text ["a", "b", "", "d"] 1 2)) :=
    hasResult_readRange_cutOut hlines hfile (by decide) (by decide) (by decide) (by decide)
  have hback : (readRange paged pagedAddress 3 none 2).HasResult
      (.ok (cutOut pagedAddress.text ["a", "b", "", "d"] 3 4)) :=
    hasResult_readRange_cutOut hlines hfile (by decide) (by decide) (by decide) (by decide)
  obtain rfl := hunique _ (.more hfront (by decide) (.last hback (by decide)))
  exact ⟨hlines, hfile, by decide, _, hpages, hcovers, by decide, by decide⟩

end Files

end SourceNavigator.Excerpt
