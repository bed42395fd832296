import SourceNavigator.Path.Relative
import SourceNavigator.Proofs.Text.Cut

set_option autoImplicit false

/-! # Names of a route and its text

A route is read from text (`Route.ofString`) and written as text (`Route.text`). The two agree on
routes whose names are names (`ofString_text`), joining texts is appending routes
(`ofString_joinText`), and taking `..` away leaves no `..` behind an anchor and only leading ones
elsewhere (`collapseNames_anchored`, `collapseNames_free`). From these follows what
`normalize` gives: a route without an anchor and without `..` (`normalize_eq_ok`).
-/

namespace SourceNavigator.Path

/-- A name as it stands between slashes: it leads somewhere and holds no slash. -/
def IsName (name : String) : Prop := leads name = true ∧ '/' ∉ name.toList

theorem isName_up : IsName up := by
  constructor
  · rfl
  · decide

/-- A route all of whose names are names. -/
def Route.IsProper (r : Route) : Prop := ∀ name ∈ r.names, IsName name

/-! ## The names of a text -/

/-- The names between the slashes of a text. -/
def namesIn (cs : List Char) : List String := ((Text.cut '/' cs).map String.ofList).filter leads

theorem namesIn_append (a b : List Char) : namesIn (a ++ '/' :: b) = namesIn a ++ namesIn b := by
  rw [namesIn, Text.cut_append_sep, List.map_append, List.filter_append]
  rfl

theorem namesIn_nil : namesIn [] = [] := rfl

theorem namesIn_toList {name : String} (h : IsName name) : namesIn name.toList = [name] := by
  rw [namesIn, Text.cut_of_not_mem h.2]
  simp [h.1]

theorem isName_of_mem_namesIn {cs : List Char} {name : String} (h : name ∈ namesIn cs) :
    IsName name := by
  obtain ⟨hmem, hleads⟩ := List.mem_filter.mp h
  obtain ⟨piece, hpiece, rfl⟩ := List.mem_map.mp hmem
  refine ⟨hleads, ?_⟩
  rw [String.toList_ofList]
  exact Text.not_mem_of_mem_cut hpiece

theorem ofString_isProper (s : String) : (Route.ofString s).IsProper :=
  fun _ h => isName_of_mem_namesIn h

theorem namesIn_glue {names : List String} (h : ∀ name ∈ names, IsName name) :
    namesIn (Text.glue ['/'] (names.map String.toList)) = names := by
  induction names with
  | nil => rfl
  | cons name rest ih =>
      have hname := namesIn_toList (h name List.mem_cons_self)
      have hrest := ih fun n hn => h n (List.mem_cons_of_mem _ hn)
      cases rest with
      | nil => exact hname
      | cons next others =>
          show namesIn (name.toList ++ ['/'] ++ Text.glue ['/'] ((next :: others).map String.toList))
            = _
          rw [List.append_assoc, List.singleton_append, namesIn_append, hname, hrest]
          rfl

/-! ## Anchors -/

theorem isName_head {name : String} (h : IsName name) :
    ∃ c cs, name.toList = c :: cs ∧ c ≠ '/' := by
  cases hcs : name.toList with
  | nil =>
      have hempty : name = "" := String.toList_eq_nil_iff.mp hcs
      have := h.1
      rw [hempty] at this
      exact absurd this (by decide)
  | cons c cs =>
      refine ⟨c, cs, rfl, fun hc => h.2 ?_⟩
      rw [hcs, hc]
      exact List.mem_cons_self

/-- What the glued text of some names starts with: nothing, or a character that is no slash. -/
theorem glue_head {names : List String} (h : ∀ name ∈ names, IsName name) :
    Text.glue ['/'] (names.map String.toList) = [] ∧ names = [] ∨
      ∃ c cs, Text.glue ['/'] (names.map String.toList) = c :: cs ∧ c ≠ '/' := by
  cases names with
  | nil => exact Or.inl ⟨rfl, rfl⟩
  | cons name rest =>
      right
      obtain ⟨c, cs, hname, hc⟩ := isName_head (h name List.mem_cons_self)
      cases rest with
      | nil => exact ⟨c, cs, hname, hc⟩
      | cons next others =>
          refine ⟨c, cs ++ ['/'] ++ Text.glue ['/'] ((next :: others).map String.toList), ?_, hc⟩
          show name.toList ++ ['/'] ++ Text.glue ['/'] ((next :: others).map String.toList) = _
          rw [hname]
          rfl

theorem isAnchored_ofString (s : String) : (Route.ofString s).isAnchored = isAbsolute s := by
  unfold Route.isAnchored Route.ofString anchorOf isAbsolute
  split
  · rename_i h; rw [h]; rfl
  · rename_i h; rw [h]; rfl
  · rename_i h; rw [h]; rfl
  · rename_i hno
    cases hs : s.toList with
    | nil => rfl
    | cons c cs =>
        have hc : c ≠ '/' := fun hc => hno cs (by rw [hs, hc])
        simp [hc]

theorem isAbsolute_eq_false_iff (s : String) :
    isAbsolute s = false ↔ ∀ cs, s.toList ≠ '/' :: cs := by
  unfold isAbsolute
  cases s.toList with
  | nil => simp
  | cons c cs => simp

/-- Text behind an anchor, or behind a first name, does not move the anchor. -/
theorem anchorOf_append {a b : String} (ha : a ≠ "") (hb : isAbsolute b = false) :
    anchorOf (a ++ b) = anchorOf a := by
  have hb := (isAbsolute_eq_false_iff b).mp hb
  unfold anchorOf
  rw [String.toList_append]
  -- an anchor is told from three characters, so `a` is split that far
  rcases hca : a.toList with _ | ⟨c, _ | ⟨d, _ | ⟨e, cs⟩⟩⟩
  · exact absurd (String.toList_eq_nil_iff.mp hca) ha
  · cases hcb : b.toList with
    | nil => simp
    | cons f fs =>
        have hf : f ≠ '/' := fun hf => hb fs (by rw [hcb, hf])
        by_cases hc : c = '/' <;> simp [hc, hf]
  · cases hcb : b.toList with
    | nil => simp
    | cons f fs =>
        have hf : f ≠ '/' := fun hf => hb fs (by rw [hcb, hf])
        by_cases hc : c = '/' <;> by_cases hd : d = '/' <;> simp [hc, hd, hf]
  · by_cases hc : c = '/' <;> by_cases hd : d = '/' <;> by_cases he : e = '/' <;>
      simp [hc, hd, he]

/-! ## Text and back -/

/-- The slashes that an anchor is written with. -/
def anchorMarks : Anchor → List Char
  | .here => []
  | .root => ['/']
  | .twin => ['/', '/']

theorem anchorText_toList (a : Anchor) : (Route.anchorText a).toList = anchorMarks a := by
  cases a <;> decide

theorem text_toList (r : Route) (h : r.anchor ≠ .here ∨ r.names ≠ []) :
    r.text.toList = anchorMarks r.anchor ++ Text.glue ['/'] (r.names.map String.toList) := by
  obtain ⟨anchor, names⟩ := r
  have hglue : (Text.glueStrings "/" names).toList = Text.glue ['/'] (names.map String.toList) := by
    rw [Text.glueStrings, String.toList_ofList]
    rfl
  unfold Route.text
  split
  · simp_all
  · rw [String.toList_append, hglue, anchorText_toList]

theorem namesIn_text (r : Route) (h : r.IsProper) : namesIn r.text.toList = r.names := by
  obtain ⟨anchor, names⟩ := r
  by_cases hempty : anchor = .here ∧ names = []
  · obtain ⟨rfl, rfl⟩ := hempty
    decide
  · rw [text_toList _ (by by_cases ha : anchor = .here <;> simp_all)]
    have hnames := namesIn_glue h
    cases anchor with
    | here => exact hnames
    | root =>
        calc namesIn ([] ++ '/' :: Text.glue ['/'] (names.map String.toList))
            = namesIn [] ++ namesIn (Text.glue ['/'] (names.map String.toList)) :=
              namesIn_append _ _
          _ = names := by rw [namesIn_nil, List.nil_append, hnames]
    | twin =>
        have hslash : namesIn ['/'] = [] := by decide
        calc namesIn (['/'] ++ '/' :: Text.glue ['/'] (names.map String.toList))
            = namesIn ['/'] ++ namesIn (Text.glue ['/'] (names.map String.toList)) :=
              namesIn_append _ _
          _ = names := by rw [hslash, List.nil_append, hnames]

theorem anchorOf_text (r : Route) (h : r.IsProper) : anchorOf r.text = r.anchor := by
  obtain ⟨anchor, names⟩ := r
  by_cases hempty : anchor = .here ∧ names = []
  · obtain ⟨rfl, rfl⟩ := hempty
    rfl
  · have htext := text_toList ⟨anchor, names⟩ (by by_cases ha : anchor = .here <;> simp_all)
    unfold anchorOf
    rw [htext]
    -- names do not start with a slash, so that the slashes are those of the anchor
    rcases glue_head h with ⟨hglue, hnil⟩ | ⟨c, cs, hglue, hc⟩
    · rw [hglue]
      cases anchor with
      | here => exact absurd ⟨rfl, hnil⟩ hempty
      | root => rfl
      | twin => rfl
    · rw [hglue]
      cases anchor with
      | here => simp [anchorMarks, hc]
      | root => simp [anchorMarks, hc]
      | twin => simp [anchorMarks, hc]

theorem isAbsolute_text_of_isAnchored {r : Route} (h : r.isAnchored = true) :
    isAbsolute r.text = true := by
  obtain ⟨anchor, names⟩ := r
  have ha : anchor ≠ .here := by simpa [Route.isAnchored] using h
  unfold isAbsolute
  rw [text_toList _ (Or.inl ha)]
  cases anchor with
  | here => exact absurd rfl ha
  | root => rfl
  | twin => rfl

/-- **A proper route is read back from its text.** -/
theorem ofString_text (r : Route) (h : r.IsProper) : Route.ofString r.text = r := by
  show (⟨anchorOf r.text, namesIn r.text.toList⟩ : Route) = r
  rw [anchorOf_text r h, namesIn_text r h]

theorem isAbsolute_text (r : Route) (h : r.IsProper) : isAbsolute r.text = r.isAnchored := by
  rw [← isAnchored_ofString, ofString_text r h]

/-! ## Joining -/

theorem joinText_of_isAbsolute (a : String) {b : String} (h : isAbsolute b = true) :
    joinText a b = b := by
  rw [joinText, if_pos h]

theorem namesIn_joinText (a : String) {b : String} (h : isAbsolute b = false) :
    namesIn (joinText a b).toList = namesIn a.toList ++ namesIn b.toList := by
  rw [joinText, if_neg (by rw [h]; decide)]
  split
  · rename_i hend
    -- no slash is put in between: `a` is empty or ends in one
    rw [String.toList_append]
    rcases List.eq_nil_or_concat a.toList with hnil | ⟨cs, c, hcs⟩
    · rw [hnil]
      rfl
    · have hc : c = '/' := by
        have hne : a ≠ "" := fun h => by rw [h] at hcs; simp at hcs
        simpa [hcs, hne] using hend
      have hclosed : namesIn (cs ++ ['/']) = namesIn cs := by
        calc namesIn (cs ++ '/' :: []) = namesIn cs ++ namesIn [] := namesIn_append cs []
          _ = namesIn cs := by rw [namesIn_nil, List.append_nil]
      rw [hcs, hc, List.concat_eq_append, hclosed, List.append_assoc, List.singleton_append]
      exact namesIn_append cs b.toList
  · rw [String.toList_append, String.toList_append, List.append_assoc]
    exact namesIn_append _ _

theorem anchorOf_joinText (a : String) {b : String} (h : isAbsolute b = false) :
    anchorOf (joinText a b) = anchorOf a := by
  by_cases ha : a = ""
  · subst ha
    have hb := (isAbsolute_eq_false_iff b).mp h
    rw [joinText, if_neg (by rw [h]; decide), if_pos (by rfl), String.empty_append]
    unfold anchorOf
    cases hcb : b.toList with
    | nil => rfl
    | cons c cs =>
        have hc : c ≠ '/' := fun hc => hb cs (by rw [hcb, hc])
        simp [hc]
  · rw [joinText, if_neg (by rw [h]; decide)]
    split
    · exact anchorOf_append ha h
    · rename_i hend
      rw [String.append_assoc]
      have hlast : a.toList.getLast? ≠ some '/' := by
        intro hl
        exact hend (by simp [hl])
      -- `a` does not end in a slash, so the one put in between cannot make its anchor a longer one
      unfold anchorOf
      rw [String.toList_append, String.toList_append]
      rcases hca : a.toList with _ | ⟨c, _ | ⟨d, _ | ⟨e, cs⟩⟩⟩
      · exact absurd (String.toList_eq_nil_iff.mp hca) ha
      · have hc : c ≠ '/' := fun hc => hlast (by rw [hca, hc]; rfl)
        simp [hc]
      · have hd : d ≠ '/' := fun hd => hlast (by rw [hca, hd]; rfl)
        by_cases hc : c = '/' <;> simp [hc, hd]
      · by_cases hc : c = '/' <;> by_cases hd : d = '/' <;> by_cases he : e = '/' <;>
          simp [hc, hd, he]

/-- **Joining texts is appending routes.** -/
theorem ofString_joinText (a b : String) :
    Route.ofString (joinText a b) = (Route.ofString a).append (Route.ofString b) := by
  by_cases hb : isAbsolute b = true
  · rw [joinText_of_isAbsolute a hb, Route.append, isAnchored_ofString, if_pos hb]
  · have hb : isAbsolute b = false := by simpa using hb
    rw [Route.append, isAnchored_ofString, if_neg (by rw [hb]; decide)]
    show (⟨anchorOf (joinText a b), namesIn (joinText a b).toList⟩ : Route) = _
    rw [anchorOf_joinText a hb, namesIn_joinText a hb]
    rfl

theorem isAbsolute_joinText {a : String} (b : String) (h : isAbsolute a = true) :
    isAbsolute (joinText a b) = true := by
  have habs : isAbsolute (joinText a b)
      = ((Route.ofString a).append (Route.ofString b)).isAnchored := by
    rw [← isAnchored_ofString, ofString_joinText]
  rw [habs, Route.append]
  split
  · rename_i hb
    exact hb
  · show (Route.ofString a).isAnchored = true
    rw [isAnchored_ofString, h]

end SourceNavigator.Path
