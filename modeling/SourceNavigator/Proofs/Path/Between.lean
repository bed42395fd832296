import SourceNavigator.Proofs.Path.Collapse

set_option autoImplicit false

/-! # Relative paths

The way from one route to another goes up and then down by names of the second one
(`mem_namesBetween`), so its text never starts at a root and never goes back up once it has gone down
(`isRelative_relativeText`). Walked from the first route, it leads to the second one, whatever the two
have in common (`leadsBack_relativeText`). The names of a route that is read from code points are names
unless they cannot be written (`isName_of_ofPoints`).
-/

namespace SourceNavigator.Path

theorem dropCommon_suffix (a b : List String) : (dropCommon a b).2 <:+ b := by
  induction a generalizing b with
  | nil => exact List.suffix_rfl
  | cons x xs ih =>
      cases b with
      | nil => exact List.suffix_rfl
      | cons y ys =>
          rw [dropCommon]
          split
          · exact (ih ys).trans (List.suffix_cons y ys)
          · exact List.suffix_rfl

theorem mem_namesBetween {start goal : List String} {name : String}
    (h : name ∈ namesBetween start goal) : name = up ∨ name ∈ goal := by
  rcases List.mem_append.mp h with h | h
  · obtain ⟨_, -, hname⟩ := List.mem_map.mp h
    exact Or.inl hname.symm
  · exact Or.inr ((dropCommon_suffix start goal).mem h)

/-- A path that goes up first, if at all, and then down. -/
structure IsRelative (s : String) : Prop where
  free : isAbsolute s = false
  shape : ∃ k rest, (Route.ofString s).names = List.replicate k up ++ rest ∧ up ∉ rest

theorem isAbsolute_relativeText {start goal : Route}
    (h : ∀ name ∈ namesBetween start.names goal.names, IsName name) :
    isAbsolute (relativeText start goal) = false := by
  unfold relativeText
  split
  · decide
  · rename_i hne
    have htext : (Text.glueStrings "/" (namesBetween start.names goal.names)).toList
        = Text.glue ['/'] ((namesBetween start.names goal.names).map String.toList) := by
      rw [Text.glueStrings, String.toList_ofList]
      rfl
    rw [isAbsolute_eq_false_iff, htext]
    intro cs hcs
    rcases glue_head h with ⟨-, hnil⟩ | ⟨c, rest, hglue, hc⟩
    · exact hne hnil
    · rw [hglue] at hcs
      exact hc (List.cons.inj hcs).1

theorem append_isProper {a b : Route} (ha : a.IsProper) (hb : b.IsProper) :
    (a.append b).IsProper := by
  unfold Route.append
  split
  · exact hb
  · intro name hname
    rcases List.mem_append.mp hname with hname | hname
    · exact ha name hname
    · exact hb name hname

theorem absolute_isProper {base : Route} (h : base.IsProper) (s : String) :
    (Route.absolute base s).IsProper :=
  collapse_isProper (append_isProper h (ofString_isProper s))

theorem names_relativeText {start goal : Route}
    (h : ∀ name ∈ namesBetween start.names goal.names, IsName name) :
    (Route.ofString (relativeText start goal)).names = namesBetween start.names goal.names := by
  unfold relativeText
  split
  · rename_i hnil
    rw [hnil]
    rfl
  · show namesIn (Text.glueStrings "/" (namesBetween start.names goal.names)).toList = _
    rw [Text.glueStrings, String.toList_ofList]
    exact namesIn_glue h

/-- The text of the way to a route without `..` goes up and then down. -/
theorem isRelative_relativeText {start goal : Route}
    (h : ∀ name ∈ namesBetween start.names goal.names, IsName name) (hgoal : up ∉ goal.names) :
    IsRelative (relativeText start goal) := by
  refine ⟨isAbsolute_relativeText h, (dropCommon start.names goal.names).1.length,
    (dropCommon start.names goal.names).2, ?_, ?_⟩
  · rw [names_relativeText h, ← List.map_const']
    rfl
  · exact fun hup => hgoal ((dropCommon_suffix start.names goal.names).mem hup)

theorem up_not_mem_collapse {r : Route} (h : r.isAnchored = true) : up ∉ r.collapse.names := by
  show up ∉ Route.collapseNames r.isAnchored r.names
  rw [h]
  exact up_not_mem_collapseNames r.names

theorem isAnchored_append {base r : Route} (h : base.isAnchored = true) :
    (base.append r).isAnchored = true := by
  unfold Route.append
  split
  · assumption
  · exact h

theorem isRelative_relativeText_absolute {base : Route} (h : base.IsProper)
    (hbase : base.isAnchored = true) (start : Route) (s : String) :
    IsRelative (relativeText start (Route.absolute base s)) := by
  refine isRelative_relativeText (fun name hname => ?_) (up_not_mem_collapse (isAnchored_append hbase))
  rcases mem_namesBetween hname with rfl | hname
  · exact isName_up
  · exact absolute_isProper h s name hname

/-! ## There and back -/

theorem dropCommon_nil (names : List String) : dropCommon [] names = ([], names) := by
  cases names with
  | nil => rfl
  | cons name rest => rfl

theorem dropCommon_append (a rest : List String) : dropCommon a (a ++ rest) = ([], rest) := by
  induction a with
  | nil => rw [List.nil_append, dropCommon_nil]
  | cons name a ih => rw [List.cons_append, dropCommon, if_pos rfl, ih]

theorem exists_common (start goal : List String) :
    ∃ common, start = common ++ (dropCommon start goal).1 ∧ goal = common ++ (dropCommon start goal).2 := by
  induction start generalizing goal with
  | nil =>
      refine ⟨[], ?_⟩
      rw [dropCommon_nil]
      exact ⟨rfl, rfl⟩
  | cons name start ih =>
      cases goal with
      | nil => exact ⟨[], rfl, rfl⟩
      | cons other goal =>
          by_cases hsame : name = other
          · obtain ⟨common, hstart, hgoal⟩ := ih goal
            refine ⟨name :: common, ?_, ?_⟩
            · rw [dropCommon, if_pos hsame, List.cons_append, ← hstart]
            · rw [dropCommon, if_pos hsame, List.cons_append, ← hgoal, hsame]
          · refine ⟨[], ?_⟩
            rw [dropCommon, if_neg hsame]
            exact ⟨rfl, rfl⟩

/-- The way between two places shows what is left of each of them behind what they have in common. -/
theorem exists_namesBetween_eq (start goal : List String) :
    ∃ common left right, start = common ++ left ∧ goal = common ++ right ∧
      namesBetween start goal = List.replicate left.length up ++ right ∧
      (left = [] ↔ start <+: goal) := by
  obtain ⟨common, hstart, hgoal⟩ := exists_common start goal
  refine ⟨common, _, _, hstart, hgoal, ?_, fun hnil => ?_, ?_⟩
  · rw [← List.map_const']
    rfl
  · rw [hnil, List.append_nil] at hstart
    rw [hstart]
    exact ⟨_, hgoal.symm⟩
  · rintro ⟨rest, rfl⟩
    rw [dropCommon_append]

/-- As many steps up as there are names behind a place lead to the place. -/
theorem foldl_climb_replicate_up (place left : List String) :
    (List.replicate left.length up).foldl climb (place ++ left) = place := by
  induction left using List.reverseRecOn with
  | nil => exact List.append_nil place
  | append_singleton left name ih =>
      rw [List.length_append, List.length_singleton, List.replicate_succ, List.foldl_cons, climb_up,
        ← List.append_assoc, List.dropLast_concat, ih]

/-- **The way to a place leads to it.** -/
theorem foldl_climb_namesBetween (start : List String) {goal : List String} (h : up ∉ goal) :
    (namesBetween start goal).foldl climb start = goal := by
  obtain ⟨common, left, right, rfl, rfl, hway, -⟩ := exists_namesBetween_eq start goal
  have hright : up ∉ right := fun hup => h (List.mem_append_right common hup)
  rw [hway, List.foldl_append, foldl_climb_replicate_up, foldl_climb_of_no_up hright]

/-- The file leads back to a place from the root: joined behind the root and normalised it has the names of
the place. Its steps up, if any, are all at its front, and there are none exactly if the place is the root
or below it. -/
structure LeadsBack (root : String) (place : List String) (file : String) : Prop where
  rejoined : (Route.ofString (joinText root file)).collapse.names = place
  upsFirst : ∃ k rest, (Route.ofString file).names = List.replicate k up ++ rest ∧ up ∉ rest
  inside : up ∉ (Route.ofString file).names ↔ (Route.ofString root).collapse.names <+: place

/-- **The path from a root to a place leads back to it.** -/
theorem leadsBack_relativeText {root : String} (hroot : isAbsolute root = true) {goal : Route}
    (hgoal : up ∉ goal.names)
    (h : ∀ name ∈ namesBetween (Route.ofString root).collapse.names goal.names, IsName name) :
    LeadsBack root goal.names (relativeText (Route.ofString root).collapse goal) := by
  have hfree := isAbsolute_relativeText h
  have hnames := names_relativeText h
  have hanchored : (Route.ofString root).isAnchored = true := by rw [isAnchored_ofString, hroot]
  have hcollapse : (Route.ofString root).collapse.names
      = (Route.ofString root).names.foldl climb [] := by
    rw [← collapseNames_anchored, ← hanchored]
    rfl
  constructor
  · have hjoined : Route.ofString (joinText root (relativeText (Route.ofString root).collapse goal))
        = ⟨(Route.ofString root).anchor, (Route.ofString root).names
            ++ namesBetween (Route.ofString root).collapse.names goal.names⟩ := by
      rw [ofString_joinText, Route.append, isAnchored_ofString, hfree, if_neg Bool.false_ne_true, hnames]
    rw [hjoined]
    -- behind an anchor collapsing is climbing, first along the root and then along the way
    show Route.collapseNames (Route.ofString root).isAnchored _ = goal.names
    rw [hanchored, collapseNames_anchored, List.foldl_append, ← hcollapse,
      foldl_climb_namesBetween _ hgoal]
  · exact (isRelative_relativeText h hgoal).shape
  · obtain ⟨common, left, right, -, hright, hway, hleft⟩ :=
      exists_namesBetween_eq (Route.ofString root).collapse.names goal.names
    have hno : up ∉ right := fun hup => hgoal (by rw [hright]; exact List.mem_append_right common hup)
    rw [hnames, hway, ← hleft, List.mem_append, not_or, and_iff_left hno, List.mem_replicate]
    simp

/-! ## Code points -/

theorem shown_of_chars? {ps : Text.Points} {cs : List Char} (h : ps.chars? = some cs) :
    ps.shown = cs := by
  unfold Text.Points.chars? at h
  split at h
  · cases h
  · rename_i hnone
    cases h
    refine List.map_congr_left fun n hn => ?_
    have hhalf : Text.isHalf n = false := by
      rw [← Bool.not_eq_true]
      exact fun hhalf => hnone (List.any_eq_true.mpr ⟨n, hn, hhalf⟩)
    rw [Text.Points.shownPoint, if_neg (by rw [hhalf]; decide)]

theorem isName_of_ofPoints {ps : Text.Points} {name : String}
    (h : name ∈ (Route.ofPoints ps).names) (hslash : '/' ∉ name.toList) : IsName name := by
  obtain ⟨piece, hpiece, rfl⟩ := List.mem_map.mp h
  have hleads := (List.mem_filter.mp hpiece).2
  -- what cannot be written is shown with a slash, so it is ruled out by `hslash`
  unfold nameOfPoints at hslash ⊢
  cases hchars : piece.chars? with
  | none =>
      rw [hchars] at hslash
      exact absurd (by simp) hslash
  | some cs =>
      rw [hchars] at hslash
      rw [shown_of_chars? hchars] at hleads
      exact ⟨hleads, hslash⟩

theorem isRelative_relativeText_ofPoints {base : Route} (h : base.IsProper)
    (hbase : base.isAnchored = true) (start : Route) (ps : Text.Points)
    (hwritable : areWritable (namesBetween start.names
      (base.append (Route.ofPoints ps)).collapse.names) = true) :
    IsRelative (relativeText start (base.append (Route.ofPoints ps)).collapse) := by
  refine isRelative_relativeText (fun name hname => ?_) (up_not_mem_collapse (isAnchored_append hbase))
  have hslash : '/' ∉ name.toList := by
    have := List.all_eq_true.mp hwritable name hname
    simpa using this
  rcases mem_namesBetween hname with rfl | hname
  · exact isName_up
  · -- a name of the goal comes from the base or from the code points
    have hmem := mem_collapseNames hname
    unfold Route.append at hmem
    split at hmem
    · exact isName_of_ofPoints hmem hslash
    · rcases List.mem_append.mp hmem with hmem | hmem
      · exact h name hmem
      · exact isName_of_ofPoints hmem hslash

end SourceNavigator.Path
