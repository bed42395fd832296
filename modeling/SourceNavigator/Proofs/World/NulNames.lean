import SourceNavigator.Proofs.World.Plain
import SourceNavigator.Proofs.World.Resolution
import SourceNavigator.World.Guard

set_option autoImplicit false

/-! # Names with a NUL character

No name of a file holds a NUL character, and the system refuses every path that does. Resolving
refuses such a path when it comes to the name, unless the calls run out or it has met a loop before;
then the name is left in the text of the result, if no `..` takes it away. So the guard lets no relative path pass that
holds a NUL character (`hasNul_text_of_isWithin`).
-/

namespace SourceNavigator.World

open SourceNavigator.Path (Route IsName IsRelative up)

/-! ## Texts of routes -/

theorem hasNul_text_eq_false {r : Route} (h : ∀ name ∈ r.names, hasNul name = false) :
    hasNul r.text = false := by
  by_cases hempty : r.anchor = .here ∧ r.names = []
  · obtain ⟨anchor, names⟩ := r
    obtain ⟨rfl, rfl⟩ := hempty
    rfl
  · have hwritten : r.anchor ≠ .here ∨ r.names ≠ [] := by
      rw [← not_and_or]
      exact hempty
    have hmarks : '\x00' ∉ Path.anchorMarks r.anchor := by
      cases r.anchor <;> decide
    rw [hasNul, Path.text_toList _ hwritten, ← Bool.not_eq_true, List.contains_iff_mem,
      List.mem_append]
    rintro (hmark | hname)
    · exact hmarks hmark
    · rcases Text.mem_of_mem_glue hname with hsep | ⟨piece, hpiece, hmem⟩
      · exact absurd hsep (by decide)
      · obtain ⟨name, hmemName, rfl⟩ := List.mem_map.mp hpiece
        have hnul := h name hmemName
        rw [hasNul, ← Bool.not_eq_true, List.contains_iff_mem] at hnul
        exact hnul hmem

theorem hasNul_text_of_mem {r : Route} {name : String} (hmem : name ∈ r.names)
    (h : hasNul name = true) : hasNul r.text = true := by
  rw [hasNul, List.contains_iff_mem] at h ⊢
  rw [Path.text_toList r (Or.inr (List.ne_nil_of_mem hmem)), List.mem_append]
  exact Or.inr (Text.mem_glue (List.mem_map_of_mem hmem) h)

theorem hasNul_of_mem_ofString {s name : String} (h : hasNul s = false)
    (hmem : name ∈ (Route.ofString s).names) : hasNul name = false := by
  obtain ⟨piece, hpiece, rfl⟩ := List.mem_map.mp (List.mem_filter.mp hmem).1
  rw [hasNul, ← Bool.not_eq_true, List.contains_iff_mem] at h ⊢
  rw [String.toList_ofList]
  exact fun hc => h (Text.mem_of_mem_cut hpiece hc)

/-! ## Resolving names that hold one -/

/-- A resolution is refused, or its calls run out, or it stops at a loop among the first names, with the
last ones left. -/
def StopsBefore (first last : List String) (x : Resolution) : Prop :=
  x = .unspeakable ∨ x = .exhausted ∨ ∃ text passed rest, first = passed ++ rest ∧
    x = .looped (Path.joinText text (restText (rest ++ last)))

theorem StopsBefore.cons {first last : List String} {x : Resolution} (h : StopsBefore first last x)
    (name : String) : StopsBefore (name :: first) last x := by
  rcases h with h | h | ⟨text, passed, rest, rfl, h⟩
  · exact Or.inl h
  · exact Or.inr (Or.inl h)
  · exact Or.inr (Or.inr ⟨text, name :: passed, rest, rfl, h⟩)

theorem leads_of_hasNul {name : String} (h : hasNul name = true) :
    Path.leads name = true ∧ name ≠ up := by
  refine ⟨?_, ?_⟩
  · rw [Path.leads, Bool.and_eq_true, bne_iff_ne, bne_iff_ne]
    constructor
    · rintro rfl
      exact absurd h (by decide)
    · rintro rfl
      exact absurd h (by decide)
  · rintro rfl
    exact absurd h (by decide)

/-- Resolving does not get past a name with a NUL character. -/
theorem stopsBefore_resolveNames (w : World) (enter : Route → String → Seen → Resolution)
    (before : List String) {name : String} (hnul : hasNul name = true) (after : List String)
    (r : Route) (seen : Seen) :
    StopsBefore before (name :: after) (resolveNames w enter r (before ++ name :: after) seen) := by
  induction before generalizing r seen with
  | nil =>
      obtain ⟨hleads, hup⟩ := leads_of_hasNul hnul
      left
      rw [List.nil_append, resolveNames]
      simp [hleads, hup, hnul]
  | cons first before ih =>
      rw [List.cons_append]
      cases nameOutcome w enter r first seen with
      | looped text hstep => exact Or.inr (Or.inr ⟨text, [first], before, rfl, hstep _⟩)
      | unspeakable hstep => exact Or.inl (hstep _)
      | exhausted hstep => exact Or.inr (Or.inl (hstep _))
      | stay _ hstep | back _ hstep | into _ _ _ hstep | known _ _ _ _ _ _ hstep
      | entered _ _ _ _ _ _ _ hstep =>
          rw [hstep]
          exact (ih _ _).cons first

theorem suffix_names_append (a b : Route) : b.names <:+ (a.append b).names := by
  unfold Route.append
  split
  · exact List.suffix_rfl
  · exact List.suffix_append a.names b.names

/-- **No path is resolved that holds a NUL character**, unless a `..` follows it. -/
theorem resolve_of_hasNul (w : World) {r : Route} (hr : r.IsProper) {before after : List String}
    {name : String} (hnames : r.names = before ++ name :: after) (hnul : hasNul name = true)
    (hafter : up ∉ after) : ∃ o, w.resolve r = .error o := by
  have hup := (leads_of_hasNul hnul).2
  rcases stopsBefore_resolveNames w (resolveTarget w linkRoom) before hnul after
    (if r.isAnchored then ⟨.root, []⟩ else ⟨.here, []⟩) [] with
    h | h | ⟨text, passed, rest, hbefore, h⟩
  · refine ⟨.nulCharacter, ?_⟩
    rw [resolve, realRoute, hnames]
    simp only [h]
  · refine ⟨.tooDeep, ?_⟩
    rw [resolve, realRoute, hnames]
    simp only [h]
  · have hrest : ∀ n ∈ rest ++ name :: after, IsName n := by
      intro n hn
      refine hr n ?_
      rw [hnames, hbefore, List.append_assoc]
      exact List.mem_append_right _ hn
    -- the rest of the path is joined on as text, and the name is still in it
    have hofString : (Route.ofString (restText (rest ++ name :: after))).names
        = rest ++ name :: after := by
      show Path.namesIn (restText _).toList = _
      rw [restText, Text.glueStrings, String.toList_ofList]
      exact Path.namesIn_glue hrest
    have hmem : name ∈ (Route.absolute w.base
        (Path.joinText text (restText (rest ++ name :: after)))).names := by
      obtain ⟨above, habove⟩ : name :: after <:+ (w.base.append (Route.ofString
          (Path.joinText text (restText (rest ++ name :: after))))).names := by
        calc name :: after
            <:+ rest ++ name :: after := List.suffix_append rest _
          _ = (Route.ofString (restText (rest ++ name :: after))).names := hofString.symm
          _ <:+ _ := suffix_names_append (Route.ofString text) _
          _ = (Route.ofString (Path.joinText text (restText (rest ++ name :: after)))).names := by
              rw [Path.ofString_joinText]
          _ <:+ _ := suffix_names_append w.base _
      show name ∈ Route.collapseNames _ _
      rw [← habove]
      exact Path.mem_collapseNames_of_no_up _ above hup hafter
    refine ⟨.nulCharacter, ?_⟩
    rw [resolve, realRoute, hnames]
    simp only [h]
    rw [if_pos (hasNul_text_of_mem hmem hnul)]

/-- **A path that the guard lets pass holds no NUL character**, if the root holds none. -/
theorem hasNul_text_of_isWithin {w : World} {root : String} (hroot : hasNul root = false) {s : String}
    (hs : IsRelative s) (h : w.isWithin (Route.ofString root) (Route.ofString s) = true) :
    hasNul ((Route.ofString root).append (Route.ofString s)).text = false := by
  obtain ⟨k, rest, hnames, hrest⟩ := hs.shape
  have hfree : (Route.ofString s).isAnchored = false := by
    rw [Path.isAnchored_ofString, hs.free]
  have happend : ((Route.ofString root).append (Route.ofString s)).names
      = (Route.ofString root).names ++ (List.replicate k up ++ rest) := by
    rw [Route.append, if_neg (by rw [hfree]; decide), hnames]
  refine hasNul_text_eq_false fun name hmem => ?_
  -- otherwise the root could not be resolved, or the path could not
  by_contra hnul
  have hnul : hasNul name = true := by simpa using hnul
  rw [happend] at hmem
  rcases List.mem_append.mp hmem with hmem | hmem
  · rw [hasNul_of_mem_ofString hroot hmem] at hnul
    cases hnul
  · rcases List.mem_append.mp hmem with hmem | hmem
    · obtain rfl := List.eq_of_mem_replicate hmem
      exact absurd hnul (by decide)
    · -- no `..` follows the name, so resolving fails
      obtain ⟨before, after, rfl⟩ := List.append_of_mem hmem
      have hsplit : ((Route.ofString root).append (Route.ofString s)).names
          = ((Route.ofString root).names ++ (List.replicate k up ++ before)) ++ name :: after := by
        rw [happend]
        simp only [List.append_assoc]
      obtain ⟨o, hresolve⟩ : ∃ o, w.resolve ((Route.ofString root).append (Route.ofString s)) = .error o :=
        resolve_of_hasNul w
          (Path.append_isProper (Path.ofString_isProper root) (Path.ofString_isProper s)) hsplit hnul
          fun hup => hrest (by simp [hup])
      rw [isWithin, hresolve] at h
      cases hr : w.resolve (Route.ofString root) with
      | ok r =>
          rw [hr] at h
          cases h
      | error o =>
          rw [hr] at h
          cases h

end SourceNavigator.World
