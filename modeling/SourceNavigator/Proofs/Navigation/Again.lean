import SourceNavigator.Proofs.Navigation.Exactness
import SourceNavigator.Proofs.Path.Acceptance
import SourceNavigator.Proofs.World.NulNames

set_option autoImplicit false

/-! # A shown path is asked for again

A path that passes the guard is shown, and handed to the engine, in its normal form. The normal form of
an accepted path holds no NUL character, starts with no slash and climbs nowhere, so asking for it again
gives the same form and the same route, as long as it does not start with a backslash
(`shown_taken_back_iff`). A backslash at the start of a path is refused, but only as the caller writes
it: behind `./` it is a character of the first name, and it comes to the front when the path is
written anew. Such a path is shown and then refused (`backslash_not_taken_back`).
-/

namespace SourceNavigator.Path

/-- The first name starts with a backslash. -/
def LeadsWithBackslash (names : List String) : Prop :=
  ∃ name ∈ names.head?, name.toList.head? = some '\\'

instance (names : List String) : Decidable (LeadsWithBackslash names) :=
  inferInstanceAs (Decidable (∃ name ∈ names.head?, name.toList.head? = some '\\'))

theorem leadsWithBackslash_cons {name : String} {rest : List String} :
    LeadsWithBackslash (name :: rest) ↔ name.toList.head? = some '\\' := by
  simp [LeadsWithBackslash]

theorem isName_of_mem_survivors {cs : List Char} {name : String}
    (h : name ∈ survivors (namesIn cs)) : IsName name :=
  isName_of_mem_namesIn ((survivors_sublist _).mem h)

theorem survivors_survivors (names : List String) : survivors (survivors names) = survivors names :=
  foldl_climb_of_no_up (up_not_mem_survivors names) []

/-- Without a `..` there is nothing to climb with. -/
theorem staysInside_of_no_up {names : List String} (h : up ∉ names) : StaysInside 0 names := by
  have htrail : up ∉ names.foldl (Route.push false) [] := by
    rw [foldl_push_of_no_up false h, List.append_nil, List.mem_reverse]
    exact h
  exact (up_not_mem_foldl_push_iff List.not_mem_nil names).mp htrail

theorem isAccepted_of_normalize {path : String} {r : Route} (h : normalize path = .ok r) :
    IsAccepted path := by
  by_contra hno
  obtain ⟨refusal, hrefusal⟩ := normalize_of_not_isAccepted hno
  rw [hrefusal] at h
  cases h

end SourceNavigator.Path

namespace SourceNavigator.Navigation

open SourceNavigator.Path (IsAccepted IsName LeadsWithBackslash Refusal Route namesIn survivors)

/-! ## The text of some names -/

theorem namesIn_namesText {names : List String} (h : ∀ name ∈ names, IsName name) :
    namesIn (namesText names).toList = names := by
  rw [← text_here]
  exact Path.namesIn_text ⟨.here, names⟩ h

theorem head?_namesText_cons {name : String} (h : IsName name) (rest : List String) :
    (namesText (name :: rest)).toList.head? = name.toList.head? := by
  obtain ⟨c, cs, hname, -⟩ := Path.isName_head h
  rw [namesText, if_neg (List.cons_ne_nil _ _), Text.glueStrings, String.toList_ofList]
  -- the slash behind the first name is written only if there is a second one
  cases rest with
  | nil => rfl
  | cons next others =>
      show (name.toList ++ "/".toList
        ++ Text.glue "/".toList ((next :: others).map String.toList)).head? = _
      rw [hname]
      rfl

/-- No name starts with a slash, so the text of names starts with a backslash at most. -/
theorem startsWithSlash_namesText_iff {names : List String} (h : ∀ name ∈ names, IsName name) :
    Path.startsWithSlash (namesText names) = true ↔ LeadsWithBackslash names := by
  cases names with
  | nil => decide
  | cons name rest =>
      have hfirst := h name List.mem_cons_self
      obtain ⟨c, cs, hname, hc⟩ := Path.isName_head hfirst
      have htext := head?_namesText_cons hfirst rest
      rw [hname, List.head?_cons] at htext
      obtain ⟨tail, htail⟩ := List.head?_eq_some_iff.mp htext
      calc Path.startsWithSlash (namesText (name :: rest)) = true
          ↔ c = '\\' := by
            unfold Path.startsWithSlash
            rw [htail]
            simp [hc]
        _ ↔ LeadsWithBackslash (name :: rest) := by
            rw [Path.leadsWithBackslash_cons, hname, List.head?_cons, Option.some.injEq]

/-! ## The normal form of an accepted path -/

section Accepted

variable {path : String} (h : IsAccepted path)
include h

theorem normalText_of_isAccepted :
    normalText path = .ok (namesText (survivors (namesIn path.toList))) := by
  rw [normalText, Path.normalize_of_isAccepted h]
  simp only [text_here]

theorem no_nul_namesText : '\x00' ∉ (namesText (survivors (namesIn path.toList))).toList := by
  have hpath : World.hasNul path = false := by
    rw [World.hasNul, List.contains_eq_mem]
    exact decide_eq_false h.no_nul
  have htext : World.hasNul (namesText (survivors (namesIn path.toList))) = false := by
    rw [← text_here]
    exact World.hasNul_text_eq_false fun name hname =>
      World.hasNul_of_mem_ofString hpath ((Path.survivors_sublist _).mem hname)
  rw [World.hasNul, List.contains_eq_mem] at htext
  exact of_decide_eq_false htext

/-- **The normal form is read as it was written**, unless a backslash has come to its front. -/
theorem normalize_namesText_of_no_backslash
    (hleads : ¬ LeadsWithBackslash (survivors (namesIn path.toList))) :
    Path.normalize (namesText (survivors (namesIn path.toList))) = Path.normalize path := by
  have hproper : ∀ name ∈ survivors (namesIn path.toList), IsName name := fun _ =>
    Path.isName_of_mem_survivors
  have hnames := namesIn_namesText hproper
  have hslash : Path.startsWithSlash (namesText (survivors (namesIn path.toList))) = false := by
    rw [← Bool.not_eq_true, startsWithSlash_namesText_iff hproper]
    exact hleads
  have hagain : IsAccepted (namesText (survivors (namesIn path.toList))) := by
    refine ⟨no_nul_namesText h, (Path.startsWithSlash_eq_false_iff _).mp hslash, ?_⟩
    rw [hnames]
    exact Path.staysInside_of_no_up (Path.up_not_mem_survivors _)
  -- what survives holds nothing to be collapsed, so it survives as a whole
  calc Path.normalize (namesText (survivors (namesIn path.toList)))
      = .ok ⟨.here, survivors (survivors (namesIn path.toList))⟩ := by
        rw [Path.normalize_of_isAccepted hagain, hnames]
    _ = .ok ⟨.here, survivors (namesIn path.toList)⟩ := by rw [Path.survivors_survivors]
    _ = Path.normalize path := (Path.normalize_of_isAccepted h).symm

theorem normalize_namesText_of_backslash
    (hleads : LeadsWithBackslash (survivors (namesIn path.toList))) :
    Path.normalize (namesText (survivors (namesIn path.toList))) = .error .notRelative := by
  have hnul := no_nul_namesText h
  have hslash := (startsWithSlash_namesText_iff fun _ => Path.isName_of_mem_survivors).mpr hleads
  rw [Path.normalize, if_neg (by simpa using hnul), if_pos hslash]

end Accepted

/-! ## Asked again -/

theorem resolveSafe_of_safeRoute {w : World} {root p : Route} {candidate : String} {s : Session}
    (h : (safeRoute w root candidate s).1 = .ok p) : w.resolveSafe root candidate = .ok p := by
  cases hsafe : w.resolveSafe root candidate with
  | ok route =>
      rw [safeRoute_of_resolveSafe hsafe] at h
      cases h
      rfl
  | error rejection =>
      rw [safeRoute_of_rejection hsafe s] at h
      cases h

theorem isAccepted_of_resolveSafe {w : World} {root p : Route} {candidate : String}
    (h : w.resolveSafe root candidate = .ok p) : IsAccepted candidate := by
  unfold World.resolveSafe at h
  split at h
  · cases h
  · rename_i relative hrelative
    exact Path.isAccepted_of_normalize hrelative

/-- The guard reads no more of a path than its normal form. -/
theorem resolveSafe_of_normalize_eq {w : World} {root : Route} {first second : String}
    (h : Path.normalize first = Path.normalize second) :
    w.resolveSafe root first = w.resolveSafe root second := by
  unfold World.resolveSafe
  rw [h]

/-- **When a shown path is taken back.** A path for which the guard gives a route has a normal form. Asked
for again, the form is its own normal form and the guard gives the same route for it, exactly if the
first name that is left of the path does not start with a backslash. If it does, the form is refused
both times, as a path that is not relative. -/
theorem shown_taken_back_iff {w : World} {root p : Route} {candidate : String} {s : Session}
    (h : (safeRoute w root candidate s).1 = .ok p) :
    ∃ shown, normalText candidate = .ok shown ∧
      ((normalText shown = .ok shown ∧ ∀ s', (safeRoute w root shown s').1 = .ok p)
        ↔ ¬ LeadsWithBackslash (survivors (namesIn candidate.toList))) ∧
      (LeadsWithBackslash (survivors (namesIn candidate.toList)) →
        normalText shown = .error (.invalidPath (some shown) Refusal.notRelative.reason) ∧
          ∀ s', (safeRoute w root shown s').1
            = .error (.invalidPath (some shown) Refusal.notRelative.reason)) := by
  have hsafe := resolveSafe_of_safeRoute h
  have haccepted := isAccepted_of_resolveSafe hsafe
  have hshown := normalText_of_isAccepted haccepted
  have hrefused (hleads : LeadsWithBackslash (survivors (namesIn candidate.toList))) :=
    normalize_namesText_of_backslash haccepted hleads
  refine ⟨namesText (survivors (namesIn candidate.toList)), hshown, ⟨?_, ?_⟩, ?_⟩
  · rintro ⟨hagain, -⟩ hleads
    rw [normalText, hrefused hleads] at hagain
    cases hagain
  · intro hleads
    -- the names are read again as they are, so the guard looks up the same route
    have hagain := normalize_namesText_of_no_backslash haccepted hleads
    constructor
    · rw [normalText, hagain, Path.normalize_of_isAccepted haccepted]
      simp only [text_here]
    · intro s'
      rw [safeRoute_of_resolveSafe ((resolveSafe_of_normalize_eq hagain).trans hsafe)]
      rfl
  · intro hleads
    constructor
    · rw [normalText, hrefused hleads]
    · intro s'
      have hrejected : w.resolveSafe root (namesText (survivors (namesIn candidate.toList)))
          = .error ⟨.notRelative, none⟩ := by
        unfold World.resolveSafe
        rw [hrefused hleads]
      exact safeRoute_of_rejection hrejected s'

/-! A name that only looks like a step up, between steps that go nowhere. -/

theorem shown_taken_back_lookalike :
    (safeRoute (besideSecret []).world (besideSecret []).root "a/./b//../..foo/"
        (Session.begin [] infoSeverity)).1 = .ok ⟨.root, ["moodle", "a", "..foo"]⟩ ∧
      normalText "a/./b//../..foo/" = .ok "a/..foo" ∧ normalText "a/..foo" = .ok "a/..foo" ∧
      ∀ s, (safeRoute (besideSecret []).world (besideSecret []).root "a/..foo" s).1
        = .ok ⟨.root, ["moodle", "a", "..foo"]⟩ := by
  have hsafe : (besideSecret []).world.resolveSafe (besideSecret []).root "a/./b//../..foo/"
      = .ok ⟨.root, ["moodle", "a", "..foo"]⟩ := eq_ok_of_toOption (by decide +kernel)
  have hroute : (safeRoute (besideSecret []).world (besideSecret []).root "a/./b//../..foo/"
      (Session.begin [] infoSeverity)).1 = .ok ⟨.root, ["moodle", "a", "..foo"]⟩ := by
    rw [safeRoute_of_resolveSafe hsafe]
    rfl
  have hnormal : normalText "a/./b//../..foo/" = .ok "a/..foo" :=
    eq_ok_of_toOption (by decide)
  obtain ⟨shown, hshown, hback, -⟩ := shown_taken_back_iff hroute
  obtain rfl : "a/..foo" = shown := Except.ok.inj (hnormal.symm.trans hshown)
  exact ⟨hroute, hnormal, hback.mpr (by decide)⟩

/-- **A shown path can be refused.** The path `./\x` is accepted and leads to a place below the root. It is
shown as `\x`, and this is no relative path. -/
theorem backslash_not_taken_back :
    (besideSecret []).world.resolveSafe (besideSecret []).root "./\\x"
        = .ok ⟨.root, ["moodle", "\\x"]⟩ ∧
      normalText "./\\x" = .ok "\\x" ∧
      normalText "\\x" = .error (.invalidPath (some "\\x") "must be relative to the root") ∧
      ∀ s, (safeRoute (besideSecret []).world (besideSecret []).root "\\x" s).1
        = .error (.invalidPath (some "\\x") "must be relative to the root") := by
  have hnormal : Path.normalize "\\x" = .error .notRelative := by rfl
  have hrejected : (besideSecret []).world.resolveSafe (besideSecret []).root "\\x"
      = .error ⟨.notRelative, none⟩ := by
    unfold World.resolveSafe
    rw [hnormal]
  refine ⟨eq_ok_of_toOption (by decide +kernel), eq_ok_of_toOption (by decide), ?_, ?_⟩
  · rw [normalText, hnormal]
    rfl
  · intro s
    exact safeRoute_of_rejection hrejected s

end SourceNavigator.Navigation
