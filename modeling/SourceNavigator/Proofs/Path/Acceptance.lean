import SourceNavigator.Navigation.Navigator
import SourceNavigator.Proofs.Path.Collapse
import SourceNavigator.Proofs.Results

set_option autoImplicit false

/-! # Which relative paths are accepted

A path is read as names, each of which leads one step down, but for `..`, which leads one step up. It is
accepted if it holds no NUL character, does not start with a slash or a backslash, and no part of it that
starts at its beginning leads above the place where it starts (`IsAccepted`).

The program does not count steps. It keeps a trail of names, and looks only at what the trail of the whole
path begins with. This is the same, because a `..` that leads above the start is never taken away again
(`mem_foldl_push_of_mem`), whatever names follow it. So `..` is left in the trail exactly if a part of the path
climbs too far (`up_not_mem_foldl_push_iff`), and if none does, the trail holds the names that no later
`..` takes away (`survivors`).
-/

namespace SourceNavigator.Path

/-! ## Steps -/

/-- How many steps down a name leads. -/
def step (name : String) : Int := if name = up then -1 else 1

/-- How many steps down some names lead. -/
def depth (names : List String) : Int := (names.map step).sum

@[simp] theorem step_up : step up = -1 := if_pos rfl

theorem step_of_ne {name : String} (h : name ≠ up) : step name = 1 := if_neg h

@[simp] theorem depth_nil : depth [] = 0 := rfl

@[simp] theorem depth_cons (name : String) (rest : List String) :
    depth (name :: rest) = step name + depth rest := by
  simp [depth]

/-- Walked from a place `height` steps below the start, no front part of the names leads above it. -/
def StaysInside (height : Int) (names : List String) : Prop :=
  ∀ front, front <+: names → 0 ≤ height + depth front

theorem staysInside_nil {height : Int} : StaysInside height [] ↔ 0 ≤ height := by
  constructor
  · intro h
    simpa using h [] List.prefix_rfl
  · intro h front hfront
    rw [List.prefix_nil.mp hfront]
    simpa using h

theorem staysInside_cons {height : Int} {name : String} {rest : List String} :
    StaysInside height (name :: rest) ↔ 0 ≤ height ∧ StaysInside (height + step name) rest := by
  constructor
  · intro h
    refine ⟨by simpa using h [] List.nil_prefix, ?_⟩
    intro front hfront
    have hlonger := h (name :: front) (List.cons_prefix_cons.mpr ⟨rfl, hfront⟩)
    rw [depth_cons] at hlonger
    omega
  · rintro ⟨hheight, hrest⟩ front hfront
    rcases List.prefix_cons_iff.mp hfront with rfl | ⟨tail, rfl, htail⟩
    · simpa using hheight
    · have hshorter := hrest tail htail
      rw [depth_cons]
      omega

theorem StaysInside.nonneg {height : Int} {names : List String} (h : StaysInside height names) :
    0 ≤ height := by
  simpa using h [] List.nil_prefix

/-! ## The trail -/

theorem mem_push_of_mem {trail : List String} (h : up ∈ trail) (name : String) :
    up ∈ Route.push false trail name := by
  by_cases hup : name = up
  · subst hup
    cases trail with
    | nil => cases h
    | cons last rest =>
        rw [push_up_cons]
        split
        · exact List.mem_cons_self
        · rename_i hlast
          exact (List.mem_cons.mp h).resolve_left (Ne.symm hlast)
  · rw [push_of_ne _ _ hup]
    exact List.mem_cons_of_mem _ h

/-- A `..` in the trail stays there. -/
theorem mem_foldl_push_of_mem {trail : List String} (h : up ∈ trail) (names : List String) :
    up ∈ names.foldl (Route.push false) trail := by
  induction names generalizing trail with
  | nil => exact h
  | cons name rest ih => exact ih (mem_push_of_mem h name)

/-- **Looking at the trail of the whole path is enough.** No `..` is left exactly if no front part of
the names climbs above the start. -/
theorem up_not_mem_foldl_push_iff {trail : List String} (h : up ∉ trail) (names : List String) :
    up ∉ names.foldl (Route.push false) trail ↔ StaysInside trail.length names := by
  induction names generalizing trail with
  | nil => simpa [staysInside_nil] using h
  | cons name rest ih =>
      rw [List.foldl_cons, staysInside_cons]
      by_cases hup : name = up
      · subst hup
        cases trail with
        | nil =>
            -- there is nowhere to climb to, so `..` is kept, and for good
            have hkept : up ∈ rest.foldl (Route.push false) (Route.push false [] up) :=
              mem_foldl_push_of_mem (by simp [push_up_nil]) rest
            have habove : ¬ StaysInside (([] : List String).length + step up) rest := by
              intro hstays
              have := hstays.nonneg
              simp at this
            exact iff_of_false (fun hno => hno hkept) fun hstays => habove hstays.2
        | cons last others =>
            rw [List.mem_cons, not_or] at h
            have hheight : ((last :: others).length : Int) + step up = others.length := by simp
            rw [push_up_cons, if_neg (Ne.symm h.1), ih h.2, hheight]
            exact (and_iff_right (by omega)).symm
      · have hno : up ∉ name :: trail := by
          rw [List.mem_cons, not_or]
          exact ⟨Ne.symm hup, h⟩
        have hheight : ((name :: trail).length : Int) = trail.length + step name := by
          rw [step_of_ne hup, List.length_cons]
          omega
        rw [push_of_ne _ _ hup, ih hno, hheight]
        exact (and_iff_right (by omega)).symm

/-- As long as no `..` is left, it makes no difference whether the path starts at a root. -/
theorem foldl_push_eq_anchored {names trail : List String}
    (h : up ∉ names.foldl (Route.push false) trail) :
    names.foldl (Route.push false) trail = names.foldl (Route.push true) trail := by
  induction names generalizing trail with
  | nil => rfl
  | cons name rest ih =>
      have hstep : Route.push false trail name = Route.push true trail name := by
        cases trail with
        | cons last others => rfl
        | nil =>
            by_cases hup : name = up
            · subst hup
              exact absurd (mem_foldl_push_of_mem (by simp [push_up_nil]) rest) h
            · rw [push_of_ne _ _ hup, push_of_ne _ _ hup]
      rw [List.foldl_cons, ih h, List.foldl_cons, hstep]

/-! ## Survivors -/

/-- The names that are left if every `..` takes away the last name before it. -/
def survivors (names : List String) : List String := names.foldl climb []

theorem sublist_foldl_climb (names place : List String) :
    List.Sublist (names.foldl climb place) (place ++ names) := by
  induction names generalizing place with
  | nil => simp
  | cons name rest ih =>
      refine (ih (climb place name)).trans ?_
      by_cases hup : name = up
      · rw [hup, climb_up]
        exact (List.dropLast_sublist place).append (List.sublist_cons_self up rest)
      · rw [climb_of_ne hup, List.append_assoc, List.singleton_append]

theorem survivors_sublist (names : List String) : List.Sublist (survivors names) names :=
  sublist_foldl_climb names []

theorem up_not_mem_survivors (names : List String) : up ∉ survivors names := by
  rw [survivors, ← collapseNames_anchored]
  exact up_not_mem_collapseNames names

/-- The names that survive are names in the path that lead somewhere, and down. -/
theorem survivors_lead {cs : List Char} {name : String} (h : name ∈ survivors (namesIn cs)) :
    name ≠ "" ∧ name ≠ "." ∧ name ≠ up := by
  have hleads := (isName_of_mem_namesIn ((survivors_sublist _).mem h)).1
  have hup : name ≠ up := fun hup => up_not_mem_survivors _ (hup ▸ h)
  simp only [leads, Bool.and_eq_true, bne_iff_ne] at hleads
  exact ⟨hleads.1, hleads.2, hup⟩

theorem collapseNames_eq_survivors {names : List String} (h : StaysInside 0 names) :
    Route.collapseNames false names = survivors names := by
  have hno := (up_not_mem_foldl_push_iff List.not_mem_nil names).mpr h
  calc Route.collapseNames false names
      = Route.collapseNames true names := congrArg List.reverse (foldl_push_eq_anchored hno)
    _ = survivors names := collapseNames_anchored names

theorem up_mem_collapseNames_iff (names : List String) :
    up ∈ Route.collapseNames false names ↔ ¬ StaysInside 0 names := by
  have hno : up ∉ names.foldl (Route.push false) [] ↔ StaysInside 0 names :=
    up_not_mem_foldl_push_iff List.not_mem_nil names
  rw [Route.collapseNames, List.mem_reverse, ← hno, not_not]

/-- What the program looks at: the first name of the collapsed path. -/
theorem head?_collapseNames_iff (names : List String) :
    (Route.collapseNames false names).head? = some up ↔ ¬ StaysInside 0 names := by
  rw [← up_mem_collapseNames_iff]
  constructor
  · exact List.mem_of_mem_head?
  · intro hup
    -- if there is a `..` at all, there is one at the front
    obtain ⟨k, rest, hnames, hrest⟩ := collapseNames_free names
    rw [hnames] at hup ⊢
    cases k with
    | zero => exact absurd (by simpa using hup) hrest
    | succ k => simp [List.replicate_succ]

/-! ## Acceptance -/

/-- The path holds no NUL character, starts with no slash or backslash, and no front part of its names
climbs above the start. -/
structure IsAccepted (path : String) : Prop where
  no_nul : '\x00' ∉ path.toList
  relative : ∀ c, path.toList.head? = some c → c ≠ '/' ∧ c ≠ '\\'
  inside : StaysInside 0 (namesIn path.toList)

theorem startsWithSlash_eq_false_iff (path : String) :
    startsWithSlash path = false ↔ ∀ c, path.toList.head? = some c → c ≠ '/' ∧ c ≠ '\\' := by
  unfold startsWithSlash
  cases path.toList with
  | nil => simp
  | cons c cs => simp

/-- What is not refused at once is judged by its names. -/
theorem normalize_of_relative {path : String} (hnul : '\x00' ∉ path.toList)
    (hslash : startsWithSlash path = false) :
    normalize path =
      if (Route.collapseNames false (namesIn path.toList)).head? = some up then .error .leavesRoot
      else .ok ⟨.here, Route.collapseNames false (namesIn path.toList)⟩ := by
  have habs : isAbsolute path = false := by
    rw [← Bool.not_eq_true]
    intro habs
    rw [startsWithSlash_of_isAbsolute habs] at hslash
    cases hslash
  have hanchored : (Route.ofString path).isAnchored = false := by rw [isAnchored_ofString, habs]
  have hanchor : (Route.ofString path).anchor = .here := by simpa [Route.isAnchored] using hanchored
  have hcollapse : (Route.ofString path).collapse
      = ⟨.here, Route.collapseNames false (namesIn path.toList)⟩ := by
    rw [Route.collapse, hanchored, hanchor]
    rfl
  rw [normalize, if_neg (by simpa using hnul), if_neg (by rw [hslash]; decide), hcollapse]

theorem normalize_of_isAccepted {path : String} (h : IsAccepted path) :
    normalize path = .ok ⟨.here, survivors (namesIn path.toList)⟩ := by
  have hslash := (startsWithSlash_eq_false_iff path).mpr h.relative
  have hhead := mt (head?_collapseNames_iff _).mp (not_not.mpr h.inside)
  rw [normalize_of_relative h.no_nul hslash, if_neg hhead, collapseNames_eq_survivors h.inside]

theorem normalize_of_not_isAccepted {path : String} (h : ¬ IsAccepted path) :
    ∃ refusal, normalize path = .error refusal := by
  by_cases hnul : '\x00' ∈ path.toList
  · exact ⟨.nulCharacter, by rw [normalize, if_pos (by simpa using hnul)]⟩
  · by_cases hslash : startsWithSlash path = true
    · exact ⟨.notRelative, by rw [normalize, if_neg (by simpa using hnul), if_pos hslash]⟩
    · have hslash : startsWithSlash path = false := by simpa using hslash
      have hclimbs : ¬ StaysInside 0 (namesIn path.toList) := fun hinside =>
        h ⟨hnul, (startsWithSlash_eq_false_iff path).mp hslash, hinside⟩
      have hhead := (head?_collapseNames_iff _).mpr hclimbs
      exact ⟨.leavesRoot, by rw [normalize_of_relative hnul hslash, if_pos hhead]⟩

end SourceNavigator.Path

namespace SourceNavigator.Navigation

open SourceNavigator.Path (IsAccepted namesIn survivors)

/-- How the names that survive are written. -/
def namesText (names : List String) : String := if names = [] then "." else Text.glueStrings "/" names

theorem text_here (names : List String) : (⟨.here, names⟩ : Path.Route).text = namesText names := by
  unfold Path.Route.text namesText
  cases names with
  | nil => rfl
  | cons name rest => simp [Path.Route.anchorText]

/-- **Which paths are accepted, and as what.** -/
theorem normalText_accepts_iff (path : String) :
    (IsAccepted path ↔ normalText path = .ok (namesText (survivors (namesIn path.toList)))) ∧
      (¬ IsAccepted path ↔ ∃ reason, normalText path = .error (.invalidPath (some path) reason)) ∧
      List.Sublist (survivors (namesIn path.toList)) (namesIn path.toList) ∧
      ∀ name ∈ survivors (namesIn path.toList), name ≠ "" ∧ name ≠ "." ∧ name ≠ ".." := by
  have haccepted (h : IsAccepted path) :
      normalText path = .ok (namesText (survivors (namesIn path.toList))) := by
    rw [normalText, Path.normalize_of_isAccepted h]
    simp only [text_here]
  have hrefused (h : ¬ IsAccepted path) :
      ∃ reason, normalText path = .error (.invalidPath (some path) reason) := by
    obtain ⟨refusal, hrefusal⟩ := Path.normalize_of_not_isAccepted h
    exact ⟨refusal.reason, by rw [normalText, hrefusal]⟩
  refine ⟨⟨haccepted, ?_⟩, ⟨hrefused, ?_⟩, Path.survivors_sublist _, fun name => Path.survivors_lead⟩
  · intro hok
    by_contra hno
    obtain ⟨reason, herror⟩ := hrefused hno
    rw [herror] at hok
    cases hok
  · rintro ⟨reason, herror⟩ hyes
    rw [haccepted hyes] at herror
    cases herror

/-! Empty names, `.`, a `..` that stays inside, and a name that only looks like it. -/

theorem normalText_accepts_lookalike :
    IsAccepted "a/./b//../..foo/" ∧
      (survivors (namesIn "a/./b//../..foo/".toList) = ["a", "..foo"]) ∧ "..foo" ≠ ".." := by
  obtain ⟨haccepted, -, -, hlead⟩ := normalText_accepts_iff "a/./b//../..foo/"
  have hnames : survivors (namesIn "a/./b//../..foo/".toList) = ["a", "..foo"] := by decide
  have hshown : normalText "a/./b//../..foo/" = .ok "a/..foo" := eq_ok_of_toOption (by decide)
  refine ⟨haccepted.mpr ?_, hnames, (hlead "..foo" (by decide)).2.2⟩
  rw [hshown, hnames]
  exact congrArg Except.ok (by decide)

end SourceNavigator.Navigation
