import SourceNavigator.Proofs.Path.Names

set_option autoImplicit false

/-! # Taking `..` away

`collapseNames` keeps a trail of names, last one first. Behind an anchor the trail never holds
`..`, so collapsing is a walk up and down a list of names (`collapseNames_anchored`); elsewhere
`..` is kept at the bottom of the trail only (`collapseNames_free`). `normalize_eq_ok` says what a
path that is not refused looks like.
-/

namespace SourceNavigator.Path

/-! ## Climbing -/

/-- One name further from a place: `..` leads up, and nowhere at the top. -/
def climb (place : List String) (name : String) : List String :=
  if name = up then place.dropLast else place ++ [name]

theorem climb_up (place : List String) : climb place up = place.dropLast := by
  rw [climb, if_pos rfl]

theorem climb_of_ne {name : String} (h : name ≠ up) (place : List String) :
    climb place name = place ++ [name] := by
  rw [climb, if_neg h]

theorem foldl_climb_of_no_up {names : List String} (h : up ∉ names) (place : List String) :
    names.foldl climb place = place ++ names := by
  induction names generalizing place with
  | nil => simp
  | cons name rest ih =>
      rw [List.mem_cons, not_or] at h
      rw [List.foldl_cons, climb_of_ne (Ne.symm h.1), ih h.2, List.append_assoc,
        List.singleton_append]

theorem mem_foldl_climb {names place : List String} {name : String}
    (h : name ∈ names.foldl climb place) : name ∈ place ∨ name ∈ names ∧ name ≠ up := by
  induction names generalizing place with
  | nil => exact Or.inl h
  | cons first rest ih =>
      rcases ih h with hplace | ⟨hrest, hne⟩
      · by_cases hup : first = up
        · rw [hup, climb_up] at hplace
          exact Or.inl (List.mem_of_mem_dropLast hplace)
        · rw [climb_of_ne hup, List.mem_append, List.mem_singleton] at hplace
          rcases hplace with hplace | rfl
          · exact Or.inl hplace
          · exact Or.inr ⟨List.mem_cons_self, hup⟩
      · exact Or.inr ⟨List.mem_cons_of_mem _ hrest, hne⟩

/-! ## The trail -/

theorem push_of_ne (anchored : Bool) (trail : List String) {name : String} (h : name ≠ up) :
    Route.push anchored trail name = name :: trail := by
  simp [Route.push, h]

theorem push_up_nil (anchored : Bool) :
    Route.push anchored [] up = if anchored then [] else [up] := by
  simp [Route.push]

theorem push_up_cons (anchored : Bool) (last : String) (rest : List String) :
    Route.push anchored (last :: rest) up = if last = up then up :: last :: rest else rest := by
  simp [Route.push]

theorem push_anchored {trail : List String} (h : up ∉ trail) (name : String) :
    (Route.push true trail name).reverse = climb trail.reverse name
      ∧ up ∉ Route.push true trail name := by
  by_cases hup : name = up
  · subst hup
    rw [climb_up]
    cases trail with
    | nil => exact ⟨rfl, List.not_mem_nil⟩
    | cons last rest =>
        rw [List.mem_cons, not_or] at h
        rw [push_up_cons, if_neg (Ne.symm h.1)]
        exact ⟨by simp, h.2⟩
  · rw [push_of_ne _ _ hup, climb_of_ne hup]
    exact ⟨by simp, by simp [h, Ne.symm hup]⟩

theorem foldl_push_anchored (names : List String) {trail : List String} (h : up ∉ trail) :
    (names.foldl (Route.push true) trail).reverse = names.foldl climb trail.reverse := by
  induction names generalizing trail with
  | nil => rfl
  | cons name rest ih =>
      obtain ⟨hstep, hno⟩ := push_anchored h name
      rw [List.foldl_cons, List.foldl_cons, ih hno, hstep]

/-- **Behind an anchor, collapsing is climbing.** -/
theorem collapseNames_anchored (names : List String) :
    Route.collapseNames true names = names.foldl climb [] :=
  foldl_push_anchored names (List.not_mem_nil)

theorem up_not_mem_collapseNames (names : List String) :
    up ∉ Route.collapseNames true names := by
  rw [collapseNames_anchored]
  intro h
  rcases mem_foldl_climb h with h | h
  · exact List.not_mem_nil h
  · exact h.2 rfl

/-- A trail with `..` at its bottom only. -/
def UpsBelow (trail : List String) : Prop :=
  ∃ k rest, trail = rest ++ List.replicate k up ∧ up ∉ rest

theorem push_free {trail : List String} (h : UpsBelow trail) (name : String) :
    UpsBelow (Route.push false trail name) := by
  obtain ⟨k, rest, rfl, hrest⟩ := h
  by_cases hup : name = up
  · subst hup
    cases rest with
    | nil =>
        -- nothing but `..` is left to climb from, so one more is kept
        refine ⟨k + 1, [], ?_, by simp⟩
        cases k with
        | zero => rfl
        | succ k => simp [push_up_cons, List.replicate_succ]
    | cons last others =>
        rw [List.mem_cons, not_or] at hrest
        refine ⟨k, others, ?_, hrest.2⟩
        rw [List.cons_append, push_up_cons, if_neg (Ne.symm hrest.1)]
  · refine ⟨k, name :: rest, ?_, by simp [hrest, Ne.symm hup]⟩
    rw [push_of_ne _ _ hup]
    rfl

theorem foldl_push_free (names : List String) {trail : List String} (h : UpsBelow trail) :
    UpsBelow (names.foldl (Route.push false) trail) := by
  induction names generalizing trail with
  | nil => exact h
  | cons name rest ih => exact ih (push_free h name)

/-- **Without an anchor, `..` is left at the start only.** -/
theorem collapseNames_free (names : List String) :
    ∃ k rest, Route.collapseNames false names = List.replicate k up ++ rest ∧ up ∉ rest := by
  have hempty : UpsBelow [] := ⟨0, [], rfl, List.not_mem_nil⟩
  obtain ⟨k, rest, htrail, hrest⟩ := foldl_push_free names hempty
  refine ⟨k, rest.reverse, ?_, by simpa using hrest⟩
  rw [Route.collapseNames, htrail, List.reverse_append, List.reverse_replicate]

theorem mem_push {anchored : Bool} {trail : List String} {name other : String}
    (h : other ∈ Route.push anchored trail name) : other ∈ trail ∨ other = name := by
  by_cases hup : name = up
  · subst hup
    cases trail with
    | nil =>
        rw [push_up_nil] at h
        cases anchored with
        | true => simp at h
        | false => exact Or.inr (by simpa using h)
    | cons last rest =>
        -- a step up is put on top of steps up only
        rw [push_up_cons] at h
        split at h
        · rcases List.mem_cons.mp h with rfl | h
          · exact Or.inr rfl
          · exact Or.inl h
        · exact Or.inl (List.mem_cons_of_mem _ h)
  · rw [push_of_ne _ _ hup] at h
    rcases List.mem_cons.mp h with rfl | h
    · exact Or.inr rfl
    · exact Or.inl h

theorem mem_foldl_push {anchored : Bool} {names trail : List String} {name : String}
    (h : name ∈ names.foldl (Route.push anchored) trail) : name ∈ trail ∨ name ∈ names := by
  induction names generalizing trail with
  | nil => exact Or.inl h
  | cons first rest ih =>
      rcases ih h with h | h
      · rcases mem_push h with h | rfl
        · exact Or.inl h
        · exact Or.inr List.mem_cons_self
      · exact Or.inr (List.mem_cons_of_mem _ h)

theorem mem_collapseNames {anchored : Bool} {names : List String} {name : String}
    (h : name ∈ Route.collapseNames anchored names) : name ∈ names := by
  rcases mem_foldl_push (List.mem_reverse.mp h) with h | h
  · exact absurd h List.not_mem_nil
  · exact h

theorem collapse_isProper {r : Route} (h : r.IsProper) : r.collapse.IsProper :=
  fun name hname => h name (mem_collapseNames hname)

theorem foldl_push_of_no_up (anchored : Bool) {names : List String} (h : up ∉ names)
    (trail : List String) :
    names.foldl (Route.push anchored) trail = names.reverse ++ trail := by
  induction names generalizing trail with
  | nil => rfl
  | cons name rest ih =>
      rw [List.mem_cons, not_or] at h
      rw [List.foldl_cons, push_of_ne _ _ (Ne.symm h.1), ih h.2, List.reverse_cons,
        List.append_assoc, List.singleton_append]

/-- A name that no `..` follows stays. -/
theorem mem_collapseNames_of_no_up (anchored : Bool) (before : List String) {name : String}
    (hname : name ≠ up) {after : List String} (hafter : up ∉ after) :
    name ∈ Route.collapseNames anchored (before ++ name :: after) := by
  have hno : up ∉ name :: after := by
    rw [List.mem_cons, not_or]
    exact ⟨Ne.symm hname, hafter⟩
  rw [Route.collapseNames, List.foldl_append, foldl_push_of_no_up anchored hno, List.mem_reverse]
  simp

theorem collapse_of_no_up {r : Route} (h : up ∉ r.names) : r.collapse = r := by
  have hnames : Route.collapseNames r.isAnchored r.names = r.names := by
    rw [Route.collapseNames, foldl_push_of_no_up _ h, List.append_nil, List.reverse_reverse]
  show (⟨r.anchor, Route.collapseNames r.isAnchored r.names⟩ : Route) = r
  rw [hnames]

/-! ## Accepted paths -/

theorem startsWithSlash_of_isAbsolute {s : String} (h : isAbsolute s = true) :
    startsWithSlash s = true := by
  unfold isAbsolute at h
  unfold startsWithSlash
  cases hs : s.toList with
  | nil => rw [hs] at h; simp at h
  | cons c cs =>
      rw [hs] at h
      simp_all

/-- **What is accepted.** A path that is not refused is given as a route without an anchor and
without `..`, each of whose names is one of the path. -/
theorem normalize_eq_ok {candidate : String} {r : Route} (h : normalize candidate = .ok r) :
    r = (Route.ofString candidate).collapse ∧ r.anchor = .here ∧ r.IsProper ∧ up ∉ r.names := by
  unfold normalize at h
  split at h
  · cases h
  · split at h
    · cases h
    · rename_i hslash
      simp only at h
      split at h
      · cases h
      · rename_i hhead
        cases h
        have hfree : (Route.ofString candidate).isAnchored = false := by
          rw [isAnchored_ofString]
          by_contra habs
          exact hslash (startsWithSlash_of_isAbsolute (by simpa using habs))
        refine ⟨rfl, ?_, collapse_isProper (ofString_isProper candidate), ?_⟩
        · show (Route.ofString candidate).anchor = .here
          simpa [Route.isAnchored] using hfree
        · -- only leading `..` are left, and a path that starts with one has been refused
          obtain ⟨k, rest, hnames, hrest⟩ := collapseNames_free (Route.ofString candidate).names
          have hcollapse : (Route.ofString candidate).collapse.names
              = List.replicate k up ++ rest := by rw [← hnames, ← hfree]; rfl
          rw [hcollapse] at hhead ⊢
          cases k with
          | zero => simpa using hrest
          | succ k => exact absurd (by simp [List.replicate_succ]) hhead

end SourceNavigator.Path
