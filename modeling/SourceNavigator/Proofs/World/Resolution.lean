import SourceNavigator.World.Canonical

set_option autoImplicit false

/-! # One step of a resolution

Resolving takes one name after the other. `nameOutcome` says once all that can become of the first name:
the names behind it are resolved from another route, with what is known of links by then, or the
resolution ends there. What holds along a whole resolution follows from these cases by induction.
-/

namespace SourceNavigator.World

open SourceNavigator.Path (Route up)

variable {w : World} {enter : Route → String → Seen → Resolution} {r : Route} {name : String}
  {rest : List String} {seen : Seen}

theorem resolveNames_stay (hname : Path.leads name = false) :
    resolveNames w enter r (name :: rest) seen = resolveNames w enter r rest seen := by
  rw [resolveNames, hname]
  rfl

theorem resolveNames_back :
    resolveNames w enter r (up :: rest) seen = resolveNames w enter r.parent rest seen := rfl

theorem resolveNames_into (hname : Path.leads name = true) (hup : name ≠ up)
    (hnul : hasNul name = false) (hlink : w.linkTarget? (r.child name) = none) :
    resolveNames w enter r (name :: rest) seen = resolveNames w enter (r.child name) rest seen := by
  rw [resolveNames]
  simp [hname, hup, hnul, hlink]

/-- A link whose route is known is not entered. -/
theorem resolveNames_known (hname : Path.leads name = true) (hup : name ≠ up)
    (hnul : hasNul name = false) {target : String}
    (hlink : w.linkTarget? (r.child name) = some target) {found : Route}
    (hknown : seen.known (r.child name) = some (some found)) :
    resolveNames w enter r (name :: rest) seen = resolveNames w enter found rest seen := by
  rw [resolveNames]
  simp [hname, hup, hnul, hlink, hknown]

/-- A link that is met for the first time is entered, and what it leads to is known from then on. -/
theorem resolveNames_enter (hname : Path.leads name = true) (hup : name ≠ up)
    (hnul : hasNul name = false) {target : String}
    (hlink : w.linkTarget? (r.child name) = some target)
    (hknown : seen.known (r.child name) = none) {found : Route} {more : Seen}
    (hentered : enter r target ((r.child name, none) :: seen) = .settled found more) :
    resolveNames w enter r (name :: rest) seen
      = resolveNames w enter found rest ((r.child name, some found) :: more) := by
  rw [resolveNames]
  simp [hname, hup, hnul, hlink, hknown, hentered]

/-- How a resolution takes a name: from where the names behind it are resolved, or how it ends. -/
inductive NameOutcome (w : World) (enter : Route → String → Seen → Resolution) (r : Route)
    (name : String) (seen : Seen) : Prop where
  | stay (hname : Path.leads name = false)
      (hstep : ∀ rest, resolveNames w enter r (name :: rest) seen = resolveNames w enter r rest seen)
  | back (hup : name = up)
      (hstep : ∀ rest,
        resolveNames w enter r (name :: rest) seen = resolveNames w enter r.parent rest seen)
  | into (hname : Path.leads name = true) (hup : name ≠ up)
      (hlink : w.linkTarget? (r.child name) = none)
      (hstep : ∀ rest,
        resolveNames w enter r (name :: rest) seen = resolveNames w enter (r.child name) rest seen)
  | known (target : String) (found : Route) (hname : Path.leads name = true) (hup : name ≠ up)
      (hlink : w.linkTarget? (r.child name) = some target)
      (hknown : seen.known (r.child name) = some (some found))
      (hstep : ∀ rest,
        resolveNames w enter r (name :: rest) seen = resolveNames w enter found rest seen)
  | entered (target : String) (found : Route) (more : Seen) (hname : Path.leads name = true)
      (hup : name ≠ up) (hlink : w.linkTarget? (r.child name) = some target)
      (hentered : enter r target ((r.child name, none) :: seen) = .settled found more)
      (hstep : ∀ rest, resolveNames w enter r (name :: rest) seen
        = resolveNames w enter found rest ((r.child name, some found) :: more))
  | looped (text : String)
      (hstep : ∀ rest, resolveNames w enter r (name :: rest) seen
        = .looped (Path.joinText text (restText rest)))
  | unspeakable (hstep : ∀ rest, resolveNames w enter r (name :: rest) seen = .unspeakable)
  | exhausted (hstep : ∀ rest, resolveNames w enter r (name :: rest) seen = .exhausted)

theorem nameOutcome (w : World) (enter : Route → String → Seen → Resolution) (r : Route)
    (name : String) (seen : Seen) : NameOutcome w enter r name seen := by
  cases hname : Path.leads name with
  | false => exact .stay hname fun _ => resolveNames_stay hname
  | true =>
      by_cases hup : name = up
      · subst hup
        exact .back rfl fun _ => resolveNames_back
      · cases hnul : hasNul name with
        | true =>
            refine .unspeakable fun rest => ?_
            rw [resolveNames]
            simp [hname, hup, hnul]
        | false =>
            cases hlink : w.linkTarget? (r.child name) with
            | none => exact .into hname hup hlink fun _ => resolveNames_into hname hup hnul hlink
            | some target =>
                cases hknown : seen.known (r.child name) with
                | some state =>
                    cases state with
                    | some found =>
                        exact .known target found hname hup hlink hknown fun _ =>
                          resolveNames_known hname hup hnul hlink hknown
                    | none =>
                        -- the link leads back to itself
                        refine .looped (r.child name).text fun rest => ?_
                        rw [resolveNames]
                        simp [hname, hup, hnul, hlink, hknown]
                | none =>
                    cases hentered : enter r target ((r.child name, none) :: seen) with
                    | settled found more =>
                        exact .entered target found more hname hup hlink hentered fun _ =>
                          resolveNames_enter hname hup hnul hlink hknown hentered
                    | looped text =>
                        refine .looped text fun rest => ?_
                        rw [resolveNames]
                        simp [hname, hup, hnul, hlink, hknown, hentered]
                    | unspeakable =>
                        refine .unspeakable fun rest => ?_
                        rw [resolveNames]
                        simp [hname, hup, hnul, hlink, hknown, hentered]
                    | exhausted =>
                        refine .exhausted fun rest => ?_
                        rw [resolveNames]
                        simp [hname, hup, hnul, hlink, hknown, hentered]

/-- Resolving goes on from where the first names have settled. -/
theorem resolveNames_append {names more : List String} {p : Route} {last : Seen}
    (h : resolveNames w enter r names seen = .settled p last) :
    resolveNames w enter r (names ++ more) seen = resolveNames w enter p more last := by
  induction names generalizing r seen with
  | nil =>
      cases h
      rfl
  | cons name rest ih =>
      rw [List.cons_append]
      cases nameOutcome w enter r name seen with
      | looped text hstep => cases (hstep rest).symm.trans h
      | unspeakable hstep | exhausted hstep => cases (hstep rest).symm.trans h
      | stay _ hstep | back _ hstep | into _ _ _ hstep | known _ _ _ _ _ _ hstep
      | entered _ _ _ _ _ _ _ hstep =>
          rw [hstep] at h ⊢
          exact ih h

end SourceNavigator.World
