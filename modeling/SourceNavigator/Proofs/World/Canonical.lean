import SourceNavigator.Proofs.World.Meeting
import SourceNavigator.Proofs.World.NulNames

set_option autoImplicit false

/-! # Canonical routes and where paths lead

`World.resolve` follows links itself and the operating system follows them again when the result is
opened. Two facts tie them together for a path that overlooks no link (`Discerns`). If the system
finds a place for the path, resolving it gives exactly this place (`resolve_of_reach`): no link is met
while it is being followed, because what is left of a way has fewer links than the link it belongs to.
And if resolving met no loop, no link stands on the route that it gives (`isClear_of_settles`), so the
system can find nothing else there (`reach_of_settles`).
-/

namespace SourceNavigator.World

open SourceNavigator.Path (Route climb climb_up climb_of_ne foldl_climb_of_no_up up)

/-! ## What is known of links -/

namespace Seen

theorem known_cons (link : Route) (found : Option Route) (seen : Seen) (r : Route) :
    Seen.known ((link, found) :: seen) r = if link = r then some found else seen.known r := by
  unfold Seen.known
  rw [List.find?_cons]
  by_cases h : link = r
  · simp [h]
  · simp [h]

/-- A link that is still being resolved is another one than a link that has been. -/
theorem known_of_cons_some {link r other : Route} {seen : Seen}
    (h : Seen.known ((link, some r) :: seen) other = some none) :
    link ≠ other ∧ seen.known other = some none := by
  rw [known_cons] at h
  split at h
  · cases h
  · rename_i hne
    exact ⟨hne, h⟩

/-- All links that have been resolved lead to clear routes. -/
def LeadsClear (w : World) (seen : Seen) : Prop :=
  ∀ link found, seen.known link = some (some found) →
    IsPlain found ∧ IsClear w.tree (w.placeOf found) ∧ Traces w link found

/-- The way through the target of a link. -/
def Crosses (w : World) (link : Route) (goal : Place) (k : Nat) : Prop :=
  ∃ target, w.tree.at? (w.placeOf link) = some (.link target) ∧
    Way w.tree (targetStart (w.placeOf link).dropLast target) (Path.pieces target) goal k

/-- All links that have been resolved were resolved to the places that they lead to. -/
def IsFaithful (w : World) (seen : Seen) : Prop :=
  ∀ link found, seen.known link = some (some found) →
    IsPlain found ∧ (∀ goal k, Crosses w link goal k → w.placeOf found = goal) ∧ Traces w link found

/-- All links that are being resolved take at least `k` links to cross. -/
def IsPending (w : World) (k : Nat) (seen : Seen) : Prop :=
  ∀ link, seen.known link = some none → ∀ goal j, Crosses w link goal j → k ≤ j

theorem Crosses.unique {w : World} {link : Route} {goal goal' : Place} {k k' : Nat}
    (h : Crosses w link goal k) (h' : Crosses w link goal' k') : goal = goal' ∧ k = k' := by
  obtain ⟨target, hat, hway⟩ := h
  obtain ⟨target', hat', hway'⟩ := h'
  rw [hat] at hat'
  cases hat'
  exact hway.unique hway'

theorem LeadsClear.cons_none {w : World} {seen : Seen} (h : LeadsClear w seen) (link : Route) :
    LeadsClear w ((link, none) :: seen) := by
  intro other found hknown
  rw [known_cons] at hknown
  split at hknown
  · cases hknown
  · exact h other found hknown

theorem LeadsClear.cons_some {w : World} {seen : Seen} (h : LeadsClear w seen) {link r : Route}
    (hr : IsPlain r) (hclear : IsClear w.tree (w.placeOf r)) (htraces : Traces w link r) :
    LeadsClear w ((link, some r) :: seen) := by
  intro other found hknown
  rw [known_cons] at hknown
  split at hknown
  · rename_i hlink
    subst hlink
    cases hknown
    exact ⟨hr, hclear, htraces⟩
  · exact h other found hknown

theorem IsFaithful.cons_none {w : World} {seen : Seen} (h : IsFaithful w seen) (link : Route) :
    IsFaithful w ((link, none) :: seen) := by
  intro other found hknown
  rw [known_cons] at hknown
  split at hknown
  · cases hknown
  · exact h other found hknown

theorem IsFaithful.cons_some {w : World} {seen : Seen} (h : IsFaithful w seen) {link r : Route}
    (hr : IsPlain r) {k : Nat} (hcross : Crosses w link (w.placeOf r) k)
    (htraces : Traces w link r) : IsFaithful w ((link, some r) :: seen) := by
  intro other found hknown
  rw [known_cons] at hknown
  split at hknown
  · rename_i hlink
    subst hlink
    cases hknown
    exact ⟨hr, fun goal j hgoal => (hcross.unique hgoal).1, htraces⟩
  · exact h other found hknown

theorem IsPending.mono {w : World} {k j : Nat} {seen : Seen} (h : IsPending w k seen) (hj : j ≤ k) :
    IsPending w j seen :=
  fun link hknown goal i hcross => hj.trans (h link hknown goal i hcross)

theorem IsPending.cons_none {w : World} {k j : Nat} {seen : Seen} (h : IsPending w k seen)
    (hj : j ≤ k) {link : Route} {goal : Place} (hcross : Crosses w link goal j) :
    IsPending w j ((link, none) :: seen) := by
  intro other hknown place i hother
  rw [known_cons] at hknown
  split at hknown
  · rename_i hlink
    subst hlink
    exact (hcross.unique hother).2.le
  · exact h.mono hj other hknown place i hother

end Seen

/-! ## Settled routes are clear -/

theorem isClear_nil {w : World} (hw : w.IsSound) : IsClear w.tree [] := (hw.start true).isSolid.isClear

theorem isClear_targetStart {w : World} (hw : w.IsSound) {place : Place}
    (h : IsClear w.tree place) (target : String) : IsClear w.tree (targetStart place target) := by
  unfold targetStart
  split
  · exact isClear_nil hw
  · exact h

/-- A resolution of names that settles gives a clear route, from which the way goes on, and leaves
only clear ones behind. -/
def SettlesClear (w : World) (r : Route) (names : List String) (x : Resolution) : Prop :=
  ∀ p seen, x = .settled p seen →
    IsPlain p ∧ IsClear w.tree (w.placeOf p) ∧ seen.LeadsClear w ∧ Continues w r names p

theorem settlesClear_resolveNames {w : World} (hw : w.IsSound)
    {enter : Route → String → Seen → Resolution}
    (henter : ∀ r target seen, IsPlain r → IsClear w.tree (w.placeOf r) → seen.LeadsClear w →
      MeetsShort w (targetRoute r target) (Path.pieces target) →
      SettlesClear w (targetRoute r target) (Path.pieces target) (enter r target seen))
    (names : List String) {r : Route} {seen : Seen} (hr : IsPlain r)
    (hclear : IsClear w.tree (w.placeOf r)) (hseen : seen.LeadsClear w)
    (hshort : MeetsShort w r names) :
    SettlesClear w r names (resolveNames w enter r names seen) := by
  induction names generalizing r seen with
  | nil =>
      intro p more h
      cases h
      exact ⟨hr, hclear, hseen, .here w r⟩
  | cons name rest ih =>
      intro p last h
      cases nameOutcome w enter r name seen with
      | looped _ hstep => cases (hstep rest).symm.trans h
      | unspeakable hstep | exhausted hstep => cases (hstep rest).symm.trans h
      | stay hname hstep =>
          rw [hstep] at h
          obtain ⟨hp, hpClear, hlast, hgoes⟩ :=
            ih hr hclear hseen (hshort.stay hname) p last h
          exact ⟨hp, hpClear, hlast, hgoes.stay hname⟩
      | back hup hstep =>
          subst hup
          rw [hstep] at h
          have hparent : IsClear w.tree (w.placeOf r.parent) := by
            rw [placeOf_parent w hr]
            exact hclear.of_prefix (List.dropLast_prefix _)
          obtain ⟨hp, hpClear, hlast, hgoes⟩ :=
            ih hr.parent hparent hseen hshort.back p last h
          exact ⟨hp, hpClear, hlast, hgoes.back⟩
      | into hname hup hlink hstep =>
          rw [hstep] at h
          -- no link is seen at the child, and the route is short, so none stands there
          have hno : ∀ target, w.tree.at? (w.placeOf r ++ [name]) ≠ some (.link target) := by
            intro target hat
            have hseenLink := linkTarget?_of_at? hw hr hname hup (hshort.here hname hup hat) hat
            rw [hlink] at hseenLink
            cases hseenLink
          have hchild : IsClear w.tree (w.placeOf (r.child name)) := by
            rw [placeOf_child w r hup]
            exact hclear.concat hno
          obtain ⟨hp, hpClear, hlast, hgoes⟩ :=
            ih (hr.child hname hup) hchild hseen (hshort.into hname hup hno) p last h
          exact ⟨hp, hpClear, hlast, hgoes.into hname hup hno⟩
      | known target found hname hup hlink hknown hstep =>
          rw [hstep] at h
          have hat := at?_of_linkTarget? hw hr hclear hname hup hlink
          obtain ⟨hplain, hfoundClear, htraces⟩ := hseen _ _ hknown
          have htarget := htraces.continues hat
          obtain ⟨hp, hpClear, hlast, hgoes⟩ :=
            ih hplain hfoundClear hseen (hshort.behind hname hup hat htarget) p last h
          exact ⟨hp, hpClear, hlast, .jump hname hup hat htarget hgoes⟩
      | entered target found more hname hup hlink hentered hstep =>
          rw [hstep] at h
          have hat := at?_of_linkTarget? hw hr hclear hname hup hlink
          obtain ⟨hplain, hfoundClear, hmore, htarget⟩ := henter r target _ hr hclear
            (hseen.cons_none _) (hshort.inside hname hup hat) found more hentered
          have htraces : Traces w (r.child name) found := ⟨r, name, target, rfl, hat, htarget⟩
          obtain ⟨hp, hpClear, hlast, hgoes⟩ := ih hplain hfoundClear
            (hmore.cons_some hplain hfoundClear htraces) (hshort.behind hname hup hat htarget) p last h
          exact ⟨hp, hpClear, hlast, .jump hname hup hat htarget hgoes⟩

theorem settlesClear_resolveTarget {w : World} (hw : w.IsSound) (depth : Nat) (r : Route)
    (target : String) (seen : Seen) (hr : IsPlain r) (hclear : IsClear w.tree (w.placeOf r))
    (hseen : seen.LeadsClear w) (hshort : MeetsShort w (targetRoute r target) (Path.pieces target)) :
    SettlesClear w (targetRoute r target) (Path.pieces target)
      (resolveTarget w depth r target seen) := by
  induction depth generalizing r target seen with
  | zero =>
      intro p more h
      cases h
  | succ depth ih =>
      refine settlesClear_resolveNames hw ih _ (isPlain_targetRoute hr target) ?_ hseen hshort
      rw [placeOf_targetRoute]
      exact isClear_targetStart hw hclear target

/-! ## Ways are resolved -/

/-- A resolution of names settles at a place, from which the way goes on, and no further link is left
unresolved. -/
def SettlesAt (w : World) (goal : Place) (r : Route) (names : List String) (seen : Seen)
    (x : Resolution) : Prop :=
  ∃ p more, x = .settled p more ∧ IsPlain p ∧ w.placeOf p = goal ∧ more.IsFaithful w ∧
    Continues w r names p ∧ ∀ link, more.known link = some none → seen.known link = some none

/-- Targets of links are resolved to where they lead, as far as this takes fewer than `links` links. -/
def EntersAt (w : World) (links : Nat) (enter : Route → String → Seen → Resolution) : Prop :=
  ∀ i < links, ∀ r target seen goal, IsPlain r →
    Way w.tree (targetStart (w.placeOf r) target) (Path.pieces target) goal i →
    MeetsShort w (targetRoute r target) (Path.pieces target) →
    seen.IsFaithful w → seen.IsPending w i →
    SettlesAt w goal (targetRoute r target) (Path.pieces target) seen (enter r target seen)

/-- A link on a way is resolved to where its target leads, and the names behind it from there. -/
theorem exists_resolveNames_link {w : World} (hw : w.IsSound)
    {enter : Route → String → Seen → Resolution} {links : Nat} (henter : EntersAt w links enter)
    {name : String} {rest : List String} {r : Route} {target : String} {middle : Place} {i k : Nat}
    {seen : Seen} (hi : i < k) (hk : k ≤ links) (hr : IsPlain r) (hname : Path.leads name = true)
    (hup : name ≠ up) (hat : w.tree.at? (w.placeOf r ++ [name]) = some (.link target))
    (hinner : Way w.tree (targetStart (w.placeOf r) target) (Path.pieces target) middle i)
    (hshort : MeetsShort w r (name :: rest)) (hseen : seen.IsFaithful w)
    (hpending : seen.IsPending w k) :
    ∃ found more,
      resolveNames w enter r (name :: rest) seen = resolveNames w enter found rest more ∧
      IsPlain found ∧ w.placeOf found = middle ∧ more.IsFaithful w ∧
      Continues w (targetRoute r target) (Path.pieces target) found ∧
      ∀ link, more.known link = some none → seen.known link = some none := by
  have hnul : hasNul name = false := (Node.isFileName_of_at? hw.tree hat name (by simp)).2.2.1
  have hlink : w.linkTarget? (r.child name) = some target :=
    linkTarget?_of_at? hw hr hname hup (hshort.here hname hup hat) hat
  have hcross : Seen.Crosses w (r.child name) middle i := by
    refine ⟨target, ?_, ?_⟩
    · rw [placeOf_child w r hup]
      exact hat
    · rw [placeOf_child w r hup, List.dropLast_concat]
      exact hinner
  cases hknown : seen.known (r.child name) with
  | some state =>
      cases state with
      | some found =>
          obtain ⟨hplain, hfound, htraces⟩ := hseen _ _ hknown
          exact ⟨found, seen, resolveNames_known hname hup hnul hlink hknown, hplain,
            hfound middle i hcross, hseen, htraces.continues hat, fun _ h => h⟩
      | none =>
          -- the link is being resolved, so that crossing it takes more links than are left
          have := hpending _ hknown middle i hcross
          omega
  | none =>
      obtain ⟨found, more, hentered, hplain, hfound, hmore, htarget, hopen⟩ :=
        henter i (by omega) r target ((r.child name, none) :: seen) middle hr hinner
          (hshort.inside hname hup hat) (hseen.cons_none _) (hpending.cons_none hi.le hcross)
      have htraces : Traces w (r.child name) found := ⟨r, name, target, rfl, hat, htarget⟩
      rw [← hfound] at hcross
      refine ⟨found, (r.child name, some found) :: more,
        resolveNames_enter hname hup hnul hlink hknown hentered, hplain, hfound,
        hmore.cons_some hplain hcross htraces, htarget, fun link hopenLink => ?_⟩
      -- only links that were being resolved before are still being resolved
      obtain ⟨hne, hopenLink⟩ := Seen.known_of_cons_some hopenLink
      have h := hopen link hopenLink
      rw [Seen.known_cons, if_neg hne] at h
      exact h

theorem settlesAt_resolveNames {w : World} (hw : w.IsSound)
    {enter : Route → String → Seen → Resolution} {links : Nat} (henter : EntersAt w links enter)
    {names : List String} {r : Route} {goal : Place} {k : Nat} {seen : Seen} (hk : k ≤ links)
    (hr : IsPlain r) (hway : Way w.tree (w.placeOf r) names goal k) (hshort : MeetsShort w r names)
    (hseen : seen.IsFaithful w) (hpending : seen.IsPending w k) :
    SettlesAt w goal r names seen (resolveNames w enter r names seen) := by
  induction names generalizing r k seen with
  | nil =>
      cases hway
      exact ⟨r, seen, rfl, hr, rfl, hseen, .here w r, fun _ h => h⟩
  | cons name rest ih =>
      cases hway with
      | stay _ hname hrest =>
          obtain ⟨p, last, hsettled, hp, hplace, hlast, hgoes, hleft⟩ :=
            ih hk hr hrest (hshort.stay hname) hseen hpending
          rw [resolveNames_stay hname]
          exact ⟨p, last, hsettled, hp, hplace, hlast, hgoes.stay hname, hleft⟩
      | back _ hrest =>
          rw [← placeOf_parent w hr] at hrest
          obtain ⟨p, last, hsettled, hp, hplace, hlast, hgoes, hleft⟩ :=
            ih hk hr.parent hrest hshort.back hseen hpending
          rw [resolveNames_back]
          exact ⟨p, last, hsettled, hp, hplace, hlast, hgoes.back, hleft⟩
      | into hplace hname hup _ hat hnode hrest =>
          have hnul : hasNul name = false :=
            (Node.isFileName_of_at? hw.tree hat name (by simp)).2.2.1
          have hno : ∀ target, w.tree.at? (w.placeOf r ++ [name]) ≠ some (.link target) := by
            intro target htarget
            rw [hat] at htarget
            exact hnode target (Option.some.inj htarget)
          have hlink : w.linkTarget? (r.child name) = none := by
            refine Option.eq_none_iff_forall_ne_some.mpr fun target htarget => ?_
            exact hno target (at?_of_linkTarget? hw hr hplace.isSolid.isClear hname hup htarget)
          rw [← placeOf_child w r hup] at hrest
          obtain ⟨p, last, hsettled, hp, hgoal, hlast, hgoes, hleft⟩ :=
            ih hk (hr.child hname hup) hrest (hshort.into hname hup hno) hseen hpending
          rw [resolveNames_into hname hup hnul hlink]
          exact ⟨p, last, hsettled, hp, hgoal, hlast, hgoes.into hname hup hno, hleft⟩
      | @jump _ _ _ _ k target hplace hname hup _ hat hrest =>
          -- the way goes through the target first and then through the names behind the link
          obtain ⟨middle, i, j, hinner, houter, hsum⟩ := hrest.split
          obtain ⟨found, more, hstep, hplain, hfound, hmore, htarget, hopen⟩ :=
            exists_resolveNames_link hw henter (by omega : i < k + 1) hk hr hname hup hat hinner
              hshort hseen hpending
          have hpending' : Seen.IsPending w j more :=
            fun link h => hpending.mono (by omega) link (hopen link h)
          rw [← hfound] at houter
          obtain ⟨p, last, hsettled, hp, hgoal, hlast, hgoes, hleft⟩ := ih (by omega) hplain houter
            (hshort.behind hname hup hat htarget) hmore hpending'
          rw [hstep]
          exact ⟨p, last, hsettled, hp, hgoal, hlast, .jump hname hup hat htarget hgoes,
            fun link h => hopen link (hleft link h)⟩

theorem entersAt_resolveTarget {w : World} (hw : w.IsSound) (depth : Nat) :
    EntersAt w depth (resolveTarget w depth) := by
  induction depth with
  | zero => exact fun i hi => absurd hi (Nat.not_lt_zero i)
  | succ depth ih =>
      intro i hi r target seen goal hr hway hshort hseen hpending
      rw [← placeOf_targetRoute] at hway
      exact settlesAt_resolveNames hw ih (Nat.lt_succ_iff.mp hi) (isPlain_targetRoute hr target) hway
        hshort hseen hpending

/-! ## Canonical routes -/

/-- Resolving the names of a route meets no link while it is being followed, and there are calls for all
links that it meets. -/
def Settles (w : World) (r : Route) : Prop :=
  ∃ p seen, resolveNames w (resolveTarget w linkRoom) (originOf r.isAnchored) r.names []
    = .settled p seen

theorem leadsClear_nil (w : World) : Seen.LeadsClear w [] := by
  intro link found hknown
  cases hknown

theorem isFaithful_nil (w : World) : Seen.IsFaithful w [] := by
  intro link found hknown
  cases hknown

theorem isPending_nil (w : World) (k : Nat) : Seen.IsPending w k [] := by
  intro link hknown
  cases hknown

/-- A plain route is placed by its text. -/
theorem collapse_append_base {w : World} (hw : w.IsSound) {r : Route} (hr : IsPlain r) :
    (w.base.append r).collapse = ⟨.root, w.placeOf r⟩ := by
  have hcwd : up ∉ w.cwd := by
    obtain ⟨entries, hcwd⟩ := hw.cwd
    exact fun hmem => (Node.isFileName_of_at? hw.tree hcwd up hmem).2.1 rfl
  have hbase : w.cwd.foldl climb [] = w.cwd := by rw [foldl_climb_of_no_up hcwd, List.nil_append]
  obtain ⟨anchor, names⟩ := r
  cases anchor with
  | here =>
      show (⟨.root, Route.collapseNames true (w.cwd ++ names)⟩ : Route) = _
      rw [Path.collapseNames_anchored, List.foldl_append, hbase]
      rfl
  | root =>
      show (⟨.root, Route.collapseNames true names⟩ : Route) = _
      rw [Path.collapseNames_anchored]
      rfl
  | twin => exact absurd rfl hr.anchor

theorem realRoute_of_settled {w : World} (hw : w.IsSound) {r p : Route} {seen : Seen}
    (h : resolveNames w (resolveTarget w linkRoom) (originOf r.isAnchored) r.names []
      = .settled p seen) (hp : IsPlain p) : w.realRoute r = .ok ⟨.root, w.placeOf p⟩ := by
  unfold originOf at h
  unfold realRoute
  simp only [h, collapse_append_base hw hp]

theorem realRoute_of_reach {w : World} (hw : w.IsSound) {r : Route} (hr : w.Discerns r) {goal : Place}
    (h : w.reach r = .ok goal) : w.realRoute r = .ok ⟨.root, goal⟩ ∧ w.Settles r := by
  obtain ⟨k, hk, hway⟩ := reach_eq_ok_iff.mp h
  rw [← placeOf_originOf] at hway
  have hlinks : k ≤ linkRoom := hk.trans (by decide)
  obtain ⟨p, seen, hsettled, hp, hplace, -, -, -⟩ :=
    settlesAt_resolveNames hw (entersAt_resolveTarget hw linkRoom) hlinks
      (isPlain_originOf r.isAnchored) hway hr (isFaithful_nil w) (isPending_nil w k)
  refine ⟨?_, p, seen, hsettled⟩
  rw [realRoute_of_settled hw hsettled hp, hplace]

theorem leadDown_of_at? {tree node : Node} (htree : tree.isSound = true) {place : Place}
    (h : tree.at? place = some node) : LeadDown place := by
  intro name hmem
  obtain ⟨hname, hup, -⟩ := Node.isFileName_of_at? htree h name hmem
  exact ⟨hname.1, hup⟩

theorem leadDown_placeOf {w : World} (hw : w.IsSound) {r : Route} (hr : IsPlain r) :
    LeadDown (w.placeOf r) := by
  intro name hmem
  rcases Path.mem_foldl_climb hmem with hstart | ⟨hnames, hup⟩
  · obtain ⟨entries, hat⟩ := hw.start r.isAnchored
    exact leadDown_of_at? hw.tree hat name hstart
  · obtain ⟨-, k, rest, hshape, hrest, -⟩ := hr
    rw [hshape] at hnames
    rcases List.mem_append.mp hnames with hups | hdown
    · exact absurd (List.eq_of_mem_replicate hups) hup
    · exact hrest name hdown

theorem isClear_of_settles {w : World} (hw : w.IsSound) {r : Route} (hr : w.Discerns r)
    (h : w.Settles r) :
    ∃ place, w.realRoute r = .ok ⟨.root, place⟩ ∧ IsClear w.tree place ∧ LeadDown place := by
  obtain ⟨p, seen, hsettled⟩ := h
  have hstart : IsClear w.tree (w.placeOf (originOf r.isAnchored)) := by
    rw [placeOf_originOf]
    exact (hw.start _).isSolid.isClear
  obtain ⟨hp, hclear, -, -⟩ :=
    settlesClear_resolveNames hw (settlesClear_resolveTarget hw linkRoom) r.names
      (isPlain_originOf r.isAnchored) hstart (leadsClear_nil w) hr p seen hsettled
  exact ⟨w.placeOf p, realRoute_of_settled hw hsettled hp, hclear, leadDown_placeOf hw hp⟩

theorem isSolid_of_reach {w : World} (hw : w.IsSound) {r : Route} {goal : Place}
    (h : w.reach r = .ok goal) : IsSolid w.tree goal := by
  obtain ⟨k, -, hway⟩ := reach_eq_ok_iff.mp h
  exact hway.isSolid (hw.start r.isAnchored).isSolid

theorem findNode_of_reach {w : World} {r : Route} {goal : Place} {node : Node}
    (h : w.reach r = .ok goal) (hat : w.tree.at? goal = some node) :
    w.findNode r.address ≠ .error .tooManyLinks := by
  unfold findNode
  rcases findPlace_address w .followed r with hwalk | ⟨f, hfail, hf⟩
  · rw [hwalk, show walk w.tree .followed maxLinks _ _ = .ok goal from h]
    simp only [hat]
    exact fun h => nomatch h
  · rw [hfail]
    exact fun h => hf (Except.error.inj h)

/-- **What the system finds is what resolving gives**, if no link on the way is overlooked. -/
theorem resolve_of_reach {w : World} (hw : w.IsSound) {r : Route} (hr : w.Discerns r) {goal : Place}
    (h : w.reach r = .ok goal) : w.resolve r = .ok ⟨.root, goal⟩ := by
  have hsolid := isSolid_of_reach hw h
  obtain ⟨node, hat, -⟩ := id hsolid
  have hdown := leadDown_of_at? hw.tree hat
  have hself : w.reach ⟨.root, goal⟩ = .ok goal := by
    have hreach := reach_of_isSolid hw (isPlain_root hdown)
    rw [placeOf_root w hdown] at hreach
    exact hreach hsolid
  have hnul : hasNul (Route.text ⟨.root, goal⟩) = false :=
    hasNul_text_eq_false fun name (hmem : name ∈ goal) =>
      (Node.isFileName_of_at? hw.tree hat name hmem).2.2.1
  -- the result is looked up once more; walking it cannot run into too many links
  have hfound := findNode_of_reach hself hat
  rw [resolve, (realRoute_of_reach hw hr h).1]
  simp only [hnul, Bool.false_eq_true, if_false]

/-- **Where no loop is met, the system finds the route that resolving gives, or nothing.** -/
theorem reach_of_settles {w : World} (hw : w.IsSound) {r p : Route} (hr : w.Discerns r)
    (h : w.Settles r) (hp : w.resolve r = .ok p) {goal : Place} (hgoal : w.reach p = .ok goal) :
    p = ⟨.root, goal⟩ := by
  obtain ⟨place, hreal, hclear, hdown⟩ := isClear_of_settles hw hr h
  have hp := realRoute_of_resolve hp
  rw [hreal] at hp
  cases hp
  have hplace := placeOf_root w hdown
  rw [reach_of_isClear hw (isPlain_root hdown) (hplace.symm ▸ hclear) hgoal, hplace]

end SourceNavigator.World
