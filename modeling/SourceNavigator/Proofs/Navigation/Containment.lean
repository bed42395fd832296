import SourceNavigator.Navigation.Navigator
import SourceNavigator.Proofs.Calls
import SourceNavigator.Proofs.World.Canonical
import SourceNavigator.Proofs.World.Reading

set_option autoImplicit false

/-! # Where checked paths lead

A path that passes the guard is opened at the route that resolving gave for it, and only what stands
there is shown (`showsOnly_of_resolveSafe`). `shown_inside_iff` says when this is inside the root, as
long as no link is overlooked because its path is too long: exactly if the guard, asked again about
its own result, finds it within the root, and always if resolving met no loop. A link through a loop
is resolved by its text from the loop on, and the text may be a link again, which leads outside
(`loop_leads_outside`).
-/

namespace SourceNavigator.Navigation

open SourceNavigator.Path (Route)

namespace Navigator

/-- The navigator with the same settings over another world. -/
def inWorld (n : Navigator) (w : World) : Navigator := { n with world := w }

theorem inWorld_self (n : Navigator) : n.inWorld n.world = n := rfl

/-- What is shown for the path depends on nothing but what stands where the route leads. -/
def ShowsOnly (n : Navigator) (candidate : String) (p : Route) : Prop :=
  ∀ w : World, w.IsSound → w.resolveSafe n.root candidate = .ok p → n.world.AgreeOn w p →
    (∀ first last, (n.inWorld w).showFile candidate first last = n.showFile candidate first last) ∧
      ∀ depth, (n.inWorld w).showTree candidate depth = n.showTree candidate depth

end Navigator

/-! ## What is shown -/

theorem safeRoute_of_resolveSafe {w : World} {root p : Route} {candidate : String}
    (h : w.resolveSafe root candidate = .ok p) : safeRoute w root candidate = Action.done p := by
  unfold safeRoute
  rw [h]

/-- The empty path is the root itself. -/
theorem resolveSafe_empty (w : World) (root : Route) :
    w.resolveSafe root "" = w.resolveSafe root "." := by
  have hempty : Path.normalize "" = Path.normalize "." := by rfl
  unfold World.resolveSafe
  rw [hempty]

theorem readRange_eq {w w' : World} {p : Route} (h : w.AgreeOn w' p) (first : Int)
    (last : Option Int) (most : Int) :
    Excerpt.readRange w' p.address first last most = Excerpt.readRange w p.address first last most := by
  unfold Excerpt.readRange Excerpt.readLines
  rw [h.octetsAt_eq]

theorem showFile_inWorld {n : Navigator} {w : World} {candidate : String} {p : Route}
    (hsafe : n.world.resolveSafe n.root candidate = .ok p)
    (hsafe' : w.resolveSafe n.root candidate = .ok p) (h : n.world.AgreeOn w p)
    (first last : Option Int) :
    (n.inWorld w).showFile candidate first last = n.showFile candidate first last := by
  unfold Navigator.showFile
  split
  · rfl
  · have hleft : safeRoute (n.inWorld w).world (n.inWorld w).root candidate = Action.done p :=
      safeRoute_of_resolveSafe hsafe'
    rw [hleft, safeRoute_of_resolveSafe hsafe]
    rw [Action.done_bind, Action.done_bind]
    refine bind_congr fun shown => ?_
    exact congrArg (· >>= _) (readRange_eq h _ last n.settings.limits.readLines)

theorem showTree_inWorld {n : Navigator} (hn : n.world.IsSound) {w : World} (hw : w.IsSound)
    {candidate : String} {p : Route} (hsafe : n.world.resolveSafe n.root candidate = .ok p)
    (hsafe' : w.resolveSafe n.root candidate = .ok p) (h : n.world.AgreeOn w p)
    (depth : Option Int) : (n.inWorld w).showTree candidate depth = n.showTree candidate depth := by
  have hroutes : w.resolveSafe n.root (if candidate.isEmpty then "." else candidate) = .ok p ∧
      n.world.resolveSafe n.root (if candidate.isEmpty then "." else candidate) = .ok p := by
    -- an empty path stands for the root
    by_cases hempty : candidate.isEmpty
    · rw [if_pos hempty]
      rw [String.isEmpty_iff.mp hempty, resolveSafe_empty] at hsafe hsafe'
      exact ⟨hsafe', hsafe⟩
    · rw [if_neg hempty]
      exact ⟨hsafe', hsafe⟩
  have hleft : safeRoute (n.inWorld w).world (n.inWorld w).root
      (if candidate.isEmpty then "." else candidate) = Action.done p :=
    safeRoute_of_resolveSafe hroutes.1
  unfold Navigator.showTree
  simp only
  rw [hleft, safeRoute_of_resolveSafe hroutes.2, Action.done_bind, Action.done_bind]
  refine bind_congr fun shown => ?_
  have hglance : (n.inWorld w).world.glance p.address = n.world.glance p.address := h.glance_eq
  rw [hglance]
  cases n.world.glance p.address with
  | none => rfl
  | some node =>
      simp only
      split
      · exact congrArg (· >>= _) (h.list_eq hn.tree hw.tree n.settings.sourceEnding _)
      · rfl

theorem showsOnly_of_resolveSafe {n : Navigator} (hn : n.world.IsSound) {candidate : String}
    {p : Route} (hsafe : n.world.resolveSafe n.root candidate = .ok p) : n.ShowsOnly candidate p :=
  fun _ hw hsafe' h =>
    ⟨showFile_inWorld hsafe hsafe' h, showTree_inWorld hn hw hsafe hsafe' h⟩

/-! ## Inside the root -/

theorem resolveSafe_eq_ok {w : World} {root p : Route} {candidate : String}
    (h : w.resolveSafe root candidate = .ok p) :
    ∃ r, w.resolve root = .ok r ∧
      w.resolve (root.append (Route.ofString candidate).collapse) = .ok p ∧
      p.beginsWith r = true := by
  unfold World.resolveSafe at h
  split at h
  · cases h
  · rename_i relative hrelative
    rw [(Path.normalize_eq_ok hrelative).1] at h
    split at h
    · cases h
    · rename_i r hr
      split at h
      · cases h
      · split at h
        · rename_i hp hbegins
          cases h
          exact ⟨r, hr, hp, hbegins⟩
        · cases h

theorem exists_append_of_beginsWith {p r : Route} (h : p.beginsWith r = true) :
    ∃ names, p = r.append ⟨.here, names⟩ := by
  rw [Route.beginsWith, Bool.and_eq_true, beq_iff_eq, List.isPrefixOf_iff_prefix] at h
  obtain ⟨hanchor, names, hnames⟩ := h
  refine ⟨names, ?_⟩
  show p = ⟨r.anchor, r.names ++ names⟩
  rw [hanchor, hnames]

theorem beginsWith_root_iff (place goal : World.Place) :
    Route.beginsWith ⟨.root, goal⟩ ⟨.root, place⟩ = true ↔ place <+: goal := by
  rw [Route.beginsWith, Bool.and_eq_true, List.isPrefixOf_iff_prefix]
  simp

theorem isWithin_of_resolve {w : World} {root path r p : Route} (hr : w.resolve root = .ok r)
    (hp : w.resolve (root.append path) = .ok p) : w.isWithin root path = p.beginsWith r := by
  unfold World.isWithin
  simp only [hr, hp]

/-- If no link is overlooked, the guard compares the places that the system finds. -/
theorem isWithin_iff_of_reach {w : World} (hw : w.IsSound) {root path : Route}
    {place goal : World.Place} (hroot : w.reach root = .ok place) (hrootLinks : w.Discerns root)
    (hpath : w.reach (root.append path) = .ok goal) (hpathLinks : w.Discerns (root.append path)) :
    w.isWithin root path = true ↔ place <+: goal := by
  rw [isWithin_of_resolve (World.resolve_of_reach hw hrootLinks hroot)
    (World.resolve_of_reach hw hpathLinks hpath)]
  exact beginsWith_root_iff place goal

/-- **When a checked path leads inside.** What is shown for a path that passes the guard stands
where the canonical route of the path leads. If no link is overlooked on the way, this is at or below
the place of the root exactly if the guard, asked again about its result, finds it within the root;
and so it is whenever resolving the root and the path meets no loop. -/
theorem shown_inside_iff (n : Navigator) (hn : n.world.IsSound) {candidate : String} {p : Route}
    (hsafe : n.world.resolveSafe n.root candidate = .ok p) {goal : World.Place}
    (hgoal : n.world.reach p = .ok goal) :
    n.ShowsOnly candidate p ∧
      ∃ r place, n.world.resolve n.root = .ok r ∧ n.world.reach r = .ok place ∧
        (n.world.Discerns r → n.world.Discerns p →
          (place <+: goal ↔ n.world.isWithin r p = true)) ∧
        (n.world.Settles n.root → n.world.Discerns n.root →
          n.world.Settles (n.root.append (Route.ofString candidate).collapse) →
          n.world.Discerns (n.root.append (Route.ofString candidate).collapse) →
          place <+: goal) := by
  obtain ⟨r, hr, hp, hbegins⟩ := resolveSafe_eq_ok hsafe
  obtain ⟨names, hnames⟩ := exists_append_of_beginsWith hbegins
  obtain ⟨place, -, hplace, -⟩ := World.exists_reach_of_append rfl (hnames ▸ hgoal)
  refine ⟨showsOnly_of_resolveSafe hn hsafe, r, place, hr, hplace, ?_, ?_⟩
  · intro hrootLinks hlinks
    have hanchored := World.isAnchored_resolve hp
    have happend : r.append p = p := by rw [Route.append, if_pos hanchored]
    -- asked again, the guard compares the places themselves
    rw [← happend] at hgoal hlinks
    exact (isWithin_iff_of_reach hn hplace hrootLinks hgoal hlinks).symm
  · intro hroot hrootLinks hpath hpathLinks
    have hrootPlace : r = ⟨.root, place⟩ := World.reach_of_settles hn hrootLinks hroot hr hplace
    have hpathPlace : p = ⟨.root, goal⟩ := World.reach_of_settles hn hpathLinks hpath hp hgoal
    rw [hrootPlace, hpathPlace] at hbegins
    exact (beginsWith_root_iff place goal).mp hbegins

/-! ## A link through a loop -/

/-- A navigator below `/moodle`, which holds these nodes, beside a file `/secret`. -/
def besideSecret (nodes : List (String × World.Node)) : Navigator where
  world := ⟨.dir [("moodle", .dir nodes), ("secret", .file [115, 51])], [], "/", [], []⟩
  settings := ⟨"/moodle", .default, .default, ".php", ["lib", "course"], .info⟩

/-- A directory with a link to one of its files. -/
def linkedNodes : List (String × World.Node) := [("a", .link "b"), ("b", .file [])]

/-- A link that goes through a link to itself and on to a link that leads outside. -/
def loopedNodes : List (String × World.Node) :=
  [("x", .link "loop/../out"), ("loop", .link "loop"), ("out", .link "../secret")]

theorem shown_inside_linked :
    (besideSecret linkedNodes).world.IsSound ∧
      (besideSecret linkedNodes).world.resolveSafe (besideSecret linkedNodes).root "a"
        = .ok ⟨.root, ["moodle", "b"]⟩ ∧
      (besideSecret linkedNodes).world.reach ⟨.root, ["moodle", "b"]⟩ = .ok ["moodle", "b"] ∧
      (besideSecret linkedNodes).ShowsOnly "a" ⟨.root, ["moodle", "b"]⟩ := by
  have hsound : (besideSecret linkedNodes).world.IsSound := ⟨by decide +kernel, _, rfl⟩
  have hsafe : (besideSecret linkedNodes).world.resolveSafe (besideSecret linkedNodes).root "a"
      = .ok ⟨.root, ["moodle", "b"]⟩ := eq_ok_of_toOption (by decide +kernel)
  have hreach : (besideSecret linkedNodes).world.reach ⟨.root, ["moodle", "b"]⟩
      = .ok ["moodle", "b"] := eq_ok_of_toOption (by decide)
  exact ⟨hsound, hsafe, hreach, (shown_inside_iff _ hsound hsafe hreach).1⟩

/-- **A checked path can lead outside.** The path `x` passes the guard, because its link is resolved
by its text from the loop on; the route is a link to a file beside the root, and this is shown. -/
theorem loop_leads_outside :
    (besideSecret loopedNodes).world.IsSound ∧
      (besideSecret loopedNodes).world.resolveSafe (besideSecret loopedNodes).root "x"
        = .ok ⟨.root, ["moodle", "out"]⟩ ∧
      (besideSecret loopedNodes).world.reach ⟨.root, ["moodle", "out"]⟩ = .ok ["secret"] ∧
      (besideSecret loopedNodes).world.reach (besideSecret loopedNodes).root = .ok ["moodle"] ∧
      ¬ ["moodle"] <+: ["secret"] ∧
      (((besideSecret loopedNodes).showFile "x" none none (Session.begin [] infoSeverity)).1).toOption
        = some "File: x (lines 1-1 of 1)\n\n\x60\x60\x60php\n    1 | s3\n\x60\x60\x60" := by
  refine ⟨⟨by decide, _, rfl⟩, ?_, ?_, ?_, by decide, ?_⟩
  · exact eq_ok_of_toOption (by decide +kernel)
  · exact eq_ok_of_toOption (by decide)
  · exact eq_ok_of_toOption (by decide +kernel)
  · decide +kernel

end SourceNavigator.Navigation
