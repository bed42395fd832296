import SourceNavigator.Proofs.Navigation.Containment
import SourceNavigator.Proofs.World.Overlooked

set_option autoImplicit false

/-! # The guard on paths that are there

The guard fails in one way only, with an invalid path. Where the system finds the root and the path, it
gives exactly the place of the path or refuses it, as the place lies below that of the root or not
(`safeRoute_exact`). This needs that no link on the way is overlooked: one that stands too deep is
taken for a plain name, and the guard gives its path, although it leads outside
(`overlooked_link_given`).
-/

namespace SourceNavigator.Navigation

open SourceNavigator.Path (Route Refusal)

variable {w : World} {root : Route} {candidate : String}

theorem yields_logRejection (candidate : String) (rejection : World.Rejection) :
    (Navigator.logRejection candidate rejection).Yields () := by
  unfold Navigator.logRejection
  split
  · exact Action.yields_log warningSeverity Navigator.guardSource _
  · exact Action.yields_done ()

/-- A path is refused as an invalid path. -/
theorem safeRoute_of_rejection {rejection : World.Rejection}
    (h : w.resolveSafe root candidate = .error rejection) (s : Session) :
    (safeRoute w root candidate s).1
      = .error (.invalidPath (some candidate) rejection.refusal.reason) := by
  obtain ⟨s', hlog, -⟩ := yields_logRejection candidate rejection s
  unfold safeRoute
  simp only [h]
  rw [Action.bind_apply hlog]
  rfl

theorem safeRoute_cases (w : World) (root : Route) (candidate : String) (s : Session) :
    (∃ p, (safeRoute w root candidate s).1 = .ok p) ∨
      ∃ reason, (safeRoute w root candidate s).1 = .error (.invalidPath (some candidate) reason) := by
  cases h : w.resolveSafe root candidate with
  | ok p =>
      left
      rw [safeRoute_of_resolveSafe h]
      exact ⟨p, rfl⟩
  | error rejection =>
      right
      exact ⟨_, safeRoute_of_rejection h s⟩

/-- The guard compares the canonical routes of the root and of the path. -/
theorem resolveSafe_of_resolve {relative r p : Route}
    (hrelative : Path.normalize candidate = .ok relative) (hr : w.resolve root = .ok r)
    (hp : w.resolve (root.append relative) = .ok p) :
    w.resolveSafe root candidate
      = if p.beginsWith r then .ok p else .error ⟨.leavesRoot, some p⟩ := by
  unfold World.resolveSafe
  simp only [hrelative, hr, hp]

/-- **The guard is exact on paths that are there.** It never fails but with an invalid path. Let the
system find the root and the path behind it, both without overlooking a link. Then the guard gives the
place of the path if this is the place of the root or lies below it, name by name, and refuses the path
otherwise. -/
theorem safeRoute_exact (hw : w.IsSound) (root : Route) (candidate : String) :
    (∀ s, (∃ p, (safeRoute w root candidate s).1 = .ok p) ∨
      ∃ reason, (safeRoute w root candidate s).1 = .error (.invalidPath (some candidate) reason)) ∧
    ∀ relative place goal, Path.normalize candidate = .ok relative → w.reach root = .ok place →
      w.reach (root.append relative) = .ok goal → w.Discerns root →
      w.Discerns (root.append relative) → ∀ s,
        (place <+: goal → (safeRoute w root candidate s).1 = .ok ⟨.root, goal⟩) ∧
        (¬ place <+: goal → (safeRoute w root candidate s).1
          = .error (.invalidPath (some candidate) Refusal.leavesRoot.reason)) := by
  refine ⟨safeRoute_cases w root candidate, ?_⟩
  intro relative place goal hrelative hroot hpath hrootLinks hpathLinks s
  have hsafe := resolveSafe_of_resolve hrelative (World.resolve_of_reach hw hrootLinks hroot)
    (World.resolve_of_reach hw hpathLinks hpath)
  constructor
  · intro hinside
    rw [if_pos ((beginsWith_root_iff place goal).mpr hinside)] at hsafe
    rw [safeRoute_of_resolveSafe hsafe]
    rfl
  · intro houtside
    rw [if_neg fun h => houtside ((beginsWith_root_iff place goal).mp h)] at hsafe
    exact safeRoute_of_rejection hsafe s

/-- A file with a link to it, and a link to the file beside the root. -/
def guardedNodes : List (String × World.Node) :=
  [("a", .link "b"), ("b", .file []), ("out", .link "../secret")]

theorem safeRoute_guarded :
    (besideSecret guardedNodes).world.IsSound ∧
      ∀ s, (safeRoute (besideSecret guardedNodes).world (besideSecret guardedNodes).root "./a" s).1
          = .ok ⟨.root, ["moodle", "b"]⟩ ∧
        (safeRoute (besideSecret guardedNodes).world (besideSecret guardedNodes).root "out" s).1
          = .error (.invalidPath (some "out") Refusal.leavesRoot.reason) := by
  have hsound : (besideSecret guardedNodes).world.IsSound := ⟨by decide, _, rfl⟩
  have hlinks (r : Route) (hr : r.isAnchored = true) : (besideSecret guardedNodes).world.Discerns r :=
    World.discerns_of_linksAreShort (World.linksAreShort_of_linksFit (by decide +kernel)) hr
  have hroot : (besideSecret guardedNodes).world.reach (besideSecret guardedNodes).root
      = .ok ["moodle"] := eq_ok_of_toOption (by decide)
  have hlinked : (besideSecret guardedNodes).world.reach
      ((besideSecret guardedNodes).root.append ⟨.here, ["a"]⟩) = .ok ["moodle", "b"] :=
    eq_ok_of_toOption (by decide +kernel)
  have houtside : (besideSecret guardedNodes).world.reach
      ((besideSecret guardedNodes).root.append ⟨.here, ["out"]⟩) = .ok ["secret"] :=
    eq_ok_of_toOption (by decide +kernel)
  refine ⟨hsound, fun s => ⟨?_, ?_⟩⟩
  · have hnormal : Path.normalize "./a" = .ok ⟨.here, ["a"]⟩ := eq_ok_of_toOption (by decide +kernel)
    exact ((safeRoute_exact hsound _ "./a").2 _ _ _ hnormal hroot hlinked
      (hlinks _ (by decide)) (hlinks _ (by decide +kernel)) s).1 (by decide)
  · have hnormal : Path.normalize "out" = .ok ⟨.here, ["out"]⟩ := eq_ok_of_toOption (by decide +kernel)
    exact ((safeRoute_exact hsound _ "out").2 _ _ _ hnormal hroot houtside
      (hlinks _ (by decide)) (hlinks _ (by decide)) s).2 (by decide)

/-! ## A link far below the root -/

/-- A name that is as long as a name can be. -/
def longName : String := String.ofList (List.replicate 255 'n')

/-- Sixteen directories below each other, with a link out of the root in the last one. -/
def buriedNodes : List (String × World.Node) := World.burrow longName [("b", .link "/secret")] 16

/-- A navigator below `/moodle`, which holds `buriedNodes`, beside a file with these octets. -/
def besideBuried (secret : List UInt8) : Navigator :=
  (besideSecret buriedNodes).inWorld
    ⟨.dir [("moodle", .dir buriedNodes), ("secret", .file secret)], [], "/", [], []⟩

/-- The path of the link through the links above it. -/
def buriedRoute : Route := ⟨.here, List.replicate 16 "l" ++ ["b"]⟩

/-- The place of the link. -/
def buriedPlace : World.Place := ["moodle"] ++ List.replicate 16 longName ++ ["b"]

theorem length_longName : longName.length = 255 := World.length_replicate 'n' 255

theorem longName_ne : longName ≠ "l" := by
  intro heq
  have hlength := congrArg String.length heq
  rw [length_longName] at hlength
  exact absurd hlength (by decide)

theorem utf8ByteSize_longName : longName.utf8ByteSize = 255 :=
  World.utf8ByteSize_replicate (by decide) 255

theorem isFileName_longName : World.IsFileName longName :=
  World.isFileName_replicate (by decide) (by decide) (by decide) (by decide) (by decide)

section Buried

variable (secret : List UInt8)

theorem isSound_besideBuried : (besideBuried secret).world.IsSound := by
  have hburied : World.Node.areSound buriedNodes = true :=
    World.isSound_burrow isFileName_longName longName_ne (by decide) 16
  have hnames : World.IsFileName "moodle" ∧ World.IsFileName "secret" := by decide
  refine ⟨?_, _, rfl⟩
  simp [besideBuried, Navigator.inWorld, World.Node.isSound, World.Node.areSound, World.Node.named?,
    hburied, hnames]

theorem at?_moodle : (besideBuried secret).world.tree.at? ["moodle"] = some (.dir buriedNodes) := rfl

theorem at?_buriedPlace :
    (besideBuried secret).world.tree.at? buriedPlace = some (.link "/secret") :=
  World.Node.at?_concat (World.at?_bottom longName_ne (at?_moodle secret)) "b"

theorem root_besideBuried : (besideBuried secret).root = ⟨.root, ["moodle"]⟩ := by
  show Route.ofString "/moodle" = _
  rfl

theorem way_buried : World.Way (besideBuried secret).world.tree [] ("moodle" :: List.replicate 16 "l")
    (["moodle"] ++ List.replicate 16 longName) 16 := by
  refine .into ⟨_, rfl⟩ (by decide) (by decide) (by decide) (at?_moodle secret)
    (fun _ => World.Node.noConfusion) ?_
  exact World.way_burrow isFileName_longName longName_ne (at?_moodle secret)

/-- The system follows the link. -/
theorem reach_buried :
    (besideBuried secret).world.reach ((besideBuried secret).root.append buriedRoute)
      = .ok ["secret"] := by
  rw [root_besideBuried, World.reach_eq_ok_iff]
  have hstands := World.Node.exists_dir_of_at? (at?_buriedPlace secret) (by simp)
  have hlast : World.Way (besideBuried secret).world.tree
      (["moodle"] ++ List.replicate 16 longName) ["b"] ["secret"] 1 := by
    refine .jump hstands (by decide) (by decide) (by decide) (at?_buriedPlace secret) ?_
    refine .stay ⟨_, rfl⟩ (by decide) ?_
    exact .into ⟨_, rfl⟩ (by decide) (by decide) (by decide) rfl (fun _ => World.Node.noConfusion)
      (.here _)
  exact ⟨17, by decide, (way_buried secret).append hlast⟩

/-- The links above are all seen. -/
theorem discerns_buried :
    (besideBuried secret).world.Discerns ⟨.root, "moodle" :: List.replicate 16 "l"⟩ := by
  intro link hlink
  have hmoodle : World.Meets (besideBuried secret).world ⟨.root, ["moodle"]⟩
      (List.replicate 16 "l") link :=
    hlink.of_node (by decide) (by decide) fun _ h => nomatch h
  refine World.isShort_of_meets_burrow isFileName_longName longName_ne ?_ (at?_moodle secret) ?_ hmoodle
  · intro name hname
    obtain rfl := List.mem_singleton.mp hname
    exact ⟨by decide, by decide⟩
  · rw [utf8ByteSize_longName]
    decide

theorem not_isShort_buriedPlace : ¬ World.IsShort ⟨.root, buriedPlace⟩ := by
  have hsize : World.pathSize buriedPlace = 7 + 16 * 256 + 2 := by
    rw [buriedPlace, World.pathSize_append, World.pathSize_append, World.pathSize_replicate,
      utf8ByteSize_longName]
    decide
  rw [World.IsShort, World.utf8ByteSize_text_root (by simp [buriedPlace]), hsize]
  decide

/-- The guard does not see the link. -/
theorem resolve_buried :
    (besideBuried secret).world.resolve ((besideBuried secret).root.append buriedRoute)
      = .ok ⟨.root, buriedPlace⟩ := by
  have hreach : (besideBuried secret).world.reach ⟨.root, "moodle" :: List.replicate 16 "l"⟩
      = .ok (["moodle"] ++ List.replicate 16 longName) :=
    World.reach_eq_ok_iff.mpr ⟨16, by decide, way_buried secret⟩
  rw [root_besideBuried]
  exact World.resolve_of_overlooked (isSound_besideBuried secret) rfl (discerns_buried secret) hreach
    (at?_buriedPlace secret) not_isShort_buriedPlace

theorem reach_root_besideBuried :
    (besideBuried secret).world.reach (besideBuried secret).root = .ok ["moodle"] := by
  rw [root_besideBuried, World.reach_eq_ok_iff]
  refine ⟨0, by decide, ?_⟩
  exact .into ⟨_, rfl⟩ (by decide) (by decide) (by decide) (at?_moodle secret)
    (fun _ => World.Node.noConfusion) (.here _)

theorem resolve_root_besideBuried :
    (besideBuried secret).world.resolve (besideBuried secret).root = .ok ⟨.root, ["moodle"]⟩ := by
  refine World.resolve_of_reach (isSound_besideBuried secret) ?_ (reach_root_besideBuried secret)
  intro link hlink
  rw [root_besideBuried] at hlink
  exact nomatch hlink.of_node (by decide) (by decide) fun _ h => nomatch h

theorem beginsWith_buriedPlace :
    Route.beginsWith ⟨.root, buriedPlace⟩ ⟨.root, ["moodle"]⟩ = true := by
  rw [beginsWith_root_iff, buriedPlace, List.append_assoc]
  exact List.prefix_append _ _

/-- The short path of the link is looked up, and the link is followed. -/
theorem findPlace_buried :
    (besideBuried secret).world.findPlace .followed
      ((besideBuried secret).root.append buriedRoute).address = .ok ["secret"] := by
  have hreach := reach_buried secret
  rw [root_besideBuried] at hreach ⊢
  rw [World.findPlace_of_isShort _ _ (by decide) (by decide)]
  exact hreach

end Buried

/-- The text of `buriedRoute`. -/
def buriedText : String := "l/l/l/l/l/l/l/l/l/l/l/l/l/l/l/l/b"

/-- **The guard gives the path of an overlooked link.** The system finds the path in the file beside the
root, and the guard, instead of refusing it, gives the path of the link. -/
theorem overlooked_link_given :
    (besideBuried []).world.IsSound ∧ Path.normalize buriedText = .ok buriedRoute ∧
      (besideBuried []).world.findPlace .followed (besideBuried []).root.address = .ok ["moodle"] ∧
      (besideBuried []).world.findPlace .followed ((besideBuried []).root.append buriedRoute).address
        = .ok ["secret"] ∧
      ¬ ["moodle"] <+: ["secret"] ∧
      (besideBuried []).world.resolveSafe (besideBuried []).root buriedText
        = .ok ⟨.root, buriedPlace⟩ := by
  have hroot : (besideBuried []).world.findPlace .followed (besideBuried []).root.address
      = .ok ["moodle"] := by
    have hreach := reach_root_besideBuried []
    rw [root_besideBuried] at hreach ⊢
    rw [World.findPlace_of_isShort _ _ (by decide) (by decide)]
    exact hreach
  have hnormal : Path.normalize buriedText = .ok buriedRoute := eq_ok_of_toOption (by decide)
  refine ⟨isSound_besideBuried [], hnormal, hroot, findPlace_buried [], by decide, ?_⟩
  rw [resolveSafe_of_resolve hnormal (resolve_root_besideBuried []) (resolve_buried []),
    if_pos beginsWith_buriedPlace]

end SourceNavigator.Navigation
