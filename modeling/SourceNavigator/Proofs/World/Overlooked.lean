import SourceNavigator.Proofs.World.Canonical
import SourceNavigator.Proofs.World.Depth

set_option autoImplicit false

/-! # Overlooked links

A link is looked up under the path that has been built so far. If it stands too deep, this path is too
long, and resolving gives the path of the link itself (`resolve_of_overlooked`). A short path can
still lead there through other links, and then the system follows the link as well. `burrow` builds
such trees: each directory holds a link `l` to the only directory below it, which has a long name.
-/

namespace SourceNavigator.World

open SourceNavigator.Path (Route up)

/-! ## The path of an overlooked link -/

theorem Meets.anchor_eq_root {w : World} {r link : Route} {names : List String}
    (h : Meets w r names link) (hroot : r.anchor = .root) : link.anchor = .root := by
  induction h with
  | stay _ _ ih => exact ih hroot
  | back _ ih => exact ih hroot
  | into _ _ _ _ ih => exact ih hroot
  | here => exact hroot
  | jump _ _ _ _ ih => exact ih (anchor_targetRoute hroot _)

theorem linkTarget?_of_not_isShort (w : World) {r : Route} (h : ¬ IsShort r) :
    w.linkTarget? r = none := by
  obtain ⟨f, hfail, -⟩ := findPlace_of_not_isShort w .kept h
  rw [linkTarget?, hfail]

/-- **A link that stands too deep is overlooked.** Whatever its target is, a path that leads to it
resolves to the path of the link itself. -/
theorem resolve_of_overlooked {w : World} (hw : w.IsSound) {r : Route} (hroot : r.isAnchored = true)
    (hr : w.Discerns r) {goal : Place} (h : w.reach r = .ok goal) {name target : String}
    (hat : w.tree.at? (goal ++ [name]) = some (.link target))
    (hlong : ¬ IsShort ⟨.root, goal ++ [name]⟩) :
    w.resolve (r.child name) = .ok ⟨.root, goal ++ [name]⟩ := by
  obtain ⟨k, hk, hway⟩ := reach_eq_ok_iff.mp h
  rw [← placeOf_originOf] at hway
  have hlinks : k ≤ linkRoom := hk.trans (by decide)
  obtain ⟨p, last, hsettled, hp, hplace, -, hgoes, -⟩ :=
    settlesAt_resolveNames hw (entersAt_resolveTarget hw linkRoom) hlinks
      (isPlain_originOf r.isAnchored) hway hr (isFaithful_nil w) (isPending_nil w k)
  have hfiles := Node.isFileName_of_at? hw.tree hat
  obtain ⟨⟨hname, -⟩, hup, hnul, -⟩ := hfiles name (by simp)
  -- what the names settled at is the path of the place, because the path starts at the root
  have hanchor : p.anchor = .root := by
    have hmeets : Meets w p [name] (p.child name) := .here hname hup (hplace ▸ hat)
    have hanchored : (originOf r.isAnchored).anchor = .root := by
      rw [hroot]
      rfl
    exact (hgoes [name] (p.child name) hmeets).anchor_eq_root hanchored
  obtain ⟨place, rfl, hdown⟩ := eq_root_of_isPlain hp hanchor
  rw [placeOf_root w hdown] at hplace
  subst hplace
  have hnone : w.linkTarget? (Route.child ⟨.root, place⟩ name) = none :=
    linkTarget?_of_not_isShort w hlong
  have hreal : w.realRoute (r.child name) = .ok ⟨.root, place ++ [name]⟩ := by
    have hsettles : resolveNames w (resolveTarget w linkRoom) (originOf (r.child name).isAnchored)
        (r.child name).names [] = .settled (Route.child ⟨.root, place⟩ name) last :=
      (resolveNames_append hsettled).trans (resolveNames_into hname hup hnul hnone)
    have hchild := realRoute_of_settled hw hsettles (hp.child hname hup)
    rwa [placeOf_child w _ hup, placeOf_root w hdown] at hchild
  have htext : hasNul (Route.text ⟨.root, place ++ [name]⟩) = false :=
    hasNul_text_eq_false fun n hn => (hfiles n hn).2.2.1
  obtain ⟨f, hfail, hf⟩ := findPlace_of_not_isShort w .followed hlong
  have hfound : w.findNode (Route.address ⟨.root, place ++ [name]⟩) = .error f := by
    rw [findNode, hfail]
  rw [resolve, hreal]
  simp only [htext, hfound, Bool.false_eq_true, if_false]
  cases f with
  | tooManyLinks => exact absurd rfl hf
  | _ => rfl

/-! ## Trees with links far below -/

/-- Directories below each other, with a link `l` in each that leads to the next one. -/
def burrow (name : String) (bottom : List (String × Node)) : Nat → List (String × Node)
  | 0 => bottom
  | k + 1 => [("l", .link name), (name, .dir (burrow name bottom k))]

section Burrow

variable {name : String} {bottom : List (String × Node)} {tree : Node}

theorem isSound_burrow (hname : IsFileName name) (hl : name ≠ "l")
    (hbottom : Node.areSound bottom = true) (k : Nat) :
    Node.areSound (burrow name bottom k) = true := by
  induction k with
  | zero => exact hbottom
  | succ k ih =>
      have hlink : IsFileName "l" := by decide
      simp [burrow, Node.areSound, Node.isSound, Node.named?, hname, hl, hlink, ih]

theorem at?_burrow_link {place : Place} {k : Nat}
    (h : tree.at? place = some (.dir (burrow name bottom (k + 1)))) :
    tree.at? (place ++ ["l"]) = some (.link name) :=
  Node.at?_concat h "l"

theorem at?_burrow_dir (hl : name ≠ "l") {place : Place} {k : Nat}
    (h : tree.at? place = some (.dir (burrow name bottom (k + 1)))) :
    tree.at? (place ++ [name]) = some (.dir (burrow name bottom k)) := by
  rw [Node.at?_concat h, burrow, Node.named?, if_neg (Ne.symm hl), Node.named?, if_pos rfl]

theorem concat_append_replicate (place : Place) (k : Nat) :
    (place ++ [name]) ++ List.replicate k name = place ++ List.replicate (k + 1) name := by
  rw [List.append_assoc, List.replicate_succ]
  rfl

theorem at?_bottom (hl : name ≠ "l") {place : Place} {k : Nat}
    (h : tree.at? place = some (.dir (burrow name bottom k))) :
    tree.at? (place ++ List.replicate k name) = some (.dir bottom) := by
  induction k generalizing place with
  | zero =>
      rw [List.replicate_zero, List.append_nil]
      exact h
  | succ k ih =>
      rw [← concat_append_replicate]
      exact ih (at?_burrow_dir hl h)

theorem pieces_of_isName (h : Path.IsName name) : Path.pieces name = [name] := by
  rw [Path.pieces, Text.cutString, Text.cut_of_not_mem h.2, List.map_singleton, String.ofList_toList]

theorem isAbsolute_of_isName (h : Path.IsName name) : Path.isAbsolute name = false := by
  obtain ⟨c, cs, hchars, hc⟩ := Path.isName_head h
  rw [Path.isAbsolute_eq_false_iff, hchars]
  exact fun _ heq => hc (List.cons.inj heq).1

/-- The links lead down to the bottom. -/
theorem way_burrow (hname : IsFileName name) (hl : name ≠ "l") {place : Place} {k : Nat}
    (h : tree.at? place = some (.dir (burrow name bottom k))) :
    Way tree place (List.replicate k "l") (place ++ List.replicate k name) k := by
  induction k generalizing place with
  | zero =>
      rw [List.replicate_zero, List.replicate_zero, List.append_nil]
      exact .here place
  | succ k ih =>
      obtain ⟨hisName, hup, -, hsize⟩ := hname
      have hrest := ih (at?_burrow_dir hl h)
      rw [concat_append_replicate] at hrest
      rw [List.replicate_succ]
      refine .jump ⟨_, h⟩ (by decide) (by decide) (by decide) (at?_burrow_link h) ?_
      rw [targetStart, if_neg (by rw [isAbsolute_of_isName hisName]; decide), pieces_of_isName hisName]
      exact .into ⟨_, h⟩ hisName.1 hup hsize (at?_burrow_dir hl h) (fun _ => Node.noConfusion) hrest

/-- On the way through the links, these alone are met. -/
theorem isShort_of_meets_burrow {w : World} (hname : IsFileName name) (hl : name ≠ "l")
    {place : Place} (hplace : LeadDown place) {k : Nat}
    (h : w.tree.at? place = some (.dir (burrow name bottom k)))
    (hsize : pathSize place + k * (name.utf8ByteSize + 1) + 1 < maxPath + name.utf8ByteSize)
    {link : Route} (hmeets : Meets w ⟨.root, place⟩ (List.replicate k "l") link) : IsShort link := by
  induction k generalizing place with
  | zero => cases hmeets
  | succ k ih =>
      obtain ⟨hisName, hup, -, -⟩ := id hname
      have hplaceOf : w.placeOf ⟨.root, place⟩ = place := placeOf_root w hplace
      have hlink : w.tree.at? (w.placeOf ⟨.root, place⟩ ++ ["l"]) = some (.link name) := by
        rw [hplaceOf]
        exact at?_burrow_link h
      have hdir := at?_burrow_dir hl h
      have hnone : ∀ target, w.tree.at? (w.placeOf ⟨.root, place⟩ ++ [name]) ≠ some (.link target) := by
        intro target
        rw [hplaceOf, hdir]
        exact fun h => nomatch h
      rw [Nat.succ_mul] at hsize
      rw [List.replicate_succ] at hmeets
      rcases hmeets.of_link (by decide) (by decide) hlink with rfl | hrest
      · have hletter : ("l" : String).utf8ByteSize = 1 := by rfl
        have hchild : (Route.child ⟨.root, place⟩ "l").text.utf8ByteSize
            = pathSize (place ++ ["l"]) := utf8ByteSize_text_root (by simp)
        rw [IsShort, hchild, pathSize_append, pathSize_singleton, hletter]
        omega
      · -- the target leads into the only directory, where it goes on alike
        have hrelative : targetRoute ⟨.root, place⟩ name = ⟨.root, place⟩ := by
          rw [targetRoute, if_neg (by rw [isAbsolute_of_isName hisName]; decide)]
        rw [hrelative, pieces_of_isName hisName] at hrest
        have hnext := hrest.of_node hisName.1 hup hnone
        refine ih (hplace.concat hisName.1 hup) hdir ?_ hnext
        rw [pathSize_append, pathSize_singleton]
        omega

end Burrow

end SourceNavigator.World
