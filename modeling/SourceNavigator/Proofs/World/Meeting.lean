import SourceNavigator.Proofs.World.Plain

set_option autoImplicit false

/-! # Links that are met

Following the names of a path meets links, each under the route that has been built so far (`Meets`).
A link is seen only if this route is short enough to be looked up, so a path is followed like the
operating system follows it if every link on its way is met under a short route (`Discerns`). Where
no link of the tree stands too deep, all absolute paths are of this kind (`discerns_of_linksAreShort`).
-/

namespace SourceNavigator.World

open SourceNavigator.Path (Route up)

/-- The names, followed from the first route, lead through the link under the second route. -/
inductive Meets (w : World) : Route → List String → Route → Prop where
  | stay {r link : Route} {name : String} {rest : List String} (hname : Path.leads name = false)
      (hrest : Meets w r rest link) : Meets w r (name :: rest) link
  | back {r link : Route} {rest : List String} (hrest : Meets w r.parent rest link) :
      Meets w r (up :: rest) link
  | into {r link : Route} {name : String} {rest : List String} (hname : Path.leads name = true)
      (hup : name ≠ up) (hnone : ∀ target, w.tree.at? (w.placeOf r ++ [name]) ≠ some (.link target))
      (hrest : Meets w (r.child name) rest link) : Meets w r (name :: rest) link
  | here {r : Route} {name : String} {rest : List String} {target : String}
      (hname : Path.leads name = true) (hup : name ≠ up)
      (hat : w.tree.at? (w.placeOf r ++ [name]) = some (.link target)) :
      Meets w r (name :: rest) (r.child name)
  | jump {r link : Route} {name : String} {rest : List String} {target : String}
      (hname : Path.leads name = true) (hup : name ≠ up)
      (hat : w.tree.at? (w.placeOf r ++ [name]) = some (.link target))
      (hrest : Meets w (targetRoute r target) (Path.pieces target ++ rest) link) :
      Meets w r (name :: rest) link

/-- Every link that a path leads through is met under a route short enough to be looked up. -/
def Discerns (w : World) (r : Route) : Prop :=
  ∀ link, Meets w (originOf r.isAnchored) r.names link → IsShort link

variable {w : World} {r p : Route} {name : String} {names rest : List String}

theorem Meets.append {link : Route} (h : Meets w r names link) (more : List String) :
    Meets w r (names ++ more) link := by
  induction h with
  | stay hname _ ih => exact .stay hname ih
  | back _ ih => exact .back ih
  | into hname hup hnone _ ih => exact .into hname hup hnone ih
  | here hname hup hat => exact .here hname hup hat
  | jump hname hup hat _ ih =>
      rw [List.append_assoc] at ih
      exact .jump hname hup hat ih

/-- Through a link, what is met is the link itself or lies on the way through its target. -/
theorem Meets.of_link {link : Route} (h : Meets w r (name :: rest) link)
    (hname : Path.leads name = true) (hup : name ≠ up) {target : String}
    (hat : w.tree.at? (w.placeOf r ++ [name]) = some (.link target)) :
    link = r.child name ∨ Meets w (targetRoute r target) (Path.pieces target ++ rest) link := by
  -- of the steps only those through a link take this name
  generalize hnames : name :: rest = names at h
  cases h with
  | stay hstay _ =>
      cases hnames
      exact absurd hname (by rw [hstay]; decide)
  | back _ =>
      cases hnames
      exact absurd rfl hup
  | into _ _ hnone _ =>
      cases hnames
      exact absurd hat (hnone target)
  | here _ _ _ =>
      cases hnames
      exact Or.inl rfl
  | jump _ _ hat' hrest =>
      cases hnames
      rw [hat] at hat'
      cases hat'
      exact Or.inr hrest

/-- Past a name that is no link, what is met lies behind it. -/
theorem Meets.of_node {link : Route} (h : Meets w r (name :: rest) link)
    (hname : Path.leads name = true) (hup : name ≠ up)
    (hnone : ∀ target, w.tree.at? (w.placeOf r ++ [name]) ≠ some (.link target)) :
    Meets w (r.child name) rest link := by
  -- of the steps only the one into what stands there takes this name
  generalize hnames : name :: rest = names at h
  cases h with
  | stay hstay _ =>
      cases hnames
      exact absurd hname (by rw [hstay]; decide)
  | back _ =>
      cases hnames
      exact absurd rfl hup
  | into _ _ _ hrest =>
      cases hnames
      exact hrest
  | here _ _ hat =>
      cases hnames
      exact absurd hat (hnone _)
  | jump _ _ hat _ =>
      cases hnames
      exact absurd hat (hnone _)

/-! ## Going on from another route -/

/-- What is met from the second route on is met behind the names from the first one on. -/
def Continues (w : World) (r : Route) (names : List String) (p : Route) : Prop :=
  ∀ rest link, Meets w p rest link → Meets w r (names ++ rest) link

namespace Continues

theorem here (w : World) (r : Route) : Continues w r [] r := fun _ _ h => h

theorem stay (hname : Path.leads name = false) (h : Continues w r rest p) :
    Continues w r (name :: rest) p :=
  fun more link hlink => .stay hname (h more link hlink)

theorem back (h : Continues w r.parent rest p) : Continues w r (up :: rest) p :=
  fun more link hlink => .back (h more link hlink)

theorem into (hname : Path.leads name = true) (hup : name ≠ up)
    (hnone : ∀ target, w.tree.at? (w.placeOf r ++ [name]) ≠ some (.link target))
    (h : Continues w (r.child name) rest p) : Continues w r (name :: rest) p :=
  fun more link hlink => .into hname hup hnone (h more link hlink)

/-- Behind a link the names of its target come first. -/
theorem jump {target : String} {q : Route} (hname : Path.leads name = true) (hup : name ≠ up)
    (hat : w.tree.at? (w.placeOf r ++ [name]) = some (.link target))
    (htarget : Continues w (targetRoute r target) (Path.pieces target) q)
    (h : Continues w q rest p) : Continues w r (name :: rest) p :=
  fun more link hlink => .jump hname hup hat (htarget _ link (h more link hlink))

end Continues

/-- The second route goes on behind the target of the link under the first one. -/
def Traces (w : World) (link found : Route) : Prop :=
  ∃ r name target, link = Route.child r name ∧
    w.tree.at? (w.placeOf r ++ [name]) = some (.link target) ∧
      Continues w (targetRoute r target) (Path.pieces target) found

theorem child_inj {r r' : Route} {name name' : String} (h : r.child name = r'.child name') :
    r = r' ∧ name = name' := by
  have hanchor : (r.child name).anchor = (r'.child name').anchor := by rw [h]
  have hboth : r.names ++ [name] = r'.names ++ [name'] := congrArg (fun link => link.names) h
  obtain ⟨hnames, hname⟩ := List.append_inj' hboth rfl
  refine ⟨?_, List.singleton_inj.mp hname⟩
  cases r
  cases r'
  cases hanchor
  cases hnames
  rfl

theorem Traces.continues {target : String} {found : Route} (h : Traces w (r.child name) found)
    (hat : w.tree.at? (w.placeOf r ++ [name]) = some (.link target)) :
    Continues w (targetRoute r target) (Path.pieces target) found := by
  obtain ⟨r', name', target', hlink, hat', hcontinues⟩ := h
  obtain ⟨rfl, rfl⟩ := child_inj hlink
  rw [hat] at hat'
  cases hat'
  exact hcontinues

/-! ## Links under short routes -/

/-- Every link that the names lead through, followed from the route, is met under a short route. -/
def MeetsShort (w : World) (r : Route) (names : List String) : Prop :=
  ∀ link, Meets w r names link → IsShort link

namespace MeetsShort

theorem stay (h : MeetsShort w r (name :: rest)) (hname : Path.leads name = false) :
    MeetsShort w r rest :=
  fun link hlink => h link (.stay hname hlink)

theorem back (h : MeetsShort w r (up :: rest)) : MeetsShort w r.parent rest :=
  fun link hlink => h link (.back hlink)

theorem into (h : MeetsShort w r (name :: rest)) (hname : Path.leads name = true) (hup : name ≠ up)
    (hnone : ∀ target, w.tree.at? (w.placeOf r ++ [name]) ≠ some (.link target)) :
    MeetsShort w (r.child name) rest :=
  fun link hlink => h link (.into hname hup hnone hlink)

variable {target : String}

theorem here (h : MeetsShort w r (name :: rest)) (hname : Path.leads name = true) (hup : name ≠ up)
    (hat : w.tree.at? (w.placeOf r ++ [name]) = some (.link target)) : IsShort (r.child name) :=
  h _ (.here hname hup hat)

/-- It holds on the way through the target of a link. -/
theorem inside (h : MeetsShort w r (name :: rest)) (hname : Path.leads name = true) (hup : name ≠ up)
    (hat : w.tree.at? (w.placeOf r ++ [name]) = some (.link target)) :
    MeetsShort w (targetRoute r target) (Path.pieces target) :=
  fun link hlink => h link (.jump hname hup hat (hlink.append rest))

/-- It holds from where the target of a link leads. -/
theorem behind (h : MeetsShort w r (name :: rest)) (hname : Path.leads name = true) (hup : name ≠ up)
    (hat : w.tree.at? (w.placeOf r ++ [name]) = some (.link target)) {q : Route}
    (hq : Continues w (targetRoute r target) (Path.pieces target) q) : MeetsShort w q rest :=
  fun link hlink => h link (.jump hname hup hat (hq rest link hlink))

end MeetsShort

/-! ## Trees whose links are not too deep -/

/-- No link of the tree stands at a place whose path is too long. -/
def LinksAreShort (w : World) : Prop :=
  ∀ place target, w.tree.at? place = some (.link target) → IsShort ⟨.root, place⟩

theorem eq_root_of_isPlain (hr : IsPlain r) (hroot : r.anchor = .root) :
    ∃ place, r = ⟨.root, place⟩ ∧ LeadDown place := by
  obtain ⟨-, k, place, hnames, hplace, hk⟩ := hr
  have hanchored : r.isAnchored = true := by rw [Route.isAnchored, hroot]; rfl
  rw [hk hanchored, List.replicate_zero, List.nil_append] at hnames
  refine ⟨place, ?_, hplace⟩
  rw [← hnames, ← hroot]

theorem anchor_targetRoute (hroot : r.anchor = .root) (target : String) :
    (targetRoute r target).anchor = .root := by
  unfold targetRoute
  split
  · rfl
  · exact hroot

/-- From a root on, a link is met under the path of the place where it stands. -/
theorem Meets.isShort {link : Route} (h : Meets w r names link) (hlinks : LinksAreShort w)
    (hr : IsPlain r) (hroot : r.anchor = .root) : IsShort link := by
  induction h with
  | stay _ _ ih => exact ih hr hroot
  | back _ ih => exact ih hr.parent hroot
  | into hname hup _ _ ih => exact ih (hr.child hname hup) hroot
  | jump _ _ _ _ ih => exact ih (isPlain_targetRoute hr _) (anchor_targetRoute hroot _)
  | @here r name _ target hname hup hat =>
      obtain ⟨place, rfl, hplace⟩ := eq_root_of_isPlain hr hroot
      rw [placeOf_root w hplace] at hat
      exact hlinks (place ++ [name]) target hat

/-- **Where no link stands too deep, no absolute path overlooks one.** -/
theorem discerns_of_linksAreShort (hlinks : LinksAreShort w) (hr : r.isAnchored = true) :
    w.Discerns r := by
  intro link hlink
  rw [hr] at hlink
  exact hlink.isShort hlinks (isPlain_originOf true) rfl

end SourceNavigator.World
