import SourceNavigator.Proofs.Path.Between
import SourceNavigator.Proofs.World.Walk

set_option autoImplicit false

/-! # Plain routes

Resolving a path builds routes of one shape: steps up from where the process stands, then names that
lead down (`IsPlain`). Such a route stands for a place by its text alone (`placeOf`). If no link stands
there or above, the operating system finds this place or nothing (`reach_of_isClear`). A link that is
seen at a child of the route stands there (`at?_of_linkTarget?`), and one that stands there is seen if
the route to it is short (`linkTarget?_of_at?`).
-/

namespace SourceNavigator.World

open SourceNavigator.Path (Route climb climb_up climb_of_ne foldl_climb_of_no_up up)

/-! ## Canonical routes have an anchor -/

theorem isAnchored_base (w : World) : w.base.isAnchored = true := rfl

theorem isAnchored_absolute {base : Route} (h : base.isAnchored = true) (s : String) :
    (Route.absolute base s).isAnchored = true := by
  show (base.append (Route.ofString s)).isAnchored = true
  exact Path.isAnchored_append h

theorem isAnchored_realRoute {w : World} {r p : Route} (h : w.realRoute r = .ok p) :
    p.isAnchored = true := by
  unfold realRoute at h
  simp only at h
  split at h
  · cases h
    exact Path.isAnchored_append w.isAnchored_base
  · cases h
    exact Path.isAnchored_append w.isAnchored_base
  · cases h
  · cases h

theorem realRoute_of_resolve {w : World} {r p : Route} (h : w.resolve r = .ok p) :
    w.realRoute r = .ok p := by
  unfold resolve at h
  split at h
  · cases h
  · split at h
    · cases h
    · split at h
      · cases h
      · cases h
        assumption

theorem hasNul_text_of_resolve {w : World} {r p : Route} (h : w.resolve r = .ok p) :
    hasNul p.text = false := by
  unfold resolve at h
  split at h
  · cases h
  · split at h
    · cases h
    · rename_i hnul
      split at h
      · cases h
      · cases h
        simpa using hnul

theorem isAnchored_resolve {w : World} {r p : Route} (h : w.resolve r = .ok p) :
    p.isAnchored = true :=
  isAnchored_realRoute (realRoute_of_resolve h)

/-! ## Plain routes -/

/-- A route as resolving builds it: steps up from where the process stands, then names that lead
down. -/
structure IsPlain (r : Route) : Prop where
  anchor : r.anchor ≠ .twin
  shape : ∃ k rest, r.names = List.replicate k up ++ rest ∧ LeadDown rest ∧
    (r.isAnchored = true → k = 0)

/-- The place that a route stands for by its text alone. -/
def placeOf (w : World) (r : Route) : Place := r.names.foldl climb (w.start r.isAnchored)

/-- The route that the names of a path are resolved from. -/
def originOf (anchored : Bool) : Route := if anchored then ⟨.root, []⟩ else ⟨.here, []⟩

theorem isPlain_originOf (anchored : Bool) : IsPlain (originOf anchored) := by
  cases anchored with
  | true =>
      exact ⟨by decide, 0, [], rfl, fun _ h => absurd h List.not_mem_nil, fun _ => rfl⟩
  | false =>
      exact ⟨by decide, 0, [], rfl, fun _ h => absurd h List.not_mem_nil, fun _ => rfl⟩

theorem placeOf_originOf (w : World) (anchored : Bool) :
    w.placeOf (originOf anchored) = w.start anchored := by
  cases anchored with
  | true => rfl
  | false => rfl

theorem IsPlain.child {r : Route} (h : IsPlain r) {name : String} (hname : Path.leads name = true)
    (hup : name ≠ up) : IsPlain (r.child name) := by
  obtain ⟨hanchor, k, rest, hnames, hrest, hk⟩ := h
  refine ⟨hanchor, k, rest ++ [name], ?_, hrest.concat hname hup, hk⟩
  rw [Route.child, hnames, List.append_assoc]

theorem placeOf_child (w : World) (r : Route) {name : String} (hup : name ≠ up) :
    w.placeOf (r.child name) = w.placeOf r ++ [name] := by
  calc w.placeOf (r.child name)
      = (r.names ++ [name]).foldl climb (w.start r.isAnchored) := rfl
    _ = climb (w.placeOf r) name := by
        rw [List.foldl_append, List.foldl_cons, List.foldl_nil]
        rfl
    _ = w.placeOf r ++ [name] := climb_of_ne hup _

theorem isPlain_root {place : Place} (h : LeadDown place) : IsPlain ⟨.root, place⟩ :=
  ⟨by simp, 0, place, rfl, h, fun _ => rfl⟩

theorem placeOf_root (w : World) {place : Place} (h : LeadDown place) :
    w.placeOf ⟨.root, place⟩ = place := by
  show place.foldl climb [] = place
  rw [foldl_climb_of_no_up fun hup => (h up hup).2 rfl, List.nil_append]

theorem isPlain_targetRoute {r : Route} (h : IsPlain r) (target : String) :
    IsPlain (targetRoute r target) := by
  unfold targetRoute
  split
  · exact isPlain_originOf true
  · exact h

theorem placeOf_targetRoute (w : World) (r : Route) (target : String) :
    w.placeOf (targetRoute r target) = targetStart (w.placeOf r) target := by
  unfold targetRoute targetStart
  split
  · rfl
  · rfl

/-- The names of the parent of a plain route: one step up is taken back, or one more is made. -/
theorem parent_names {r : Route} (h : IsPlain r) :
    (∃ last, r.names = r.parent.names ++ [last] ∧ last ≠ up) ∨
      (∃ k, r.names = List.replicate k up ∧ r.parent.names = r.names ++ [up] ∧
        r.isAnchored = false) ∨
      r.names = [] ∧ r.parent.names = [] ∧ r.isAnchored = true := by
  obtain ⟨-, k, rest, hnames, hrest, hk⟩ := h
  have hparent : r.parent.names = (Route.push r.isAnchored r.names.reverse up).reverse := rfl
  rcases List.eq_nil_or_concat rest with rfl | ⟨others, last, rfl⟩
  · -- there are steps up only; behind an anchor there are none
    rw [List.append_nil] at hnames
    right
    cases hanchored : r.isAnchored with
    | true =>
        right
        rw [hk hanchored] at hnames
        have hnames : r.names = [] := hnames
        rw [hparent, hnames, hanchored]
        exact ⟨rfl, rfl, rfl⟩
    | false =>
        left
        refine ⟨k, hnames, ?_, rfl⟩
        rw [hparent, hanchored, hnames, List.reverse_replicate]
        cases k with
        | zero => rfl
        | succ k =>
            rw [List.replicate_succ, Path.push_up_cons, if_pos rfl, List.reverse_cons,
              ← List.replicate_succ, List.reverse_replicate]
  · left
    have hlast : last ≠ up := (hrest last (by simp)).2
    refine ⟨last, ?_, hlast⟩
    rw [hparent, hnames, List.concat_eq_append, ← List.append_assoc, List.reverse_append,
      List.reverse_singleton, List.singleton_append, Path.push_up_cons, if_neg hlast,
      List.reverse_reverse]

theorem IsPlain.parent {r : Route} (h : IsPlain r) : IsPlain r.parent := by
  refine ⟨h.anchor, ?_⟩
  have hsame : r.parent.isAnchored = r.isAnchored := rfl
  rcases parent_names h with ⟨last, hnames, hlast⟩ | ⟨k, hnames, hparent, hfree⟩ | ⟨-, hparent, -⟩
  · obtain ⟨-, k, rest, hshape, hrest, hk⟩ := h
    rcases List.eq_nil_or_concat rest with rfl | ⟨others, final, rfl⟩
    · -- all names are steps up, and the last one is none
      rw [List.append_nil, hnames] at hshape
      exact absurd (List.eq_of_mem_replicate (hshape ▸ by simp : last ∈ List.replicate k up)) hlast
    · rw [List.concat_eq_append, ← List.append_assoc, hnames] at hshape
      refine ⟨k, others, (List.append_inj' hshape rfl).1, ?_, hk⟩
      exact fun n hn => hrest n (by simp [hn])
  · refine ⟨k + 1, [], ?_, fun _ h => absurd h List.not_mem_nil, ?_⟩
    · rw [hparent, hnames, List.append_nil, List.replicate_succ']
    · rw [hsame, hfree]
      exact fun h => Bool.noConfusion h
  · exact ⟨0, [], hparent, fun _ h => absurd h List.not_mem_nil, fun _ => rfl⟩

theorem placeOf_parent (w : World) {r : Route} (h : IsPlain r) :
    w.placeOf r.parent = (w.placeOf r).dropLast := by
  have hstart : w.placeOf r.parent = r.parent.names.foldl climb (w.start r.isAnchored) := rfl
  rw [hstart, placeOf]
  rcases parent_names h with ⟨last, hnames, hlast⟩ | ⟨k, -, hparent, -⟩ | ⟨hnames, hparent, hanch⟩
  · rw [hnames, List.foldl_append, List.foldl_cons, List.foldl_nil, climb_of_ne hlast,
      List.dropLast_concat]
  · rw [hparent, List.foldl_append, List.foldl_cons, List.foldl_nil, climb_up]
  · rw [hnames, hparent, hanch]
    rfl

/-! ## Short routes -/

/-- A route that is short enough to be looked up. -/
def IsShort (r : Route) : Prop := r.text.utf8ByteSize < maxPath

instance (r : Route) : Decidable (IsShort r) := inferInstanceAs (Decidable (_ < _))

theorem glue_concat_ne_nil (pieces : List (List Char)) {piece : List Char} (h : piece ≠ []) :
    Text.glue ['/'] (pieces ++ [piece]) ≠ [] := by
  cases pieces with
  | nil => exact h
  | cons first rest =>
      have hrest : rest ++ [piece] ≠ [] := by simp
      obtain ⟨next, others, hnext⟩ := List.exists_cons_of_ne_nil hrest
      rw [List.cons_append, hnext]
      simp [Text.glue]

theorem text_child_ne_empty (r : Route) {name : String} (hname : Path.leads name = true) :
    (r.child name).text ≠ "" := by
  have hchars : name.toList ≠ [] := by
    intro h
    rw [String.toList_eq_nil_iff.mp h] at hname
    exact absurd hname (by decide)
  intro h
  have htext := Path.text_toList (r.child name) (Or.inr (by simp [Route.child]))
  rw [h, Route.child, List.map_append, String.toList_empty] at htext
  exact glue_concat_ne_nil _ hchars (List.append_eq_nil_iff.mp htext.symm).2

/-- A short route is looked up by walking it. -/
theorem findPlace_of_isShort (w : World) (ending : Ending) {r : Route} (hne : r.text ≠ "")
    (h : IsShort r) :
    w.findPlace ending r.address = walk w.tree ending maxLinks (w.start r.isAnchored) r.names := by
  have hempty : r.address.text.isEmpty = false := by
    rw [← Bool.not_eq_true, String.isEmpty_iff]
    exact hne
  have hshort : ¬ maxPath ≤ r.address.text.utf8ByteSize := Nat.not_le.mpr h
  rw [findPlace, hempty, if_neg Bool.false_ne_true, if_neg hshort]
  rfl

theorem findPlace_of_not_isShort (w : World) (ending : Ending) {r : Route} (h : ¬ IsShort r) :
    ∃ f, w.findPlace ending r.address = .error f ∧ f ≠ .tooManyLinks := by
  have hlong : maxPath ≤ r.address.text.utf8ByteSize := Nat.not_lt.mp h
  rw [findPlace, if_pos hlong]
  split
  · exact ⟨_, rfl, fun h => (by cases h)⟩
  · exact ⟨_, rfl, fun h => (by cases h)⟩

/-! ## Walking plain routes -/

section Plain

variable {w : World} {r : Route}

/-- A plain route is walked down from the place that its steps up lead to. -/
theorem exists_down (hw : w.IsSound) (h : IsPlain r) (ending : Ending) :
    ∃ place rest, Stands w.tree place ∧ LeadDown rest ∧ w.placeOf r = place ++ rest ∧
      ∀ jump, walkNames w.tree jump ending (w.start r.isAnchored) r.names
        = walkNames w.tree jump ending place rest := by
  obtain ⟨-, k, rest, hnames, hrest, -⟩ := h
  have hstart : Stands w.tree (w.start r.isAnchored) := hw.start r.isAnchored
  refine ⟨_, rest, stands_ups k hstart, hrest, ?_, fun jump => ?_⟩
  · rw [placeOf, hnames, List.foldl_append, foldl_climb_of_no_up]
    exact fun hmem => (hrest up hmem).2 rfl
  · rw [hnames, walkNames_ups k hstart]

theorem exists_walk_eq (w : World) (ending : Ending) (place : Place) (names : List String) :
    ∃ jump, walk w.tree ending maxLinks place names = walkNames w.tree jump ending place names :=
  ⟨_, rfl⟩

/-- **Nothing else is found at a clear route.** -/
theorem reach_of_isClear (hw : w.IsSound) (h : IsPlain r) (hclear : IsClear w.tree (w.placeOf r))
    {goal : Place} (hgoal : w.reach r = .ok goal) : goal = w.placeOf r := by
  obtain ⟨place, rest, -, hrest, hplace, hwalk⟩ := exists_down hw h .followed
  obtain ⟨jump, hjump⟩ := exists_walk_eq w .followed (w.start r.isAnchored) r.names
  rw [reach, hjump, hwalk] at hgoal
  rw [hplace] at hclear ⊢
  refine walkNames_eq_ok_of_clear (by decide) hrest (hclear.of_prefix ?_) (Or.inr hclear) hgoal
  exact List.prefix_append_right_inj place |>.mpr (List.dropLast_prefix rest)

theorem reach_of_isSolid (hw : w.IsSound) (h : IsPlain r) (hsolid : IsSolid w.tree (w.placeOf r)) :
    w.reach r = .ok (w.placeOf r) := by
  obtain ⟨place, rest, -, hrest, hplace, hwalk⟩ := exists_down hw h .followed
  obtain ⟨jump, hjump⟩ := exists_walk_eq w .followed (w.start r.isAnchored) r.names
  rw [reach, hjump, hwalk, hplace]
  rw [hplace] at hsolid
  obtain ⟨node, hat, hnode⟩ := hsolid
  exact walkNames_of_at? (by decide) hw.tree hrest hat (Or.inr hnode)

/-- A link that is seen stands there. -/
theorem at?_of_linkTarget? (hw : w.IsSound) (h : IsPlain r) (hclear : IsClear w.tree (w.placeOf r))
    {name : String} (hname : Path.leads name = true) (hup : name ≠ up) {target : String}
    (htarget : w.linkTarget? (r.child name) = some target) :
    w.tree.at? (w.placeOf r ++ [name]) = some (.link target) := by
  obtain ⟨place, rest, hstands, hrest, hplace, hwalk⟩ := exists_down hw (h.child hname hup) .kept
  obtain ⟨jump, hjump⟩ :=
    exists_walk_eq w .kept (w.start (r.child name).isAnchored) (r.child name).names
  rw [placeOf_child w r hup] at hplace
  unfold linkTarget? at htarget
  split at htarget
  · cases htarget
  · rename_i goal hfound
    have hgoal := walk_of_findPlace hfound
    rw [hjump, hwalk] at hgoal
    split at htarget
    · rename_i found hat
      cases htarget
      have hend : goal = place ++ rest := by
        refine walkNames_eq_ok_of_clear (by decide) hrest (hclear.of_prefix ?_) (Or.inl rfl) hgoal
        by_cases hnil : rest = []
        · -- the steps up alone lead to a directory, which is no link
          rw [hnil, walkNames_nil (by decide)] at hgoal
          cases hgoal
          obtain ⟨entries, hdir⟩ := hstands
          rw [hat] at hdir
          cases hdir
        · have hdrop : w.placeOf r = place ++ rest.dropLast := by
            calc w.placeOf r = (w.placeOf r ++ [name]).dropLast := List.dropLast_concat.symm
              _ = (place ++ rest).dropLast := by rw [hplace]
              _ = place ++ rest.dropLast := List.dropLast_append_of_ne_nil hnil
          rw [hdrop]
      rw [hplace, ← hend]
      exact hat
    · cases htarget

/-- A link is seen where one stands, if the route to it is short. -/
theorem linkTarget?_of_at? (hw : w.IsSound) (h : IsPlain r) {name : String}
    (hname : Path.leads name = true) (hup : name ≠ up) (hshort : IsShort (r.child name))
    {target : String} (hat : w.tree.at? (w.placeOf r ++ [name]) = some (.link target)) :
    w.linkTarget? (r.child name) = some target := by
  obtain ⟨place, rest, hstands, hrest, hplace, hwalk⟩ := exists_down hw (h.child hname hup) .kept
  obtain ⟨jump, hjump⟩ :=
    exists_walk_eq w .kept (w.start (r.child name).isAnchored) (r.child name).names
  rw [placeOf_child w r hup] at hplace
  rw [hplace] at hat
  have hne : rest ≠ [] := by
    rintro rfl
    obtain ⟨entries, hdir⟩ := hstands
    rw [List.append_nil, hdir] at hat
    cases hat
  have hkept : walkNames w.tree jump .kept place rest = .ok (place ++ rest) :=
    walkNames_of_at? (by decide) hw.tree hrest hat (Or.inl ⟨rfl, hne⟩)
  rw [linkTarget?, findPlace_of_isShort w .kept (text_child_ne_empty r hname) hshort, hjump, hwalk,
    hkept]
  simp only [hat]

end Plain

end SourceNavigator.World
