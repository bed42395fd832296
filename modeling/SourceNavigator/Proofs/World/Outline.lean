import SourceNavigator.Proofs.World.Links
import SourceNavigator.Proofs.World.Reading

set_option autoImplicit false

/-! # Worlds without contents

The outline of a world keeps its directories, its links and what the process may do, and empties
every file. Where a path leads depends on the outline alone (`reach_outline`), and so do the links
(`sameLinks_of_outline`). Reading a file differs between worlds of one outline in what the file holds
only (`octetsAt_cases`).
-/

namespace SourceNavigator.World

open SourceNavigator.Path (Address Route)

namespace Node

mutual

/-- The tree with all files emptied. -/
def outline : Node → Node
  | .file _ => .file []
  | .link target => .link target
  | .dir entries => .dir (outlines entries)

/-- The entries with all files emptied. -/
def outlines : List (String × Node) → List (String × Node)
  | [] => []
  | (name, node) :: rest => (name, node.outline) :: outlines rest

end

theorem named?_outlines (name : String) (entries : List (String × Node)) :
    named? name (outlines entries) = (named? name entries).map outline := by
  induction entries with
  | nil => rfl
  | cons entry rest ih =>
      obtain ⟨n, node⟩ := entry
      rw [outlines, named?, named?]
      by_cases hn : n = name
      · rw [if_pos hn, if_pos hn, Option.map_some]
      · rw [if_neg hn, if_neg hn, ih]

theorem at?_outline (tree : Node) (place : Place) :
    tree.outline.at? place = (tree.at? place).map outline := by
  induction place generalizing tree with
  | nil => rw [at?_nil, at?_nil, Option.map_some]
  | cons name rest ih =>
      cases tree with
      | file _ => rfl
      | link _ => rfl
      | dir entries =>
          rw [outline, at?, at?, named?_outlines]
          cases named? name entries with
          | none => rfl
          | some node => exact ih node

end Node

/-- The world with all files emptied. -/
def outline (w : World) : World := { w with tree := w.tree.outline }

theorem tree_at?_outline (w : World) (place : Place) :
    w.outline.tree.at? place = (w.tree.at? place).map Node.outline :=
  Node.at?_outline w.tree place

/-! ## Walking an outline -/

theorem walkNames_outline (tree : Node) {jump jump' : Place → List String → Except Fault Place}
    (hjump : ∀ place names, jump' place names = jump place names) (ending : Ending) (place : Place)
    (names : List String) :
    walkNames tree.outline jump' ending place names = walkNames tree jump ending place names := by
  induction names generalizing place with
  | nil => rfl
  | cons name rest ih =>
      rw [walkNames, walkNames, Node.at?_outline]
      cases tree.at? place with
      | none => rfl
      | some node =>
          cases node with
          | file _ => rfl
          | link _ => rfl
          | dir entries =>
              simp only [Option.map_some, Node.outline, ih, Node.named?_outlines]
              -- the kind of the child decides where the walk goes on, not what a file holds
              cases Node.named? name entries with
              | none => rfl
              | some child =>
                  cases child with
                  | file _ => simp only [Option.map_some, Node.outline]
                  | dir _ => simp only [Option.map_some, Node.outline]
                  | link _ => simp only [Option.map_some, Node.outline, hjump]

theorem walk_outline (tree : Node) (ending : Ending) (links : Nat) (place : Place)
    (names : List String) :
    walk tree.outline ending links place names = walk tree ending links place names := by
  induction links generalizing place names with
  | zero => exact walkNames_outline tree (fun _ _ => rfl) ending place names
  | succ links ih => exact walkNames_outline tree ih ending place names

theorem reach_outline (w : World) (r : Route) : w.outline.reach r = w.reach r :=
  walk_outline w.tree .followed maxLinks _ _

theorem findPlace_outline (w : World) (ending : Ending) (a : Address) :
    w.outline.findPlace ending a = w.findPlace ending a := by
  unfold findPlace
  rw [show w.outline.tree = w.tree.outline from rfl, walk_outline]
  rfl

/-! ## Reading in worlds of one outline -/

theorem at?_of_outline_eq {w w' : World} (h : w'.outline = w.outline) (place : Place) :
    (w'.tree.at? place).map Node.outline = (w.tree.at? place).map Node.outline := by
  rw [← tree_at?_outline, ← tree_at?_outline, h]

/-- Reading a file fails in both worlds for one reason, or it gives what each of them has at one place. -/
theorem octetsAt_cases {w w' : World} (h : w'.outline = w.outline) (a : Address) :
    (∃ t, w.octetsAt a = .error t ∧ w'.octetsAt a = .error t) ∨
      ∃ place content content', w.tree.at? place = some (.file content) ∧
        w'.tree.at? place = some (.file content') ∧ w.octetsAt a = .ok content ∧
          w'.octetsAt a = .ok content' := by
  have hdenied : w'.denied = w.denied := by
    show w'.outline.denied = w.outline.denied
    rw [h]
  have hfind : w'.findPlace .followed a = w.findPlace .followed a := by
    rw [← findPlace_outline w', h, findPlace_outline]
  unfold octetsAt
  rcases openNode_cases hdenied hfind with ⟨t, hopen, hopen'⟩ | ⟨place, hopen, hopen'⟩
  · rw [hopen, hopen']
    exact Or.inl ⟨t, rfl, rfl⟩
  · have hat := at?_of_outline_eq h place
    rw [hopen, hopen']
    cases hnode : w.tree.at? place with
    | none =>
        rw [hnode, Option.map_none, Option.map_eq_none_iff] at hat
        rw [hat]
        exact Or.inl ⟨_, rfl, rfl⟩
    | some node =>
        rw [hnode, Option.map_some, Option.map_eq_some_iff] at hat
        obtain ⟨node', hnode', hsame⟩ := hat
        rw [hnode']
        -- nodes of one outline are of one kind
        cases node with
        | file content =>
            cases node' with
            | file content' => exact Or.inr ⟨place, content, content', hnode, hnode', rfl, rfl⟩
            | link _ => cases hsame
            | dir _ => cases hsame
        | link _ =>
            cases node' with
            | file _ => cases hsame
            | link _ => exact Or.inl ⟨_, rfl, rfl⟩
            | dir _ => cases hsame
        | dir _ =>
            cases node' with
            | file _ => cases hsame
            | link _ => cases hsame
            | dir _ => exact Or.inl ⟨_, rfl, rfl⟩

/-! ## Links in worlds of one outline -/

theorem footing?_outline (node : Node) : node.outline.footing? = node.footing? := by
  cases node with
  | file _ => rfl
  | link _ => rfl
  | dir _ => rfl

theorem sameWays_outline (tree : Node) : SameWays tree tree.outline := by
  intro place
  rw [Node.at?_outline]
  cases tree.at? place with
  | none => rfl
  | some node => exact footing?_outline node

/-- Worlds that differ in what files hold differ in their files alone. -/
theorem sameLinks_of_outline {w w' : World} (h : w'.outline = w.outline) : SameLinks w w' := by
  have htree : w'.tree.outline = w.tree.outline := congrArg World.tree h
  have hcwd : w'.outline.cwd = w.outline.cwd := congrArg World.cwd h
  have hhome : w'.outline.home = w.outline.home := congrArg World.home h
  have haccounts : w'.outline.accounts = w.outline.accounts := congrArg World.accounts h
  refine ⟨fun place => ?_, hcwd, hhome, haccounts⟩
  rw [← sameWays_outline, htree, sameWays_outline]

end SourceNavigator.World
