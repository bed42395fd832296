import SourceNavigator.Proofs.World.Reading

set_option autoImplicit false

/-! # Trees with the same contents

A directory has no order of its own: two trees that hold the same at every place (`SameContents`) may
still list their directories in different orders. The same paths can be opened in both, and they lead to
the same places (`SameContents.findPlace_eq`); listing a directory fails in both for the same reason, or
gives what stands at one place (`SameContents.scan_cases`).
-/

namespace SourceNavigator.World

open SourceNavigator.Path (Address)

/-! ## The names of a directory -/

theorem Node.mem_of_named? {entries : List (String × Node)} {name : String} {node : Node}
    (h : named? name entries = some node) : (name, node) ∈ entries := by
  induction entries with
  | nil => cases h
  | cons entry rest ih =>
      obtain ⟨n, m⟩ := entry
      rw [named?] at h
      by_cases hn : n = name
      · rw [if_pos hn] at h
        cases h
        exact hn ▸ List.mem_cons_self
      · rw [if_neg hn] at h
        exact List.mem_cons_of_mem _ (ih h)

/-- No two entries of a directory have the same name. -/
theorem Node.nodup_names {entries : List (String × Node)} (h : areSound entries = true) :
    (entries.map (·.1)).Nodup := by
  induction entries with
  | nil => exact List.nodup_nil
  | cons entry rest ih =>
      obtain ⟨name, node⟩ := entry
      simp only [areSound, Bool.and_eq_true, Option.isNone_iff_eq_none] at h
      obtain ⟨⟨-, hnone⟩, hrest⟩ := h
      rw [List.map_cons, List.nodup_cons]
      refine ⟨fun hmem => ?_, ih hrest⟩
      obtain ⟨⟨n, m⟩, hentry, rfl⟩ := List.mem_map.mp hmem
      rw [named?_of_mem hrest hentry] at hnone
      cases hnone

/-! ## The same at every place -/

/-- A node without the entries in it. -/
def Node.bare : Node → Node
  | .dir _ => .dir []
  | .file content => .file content
  | .link target => .link target

theorem Node.bare_eq_dir {node : Node} {entries : List (String × Node)}
    (h : node.bare = .dir entries) : ∃ inner, node = .dir inner := by
  cases node with
  | dir inner => exact ⟨inner, rfl⟩
  | file content => cases h
  | link target => cases h

/-- Both worlds hold the same at every place, for a process that stands at one place and may open the
same paths. The order of the entries of a directory is left open. -/
structure SameContents (w w' : World) : Prop where
  tree : ∀ place, (w'.tree.at? place).map Node.bare = (w.tree.at? place).map Node.bare
  cwd : w'.cwd = w.cwd
  denied : w'.denied = w.denied

namespace SameContents

variable {w w' : World}

/-- At a place there is nothing in both trees, or there are directories, or the same file or link. -/
theorem at?_cases (h : SameContents w w') (place : Place) :
    (∃ entries entries', w.tree.at? place = some (.dir entries) ∧
        w'.tree.at? place = some (.dir entries')) ∨
      w'.tree.at? place = w.tree.at? place ∧ ∀ entries, w.tree.at? place ≠ some (.dir entries) := by
  have htree := h.tree place
  cases hat : w.tree.at? place with
  | none =>
      rw [hat, Option.map_none, Option.map_eq_none_iff] at htree
      exact Or.inr ⟨htree, fun entries hdir => by cases hdir⟩
  | some node =>
      rw [hat, Option.map_some, Option.map_eq_some_iff] at htree
      obtain ⟨node', hat', hbare⟩ := htree
      cases node with
      | dir entries =>
          obtain ⟨entries', rfl⟩ := Node.bare_eq_dir hbare
          exact Or.inl ⟨entries, entries', rfl, hat'⟩
      | file content =>
          cases node' with
          | file content' => exact Or.inr ⟨hat'.trans (congrArg some hbare), fun _ hdir => by cases hdir⟩
          | dir inner => cases hbare
          | link target => cases hbare
      | link target =>
          cases node' with
          | link target' => exact Or.inr ⟨hat'.trans (congrArg some hbare), fun _ hdir => by cases hdir⟩
          | dir inner => cases hbare
          | file content => cases hbare

/-- Walking goes by what stands at the places on the way. -/
theorem walkNames_eq (h : SameContents w w') {jump jump' : Place → List String → Except Fault Place}
    (hjump : ∀ place names, jump' place names = jump place names) (ending : Ending) (place : Place)
    (names : List String) :
    walkNames w'.tree jump' ending place names = walkNames w.tree jump ending place names := by
  induction names generalizing place with
  | nil => rfl
  | cons name rest ih =>
      rw [walkNames, walkNames]
      rcases h.at?_cases place with ⟨entries, entries', hat, hat'⟩ | ⟨hsame, hdir⟩
      · -- the name leads to the same place in both, so it is enough that they agree there
        have hnamed := Node.at?_concat hat name
        have hnamed' := Node.at?_concat hat' name
        rw [hat, hat']
        simp only [ih, hjump]
        rcases h.at?_cases (place ++ [name]) with ⟨inner, inner', hin, hin'⟩ | ⟨hsame, -⟩
        · rw [← hnamed, ← hnamed', hin, hin']
        · rw [← hnamed, ← hnamed', hsame]
      · rw [hsame]
        cases hat : w.tree.at? place with
        | none => rfl
        | some node =>
            cases node with
            | dir entries => exact absurd hat (hdir entries)
            | file content => rfl
            | link target => rfl

theorem walk_eq (h : SameContents w w') (ending : Ending) (links : Nat) (place : Place)
    (names : List String) :
    walk w'.tree ending links place names = walk w.tree ending links place names := by
  induction links generalizing place names with
  | zero => exact h.walkNames_eq (fun _ _ => rfl) ending place names
  | succ links ih => exact h.walkNames_eq ih ending place names

theorem findPlace_eq (h : SameContents w w') (ending : Ending) (a : Address) :
    w'.findPlace ending a = w.findPlace ending a := by
  unfold findPlace start
  rw [h.cwd, h.walk_eq]

/-- Listing a directory fails in both worlds for one reason, or it gives the entries of one place. -/
theorem scan_cases (h : SameContents w w') (a : Address) :
    (∃ t, w.scan a = .error t ∧ w'.scan a = .error t) ∨
      ∃ place entries entries', w.tree.at? place = some (.dir entries) ∧
        w'.tree.at? place = some (.dir entries') ∧ w.scan a = .ok entries ∧
          w'.scan a = .ok entries' := by
  unfold scan
  rcases openNode_cases h.denied (h.findPlace_eq .followed a) with
    ⟨t, hopen, hopen'⟩ | ⟨place, hopen, hopen'⟩
  · rw [hopen, hopen']
    exact Or.inl ⟨t, rfl, rfl⟩
  · rw [hopen, hopen']
    rcases h.at?_cases place with ⟨entries, entries', hat, hat'⟩ | ⟨hsame, hdir⟩
    · rw [hat, hat']
      exact Or.inr ⟨place, entries, entries', hat, hat', rfl, rfl⟩
    · rw [hsame]
      cases hat : w.tree.at? place with
      | none => exact Or.inl ⟨_, rfl, rfl⟩
      | some node =>
          cases node with
          | dir entries => exact absurd hat (hdir entries)
          | file content => exact Or.inl ⟨_, rfl, rfl⟩
          | link target => exact Or.inl ⟨_, rfl, rfl⟩

end SameContents

end SourceNavigator.World
