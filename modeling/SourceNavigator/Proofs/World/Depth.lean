import SourceNavigator.Proofs.World.Meeting

set_option autoImplicit false

/-! # How deep the links of a tree stand

The path of a place has one octet for each slash and those of the names (`utf8ByteSize_text_root`). So
one pass over a tree, with the octets written so far, tells whether all of its links stand under paths
that are short enough to be looked up (`linksAreShort_of_linksFit`).
-/

namespace SourceNavigator.World

open SourceNavigator.Path (Route)

/-- The octets of the path of a place that is not the root. -/
def pathSize (place : Place) : Nat := (place.map fun name => name.utf8ByteSize + 1).sum

theorem pathSize_cons (name : String) (place : Place) :
    pathSize (name :: place) = name.utf8ByteSize + 1 + pathSize place := by
  rw [pathSize, List.map_cons, List.sum_cons, pathSize]

theorem pathSize_singleton (name : String) : pathSize [name] = name.utf8ByteSize + 1 := by
  rw [pathSize, List.map_singleton, List.sum_singleton]

theorem pathSize_append (place more : Place) :
    pathSize (place ++ more) = pathSize place + pathSize more := by
  rw [pathSize, List.map_append, List.sum_append, pathSize, pathSize]

theorem pathSize_replicate (k : Nat) (name : String) :
    pathSize (List.replicate k name) = k * (name.utf8ByteSize + 1) := by
  rw [pathSize, List.map_replicate, List.sum_replicate, smul_eq_mul]

theorem glueStrings_cons_cons (sep first next : String) (rest : List String) :
    Text.glueStrings sep (first :: next :: rest)
      = first ++ sep ++ Text.glueStrings sep (next :: rest) := by
  unfold Text.glueStrings
  rw [List.map_cons, List.map_cons, Text.glue]
  · rw [String.ofList_append, String.ofList_append, String.ofList_toList, String.ofList_toList]
  · exact fun h => List.cons_ne_nil _ _ h

theorem utf8ByteSize_glueStrings (first : String) (rest : List String) :
    (Text.glueStrings "/" (first :: rest)).utf8ByteSize + 1 = pathSize (first :: rest) := by
  have hslash : ("/" : String).utf8ByteSize = 1 := by rfl
  induction rest generalizing first with
  | nil =>
      have hsingle : Text.glueStrings "/" [first] = first := String.ofList_toList
      rw [hsingle]
      rfl
  | cons next rest ih =>
      rw [glueStrings_cons_cons, String.utf8ByteSize_append, String.utf8ByteSize_append, pathSize_cons,
        ← ih, hslash]
      omega

/-- The octets of a path from the root on: a slash before each name, and the names. -/
theorem utf8ByteSize_text_root {place : Place} (hne : place ≠ []) :
    (Route.text ⟨.root, place⟩).utf8ByteSize = pathSize place := by
  obtain ⟨first, rest, rfl⟩ := List.exists_cons_of_ne_nil hne
  have htext : Route.text ⟨.root, first :: rest⟩ = "/" ++ Text.glueStrings "/" (first :: rest) := rfl
  have hslash : ("/" : String).utf8ByteSize = 1 := by rfl
  rw [htext, String.utf8ByteSize_append, hslash, ← utf8ByteSize_glueStrings]
  omega

namespace Node

mutual

/-- Whether every link of a tree stands under a short path, the tree itself under one of `used`
octets. -/
def linksFit (used : Nat) : Node → Bool
  | .file _ => true
  | .link _ => used < maxPath
  | .dir entries => entriesFit used entries

/-- Whether every link below the entries of a directory stands under a short path. -/
def entriesFit (used : Nat) : List (String × Node) → Bool
  | [] => true
  | (name, node) :: rest =>
    node.linksFit (used + (name.utf8ByteSize + 1)) && entriesFit used rest

end

theorem linksFit_of_named? {used : Nat} {entries : List (String × Node)}
    (h : entriesFit used entries = true) {name : String} {node : Node}
    (hnode : named? name entries = some node) :
    node.linksFit (used + (name.utf8ByteSize + 1)) = true := by
  induction entries with
  | nil => cases hnode
  | cons entry rest ih =>
      obtain ⟨first, child⟩ := entry
      rw [entriesFit, Bool.and_eq_true] at h
      by_cases hname : first = name
      · rw [named?, if_pos hname] at hnode
        cases hnode
        exact hname ▸ h.1
      · rw [named?, if_neg hname] at hnode
        exact ih h.2 hnode

theorem pathSize_lt_of_linksFit {used : Nat} {node : Node} (h : node.linksFit used = true)
    {place : Place} {target : String} (hat : node.at? place = some (.link target)) :
    used + pathSize place < maxPath := by
  induction place generalizing used node with
  | nil =>
      rw [at?_nil] at hat
      cases hat
      simpa [linksFit, pathSize] using h
  | cons name rest ih =>
      cases node with
      | file _ => cases hat
      | link _ => cases hat
      | dir entries =>
          rw [at?] at hat
          obtain ⟨child, hchild, hat⟩ := Option.bind_eq_some_iff.mp hat
          rw [linksFit] at h
          have hrest := ih (linksFit_of_named? h hchild) hat
          rw [pathSize_cons]
          omega

end Node

/-- A tree whose links fit has no link that stands too deep. -/
theorem linksAreShort_of_linksFit {w : World} (h : w.tree.linksFit 0 = true) : LinksAreShort w := by
  intro place target hat
  by_cases hplace : place = []
  · subst hplace
    decide
  · rw [IsShort, utf8ByteSize_text_root hplace]
    have hlt := Node.pathSize_lt_of_linksFit h hat
    omega

end SourceNavigator.World
