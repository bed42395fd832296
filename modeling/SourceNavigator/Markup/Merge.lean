import SourceNavigator.Markup.Defect
import SourceNavigator.Markup.Node

/-!
# Merged maps

A map may take in the entries of other maps: under the merge key stands a map, or a list of maps of
which the first counts most. Taking in happens in the map's place, so that it shows in every map that
takes in this one. The key for a default value becomes a text on the way. Main definition:
`Graph.flatten`.
-/

namespace SourceNavigator.Markup

namespace Graph

/-! ## Merge keys -/

/-- The entries of a map; of another node none. -/
def entries (g : Graph) (i : Nat) : List (Nat × Nat) :=
  match g.content i with
  | .map es => es
  | _ => []

def isMap (g : Graph) (i : Nat) : Bool :=
  match g.content i with
  | .map _ => true
  | _ => false

/-- The value under the first merge key of some entries, and the entries without it. -/
def takeMerge? (g : Graph) : List (Nat × Nat) → Option (Nat × List (Nat × Nat))
  | [] => none
  | (k, v) :: rest =>
    if g.kind k == .merge then some (v, rest)
    else (g.takeMerge? rest).map fun (found, rest) => (found, (k, v) :: rest)

def mergeCount (g : Graph) (n : Node) : Nat :=
  match n.content with
  | .map es => es.countP fun e => g.kind e.1 == .merge
  | _ => 0

def mergeTotal (g : Graph) : Nat :=
  g.nodes.toList.foldl (fun total node => total + g.mergeCount node) 0

/-- The keys for a default value among entries as texts. -/
def plainKeys (g : Graph) (es : List (Nat × Nat)) : Graph :=
  es.foldl (fun g e => if g.kind e.1 == .default then g.setKind e.1 .text else g) g

/-! ## Taking in what is named -/

/-- What the maps of a list contribute, that of the last one first; `take` makes a map take in what it
names. -/
def mergeItems (take : Graph → Nat → Except Defect Graph) :
    Graph → List Nat → Except Defect (Graph × List (Nat × Nat))
  | g, [] => .ok (g, [])
  | g, i :: rest =>
    if !g.isMap i then .error .malformed
    else
      match take g i with
      | .error d => .error d
      | .ok g =>
        let own := g.entries i
        (mergeItems take g rest).map fun (g, es) => (g, es ++ own)

/-- What a node contributes where it is merged. -/
def contribution (take : Graph → Nat → Except Defect Graph) (g : Graph) (i : Nat) :
    Except Defect (Graph × List (Nat × Nat)) :=
  match g.content i with
  | .map _ => (take g i).map fun g => (g, g.entries i)
  | .list items => mergeItems take g items
  | .scalar _ => .error .malformed

/-- The graph with a map that has taken in all that it names; `taken` are the entries taken in so far.
No merge key is met twice, so their number bounds the recursion. -/
def flattenFrom : (fuel : Nat) → (taken : List (Nat × Nat)) → Graph → Nat → Except Defect Graph
  | fuel, taken, g, i =>
    match g.takeMerge? (g.entries i) with
    | none =>
      let own := g.entries i
      .ok ((g.plainKeys own).setContent i (.map (taken ++ own)))
    | some (v, own) =>
      match fuel with
      | 0 => .error .malformed
      | fuel + 1 =>
        match (g.setContent i (.map own)).contribution (flattenFrom fuel []) v with
        | .error d => .error d
        | .ok (g, more) => flattenFrom fuel (taken ++ more) g i

/-- The graph with a map that has taken in all that it names. -/
def flatten (g : Graph) (i : Nat) : Except Defect Graph := flattenFrom g.mergeTotal [] g i

end Graph

end SourceNavigator.Markup
