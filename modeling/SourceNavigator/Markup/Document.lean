import SourceNavigator.Markup.Graph
import SourceNavigator.Markup.Merge
import SourceNavigator.Markup.Scalar
import SourceNavigator.Markup.Scan

/-!
# Documents

From the text of a settings document to its data. Values are found layer by layer: that of a scalar
where it stands, those of the parts of a list or a map only after all that stands beside it. So of
several scalars that cannot be read the one that counts is the first of those that are nested least.
Main definition: `read`.
-/

namespace SourceNavigator.Markup

open Data (Datum)
open Text (Points)

/-! ## Values of nodes -/

/-- The value of a node. The parts of lists and the values of maps are given by their numbers. -/
inductive Value where
  | scalar (d : Datum)
  | list (items : List Nat)
  | pairs (items : List (Nat × Nat))
  | set (keys : List Datum)
  | map (entries : List (Datum × Nat))
  deriving Repr

/-- The value that a list or a map of a kind has until its parts are known. -/
def Value.start? : Kind → Option Value
  | .list => some (.list [])
  | .orderedMap => some (.pairs [])
  | .pairs => some (.pairs [])
  | .set => some (.set [])
  | .map => some (.map [])
  | _ => none

/-- Whether a value can be the key of a map, and the key. -/
def Value.key? : Value → Option Datum
  | .scalar d => some d
  | _ => none

/-- A document whose values are being found: the values known so far, and the lists and maps whose
parts are still to come, the last one first. -/
structure Building where
  graph : Graph
  values : Array (Option Value)
  pending : List Nat
  deriving Repr

namespace Building

def value? (b : Building) (i : Nat) : Option Value := (b.values[i]?).join

def put (b : Building) (i : Nat) (v : Value) : Building :=
  { b with values := b.values.setIfInBounds i (some v) }

/-! ## Scalars -/

/-- The default value among the entries of a map. -/
def defaultOf? (g : Graph) (es : List (Nat × Nat)) : Option Nat :=
  (es.find? fun e => g.kind e.1 == .default).map (·.2)

/-- The text of a scalar, or of the default value of a map. A chain of default values that is longer
than there are nodes has no end. -/
def scalarText (g : Graph) : (fuel : Nat) → Nat → Except Defect Points
  | 0, _ => .error .endless
  | fuel + 1, i =>
    match g.content i with
    | .scalar text => .ok text
    | .list _ => .error .malformed
    | .map es =>
      match defaultOf? g es with
      | some v => scalarText g fuel v
      | none => .error .malformed

/-- The value of a node that is to be read as a scalar. Only a text can be read as a date, not the
default value of a map. -/
def scalarOf (g : Graph) (i : Nat) : Except Defect Datum :=
  let kind := g.kind i
  if kind == .merge || kind == .default || kind == .unknown then .error .malformed
  else
    match scalarText g (g.size + 1) i with
    | .error d => .error d
    | .ok text =>
      if kind == .timestamp && g.isMap i then .error .timestampOfMap else scalarValue kind text

/-- The building in which the value of a node is known, though that of its parts may not be. -/
def visit (b : Building) (i : Nat) : Except Defect Building :=
  if (b.value? i).isSome then .ok b
  else
    match Value.start? (b.graph.kind i) with
    | some v => .ok { (b.put i v) with pending := i :: b.pending }
    | none => (scalarOf b.graph i).map fun d => b.put i (.scalar d)

/-! ## Parts of lists and maps -/

def visitAll : Building → List Nat → Except Defect Building
  | b, [] => .ok b
  | b, i :: rest =>
    match b.visit i with
    | .error d => .error d
    | .ok b => visitAll b rest

/-- Visits the entries of a map, and gives them by their keys. A key that is met again keeps its place
and has the later value. -/
def visitEntries : List (Datum × Nat) → Building → List (Nat × Nat) →
    Except Defect (Building × List (Datum × Nat))
  | found, b, [] => .ok (b, found)
  | found, b, (k, v) :: rest =>
    match b.visit k with
    | .error d => .error d
    | .ok b =>
      match (b.value? k).bind Value.key? with
      | none => .error .malformed
      | some key =>
        match b.visit v with
        | .error d => .error d
        | .ok b => visitEntries (Datum.putEntry key v found) b rest

/-- The keys and values of a list of maps of one entry each. -/
def visitPairs : List (Nat × Nat) → Building → List Nat →
    Except Defect (Building × List (Nat × Nat))
  | found, b, [] => .ok (b, found.reverse)
  | found, b, i :: rest =>
    match b.graph.content i with
    | .map [(k, v)] =>
      match b.visitAll [k, v] with
      | .error d => .error d
      | .ok b => visitPairs ((k, v) :: found) b rest
    | _ => .error .malformed

/-- The entries of a map that has taken in what it merges. -/
def fillMap (b : Building) (i : Nat) : Except Defect (Building × List (Datum × Nat)) :=
  if !b.graph.isMap i then .error .malformed
  else
    match b.graph.flatten i with
    | .error d => .error d
    | .ok g => visitEntries [] { b with graph := g } (g.entries i)

/-- The building with the parts of a list or a map. -/
def fill (b : Building) (i : Nat) : Except Defect Building :=
  match b.graph.kind i, b.graph.content i with
  | .list, .list items => (b.visitAll items).map (·.put i (.list items))
  | .orderedMap, .list items => (visitPairs [] b items).map fun (b, ps) => b.put i (.pairs ps)
  | .pairs, .list items => (visitPairs [] b items).map fun (b, ps) => b.put i (.pairs ps)
  | .set, _ => (b.fillMap i).map fun (b, es) => b.put i (.set (es.map (·.1)))
  | .map, _ => (b.fillMap i).map fun (b, es) => b.put i (.map es)
  | _, _ => .error .malformed

def fillAll : Building → List Nat → Except Defect Building
  | b, [] => .ok b
  | b, i :: rest =>
    match b.fill i with
    | .error d => .error d
    | .ok b => fillAll b rest

/-- Fills what is pending, layer by layer. Every layer visits a node, so their number bounds it. -/
def fillLayers : (fuel : Nat) → Building → Except Defect Building
  | 0, b => .ok b
  | fuel + 1, b =>
    if b.pending.isEmpty then .ok b
    else
      match fillAll { b with pending := [] } b.pending.reverse with
      | .error d => .error d
      | .ok b => fillLayers fuel b

/-- The values of a graph as they are found from a node on. -/
def ofGraph (g : Graph) (i : Nat) : Except Defect Building :=
  match visit ⟨g, Array.replicate g.size none, []⟩ i with
  | .error d => .error d
  | .ok b => b.fillLayers (g.size + 1)

/-- The datum of a node down to a depth; lists and maps that stand deeper are shown as empty ones. -/
def datum (b : Building) : (depth : Nat) → Nat → Datum
  | depth, i =>
    match b.value? i with
    | none => .null
    | some (.scalar d) => d
    | some (.set keys) => .set keys
    | some (.list items) =>
      match depth with
      | 0 => .list []
      | depth + 1 => .list (items.map (datum b depth))
    | some (.pairs items) =>
      match depth with
      | 0 => .list []
      | depth + 1 => .list (items.map fun p => .tuple [datum b depth p.1, datum b depth p.2])
    | some (.map entries) =>
      match depth with
      | 0 => .map []
      | depth + 1 => .map (entries.map fun e => (e.1, datum b depth e.2))

end Building

/-! ## Reading -/

/-- The data of a document down to a depth, which must be given because a list or a map may be part of
itself. A text without a document holds nothing. -/
def read (depth : Nat) (text : List Char) : Except Defect Datum :=
  match Graph.ofTokens? (tokensOf text) with
  | .error d => .error d
  | .ok none => .ok .null
  | .ok (some (g, i)) => (Building.ofGraph g i).map fun b => b.datum depth i

end SourceNavigator.Markup
