import SourceNavigator.Markup.Node
import SourceNavigator.Markup.Token

/-!
# The graph of a document

From the tokens of a document to the graph of its nodes. A list or a map gets its number before its
parts are read, so that an alias among them can name it. Main definition: `Graph.ofTokens?`.
-/

namespace SourceNavigator.Markup

open Text (Points)

/-- What has been read of a document: the tokens left, the handles of tags, the nodes, the numbers of
the named ones, and how many lists and maps are open. -/
structure Reader where
  tokens : List Token
  handles : List (String × String)
  graph : Graph
  anchors : List (String × Nat)
  depth : Nat

/-- A step in reading a document. -/
abbrev Parse (α : Type) := StateT Reader (Except Defect) α

namespace Parse

def stop {α : Type} (d : Defect) : Parse α := fun _ => .error d

def peek : Parse Token := fun r =>
  match r.tokens with
  | [] => .ok (.streamEnd, r)
  | .broken d :: _ => .error d
  | t :: _ => .ok (t, r)

def advance : Parse Unit := fun r => .ok ((), { r with tokens := r.tokens.drop 1 })

/-- Passes over a token, which must come next. -/
def expect (t : Token) : Parse Unit := do
  let next ← peek
  if next = t then advance else stop .malformed

/-- The node of an alias. -/
def lookup (name : String) : Parse Nat := fun r =>
  match r.anchors.find? (·.1 = name) with
  | some (_, i) => .ok (i, r)
  | none => .error .malformed

/-- A new node, named if there is a name for it. -/
def make (anchor : Option String) (node : Node) : Parse Nat := fun r =>
  let i := r.graph.size
  let anchors :=
    match anchor with
    | none => r.anchors
    | some name => (name, i) :: r.anchors
  .ok (i, { r with graph := r.graph.add node, anchors := anchors })

def checkFree (anchor : Option String) : Parse Unit := fun r =>
  match anchor with
  | none => .ok ((), r)
  | some name => if r.anchors.any (·.1 = name) then .error .malformed else .ok ((), r)

/-- The text of a tag whose handle is known. -/
def tagText (t : TagName) : Parse String := fun r =>
  match t.handle with
  | none => .ok (t.suffix, r)
  | some handle =>
    match r.handles.find? (·.1 = handle) with
    | some (_, start) => .ok (start ++ t.suffix, r)
    | none => .error .malformed

/-- The most lists and maps within each other. -/
def maxDepth : Nat := 490

/-- Opens a list or a map. -/
def enter : Parse Unit := fun r =>
  if r.depth < maxDepth then .ok ((), { r with depth := r.depth + 1 }) else .error .tooDeep

/-- Gives a list or a map its parts and closes it. -/
def close (i : Nat) (c : Content) : Parse Nat := fun r =>
  .ok (i, { r with graph := r.graph.setContent i c, depth := r.depth - 1 })

end Parse

open Parse

/-! ## Properties -/

/-- What may stand before a node: a name and a tag, in either order. -/
structure Properties where
  anchor : Option String
  tag : Option String

/-- A name, if one comes next. -/
def parseAnchor : Parse (Option String) := do
  match ← peek with
  | .anchor name =>
    advance
    return some name
  | _ => return none

def parseTagName : Parse (Option TagName) := do
  match ← peek with
  | .tag t =>
    advance
    return some t
  | _ => return none

def tagText? : Option TagName → Parse (Option String)
  | none => return none
  | some t => return some (← tagText t)

/-- The properties before a node. The handle of a tag is looked up behind all of them. -/
def parseProperties : Parse Properties := do
  match ← parseAnchor with
  | some name =>
    let tag ← parseTagName
    return ⟨some name, ← tagText? tag⟩
  | none =>
    match ← parseTagName with
    | some t =>
      let anchor ← parseAnchor
      return ⟨anchor, ← tagText? (some t)⟩
    | none => return ⟨none, none⟩

/-- A tag that says nothing. -/
def isOpenTag (tag : Option String) : Bool := tag.isNone || tag == some "!"

/-- The kind of a list or map; `usual` is the kind without a tag. -/
def Properties.kind (p : Properties) (usual : Kind) : Kind :=
  if isOpenTag p.tag then usual else Kind.ofTag (p.tag.getD "")

/-- The kind that a text shows by its form. A text with halves of pairs is a text. -/
def shownKind (text : Points) : Kind :=
  match text.chars? with
  | some cs => Kind.ofPlain cs
  | none => .text

def Properties.scalarKind (p : Properties) (text : Points) (plain : Bool) : Kind :=
  match p.tag with
  | none => if plain then shownKind text else .text
  | some tag => if tag = "!" then shownKind text else Kind.ofTag tag

/-! ## Nodes -/

/-- The number of a node for what is not written. -/
def parseNothing : Parse Nat := make none Node.nothing

/-- The number of a list whose items `parts` reads. -/
def parseList (p : Properties) (parts : Parse (List Nat)) : Parse Nat := do
  enter
  let i ← make p.anchor ⟨p.kind .list, .list []⟩
  close i (.list (← parts))

/-- The number of a map whose entries `parts` reads. -/
def parseMap (p : Properties) (parts : Parse (List (Nat × Nat))) : Parse Nat := do
  enter
  let i ← make p.anchor ⟨p.kind .map, .map []⟩
  close i (.map (← parts))

mutual

/-- The number of a node. Outside brackets it may be a block; `loose` tells that a list may begin
without indentation. A name is found to be taken only when the node behind it has begun. The first
argument bounds the number of tokens. -/
def parseNode : Nat → (block loose : Bool) → Parse Nat
  | 0, _, _ => stop .malformed
  | fuel + 1, block, loose => do
    match ← peek with
    | .alias name =>
      advance
      lookup name
    | _ =>
      let p ← parseProperties
      let next ← peek
      checkFree p.anchor
      match next with
      | .scalar text plain =>
        advance
        make p.anchor ⟨p.scalarKind text plain, .scalar text⟩
      | .flowListStart =>
        advance
        parseList p (parseFlowItems fuel true)
      | .flowMapStart =>
        advance
        parseMap p (parseFlowEntries fuel true)
      | _ =>
        if loose && next = .blockEntry then parseList p (parseOpenItems fuel)
        else if block && next = .blockListStart then
          advance
          parseList p (parseBlockItems fuel)
        else if block && next = .blockMapStart then
          advance
          parseMap p (parseBlockEntries fuel)
        else if p.anchor.isSome || p.tag.isSome then
          make p.anchor ⟨p.scalarKind [] true, .scalar []⟩
        else stop .malformed

def parseBlockItems : Nat → Parse (List Nat)
  | 0 => stop .malformed
  | fuel + 1 => do
    match ← peek with
    | .blockEntry =>
      advance
      let next ← peek
      let item ←
        if next = .blockEntry ∨ next = .blockEnd then parseNothing else parseNode fuel true false
      return item :: (← parseBlockItems fuel)
    | .blockEnd =>
      advance
      return []
    | _ => stop .malformed

/-- The items of a list without indentation of its own. -/
def parseOpenItems : Nat → Parse (List Nat)
  | 0 => stop .malformed
  | fuel + 1 => do
    match ← peek with
    | .blockEntry =>
      advance
      let next ← peek
      let item ←
        if next = .blockEntry ∨ next = .key ∨ next = .value ∨ next = .blockEnd then parseNothing
        else parseNode fuel true false
      return item :: (← parseOpenItems fuel)
    | _ => return []

def parseBlockEntries : Nat → Parse (List (Nat × Nat))
  | 0 => stop .malformed
  | fuel + 1 => do
    match ← peek with
    | .key =>
      advance
      let key ← parseBlockPart fuel
      let value ←
        match ← peek with
        | .value => do
          advance
          parseBlockPart fuel
        | _ => parseNothing
      return (key, value) :: (← parseBlockEntries fuel)
    | .blockEnd =>
      advance
      return []
    | _ => stop .malformed

def parseBlockPart : Nat → Parse Nat
  | 0 => stop .malformed
  | fuel + 1 => do
    let next ← peek
    if next = .key ∨ next = .value ∨ next = .blockEnd then parseNothing
    else parseNode fuel true true

def parseFlowItems : Nat → (first : Bool) → Parse (List Nat)
  | 0, _ => stop .malformed
  | fuel + 1, first => do
    if (← peek) = .flowListEnd then
      advance
      return []
    else
      if !first then expect .flowEntry
      match ← peek with
      | .key =>
        let pair ← parseMap ⟨none, none⟩ (parseFlowPair fuel)
        return pair :: (← parseFlowItems fuel false)
      | .flowListEnd =>
        advance
        return []
      | _ =>
        let item ← parseNode fuel false false
        return item :: (← parseFlowItems fuel false)

/-- The only entry of a map that stands in a list without braces. -/
def parseFlowPair : Nat → Parse (List (Nat × Nat))
  | 0 => stop .malformed
  | fuel + 1 => do
    advance
    let key ← parseFlowPart fuel .flowListEnd true
    let value ← parseFlowValue fuel .flowListEnd
    return [(key, value)]

def parseFlowEntries : Nat → (first : Bool) → Parse (List (Nat × Nat))
  | 0, _ => stop .malformed
  | fuel + 1, first => do
    if (← peek) = .flowMapEnd then
      advance
      return []
    else
      if !first then expect .flowEntry
      match ← peek with
      | .key =>
        advance
        let key ← parseFlowPart fuel .flowMapEnd true
        let value ← parseFlowValue fuel .flowMapEnd
        return (key, value) :: (← parseFlowEntries fuel false)
      | .flowMapEnd =>
        advance
        return []
      | _ =>
        let key ← parseNode fuel false false
        let value ← parseNothing
        return (key, value) :: (← parseFlowEntries fuel false)

/-- A key or a value between brackets that `close` ends; nothing may stand in its place. -/
def parseFlowPart : Nat → (close : Token) → (isKey : Bool) → Parse Nat
  | 0, _, _ => stop .malformed
  | fuel + 1, close, isKey => do
    let next ← peek
    if (isKey ∧ next = .value) ∨ next = .flowEntry ∨ next = close then parseNothing
    else parseNode fuel false false

/-- The value after a key between brackets, if there is a colon. -/
def parseFlowValue : Nat → (close : Token) → Parse Nat
  | 0, _ => stop .malformed
  | fuel + 1, close => do
    match ← peek with
    | .value =>
      advance
      parseFlowPart fuel close false
    | _ => parseNothing

end

/-! ## Documents -/

def skipDocumentEnds : (fuel : Nat) → Parse Unit
  | 0 => pure ()
  | fuel + 1 => do
    if (← peek) = .documentEnd then
      advance
      skipDocumentEnds fuel

/-- The handles that need no directive. -/
def standardHandles : List (String × String) := [("!", "!"), ("!!", standardTag)]

/-- The handles that the directives before a document define. -/
def parseDirectives : (fuel : Nat) → (versioned : Bool) → List (String × String) →
    Parse (List (String × String))
  | 0, _, _ => stop .malformed
  | fuel + 1, versioned, handles => do
    match ← peek with
    | .directive (.version major) =>
      advance
      if versioned ∨ major ≠ 1 then stop .malformed else parseDirectives fuel true handles
    | .directive (.tag handle start) =>
      advance
      if handles.any (·.1 = handle) then stop .malformed
      else parseDirectives fuel versioned ((handle, start) :: handles)
    | .directive .other =>
      advance
      parseDirectives fuel versioned handles
    | _ => return handles

/-- Begins a document with its mark, unless the text ends before one. -/
def beginMarked (fuel : Nat) : Parse Bool := do
  skipDocumentEnds fuel
  if (← peek) = .streamEnd then return false
  else
    let handles ← parseDirectives fuel false []
    modify fun r => { r with handles := handles ++ standardHandles }
    expect .documentStart
    return true

/-- The node of a document that has begun with its mark. -/
def parseMarked (fuel : Nat) : Parse Nat := do
  match ← peek with
  | .directive _ => parseNothing
  | .documentStart => parseNothing
  | .documentEnd => parseNothing
  | .streamEnd => parseNothing
  | _ => parseNode fuel true false

/-- The only document of a text, if there is one. -/
def parseDocument (fuel : Nat) : Parse (Option Nat) := do
  let first ← peek
  let marked : Bool :=
    match first with
    | .directive _ => true
    | .documentStart => true
    | .streamEnd => true
    | _ => false
  if marked then
    if ← beginMarked fuel then
      let node ← parseMarked fuel
      if ← beginMarked fuel then stop .malformed else return some node
    else return none
  else
    let node ← parseNode fuel true false
    if ← beginMarked fuel then stop .malformed else return some node

/-- The graph of a document with the number of its outermost node; nothing if the text holds no
document. -/
def Graph.ofTokens? (tokens : List Token) : Except Defect (Option (Graph × Nat)) :=
  match parseDocument (4 * tokens.length + 8) ⟨tokens, standardHandles, Graph.empty, [], 0⟩ with
  | .error d => .error d
  | .ok (node, r) => .ok (node.map fun i => (r.graph, i))

end SourceNavigator.Markup
