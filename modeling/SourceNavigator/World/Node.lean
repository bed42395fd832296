import SourceNavigator.Path.Route

/-!
# The tree of files

A `Node` is a file, a symbolic link or a directory of named nodes. A place is the list of names that
leads to a node from the root through directories alone; no link is followed on the way. Main
definitions: `Node.at?` and the changes `Node.put` and `Node.erase`.
-/

namespace SourceNavigator.World

/-- A file with its octets, a link with its target as written, or a directory. -/
inductive Node where
  | file (content : List UInt8)
  | link (target : String)
  | dir (entries : List (String × Node))
  deriving Repr, Inhabited

/-- The names that lead to a node from the root, through directories alone. -/
abbrev Place := List String

namespace Node

def named? (name : String) : List (String × Node) → Option Node
  | [] => none
  | (n, node) :: rest => if n = name then some node else named? name rest

/-- The node at a place below another one. -/
def at? : Node → Place → Option Node
  | node, [] => some node
  | .dir entries, name :: rest => (named? name entries).bind (at? · rest)
  | _, _ :: _ => none

/-- The entries with a node under a name, in place of one that was there. -/
def putEntry (name : String) (node : Node) : List (String × Node) → List (String × Node)
  | [] => [(name, node)]
  | (n, old) :: rest => if n = name then (n, node) :: rest else (n, old) :: putEntry name node rest

/-- The tree with a node at a place. The place must lead through directories. -/
def put (node : Node) : Place → Node → Node
  | [], _ => node
  | name :: rest, .dir entries =>
    match named? name entries with
    | some child => .dir (putEntry name (put node rest child) entries)
    | none => if rest.isEmpty then .dir (putEntry name node entries) else .dir entries
  | _ :: _, other => other

/-- The tree without the node at a place. -/
def erase : Place → Node → Node
  | [], node => node
  | [name], .dir entries => .dir (entries.filter (·.1 != name))
  | name :: rest, .dir entries =>
    match named? name entries with
    | some child => .dir (putEntry name (erase rest child) entries)
    | none => .dir entries
  | _ :: _, other => other

end Node

end SourceNavigator.World
