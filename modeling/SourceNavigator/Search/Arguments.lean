import SourceNavigator.Failure
import SourceNavigator.Path.Route
import SourceNavigator.Search.Options

/-!
# Engine arguments

The words that follow the name of the engine when it is started. A number that is too long to be
written is a failure. Main definition: `arguments`.
-/

namespace SourceNavigator.Search

def numberWord (n : Int) : Except Failure String :=
  match Text.decimal? n with
  | some word => .ok word
  | none => .error .numberTooLong

/-- A value option, left out if the value is not positive. -/
def countOption (flag : String) (n : Int) : Except Failure (List String) :=
  if 0 < n then (numberWord n).map fun word => [flag, word] else .ok []

def flagOption (flag : String) (set : Bool) : List String := if set then [flag] else []

/-- The option that restricts a search to one type of file. -/
def typeOption : Option String → List String
  | some t => if t.isEmpty then [] else ["--type", t]
  | none => []

/-- The option that leaves out everything below the directories that a pattern names. -/
def excludeOption (pattern : String) : List String := ["--glob", "!" ++ pattern ++ "/**"]

/-- The arguments of a search for `pattern` below `root`. The pattern follows `-e`, so that it may
start with a hyphen. -/
def arguments (pattern root : String) (o : Options) : Except Failure (List String) := do
  let before ← countOption "-B" o.contextBefore
  let after ← countOption "-A" o.contextAfter
  let most ← numberWord o.maxResults
  return ["--json", "--line-number", "--column"] ++ before ++ after ++
    ["--max-count", most] ++
    flagOption "--ignore-case" o.ignoreCase ++
    flagOption "--fixed-strings" o.fixedText ++
    typeOption o.fileType ++
    o.excludes.flatMap excludeOption ++
    ["-e", pattern] ++
    o.directories.map (Path.joinText root)

end SourceNavigator.Search
