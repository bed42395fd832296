import SourceNavigator.Data.Check

/-!
# Search options

What a caller may say about a search. `Options.check` reads the options from data: directories and
patterns are trimmed, blank ones are dropped, and a search without a directory is one of the root.
-/

namespace SourceNavigator.Search

open Data (Rule Validated Datum)

/-- Directories, relative to the root, and how to search them. -/
structure Options where
  directories : List String
  excludes : List String
  maxResults : Int
  contextBefore : Int
  contextAfter : Int
  ignoreCase : Bool
  fileType : Option String
  fixedText : Bool
  deriving DecidableEq, Repr

/-! ## Cleaning -/

/-- The directories that are left out unless the caller says otherwise. -/
def defaultExcludes : List String := ["vendor", "node_modules", ".git"]

/-- The directories to search: trimmed, without blank ones; the root if none is left. -/
def cleanDirectories (ds : List String) : List String :=
  let kept := (ds.map Text.strip).filter (!·.isEmpty)
  if kept.isEmpty then ["."] else kept

def dropSlashes (s : String) : String := String.ofList (Text.dropEndWhile (· == '/') s.toList)

/-- The patterns to leave out: trimmed, without slashes at the end, and without empty ones. -/
def cleanExcludes (ps : List String) : List String :=
  (ps.map fun p => dropSlashes (Text.strip p)).filter (!·.isEmpty)

/-- A file type, trimmed. A blank one is none. -/
def cleanFileType (t : Option String) : Option String :=
  t.bind fun s => if (Text.strip s).isEmpty then none else some (Text.strip s)

/-! ## Options as data -/

namespace Options

def default : Options := ⟨["."], defaultExcludes, 100, 0, 0, false, none, false⟩

/-- Options in their cleaned form. -/
def ofParts (directories excludes : List String) (maxResults before after : Int)
    (ignoreCase : Bool) (fileType : Option String) (fixedText : Bool) : Options :=
  ⟨cleanDirectories directories, cleanExcludes excludes, maxResults, before, after, ignoreCase,
    cleanFileType fileType, fixedText⟩

def fields (entries : List (Datum × Datum)) : Validated Options :=
  ofParts
    <$> Rule.field "directories" (some ["."]) (Rule.list Rule.text) entries
    <*> Rule.field "exclude_patterns" (some defaultExcludes) (Rule.list Rule.text) entries
    <*> Rule.field "max_results" (some 100) (Rule.integerAbove 0) entries
    <*> Rule.field "context_before" (some 0) (Rule.integerFrom 0) entries
    <*> Rule.field "context_after" (some 0) (Rule.integerFrom 0) entries
    <*> Rule.field "ignore_case" (some false) Rule.truth entries
    <*> Rule.field "file_type" (some none) (Rule.optional Rule.text) entries
    <*> Rule.field "fixed_strings" (some false) Rule.truth entries

def modelName : String := "SearchOptions"

def check : Rule Options := Rule.record modelName fields

def toDatum (o : Options) : Datum :=
  .map
    [(.text "directories", .list (o.directories.map .text)),
     (.text "exclude_patterns", .list (o.excludes.map .text)),
     (.text "max_results", .int o.maxResults),
     (.text "context_before", .int o.contextBefore),
     (.text "context_after", .int o.contextAfter),
     (.text "ignore_case", .bool o.ignoreCase),
     (.text "file_type", match o.fileType with | none => .null | some t => .text t),
     (.text "fixed_strings", .bool o.fixedText)]

end Options

end SourceNavigator.Search
