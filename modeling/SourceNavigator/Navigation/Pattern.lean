import SourceNavigator.Failure

/-!
# Symbol patterns

The patterns that find the definition of a symbol. The name of the symbol is taken literally: every
character that means something in a pattern is escaped.
-/

namespace SourceNavigator.Navigation

/-! ## Kinds of symbols -/

/-- The kinds of symbols that can be looked for. -/
inductive SymbolKind where
  | classes
  | functions
  | constants
  | any
  deriving DecidableEq, Repr

namespace SymbolKind

def all : List SymbolKind := [.classes, .functions, .constants, .any]

def name : SymbolKind → String
  | .classes => "class"
  | .functions => "function"
  | .constants => "constant"
  | .any => "any"

def ofName? (s : String) : Option SymbolKind := all.find? (·.name = s)

def names : List String := all.map name

end SymbolKind

/-! ## Patterns -/

/-- The characters that mean something in a pattern. -/
def specialCharacters : List Char := "()[]\x7b\x7d?*+-|^$\\.&~# \t\n\r\x0b\x0c".toList

/-- The pattern that matches exactly a text. -/
def escape (cs : List Char) : List Char :=
  cs.flatMap fun c => if specialCharacters.contains c then ['\\', c] else [c]

/-- The patterns for classes; `name` is escaped. -/
def classPatterns (name : String) : List String := ["class\\s+" ++ name ++ "\\b"]

def functionPatterns (name : String) : List String := ["function\\s+" ++ name ++ "\\s*\\("]

def constantPatterns (name : String) : List String :=
  ["define\\s*\\(\\s*['\\\"]" ++ name ++ "['\\\"]", "const\\s+" ++ name ++ "\\s*="]

/-- The patterns that find a symbol whose escaped name is given. -/
def templates (name : String) : SymbolKind → List String
  | .classes => classPatterns name
  | .functions => functionPatterns name
  | .constants => constantPatterns name
  | .any => classPatterns name ++ functionPatterns name ++ constantPatterns name

/-- The patterns that find a symbol of a kind. -/
def symbolPatterns (name : String) (kind : SymbolKind) : List String :=
  templates (String.ofList (escape name.toList)) kind

/-- The patterns that find a symbol of a kind given by its name. -/
def namedPatterns (name kind : String) : Except Failure (List String) :=
  match SymbolKind.ofName? kind with
  | some k => .ok (symbolPatterns name k)
  | none => .error (.unknownSymbolType kind SymbolKind.names)

end SourceNavigator.Navigation
