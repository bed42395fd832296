import SourceNavigator.Command.Grammar
import SourceNavigator.Navigation.Pattern

/-!
# The command line

The commands of the program and the switches of each. `Invocation.parse` turns the words of a command
line into what is to be done.
-/

namespace SourceNavigator.Command

open Navigation (SymbolKind)

def programName : String := "codenav"

def programVersion : String := "0.1.0"

/-- A question to the navigator. A kind or a directory may be asked for without being named. -/
inductive Question where
  | symbol (name : String) (kind : Option String) (directory : Option String)
  | usage (term : String) (directories : List (Option String)) (count : Option Int)
  | read (file : String) (first last : Option Int)
  | tree (directory : String) (depth : Option Int)
  deriving DecidableEq, Repr

/-- A question with the settings to answer it by. -/
structure Invocation where
  root : Option String
  settings : Option String
  level : Option String
  question : Question
  deriving DecidableEq, Repr

/-! ## Switches -/

/-- The switch for help, which every command has. -/
def helpSwitch : Switch := ⟨["-h", "--help"], .help⟩

/-- A switch with any value. -/
def textSwitch (name : String) : Switch := ⟨[name], .value fun _ => none⟩

def numberSwitch (name : String) : Switch :=
  ⟨[name], .value fun s =>
    if (Text.readInteger? s).isSome then none else some ("invalid int value: " ++ Text.quote s)⟩

def choiceComplaint (choices : List String) (s : String) : Option String :=
  if choices.contains s then none
  else
    some ("invalid choice: " ++ Text.quote s ++ " (choose from " ++
      String.intercalate ", " (choices.map Text.quote) ++ ")")

def choiceSwitch (name : String) (choices : List String) : Switch :=
  ⟨[name], .value (choiceComplaint choices)⟩

/-! ## Commands -/

/-- The grammar of a command with these switches and this operand. -/
def subcommand (name : String) (switches : List Switch) (operand : String) (form : OperandForm) :
    Grammar :=
  ⟨programName ++ " " ++ name, helpSwitch :: switches, operand, form⟩

def subcommands : List (String × Grammar) :=
  [("symbol", subcommand "symbol"
      [choiceSwitch "--type" SymbolKind.names, textSwitch "--dir"] "name" .single),
   ("usage", subcommand "usage" [textSwitch "--dir", numberSwitch "--max"] "term" .single),
   ("read", subcommand "read" [numberSwitch "--start", numberSwitch "--end"] "file" .single),
   ("tree", subcommand "tree" [numberSwitch "--depth"] "directory" .optional)]

/-- The grammar of the whole command line, in which the command is an operand. -/
def mainGrammar : Grammar :=
  ⟨programName,
    [helpSwitch, ⟨["--version"], .version⟩, textSwitch "--moodle-path", textSwitch "--config",
     textSwitch "--log-level"],
    "command", .rest⟩

/-! ## What was asked -/

namespace Parsed

def valuesOf (p : Parsed) (key : String) : List (Option String) :=
  (p.values.filter (·.1 = key)).map (·.2)

/-- The last value of a switch. -/
def value? (p : Parsed) (key : String) : Option String := ((p.valuesOf key).getLast?).join

def number? (p : Parsed) (key : String) : Option Int := (p.value? key).bind Text.readInteger?

/-- The word of the operand, or a word in its place. -/
def word (p : Parsed) (otherwise : String) : String := (p.operand.bind (·.head?)).getD otherwise

end Parsed

def questionOf (name : String) (p : Parsed) : Question :=
  if name = "symbol" then
    .symbol (p.word "") (((p.valuesOf "--type").getLast?).getD (some SymbolKind.any.name))
      (p.value? "--dir")
  else if name = "usage" then .usage (p.word "") (p.valuesOf "--dir") (p.number? "--max")
  else if name = "read" then
    .read (p.word "") (some ((p.number? "--start").getD 1)) (p.number? "--end")
  else .tree (p.word ".") (p.number? "--depth")

/-- The halt for words that nothing takes. -/
def checkExtras (extras : List String) : Except Halt Unit :=
  if extras.isEmpty then .ok ()
  else .error (mainGrammar.misuse ("unrecognized arguments: " ++ String.intercalate " " extras))

/-- The invocation that the words of a command line stand for. -/
def Invocation.parse (words : List String) : Except Halt Invocation := do
  let p ← mainGrammar.parse words
  let name := p.word ""
  match subcommands.find? (·.1 = name) with
  | none =>
    let complaint := (choiceComplaint (subcommands.map (·.1)) name).getD ""
    .error (mainGrammar.misuse ("argument command: " ++ complaint))
  | some (_, grammar) =>
    let q ← grammar.parse ((p.operand.getD []).drop 1)
    checkExtras (p.extras ++ q.extras)
    return ⟨p.value? "--moodle-path", p.value? "--config", p.value? "--log-level", questionOf name q⟩

end SourceNavigator.Command
