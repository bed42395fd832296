import SourceNavigator.Text.Lines
import SourceNavigator.Text.Numeral
import SourceNavigator.Text.Quoted

/-!
# Command line grammar

A command takes switches, with or without a value, in any order, and one operand. Switches may be
shortened as long as they are not ambiguous, a value may follow in the next word or after an equals
sign, and after a word `--` everything is an operand. Words that look like negative numbers or hold a
space are operands too. Main definition: `Grammar.parse`.
-/

namespace SourceNavigator.Command

/-- How many words an operand takes: one, at most one, or one and all that follow. -/
inductive OperandForm where
  | single
  | optional
  | rest
  deriving DecidableEq, Repr

/-- What a switch does: it shows help or the version, or it takes a value that must pass a check.
The check gives the complaint about a value that does not pass. -/
inductive Effect where
  | help
  | version
  | value (check : String → Option String)

structure Switch where
  names : List String
  effect : Effect

/-- The switches and the operand of a command. -/
structure Grammar where
  program : String
  switches : List Switch
  operand : String
  form : OperandForm

/-- Why parsing ends early: help or the version is asked for, or the words do not fit. -/
inductive Halt where
  | help
  | version
  | misuse (program message : String)
  deriving DecidableEq, Repr

/-- What the words of a command come to: the values of switches in the order given, the words of the
operand, and words that nothing takes. The separator behind an equals sign is no value. -/
structure Parsed where
  values : List (String × Option String)
  operand : Option (List String)
  extras : List String
  deriving Repr

/-- A switch as found in a word: the switch, unless the word is no spelling of one, the spelling, and
the value that the word itself gives. -/
structure Found where
  switch : Option Switch
  spelling : String
  given : Option String

/-- What a word is by its form. -/
inductive Role where
  | separator
  | operand
  | switch (f : Found)

/-- The name of a switch in messages. -/
def Switch.title (s : Switch) : String := String.intercalate "/" s.names

/-- The name under which the values of a switch are kept. -/
def Switch.key (s : Switch) : String := (s.names.getLast?).getD ""

namespace Grammar

/-- The halt for words that do not fit. -/
def misuse (g : Grammar) (message : String) : Halt := .misuse g.program message

/-- The halt for a misused switch. -/
def blame (g : Grammar) (s : Switch) (message : String) : Halt :=
  g.misuse ("argument " ++ s.title ++ ": " ++ message)

def spellings (g : Grammar) : List (String × Switch) :=
  g.switches.flatMap fun s => s.names.map fun name => (name, s)

def switch? (g : Grammar) (name : String) : Option Switch :=
  (g.spellings.find? (·.1 = name)).map (·.2)

/-- The part of a word before the first equals sign and the part after it, if there is one. -/
def splitEquals (word : String) : String × Option String :=
  let cs := word.toList
  let before := cs.takeWhile (· != '=')
  match cs.dropWhile (· != '=') with
  | [] => (word, none)
  | _ :: after => (String.ofList before, some (String.ofList after))

def begins (start s : String) : Bool := start.toList.isPrefixOf s.toList

/-- The switches that a word may be short for. -/
def expansions (g : Grammar) (word : String) : List Found :=
  if begins "--" word then
    let (start, given) := splitEquals word
    (g.spellings.filter fun entry => begins start entry.1).map fun (name, s) =>
      ⟨some s, name, given⟩
  else
    let short := String.ofList (word.toList.take 2)
    g.spellings.filterMap fun (name, s) =>
      if name = short then some ⟨some s, name, some (String.ofList (word.toList.drop 2))⟩
      else if begins word name then some ⟨some s, name, none⟩
      else none

/-- A word of decimal digits of any script. -/
def allDigits (cs : List Char) : Bool := cs.all fun c => (Text.digitValue? c).isSome

def looksNegative (word : String) : Bool :=
  match word.toList with
  | '-' :: body =>
    let body := if body.getLast? = some '\n' then body.dropLast else body
    let whole := body.takeWhile (· != '.')
    match body.dropWhile (· != '.') with
    | [] => !body.isEmpty && allDigits body
    | _ :: fraction => !fraction.isEmpty && allDigits whole && allDigits fraction
  | _ => false

/-- The role of a word before any separator. -/
def roleOf (g : Grammar) (word : String) : Except Halt Role :=
  if !begins "-" word then .ok .operand
  else
    match g.switch? word with
    | some s => .ok (.switch ⟨some s, word, none⟩)
    | none =>
      if word = "-" then .ok .operand
      else
        let (name, given) := splitEquals word
        match given, g.switch? name with
        | some value, some s => .ok (.switch ⟨some s, name, some value⟩)
        | _, _ =>
          match g.expansions word with
          | [f] => .ok (.switch f)
          | [] =>
            if looksNegative word || word.toList.contains ' ' then .ok .operand
            else .ok (.switch ⟨none, word, none⟩)
          | many =>
            .error (g.misuse ("ambiguous option: " ++ word ++ " could match " ++
              String.intercalate ", " (many.map (·.spelling))))

/-- The word behind which all are operands. -/
def separator : String := "--"

/-- The roles of the words. Behind a separator all are operands. -/
def rolesOf (g : Grammar) : List String → Except Halt (List (Role × String))
  | [] => .ok []
  | word :: rest =>
    if word = separator then .ok ((.separator, word) :: rest.map fun w => (.operand, w))
    else
      match g.roleOf word with
      | .error h => .error h
      | .ok role => (g.rolesOf rest).map ((role, word) :: ·)

/-! ## Switches -/

/-- A switch that takes no value and is given one: an error, unless it is spelled with one hyphen and
only such switches follow. -/
def gluedHalt (g : Grammar) (s : Switch) (halt : Halt) : List Char → Halt
  | [] => g.blame s ("ignored explicit argument " ++ Text.quote "")
  | c :: rest =>
    if (g.switch? (String.ofList ['-', c])).isNone then
      g.blame s ("ignored explicit argument " ++ Text.quote (String.ofList (c :: rest)))
    else if rest.isEmpty then halt
    else gluedHalt g s halt rest

def haltOf (g : Grammar) (s : Switch) (halt : Halt) (f : Found) : Halt :=
  match f.given with
  | none => halt
  | some value =>
    if begins "--" f.spelling then
      g.blame s ("ignored explicit argument " ++ Text.quote value)
    else g.gluedHalt s halt value.toList

/-- The value of a switch, checked, with the switch's name. -/
def valueOf (g : Grammar) (s : Switch) (check : String → Option String) (value : String) :
    Except Halt (String × Option String) :=
  match check value with
  | none => .ok (s.key, some value)
  | some complaint => .error (g.blame s complaint)

/-- A switch with the words that follow it: the value it takes, if it takes one, and the words that
are left. -/
def takeSwitch (g : Grammar) (s : Switch) (f : Found) (rest : List (Role × String)) :
    Except Halt ((String × Option String) × List (Role × String)) :=
  match s.effect with
  | .help => .error (g.haltOf s .help f)
  | .version => .error (g.haltOf s .version f)
  | .value check =>
    match f.given with
    | some value =>
      if value = separator then .ok ((s.key, none), rest)
      else (g.valueOf s check value).map (·, rest)
    | none =>
      match rest with
      | (.operand, value) :: rest => (g.valueOf s check value).map (·, rest)
      | _ => .error (g.blame s "expected one argument")

/-! ## Operands -/

def isSeparator : Role × String → Bool
  | (.separator, _) => true
  | _ => false

def isSwitch : Role × String → Bool
  | (.switch _, _) => true
  | _ => false

/-- How many of the words the operand takes; nothing if they do not begin with an operand that is
needed. -/
def operandWidth (form : OperandForm) (words : List (Role × String)) : Option Nat :=
  let lead := (words.takeWhile isSeparator).length
  match form, words.drop lead with
  | .rest, (.operand, _) :: _ => some words.length
  | .single, (.operand, _) :: after => some (lead + 1 + (after.takeWhile isSeparator).length)
  | .optional, (.operand, _) :: after => some (lead + 1 + (after.takeWhile isSeparator).length)
  | .optional, _ => some lead
  | _, _ => none

/-- The words of an operand. Of an operand that does not take all, the first separator is dropped. -/
def operandWords (form : OperandForm) (words : List String) : List String :=
  if form = .rest then words else words.erase separator

/-! ## Commands -/

/-- The state of parsing: what has been taken, and whether the operand has been. -/
structure Progress where
  parsed : Parsed
  operandTaken : Bool

/-- Takes the operand at the front of the words, if it is still to come. -/
def takeOperand (g : Grammar) (p : Progress) (words : List (Role × String)) :
    Progress × List (Role × String) :=
  if p.operandTaken then (p, words)
  else
    match operandWidth g.form words with
    | none => (p, words)
    | some width =>
      let taken := operandWords g.form ((words.take width).map (·.2))
      (⟨{ p.parsed with operand := some taken }, true⟩, words.drop width)

/-- Parses words with roles; the first argument bounds their number. -/
def parseRoles (g : Grammar) : (fuel : Nat) → Progress → List (Role × String) → Except Halt Progress
  | 0, p, _ => .ok p
  | fuel + 1, p, words =>
    if words.any isSwitch then
      match words with
      | (.switch f, word) :: rest =>
        match f.switch with
        | none =>
          let parsed := { p.parsed with extras := p.parsed.extras ++ [word] }
          g.parseRoles fuel { p with parsed := parsed } rest
        | some s =>
          match g.takeSwitch s f rest with
          | .error h => .error h
          | .ok (entry, rest) =>
            let parsed := { p.parsed with values := p.parsed.values ++ [entry] }
            g.parseRoles fuel { p with parsed := parsed } rest
      | _ =>
        let (p, left) := g.takeOperand p words
        if left.length < words.length then g.parseRoles fuel p left
        else
          let loose := words.takeWhile (!isSwitch ·)
          let parsed := { p.parsed with extras := p.parsed.extras ++ loose.map (·.2) }
          g.parseRoles fuel { p with parsed := parsed } (words.drop loose.length)
    else
      let (p, left) := g.takeOperand p words
      .ok { p with parsed := { p.parsed with extras := p.parsed.extras ++ left.map (·.2) } }

/-- Parses the words of a command. An operand that is needed must have been given. -/
def parse (g : Grammar) (words : List String) : Except Halt Parsed :=
  match g.rolesOf words with
  | .error h => .error h
  | .ok roles =>
    match g.parseRoles (roles.length + 1) ⟨⟨[], none, []⟩, false⟩ roles with
    | .error h => .error h
    | .ok p =>
      if p.operandTaken then .ok p.parsed
      else .error (g.misuse ("the following arguments are required: " ++ g.operand))

end Grammar

end SourceNavigator.Command
