import SourceNavigator.Failure
import SourceNavigator.Json.Reader
import SourceNavigator.Text.Base64

/-!
# Engine records

One line of the engine's output is a JSON object with a `type` and `data`. `Record.parse` reads
lines that report a match or a line of context; all others are noted by their type alone. Text in a
record is given as it is or, where it is not well formed, as octets in base 64. A line that is no
record fails with the reason.
-/

namespace SourceNavigator.Search

open Data (Rule Validated Datum Problem)

/-! ## Kinds of records and their faults -/

/-- A line of engine output. A match is `misnamed` if its path holds halves of pairs; the path and the
text of a line of context may hold them too. -/
inductive Record where
  | found (path : String) (line column : Int) (text : String)
  | misnamed (path : Text.Points) (line column : Int) (text : String)
  | context (path : Text.Points) (line : Int) (text : Text.Points)
  | other (kind : String)
  deriving DecidableEq, Repr

/-- Why a record has not the parts that it must have. -/
inductive Misfit where
  | noMembers (kind : String)
  | noItems (kind : String)
  | noContents (kind : String)
  | missingMember (key : Datum)
  | textMember
  | listMember
  | notOctets (kind : String)
  | badBase64 (defect : Text.Base64.Defect)
  deriving Repr

def Misfit.message : Misfit → String
  | .noMembers kind => "'" ++ kind ++ "' object has no attribute 'get'"
  | .noItems kind => "'" ++ kind ++ "' object is not subscriptable"
  | .noContents kind => "argument of type '" ++ kind ++ "' is not iterable"
  | .missingMember key => key.display
  | .textMember => "string indices must be integers, not 'str'"
  | .listMember => "list indices must be integers or slices, not str"
  | .notOctets kind => "argument should be a bytes-like object or ASCII string, not '" ++ kind ++ "'"
  | .badBase64 defect => defect.message

/-! ## Parts of a record -/

/-- The member of an object, if it has one of that name. -/
def member? (d : Datum) (name : String) : Except Misfit (Option Datum) :=
  match d with
  | .map entries => .ok (Datum.lookup name entries)
  | _ => .error (.noMembers d.kindName)

/-- The value of an entry, or an empty object if it is absent or counts as nothing. -/
def entryOrNothing (entries : List (Datum × Datum)) (name : String) : Datum :=
  match Datum.lookup name entries with
  | some v => if v.isTruthy then v else .map []
  | none => .map []

/-- The first item of a list of submatches. -/
def firstItem (d : Datum) : Except Misfit Datum :=
  match d with
  | .list (item :: _) => .ok item
  | .map _ => .error (.missingMember (.int 0))
  | .text s => .ok (.text (String.ofList (s.toList.take 1)))
  | .illFormed points => .ok (Datum.ofPoints (points.take 1))
  | _ => .error (.noItems d.kindName)

/-- The offset of the first submatch; zero if there is none or it has no offset. -/
def columnOf (data : Datum) : Except Misfit Datum :=
  match member? data "submatches" with
  | .error e => .error e
  | .ok none => .ok (.int 0)
  | .ok (some submatches) =>
    if submatches.isTruthy then
      match firstItem submatches with
      | .error e => .error e
      | .ok item => (member? item "start").map (·.getD (.int 0))
    else .ok (.int 0)

def lineOf (data : Datum) : Except Misfit Datum :=
  match data with
  | .map entries =>
    match Datum.lookup "line_number" entries with
    | some d => .ok d
    | none => .error (.missingMember (.text "line_number"))
  | _ => .error (.noMembers data.kindName)

def occursIn (word : List Char) : List Char → Bool
  | [] => word.isEmpty
  | c :: cs => word.isPrefixOf (c :: cs) || occursIn word cs

def decodeOctets (d : Datum) : Except Misfit Datum :=
  match d with
  | .text s =>
    match Text.Base64.decode? s.toList with
    | .ok octets => .ok (.text (String.ofList (Text.Utf8.decode octets)))
    | .error defect => .error (.badBase64 defect)
  | .illFormed _ => .error (.badBase64 .notAscii)
  | _ => .error (.notOctets d.kindName)

/-- Whether a text names one of the two ways to give a text. -/
def namesWay (cs : List Char) : Bool := occursIn "text".toList cs || occursIn "bytes".toList cs

def holdsText (word : String) (items : List Datum) : Bool :=
  items.any fun item =>
    match item with
    | .text s => s == word
    | _ => false

/-- The text that an object gives as `text` or, in base 64, as `bytes`. What counts as nothing is
the empty text. -/
def textOf (d : Datum) : Except Misfit Datum :=
  if !d.isTruthy then .ok (.text "")
  else
    match d with
    | .map entries =>
      match Datum.lookup "text" entries with
      | some t => .ok t
      | none =>
        match Datum.lookup "bytes" entries with
        | some b => decodeOctets b
        | none => .ok (.text "")
    | .text s => if namesWay s.toList then .error .textMember else .ok (.text "")
    | .illFormed points => if namesWay points.shown then .error .textMember else .ok (.text "")
    | .list items =>
      if holdsText "text" items || holdsText "bytes" items then .error .listMember
      else .ok (.text "")
    | _ => .error (.noContents d.kindName)

/-- The text of the member of a record. -/
def memberText (data : Datum) (name : String) : Except Misfit Datum :=
  match member? data name with
  | .error e => .error e
  | .ok none => .ok (.text "")
  | .ok (some d) => textOf d

/-! ## Records -/

/-- Why a line is no record. -/
inductive LineFault where
  | notJson (message : String)
  | tooManyDigits (count : Nat)
  | tooDeep (form : String)
  | notObject (kind : String)
  | malformed (kind : String) (why : Misfit)
  | badFields (kind : String) (problems : List Problem)
  deriving Repr

def matchKind : String := "match"

def contextKind : String := "context"

/-- The data of a record as fields to be checked. -/
def matchParts (data : Datum) : Except Misfit (Datum × Datum × Datum × Datum) := do
  let column ← columnOf data
  let path ← memberText data "path"
  let line ← lineOf data
  let text ← memberText data "lines"
  return (path, line, column, text)

/-- The data of a context record as fields to be checked. -/
def contextParts (data : Datum) : Except Misfit (Datum × Datum × Datum) := do
  let path ← memberText data "path"
  let line ← lineOf data
  let text ← memberText data "lines"
  return (path, line, text)

def checked {α : Type} (name : String) (r : Rule α) (d : Datum) : Validated α :=
  (r d).under (.field name)

/-- The path of a match as the start of a record. -/
def matchPath : Rule (Int → Int → String → Record)
  | .illFormed points => .valid (Record.misnamed points)
  | d => (Rule.text d).map Record.found

def matchRecord (path line column text : Datum) : Validated Record :=
  checked "path" matchPath path
    <*> checked "line_number" (Rule.integerFrom 1) line
    <*> checked "column" (Rule.integerFrom 0) column
    <*> checked "text" Rule.text text

def contextRecord (path line text : Datum) : Validated Record :=
  Record.context
    <$> checked "path" Rule.points path
    <*> checked "line_number" (Rule.integerFrom 1) line
    <*> checked "text" Rule.points text

/-- The record, or the problems with its fields. -/
def settle (kind : String) : Validated Record → Except LineFault Record
  | .valid r => .ok r
  | .invalid problems => .error (.badFields kind problems)

/-- The record that an object stands for. -/
def Record.ofEntries (entries : List (Datum × Datum)) : Except LineFault Record :=
  let kind := (Datum.lookup "type" entries).getD (.text "")
  let data := entryOrNothing entries "data"
  match kind with
  | .text name =>
    if name = matchKind then
      match matchParts data with
      | .error why => .error (.malformed name why)
      | .ok (path, line, column, text) => settle name (matchRecord path line column text)
    else if name = contextKind then
      match contextParts data with
      | .error why => .error (.malformed name why)
      | .ok (path, line, text) => settle name (contextRecord path line text)
    else .ok (.other name)
  | d => .ok (.other d.shown)

/-- The record that a line stands for. -/
def Record.parse (line : List Char) : Except LineFault Record :=
  match Json.parse line with
  | .error (.fault reason rest) => .error (.notJson (Json.faultMessage line reason rest))
  | .error (.tooManyDigits count) => .error (.tooManyDigits count)
  | .error (.tooDeep form) => .error (.tooDeep form.name)
  | .ok (.map entries) => Record.ofEntries entries
  | .ok d => .error (.notObject d.kindName)

/-- The failure of a line with its number. -/
def LineFault.toFailure (number : Int) : LineFault → Failure
  | .notJson message => .badOutput number message
  | .tooManyDigits count => .tooManyDigits count
  | .tooDeep form => .tooDeep (" while decoding a JSON " ++ form ++ " from a unicode string")
  | .notObject kind => .badOutput number ("expected a JSON object, got " ++ kind)
  | .malformed kind why => .badOutput number ("malformed " ++ kind ++ " record: " ++ why.message)
  | .badFields kind problems => .badRecord number kind problems

end SourceNavigator.Search
