import SourceNavigator.Markup.ScalarText
import SourceNavigator.Markup.Token
import SourceNavigator.Text.Numeral
import SourceNavigator.Text.Utf8

/-!
# Names, tags and directives

The small readers for what stands before a node or a document: the names of anchors and aliases,
tags with their handles and percent escapes, and the directives for the version and for handles.
-/

namespace SourceNavigator.Markup

/-- A name after the sign of an anchor or an alias. -/
def readAnchorName (c : Cursor) : Reading String :=
  let (name, c) := c.next.takeRun isNameChar
  let closes :=
    match c.peek with
    | none => true
    | some ch => endsToken (some ch) || "?:,]\x7d%@\x60".toList.contains ch
  if name.isEmpty || !closes then .error .malformed else .ok (String.ofList name, c)

/-! ## Tags -/

/-- The octets of percent escapes, as far as they go. -/
def readPercentOctets : (fuel : Nat) → Cursor → Reading (List UInt8)
  | 0, c => .ok ([], c)
  | fuel + 1, c =>
    if c.peek == some '%' then
      match readHex? 2 0 c.next.rest with
      | none => .error .malformed
      | some n =>
        (readPercentOctets fuel (Cursor.skip 3 c)).map fun (octets, c) => (UInt8.ofNat n :: octets, c)
    else .ok ([], c)

/-- A character of a tag that stands for itself. -/
def isTagChar (ch : Char) : Bool :=
  isNameChar ch || ";/?:@&=+$,_.!~*\x27()[]".toList.contains ch

/-- The characters of a tag with percent escapes decoded, as far as they go. -/
def readTagChars : (fuel : Nat) → Cursor → Reading (List Char)
  | 0, c => .ok ([], c)
  | fuel + 1, c =>
    let (run, c) := c.takeRun isTagChar
    if c.peek == some '%' then
      match readPercentOctets (c.rest.length + 1) c with
      | .error e => .error e
      | .ok (octets, c) =>
        match Text.Utf8.decodeStrict? octets with
        | .error _ => .error .malformed
        | .ok image => (readTagChars fuel c).map fun (text, c) => (run ++ image ++ text, c)
    else .ok (run, c)

/-- The characters of a tag; there must be some. -/
def readTagSuffix (c : Cursor) : Reading String :=
  match readTagChars (c.rest.length + 1) c with
  | .error e => .error e
  | .ok (text, after) =>
    if after.index == c.index then .error .malformed else .ok (String.ofList text, after)

/-- A handle: an exclamation mark alone, or a name between two of them. -/
def readTagHandle (c : Cursor) : Reading String :=
  if c.peek != some '!' then .error .malformed
  else
    let c := c.next
    if c.peek == some ' ' then .ok ("!", c)
    else
      let (name, c) := c.takeRun isNameChar
      if c.peek == some '!' then .ok (String.ofList ('!' :: name ++ ['!']), c.next)
      else .error .malformed

/-- Whether an exclamation mark stands in the rest of a word. -/
def hasHandle (rest : List Char) : Bool :=
  (rest.takeWhile fun ch => !endsWord (some ch)).contains '!'

/-- A tag without a check of what follows it. -/
def readTagParts (c : Cursor) : Reading TagName :=
  match c.peekSecond with
  | some '<' =>
    match readTagSuffix c.next.next with
    | .error e => .error e
    | .ok (suffix, c) =>
      if c.peek == some '>' then .ok (⟨none, suffix⟩, c.next) else .error .malformed
  | second =>
    if endsToken second then .ok (⟨none, "!"⟩, c.next)
    else if hasHandle c.next.rest then
      match readTagHandle c with
      | .error e => .error e
      | .ok (handle, c) => (readTagSuffix c).map fun (suffix, c) => (⟨some handle, suffix⟩, c)
    else (readTagSuffix c.next).map fun (suffix, c) => (⟨some "!", suffix⟩, c)

def readTag (c : Cursor) : Reading TagName :=
  match readTagParts c with
  | .error e => .error e
  | .ok (tag, c) => if endsWord c.peek then .ok (tag, c) else .error .malformed

/-! ## Directives -/

def readVersionNumber (c : Cursor) : Reading Nat :=
  let (digits, c) := c.takeRun Char.isDigit
  if digits.isEmpty then .error .malformed
  else if Text.maxDigits < digits.length then .error (.tooManyDigits digits.length)
  else .ok (digits.foldl (fun n d => 10 * n + (d.toNat - 48)) 0, c)

/-- The version that a document asks for. -/
def readVersion (c : Cursor) : Reading Directive :=
  match readVersionNumber c.skipSpaces with
  | .error e => .error e
  | .ok (major, c) =>
    if c.peek != some '.' then .error .malformed
    else
      match readVersionNumber c.next with
      | .error e => .error e
      | .ok (_, c) => if endsWord c.peek then .ok (.version major, c) else .error .malformed

/-- A handle and what it stands for. -/
def readHandle (c : Cursor) : Reading Directive :=
  match readTagHandle c.skipSpaces with
  | .error e => .error e
  | .ok (handle, c) =>
    if c.peek != some ' ' then .error .malformed
    else
      match readTagSuffix c.skipSpaces with
      | .error e => .error e
      | .ok (start, c) =>
        if endsWord c.peek then .ok (.tag handle start, c) else .error .malformed

/-- A directive with the rest of its line. -/
def readDirective (c : Cursor) : Reading Directive :=
  let (name, c) := c.next.takeRun isNameChar
  if name.isEmpty || !endsWord c.peek then .error .malformed
  else
    let content : Reading Directive :=
      if name = "YAML".toList then readVersion c
      else if name = "TAG".toList then readHandle c
      else .ok (.other, (c.takeRun (!isBreak ·)).2)
    match content with
    | .error e => .error e
    | .ok (d, c) => (readEmptyRest c).map fun c => (d, c)

end SourceNavigator.Markup
