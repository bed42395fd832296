import SourceNavigator.Markup.Defect

/-!
# Tokens of markup

The words that a document is made of. Where a line is indented further than the one before, a block
starts; the end of a block is a token of its own. A document whose tokens cannot be read to the end
has a last token that tells what stopped the reading.
-/

namespace SourceNavigator.Markup

/-- A tag as written: a handle, if there is one, and a suffix. -/
structure TagName where
  handle : Option String
  suffix : String
  deriving DecidableEq, Repr

inductive Directive where
  | version (major : Nat)
  | tag (handle tagStart : String)
  | other
  deriving DecidableEq, Repr

inductive Token where
  | streamEnd
  | directive (d : Directive)
  | documentStart
  | documentEnd
  | blockListStart
  | blockMapStart
  | blockEnd
  | flowListStart
  | flowListEnd
  | flowMapStart
  | flowMapEnd
  | blockEntry
  | flowEntry
  | key
  | value
  | alias (name : String)
  | anchor (name : String)
  | tag (name : TagName)
  | scalar (text : Text.Points) (plain : Bool)
  | broken (defect : Defect)
  deriving DecidableEq, Repr

end SourceNavigator.Markup
