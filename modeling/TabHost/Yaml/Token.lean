/-!
# Tokens of YAML

What a YAML text looks like once its columns have been told: block collections are opened
and closed by tokens of their own, and each key of a mapping is announced.
-/

namespace TabHost

namespace Yaml

/-- How a scalar is written. -/
inductive Style where
  | plain
  | quoted
  /-- A block that keeps its line ends. -/
  | literal
  /-- A block whose lines are joined. -/
  | folded
  deriving DecidableEq

/-- A tag as it is written: a handle, which a directive may have declared, and the rest.
A tag without a handle stands for itself. -/
structure Tag where
  handle : List Char
  suffix : List Char
  deriving DecidableEq

inductive Token where
  | version (major minor : Nat)
  /-- The declaration of a handle. -/
  | tagHandle (handle start : List Char)
  | documentStart
  | documentEnd
  | streamEnd
  | sequenceStart
  | mappingStart
  /-- The end of a sequence or mapping in block form. -/
  | blockEnd
  | flowSequenceStart
  | flowSequenceEnd
  | flowMappingStart
  | flowMappingEnd
  /-- The dash before an item. -/
  | entry
  /-- The comma behind an item or member in brackets. -/
  | flowEntry
  | key
  | value
  | alias (name : List Char)
  | anchor (name : List Char)
  | tag (t : Tag)
  | scalar (style : Style) (text : List Char)
  deriving DecidableEq

end Yaml

end TabHost
