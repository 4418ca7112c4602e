import TabHost.Text.Hex
import TabHost.Yaml.Token
import TabHost.Yaml.Cursor

/-!
# Anchors, tags and directives

Anchors and aliases are names. A tag is written with a handle, or in full inside of angle
brackets; octets in it may be written as a percent sign and two digits. A directive names
the version of YAML or declares a handle.
-/

namespace TabHost

namespace Yaml

/-! ## Anchors -/

/-- Whether something may stand right behind the name of an anchor. -/
def endsAnchor (rest : List Char) : Bool :=
  spaceNext rest || rest.head?.any ['?', ':', ',', ']', '}', '%', '@', '`'].contains

/-- The name of an anchor or an alias behind its marker. -/
def anchorName (c : Cursor) : Option (List Char × Cursor) :=
  let (name, behind) := c.span isNameChar
  if name.isEmpty || !endsAnchor behind.rest then none else some (name, behind)

/-! ## Tags -/

/-- Characters of a tag; inside of angle brackets there are more. -/
def isTagChar (bracketed : Bool) (c : Char) : Bool :=
  isNameChar c ||
    [';', '/', '?', ':', '@', '&', '=', '+', '$', '.', '%', '!', '~', '*', '\'', '(',
      ')'].contains c ||
    (bracketed && (c = ',' || c = '[' || c = ']'))

/-- The octet that is written as a percent sign and two hexadecimal digits. -/
def octet? : List Char → Option Nat
  | '%' :: a :: b :: _ => Text.natOfHex? [a, b]
  | _ => none

/-- How many octets write the character that begins with an octet. -/
def octetCount? (octet : Nat) : Option Nat :=
  if octet < 0x80 then some 1
  else if octet < 0xC0 then none
  else if octet < 0xE0 then some 2
  else if octet < 0xF0 then some 3
  else if octet < 0xF8 then some 4
  else none

/-- So many octets that go on with a character. -/
def furtherOctets : Nat → Cursor → Option (List Char × Cursor)
  | 0, c => some ([], c)
  | n + 1, c =>
    (octet? c.rest).bind fun octet =>
      if octet < 0x80 || 0xC0 ≤ octet then none
      else (furtherOctets n (c.drop 3)).map fun r => (Char.ofNat octet :: r.1, r.2)

/-- The octets of a character, each as the character with its number. -/
def octets (c : Cursor) : Option (List Char × Cursor) :=
  (octet? c.rest).bind fun octet =>
    (octetCount? octet).bind fun n =>
      (furtherOctets (n - 1) (c.drop 3)).map fun r => (Char.ofNat octet :: r.1, r.2)

/-- The characters of a tag within a number of steps, octets resolved. -/
def tagText (bracketed : Bool) : Nat → Cursor → Option (List Char × Cursor)
  | 0, _ => none
  | steps + 1, c =>
    match c.rest with
    | [] => some ([], c)
    | ch :: rest =>
      if ch = '%' then
        (octets c).bind fun (ch, c) => (tagText bracketed steps c).map fun r => (ch ++ r.1, r.2)
      else if isTagChar bracketed ch then
        (tagText bracketed steps (c.advance 1 rest)).map fun r => (ch :: r.1, r.2)
      else some ([], c)

/-- A tag is over at its first octet zero. -/
def beforeZero (text : List Char) : List Char := text.takeWhile (· ≠ '\x00')

/-- The characters of a tag, of which there is at least one. -/
def tagPart (bracketed : Bool) (steps : Nat) (c : Cursor) : Option (List Char × Cursor) :=
  (tagText bracketed steps c).bind fun r =>
    if r.1.isEmpty then none else some (beforeZero r.1, r.2)

/-- A tag from its exclamation mark on, whatever stands behind it. -/
def tagStart (steps : Nat) (c : Cursor) : Option (Tag × Cursor) :=
  match c.rest with
  | '!' :: '<' :: _ =>
    (tagPart true steps (c.drop 2)).bind fun (suffix, c) =>
      if c.rest.head? = some '>' then some (⟨[], suffix⟩, c.drop 1) else none
  | _ =>
    let (word, behind) := (c.drop 1).span isNameChar
    if behind.rest.head? = some '!' then
      (tagPart false steps (behind.drop 1)).map fun r => (⟨'!' :: word ++ ['!'], r.1⟩, r.2)
    else
      (tagText false steps behind).map fun r =>
        let suffix := beforeZero (word ++ r.1)
        (if suffix.isEmpty then ⟨[], ['!']⟩ else ⟨['!'], suffix⟩, r.2)

/-- A tag from its exclamation mark on, with a blank or a line end behind it, or a comma
inside of brackets. -/
def tag (inFlow : Bool) (steps : Nat) (c : Cursor) : Option (Tag × Cursor) :=
  (tagStart steps c).filter fun r =>
    spaceNext r.2.rest || (inFlow && r.2.rest.head? = some ',')

/-! ## Directives -/

/-- A number of a version. -/
def versionNumber (c : Cursor) : Option (Nat × Cursor) :=
  let (digits, behind) := c.span Char.isDigit
  if digits.isEmpty || 9 < digits.length then none
  else some (digits.foldl (fun n d => 10 * n + (d.toNat - '0'.toNat)) 0, behind)

/-- The version that a directive names. -/
def versionDirective (c : Cursor) : Option (Token × Cursor) :=
  (versionNumber c).bind fun (major, c) =>
    if c.rest.head? = some '.' then
      (versionNumber (c.drop 1)).map fun (minor, c) => (.version major minor, c)
    else none

/-- The handle that a directive declares, and what it stands for. -/
def tagDirective (steps : Nat) (c : Cursor) : Option (Token × Cursor) :=
  if c.rest.head? ≠ some '!' then none
  else
    let (word, behind) := (c.drop 1).span isNameChar
    let closed := behind.rest.head? = some '!'
    if !closed && !word.isEmpty then none
    else
      let handle := '!' :: word ++ (if closed then ['!'] else [])
      let behind := if closed then behind.drop 1 else behind
      if !behind.rest.head?.any isBlank then none
      else
        (tagPart true steps behind.skipBlanks).bind fun (start, c) =>
          if spaceNext c.rest then some (.tagHandle handle start, c) else none

/-- A directive from its percent sign on, to the end of its line. -/
def directive (steps : Nat) (c : Cursor) : Option (Token × Cursor) :=
  let (name, behind) := (c.drop 1).span isNameChar
  if !spaceNext behind.rest then none
  else
    let body :=
      if name = "YAML".toList then versionDirective behind.skipBlanks
      else if name = "TAG".toList then tagDirective steps behind.skipBlanks
      else none
    body.bind fun (token, c) => c.endLine?.map fun c => (token, c)

end Yaml

end TabHost
