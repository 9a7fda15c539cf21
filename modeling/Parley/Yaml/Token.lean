import Parley.Wire.Bytes
import Parley.Yaml.Scalar

/-!
# Tokens

The marks of a YAML text: its scalars, the signs between them, and the starts and ends of lists and
mappings that are told by indentation alone. This module holds the tokens and the readers of those
that are written as words: names, tags and directives.
-/

namespace Parley.Yaml

/-- The name of an anchor or of a handle. -/
abbrev Name := List Char

/-- A tag as it is written: a handle, which stands for the first part of it, and the rest. A tag
written in full has an empty handle. -/
structure Shorthand where
  handle : Name
  ending : Bytes
deriving DecidableEq, Repr

/-- A token. -/
inductive Token
  | version (major minor : Nat)
  | handle (name : Name) (meaning : Bytes)
  | documentStart
  | documentEnd
  | listBlock
  | mapBlock
  | blockEnd
  | openList
  | closeList
  | openMap
  | closeMap
  | comma
  | item
  | key
  | value
  | alias (name : Name)
  | anchor (name : Name)
  | tag (t : Shorthand)
  | scalar (s : Scalar)
deriving DecidableEq, Repr

/-! ## Names -/

/-- Whether a character can follow the name of an anchor. -/
def endsAnchor (c : Char) : Bool :=
  isBlank c || isBreak c || "?:,]\x7d%@\x60".toList.contains c

/-- Takes the name of an anchor off the front. -/
def takeAnchor (cells : List Cell) : Option (Name × List Cell) :=
  let (name, rest) := takeChars isNameChar cells
  if !name.isEmpty && atEndOr endsAnchor rest then some (name, rest) else none

/-- Takes a handle off the front: an exclamation mark, or a name between two of them. What only
starts like a handle is given too. -/
def takeHandle (cells : List Cell) : Option (Name × List Cell) :=
  if isAt (· == '!') cells then
    let (name, rest) := takeChars isNameChar (cells.drop 1)
    if isAt (· == '!') rest then some ('!' :: name ++ ['!'], rest.drop 1)
    else some ('!' :: name, rest)
  else none

/-- Whether a handle is a name between exclamation marks. -/
def isClosed (handle : Name) : Bool := 2 ≤ handle.length && handle.getLast? == some '!'

/-! ## Tags -/

/-- Whether a character can stand in a tag. In angles some more can. -/
def isTagChar (inAngles : Bool) (c : Char) : Bool :=
  isNameChar c || ";/?:@&=+$.!~*\x27()".toList.contains c || (inAngles && ",[]".toList.contains c)

/-- How many octets follow the first octet of a character. -/
def octetsOwed (b : UInt8) : Option Nat :=
  if b < 0x80 then some 0
  else if b &&& 0xe0 == 0xc0 then some 1
  else if b &&& 0xf0 == 0xe0 then some 2
  else if b &&& 0xf8 == 0xf0 then some 3
  else none

/-- Takes the characters of a tag off the front as octets. A percent sign and two digits spell one
octet; a character that starts that way is spelt that way to its end. -/
def takeTagChars (inAngles : Bool) : (owed : Nat) → List Cell → Option (Bytes × List Cell)
  | 0, [] => some ([], [])
  | _ + 1, [] => none
  | owed, p :: rest =>
    if p.char == '%' then
      match rest with
      | a :: b :: rest => do
        let octet := UInt8.ofNat (← Text.ofDigits? 16 [a.char, b.char])
        let owed ←
          match owed with
          | 0 => octetsOwed octet
          | owed + 1 => if octet &&& 0xc0 == 0x80 then some owed else none
        (takeTagChars inAngles owed rest).map fun (bs, rest) => (octet :: bs, rest)
      | _ => none
    else if owed ≠ 0 then none
    else if isTagChar inAngles p.char then
      (takeTagChars inAngles 0 rest).map fun (bs, rest) => (UInt8.ofNat p.char.toNat :: bs, rest)
    else some ([], p :: rest)

/-- Takes the characters of a tag off the front, of which there has to be one. -/
def takeTagText (inAngles : Bool) (cells : List Cell) : Option (Bytes × List Cell) :=
  match takeTagChars inAngles 0 cells with
  | some (b :: bs, rest) => some (b :: bs, rest)
  | _ => none

def Name.octets (name : Name) : Bytes := name.map fun c => UInt8.ofNat c.toNat

/-- Takes a tag without its end off the front. -/
def takeShorthand (cells : List Cell) : Option (Shorthand × List Cell) :=
  if isAt (· == '<') (cells.drop 1) then do
    let (ending, rest) ← takeTagText true (cells.drop 2)
    if isAt (· == '>') rest then return (⟨[], ending⟩, rest.drop 1) else none
  else do
    let (handle, rest) ← takeHandle cells
    if isClosed handle then
      let (ending, rest) ← takeTagText false rest
      return (⟨handle, ending⟩, rest)
    else
      let (ending, rest) ← takeTagChars false 0 rest
      let ending := Name.octets (handle.drop 1) ++ ending
      if ending.isEmpty then return (⟨[], Name.octets handle⟩, rest)
      else return (⟨['!'], ending⟩, rest)

def takeTag (inBrackets : Bool) (cells : List Cell) : Option (Shorthand × List Cell) := do
  let (tag, rest) ← takeShorthand cells
  if atGap rest || (inBrackets && isAt (· == ',') rest) then return (tag, rest) else none

/-! ## Directives -/

/-- Takes a number of at most nine digits off the front. -/
def takeNumber (cells : List Cell) : Option (Nat × List Cell) :=
  let (digits, rest) := takeChars Char.isDigit cells
  if digits.length ≤ 9 then (Text.ofDigits? 10 digits).map fun n => (n, rest) else none

/-- Takes the version that a directive states off the front. -/
def takeVersion (cells : List Cell) : Option (Token × List Cell) := do
  let (major, rest) ← takeNumber (skipBlanks cells)
  if isAt (· == '.') rest then
    let (minor, rest) ← takeNumber (rest.drop 1)
    return (.version major minor, rest)
  else none

/-- Takes the handle that a directive declares and its meaning off the front. -/
def takeDeclaration (cells : List Cell) : Option (Token × List Cell) := do
  let (name, rest) ← takeHandle (skipBlanks cells)
  if (name == ['!'] || isClosed name) && isAt isBlank rest then
    let (meaning, rest) ← takeTagText true (skipBlanks rest)
    if atGap rest then return (.handle name meaning, rest) else none
  else none

/-- Takes a directive off the front, behind its percent sign, with the rest of its line. -/
def takeDirective (cells : List Cell) : Option (Token × List Cell) := do
  let (name, rest) := takeChars isNameChar cells
  if atGap rest then
    let (token, rest) ←
      if name == "YAML".toList then takeVersion rest
      else if name == "TAG".toList then takeDeclaration rest
      else none
    let rest := skipComment (skipBlanks rest)
    if atLineEnd rest then return (token, rest.drop 1) else none
  else none

end Parley.Yaml
