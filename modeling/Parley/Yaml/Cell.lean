/-!
# The text of a YAML document

A text is read as a list of cells, which are characters that know where they stand. Line breaks have
one spelling here, so that a cell is either a break or part of a line.
-/

namespace Parley.Yaml

def isAllowed (c : Char) : Bool :=
  c == '\t' || c == '\n' || c == '\r' || c == '\u0085' || (' ' ≤ c && c ≤ '~') ||
    ('\u00a0' ≤ c && c ≠ '\ufffe' && c ≠ '\uffff')

def isBreak (c : Char) : Bool :=
  c == '\n' || c == '\r' || c == '\u0085' || c == '\u2028' || c == '\u2029'

/-- The breaks that only end a line are read as one and the same. -/
def plainBreak (c : Char) : Char := if c == '\r' || c == '\u0085' then '\n' else c

/-- Whether a character separates words of a line. -/
def isBlank (c : Char) : Bool := c == ' ' || c == '\t'

/-- Whether a character can stand in the name of an anchor, a handle or a directive. -/
def isNameChar (c : Char) : Bool := c.isAlphanum || c == '_' || c == '-'

/-- A character and where it stands: how many characters precede it in the text and in its line, and
how many lines precede it. -/
structure Cell where
  char : Char
  index : Nat
  line : Nat
  column : Nat
deriving DecidableEq, Repr

namespace Cell

/-- The cells of a text that begins at the given place. A pair of break characters is one cell. -/
def ofCharsAt (index line column : Nat) : List Char → List Cell
  | [] => []
  | '\r' :: '\n' :: rest => ⟨'\n', index, line, column⟩ :: ofCharsAt (index + 2) (line + 1) 0 rest
  | c :: rest =>
    if isBreak c then
      ⟨plainBreak c, index, line, column⟩ :: ofCharsAt (index + 1) (line + 1) 0 rest
    else ⟨c, index, line, column⟩ :: ofCharsAt (index + 1) line (column + 1) rest

/-- The cells of a text. A text with a character that no document may hold has none. -/
def ofString? (s : String) : Option (List Cell) :=
  let cs := s.toList
  if cs.all isAllowed then some (ofCharsAt 0 0 0 cs) else none

end Cell

/-- Whether a text is at its end or at a character with a property. -/
def atEndOr (p : Char → Bool) : List Cell → Bool
  | [] => true
  | c :: _ => p c.char

/-- Whether a text is at a character with a property. -/
def isAt (p : Char → Bool) : List Cell → Bool
  | [] => false
  | c :: _ => p c.char

/-- Whether a text is at a blank, at a break or at its end. -/
def atGap : List Cell → Bool := atEndOr fun c => isBlank c || isBreak c

/-- Whether a text is at a break or at its end. -/
def atLineEnd : List Cell → Bool := atEndOr isBreak

/-- Whether a text is at a line that starts or ends a document: three dashes or three dots and
nothing else at once. -/
def atDocumentEdge : List Cell → Bool
  | a :: b :: c :: rest =>
    a.column == 0 && a.char == b.char && b.char == c.char && (a.char == '-' || a.char == '.') &&
      atGap rest
  | _ => false

def skipBlanks (cells : List Cell) : List Cell := cells.dropWhile fun c => isBlank c.char

/-- Takes a comment off the front, if there is one. -/
def skipComment (cells : List Cell) : List Cell :=
  if isAt (· == '#') cells then cells.dropWhile fun c => !isBreak c.char else cells

/-- Takes characters with a property off the front, and gives them. -/
def takeChars (p : Char → Bool) (cells : List Cell) : List Char × List Cell :=
  ((cells.takeWhile fun c => p c.char).map Cell.char, cells.dropWhile fun c => p c.char)

end Parley.Yaml
