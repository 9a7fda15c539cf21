import Parley.Text.Digits
import Parley.Yaml.Cell

/-!
# Scalars

The four ways to write a text in a YAML document: plain, in quotes, and indented below a bar or an
angle, line for line or folded. Each reader takes a scalar off the front of the text, or refuses.
-/

namespace Parley.Yaml

/-- How a scalar is written. -/
inductive Style
  | plain
  | quoted
  | literal
  | folded
deriving DecidableEq, Repr

/-- A text and how it is written. -/
structure Scalar where
  style : Style
  text : List Char
deriving DecidableEq, Repr

/-- Whether a scalar stands for a list or mapping with nothing in it. -/
def Scalar.isVoid (s : Scalar) : Bool := s.style == .plain && s.text.isEmpty

/-! ## Between words -/

/-- Whether a cell stands between words. -/
def isGap (c : Cell) : Bool := isBlank c.char || isBreak c.char

/-- The breaks among cells. -/
def breaksOf (cells : List Cell) : List Char := (cells.map Cell.char).filter isBreak

/-- What the cells between two words stand for: blanks on one line for themselves, and one break for
a space. Of several breaks the first one is dropped. Breaks of other kinds stand for themselves. -/
def gapText (gap : List Cell) : List Char :=
  match breaksOf gap with
  | [] => gap.map Cell.char
  | ['\n'] => [' ']
  | '\n' :: more => more
  | breaks => breaks

/-! ## Plain scalars -/

/-- Whether a character ends a plain scalar in brackets. -/
def isBracketOrComma (c : Char) : Bool :=
  c == ',' || c == '[' || c == ']' || c == '{' || c == '}'

/-- Takes a word of a plain scalar off the front. In brackets a colon must not be followed by what
could end the scalar. -/
def takeWord (inBrackets : Bool) : List Cell → Option (List Char × List Cell)
  | [] => some ([], [])
  | c :: rest =>
    if isGap c then some ([], c :: rest)
    else if inBrackets && c.char == ':' && isAt (fun d => d == '?' || isBracketOrComma d) rest then
      none
    else if (c.char == ':' && atGap rest) || (inBrackets && isBracketOrComma c.char) then
      some ([], c :: rest)
    else (takeWord inBrackets rest).map fun (word, rest) => (c.char :: word, rest)

/-- Whether a tab stands where a line has to be indented. -/
def hasTabInMargin (margin : Nat) (gap : List Cell) : Bool :=
  (gap.dropWhile fun c => !isBreak c.char).any fun c => c.char == '\t' && c.column < margin

/-- Takes what is left of a plain scalar off the front, given the cells behind its last word.
Outside brackets its lines start at the margin or behind it. Gives also the cells that follow its
last word. -/
def takePlainWithin (inBrackets : Bool) (margin : Nat) :
    Nat → List Cell → List Cell → Option (List Char × List Cell × List Cell)
  | 0, _, _ => none
  | fuel + 1, gap, cells =>
    if atDocumentEdge cells || isAt (· == '#') cells then some ([], gap, cells)
    else do
      let (word, rest) ← takeWord inBrackets cells
      if word.isEmpty then return ([], gap, rest)
      let next := rest.takeWhile isGap
      let rest := rest.dropWhile isGap
      if hasTabInMargin margin next then none
      else if !inBrackets && (rest.head?.any (·.column < margin)) then
        return (gapText gap ++ word, next, rest)
      else
        let (more, last, rest) ← takePlainWithin inBrackets margin fuel next rest
        return (gapText gap ++ word ++ more, last, rest)

/-- Takes a plain scalar off the front. Tells whether a line ended behind it. -/
def takePlain (inBrackets : Bool) (margin : Nat) (cells : List Cell) :
    Option (Scalar × Bool × List Cell) := do
  let (text, last, rest) ← takePlainWithin inBrackets margin (cells.length + 1) [] cells
  return (⟨.plain, text⟩, !(breaksOf last).isEmpty, rest)

/-! ## Scalars in quotes -/

/-- What a backslash and a character stand for. -/
def escape? : Char → Option Char
  | '0' => some '\x00'
  | 'a' => some '\x07'
  | 'b' => some '\x08'
  | 't' | '\t' => some '\t'
  | 'n' => some '\n'
  | 'v' => some '\x0b'
  | 'f' => some '\x0c'
  | 'r' => some '\r'
  | 'e' => some '\x1b'
  | ' ' => some ' '
  | '"' => some '"'
  | '/' => some '/'
  | '\\' => some '\\'
  | 'N' => some '\u0085'
  | '_' => some '\u00a0'
  | 'L' => some '\u2028'
  | 'P' => some '\u2029'
  | _ => none

/-- How many digits follow a backslash and a character. -/
def escapeWidth? : Char → Option Nat
  | 'x' => some 2
  | 'u' => some 4
  | 'U' => some 8
  | _ => none

/-- The character with a number, if it has one. -/
def charOfNat? (n : Nat) : Option Char := if n.isValidChar then some (Char.ofNat n) else none

/-- Takes what follows a backslash off the front. -/
def takeEscape : List Cell → Option (Char × List Cell)
  | [] => none
  | c :: rest =>
    match escapeWidth? c.char with
    | none => (escape? c.char).map fun e => (e, rest)
    | some width => do
      let digits := (rest.take width).map Cell.char
      if digits.length < width then none
      else return (← charOfNat? (← Text.ofDigits? 16 digits), rest.drop width)

/-- Takes what is left of a scalar in quotes off the front. In single quotes a quote is written
twice, in double ones a backslash gives a character another meaning and joins two lines. -/
def takeQuotedWithin (quote : Char) : Nat → List Cell → Option (List Char × List Cell)
  | 0, _ => none
  | _, [] => none
  | fuel + 1, c :: rest =>
    let add (text : List Char) (rest : List Cell) :=
      (takeQuotedWithin quote fuel rest).map fun (more, rest) => (text ++ more, rest)
    if atDocumentEdge (c :: rest) then none
    else if isGap c then
      add (gapText ((c :: rest).takeWhile isGap)) (rest.dropWhile isGap)
    else if c.char == quote then
      if quote == '\'' && isAt (· == quote) rest then add [quote] (rest.drop 1)
      else some ([], rest)
    else if c.char == '\\' && quote == '"' then
      if isAt isBreak rest then
        add (breaksOf ((rest.drop 1).takeWhile isGap)) (rest.dropWhile isGap)
      else do
        let (e, rest) ← takeEscape rest
        add [e] rest
    else add [c.char] rest

/-- Takes a scalar in quotes off the front, behind its opening quote. -/
def takeQuoted (quote : Char) (cells : List Cell) : Option (Scalar × List Cell) :=
  (takeQuotedWithin quote (cells.length + 1) cells).map fun (text, rest) => (⟨.quoted, text⟩, rest)

/-! ## Indented scalars -/

/-- What happens to the breaks behind an indented scalar. -/
inductive Chomping
  | clip
  | strip
  | keep
deriving DecidableEq, Repr

/-- The chomping that a sign asks for. -/
def chomping? : Char → Option Chomping
  | '+' => some .keep
  | '-' => some .strip
  | _ => none

/-- How far a text is indented behind what surrounds it, as one digit states it. -/
def indentation? (c : Char) : Option Nat := if c == '0' then none else Text.digit? 10 c

/-- Takes a sign and a digit, both or one or none, off the front. -/
def takeHeader : List Cell → Option (Chomping × Option Nat × List Cell)
  | [] => some (.clip, none, [])
  | c :: rest =>
    match chomping? c.char with
    | some chomping =>
      if isAt Char.isDigit rest then
        (rest.head?.bind (indentation? ·.char)).map fun n => (chomping, some n, rest.drop 1)
      else some (chomping, none, rest)
    | none =>
      if c.char.isDigit then
        (indentation? c.char).map fun n =>
          match rest.head?.bind (chomping? ·.char) with
          | some chomping => (chomping, some n, rest.drop 1)
          | none => (.clip, some n, rest)
      else some (.clip, none, c :: rest)

/-- Takes what precedes the next line of content off the front: breaks, and as many spaces as the
text is indented, or all there are if that is not known yet. Gives the breaks and the greatest
column that a line reached. -/
def takeMargin (indent? : Option Nat) (deepest : Nat) :
    List Cell → Option (List Char × Nat × List Cell)
  | [] => some ([], deepest, [])
  | c :: rest =>
    let inMargin := indent?.all (c.column < ·)
    if inMargin && c.char == ' ' then takeMargin indent? deepest rest
    else if inMargin && c.char == '\t' then none
    else
      let deepest := max deepest c.column
      if isBreak c.char then
        (takeMargin indent? deepest rest).map fun (breaks, rest) => (c.char :: breaks, rest)
      else some ([], deepest, c :: rest)

/-- What the break behind a line and the empty lines behind it stand for. Folding spares the breaks
around a line that starts with a blank. -/
def foldText (style : Style) (spaced : Bool) (first : Option Char) (more : List Char) : List Char :=
  if style == .folded && first == some '\n' && !spaced then
    if more.isEmpty then [' '] else more
  else first.toList ++ more

/-- Takes the lines of an indented scalar off the front, given the break and the empty lines before
the next line and whether the line before it starts with a blank. -/
def takeLinesWithin (style : Style) (chomping : Chomping) (indent : Nat) :
    Nat → (spaced : Bool) → Option Char → List Char → List Cell → Option (List Char × List Cell)
  | 0, _, _, _, _ => none
  | fuel + 1, spaced, first, more, cells =>
    if cells.head?.any (·.column == indent) then do
      let startsBlank := isAt isBlank cells
      let (line, rest) := takeChars (fun c => !isBreak c) cells
      let (next, _, after) ← takeMargin (some indent) 0 (rest.drop 1)
      let (text, rest) ←
        takeLinesWithin style chomping indent fuel startsBlank (rest.head?.map (·.char)) next after
      return (foldText style (spaced || startsBlank) first more ++ line ++ text, rest)
    else
      match chomping with
      | .strip => some ([], cells)
      | .clip => some (first.toList, cells)
      | .keep => some (first.toList ++ more, cells)

/-- Takes an indented scalar off the front, behind its bar or angle. The margin is that of what
surrounds the scalar. -/
def takeIndented (style : Style) (margin : Nat) (cells : List Cell) :
    Option (Scalar × List Cell) := do
  let (chomping, indentation, rest) ← takeHeader cells
  let rest := skipComment (skipBlanks rest)
  if atLineEnd rest then
    let stated := indentation.map (margin - 1 + ·)
    let (breaks, deepest, rest) ← takeMargin stated 0 (rest.drop 1)
    let indent := stated.getD (max deepest (max margin 1))
    let (text, rest) ←
      takeLinesWithin style chomping indent (rest.length + 1) false none breaks rest
    return (⟨style, text⟩, rest)
  else none

end Parley.Yaml
