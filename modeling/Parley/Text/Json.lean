import Parley.Text.Digits

/-!
# Reading JSON

The parts of a JSON text that a document with a fixed shape is read with. Each function takes its
part off the front of the text and gives the rest, or refuses. `skipValue` takes any value off the
front without looking at what it means.
-/

namespace Parley.Json

/-- The blanks of JSON. -/
def isBlank (c : Char) : Bool := c == ' ' || c == '\n' || c == '\t' || c == '\r'

def skipBlanks (cs : List Char) : List Char := cs.dropWhile isBlank

/-- The value of four hexadecimal digits. -/
def hex4? (a b c d : Char) : Option Nat := Text.ofDigits? 16 [a, b, c, d]

/-- What a backslash and a letter stand for. -/
def escape? : Char → Option Char
  | '"' => some '"'
  | '\\' => some '\\'
  | '/' => some '/'
  | 'b' => some '\x08'
  | 'f' => some '\x0c'
  | 'n' => some '\n'
  | 'r' => some '\r'
  | 't' => some '\t'
  | _ => none

/-- The first half of a pair that stands for one character. -/
def isLeading (u : Nat) : Bool := 0xD800 ≤ u && u < 0xDC00

/-- The second half of a pair that stands for one character. -/
def isTrailing (u : Nat) : Bool := 0xDC00 ≤ u && u < 0xE000

/-- What a string is spelt of. -/
inductive Piece
  | char (c : Char)
  | unit (u : Nat)
deriving DecidableEq, Repr

/-- Reads the pieces of a string behind its opening quote, up to its closing quote. -/
def readPieces : List Char → Option (List Piece × List Char)
  | [] => none
  | '"' :: rest => some ([], rest)
  | '\\' :: 'u' :: a :: b :: c :: d :: rest =>
    match hex4? a b c d with
    | some u => (readPieces rest).map fun (ps, r) => (.unit u :: ps, r)
    | none => none
  | '\\' :: e :: rest =>
    match escape? e with
    | some c => (readPieces rest).map fun (ps, r) => (.char c :: ps, r)
    | none => none
  | c :: rest =>
    if c.toNat < 0x20 then none
    else (readPieces rest).map fun (ps, r) => (.char c :: ps, r)

/-- The text of pieces, in which every half has to meet its other half. -/
def join : List Piece → Option (List Char)
  | [] => some []
  | .char c :: ps => (join ps).map (c :: ·)
  | .unit u :: .unit v :: ps =>
    if isLeading u then
      if isTrailing v then
        (join ps).map (Char.ofNat (0x10000 + (u - 0xD800) * 1024 + (v - 0xDC00)) :: ·)
      else none
    else if isTrailing u then none
    else (join (.unit v :: ps)).map (Char.ofNat u :: ·)
  | .unit u :: ps =>
    if isLeading u || isTrailing u then none else (join ps).map (Char.ofNat u :: ·)

/-- Reads a string behind its opening quote, up to its closing quote. -/
def readString (cs : List Char) : Option (List Char × List Char) := do
  let (pieces, rest) ← readPieces cs
  return (← join pieces, rest)

/-- Takes a string off the front, behind its opening quote. Halves need not meet. -/
def skipString (cs : List Char) : Option (List Char) := (readPieces cs).map (·.2)

def skipDigits (cs : List Char) : Option (List Char) :=
  match cs with
  | c :: _ => if c.isDigit then some (cs.dropWhile Char.isDigit) else none
  | [] => none

/-- Takes a whole part off the front: a zero, or digits that do not start with one. -/
def skipWhole : List Char → Option (List Char)
  | '0' :: c :: rest => if c.isDigit then none else some (c :: rest)
  | cs => skipDigits cs

/-- Takes an exponent off the front, if there is one. -/
def skipExponent : List Char → Option (List Char)
  | 'e' :: '+' :: rest | 'e' :: '-' :: rest | 'E' :: '+' :: rest | 'E' :: '-' :: rest =>
    skipDigits rest
  | 'e' :: rest | 'E' :: rest => skipDigits rest
  | cs => some cs

/-- Takes a number without its sign off the front. -/
def skipNumber (cs : List Char) : Option (List Char) := do
  match ← skipWhole cs with
  | '.' :: rest => skipExponent (← skipDigits rest)
  | rest => skipExponent rest

def skipWord (word cs : List Char) : Option (List Char) :=
  if word.isPrefixOf cs then some (cs.drop word.length) else none

/-- What may stand next inside brackets. -/
inductive Inside
  | first
  | later
deriving DecidableEq, Repr

mutual

/-- Takes one value off the front. The first argument bounds the work; the length of the text is
enough. -/
def skipValueWithin : Nat → List Char → Option (List Char)
  | 0, _ => none
  | fuel + 1, cs =>
    match skipBlanks cs with
    | 'n' :: rest => skipWord "ull".toList rest
    | 't' :: rest => skipWord "rue".toList rest
    | 'f' :: rest => skipWord "alse".toList rest
    | '"' :: rest => skipString rest
    | '-' :: rest => skipNumber rest
    | '[' :: rest => skipItemsWithin fuel .first rest
    | '{' :: rest => skipMembersWithin fuel .first rest
    | cs => skipNumber cs

/-- Takes the items of a list and its closing bracket off the front. -/
def skipItemsWithin : Nat → Inside → List Char → Option (List Char)
  | 0, _, _ => none
  | fuel + 1, inside, cs =>
    match skipBlanks cs, inside with
    | ']' :: rest, _ => some rest
    | ',' :: rest, .later => do skipItemsWithin fuel .later (← skipValueWithin fuel rest)
    | cs, .first => do skipItemsWithin fuel .later (← skipValueWithin fuel cs)
    | _, .later => none

/-- Takes the members of an object and its closing bracket off the front. -/
def skipMembersWithin : Nat → Inside → List Char → Option (List Char)
  | 0, _, _ => none
  | fuel + 1, inside, cs =>
    match skipBlanks cs, inside with
    | '}' :: rest, _ => some rest
    | ',' :: rest, .later => skipMemberWithin fuel (skipBlanks rest)
    | cs, .first => skipMemberWithin fuel cs
    | _, .later => none

/-- Takes one member of an object and all that follows it off the front. -/
def skipMemberWithin : Nat → List Char → Option (List Char)
  | 0, _ => none
  | fuel + 1, cs =>
    match cs with
    | '"' :: rest => do
      match skipBlanks (← skipString rest) with
      | ':' :: rest => skipMembersWithin fuel .later (← skipValueWithin fuel rest)
      | _ => none
    | _ => none

end

def skipValue (cs : List Char) : Option (List Char) :=
  skipValueWithin (3 * cs.length + 3) cs

/-- Takes a minus sign off the front. Tells whether there was one. -/
def takeSign : List Char → Bool × List Char
  | '-' :: rest => (true, rest)
  | cs => (false, cs)

/-- Whether what follows the digits of a number leaves it whole. -/
def leavesWhole : List Char → Bool
  | '.' :: _ | 'e' :: _ | 'E' :: _ => false
  | _ => true

/-- Whether a number is spelt with no leading zero, and zero with no sign. -/
def isCanonical (negative : Bool) : List Char → Bool
  | ['0'] => !negative
  | '0' :: _ => false
  | _ => true

/-- Reads a whole number of 64 bits. It has no plus sign, no leading zero, no fraction and no
exponent, and zero has no sign. -/
def readInt64 (cs : List Char) : Option (Int64 × List Char) :=
  let (negative, cs) := takeSign cs
  let digits := cs.takeWhile Char.isDigit
  let rest := cs.dropWhile Char.isDigit
  if leavesWhole rest && isCanonical negative digits then do
    let n ← Text.ofDigits? 10 digits
    let i ← Text.toInt64? (if negative then -n else n)
    return (i, rest)
  else none

end Parley.Json
