import Parley.Yaml.Token

/-!
# From text to tokens

Lists and mappings outside brackets are told by the columns in which their parts start. A key is
known only by the colon behind it: what may turn out to be one is remembered until then, and its
token is put in front of it afterwards. `Token.ofCells?` is the main function.
-/

namespace Parley.Yaml

/-- A place in a text at which a key may have started. -/
structure Candidate where
  cell : Cell
  position : Nat
  isRequired : Bool
deriving DecidableEq, Repr

/-- How far apart a key and its colon can be. -/
def maxKeyWidth : Nat := 1024

/-- Whether a place is too far behind a candidate for its colon. -/
def Candidate.isStale (k : Candidate) (here : Cell) : Bool :=
  k.cell.line < here.line || k.cell.index + maxKeyWidth < here.index

/-- What is known about a text up to some place in it. -/
structure Layout where
  tokens : Array Token := #[]
  /-- The columns of the lists and mappings by indentation that have not ended, innermost first. -/
  blocks : List Nat := []
  mayStartKey : Bool := true
  candidate : Option Candidate := none
  /-- The last candidates around each pair of brackets, innermost first. -/
  enclosing : List (Option Candidate) := []

namespace Layout

/-- Whether brackets are open. -/
def inBrackets (s : Layout) : Bool := !s.enclosing.isEmpty

/-- The least column in which a part of the innermost list or mapping can go on. -/
def margin (s : Layout) : Nat :=
  match s.blocks with
  | [] => 0
  | column :: _ => column + 1

def push (s : Layout) (t : Token) : Layout := { s with tokens := s.tokens.push t }

/-- The layout with tokens put in front of one that is there already. -/
def insert (s : Layout) (position : Nat) (ts : List Token) : Layout :=
  { s with
    tokens := s.tokens.extract 0 position ++ ts ++ s.tokens.extract position s.tokens.size }

/-! ## Indentation -/

/-- Starts a list or mapping in a column, unless one goes on there. -/
def openBlock (s : Layout) (column position : Nat) (t : Token) : Layout :=
  if !s.inBrackets && s.margin ≤ column then
    { s.insert position [t] with blocks := column :: s.blocks }
  else s

/-- Ends the lists and mappings that start behind a column. -/
def closeBehind (column : Nat) (s : Layout) : Layout :=
  if s.inBrackets then s
  else
    let ended := s.blocks.takeWhile (column < ·)
    { s with
      tokens := s.tokens ++ ended.map fun _ => Token.blockEnd
      blocks := s.blocks.drop ended.length }

def closeAll (s : Layout) : Layout :=
  if s.inBrackets then s
  else { s with tokens := s.tokens ++ s.blocks.map (fun _ => Token.blockEnd), blocks := [] }

/-! ## Candidates -/

/-- Gives up the last candidate. -/
def giveUp (s : Layout) : Option Layout :=
  if s.candidate.any (·.isRequired) then none else some { s with candidate := none }

/-- Gives up the candidates that a place is too far behind. -/
def giveUpStale (s : Layout) (here : Cell) : Option Layout :=
  let stale (k : Option Candidate) := k.any (·.isStale here)
  let all := s.candidate :: s.enclosing
  if all.any (fun k => stale k && k.any (·.isRequired)) then none
  else
    let left (k : Option Candidate) := if stale k then none else k
    some { s with candidate := left s.candidate, enclosing := s.enclosing.map left }

/-- Remembers that a key may start here. -/
def remember (s : Layout) (here : Cell) : Option Layout :=
  if s.mayStartKey then do
    let s ← s.giveUp
    let isRequired := !s.inBrackets && s.blocks.head? == some here.column
    return { s with candidate := some ⟨here, s.tokens.size, isRequired⟩ }
  else some s

/-! ## Steps -/

/-- Goes on to the next token. Tabs do not indent. -/
def skipToToken (s : Layout) (inComment : Bool) : List Cell → Layout × List Cell
  | [] => (s, [])
  | c :: rest =>
    if isBreak c.char then
      skipToToken { s with mayStartKey := s.mayStartKey || !s.inBrackets } false rest
    else if inComment then skipToToken s true rest
    else if c.char == '#' then skipToToken s true rest
    else if c.char == ' ' || (c.char == '\t' && (s.inBrackets || !s.mayStartKey)) ||
        (c.char == '\ufeff' && c.column == 0) then
      skipToToken s false rest
    else (s, c :: rest)

def openBracket (s : Layout) (here : Cell) (t : Token) : Option Layout := do
  let s ← s.remember here
  return { s.push t with
    mayStartKey := true, candidate := none, enclosing := s.candidate :: s.enclosing }

def closeBracket (s : Layout) (t : Token) : Option Layout := do
  let s ← s.giveUp
  match s.enclosing with
  | [] => none
  | candidate :: enclosing =>
    return { s.push t with mayStartKey := false, candidate, enclosing }

def comma (s : Layout) : Option Layout := do
  let s ← s.giveUp
  return { s.push .comma with mayStartKey := true }

/-- The dash before an item. -/
def item (s : Layout) (here : Cell) : Option Layout :=
  if s.inBrackets || s.mayStartKey then do
    let s ← (s.openBlock here.column s.tokens.size .listBlock).giveUp
    return { s.push .item with mayStartKey := true }
  else none

/-- The question mark before a key. -/
def key (s : Layout) (here : Cell) : Option Layout :=
  if s.inBrackets || s.mayStartKey then do
    let s ← (s.openBlock here.column s.tokens.size .mapBlock).giveUp
    return { s.push .key with mayStartKey := !s.inBrackets }
  else none

/-- The colon before a value. Where a key may have started, there it did. -/
def value (s : Layout) (here : Cell) : Option Layout :=
  match s.candidate with
  | some k =>
    let s := (s.insert k.position [.key]).openBlock k.cell.column k.position .mapBlock
    some { s.push .value with candidate := none, mayStartKey := false }
  | none =>
    if s.inBrackets || s.mayStartKey then
      let s := s.openBlock here.column s.tokens.size .mapBlock
      some { s.push .value with mayStartKey := !s.inBrackets }
    else none

/-- What a key can start with: an alias, an anchor, a tag or a scalar on its line. -/
def part (s : Layout) (here : Cell) (t : Token) : Option Layout := do
  let s ← s.remember here
  return { s.push t with mayStartKey := false }

/-- A scalar below a bar or an angle. -/
def indented (s : Layout) (t : Scalar) : Option Layout := do
  let s ← s.giveUp
  return { s.push (.scalar t) with mayStartKey := true }

/-- A directive, or a line that starts or ends a document. -/
def documentSign (s : Layout) (t : Token) : Option Layout := do
  let s ← s.closeAll.giveUp
  return { s.push t with mayStartKey := false }

/-- Whether a plain scalar starts with a character, given what follows it. -/
def startsPlain (inBrackets : Bool) (c : Char) (rest : List Cell) : Bool :=
  if c == '-' then !isAt isBlank rest
  else if c == '?' || c == ':' then !inBrackets && !atGap rest
  else !isBlank c && !",[]\x7b\x7d#&*!|>\x27\x22%@\x60".toList.contains c

def step (s : Layout) (c : Cell) (rest : List Cell) : Option (Layout × List Cell) :=
  let on (s : Option Layout) : Option (Layout × List Cell) := s.map fun s => (s, rest)
  if c.column == 0 && c.char == '%' then do
    let (t, rest) ← takeDirective rest
    return (← s.documentSign t, rest)
  else if atDocumentEdge (c :: rest) then
    (s.documentSign (if c.char == '-' then .documentStart else .documentEnd)).map fun s =>
      (s, rest.drop 2)
  else if c.char == '[' then on (s.openBracket c .openList)
  else if c.char == '\x7b' then on (s.openBracket c .openMap)
  else if c.char == ']' then on (s.closeBracket .closeList)
  else if c.char == '\x7d' then on (s.closeBracket .closeMap)
  else if c.char == ',' then on s.comma
  else if c.char == '-' && atGap rest then on (s.item c)
  else if c.char == '?' && (s.inBrackets || atGap rest) then on (s.key c)
  else if c.char == ':' && (s.inBrackets || atGap rest) then on (s.value c)
  else if c.char == '*' then do
    let (name, rest) ← takeAnchor rest
    return (← s.part c (.alias name), rest)
  else if c.char == '&' then do
    let (name, rest) ← takeAnchor rest
    return (← s.part c (.anchor name), rest)
  else if c.char == '!' then do
    let (tag, rest) ← takeTag s.inBrackets (c :: rest)
    return (← s.part c (.tag tag), rest)
  else if (c.char == '|' || c.char == '>') && !s.inBrackets then do
    let style := if c.char == '|' then Style.literal else Style.folded
    let (scalar, rest) ← takeIndented style s.margin rest
    return (← s.indented scalar, rest)
  else if c.char == '\'' || c.char == '"' then do
    let (scalar, rest) ← takeQuoted c.char rest
    return (← s.part c (.scalar scalar), rest)
  else if startsPlain s.inBrackets c.char rest then do
    let (scalar, lineEnded, rest) ← takePlain s.inBrackets s.margin (c :: rest)
    let s ← s.part c (.scalar scalar)
    return ({ s with mayStartKey := lineEnded }, rest)
  else none

/-- Reads tokens to the end of a text. -/
def runWithin : Nat → Layout → List Cell → Option Layout
  | 0, _, _ => none
  | fuel + 1, s, cells =>
    match s.skipToToken false cells with
    | (s, []) => s.closeAll.giveUp
    | (s, c :: rest) => do
      let s ← s.giveUpStale c
      let (s, rest) ← (s.closeBehind c.column).step c rest
      runWithin fuel s rest

end Layout

/-- The tokens of a text. -/
def Token.ofCells? (cells : List Cell) : Option (List Token) :=
  (Layout.runWithin (cells.length + 1) {} cells).map (·.tokens.toList)

end Parley.Yaml
