import Parley.Yaml.Layout

/-!
# Nodes

A YAML document as a tree. A node that carries an anchor can stand in other places too, as an alias;
the document keeps such nodes apart, and `Document.resolve?` finds what an alias stands for.
-/

namespace Parley.Yaml

/-- A tag in full. -/
abbrev Tag := Bytes

/-- A node of a document. -/
inductive Node
  | scalar (tag : Option Tag) (s : Scalar)
  | list (items : List Node)
  | map (entries : List (Node × Node))
  | alias (slot : Nat)

/-- A node that is left out. -/
def Node.missing : Node := .scalar none ⟨.plain, []⟩

/-- A document: its root, and the nodes that carry anchors, in their slots. -/
structure Document where
  root : Node
  anchored : List (Nat × Node)

/-- The node itself, or the one that it stands for. -/
def Document.resolve? (d : Document) : Node → Option Node
  | .alias slot => d.anchored.lookup slot
  | n => some n

/-- What is read so far. -/
structure Reader where
  tokens : List Token
  handles : List (Name × Bytes)
  slots : List (Name × Nat) := []
  anchored : List (Nat × Node) := []

/-- A part of a document that is read off its tokens, or refused. -/
abbrev Part := StateT Reader Option

namespace Part

/-- The next token, which stays. -/
def peek : Part (Option Token) := do return (← get).tokens.head?

def skip : Part Unit := modify fun r => { r with tokens := r.tokens.drop 1 }

/-- Goes past a token if it is the given one. Tells whether it is. -/
def skipIf (t : Token) : Part Bool := do
  if (← peek) == some t then
    skip
    return true
  else return false

def expect (t : Token) : Part Unit := do
  if ← skipIf t then return else failure

def isNext (ts : List Token) : Part Bool := do return (← peek).any ts.contains

def meaning (t : Shorthand) : Part Tag := do
  if t.handle.isEmpty then return t.ending
  match (← get).handles.lookup t.handle with
  | some start => return start ++ t.ending
  | none => failure

/-- The slot of a new anchor. An anchor that was used before moves to a new slot. -/
def newSlot (name : Name) : Part Nat := do
  let r ← get
  let slot := r.slots.length
  set { r with slots := (name, slot) :: r.slots.filter (·.1 ≠ name) }
  return slot

/-- Puts a node into a slot. -/
def settle (slot : Nat) (n : Node) : Part Unit :=
  modify fun r => { r with anchored := (slot, n) :: r.anchored }

def anchor? : Part (Option Name) := do
  match ← peek with
  | some (.anchor name) =>
    skip
    return some name
  | _ => return none

def tag? : Part (Option Tag) := do
  match ← peek with
  | some (.tag t) =>
    skip
    return some (← meaning t)
  | _ => return none

/-- Reads what stands in front of a node: an anchor and a tag in either order. -/
def properties : Part (Option Name × Option Tag) := do
  match ← anchor? with
  | some name => return (some name, ← tag?)
  | none =>
    let tag ← tag?
    return (← anchor?, tag)

/-- Where a node stands, which tells the forms that it can have there. -/
inductive Place
  | inline
  | block
  /-- In a mapping by indentation, where a list need not be indented further. -/
  | member
deriving DecidableEq, Repr

mutual

/-- Reads a node. The first argument bounds the work, here and below. -/
def node : Nat → Place → Part Node
  | 0, _ => failure
  | fuel + 1, place => do
    match ← peek with
    | some (.alias name) =>
      skip
      match (← get).slots.lookup name with
      | some slot => return .alias slot
      | none => failure
    | _ =>
      let (anchor, tag) ← properties
      let slot ← anchor.mapM newSlot
      let n ← content fuel place tag (anchor.isSome || tag.isSome)
      if let some slot := slot then settle slot n
      return n

/-- Reads a node behind its properties. Behind properties it can be left out. -/
def content : Nat → Place → Option Tag → Bool → Part Node
  | 0, _, _, _ => failure
  | fuel + 1, place, tag, canMiss => do
    match ← peek, place with
    | some .item, .member => return .list (← dashedItems fuel)
    | some (.scalar s), _ =>
      skip
      return .scalar tag s
    | some .openList, _ =>
      skip
      return .list (← listItems fuel true)
    | some .openMap, _ =>
      skip
      return .map (← mapEntries fuel true)
    | some .listBlock, .block | some .listBlock, .member =>
      skip
      return .list (← blockItems fuel)
    | some .mapBlock, .block | some .mapBlock, .member =>
      skip
      return .map (← blockEntries fuel)
    | _, _ => if canMiss then return .scalar tag ⟨.plain, []⟩ else failure

/-- Reads a node that is left out if one of the given tokens is next. -/
def nodeUnless : Nat → Place → List Token → Part Node
  | 0, _, _ => failure
  | fuel + 1, place, ends => do
    if ← isNext ends then return .missing else node fuel place

/-- Reads the items of a list by indentation, and its end. -/
def blockItems : Nat → Part (List Node)
  | 0 => failure
  | fuel + 1 => do
    if ← skipIf .item then
      let n ← nodeUnless fuel .block [.item, .blockEnd]
      return n :: (← blockItems fuel)
    else
      expect .blockEnd
      return []

/-- Reads the items of a list that is not indented further than its key. -/
def dashedItems : Nat → Part (List Node)
  | 0 => failure
  | fuel + 1 => do
    if ← skipIf .item then
      let n ← nodeUnless fuel .block [.item, .key, .value, .blockEnd]
      return n :: (← dashedItems fuel)
    else return []

/-- Reads the entries of a mapping by indentation, and its end. -/
def blockEntries : Nat → Part (List (Node × Node))
  | 0 => failure
  | fuel + 1 => do
    if ← skipIf .key then
      let ends := [.key, .value, .blockEnd]
      let k ← nodeUnless fuel .member ends
      let v ← valueUnless fuel .member ends
      return (k, v) :: (← blockEntries fuel)
    else
      expect .blockEnd
      return []

/-- Reads the value of a key, which is left out with its colon or behind it. -/
def valueUnless : Nat → Place → List Token → Part Node
  | 0, _, _ => failure
  | fuel + 1, place, ends => do
    if ← skipIf .value then nodeUnless fuel place ends else return .missing

/-- Reads the items of a list in brackets, and its end. A pair is a mapping with one entry. -/
def listItems : Nat → (isFirst : Bool) → Part (List Node)
  | 0, _ => failure
  | fuel + 1, isFirst => do
    if ← skipIf .closeList then return []
    unless isFirst do expect .comma
    if ← skipIf .closeList then return []
    if ← skipIf .key then
      let k ← nodeUnless fuel .inline [.value, .comma, .closeList]
      let v ← valueUnless fuel .inline [.comma, .closeList]
      return .map [(k, v)] :: (← listItems fuel false)
    else
      let n ← node fuel .inline
      return n :: (← listItems fuel false)

/-- Reads the entries of a mapping in brackets, and its end. A lone node is a key without a value.
-/
def mapEntries : Nat → (isFirst : Bool) → Part (List (Node × Node))
  | 0, _ => failure
  | fuel + 1, isFirst => do
    if ← skipIf .closeMap then return []
    unless isFirst do expect .comma
    if ← skipIf .closeMap then return []
    if ← skipIf .key then
      let k ← nodeUnless fuel .inline [.value, .comma, .closeMap]
      let v ← valueUnless fuel .inline [.comma, .closeMap]
      return (k, v) :: (← mapEntries fuel false)
    else
      let k ← node fuel .inline
      return (k, .missing) :: (← mapEntries fuel false)

end

/-- Reads the directives in front of a document. The version is stated once, and each handle is
declared once. -/
def directives : Nat → (isVersioned : Bool) → List (Name × Bytes) → Part (List (Name × Bytes))
  | 0, _, _ => failure
  | fuel + 1, isVersioned, declared => do
    match ← peek with
    | some (.version major minor) =>
      if isVersioned || major ≠ 1 || (minor ≠ 1 && minor ≠ 2) then failure
      skip
      directives fuel true declared
    | some (.handle name meaning) =>
      if (declared.lookup name).isSome then failure
      skip
      directives fuel isVersioned (declared ++ [(name, meaning)])
    | _ => return declared

/-- The handles that need no declaration. -/
def knownHandles : List (Name × Bytes) :=
  [(['!'], Bytes.ofString "!"), (['!', '!'], Bytes.ofString "tag:yaml.org,2002:")]

def isDirective : Token → Bool
  | .version .. | .handle .. => true
  | _ => false

/-- Reads the root of a document. Directives need the line that starts a document. -/
def root (fuel : Nat) : Part Node := do
  if (← peek).any fun t => isDirective t || t == .documentStart then
    let declared ← directives fuel false []
    modify fun r => { r with handles := declared ++ knownHandles }
    expect .documentStart
    match ← peek with
    | none => return .missing
    | some t =>
      if isDirective t || t == .documentStart || t == .documentEnd then return .missing
      else node fuel .block
  else node fuel .block

end Part

/-- How much work tokens are. -/
def Part.work (tokens : List Token) : Nat := 4 * tokens.length + 4

/-- The document that tokens make up. Nothing but the end of a document can follow it. -/
def Document.ofTokens? (tokens : List Token) : Option Document := do
  let start : Reader := { tokens, handles := Part.knownHandles }
  let (root, r) ← (Part.root (Part.work tokens)).run start
  if r.tokens.all (· == .documentEnd) then return ⟨root, r.anchored⟩ else none

def Document.ofString? (s : String) : Option Document := do
  Document.ofTokens? (← Token.ofCells? (← Cell.ofString? s))

end Parley.Yaml
