import Parley.Sync.Cursors
import Parley.Text.Json

/-!
# The document of stored cursors

Cursors are stored as a JSON object with the members `direct` and `groups`, the groups under their
numbers. `Cursors.render` writes it over several lines. `Cursors.parse?` reads also other spellings:
a list of the two values, unknown members, and a document without groups.
-/

namespace Parley.Cursors

open Json

/-- The number of a key or a group, in decimal digits. -/
def int64Text (i : Int64) : String := toString i.toInt

def groupLine (e : Int64 × Int64) : String :=
  "    \"" ++ int64Text e.1 ++ "\": " ++ int64Text e.2

/-- The groups over several lines, in short when there are none. -/
def renderGroups (groups : GroupMap Int64) : String :=
  if groups.entries.isEmpty then "\x7b\x7d"
  else "\x7b\n" ++ ",\n".intercalate (groups.entries.map groupLine) ++ "\n  \x7d"

def render (c : Cursors) : String :=
  "\x7b\n  \"direct\": " ++ int64Text c.direct ++ ",\n  \"groups\": " ++ renderGroups c.groups ++
    "\n\x7d"

/-- Reads a group and its key, from the quote that opens the group. -/
def readGroup (cs : List Char) : Option ((Int64 × Int64) × List Char) :=
  match cs with
  | '"' :: rest => do
    let (g, rest) ← readInt64 rest
    match rest with
    | '"' :: rest =>
      match skipBlanks rest with
      | ':' :: rest => do
        let (key, rest) ← readInt64 (skipBlanks rest)
        return ((g, key), rest)
      | _ => none
    | _ => none
  | _ => none

/-- Reads the groups behind the first one, up to the closing bracket. -/
def readMoreGroups : Nat → GroupMap Int64 → List Char → Option (GroupMap Int64 × List Char)
  | 0, _, _ => none
  | fuel + 1, groups, cs =>
    match skipBlanks cs with
    | '\x7d' :: rest => some (groups, rest)
    | ',' :: rest => do
      let ((g, key), rest) ← readGroup (skipBlanks rest)
      readMoreGroups fuel (groups.set g key) rest
    | _ => none

/-- Reads groups and their keys. Of two keys for one group the later counts. -/
def readGroups (cs : List Char) : Option (GroupMap Int64 × List Char) :=
  match skipBlanks cs with
  | '\x7b' :: rest =>
    match skipBlanks rest with
    | '\x7d' :: rest => some (.empty, rest)
    | rest => do
      let ((g, key), rest) ← readGroup rest
      readMoreGroups rest.length (GroupMap.empty.set g key) rest
  | _ => none

/-- The members read so far. -/
structure Members where
  direct : Option Int64 := none
  groups : Option (GroupMap Int64) := none

/-- The cursors of a document whose members have all been read. -/
def Members.cursors? (m : Members) : Option Cursors :=
  m.direct.map fun direct => ⟨direct, m.groups.getD .empty⟩

/-- Reads one member, from the quote that opens its name. A member may stand once. -/
def readMember (m : Members) (cs : List Char) : Option (Members × List Char) :=
  match cs with
  | '"' :: rest => do
    let (name, rest) ← readString rest
    match skipBlanks rest with
    | ':' :: rest =>
      let rest := skipBlanks rest
      if name = "direct".toList then
        if m.direct.isSome then none
        else
          let (direct, rest) ← readInt64 rest
          return ({ m with direct := some direct }, rest)
      else if name = "groups".toList then
        if m.groups.isSome then none
        else
          let (groups, rest) ← readGroups rest
          return ({ m with groups := some groups }, rest)
      else return (m, ← skipValue rest)
    | _ => none
  | _ => none

/-- Reads the members behind the first one, up to the closing bracket. -/
def readMoreMembers : Nat → Members → List Char → Option (Members × List Char)
  | 0, _, _ => none
  | fuel + 1, m, cs =>
    match skipBlanks cs with
    | '\x7d' :: rest => some (m, rest)
    | ',' :: rest => do
      let (m, rest) ← readMember m (skipBlanks rest)
      readMoreMembers fuel m rest
    | _ => none

/-- Reads the members behind the opening bracket of an object. -/
def readObject (cs : List Char) : Option (Cursors × List Char) :=
  match skipBlanks cs with
  | '\x7d' :: _ => none
  | cs => do
    let (m, rest) ← readMember {} cs
    let (m, rest) ← readMoreMembers rest.length m rest
    return (← m.cursors?, rest)

/-- Reads the values behind the opening bracket of a list. -/
def readList (cs : List Char) : Option (Cursors × List Char) := do
  let (direct, rest) ← readInt64 (skipBlanks cs)
  match skipBlanks rest with
  | ']' :: rest => return (⟨direct, .empty⟩, rest)
  | ',' :: rest =>
    let (groups, rest) ← readGroups rest
    match skipBlanks rest with
    | ']' :: rest => return (⟨direct, groups⟩, rest)
    | _ => none
  | _ => none

/-- The cursors of a document. -/
def parse? (s : String) : Option Cursors := do
  let (c, rest) ←
    match skipBlanks s.toList with
    | '\x7b' :: rest => readObject rest
    | '[' :: rest => readList rest
    | _ => none
  if (skipBlanks rest).isEmpty then some c else none

end Parley.Cursors
