import Parley.Error

/-!
# A folder of files

The part of a file system that storing cursors needs: a folder, the files and folders in it, and
reading, writing and renaming by path. The faults are those that the operating system reports, and
come in the order in which it walks a path.
-/

namespace Parley

/-- The way from the folder to a file. -/
structure Path where
  names : List String
  /-- Whether a slash follows the last name, which then has to be a folder's. -/
  slash : Bool
deriving DecidableEq, Repr

namespace Path

/-- The path that a text spells. An empty text leads to an empty name, under which nothing can
stand. -/
def ofString (s : String) : Path where
  names :=
    if s.isEmpty then [""]
    else ((s.toList.splitOn '/').filter fun n => n ≠ [] ∧ n ≠ ['.']).map String.ofList
  slash := s.toList.getLast? = some '/'

def text (p : Path) : String :=
  "/".intercalate p.names ++ if p.slash then "/" else ""

/-- A name without what follows its last dot; a dot in front belongs to the name. -/
def stem (name : String) : String :=
  let backwards := name.toList.reverse
  let front := ((backwards.dropWhile (· ≠ '.')).drop 1).reverse
  if front.isEmpty then name else String.ofList front

/-- Whether a character that no name can hold stands in a name. -/
def holdsNul (p : Path) : Bool := p.names.any fun n => n.toList.contains '\x00'

/-- The path beside a path, whose last name ends in another way. -/
def withEnding (p : Path) (ending : String) : Path :=
  match p.names.getLast? with
  | none => p
  | some name =>
    if name.isEmpty then p else ⟨p.names.dropLast ++ [stem name ++ "." ++ ending], false⟩

end Path

/-- What stands under a path. -/
inductive Folder.Item
  | file (content : Bytes)
  | folder
deriving DecidableEq, Repr

/-- The files and folders below a folder. -/
structure Folder where
  entries : List (List String × Folder.Item) := []
deriving DecidableEq, Repr

namespace Folder

/-- The longest name, in octets. -/
def maxName : Nat := 255

/-- The folder in which nothing stands but one item and the folders on the way to it. -/
def holding (p : Path) (n : Item) : Folder where
  entries := (List.range p.names.length).map fun k =>
    (p.names.take (k + 1), if k + 1 = p.names.length then n else .folder)

/-- What stands under the given names. -/
def item? (f : Folder) (names : List String) : Option Item :=
  if names.isEmpty then some .folder else f.entries.lookup names

/-- Walks along names from where one stands already. -/
def walk (f : Folder) : (here : List String) → (names : List String) → Except IoFault Item
  | _, [] => .ok .folder
  | here, name :: rest =>
    if maxName < name.utf8ByteSize then .error .nameTooLong
    else
      match f.item? (here ++ [name]), rest with
      | none, _ => .error .notFound
      | some (.file content), [] => .ok (.file content)
      | some (.file _), _ => .error .notADirectory
      | some .folder, _ => walk f (here ++ [name]) rest

/-- What a path leads to. -/
def find (f : Folder) (p : Path) : Except IoFault Item := do
  if p.holdsNul then throw .nulInName
  match ← f.walk [] p.names with
  | .file content => if p.slash then throw .notADirectory else return .file content
  | .folder => return .folder

def read (f : Folder) (p : Path) : Except IoFault Bytes := do
  match ← f.find p with
  | .file content => return content
  | .folder => throw .isADirectory

def put (f : Folder) (names : List String) (n : Item) : Folder :=
  ⟨(names, n) :: f.entries.filter (·.1 ≠ names)⟩

/-- The folder without what stands under names. -/
def erase (f : Folder) (names : List String) : Folder :=
  ⟨f.entries.filter (·.1 ≠ names)⟩

/-- Refuses a path whose last name cannot stand where it leads. -/
def checkParent (f : Folder) (p : Path) : Except IoFault Unit := do
  if p.holdsNul then throw .nulInName
  match ← f.walk [] p.names.dropLast with
  | .file _ => throw .notADirectory
  | .folder =>
    match p.names.getLast? with
    | some name =>
      if name.isEmpty then throw .notFound
      if maxName < name.utf8ByteSize then throw .nameTooLong
    | none => return

def write (f : Folder) (p : Path) (content : Bytes) : Except IoFault Folder := do
  f.checkParent p
  match f.item? p.names with
  | some .folder => throw .isADirectory
  | some (.file _) => if p.slash then throw .notADirectory else return f.put p.names (.file content)
  | none => if p.slash then throw .isADirectory else return f.put p.names (.file content)

/-- Moves a file to another path, in the place of a file that stands there. -/
def rename (f : Folder) (source target : Path) : Except IoFault Folder := do
  match ← f.find source with
  | .folder => throw .isADirectory
  | .file content =>
    f.checkParent target
    if target.slash then throw .notADirectory
    if f.item? target.names = some .folder then throw .isADirectory
    return (f.erase source.names).put target.names (.file content)

/-- Adds a folder where nothing stands. -/
def mkdir? (f : Folder) (p : Path) : Option Folder :=
  match f.checkParent p, f.item? p.names with
  | .ok (), none => some (f.put p.names .folder)
  | _, _ => none

def remove? (f : Folder) (p : Path) : Option Folder :=
  match f.find p with
  | .ok (.file _) => some (f.erase p.names)
  | _ => none

/-- The names that stand in the folder itself, in order. -/
def names (f : Folder) : List String :=
  let own := f.entries.filterMap fun e =>
    match e.1 with
    | [name] => some name
    | _ => none
  own.mergeSort fun a b => a ≤ b

end Folder

end Parley
