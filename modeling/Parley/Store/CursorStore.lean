import Parley.Store.CursorFile

/-!
# Where a client keeps its cursors

A store keeps cursors in memory or in a file. A store may refuse saves; a refused save leaves what
is stored as it was. The store remembers what it was asked to save.
-/

namespace Parley

/-- What a store keeps cursors in. -/
inductive Backing
  | memory (cursors : Cursors)
  | file (path : Path) (folder : Folder)
deriving DecidableEq

/-- One attempt to save, and whether it succeeded. -/
structure Save where
  cursors : Cursors
  saved : Bool
deriving DecidableEq

/-- A store of cursors. -/
structure CursorStore where
  backing : Backing
  /-- The saves that are refused, by their numbers from zero. -/
  refuses : List Nat := []
  loadFault : Option Error := none
  saves : List Save := []
deriving DecidableEq

namespace CursorStore

/-- A store in memory that holds the given cursors. -/
def memory (c : Cursors) : CursorStore := { backing := .memory c }

def load (s : CursorStore) : Except Error Cursors :=
  match s.loadFault, s.backing with
  | some e, _ => .error e
  | none, .memory c => .ok c
  | none, .file path folder => CursorFile.load path folder

/-- Stores cursors in a backing. Tells whether that succeeded. -/
def Backing.save (c : Cursors) : Backing → Bool × Backing
  | .memory _ => (true, .memory c)
  | .file path folder =>
    match CursorFile.save path c folder with
    | (.ok (), folder) => (true, .file path folder)
    | (.error _, folder) => (false, .file path folder)

/-- Stores cursors. Tells whether that succeeded. -/
def save (s : CursorStore) (c : Cursors) : Bool × CursorStore :=
  let refused := s.refuses.contains s.saves.length
  let (saved, backing) := if refused then (false, s.backing) else Backing.save c s.backing
  (saved, { s with backing, saves := s.saves ++ [⟨c, saved⟩] })

end CursorStore

end Parley
