import Parley.Store.Folder
import Parley.Sync.Document

/-!
# Cursors in a file

Cursors are stored under a path. Saving writes a file beside the path first and then moves it there,
so that whoever loads sees the old cursors or the new ones. A file that is not there holds the
cursors of a client that has stored nothing.
-/

namespace Parley.CursorFile

/-- The file beside a path that is written first. -/
def draft (p : Path) : Path := p.withEnding "tmp"

def load (p : Path) (f : Folder) : Except Error Cursors :=
  match f.read p with
  | .error .notFound => .ok .zero
  | .error fault => .error (.io fault)
  | .ok content =>
    match Utf8.decode content with
    | .error _ => .error (.io .notUtf8)
    | .ok s =>
      match Cursors.parse? s with
      | some c => .ok c
      | none => .error (.badConfig .notCursors)

/-- Writes cursors beside a path. -/
def stage (p : Path) (c : Cursors) (f : Folder) : Except IoFault Folder :=
  f.write (draft p) (Bytes.ofString c.render)

/-- Moves what was written beside a path to the path. -/
def publish (p : Path) (f : Folder) : Except IoFault Folder :=
  f.rename (draft p) p

/-- Stores cursors under a path. What was written beside it stays there when it cannot be moved. -/
def save (p : Path) (c : Cursors) (f : Folder) : Except Error Unit × Folder :=
  match stage p c f with
  | .error fault => (.error (.io fault), f)
  | .ok staged =>
    match publish p staged with
    | .error fault => (.error (.io fault), staged)
    | .ok published => (.ok (), published)

end Parley.CursorFile
