import Parley.Error

/-!
# Writing into a buffer

A `Writing` appends octets to a buffer and may fail. What it appended before a failure stays in the
buffer: who wants all or nothing cuts the buffer back.
-/

namespace Parley

/-- A step that appends to a buffer. -/
abbrev Writing := ExceptT Error (StateM Bytes)

namespace Writing

/-- Appends octets. -/
def append (bs : Bytes) : Writing Unit :=
  modify (· ++ bs)

/-- What becomes of a buffer, and whether the writing succeeded. -/
def runOn (buffer : Bytes) (w : Writing Unit) : Except Error Unit × Bytes :=
  w.run.run buffer

end Writing

end Parley
