import Parley.Scope
import Parley.Sync.GroupMap

/-!
# Cursors

A cursor is the key up to which a scope has been taken over and stored. `Cursors` holds those of all
scopes, as they are kept between connections.
-/

namespace Parley

/-- The cursors of all scopes. -/
structure Cursors where
  direct : Int64
  groups : GroupMap Int64
deriving DecidableEq

namespace Cursors

/-- Where a client starts that has stored nothing. -/
def zero : Cursors := ⟨0, .empty⟩

instance : Inhabited Cursors := ⟨zero⟩

/-- The cursor of a scope; a group that is not among them has none. -/
def get? (c : Cursors) : Scope → Option Int64
  | .direct => some c.direct
  | .group g => c.groups.get? g

def set (c : Cursors) (key : Int64) : Scope → Cursors
  | .direct => { c with direct := key }
  | .group g => { c with groups := c.groups.set g key }

end Cursors

end Parley
