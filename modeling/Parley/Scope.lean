/-!
# Scopes of synchronisation

The direct inbox and every group are synchronised apart from each other.
-/

namespace Parley

/-- What a cursor, a window or a sync frame is about. -/
inductive Scope
  | direct
  | group (id : Int64)
deriving DecidableEq, Repr

/-- The group of a scope that has one. -/
def Scope.group? : Scope → Option Int64
  | direct => none
  | group id => some id

end Parley
