import Parley.Wire.Frame

/-!
# The two directions of an open stream

Both directions are modelled as far as they have come: what has arrived and was not taken, and
whether a write can go out. Asking either of them answers at once; an answer may be that the time
has not come yet.
-/

namespace Parley

/-- An answer that may not be there yet. -/
abbrev Poll (α : Type) := Option (Except Error α)

/-- What a stream brings. -/
structure Inbound where
  waiting : Bytes := []
  ended : Bool := false
  /-- A fault follows what is waiting; it comes before an end. -/
  failure : Option IoFault := none
deriving DecidableEq, Repr

namespace Inbound

/-- Octets arrive. -/
def arrive (i : Inbound) (bs : Bytes) : Inbound := { i with waiting := i.waiting ++ bs }

/-- What a stream says that has nothing waiting: its fault, its end, which means what is given, or
nothing yet. -/
def stalled {α : Type} (i : Inbound) (atEnd : Error) : Poll α :=
  match i.failure with
  | some fault => some (.error (.io fault))
  | none => if i.ended then some (.error atEnd) else none

end Inbound

/-- Where writes go. -/
structure Outbound where
  failure : Option IoFault := none
  blocked : Bool := false
  isShutdown : Bool := false
  /-- How much goes out all the same before writes fail or wait: a flush counts like an octet. -/
  slack : Nat := 0
deriving DecidableEq, Repr

namespace Outbound

/-- What stops a write that goes no further: a fault, or the wait for its turn. -/
def stopped (o : Outbound) : Poll Unit := o.failure.map fun fault => .error (.io fault)

/-- What becomes now of a write of so many octets, and how many of them go out. -/
def write (o : Outbound) (len : Nat) : Poll Unit × Nat × Outbound :=
  if o.failure.isNone ∧ !o.blocked then (some (.ok ()), len, o)
  else if len < o.slack then (some (.ok ()), len, { o with slack := o.slack - (len + 1) })
  else (o.stopped, o.slack, { o with slack := 0 })

end Outbound

end Parley
