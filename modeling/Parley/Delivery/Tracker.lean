import Parley.Wire.Body

/-!
# Which send waits for which receipt

A `Tracker` holds at most one waiter per sequence. Waiters are names chosen by the caller; every
operation tells which of them it settles.
-/

namespace Parley

/-- The waiters under their sequences, the latest first. -/
structure Tracker (ι : Type) where
  entries : List (Int32 × ι)
deriving DecidableEq, Repr

namespace Tracker

variable {ι : Type}

/-- Nobody waits. -/
def empty : Tracker ι := ⟨[]⟩

def waiter? (t : Tracker ι) (seq : Int32) : Option ι := t.entries.lookup seq

/-- The tracker without the waiter under a sequence. -/
def erase (t : Tracker ι) (seq : Int32) : Tracker ι := ⟨t.entries.filter (·.1 ≠ seq)⟩

/-- Registers a waiter. Tells the one it replaces, whose wait has failed. -/
def register (t : Tracker ι) (seq : Int32) (w : ι) : Tracker ι × Option ι :=
  (⟨(seq, w) :: (t.erase seq).entries⟩, t.waiter? seq)

/-- A receipt has come. Tells the waiter that gets it, if there is one. -/
def complete (t : Tracker ι) (a : Ack) : Tracker ι × Option ι :=
  (t.erase a.seq, t.waiter? a.seq)

/-- Gives up the wait under a sequence. Tells whose it was. -/
def forget (t : Tracker ι) (seq : Int32) : Tracker ι × Option ι :=
  (t.erase seq, t.waiter? seq)

/-- Gives up every wait. Tells whose they were. -/
def failAll (t : Tracker ι) : Tracker ι × List ι :=
  (empty, t.entries.map (·.2))

def pending (t : Tracker ι) : Nat := t.entries.length

def isPending (t : Tracker ι) (seq : Int32) : Bool := (t.waiter? seq).isSome

end Tracker

end Parley
