import Parley.Wire.Message

/-!
# The way to the writer

All that is sent on a connection goes through one bounded queue. Whoever finds it full waits in
line, and room that comes up belongs to the first in line: items go out in the order in which their
senders came.
-/

namespace Parley

/-- A message on its way to the writer. -/
structure Outgoing where
  message : Message
  flags : Flags := 0
  caller : Option Nat := none
  /-- Whether that call also waits for the receipt. -/
  tracked : Bool := false
deriving DecidableEq, Repr

/-- Who sends on a connection. -/
inductive Sender
  | startup
  | reading
  | call (id : Nat)
deriving DecidableEq, Repr

/-- A bounded queue and those who wait for room in it. -/
structure Outbox where
  capacity : Nat
  items : List Outgoing := []
  line : List Sender := []
  isOpen : Bool := true
deriving DecidableEq, Repr

/-- What becomes of an attempt to put something into the queue. -/
inductive Offer
  | taken (box : Outbox)
  | lined (box : Outbox)
  | stuck
  | closed

namespace Outbox

/-- How many items fit in besides those that are there. -/
def room (b : Outbox) : Nat := b.capacity - b.items.length

/-- A sender's place in line, the end of it for one that is not there. -/
def place (b : Outbox) (who : Sender) : Nat := b.line.idxOf who

/-- Puts an item in if its sender's turn has come. -/
def offer (b : Outbox) (who : Sender) (item : Outgoing) : Offer :=
  if !b.isOpen then .closed
  else if b.place who < b.room then
    .taken { b with items := b.items ++ [item], line := b.line.erase who }
  else if b.line.contains who then .stuck
  else .lined { b with line := b.line ++ [who] }

def pop? (b : Outbox) : Option (Outgoing × Outbox) :=
  match b.items with
  | [] => none
  | item :: items => some (item, { b with items })

/-- Nobody takes anything out any more. What is in is lost. -/
def close (b : Outbox) : Outbox := { b with items := [], line := [], isOpen := false }

end Outbox

end Parley
