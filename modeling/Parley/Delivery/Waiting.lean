import Parley.Delivery.Tracker

/-!
# Waiting for receipts in time

`Waiting` is a tracker together with those who wait on it and a clock. A waiter is either watched,
and then waits for ever, or awaited up to a deadline. A wait that runs out gives up its own entry of
the tracker.
-/

namespace Parley

/-- What became of a wait. -/
inductive WaitOutcome
  | acked (a : Ack)
  | dropped
  | timedOut
deriving DecidableEq, Repr

/-- One who waits. -/
structure Waiter (ι : Type) where
  id : ι
  seq : Int32
  /-- When the wait runs out; nothing for one that is only watched. -/
  deadline : Option Nat
deriving DecidableEq, Repr

/-- A wait that is over. -/
structure Settled (ι : Type) where
  waiter : Waiter ι
  outcome : WaitOutcome
  time : Nat
deriving DecidableEq, Repr

/-- A tracker, its open waits, and the time. -/
structure Waiting (ι : Type) where
  tracker : Tracker ι := .empty
  waiters : List (Waiter ι) := []
  now : Nat := 0
deriving DecidableEq, Repr

namespace Waiting

variable {ι : Type} [DecidableEq ι]

/-- Ends the open waits under the given names. -/
def settle (w : Waiting ι) (ids : List ι) (outcome : WaitOutcome) :
    Waiting ι × List (Settled ι) :=
  let (settled, left) := w.waiters.partition fun x => ids.contains x.id
  ({ w with waiters := left }, settled.map fun x => ⟨x, outcome, w.now⟩)

/-- Time passes. Waits whose deadline it reaches run out at their deadline. -/
def advance (w : Waiting ι) (ms : Nat) : Waiting ι × List (Settled ι) :=
  let target := w.now + ms
  let (settled, left) := w.waiters.partition fun x => x.deadline.any (· ≤ target)
  let tracker := settled.foldl (fun t x => (t.forget x.seq).1) w.tracker
  ({ tracker, waiters := left, now := target },
    settled.map fun x => ⟨x, .timedOut, x.deadline.getD target⟩)

/-- Registers a waiter that waits up to a deadline, or for ever. A deadline that is already there
runs out at once. -/
def register (w : Waiting ι) (seq : Int32) (id : ι) (timeout : Option Nat) :
    Waiting ι × List (Settled ι) :=
  let (tracker, replaced) := w.tracker.register seq id
  let (w, settled) := settle { w with tracker } replaced.toList .dropped
  let (w, ranOut) :=
    advance { w with waiters := w.waiters ++ [⟨id, seq, timeout.map (w.now + ·)⟩] } 0
  (w, settled ++ ranOut)

/-- A receipt has come. Tells also whether somebody was registered for it. -/
def complete (w : Waiting ι) (a : Ack) : Waiting ι × Bool × List (Settled ι) :=
  let (tracker, found) := w.tracker.complete a
  let (w, settled) := settle { w with tracker } found.toList (.acked a)
  (w, found.isSome, settled)

def forget (w : Waiting ι) (seq : Int32) : Waiting ι × List (Settled ι) :=
  let (tracker, found) := w.tracker.forget seq
  settle { w with tracker } found.toList .dropped

/-- Gives up every wait. Tells also how many were registered. -/
def failAll (w : Waiting ι) : Waiting ι × Nat × List (Settled ι) :=
  let (tracker, found) := w.tracker.failAll
  let (left, settled) := settle { w with tracker } found .dropped
  (left, w.tracker.pending, settled)

/-- The watcher of a wait goes away. Its entry stays in the tracker, for nobody. Tells whether there
was such a watcher. -/
def abandon (w : Waiting ι) (id : ι) : Waiting ι × Bool :=
  let gone (x : Waiter ι) := x.id = id && x.deadline.isNone
  ({ w with waiters := w.waiters.filter fun x => !gone x }, w.waiters.any gone)

/-- The watcher of a wait begins to wait up to a deadline, which runs out at once if it is already
there. -/
def await (w : Waiting ι) (id : ι) (timeout : Nat) : Waiting ι × List (Settled ι) :=
  let begin (x : Waiter ι) :=
    if x.id = id ∧ x.deadline = none then { x with deadline := some (w.now + timeout) } else x
  advance { w with waiters := w.waiters.map begin } 0

/-- One who waits up to a deadline gives up before. The entry stays in the tracker, for nobody. -/
def cancel (w : Waiting ι) (id : ι) : Waiting ι :=
  { w with waiters := w.waiters.filter fun x => !(x.id = id && x.deadline.isSome) }

end Waiting

end Parley
