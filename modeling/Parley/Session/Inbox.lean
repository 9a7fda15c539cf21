import Parley.Session.Event

/-!
# Taking events

The application takes events one by one, or waits for a content frame. What a wait passes over is
kept and taken first later, in its old order. A frame found inside a sync window is held until every
window open at that moment has been closed.
-/

namespace Parley

/-- What the application has passed over, and the windows open by the events it has seen. -/
structure Inbox where
  stash : List Event := []
  windows : List Scope := []
deriving DecidableEq, Repr

namespace Inbox

/-- Follows the windows through an event. -/
def observe (b : Inbox) : Event → Inbox
  | .syncBegin scope => { b with windows := scope :: b.windows.filter (· ≠ scope) }
  | .syncEnd scope _ _ => { b with windows := b.windows.filter (· ≠ scope) }
  | .disconnected _ => { b with windows := [] }
  | .message .. => b

def keep (b : Inbox) (ev : Event) : Inbox := { b with stash := b.stash ++ [ev] }

def pop? (b : Inbox) : Option (Event × Inbox) :=
  match b.stash with
  | [] => none
  | ev :: stash => some (ev, { b with stash })

end Inbox

/-- The content frame of an event that a wait may return: one that was not pushed. -/
def Event.candidate? : Event → Option Frame
  | .message f .live | .message f .catchup => some f
  | _ => none

/-- Takes the first candidate that satisfies a condition out of a list of events. Tells also how
many frames were tried. -/
def takeFirst (pred : Frame → Bool) : List Event → Option (Frame × List Event) × Nat
  | [] => (none, 0)
  | ev :: evs =>
    match ev.candidate? with
    | none =>
      let (found, tried) := takeFirst pred evs
      (found.map fun (f, rest) => (f, ev :: rest), tried)
    | some f =>
      if pred f then (some (f, evs), 1)
      else
        let (found, tried) := takeFirst pred evs
        (found.map fun (f, rest) => (f, ev :: rest), tried + 1)

/-- A wait for a content frame. -/
structure Wait where
  pred : Frame → Bool
  tried : Nat := 0
  /-- The frame found, and the windows that are still to be closed. -/
  held : Option (Frame × List Scope) := none

/-- How far a wait has come. -/
inductive WaitProgress
  | going (w : Wait)
  | done (result : Except Error Frame) (tried : Nat)

namespace Wait

/-- Starts a wait with what is kept. -/
def start (pred : Frame → Bool) (b : Inbox) : Inbox × WaitProgress :=
  match takeFirst pred b.stash with
  | (some (f, stash), tried) => ({ b with stash }, .done (.ok f) tried)
  | (none, tried) => (b, .going { pred, tried })

/-- Tries a content frame. One that satisfies the condition ends the wait when no window is open. -/
def tryFrame (w : Wait) (b : Inbox) (ev : Event) (f : Frame) (origin : Origin) :
    Inbox × WaitProgress :=
  let w := { w with tried := w.tried + 1 }
  if w.pred f then
    if origin = .live ∨ b.windows = [] then (b, .done (.ok f) w.tried)
    else (b, .going { w with held := some (f, b.windows) })
  else (b.keep ev, .going w)

/-- Passes an event to a wait. -/
def step (w : Wait) (b : Inbox) (ev : Event) : Inbox × WaitProgress :=
  let b := b.observe ev
  match w.held, ev with
  | none, .message f origin =>
    if origin = .push then (b.keep ev, .going w) else w.tryFrame b ev f origin
  | some (f, windows), .syncEnd scope _ _ =>
    let windows := windows.filter (· ≠ scope)
    if windows = [] then (b.keep ev, .done (.ok f) w.tried)
    else (b.keep ev, .going { w with held := some (f, windows) })
  | held, .disconnected _ =>
    match held with
    | some (f, _) => (b.keep ev, .done (.ok f) w.tried)
    | none => (b.keep ev, .done (.error .connectionClosed) w.tried)
  | _, _ => (b.keep ev, .going w)

end Wait

end Parley
