/-!
# Keepalive

A link that brings nothing for a whole interval gets a ping. Every frame that arrives moves the
deadline; a ping does so too, so that a silent link sees one ping per interval. Times are in
milliseconds.
-/

namespace Parley

/-- The deadline of a link, and how many pings it has seen. -/
structure Keepalive where
  interval : Nat
  deadline : Nat
  pingsSent : Nat := 0
deriving DecidableEq, Repr

namespace Keepalive

/-- The keepalive of a link that starts now. -/
def start (interval now : Nat) : Keepalive := { interval, deadline := now + interval }

/-- A frame has arrived, whatever it holds. -/
def onFrame (k : Keepalive) (now : Nat) : Keepalive := { k with deadline := now + k.interval }

/-- The deadline may have passed. Tells whether a ping is due. -/
def onIdle (k : Keepalive) (now : Nat) : Keepalive × Bool :=
  if now < k.deadline then
    (k, false)
  else
    ({ k with deadline := now + k.interval, pingsSent := k.pingsSent + 1 }, true)

end Keepalive

end Parley
