import Parley.Transport.FrameReader

/-!
# A link to the server

A link is an open stream seen by the client: the frames it brings, and the frames written to it.
-/

namespace Parley

/-- Both directions of an open stream, and what has been written to it. -/
structure Link where
  reader : FrameReader
  outbound : Outbound := {}
  written : List Bytes := []
deriving DecidableEq, Repr

/-- What can happen to a link from outside. -/
inductive LinkEvent
  | arrive (bs : Bytes)
  | ended
  | readFails (fault : IoFault)
  | writeFails (fault : IoFault)
  | block
  | unblock
  /-- So much goes out although writes fail or wait. -/
  | loosen (slack : Nat)
deriving DecidableEq, Repr

namespace Link

/-- A fresh link that accepts bodies up to a bound. -/
def fresh (maxBody : Nat) : Link := { reader := { maxBody } }

def mapInbound (l : Link) (f : Inbound → Inbound) : Link :=
  { l with reader := { l.reader with inbound := f l.reader.inbound } }

def happen (l : Link) : LinkEvent → Link
  | .arrive bs => l.mapInbound (·.arrive bs)
  | .ended => l.mapInbound fun i => { i with ended := true }
  | .readFails fault => l.mapInbound fun i => { i with failure := some fault }
  | .writeFails fault => { l with outbound := { l.outbound with failure := some fault } }
  | .block => { l with outbound := { l.outbound with blocked := true } }
  | .unblock => { l with outbound := { l.outbound with blocked := false } }
  | .loosen slack => { l with outbound := { l.outbound with slack } }

/-- Writes octets as far as that is possible now. Tells also what is left of them. -/
def write (l : Link) (bs : Bytes) : Poll Unit × Bytes × Link :=
  let (answer, count, outbound) := l.outbound.write bs.length
  let front := bs.take count
  (answer, bs.drop count,
    { l with outbound, written := if front = [] then l.written else l.written ++ [front] })

/-- Encodes and writes a frame. One that cannot be encoded leaves the link alone. -/
def send (l : Link) (f : Frame) : Poll Unit × Link :=
  match f.encode with
  | .ok bs =>
    let (answer, _, l) := l.write bs
    (answer, l)
  | .error e => (some (.error e), l)

/-- Announces that no write follows. -/
def shutdown (l : Link) : Link := { l with outbound := { l.outbound with isShutdown := true } }

def nextRaw (l : Link) : Poll RawFrame × Link :=
  let (answer, reader) := l.reader.nextRaw
  (answer, { l with reader })

/-- The next frame, its body read. -/
def nextFrame (l : Link) : Poll Frame × Link :=
  let (answer, reader) := l.reader.nextFrame
  (answer, { l with reader })

end Link

end Parley
