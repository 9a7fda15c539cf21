import Parley.Transport.Stream

/-!
# Frames from a stream

A reader keeps what it has taken from the stream and not yet cut into frames. A reader that has to
wait has lost nothing, so asking may be given up and taken up again at any time.
-/

namespace Parley

/-- A stream and what has been taken from it. -/
structure FrameReader where
  maxBody : Nat
  inbound : Inbound := {}
  buffer : Bytes := []
deriving DecidableEq, Repr

namespace FrameReader

/-- Octets arrive on the stream. -/
def arrive (r : FrameReader) (bs : Bytes) : FrameReader :=
  { r with inbound := r.inbound.arrive bs }

/-- What the end of the stream means: it is regular between two frames, and cuts a frame short
elsewhere. -/
def endError (r : FrameReader) : Error :=
  if r.buffer.isEmpty then
    .connectionClosed
  else
    match Header.decode r.buffer with
    | .ok h => .shortRead (Header.size + h.bodyLen.toNat) r.buffer.length
    | .error _ => .shortRead Header.size r.buffer.length

/-- Takes all that has arrived from the stream. -/
def refill (r : FrameReader) : FrameReader :=
  { r with inbound := { r.inbound with waiting := [] }, buffer := r.buffer ++ r.inbound.waiting }

/-- The next frame out of what has been taken. -/
def cutNext (r : FrameReader) : Poll RawFrame × FrameReader :=
  match cut r.maxBody r.buffer with
  | .frame raw rest => (some (.ok raw), { r with buffer := rest })
  | .tooLarge len max => (some (.error (.frameTooLarge len max)), r)
  | .needMore => (none, r)

/-- The next frame, its body as octets. The stream is asked only when what has been taken holds no
frame. -/
def nextRaw (r : FrameReader) : Poll RawFrame × FrameReader :=
  match r.cutNext with
  | (some answer, r) => (some answer, r)
  | (none, r) =>
    match r.refill.cutNext with
    | (some answer, r) => (some answer, r)
    | (none, r) => (r.inbound.stalled r.endError, r)

/-- The next frame, its body read. A frame whose body is refused has been taken. -/
def nextFrame (r : FrameReader) : Poll Frame × FrameReader :=
  let (answer, r) := r.nextRaw
  (answer.map fun a => a.bind RawFrame.decode, r)

end FrameReader

end Parley
