import Parley.Wire.Message

/-!
# Frames

A frame is a header and a body. Octets become frames in two steps: `RawFrame` is a frame whose
body is still octets, cut out by the length in its header; its `decode` reads the body. Octets that
end inside a frame are a failure of the transport and not of the body.
-/

namespace Parley

/-- The version of the protocol that the client speaks unless told otherwise. -/
def defaultVersion : UInt8 := 2

/-- A message with the fields of its header that are not computed. -/
structure Frame where
  seq : Int32
  version : UInt8 := defaultVersion
  flags : Flags := 0
  message : Message
deriving DecidableEq, Repr

/-- A header and the octets of its body. -/
structure RawFrame where
  header : Header
  body : Bytes
deriving DecidableEq, Repr

namespace RawFrame

/-- The octets of a frame whose header is taken as it stands. -/
def encode (raw : RawFrame) : Bytes := raw.header.encode ++ raw.body

def decode (raw : RawFrame) : Except Error Frame := do
  let h := raw.header
  let message ← Message.decode h.cmd h.version h.flags raw.body
  return { seq := h.seq, version := h.version, flags := h.flags, message }

end RawFrame

namespace Frame

/-- Whether the server sent the frame on its own, outside any sync window. -/
def isPush (f : Frame) : Bool := f.flags.has Flags.push

/-- The header of a frame whose body has the given length. -/
def header (f : Frame) (bodyLen : Nat) : Header where
  bodyLen := UInt32.ofNat bodyLen
  seq := f.seq
  cmd := f.message.cmd
  version := f.version
  flags := f.flags ||| f.message.impliedFlags
  reserved := 0

/-- The longest body that a header can announce. -/
def maxBodyLen : Nat := 0xffffffff

/-- Appends a frame to a buffer. Room for the header is made first; the header is filled in when
the length of the body is known. A body that cannot be written is cut off again. -/
def encodeInto (buffer : Bytes) (f : Frame) : Except Error Unit × Bytes :=
  let start := buffer.length
  match (f.message.write f.version).runOn (buffer ++ List.replicate Header.size 0) with
  | (.error e, written) => (.error e, written.take start)
  | (.ok (), written) =>
    let body := written.drop (start + Header.size)
    if maxBodyLen < body.length then
      (.error (.frameTooLarge body.length maxBodyLen), written)
    else
      (.ok (), written.take start ++ (f.header body.length).encode ++ body)

def encode (f : Frame) : Except Error Bytes :=
  match encodeInto [] f with
  | (.ok (), written) => .ok written
  | (.error e, _) => .error e

/-- The frame in front of the given octets; what follows it is ignored. -/
def decode (bs : Bytes) : Except Error Frame := do
  let header ← Header.decode bs
  let behind := bs.drop Header.size
  let body := behind.take header.bodyLen.toNat
  if body.length < header.bodyLen.toNat then
    throw (.shortRead header.bodyLen.toNat behind.length)
  RawFrame.decode { header, body }

end Frame

/-- What becomes of a buffer when a frame is cut off its front. -/
inductive Cut
  | needMore
  | tooLarge (len max : Nat)
  | frame (raw : RawFrame) (rest : Bytes)
deriving DecidableEq, Repr

/-- Cuts one frame off the front of a buffer if it is complete. A body beyond the bound is refused
as soon as the header is there. -/
def cut (maxBody : Nat) (buffer : Bytes) : Cut :=
  match Header.decode buffer with
  | .error _ => .needMore
  | .ok header =>
    let len := header.bodyLen.toNat
    if maxBody < len then
      .tooLarge len maxBody
    else
      let behind := buffer.drop Header.size
      let body := behind.take len
      if body.length < len then .needMore else .frame { header, body } (behind.drop len)

end Parley
