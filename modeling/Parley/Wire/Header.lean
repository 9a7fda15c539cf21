import Parley.Error

/-!
# The header of a frame

Twelve octets stand in front of every body:

    body length (4) | sequence (4) | command | version | flags | reserved

Numbers are big-endian.
-/

namespace Parley

/-- The flag octet of a header. -/
abbrev Flags := UInt8

namespace Flags

/-- The server must not keep the message. -/
def unpersistent : Flags := 0x02

/-- Sent by the server on its own, outside any sync window. -/
def push : Flags := 0x10

def has (flags bits : Flags) : Bool := flags &&& bits != 0

end Flags

/-- What stands in front of a body. -/
structure Header where
  bodyLen : UInt32
  seq : Int32
  cmd : UInt8
  version : UInt8
  flags : Flags
  /-- Zero when sent, ignored when received. -/
  reserved : UInt8
deriving DecidableEq, Repr

namespace Header

/-- The octets of a header. -/
def size : Nat := 12

def encode (h : Header) : Bytes :=
  Bytes.ofUInt32 h.bodyLen ++ Bytes.ofInt32 h.seq ++ [h.cmd, h.version, h.flags, h.reserved]

/-- The header in front of the given octets. -/
def decode (bs : Bytes) : Except Error Header :=
  if bs.length < size then
    .error (.shortRead size bs.length)
  else
    let octet (i : Nat) : UInt8 := bs.getD i 0
    .ok
      { bodyLen := UInt32.ofNat (Bytes.toNat (bs.take 4))
        seq := (UInt32.ofNat (Bytes.toNat ((bs.drop 4).take 4))).toInt32
        cmd := octet 8
        version := octet 9
        flags := octet 10
        reserved := octet 11 }

end Header

end Parley
