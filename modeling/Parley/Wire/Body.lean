import Parley.Scope
import Parley.Wire.Reading
import Parley.Wire.Writing

/-!
# Bodies of fixed layout

Each body has a front of fixed width; where the layout ends in content, the content is all that
follows. Reading refuses a body that is shorter than its front. Every type here has its octets
(`encode`) and its reading (`read`).
-/

namespace Parley

/-- A persistent message to a peer or a group. Timestamp and number are provisional until the server
stamps them. -/
structure ChatMessage where
  sender : Int64
  receiver : Int64
  /-- Not on the wire in version 0. -/
  timestamp : Int32
  msgid : Int32
  content : Bytes
deriving DecidableEq, Repr

namespace ChatMessage

/-- The octets of a message in a version of the protocol. -/
def encode (version : UInt8) (m : ChatMessage) : Bytes :=
  Bytes.ofInt64 m.sender ++ Bytes.ofInt64 m.receiver ++
    (if version = 0 then [] else Bytes.ofInt32 m.timestamp) ++
    Bytes.ofInt32 m.msgid ++ m.content

/-- Reads a message of a version of the protocol. -/
def read (version : UInt8) : Reading ChatMessage := do
  Reading.need (if version = 0 then 20 else 24)
  let sender ← Reading.int64
  let receiver ← Reading.int64
  let timestamp ← if version = 0 then pure 0 else Reading.int32
  let msgid ← Reading.int32
  let content ← Reading.rest
  return { sender, receiver, timestamp, msgid, content }

end ChatMessage

/-- The server's receipt for a frame of the client. -/
structure Ack where
  seq : Int32
  /-- On the wire from version 2 on; zero otherwise. -/
  status : Int8
deriving DecidableEq, Repr

namespace Ack

/-- The receipt of a frame that arrived well. -/
def success (seq : Int32) : Ack := ⟨seq, 0⟩

def isSuccess (a : Ack) : Bool := a.status == 0

/-- The octets of a receipt in a version of the protocol. -/
def encode (version : UInt8) (a : Ack) : Bytes :=
  Bytes.ofInt32 a.seq ++ (if version > 1 then [a.status.toUInt8] else [])

/-- Reads a receipt. A short one is accepted in every version. -/
def read (version : UInt8) : Reading Ack := do
  Reading.need 4
  let seq ← Reading.int32
  let left ← Reading.remaining
  let status ← if version > 1 ∧ left ≠ 0 then Reading.int8 else pure 0
  return { seq, status }

end Ack

/-- The recipient's notice that a message reached it. -/
structure PeerAck where
  sender : Int64
  receiver : Int64
  msgid : Int32
deriving DecidableEq, Repr

namespace PeerAck

/-- The octets of a notice. -/
def encode (p : PeerAck) : Bytes :=
  Bytes.ofInt64 p.sender ++ Bytes.ofInt64 p.receiver ++ Bytes.ofInt32 p.msgid

def read : Reading PeerAck := do
  Reading.need 20
  let sender ← Reading.int64
  let receiver ← Reading.int64
  let msgid ← Reading.int32
  return { sender, receiver, msgid }

end PeerAck

/-- Somebody is typing to somebody. -/
structure Typing where
  sender : Int64
  receiver : Int64
deriving DecidableEq, Repr

namespace Typing

/-- The octets of a typing notice. -/
def encode (t : Typing) : Bytes :=
  Bytes.ofInt64 t.sender ++ Bytes.ofInt64 t.receiver

def read : Reading Typing := do
  Reading.need 16
  let sender ← Reading.int64
  let receiver ← Reading.int64
  return { sender, receiver }

end Typing

/-- Whose presence the client wants to follow. -/
structure Subscription where
  uids : List Int64
deriving DecidableEq, Repr

namespace Subscription

/-- The greatest number of users that the counter can state. -/
def maxUids : Nat := 0x7fffffff

/-- Writes the number of users and the users. -/
def write (s : Subscription) : Writing Unit :=
  if s.uids.length ≤ maxUids then
    Writing.append (Bytes.ofInt32 (Int32.ofNat s.uids.length) ++ s.uids.flatMap Bytes.ofInt64)
  else
    throw (.malformed "subscribe_presence" .tooManyUids)

/-- Reads as many users as the counter states; what follows them is left alone. -/
def read : Reading Subscription := do
  Reading.need 4
  let count ← Reading.int32
  if count < 0 then Reading.refuse .negativeCount
  let count := count.toInt.toNat
  Reading.need (count * 8)
  return { uids := ← Reading.int64s count }

end Subscription

/-- Whether a user is there. -/
structure Presence where
  uid : Int64
  online : Int32
deriving DecidableEq, Repr

namespace Presence

/-- Whether the user is there. -/
def isOnline (p : Presence) : Bool := p.online != 0

def encode (p : Presence) : Bytes :=
  Bytes.ofInt64 p.uid ++ Bytes.ofInt32 p.online

def read : Reading Presence := do
  Reading.need 12
  let uid ← Reading.int64
  let online ← Reading.int32
  return { uid, online }

end Presence

/-- Another device of the same user came in. -/
structure LoginPoint where
  upTimestamp : Int32
  platformId : UInt8
  deviceId : String
deriving DecidableEq, Repr

namespace LoginPoint

/-- The octets of a login. -/
def encode (l : LoginPoint) : Bytes :=
  Bytes.ofInt32 l.upTimestamp ++ l.platformId :: Bytes.ofString l.deviceId

/-- Reads a login; the device is all that follows the front. -/
def read : Reading LoginPoint := do
  Reading.need 5
  let upTimestamp ← Reading.int32
  let platformId ← Reading.octet
  let deviceId ← Reading.text "device id" (← Reading.rest)
  return { upTimestamp, platformId, deviceId }

end LoginPoint

/-- A message that nobody keeps, to a peer or a room. -/
structure TransientMessage where
  sender : Int64
  receiver : Int64
  content : Bytes
deriving DecidableEq, Repr

namespace TransientMessage

/-- The octets of a message. -/
def encode (m : TransientMessage) : Bytes :=
  Bytes.ofInt64 m.sender ++ Bytes.ofInt64 m.receiver ++ m.content

def read : Reading TransientMessage := do
  Reading.need 16
  let sender ← Reading.int64
  let receiver ← Reading.int64
  let content ← Reading.rest
  return { sender, receiver, content }

end TransientMessage

/-- A message between a customer and a shop. -/
structure CustomerMessage where
  appId : Int64
  customerId : Int64
  storeId : Int64
  sellerId : Int64
  timestamp : Int32
  /-- Not in the body: the header says so by a flag. -/
  persistent : Bool
  content : Bytes
deriving DecidableEq, Repr

namespace CustomerMessage

/-- The octets of a message. -/
def encode (m : CustomerMessage) : Bytes :=
  Bytes.ofInt64 m.appId ++ Bytes.ofInt64 m.customerId ++ Bytes.ofInt64 m.storeId ++
    Bytes.ofInt64 m.sellerId ++ Bytes.ofInt32 m.timestamp ++ m.content

/-- Reads a message whose header says whether it is persistent. -/
def read (persistent : Bool) : Reading CustomerMessage := do
  Reading.need 36
  let appId ← Reading.int64
  let customerId ← Reading.int64
  let storeId ← Reading.int64
  let sellerId ← Reading.int64
  let timestamp ← Reading.int32
  let content ← Reading.rest
  return { appId, customerId, storeId, sellerId, timestamp, persistent, content }

end CustomerMessage

/-- A scope and a key in it, as sync frames carry them. -/
structure SyncPoint where
  scope : Scope
  key : Int64
deriving DecidableEq, Repr

namespace SyncPoint

/-- The octets of a point: the group, if the scope is one, and the key. -/
def encode (p : SyncPoint) : Bytes :=
  match p.scope with
  | .direct => Bytes.ofInt64 p.key
  | .group id => Bytes.ofInt64 id ++ Bytes.ofInt64 p.key

/-- Reads a point of the direct inbox or of a group. -/
def read (grouped : Bool) : Reading SyncPoint := do
  if grouped then
    Reading.need 16
    let id ← Reading.int64
    let key ← Reading.int64
    return { scope := .group id, key }
  else
    Reading.need 8
    let key ← Reading.int64
    return { scope := .direct, key }

end SyncPoint

/-- The place of a delivered message among the keys of its scope. -/
structure Metadata where
  syncKey : Int64
  prevSyncKey : Int64
deriving DecidableEq, Repr

namespace Metadata

/-- Octets without meaning behind the keys. -/
def padding : Nat := 16

def encode (m : Metadata) : Bytes :=
  Bytes.ofInt64 m.syncKey ++ Bytes.ofInt64 m.prevSyncKey ++ List.replicate padding 0

/-- Reads a place; the padding has to be there and may hold anything. -/
def read : Reading Metadata := do
  Reading.need (16 + padding)
  let syncKey ← Reading.int64
  let prevSyncKey ← Reading.int64
  return { syncKey, prevSyncKey }

end Metadata

end Parley
