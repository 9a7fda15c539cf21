import Parley.Error
import Parley.Text.Blank

/-!
# Configuration

What a client has to know before it can connect. Fields that a document leaves out have the values
given here. `Config.fault?` names the first field that cannot be used, in the order of the sections.
-/

namespace Parley

namespace Config

/-- How to reach the server. Times are in milliseconds. -/
structure Connection where
  addr : String := "127.0.0.1:23000"
  connectTimeout : Nat := 10000
  authTimeout : Nat := 10000
  protocolVersion : UInt8 := 2
  maxBody : Nat := 32768
deriving DecidableEq, Repr

/-- Who connects. -/
structure Device where
  platformId : UInt8 := 2
  deviceId : String
deriving DecidableEq, Repr

/-- When a silent link gets a ping, in milliseconds. -/
structure Keepalive where
  idleInterval : Nat := 60000
deriving DecidableEq, Repr

/-- How long a receipt is waited for, in milliseconds, and how much is queued. -/
structure Delivery where
  ackTimeout : Nat := 10000
  outboundQueue : Nat := 1024
  eventQueue : Nat := 1024
deriving DecidableEq, Repr

/-- Where cursors are kept, and which groups are followed from the first connection on. -/
structure Sync where
  cursorFile : Option String := none
  groups : List Int64 := []
deriving DecidableEq, Repr

/-- The only version of the document there is. -/
def supportedVersion : Nat := 1

/-- The highest version of the protocol that the client speaks. -/
def maxProtocolVersion : UInt8 := 2

/-- The fault of a number outside its bounds. -/
def outside (field : String) (low high n : Nat) : Option ConfigFault :=
  if low ≤ n ∧ n ≤ high then none else some (.outOfRange field low high)

namespace Connection

def fault? (c : Connection) : Option ConfigFault :=
  (if Text.isAllBlank c.addr then some (.empty "connection.addr") else none)
    <|> outside "connection.connect_timeout_ms" 100 120000 c.connectTimeout
    <|> outside "connection.auth_timeout_ms" 100 120000 c.authTimeout
    <|> (if c.protocolVersion ≤ maxProtocolVersion then none
      else some (.above "connection.protocol_version" maxProtocolVersion.toNat))
    <|> outside "connection.max_body_bytes" 1 33554432 c.maxBody

end Connection

namespace Device

def fault? (d : Device) : Option ConfigFault :=
  outside "device.platform_id" 1 4 d.platformId.toNat
    <|> (if d.deviceId.isEmpty then some (.empty "device.device_id") else none)
    <|> (if d.deviceId.utf8ByteSize ≤ 255 then none
      else some (.tooManyBytes "device.device_id" 255))

end Device

namespace Delivery

def fault? (d : Delivery) : Option ConfigFault :=
  outside "delivery.ack_timeout_ms" 100 300000 d.ackTimeout
    <|> (if d.outboundQueue = 0 ∨ d.eventQueue = 0 then some .noQueue else none)

end Delivery

end Config

/-- What a client has to know before it can connect. -/
structure Config where
  version : Nat
  connection : Config.Connection := {}
  device : Config.Device
  keepalive : Config.Keepalive := {}
  delivery : Config.Delivery := {}
  sync : Config.Sync := {}
deriving DecidableEq, Repr

namespace Config

/-- The first field that cannot be used. -/
def fault? (c : Config) : Option ConfigFault :=
  c.connection.fault? <|> c.device.fault?
    <|> outside "keepalive.idle_interval_ms" 5000 600000 c.keepalive.idleInterval
    <|> c.delivery.fault?

/-- Accepts a configuration that a client can use. -/
def validate (c : Config) : Except Error Unit :=
  if c.version ≠ supportedVersion then
    .error .unsupportedVersion
  else
    match c.fault? with
    | some fault => .error (.badConfig fault)
    | none => .ok ()

end Config

end Parley
