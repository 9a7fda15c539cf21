import Parley.Config
import Parley.Yaml.Value

/-!
# The document of a configuration

A configuration is written as a YAML mapping, with a mapping for each of its sections. Names that it
does not know are refused, so that a misspelt name is not taken for a default. `Config.parse` reads
a document and accepts the configurations that a client can use.
-/

namespace Parley.Config

open Yaml

def Connection.ofNode? (d : Document) (n : Node) : Option Connection := do
  let fields ← d.record?
    ["addr", "connect_timeout_ms", "auth_timeout_ms", "protocol_version", "max_body_bytes"] n
  let number (name : String) := field? fields name (d.natBelow? UInt64.size)
  let octet (name : String) := field? fields name (d.natBelow? UInt8.size)
  let defaults : Connection := {}
  return {
    addr := ← field? fields "addr" d.text? defaults.addr
    connectTimeout := ← number "connect_timeout_ms" defaults.connectTimeout
    authTimeout := ← number "auth_timeout_ms" defaults.authTimeout
    protocolVersion :=
      UInt8.ofNat (← octet "protocol_version" defaults.protocolVersion.toNat)
    maxBody := ← number "max_body_bytes" defaults.maxBody }

def Device.ofNode? (d : Document) (n : Node) : Option Device := do
  let fields ← d.record? ["platform_id", "device_id"] n
  let octet (name : String) := field? fields name (d.natBelow? UInt8.size)
  let defaults : Device := { deviceId := "" }
  return {
    platformId := UInt8.ofNat (← octet "platform_id" defaults.platformId.toNat)
    deviceId := ← required? fields "device_id" d.text? }

def Keepalive.ofNode? (d : Document) (n : Node) : Option Keepalive := do
  let fields ← d.record? ["idle_interval_ms"] n
  let number (name : String) := field? fields name (d.natBelow? UInt64.size)
  let defaults : Keepalive := {}
  return { idleInterval := ← number "idle_interval_ms" defaults.idleInterval }

def Delivery.ofNode? (d : Document) (n : Node) : Option Delivery := do
  let fields ← d.record? ["ack_timeout_ms", "outbound_queue", "event_queue"] n
  let number (name : String) := field? fields name (d.natBelow? UInt64.size)
  let defaults : Delivery := {}
  return {
    ackTimeout := ← number "ack_timeout_ms" defaults.ackTimeout
    outboundQueue := ← number "outbound_queue" defaults.outboundQueue
    eventQueue := ← number "event_queue" defaults.eventQueue }

def Sync.ofNode? (d : Document) (n : Node) : Option Sync := do
  let fields ← d.record? ["cursor_file", "groups"] n
  return {
    cursorFile := ← field? fields "cursor_file" d.optionalText? none
    groups := ← field? fields "groups" (fun n => do (← d.items? n).mapM d.int64?) [] }

def ofDocument? (d : Document) : Option Config := do
  let fields ← d.record? ["version", "connection", "device", "keepalive", "delivery", "sync"] d.root
  return {
    version := ← required? fields "version" (d.natBelow? UInt32.size)
    connection := ← field? fields "connection" (Connection.ofNode? d) {}
    device := ← required? fields "device" (Device.ofNode? d)
    keepalive := ← field? fields "keepalive" (Keepalive.ofNode? d) {}
    delivery := ← field? fields "delivery" (Delivery.ofNode? d) {}
    sync := ← field? fields "sync" (Sync.ofNode? d) {} }

/-- The configuration of a text, if a client can use it. -/
def parse (s : String) : Except Error Config :=
  match (Document.ofString? s).bind ofDocument? with
  | none => .error (.badConfig .notYaml)
  | some c => c.validate.map fun _ => c

end Parley.Config
