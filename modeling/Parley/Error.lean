import Parley.Wire.Utf8

/-!
# Errors

Every failure of the library is a value of `Error`: its cause, the stable code under which callers
classify it (`Error.code`), and its text (`Error.message`). The causes inside a body, of the
file system and of the configuration have types of their own.
-/

namespace Parley

/-- Why the body of a frame does not fit its command's layout. -/
inductive BodyFault
  | tooShort (needed got : Nat)
  | negativeCount
  | tooManyUids
  | noRoomForToken
  | missingLength (field : String)
  | lengthBeyondEnd (field : String) (length remaining : Nat)
  | notUtf8 (field : String) (fault : Utf8.Fault)
  | described (text : String)
deriving DecidableEq, Repr

/-- The fault in words. -/
def BodyFault.message : BodyFault → String
  | tooShort needed got => s!"need {needed} bytes, got {got}"
  | negativeCount => "negative count"
  | tooManyUids => "too many uids"
  | noRoomForToken => "body shorter than 3 bytes"
  | missingLength field => s!"missing {field} length"
  | lengthBeyondEnd field length remaining =>
    s!"{field} length {length} exceeds remaining {remaining}"
  | notUtf8 field fault => s!"{field} not utf-8: {fault.message}"
  | described text => text

/-- Why a file or a stream could not be used. -/
inductive IoFault
  | notFound
  | notADirectory
  | isADirectory
  | nameTooLong
  | nulInName
  | networkUnreachable
  | notUtf8
  | invalidAddress
  | invalidPort
  | described (text : String)
deriving DecidableEq, Repr

/-- The number and the wording under which the operating system knows a fault. -/
def IoFault.os? : IoFault → Option (Nat × String)
  | notFound => some (2, "No such file or directory")
  | notADirectory => some (20, "Not a directory")
  | isADirectory => some (21, "Is a directory")
  | nameTooLong => some (36, "File name too long")
  | networkUnreachable => some (101, "Network is unreachable")
  | _ => none

def IoFault.message (fault : IoFault) : String :=
  match fault.os?, fault with
  | some (number, wording), _ => s!"{wording} (os error {number})"
  | none, nulInName => "file name contained an unexpected NUL byte"
  | none, notUtf8 => "stream did not contain valid UTF-8"
  | none, invalidAddress => "invalid socket address"
  | none, invalidPort => "invalid port value"
  | none, described text => text
  | none, _ => ""

/-- Why a configuration cannot be used. -/
inductive ConfigFault
  | notYaml
  | notCursors
  | empty (field : String)
  | outOfRange (field : String) (low high : Nat)
  | above (field : String) (high : Nat)
  | tooManyBytes (field : String) (high : Nat)
  | noQueue
  | unset (name : String)
  | described (text : String)
deriving DecidableEq, Repr

/-- The fault in words. -/
def ConfigFault.message : ConfigFault → String
  | notYaml => "invalid yaml"
  | notCursors => "invalid cursor file"
  | empty field => s!"{field} must not be empty"
  | outOfRange field low high => s!"{field} must be between {low} and {high}"
  | above field high => s!"{field} must be at most {high}"
  | tooManyBytes field high => s!"{field} must be at most {high} bytes"
  | noQueue => "delivery queues must hold at least one item"
  | unset name => s!"{name} must be set"
  | described text => text

/-- Why the client itself cannot go on. -/
inductive InternalFault
  | eventsAbandoned
  | configUnreadable (fault : IoFault)
  | overrun
  | described (text : String)
deriving DecidableEq, Repr

/-- The fault in words. -/
def InternalFault.message : InternalFault → String
  | eventsAbandoned => "event receiver dropped"
  | configUnreadable fault => s!"read config failed: {fault.message}"
  | overrun => "read past the end of a body"
  | described text => text

/-- A failure, by its cause. -/
inductive Error
  | io (fault : IoFault)
  | connectionClosed
  | shortRead (needed got : Nat)
  | frameTooLarge (len max : Nat)
  | malformed (command : String) (fault : BodyFault)
  | authFieldTooLong (field : String) (len : Nat)
  | authFailed (status : Int32)
  | unexpectedCommand (expected got : String)
  | notReady
  | timeout (awaited : String)
  | badConfig (fault : ConfigFault)
  | unsupportedVersion
  | internal (fault : InternalFault)
deriving DecidableEq, Repr

namespace Error

/-- The stable classes of failures. -/
inductive Code
  | transport
  | malformed
  | authFailed
  | protocol
  | timeout
  | notReady
  | badConfig
  | unsupportedVersion
  | internal
deriving DecidableEq, Repr

/-- The name of a class. -/
def Code.name : Code → String
  | transport => "TRANSPORT"
  | malformed => "MALFORMED"
  | authFailed => "AUTH_FAILED"
  | protocol => "PROTOCOL"
  | timeout => "TIMEOUT"
  | notReady => "NOT_READY"
  | badConfig => "BAD_CONFIG"
  | unsupportedVersion => "UNSUPPORTED_VERSION"
  | internal => "INTERNAL"

def code : Error → Code
  | io _ | connectionClosed | shortRead .. | frameTooLarge .. => .transport
  | malformed .. | authFieldTooLong .. => .malformed
  | authFailed _ => .authFailed
  | unexpectedCommand .. => .protocol
  | notReady => .notReady
  | timeout _ => .timeout
  | badConfig _ => .badConfig
  | unsupportedVersion => .unsupportedVersion
  | internal _ => .internal

/-- A failure of the transport ends its connection: there is nothing to resynchronise on. -/
def isTransport (e : Error) : Bool := e.code == .transport

def message : Error → String
  | io fault => s!"io: {fault.message}"
  | connectionClosed => "connection closed"
  | shortRead needed got => s!"short read: needed {needed} bytes, got {got}"
  | frameTooLarge len max => s!"frame too large: {len} bytes (max {max})"
  | malformed command fault => s!"malformed {command} body: {fault.message}"
  | authFieldTooLong field len => s!"auth field too long: {field} is {len} bytes"
  | authFailed status => s!"authentication failed (status {status})"
  | unexpectedCommand expected got => s!"unexpected command {got} while waiting for {expected}"
  | notReady => "session not ready"
  | timeout awaited => s!"timed out waiting for {awaited}"
  | badConfig fault => s!"bad config: {fault.message}"
  | unsupportedVersion => "unsupported config version"
  | internal fault => s!"internal: {fault.message}"

end Error

end Parley
