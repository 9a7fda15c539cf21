import Parley.Wire.AuthToken
import Parley.Wire.Body
import Parley.Wire.Command
import Parley.Wire.Header

/-!
# Messages

A message is a body together with the command that selects its layout. A command outside the table
is no failure: its body is kept as it came, so that the stream stays synchronised.
-/

namespace Parley

/-- A body and its command. -/
inductive Message
  | signal (kind : Signal)
  | authToken (auth : AuthToken)
  | authStatus (status : Int32)
  | chat (audience : Audience) (m : ChatMessage)
  | ack (a : Ack)
  | notice (kind : Notice) (body : Bytes)
  | peerAck (p : PeerAck)
  | typing (t : Typing)
  | subscribePresence (s : Subscription)
  | presenceUpdate (p : Presence)
  | loginPoint (l : LoginPoint)
  | transient (venue : Venue) (m : TransientMessage)
  | room (passage : Passage) (id : Int64)
  | unreadCount (count : Int32)
  | customer (desk : Desk) (m : CustomerMessage)
  | sync (verb : SyncVerb) (point : SyncPoint)
  | metadata (m : Metadata)
  | unknown (cmd : UInt8) (body : Bytes)
deriving DecidableEq, Repr

namespace Message

/-- The command of a message, unless it is unknown. -/
def command? : Message → Option Command
  | signal kind => some (.signal kind)
  | authToken _ => some .authToken
  | authStatus _ => some .authStatus
  | chat audience _ => some (.chat audience)
  | ack _ => some .ack
  | notice kind _ => some (.notice kind)
  | peerAck _ => some .peerAck
  | typing _ => some .typing
  | subscribePresence _ => some .subscribePresence
  | presenceUpdate _ => some .presenceUpdate
  | loginPoint _ => some .loginPoint
  | transient venue _ => some (.transient venue)
  | room passage _ => some (.room passage)
  | unreadCount _ => some .unreadCount
  | customer desk _ => some (.customer desk)
  | sync verb point => some (.sync verb point.scope.group?.isSome)
  | metadata _ => some .metadata
  | unknown .. => none

/-- The command octet of the header. -/
def cmd (m : Message) : UInt8 :=
  match m, m.command? with
  | unknown cmd _, _ => cmd
  | _, some c => c.code
  | _, none => 0

def name (m : Message) : String :=
  match m.command? with
  | some c => c.name
  | none => s!"unknown({m.cmd})"

/-- The flags that follow from the body and are added to the header's own. -/
def impliedFlags : Message → Flags
  | customer _ m => if m.persistent then 0 else Flags.unpersistent
  | _ => 0

/-- Whether the server keeps the message until its sequence is acknowledged. -/
def requiresReceipt (m : Message) : Bool :=
  m.command?.any Command.requiresReceipt

/-- Writes the body of a message in a version of the protocol. -/
def write (version : UInt8) : Message → Writing Unit
  | signal _ => pure ()
  | authToken auth => auth.write
  | authStatus status => Writing.append (Bytes.ofInt32 status)
  | chat _ m => Writing.append (m.encode version)
  | ack a => Writing.append (a.encode version)
  | notice _ body => Writing.append body
  | peerAck p => Writing.append p.encode
  | typing t => Writing.append t.encode
  | subscribePresence s => s.write
  | presenceUpdate p => Writing.append p.encode
  | loginPoint l => Writing.append l.encode
  | transient _ m => Writing.append m.encode
  | room _ id => Writing.append (Bytes.ofInt64 id)
  | unreadCount count => Writing.append (Bytes.ofInt32 count)
  | customer _ m => Writing.append m.encode
  | sync _ point => Writing.append point.encode
  | metadata m => Writing.append m.encode
  | unknown _ body => Writing.append body

/-- Reads the body of a command. Version and flags are those of the header. -/
def read (version : UInt8) (flags : Flags) : Command → Reading Message
  | .signal kind => return signal kind
  | .authToken => return authToken (← AuthToken.read)
  | .authStatus => do
    Reading.need 4
    return authStatus (← Reading.int32)
  | .chat audience => return chat audience (← ChatMessage.read version)
  | .ack => return ack (← Ack.read version)
  | .notice kind => return notice kind (← Reading.rest)
  | .peerAck => return peerAck (← PeerAck.read)
  | .typing => return typing (← Typing.read)
  | .subscribePresence => return subscribePresence (← Subscription.read)
  | .presenceUpdate => return presenceUpdate (← Presence.read)
  | .loginPoint => return loginPoint (← LoginPoint.read)
  | .transient venue => return transient venue (← TransientMessage.read)
  | .room passage => do
    Reading.need 8
    return room passage (← Reading.int64)
  | .unreadCount => do
    Reading.need 4
    return unreadCount (← Reading.int32)
  | .customer desk => do
    return customer desk (← CustomerMessage.read (!flags.has Flags.unpersistent))
  | .sync verb grouped => return sync verb (← SyncPoint.read grouped)
  | .metadata => return metadata (← Metadata.read)

/-- The message of a command octet and a body. -/
def decode (cmd : UInt8) (version : UInt8) (flags : Flags) (body : Bytes) :
    Except Error Message :=
  match Command.ofCode? cmd with
  | none => .ok (unknown cmd body)
  | some command => (read version flags command).runOn command.name body

end Message

end Parley
