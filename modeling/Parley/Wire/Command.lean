import Parley.Wire.Bytes

/-!
# Commands

The command octet of a header selects the layout of the body. Commands that share a layout are
one family here, told apart by a tag. Main statement: `Command.ofCode?_code`, which says that the
table of octets has no octet twice.
-/

namespace Parley

/-- Commands without a body. -/
inductive Signal
  | heartbeat
  | reset
  | ping
  | pong
deriving DecidableEq, Repr

/-- Where a persistent message is addressed. -/
inductive Audience
  | peer
  | group
deriving DecidableEq, Repr

/-- Bodies that the client hands on without looking into them. -/
inductive Notice
  | groupNotification
  | system
  | notification
deriving DecidableEq, Repr

/-- Where a message that nobody keeps is addressed. -/
inductive Venue
  | peer
  | room
deriving DecidableEq, Repr

/-- Coming into a room and going out of it. -/
inductive Passage
  | enter
  | leave
deriving DecidableEq, Repr

/-- The side from which a message between a customer and a shop comes. -/
inductive Desk
  | customer
  | support
deriving DecidableEq, Repr

/-- What a sync frame does with the key it carries. -/
inductive SyncVerb
  | request
  | opened
  | ended
  | notify
  | confirm
deriving DecidableEq, Repr

/-- The commands that the client understands. -/
inductive Command
  | signal (kind : Signal)
  | authToken
  | authStatus
  | chat (audience : Audience)
  | ack
  | notice (kind : Notice)
  | peerAck
  | typing
  | subscribePresence
  | presenceUpdate
  | loginPoint
  | transient (venue : Venue)
  | room (passage : Passage)
  | unreadCount
  | customer (desk : Desk)
  | sync (verb : SyncVerb) (grouped : Bool)
  | metadata
deriving DecidableEq, Repr

namespace Command

/-- The octet of a command. -/
def code : Command → UInt8
  | signal .heartbeat => 1
  | authStatus => 3
  | chat .peer => 4
  | ack => 5
  | signal .reset => 6
  | notice .groupNotification => 7
  | chat .group => 8
  | peerAck => 9
  | typing => 10
  | subscribePresence => 11
  | presenceUpdate => 12
  | signal .ping => 13
  | signal .pong => 14
  | authToken => 15
  | loginPoint => 16
  | transient .peer => 17
  | room .enter => 18
  | room .leave => 19
  | transient .room => 20
  | notice .system => 21
  | unreadCount => 22
  | customer .customer => 24
  | customer .support => 25
  | sync .request false => 26
  | sync .opened false => 27
  | sync .ended false => 28
  | sync .notify false => 29
  | sync .request true => 30
  | sync .opened true => 31
  | sync .ended true => 32
  | sync .notify true => 33
  | sync .confirm false => 34
  | sync .confirm true => 35
  | notice .notification => 36
  | metadata => 37

/-- The name of a command in errors and logs. -/
def name : Command → String
  | signal .heartbeat => "heartbeat"
  | authStatus => "auth_status"
  | chat .peer => "im"
  | ack => "ack"
  | signal .reset => "rst"
  | notice .groupNotification => "group_notification"
  | chat .group => "group_im"
  | peerAck => "peer_ack"
  | typing => "typing"
  | subscribePresence => "subscribe_presence"
  | presenceUpdate => "presence_update"
  | signal .ping => "ping"
  | signal .pong => "pong"
  | authToken => "auth_token"
  | loginPoint => "login_point"
  | transient .peer => "rt"
  | room .enter => "enter_room"
  | room .leave => "leave_room"
  | transient .room => "room_im"
  | notice .system => "system"
  | unreadCount => "unread_count"
  | customer .customer => "customer"
  | customer .support => "customer_support"
  | sync .request false => "sync"
  | sync .opened false => "sync_begin"
  | sync .ended false => "sync_end"
  | sync .notify false => "sync_notify"
  | sync .request true => "sync_group"
  | sync .opened true => "sync_group_begin"
  | sync .ended true => "sync_group_end"
  | sync .notify true => "sync_group_notify"
  | sync .confirm false => "sync_key"
  | sync .confirm true => "group_sync_key"
  | notice .notification => "notification"
  | metadata => "metadata"

/-- All commands, in the order of their octets. -/
def all : List Command :=
  [signal .heartbeat, authStatus, chat .peer, ack, signal .reset, notice .groupNotification,
    chat .group, peerAck, typing, subscribePresence, presenceUpdate, signal .ping, signal .pong,
    authToken, loginPoint, transient .peer, room .enter, room .leave, transient .room,
    notice .system, unreadCount, customer .customer, customer .support, sync .request false,
    sync .opened false, sync .ended false, sync .notify false, sync .request true,
    sync .opened true, sync .ended true, sync .notify true, sync .confirm false,
    sync .confirm true, notice .notification, metadata]

/-- The command of an octet, if the table has it. -/
def ofCode? (code : UInt8) : Option Command :=
  all.find? (·.code == code)

/-- The command of a name, if the table has it. -/
def ofName? (name : String) : Option Command :=
  all.find? (·.name == name)

/-- Persistent content, which the server keeps until the client acknowledges its sequence. -/
def requiresReceipt : Command → Bool
  | chat _ | peerAck | customer _ => true
  | notice .groupNotification | notice .system => true
  | _ => false

theorem mem_all (c : Command) : c ∈ all := by
  cases c <;> first | decide | (rename_i t; cases t <;> decide) |
    (rename_i t g; cases t <;> cases g <;> decide)

theorem ofCode?_code (c : Command) : ofCode? c.code = some c := by
  have h : ∀ c ∈ all, ofCode? c.code = some c := by decide
  exact h c (mem_all c)

theorem code_of_ofCode? {code : UInt8} {c : Command} (h : ofCode? code = some c) :
    c.code = code := by
  simpa using List.find?_some h

end Command

end Parley
