import Parley.Delivery.Tracker
import Parley.Session.Event
import Parley.Store.CursorStore
import Parley.Sync.Engine

/-!
# What an inbound frame means

`dispatch` takes a frame whose body is still octets. A body that cannot be read is dropped: framing
is intact and only this body unusable. Otherwise sync frames move the engine, receipts settle a
waiter, and what remains to be done in order is a list of duties. Persistent content is receipted
before it is handed on. The end of a window takes three steps, between which others may use the
engine: the window is closed, the cursors are stored, and the engine is told whether they are.
-/

namespace Parley

/-- What remains to be done for a frame. -/
inductive Duty
  | send (m : Message)
  /-- Hand a content frame to the application. Its origin is that of the moment this happens. -/
  | deliver (f : Frame)
  | announce (ev : Event)
  | persist (scope : Scope) (key : Int64) (cursors : Cursors)
  | commit (scope : Scope) (key : Int64) (persisted : Bool)
deriving DecidableEq

/-- What outlives the connections of a client: its sync engine and its store. -/
structure Progress where
  engine : Engine
  store : CursorStore
deriving DecidableEq

namespace Progress

/-- The server has closed a window: the cursors are to be stored, unless its key moves none. -/
def syncClosed (p : Progress) (scope : Scope) (key : Int64) : Progress × List Duty :=
  let (engine, snapshot) := p.engine.handleEnd scope key
  ({ p with engine },
    match snapshot with
    | some cursors => [.persist scope key cursors]
    | none => [.commit scope key false])

/-- The engine is told whether the cursors of a closed window are stored, and the server what they
have come to. -/
def syncEnd (p : Progress) (scope : Scope) (key : Int64) (persisted : Bool) :
    Progress × List Duty :=
  let (engine, outcome) := p.engine.commitEnd scope key persisted
  ({ p with engine },
    outcome.ack.toList.map .send ++ outcome.followUp.toList.map .send ++
      [.announce (.syncEnd scope ((engine.cursor? scope).getD 0) engine.isCaughtUp)])

/-- What a sync frame from the server does. -/
def sync (p : Progress) (point : SyncPoint) : SyncVerb → Option (Progress × List Duty)
  | .opened =>
    some ({ p with engine := p.engine.handleBegin point.scope },
      [.announce (.syncBegin point.scope)])
  | .ended => some (p.syncClosed point.scope point.key)
  | .notify =>
    let (engine, due) := p.engine.handleNotify point.scope point.key
    some ({ p with engine }, due.toList.map .send)
  | .request | .confirm => none

/-- The origin of a content frame that is handed on now. -/
def origin (p : Progress) (f : Frame) : Origin :=
  if f.isPush then .push else if p.engine.inProgress then .catchup else .live

end Progress

/-- What has become of a frame: progress, the tracker, the waiter that gets a receipt, and duties.
-/
structure Dispatched (ι : Type) where
  progress : Progress
  tracker : Tracker ι
  receipt : Option (ι × Ack) := none
  duties : List Duty := []

/-- The receipt of a frame, if its content is persistent. -/
def receiptDuty (f : Frame) : List Duty :=
  if f.message.requiresReceipt then [.send (.ack (.success f.seq))] else []

/-- What a frame does whose body has been read. -/
def dispatchFrame {ι : Type} (p : Progress) (t : Tracker ι) (f : Frame) : Dispatched ι :=
  let handOn : Dispatched ι :=
    { progress := p, tracker := t, duties := receiptDuty f ++ [.deliver f] }
  match f.message with
  | .ack a =>
    let (tracker, waiter) := t.complete a
    { progress := p, tracker, receipt := waiter.map (·, a) }
  | .signal .pong | .signal .heartbeat => { progress := p, tracker := t }
  | .signal .ping => { progress := p, tracker := t, duties := [.send (.signal .pong)] }
  | .sync verb point =>
    match p.sync point verb with
    | some (progress, duties) => { progress, tracker := t, duties }
    | none => handOn
  | _ => handOn

def dispatch {ι : Type} (p : Progress) (t : Tracker ι) (raw : RawFrame) : Dispatched ι :=
  match raw.decode with
  | .ok f => dispatchFrame p t f
  | .error _ => { progress := p, tracker := t }

end Parley
