import Parley.Config
import Parley.Keepalive
import Parley.Session.Dispatch
import Parley.Session.Outbox
import Parley.Transport.Link

/-!
# A session

A session is an authenticated link with its two sides. The writing side takes messages out of the
outbox, numbers them and writes them, one after another. The reading side takes frames, does what
follows from them, keeps the link alive and hands events out; events that the application has no
room for are kept in a backlog, so that reading never waits for it. Each side is a function that
makes one step, if one can be made now.
-/

namespace Parley

/-- What a session reports to a call of the application. -/
inductive Note
  | numbered (call : Nat) (result : Except Error Int32)
  | lost (call : Nat)
  | receipted (call : Nat) (a : Ack)
  | unreceipted (call : Nat)

/-- The bounded queue from which the application takes events. -/
structure Channel where
  capacity : Nat
  items : List Event := []
  isTaken : Bool := true
deriving DecidableEq, Repr

/-- A frame that has its number and waits to be written. -/
structure Flight where
  item : Outgoing
  seq : Int32
  octets : Bytes
deriving DecidableEq, Repr

/-- How far a session has come. -/
inductive Stage
  | starting (requests : List Message)
  /-- Frames are read; the duties left over from the last one come first. -/
  | live (duties : List Duty)
  /-- Ended; the application has still to take what is in the backlog. -/
  | leaving
  | gone
deriving DecidableEq

/-- An authenticated link with its two sides. -/
structure Session where
  link : Link
  stage : Stage
  version : UInt8
  outbox : Outbox
  nextSeq : Int32
  flight : Option Flight := none
  /-- What ended the writing side, if it has ended by itself. -/
  writeFault : Option Error := none
  tracker : Tracker Nat := .empty
  keepalive : Keepalive
  channel : Channel
  backlog : List Event := []
  closing : Bool := false
deriving DecidableEq

/-- The state of a client's connection. -/
inductive ConnState
  | disconnected
  | connecting
  | authenticating
  | ready
deriving DecidableEq, Repr

namespace Session

/-- A session on a link authenticated now, with the requests it starts with. -/
def start (c : Config) (link : Link) (nextSeq : Int32) (now : Nat) (requests : List Message) :
    Session where
  link := link
  stage := .starting requests
  version := c.connection.protocolVersion
  outbox := { capacity := c.delivery.outboundQueue }
  nextSeq := nextSeq
  keepalive := .start c.keepalive.idleInterval now
  channel := { capacity := c.delivery.eventQueue }

/-! ## The writing side -/

/-- What the end of the writing side means for the calls whose frames it leaves unwritten. -/
def lostNotes (s : Session) : List Note :=
  ((s.flight.map (·.item)).toList ++ s.outbox.items).filterMap fun item => item.caller.map .lost

def stopWriting (s : Session) (fault : Option Error) : Session :=
  { s with outbox := s.outbox.close, flight := none, writeFault := fault }

/-- Tells the caller of an item what has become of it. -/
def numberedNote (item : Outgoing) (result : Except Error Int32) : List Note :=
  item.caller.toList.map (.numbered · result)

/-- Gives up the wait for the receipt of a number. -/
def forget (s : Session) (seq : Int32) : Session × List Note :=
  let (tracker, waiter) := s.tracker.forget seq
  ({ s with tracker }, waiter.toList.map .unreceipted)

/-- A frame could not be written. A fault of the transport ends the writing side; any other one
concerns this frame alone, and its number goes to the next. -/
def writeFailed (s : Session) (item : Outgoing) (seq : Int32) (e : Error) : Session × List Note :=
  let (s, forgotten) := s.forget seq
  if e.isTransport then
    let s := { s with flight := none }
    (s.stopWriting (some e),
      forgotten ++ numberedNote item (.error .connectionClosed) ++ s.lostNotes)
  else
    (s, forgotten ++ numberedNote item (.error e))

def frameOf (s : Session) (item : Outgoing) (seq : Int32) : Frame :=
  { seq, version := s.version, flags := item.flags, message := item.message }

/-- Registers the waiter of an item before its frame can reach the server. -/
def registerWaiter (s : Session) (item : Outgoing) (seq : Int32) : Session × List Note :=
  match item.caller, item.tracked with
  | some call, true =>
    let (tracker, replaced) := s.tracker.register seq call
    ({ s with tracker }, replaced.toList.map .unreceipted)
  | _, _ => (s, [])

/-- Takes the next item out of the outbox and numbers it. -/
def takeItem (s : Session) (item : Outgoing) (outbox : Outbox) : Session × List Note :=
  let seq := s.nextSeq
  let (s, notes) := { s with outbox }.registerWaiter item seq
  match (s.frameOf item seq).encode with
  | .ok octets => ({ s with flight := some ⟨item, seq, octets⟩ }, notes)
  | .error e =>
    let (s, failed) := s.writeFailed item seq e
    (s, notes ++ failed)

/-- Writes what is left of the frame that waits to be written, as far as that is possible now. -/
def writeFlight (s : Session) (flight : Flight) : Option (Session × List Note) :=
  match s.link.write flight.octets with
  | (none, octets, link) =>
    if octets.length < flight.octets.length then
      some ({ s with link, flight := some { flight with octets } }, [])
    else none
  | (some (.ok ()), _, link) =>
    some ({ s with link, flight := none, nextSeq := s.nextSeq + 1 },
      numberedNote flight.item (.ok flight.seq))
  | (some (.error e), _, link) => some ({ s with link }.writeFailed flight.item flight.seq e)

/-- One step of the writing side, if one can be made now. -/
def write? (s : Session) : Option (Session × List Note) :=
  match s.flight, s.outbox.pop? with
  | some flight, _ => s.writeFlight flight
  | none, some (item, outbox) => some (s.takeItem item outbox)
  | none, none => none

/-! ## The reading side -/

/-- What the reading side has done: the session, what outlives it, and what the calls are told. The
connection's state is that of the client and changes only when the session ends. -/
structure Step where
  session : Session
  progress : Progress
  ended : Bool := false
  notes : List Note := []

/-- Ends the session: the writing side is stopped where it stands, every wait is given up, and the
windows are forgotten. The application is told after all it has not taken yet. -/
def finish (s : Session) (p : Progress) (reason : EndReason) : Step :=
  let (tracker, waiters) := s.tracker.failAll
  { session :=
      { s.stopWriting s.writeFault with
        stage := .leaving, tracker, backlog := s.backlog ++ [.disconnected reason] }
    progress := { p with engine := p.engine.resetWindows }
    ended := true
    notes := s.lostNotes ++ waiters.map .unreceipted }

/-- Hands an event out, behind those that are in the backlog. -/
def emit (s : Session) (p : Progress) (ev : Event) : Step :=
  if s.backlog ≠ [] then { session := { s with backlog := s.backlog ++ [ev] }, progress := p }
  else if !s.channel.isTaken then s.finish p (.failed (.internal .eventsAbandoned))
  else if s.channel.items.length < s.channel.capacity then
    { session := { s with channel := { s.channel with items := s.channel.items ++ [ev] } }
      progress := p }
  else { session := { s with backlog := [ev] }, progress := p }

/-- Does the first duty, if that is possible now. -/
def perform (s : Session) (p : Progress) (duty : Duty) (rest : List Duty) : Option Step :=
  let done := { s with stage := .live rest }
  match duty with
  | .send m =>
    match s.outbox.offer .reading { message := m } with
    | .taken outbox => some { session := { done with outbox }, progress := p }
    | .lined outbox => some { session := { s with outbox }, progress := p }
    | .stuck => none
    | .closed => some (s.finish p (.failed .connectionClosed))
  | .deliver f => some (done.emit p (.message f (p.origin f)))
  | .announce ev => some (done.emit p ev)
  | .persist scope key cursors =>
    let (persisted, store) := p.store.save cursors
    some
      { session := { s with stage := .live (.commit scope key persisted :: rest) }
        progress := { p with store } }
  | .commit scope key persisted =>
    let (progress, duties) := p.syncEnd scope key persisted
    some { session := { s with stage := .live (duties ++ rest) }, progress }

def readFrame (s : Session) (p : Progress) (now : Nat) : Option Step :=
  match s.link.nextRaw with
  | (none, _) => none
  | (some (.error e), link) => some ({ s with link }.finish p (.failed e))
  | (some (.ok raw), link) =>
    let d := dispatch p s.tracker raw
    some
      { session :=
          { s with
            link, tracker := d.tracker, keepalive := s.keepalive.onFrame now
            stage := .live d.duties }
        progress := d.progress
        notes := d.receipt.toList.map fun (call, a) => .receipted call a }

/-- Queues a ping if the link has been silent for long enough. -/
def keepAlive (s : Session) (p : Progress) (now : Nat) : Option Step :=
  let (keepalive, due) := s.keepalive.onIdle now
  if due then
    some { session := { s with keepalive, stage := .live [.send (.signal .ping)] }, progress := p }
  else none

/-- Moves an event out of the backlog, if the channel has room. -/
def refill (s : Session) (p : Progress) : Option Step :=
  match s.backlog with
  | [] => none
  | ev :: backlog =>
    if !s.channel.isTaken then some (s.finish p .eventsAbandoned)
    else if s.channel.items.length < s.channel.capacity then
      some
        { session :=
            { s with backlog, channel := { s.channel with items := s.channel.items ++ [ev] } }
          progress := p }
    else none

/-- Hands the backlog of an ended session out, and then leaves. -/
def leave (s : Session) (p : Progress) : Option Step :=
  match s.backlog with
  | [] => some { session := { s with stage := .gone }, progress := p }
  | ev :: backlog =>
    if !s.channel.isTaken then
      some { session := { s with stage := .gone, backlog := [] }, progress := p }
    else if s.channel.items.length < s.channel.capacity then
      some
        { session :=
            { s with backlog, channel := { s.channel with items := s.channel.items ++ [ev] } }
          progress := p }
    else none

/-- One step of the reading side, if one can be made now. Duties come first. Of several things that
can be done then, a frame comes before a ping, and these before an end. -/
def read? (s : Session) (p : Progress) (now : Nat) : Option Step :=
  match s.stage with
  | .starting _ | .gone => none
  | .leaving => s.leave p
  | .live (duty :: rest) => s.perform p duty rest
  | .live [] =>
    s.readFrame p now
      <|> s.keepAlive p now
      <|> (s.writeFault.map fun e => s.finish p (.failed e))
      <|> s.refill p
      <|> (if s.closing then some (s.finish p .closedByClient) else none)

/-! ## Coming up -/

/-- What becomes of a session on its way to being ready. -/
inductive Startup
  | ready (s : Session)
  | going (s : Session)
  | stuck
  | failed

/-- One step towards being ready: the next request is queued. The time in which the link may be
silent runs from the moment when all of them are. -/
def startup (s : Session) (now : Nat) : Startup :=
  match s.stage with
  | .starting [] =>
    .ready { s with stage := .live [], keepalive := .start s.keepalive.interval now }
  | .starting (m :: requests) =>
    match s.outbox.offer .startup { message := m } with
    | .taken outbox => .going { s with outbox, stage := .starting requests }
    | .lined outbox => .going { s with outbox }
    | .stuck => .stuck
    | .closed => .failed
  | _ => .stuck

/-- The application takes the next event out of the channel. -/
def takeEvent? (s : Session) : Option (Event × Session) :=
  match s.channel.items with
  | [] => none
  | ev :: items => some (ev, { s with channel := { s.channel with items } })

/-- Whether no event will come any more. -/
def isSilent (s : Session) : Bool := s.stage = .gone ∧ s.channel.items = []

def deadline? (s : Session) : Option Nat :=
  match s.stage with
  | .live [] => some s.keepalive.deadline
  | _ => none

end Session

end Parley
