import Parley.Session.Basic
import Parley.Session.Inbox
import Parley.Transport.Address
import Parley.Transport.Handshake

/-!
# A client

A client has a configuration, the progress of its cursors, and the connections it has made, one
after another or at the same time. Calls of the application run in the background. Each part of a
client makes its steps apart from the others; `Client.act?` is one step of one part, if it can be
made now.
-/

namespace Parley

/-- What has become of something that ran in the background. -/
inductive Outcome
  | connected (connection : Nat)
  | numbered (seq : Int32)
  | receipted (a : Ack)
  | done
  | found (f : Frame) (tried : Nat)
  | notFound (e : Error) (tried : Nat)
  | cancelled (tried : Nat)
  | failed (e : Error)
deriving DecidableEq, Repr

/-- Something that ran in the background under a name, and when it was over. -/
structure Result where
  id : String
  outcome : Outcome
  time : Nat
deriving DecidableEq, Repr

/-- A place for one answer. -/
inductive Slot (α : Type)
  | empty
  | full (a : α)
  | broken

/-- What a call wants of the frame it sends. -/
inductive Wants
  | number
  | receipt
  | nothing
deriving DecidableEq, Repr

/-- How far a call has come. -/
inductive CallStage
  | offering (item : Outgoing)
  | queued
  | awaiting (seq : Int32) (deadline : Nat)
  | untilStopped
  | finished

/-- A call of the application on a session. -/
structure Call where
  id : String
  connection : Nat
  wants : Wants
  stage : CallStage
  number : Slot (Except Error Int32) := .empty
  receipt : Slot Ack := .empty

/-- Who has the events of a session. -/
inductive Holder
  | free (b : Inbox)
  | waiting (id : String) (b : Inbox) (w : Wait)
  | closing (id : String)
  | gone

/-- How far a connection has come. -/
inductive Phase
  | greeting (h : Handshake) (link : Link)
  | established (s : Session) (holder : Holder)
  | failed

/-- A connection, under the name of the attempt that made it. -/
structure Connection where
  attempt : String
  phase : Phase

/-- A client with its connections, its calls, and the time in milliseconds. -/
structure Client where
  config : Config
  /-- The tokens for the next attempts; the last one serves all further ones. -/
  tokens : List (Except Error String)
  progress : Progress
  state : ConnState := .disconnected
  now : Nat := 0
  connections : List Connection := []
  calls : List Call := []
  wire : List (Nat × Bytes) := []
  results : List Result := []

namespace Client

/-- A client over a store. The configured groups are tracked from the start; their requests go out
when a connection is ready. -/
def new (config : Config) (store : CursorStore) (tokens : List (Except Error String)) :
    Except Error Client := do
  config.validate
  let cursors ← store.load
  let engine : Engine :=
    config.sync.groups.foldl (fun e g => (e.trackGroup g).1) (.ofCursors cursors)
  return { config, tokens, progress := { engine := engine.resetWindows, store } }

def cursors (c : Client) : Cursors := c.progress.engine.cursors

def finish (c : Client) (id : String) (outcome : Outcome) : Client :=
  { c with results := c.results ++ [⟨id, outcome, c.now⟩] }

def phase? (c : Client) (i : Nat) : Option Phase := (c.connections[i]?).map (·.phase)

def setPhase (c : Client) (i : Nat) (phase : Phase) : Client :=
  { c with connections := c.connections.modify i fun k => { k with phase } }

/-- Notes the writes of a connection by which its link has changed. -/
def noteWrites (c : Client) (i : Nat) (before after : Link) : Client :=
  { c with wire := c.wire ++ (after.written.drop before.written.length).map (i, ·) }

def applyNote (c : Client) (n : Note) : Client :=
  let tell (k : Nat) (f : Call → Call) : Client := { c with calls := c.calls.modify k f }
  match n with
  | .numbered k result => tell k fun call => { call with number := .full result }
  | .lost k => tell k fun call => { call with number := .broken }
  | .receipted k a => tell k fun call => { call with receipt := .full a }
  | .unreceipted k => tell k fun call => { call with receipt := .broken }

/-- Tells calls what a session reports to them. -/
def applyNotes (c : Client) (notes : List Note) : Client := notes.foldl applyNote c

def connectFailed (c : Client) (i : Nat) (id : String) (e : Error) : Client :=
  { c.setPhase i .failed with state := .disconnected }.finish id (.failed e)

/-! ## Steps of the parts -/

/-- The introduction of a connection is over. -/
def greeted (c : Client) (i : Nat) (id : String) (result : Except Error Unit) (link : Link) :
    Client :=
  match result with
  | .error e => c.connectFailed i id e
  | .ok () =>
    let (engine, requests) := c.progress.engine.onReady
    let s := Session.start c.config link (Handshake.seq + 1) c.now requests
    { c with progress := { c.progress with engine } }.setPhase i (.established s (.free {}))

/-- One step of the introduction of a connection. -/
def greet? (c : Client) (i : Nat) (id : String) (h : Handshake) (link : Link) : Option Client :=
  match h with
  | .done result => some (c.greeted i id result link)
  | _ =>
    (h.step? c.config.connection.authTimeout c.now link).map fun (h, after) =>
      (c.noteWrites i link after).setPhase i (.greeting h after)

def startup? (c : Client) (i : Nat) (id : String) (s : Session) (holder : Holder) :
    Option Client :=
  match s.startup c.now with
  | .ready s =>
    some ({ c.setPhase i (.established s holder) with state := .ready }.finish id (.connected i))
  | .going s => some (c.setPhase i (.established s holder))
  | .stuck => none
  | .failed => some (c.connectFailed i id .connectionClosed)

def write? (c : Client) (i : Nat) (s : Session) (holder : Holder) : Option Client :=
  s.write?.map fun (after, notes) =>
    ((c.noteWrites i s.link after.link).setPhase i (.established after holder)).applyNotes notes

def read? (c : Client) (i : Nat) (s : Session) (holder : Holder) : Option Client :=
  (s.read? c.progress c.now).map fun step =>
    let c := { c with
      progress := step.progress
      state := if step.ended then .disconnected else c.state }
    (c.setPhase i (.established step.session holder)).applyNotes step.notes

/-- One step of a wait: the next event is passed to it. -/
def wait? (c : Client) (i : Nat) (s : Session) (id : String) (b : Inbox) (w : Wait) :
    Option Client :=
  match s.takeEvent? with
  | some (ev, s) =>
    match w.step b ev with
    | (b, .going w) => some (c.setPhase i (.established s (.waiting id b w)))
    | (b, .done (.ok f) tried) =>
      some ((c.setPhase i (.established s (.free b))).finish id (.found f tried))
    | (b, .done (.error e) tried) =>
      some ((c.setPhase i (.established s (.free b))).finish id (.notFound e tried))
  | none =>
    if s.isSilent then
      some ((c.setPhase i (.established s (.free b))).finish id
        (.notFound .connectionClosed w.tried))
    else none

/-- One step of closing a session: it is closed when it is over. -/
def close? (c : Client) (i : Nat) (s : Session) (id : String) : Option Client :=
  if s.stage = .gone then some ((c.setPhase i (.established s .gone)).finish id .done) else none

def setStage (c : Client) (k : Nat) (stage : CallStage) : Client :=
  { c with calls := c.calls.modify k fun call => { call with stage } }

def finishCall (c : Client) (k : Nat) (call : Call) (outcome : Outcome) : Client :=
  (c.setStage k .finished).finish call.id outcome

/-- A call has learnt the number of its frame. -/
def callNumbered (c : Client) (k : Nat) (call : Call) (seq : Int32) : Client :=
  match call.wants with
  | .number => c.finishCall k call (.numbered seq)
  | .nothing => c.finishCall k call .done
  | .receipt => c.setStage k (.awaiting seq (c.now + c.config.delivery.ackTimeout))

def callOn? (c : Client) (k : Nat) (call : Call) (s : Session) (holder : Holder) :
    Option Client :=
  match call.stage with
  | .offering item =>
    let put (outbox : Outbox) := c.setPhase call.connection (.established { s with outbox } holder)
    match s.outbox.offer (.call k) item with
    | .taken outbox => some ((put outbox).setStage k .queued)
    | .lined outbox => some (put outbox)
    | .stuck => none
    | .closed => some (c.finishCall k call (.failed .notReady))
  | .queued =>
    match call.number with
    | .empty => none
    | .full (.ok seq) => some (c.callNumbered k call seq)
    | .full (.error e) => some (c.finishCall k call (.failed e))
    | .broken => some (c.finishCall k call (.failed .connectionClosed))
  | .awaiting seq deadline =>
    match call.receipt with
    | .full a => some (c.finishCall k call (.receipted a))
    | .broken => some (c.finishCall k call (.failed .connectionClosed))
    | .empty =>
      if deadline ≤ c.now then
        let c := c.setPhase call.connection (.established (s.forget seq).1 holder)
        some (c.finishCall k call (.failed (.timeout "ack")))
      else none
  | .untilStopped => if s.outbox.isOpen then none else some (c.finishCall k call .done)
  | .finished => none

/-- A part of a client that makes steps. -/
inductive Actor
  | connecting (i : Nat)
  | writing (i : Nat)
  | reading (i : Nat)
  | calling (k : Nat)
  | holding (i : Nat)
deriving DecidableEq, Repr

/-- One step of a part, if it can be made now. -/
def act? (c : Client) : Actor → Option Client
  | .connecting i =>
    match c.connections[i]? with
    | some ⟨id, .greeting h link⟩ => c.greet? i id h link
    | some ⟨id, .established s holder⟩ => c.startup? i id s holder
    | _ => none
  | .writing i =>
    match c.phase? i with
    | some (.established s holder) => c.write? i s holder
    | _ => none
  | .reading i =>
    match c.phase? i with
    | some (.established s holder) => c.read? i s holder
    | _ => none
  | .calling k =>
    match c.calls[k]? with
    | none => none
    | some call =>
      match c.phase? call.connection with
      | some (.established s holder) => c.callOn? k call s holder
      | _ => none
  | .holding i =>
    match c.phase? i with
    | some (.established s (.waiting id b w)) => c.wait? i s id b w
    | some (.established s (.closing id)) => c.close? i s id
    | _ => none

end Client

end Parley
