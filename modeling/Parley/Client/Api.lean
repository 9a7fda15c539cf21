import Parley.Client.Timeline

/-!
# What can be done with a client

The operations of the application, and what can happen to the links of a client. Operations that
take time only start here; what becomes of them is a result later.
-/

namespace Parley

namespace Client

/-! ## Connecting -/

/-- Takes the token for the next attempt to connect. -/
def nextToken (c : Client) : Except Error String × Client :=
  match c.tokens with
  | [] => (.ok "", c)
  | [token] => (token, c)
  | token :: tokens => (token, { c with tokens })

/-- The introduction of a client that has a token. -/
def introduce (c : Client) (token : String) : Handshake :=
  .start c.config.connection.protocolVersion
    { platformId := c.config.device.platformId, token, deviceId := c.config.device.deviceId }

/-- Numbers an attempt that has not come to a link. -/
def addFailed (c : Client) (id : String) : Client :=
  { c with connections := c.connections ++ [⟨id, .failed⟩] }

/-- Starts a session over a stream that is open already. -/
def connect (c : Client) (id : String) : Client :=
  let (token, c) := { c with state := .authenticating }.nextToken
  let link := Link.fresh c.config.connection.maxBody
  match token with
  | .ok token =>
    { c with connections := c.connections ++ [⟨id, .greeting (c.introduce token) link⟩] }
  | .error e => (c.addFailed id).connectFailed c.connections.length id e

/-- Opens a stream to the configured address and starts a session over it. -/
def connectTcp (c : Client) (id : String) : Client :=
  (c.addFailed id).connectFailed c.connections.length id
    (.io (Address.connect c.config.connection.addr))

/-- Something happens to the link of a connection. -/
def happen (c : Client) (i : Nat) (e : LinkEvent) : Client :=
  match c.phase? i with
  | some (.greeting h link) => c.setPhase i (.greeting h (link.happen e))
  | some (.established s holder) =>
    c.setPhase i (.established { s with link := s.link.happen e } holder)
  | _ => c

/-! ## The sending side of a session -/

/-- The session of a connection once it has been ready. -/
def handle? (c : Client) (i : Nat) : Option (Session × Holder) :=
  match c.phase? i with
  | some (.established s holder) =>
    match s.stage with
    | .starting _ => none
    | _ => some (s, holder)
  | _ => none

/-- The state of a session as its handle shows it. -/
def handleState (c : Client) (s : Session) : ConnState :=
  if s.outbox.isOpen then c.state else .disconnected

def addCall (c : Client) (i : Nat) (id : String) (wants : Wants) (stage : CallStage) : Client :=
  { c with calls := c.calls ++ [{ id, connection := i, wants, stage }] }

/-- Starts to send a message; refused at once unless the session is ready. -/
def send (c : Client) (i : Nat) (s : Session) (id : String) (wants : Wants) (m : Message)
    (flags : Flags) : Client :=
  if c.handleState s = .ready then
    c.addCall i id wants
      (.offering
        { message := m, flags, caller := some c.calls.length, tracked := wants = .receipt })
  else
    c.finish id (.failed .notReady)

/-- Starts to follow a group; a group that is tracked already needs nothing. -/
def trackGroup (c : Client) (i : Nat) (s : Session) (id : String) (g : Int64) : Client :=
  let (engine, request) := c.progress.engine.trackGroup g
  let c := { c with progress := { c.progress with engine } }
  match request with
  | some m => c.send i s id .nothing m 0
  | none => c.finish id .done

/-- Starts to wait for the end of a session's writing side. -/
def awaitStopped (c : Client) (i : Nat) (id : String) : Client :=
  c.addCall i id .nothing .untilStopped

def close (c : Client) (i : Nat) : Client :=
  match c.handle? i with
  | some (s, holder) => c.setPhase i (.established { s with closing := true } holder)
  | none => c

/-! ## The receiving side of a session -/

/-- The events of a session, if the application can take them now. -/
def inbox? (c : Client) (i : Nat) : Option (Session × Inbox) :=
  match c.handle? i with
  | some (s, .free b) => some (s, b)
  | _ => none

/-- What taking an event brings. -/
inductive Taken
  | event (ev : Event)
  | pending
  | ended

/-- Takes the next event, one kept for later first. -/
def recv (c : Client) (i : Nat) (s : Session) (b : Inbox) : Taken × Client :=
  match b.pop? with
  | some (ev, b) => (.event ev, c.setPhase i (.established s (.free b)))
  | none =>
    match s.takeEvent? with
    | some (ev, s) => (.event ev, c.setPhase i (.established s (.free (b.observe ev))))
    | none => (if s.isSilent then .ended else .pending, c)

/-- How many events a session has ready. -/
def ready (s : Session) (b : Inbox) : Nat :=
  b.stash.length + s.channel.items.length + s.backlog.length

/-- Takes events until none is left, at most so many. -/
def recvMany : (most : Nat) → Client → Nat → List Event × Taken × Client
  | 0, c, _ => ([], .pending, c)
  | most + 1, c, i =>
    match c.inbox? i with
    | none => ([], .pending, c)
    | some (s, b) =>
      match c.recv i s b with
      | (.event ev, c) =>
        let (evs, last, c) := recvMany most c.settle i
        (ev :: evs, last, c)
      | (last, c) => ([], last, c)

/-- Takes events until none is left, and tells whether more can come. -/
def recvAll (c : Client) (i : Nat) (s : Session) (b : Inbox) : List Event × Taken × Client :=
  recvMany (ready s b + unread s.link + 2) c i

/-- Starts to wait for a content frame. -/
def waitFor (c : Client) (i : Nat) (s : Session) (b : Inbox) (id : String)
    (pred : Frame → Bool) : Client :=
  match Wait.start pred b with
  | (b, .going w) => c.setPhase i (.established s (.waiting id b w))
  | (b, .done (.ok f) tried) => (c.setPhase i (.established s (.free b))).finish id (.found f tried)
  | (b, .done (.error e) tried) =>
    (c.setPhase i (.established s (.free b))).finish id (.notFound e tried)

/-- Gives up the running wait. What it has kept stays kept; a frame that it held is lost. -/
def cancelWait (c : Client) (i : Nat) : Client :=
  match c.phase? i with
  | some (.established s (.waiting id b w)) =>
    (c.setPhase i (.established s (.free b))).finish id (.cancelled w.tried)
  | _ => c

/-- Nobody takes the events of a session any more. -/
def abandon (s : Session) : Session := { s with channel := { s.channel with isTaken := false } }

/-- Lets a session go without asking it to end. -/
def dropSession (c : Client) (i : Nat) (s : Session) : Client :=
  c.setPhase i (.established (abandon s) .gone)

/-- Asks a session to end and starts to wait until it has. -/
def closeSession (c : Client) (i : Nat) (s : Session) (id : String) : Client :=
  c.setPhase i (.established { abandon s with closing := true } (.closing id))

end Client

end Parley
