import Parley.Transport.Link

/-!
# Introducing the client

On a fresh link the client sends one token frame, numbered 1, and reads one reply. The time for the
reply runs from the end of the write. Whatever arrives behind the reply stays in the link.
-/

namespace Parley

/-- How far the introduction has come. -/
inductive Handshake
  | writing (octets : Bytes)
  | awaiting (deadline : Nat)
  | done (result : Except Error Unit)

namespace Handshake

/-- The number of the token frame; all others follow it. -/
def seq : Int32 := 1

/-- The token frame of a client. -/
def frame (version : UInt8) (auth : AuthToken) : Frame :=
  { seq, version, message := .authToken auth }

/-- Starts the introduction; a token that cannot be encoded ends it before a write. -/
def start (version : UInt8) (auth : AuthToken) : Handshake :=
  match (frame version auth).encode with
  | .ok bs => writing bs
  | .error e => done (.error e)

/-- What a reply means. -/
def judge : Message → Except Error Unit
  | .authStatus status => if status = 0 then .ok () else .error (.authFailed status)
  | other => .error (.unexpectedCommand Command.authStatus.name other.name)

/-- Writes what is left of the token frame, as far as that is possible now. -/
def write (timeout now : Nat) (octets : Bytes) (link : Link) : Option (Handshake × Link) :=
  match link.write octets with
  | (none, left, link) => if left.length < octets.length then some (writing left, link) else none
  | (some (.error e), _, link) => some (done (.error e), link)
  | (some (.ok ()), _, link) => some (awaiting (now + timeout), link)

/-- Reads the reply, if it is there or the time for it is up. -/
def hear (now deadline : Nat) (link : Link) : Option (Handshake × Link) :=
  match link.nextFrame with
  | (some (.ok reply), link) => some (done (judge reply.message), link)
  | (some (.error e), link) => some (done (.error e), link)
  | (none, _) =>
    if deadline ≤ now then some (done (.error (.timeout Command.authStatus.name)), link) else none

/-- Takes the introduction one step further, if it can go on now. -/
def step? (timeout now : Nat) (h : Handshake) (link : Link) : Option (Handshake × Link) :=
  match h with
  | writing octets => write timeout now octets link
  | awaiting deadline => hear now deadline link
  | done _ => none

/-- Takes the introduction as far as it goes now. There are two steps at most. -/
def settle (timeout now : Nat) (h : Handshake) (link : Link) : Handshake × Link :=
  match step? timeout now h link with
  | none => (h, link)
  | some (h, link) => (step? timeout now h link).getD (h, link)

/-- When time alone takes the introduction further. -/
def deadline? : Handshake → Option Nat
  | awaiting deadline => some deadline
  | _ => none

/-- The result of an introduction that is over. -/
def result? : Handshake → Option (Except Error Unit)
  | done result => some result
  | _ => none

/-- Runs a whole introduction that starts at time zero. At `delay` something happens to the link.
Tells the result with its time, if there is one, and the link behind it all. -/
def run (timeout delay : Nat) (event : Link → Link) (h : Handshake) (link : Link) :
    Option (Except Error Unit × Nat) × Link :=
  let stamped (time : Nat) (h : Handshake) := h.result?.map (·, time)
  let (h, link) := settle timeout 0 h link
  let early := stamped 0 h
  let (early, h, link) :=
    match h.deadline? with
    | some deadline =>
      if deadline ≤ delay then
        let (h, link) := settle timeout deadline h link
        (stamped deadline h, h, link)
      else (early, h, link)
    | none => (early, h, link)
  let (h, link) := settle timeout delay h (event link)
  match early, stamped delay h, h.deadline? with
  | some r, _, _ => (some r, link)
  | none, some r, _ => (some r, link)
  | none, none, some deadline =>
    let (h, link) := settle timeout deadline h link
    (stamped deadline h, link)
  | none, none, none => (none, link)

end Handshake

end Parley
