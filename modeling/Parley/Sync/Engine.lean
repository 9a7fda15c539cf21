import Parley.Sync.Cursors
import Parley.Wire.Message

/-!
# The sync engine

Every scope goes round `idle → requested → inProgress → idle`: the client asks, the server opens a
window and closes it at a key. The held cursor of a scope moves forward only, and only when a window
has been closed and the new cursor stored. A notice of a higher key leads to a request from the
held cursor, never from the noticed one, which would skip what lies between.

`ScopeState` is one scope, with one function per event; `Engine` is the direct inbox and the tracked
groups, and passes each event on to the scope it concerns. The engine returns what is to be sent and
touches neither the store nor the wire.
-/

namespace Parley

/-- How far a scope's round has come. -/
inductive Window
  | idle
  | requested
  | inProgress
deriving DecidableEq, Repr

/-- The request for everything behind a key. -/
def Scope.request (scope : Scope) (key : Int64) : Message :=
  .sync .request ⟨scope, key⟩

/-- The notice to the server that a key is stored. -/
def Scope.confirm (scope : Scope) (key : Int64) : Message :=
  .sync .confirm ⟨scope, key⟩

/-- One scope: its held cursor, its window, and the highest key noticed while the window was not
idle. -/
structure ScopeState where
  key : Int64
  window : Window := .idle
  deferred : Option Int64 := none
deriving DecidableEq, Repr

namespace ScopeState

/-- The window will not be closed any more: the connection is gone. -/
def reset (s : ScopeState) : ScopeState := { s with window := .idle, deferred := none }

/-- A request has been sent. -/
def request (s : ScopeState) : ScopeState := { s with window := .requested }

/-- The server has something up to a key. Tells also whether a request is due. -/
def notify (s : ScopeState) (key : Int64) : ScopeState × Bool :=
  if key ≤ s.key then
    (s, false)
  else if s.window = .idle then
    (s.request, true)
  else
    ({ s with deferred := some ((s.deferred.map fun d => max d key).getD key) }, false)

def opened (s : ScopeState) : ScopeState := { s with window := .inProgress }

/-- The server has closed the window. The cursor stays until the key is stored. -/
def closed (s : ScopeState) : ScopeState := { s with window := .idle }

/-- Whether a closing key moves the cursor. -/
def advancesTo (s : ScopeState) (key : Int64) : Bool := s.key < key

/-- The closing key has been stored or not. Tells also whether the cursor has moved and whether a
request for what was noticed meanwhile is due. A key that was not stored is not held, so that a
later window closing at the same key moves the cursor again. -/
def commit (s : ScopeState) (key : Int64) (persisted : Bool) : ScopeState × Bool × Bool :=
  let advanced := persisted && s.advancesTo key
  let key := if advanced then key else s.key
  let due := s.deferred.any (key < ·)
  ({ key, window := if due then .requested else s.window, deferred := none }, advanced, due)

end ScopeState

/-- What follows from the end of a window. -/
structure EndOutcome where
  advanced : Option Int64
  ack : Option Message
  followUp : Option Message
deriving DecidableEq, Repr

/-- The direct inbox and the tracked groups. -/
structure Engine where
  direct : ScopeState
  groups : GroupMap ScopeState
deriving DecidableEq

namespace Engine

/-- The engine that holds the given cursors, all windows idle. -/
def ofCursors (c : Cursors) : Engine where
  direct := { key := c.direct }
  groups := c.groups.map fun key => { key }

/-- The engine of a client that has stored nothing. -/
def new : Engine := ofCursors .zero

instance : Inhabited Engine := ⟨new⟩

def cursors (e : Engine) : Cursors where
  direct := e.direct.key
  groups := e.groups.map (·.key)

/-- The state of a tracked scope. -/
def get? (e : Engine) : Scope → Option ScopeState
  | .direct => some e.direct
  | .group g => e.groups.get? g

/-- The state of a scope; a group that is not tracked starts at zero. -/
def entry (e : Engine) (scope : Scope) : ScopeState :=
  (e.get? scope).getD { key := 0 }

/-- Gives a scope a state, and tracks it. -/
def put (e : Engine) (s : ScopeState) : Scope → Engine
  | .direct => { e with direct := s }
  | .group g => { e with groups := e.groups.set g s }

/-- The held cursor of a tracked scope. -/
def cursor? (e : Engine) (scope : Scope) : Option Int64 := (e.get? scope).map (·.key)

/-- The window of a tracked scope. -/
def window? (e : Engine) (scope : Scope) : Option Window := (e.get? scope).map (·.window)

def trackedGroups (e : Engine) : List Int64 := e.groups.groups

/-- The direct inbox and the tracked groups, ascending. -/
def scopes (e : Engine) : List Scope := .direct :: e.trackedGroups.map .group

/-- The states of all tracked scopes, in the order of `scopes`. -/
def states (e : Engine) : List ScopeState := e.direct :: e.groups.values

def mapStates (e : Engine) (f : ScopeState → ScopeState) : Engine where
  direct := f e.direct
  groups := e.groups.map f

/-- The connection is gone: no open window will be closed. -/
def resetWindows (e : Engine) : Engine := e.mapStates .reset

/-- A connection is ready: every scope is asked for from its held cursor. -/
def onReady (e : Engine) : Engine × List Message :=
  let e := e.resetWindows
  (e.mapStates .request, e.scopes.map fun scope => scope.request (e.entry scope).key)

/-- Tracks a group from zero. Tells the first request, or nothing when the group is tracked. -/
def trackGroup (e : Engine) (g : Int64) : Engine × Option Message :=
  if e.groups.contains g then
    (e, none)
  else
    (e.put { key := 0, window := .requested } (.group g), some ((Scope.group g).request 0))

/-- The server has something up to a key in a scope. Tells the request that is due now. -/
def handleNotify (e : Engine) (scope : Scope) (key : Int64) : Engine × Option Message :=
  let (s, due) := (e.entry scope).notify key
  (e.put s scope, if due then some (scope.request s.key) else none)

/-- The server has opened a window. -/
def handleBegin (e : Engine) (scope : Scope) : Engine :=
  e.put (e.entry scope).opened scope

/-- The server has closed a window at a key. Tells the cursors to store when the key would move the
cursor of the scope. -/
def handleEnd (e : Engine) (scope : Scope) (key : Int64) : Engine × Option Cursors :=
  let s := e.entry scope
  let e := e.put s.closed scope
  (e, if s.advancesTo key then some (e.cursors.set key scope) else none)

/-- The closing key of a window has been stored or not. -/
def commitEnd (e : Engine) (scope : Scope) (key : Int64) (persisted : Bool) :
    Engine × EndOutcome :=
  let (s, advanced, due) := (e.entry scope).commit key persisted
  (e.put s scope,
    { advanced := if advanced then some key else none
      ack := if advanced then some (scope.confirm key) else none
      followUp := if due then some (scope.request s.key) else none })

def inProgress (e : Engine) : Bool := e.states.any (·.window = .inProgress)

/-- Whether no scope has a request or a window outstanding. -/
def isCaughtUp (e : Engine) : Bool := e.states.all (·.window = .idle)

end Engine

end Parley
