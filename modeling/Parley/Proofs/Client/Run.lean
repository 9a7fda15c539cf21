import Parley.Client.Api
import Parley.Proofs.Session.Steps

/-!
# Runs of a client

A run is a list of moves: steps of the parts in any order, between them operations of the
application, things that happen to the links, and the passing of time. `Client.moved` says once what
a move can do; what holds in every run is derived from it.
-/

namespace Parley

/-- The least that a client has to know. -/
def Config.least : Config := { version := 1, device := { deviceId := "d" } }

namespace Client

/-- What is done with a client, and what happens to it. -/
inductive Move
  | act (a : Actor)
  | connect (id : String)
  | connectTcp (id : String)
  | happen (i : Nat) (e : LinkEvent)
  | send (i : Nat) (id : String) (wants : Wants) (m : Message) (flags : Flags)
  | trackGroup (i : Nat) (id : String) (g : Int64)
  | awaitStopped (i : Nat) (id : String)
  | close (i : Nat)
  | recv (i : Nat)
  | waitFor (i : Nat) (id : String) (pred : Frame → Bool)
  | cancelWait (i : Nat)
  | dropSession (i : Nat)
  | closeSession (i : Nat) (id : String)
  | pass (ms : Nat)

/-- What becomes of a client by a move. Operations on a session that the application does not have
change nothing. -/
def move (c : Client) : Move → Client
  | .act a => (c.act? a).getD c
  | .connect id => c.connect id
  | .connectTcp id => c.connectTcp id
  | .happen i e => c.happen i e
  | .send i id wants m flags =>
    match c.handle? i with
    | some (s, _) => c.send i s id wants m flags
    | none => c
  | .trackGroup i id g =>
    match c.handle? i with
    | some (s, _) => c.trackGroup i s id g
    | none => c
  | .awaitStopped i id =>
    match c.handle? i with
    | some _ => c.awaitStopped i id
    | none => c
  | .close i => c.close i
  | .recv i =>
    match c.inbox? i with
    | some (s, b) => (c.recv i s b).2
    | none => c
  | .waitFor i id pred =>
    match c.inbox? i with
    | some (s, b) => c.waitFor i s b id pred
    | none => c
  | .cancelWait i => c.cancelWait i
  | .dropSession i =>
    match c.inbox? i with
    | some (s, _) => c.dropSession i s
    | none => c
  | .closeSession i id =>
    match c.inbox? i with
    | some (s, _) => c.closeSession i s id
    | none => c
  | .pass ms => { c with now := c.now + ms }

def run (c : Client) (moves : List Move) : Client := moves.foldl move c

/-- A new client that knows the least, over an empty store in memory. -/
def least : Client where
  config := .least
  tokens := []
  progress := { engine := (Engine.ofCursors .zero).resetWindows, store := .memory .zero }

lemma new_least : new .least (.memory .zero) [] = .ok least := by rfl

/-- The first connection introduces itself, is welcome, and is ready. -/
def introducing : List Move :=
  [.connect "a", .act (.connecting 0),
    .happen 0 (.arrive [0, 0, 0, 4, 0, 0, 0, 1, 3, 2, 0, 0, 0, 0, 0, 0]), .act (.connecting 0),
    .act (.connecting 0), .act (.connecting 0), .act (.connecting 0)]

section New
variable {config : Config} {store : CursorStore} {tokens : List (Except Error String)} {c : Client}

lemma load_of_new (hnew : new config store tokens = .ok c) :
    config.validate = .ok () ∧ ∃ loaded, store.load = .ok loaded := by
  rw [new] at hnew
  cases hvalid : config.validate with
  | error e =>
    rw [hvalid] at hnew
    cases hnew
  | ok u =>
    cases hload : store.load with
    | error e =>
      rw [hvalid, hload] at hnew
      cases hnew
    | ok loaded => exact ⟨rfl, loaded, rfl⟩

lemma eq_of_new (h : new config store tokens = .ok c) :
    ∃ progress, c = { config, tokens, progress } := by
  obtain ⟨hvalid, loaded, hload⟩ := load_of_new h
  rw [new, hvalid, hload] at h
  cases h
  exact ⟨_, rfl⟩

end New

/-- A client without its clock, its state, its tokens and its results. -/
structure Core where
  config : Config
  connections : List Connection
  calls : List Call
  progress : Progress
  wire : List (Nat × Bytes)

def core (c : Client) : Core := ⟨c.config, c.connections, c.calls, c.progress, c.wire⟩

def wireOf (c : Client) (i : Nat) : Bytes := ((c.wire.filter (·.1 = i)).map (·.2)).flatten

section Looking
variable {c d : Client}

lemma config_congr (h : c.core = d.core) : c.config = d.config := congrArg Core.config h

lemma calls_congr (h : c.core = d.core) : c.calls = d.calls := congrArg Core.calls h

lemma progress_congr (h : c.core = d.core) : c.progress = d.progress := congrArg Core.progress h

lemma phase?_congr (h : c.core = d.core) (i : Nat) : c.phase? i = d.phase? i := by
  have hconnections : c.connections = d.connections := congrArg Core.connections h
  rw [phase?, phase?, hconnections]

lemma wireOf_congr (h : c.core = d.core) (i : Nat) : c.wireOf i = d.wireOf i := by
  have hwire : c.wire = d.wire := congrArg Core.wire h
  rw [wireOf, wireOf, hwire]

end Looking

section Frame
variable (c : Client) {i j : Nat}

lemma phase?_setPhase_self {old : Phase} (h : c.phase? i = some old) (phase : Phase) :
    (c.setPhase i phase).phase? i = some phase := by
  rw [phase?, Option.map_eq_some_iff] at h
  obtain ⟨k, hk, -⟩ := h
  simp [phase?, setPhase, hk]

lemma phase?_setPhase_ne (h : i ≠ j) (phase : Phase) :
    (c.setPhase i phase).phase? j = c.phase? j := by
  simp [phase?, setPhase, h]

lemma phase?_of_setPhase {c c' d : Client} {i : Nat} {old new : Phase}
    (hphases : ∀ j, c'.phase? j = (d.setPhase i new).phase? j) (hold : c.phase? i = some old)
    (hd : ∀ j, d.phase? j = c.phase? j) (j : Nat) :
    i = j ∧ c.phase? j = some old ∧ c'.phase? j = some new ∨
      i ≠ j ∧ c'.phase? j = c.phase? j := by
  rw [hphases]
  by_cases hj : i = j
  · subst hj
    exact .inl ⟨rfl, hold, d.phase?_setPhase_self ((hd i).trans hold) new⟩
  · exact .inr ⟨hj, (d.phase?_setPhase_ne hj new).trans (hd j)⟩

lemma phase?_append (k : Connection) (i : Nat) :
    { c with connections := c.connections ++ [k] }.phase? i =
      if i = c.connections.length then some k.phase else c.phase? i := by
  by_cases hi : i = c.connections.length
  · simp [phase?, hi]
  · rw [if_neg hi]
    rcases Nat.lt_or_ge i c.connections.length with hlt | hge
    · simp [phase?, List.getElem?_append_left hlt]
    · have hlast : (c.connections ++ [k])[i]? = none :=
        List.getElem?_eq_none (by rw [List.length_append, List.length_singleton]; omega)
      rw [phase?, phase?, hlast, List.getElem?_eq_none hge]

lemma phase?_of_length_le (h : c.connections.length ≤ i) : c.phase? i = none := by
  simp [phase?, h]

@[simp] lemma connections_applyNotes (notes : List Note) :
    (c.applyNotes notes).connections = c.connections := by
  induction notes generalizing c with
  | nil => rfl
  | cons n notes ih => cases n <;> exact ih _

@[simp] lemma wire_applyNotes (notes : List Note) : (c.applyNotes notes).wire = c.wire := by
  induction notes generalizing c with
  | nil => rfl
  | cons n notes ih => cases n <;> exact ih _

@[simp] lemma progress_applyNotes (notes : List Note) :
    (c.applyNotes notes).progress = c.progress := by
  induction notes generalizing c with
  | nil => rfl
  | cons n notes ih => cases n <;> exact ih _

@[simp] lemma config_applyNotes (notes : List Note) : (c.applyNotes notes).config = c.config := by
  induction notes generalizing c with
  | nil => rfl
  | cons n notes ih => cases n <;> exact ih _

@[simp] lemma phase?_applyNotes (notes : List Note) (i : Nat) :
    (c.applyNotes notes).phase? i = c.phase? i := by
  simp [phase?]

@[simp] lemma wireOf_applyNotes (notes : List Note) (i : Nat) :
    (c.applyNotes notes).wireOf i = c.wireOf i := by
  simp [wireOf]

@[simp] lemma wireOf_setPhase (i j : Nat) (phase : Phase) :
    (c.setPhase i phase).wireOf j = c.wireOf j := rfl

lemma wireOf_noteWrites_self {before after : Link} {chunks : List Bytes}
    (h : after.written = before.written ++ chunks) :
    (c.noteWrites i before after).wireOf i = c.wireOf i ++ chunks.flatten := by
  have hchunks : ((chunks.map (i, ·)).filter (·.1 = i)).map (·.2) = chunks := by
    simp [List.filter_map, Function.comp_def]
  simp only [wireOf, noteWrites, h, List.drop_left, List.filter_append, List.map_append, hchunks,
    List.flatten_append]

lemma wireOf_noteWrites_ne (h : i ≠ j) (before after : Link) :
    (c.noteWrites i before after).wireOf j = c.wireOf j := by
  have hnone : ∀ chunks : List Bytes, (chunks.map (i, ·)).filter (·.1 = j) = [] := by
    intro chunks
    simp [h]
  simp only [wireOf, noteWrites, List.filter_append, hnone, List.append_nil]

end Frame

/-- A call as it starts: to wait for an end, or to queue an item under its own number. -/
structure Call.Starts (call : Call) (k : Nat) : Prop where
  number : call.number = .empty
  receipt : call.receipt = .empty
  stage : call.stage = .untilStopped ∨
    ∃ item, call.stage = .offering item ∧ item.caller = some k ∧
      item.tracked = (call.wants = .receipt : Bool)

/-- What a move does to a client. -/
inductive Moved (c c' : Client) : Prop
  | still (h : c'.core = c.core)
  | joined (id : String) (phase : Phase)
    (hphase : phase = .failed ∨ ∃ token, phase =
      .greeting (c.introduce token) (Link.fresh c.config.connection.maxBody))
    (h : c'.core = { c with connections := c.connections ++ [(⟨id, phase⟩ : Connection)] }.core)
  | called (new : List Call) (engine : Engine)
    (hnew : new = [] ∨ ∃ call, new = [call] ∧ Call.Starts call c.calls.length)
    (hengine : engine = c.progress.engine ∨ ∃ g, engine = (c.progress.engine.trackGroup g).1)
    (h : c'.core =
      { c with calls := c.calls ++ new, progress := { c.progress with engine } }.core)
  | greeted (i : Nat) (g g' : Handshake) (link link' : Link)
    (hphase : c.phase? i = some (.greeting g link))
    (hstep : g.step? c.config.connection.authTimeout c.now link = some (g', link'))
    (h : c'.core = ((c.noteWrites i link link').setPhase i (.greeting g' link')).core)
  | befell (i : Nat) (g : Handshake) (link : Link) (e : LinkEvent)
    (hphase : c.phase? i = some (.greeting g link))
    (h : c'.core = (c.setPhase i (.greeting g (link.happen e))).core)
  | rejected (i : Nat) (e : Error) (link : Link)
    (hphase : c.phase? i = some (.greeting (.done (.error e)) link))
    (h : c'.core = (c.setPhase i .failed).core)
  | began (i : Nat) (link : Link) (hphase : c.phase? i = some (.greeting (.done (.ok ())) link))
    (h : c'.core = ({ c with
        progress := { c.progress with engine := c.progress.engine.onReady.1 } }.setPhase i
      (.established (Session.start c.config link (Handshake.seq + 1) c.now
        c.progress.engine.onReady.2) (.free {}))).core)
  | failed (i : Nat) (s : Session) (holder : Holder)
    (hphase : c.phase? i = some (.established s holder)) (hstartup : s.startup c.now = .failed)
    (h : c'.core = (c.setPhase i .failed).core)
  | session (i : Nat) (s s' : Session) (holder holder' : Holder) (p' : Progress)
    (notes : List Note) (hphase : c.phase? i = some (.established s holder))
    (hmoved : s.Moved c.now c.progress s' p' notes)
    (h : c'.core = ((({ c with progress := p' }.noteWrites i s.link s'.link).setPhase i
      (.established s' holder')).applyNotes notes).core)
  | offered (k : Nat) (call : Call) (item : Outgoing) (s : Session) (holder : Holder)
    (outbox : Outbox) (hcall : c.calls[k]? = some call) (hstage : call.stage = .offering item)
    (hphase : c.phase? call.connection = some (.established s holder))
    (hoffer : s.outbox.offer (.call k) item = .taken outbox)
    (h : c'.core = ((c.setPhase call.connection
      (.established { s with outbox } holder)).setStage k .queued).core)
  | lined (k : Nat) (call : Call) (item : Outgoing) (s : Session) (holder : Holder)
    (outbox : Outbox) (hcall : c.calls[k]? = some call) (hstage : call.stage = .offering item)
    (hphase : c.phase? call.connection = some (.established s holder))
    (hoffer : s.outbox.offer (.call k) item = .lined outbox)
    (h : c'.core = (c.setPhase call.connection (.established { s with outbox } holder)).core)
  | settled (k : Nat) (call : Call) (stage : CallStage) (hcall : c.calls[k]? = some call)
    (hstage : stage = .finished ∨ ∃ seq deadline, stage = .awaiting seq deadline ∧
      call.wants = .receipt ∧ call.stage = .queued ∧ call.number = .full (.ok seq))
    (h : c'.core = (c.setStage k stage).core)
  | expired (k : Nat) (call : Call) (s : Session) (holder : Holder) (seq : Int32) (deadline : Nat)
    (hcall : c.calls[k]? = some call) (hstage : call.stage = .awaiting seq deadline)
    (hreceipt : call.receipt = .empty) (hdue : deadline ≤ c.now)
    (hphase : c.phase? call.connection = some (.established s holder))
    (h : c'.core = ((c.setPhase call.connection
      (.established (s.forget seq).1 holder)).setStage k .finished).core)

lemma core_applyNotes {c d : Client} (h : c.core = d.core) (notes : List Note) :
    (c.applyNotes notes).core = (d.applyNotes notes).core := by
  induction notes generalizing c d with
  | nil => exact h
  | cons n notes ih =>
    refine ih ?_
    simp only [core, Core.mk.injEq] at h ⊢
    obtain ⟨hconfig, hconnections, hcalls, hprogress, hwire⟩ := h
    cases n <;> exact ⟨hconfig, hconnections, by simp only [applyNote, hcalls], hprogress, hwire⟩

lemma noteWrites_of_written (c : Client) (i : Nat) {before after : Link}
    (h : after.written = before.written) : c.noteWrites i before after = c := by
  simp [noteWrites, h]

section Act
variable {c c' : Client} {i : Nat} {s : Session} {holder : Holder}

lemma moved_of_greet? {id : String} {g : Handshake} {link : Link}
    (hphase : c.phase? i = some (.greeting g link)) (h : c.greet? i id g link = some c') :
    Moved c c' := by
  cases g with
  | done result =>
    obtain rfl := Option.some.inj h
    cases result with
    | error e => exact .rejected i e link hphase rfl
    | ok u => exact .began i link hphase rfl
  | writing octets =>
    obtain ⟨⟨g', link'⟩, hstep, rfl⟩ := Option.map_eq_some_iff.mp h
    exact .greeted i _ g' link link' hphase hstep rfl
  | awaiting deadline =>
    obtain ⟨⟨g', link'⟩, hstep, rfl⟩ := Option.map_eq_some_iff.mp h
    exact .greeted i _ g' link link' hphase hstep rfl

lemma moved_of_session {s' : Session} (holder' : Holder)
    (hphase : c.phase? i = some (.established s holder))
    (hmoved : s.Moved c.now c.progress s' c.progress [])
    (hwritten : s'.link.written = s.link.written)
    (h : c'.core = (c.setPhase i (.established s' holder')).core) : Moved c c' := by
  refine .session i s s' holder holder' c.progress [] hphase hmoved ?_
  rw [h, noteWrites_of_written _ _ hwritten]
  rfl

lemma moved_of_startup? {id : String} (hphase : c.phase? i = some (.established s holder))
    (h : c.startup? i id s holder = some c') : Moved c c' := by
  rw [startup?] at h
  split at h
  · rename_i s' hstartup
    obtain rfl := Option.some.inj h
    obtain ⟨-, rfl⟩ := Session.startup_ready hstartup
    exact moved_of_session holder hphase (.ready hstartup) rfl rfl
  · rename_i s' hstartup
    obtain rfl := Option.some.inj h
    obtain ⟨m, requests, outbox, -, ⟨-, rfl⟩ | ⟨-, rfl⟩⟩ := Session.startup_going hstartup
    · exact moved_of_session holder hphase (.going hstartup) rfl rfl
    · exact moved_of_session holder hphase (.going hstartup) rfl rfl
  · cases h
  · rename_i hstartup
    obtain rfl := Option.some.inj h
    exact .failed i s holder hphase hstartup rfl

lemma moved_of_write? (hphase : c.phase? i = some (.established s holder))
    (h : c.write? i s holder = some c') : Moved c c' := by
  obtain ⟨⟨s', notes⟩, hwrite, rfl⟩ := Option.map_eq_some_iff.mp h
  exact .session i s s' holder holder c.progress notes hphase (.wrote hwrite) rfl

def hear (c : Client) (i : Nat) (holder : Holder) (step : Session.Step) : Client :=
  ({ c with
    progress := step.progress
    state := if step.ended then .disconnected else c.state }.setPhase i
      (.established step.session holder)).applyNotes step.notes

lemma read?_eq (c : Client) (i : Nat) (s : Session) (holder : Holder) :
    c.read? i s holder = (s.read? c.progress c.now).map (c.hear i holder) := rfl

lemma moved_hear {step : Session.Step} (hphase : c.phase? i = some (.established s holder))
    (h : s.Heard c.progress c.now step) : Moved c (c.hear i holder step) := by
  refine .session i s step.session holder holder step.progress step.notes hphase (.read h) ?_
  rw [noteWrites_of_written _ _ h.written]
  unfold hear
  refine core_applyNotes ?_ step.notes
  rfl

lemma moved_of_read? (hphase : c.phase? i = some (.established s holder))
    (h : c.read? i s holder = some c') : Moved c c' := by
  rw [read?_eq] at h
  obtain ⟨step, hread, rfl⟩ := Option.map_eq_some_iff.mp h
  exact moved_hear hphase (Session.heard_of_read? hread)

lemma moved_of_wait? {id : String} {b : Inbox} {w : Wait}
    (hphase : c.phase? i = some (.established s holder)) (h : c.wait? i s id b w = some c') :
    Moved c c' := by
  rw [wait?] at h
  split at h
  · rename_i ev s' htake
    obtain ⟨items, -, rfl⟩ := Session.takeEvent?_cases htake
    split at h
    all_goals
      obtain rfl := Option.some.inj h
      exact moved_of_session _ hphase (.took htake) rfl rfl
  · split at h
    · obtain rfl := Option.some.inj h
      exact moved_of_session _ hphase .rest rfl rfl
    · cases h

lemma moved_of_callOn? {k : Nat} {call : Call} (hcall : c.calls[k]? = some call)
    (hphase : c.phase? call.connection = some (.established s holder))
    (h : c.callOn? k call s holder = some c') : Moved c c' := by
  rw [callOn?] at h
  split at h
  · rename_i item hstage
    simp only at h
    split at h
    · rename_i outbox hoffer
      obtain rfl := Option.some.inj h
      exact .offered k call item s holder outbox hcall hstage hphase hoffer rfl
    · rename_i outbox hoffer
      obtain rfl := Option.some.inj h
      exact .lined k call item s holder outbox hcall hstage hphase hoffer rfl
    · cases h
    · obtain rfl := Option.some.inj h
      exact .settled k call .finished hcall (.inl rfl) rfl
  · rename_i hstage
    split at h
    · cases h
    · rename_i seq hnumber
      obtain rfl := Option.some.inj h
      rw [callNumbered]
      split
      · exact .settled k call .finished hcall (.inl rfl) rfl
      · exact .settled k call .finished hcall (.inl rfl) rfl
      · rename_i hwants
        exact .settled k call _ hcall (.inr ⟨seq, _, rfl, hwants, hstage, hnumber⟩) rfl
    · obtain rfl := Option.some.inj h
      exact .settled k call .finished hcall (.inl rfl) rfl
    · obtain rfl := Option.some.inj h
      exact .settled k call .finished hcall (.inl rfl) rfl
  · rename_i seq deadline hstage
    split at h
    · obtain rfl := Option.some.inj h
      exact .settled k call .finished hcall (.inl rfl) rfl
    · obtain rfl := Option.some.inj h
      exact .settled k call .finished hcall (.inl rfl) rfl
    · rename_i hreceipt
      split at h
      · rename_i hdue
        obtain rfl := Option.some.inj h
        exact .expired k call s holder seq deadline hcall hstage hreceipt hdue hphase rfl
      · cases h
  · split at h
    · cases h
    · obtain rfl := Option.some.inj h
      exact .settled k call .finished hcall (.inl rfl) rfl
  · cases h

end Act

theorem moved_of_act? {c c' : Client} {a : Actor} (h : c.act? a = some c') : Moved c c' := by
  cases a with
  | connecting i =>
    simp only [act?] at h
    split at h
    · rename_i id g link hconnection
      exact moved_of_greet? (by rw [phase?, hconnection]; rfl) h
    · rename_i id s holder hconnection
      exact moved_of_startup? (by rw [phase?, hconnection]; rfl) h
    · cases h
  | writing i =>
    simp only [act?] at h
    split at h
    · rename_i s holder hphase
      exact moved_of_write? hphase h
    · cases h
  | reading i =>
    simp only [act?] at h
    split at h
    · rename_i s holder hphase
      exact moved_of_read? hphase h
    · cases h
  | calling k =>
    simp only [act?] at h
    split at h
    · cases h
    · rename_i call hcall
      split at h
      · rename_i s holder hphase
        exact moved_of_callOn? hcall hphase h
      · cases h
  | holding i =>
    simp only [act?] at h
    split at h
    · rename_i s id b w hphase
      exact moved_of_wait? hphase h
    · rename_i s id hphase
      rw [close?] at h
      split at h
      · obtain rfl := Option.some.inj h
        exact moved_of_session _ hphase .rest rfl rfl
      · cases h
    · cases h

section Operations
variable {c : Client} {i : Nat} {s : Session} {holder : Holder}

lemma handle?_eq_some (h : c.handle? i = some (s, holder)) :
    c.phase? i = some (.established s holder) := by
  rw [handle?] at h
  split at h
  · rename_i s' holder' hphase
    split at h
    · cases h
    · simp only [Option.some.injEq, Prod.mk.injEq] at h
      obtain ⟨rfl, rfl⟩ := h
      exact hphase
  · cases h

lemma inbox?_eq_some {b : Inbox} (h : c.inbox? i = some (s, b)) :
    c.phase? i = some (.established s (.free b)) := by
  rw [inbox?] at h
  split at h
  · rename_i s' b' hhandle
    simp only [Option.some.injEq, Prod.mk.injEq] at h
    obtain ⟨rfl, rfl⟩ := h
    exact handle?_eq_some hhandle
  · cases h

lemma core_connectFailed (c : Client) (id : String) (e : Error) :
    ((c.addFailed id).connectFailed c.connections.length id e).core =
      { c with connections := c.connections ++ [(⟨id, .failed⟩ : Connection)] }.core := by
  have hmodify : (c.connections ++ [(⟨id, .failed⟩ : Connection)]).modify c.connections.length
      (fun k => { k with phase := .failed }) = c.connections ++ [⟨id, .failed⟩] := by
    rw [List.modify_eq_take_cons_drop (by simp)]
    simp
  simp only [connectFailed, addFailed, setPhase, finish, core, hmodify]

lemma nextToken_eq (c : Client) : ∃ token tokens, c.nextToken = (token, { c with tokens }) := by
  rw [nextToken]
  split
  · exact ⟨_, _, rfl⟩
  · exact ⟨_, _, rfl⟩
  · exact ⟨_, _, rfl⟩

lemma moved_connect (c : Client) (id : String) : Moved c (c.connect id) := by
  obtain ⟨token, tokens, hnext⟩ := nextToken_eq { c with state := .authenticating }
  simp only [connect, hnext]
  cases token with
  | ok token => exact .joined id _ (.inr ⟨token, rfl⟩) rfl
  | error e =>
    exact .joined id .failed (.inl rfl)
      (core_connectFailed { c with state := .authenticating, tokens } id e)

lemma core_send (c : Client) (i : Nat) (s : Session) (id : String) (wants : Wants) (m : Message)
    (flags : Flags) :
    ∃ new, (new = [] ∨ ∃ call, new = [call] ∧ Call.Starts call c.calls.length) ∧
      (c.send i s id wants m flags).core = { c with calls := c.calls ++ new }.core := by
  rw [send]
  split
  · exact ⟨_, .inr ⟨_, rfl, rfl, rfl, .inr ⟨_, rfl, rfl, rfl⟩⟩, rfl⟩
  · exact ⟨[], .inl rfl, by rw [List.append_nil]; rfl⟩

lemma moved_send (c : Client) (i : Nat) (s : Session) (id : String) (wants : Wants) (m : Message)
    (flags : Flags) : Moved c (c.send i s id wants m flags) := by
  obtain ⟨new, hnew, hcore⟩ := c.core_send i s id wants m flags
  exact .called new c.progress.engine hnew (.inl rfl) hcore

lemma moved_trackGroup (c : Client) (i : Nat) (s : Session) (id : String) (g : Int64) :
    Moved c (c.trackGroup i s id g) := by
  simp only [trackGroup]
  split
  · rename_i m hrequest
    obtain ⟨new, hnew, hcore⟩ := core_send { c with
      progress := { c.progress with engine := (c.progress.engine.trackGroup g).1 } } i s id
      .nothing m 0
    exact .called new _ hnew (.inr ⟨g, rfl⟩) hcore
  · refine .called [] _ (.inl rfl) (.inr ⟨g, rfl⟩) ?_
    rw [List.append_nil]
    rfl

lemma moved_recv {b : Inbox} (hphase : c.phase? i = some (.established s (.free b))) :
    Moved c (c.recv i s b).2 := by
  rw [recv]
  split
  · exact moved_of_session _ hphase .rest rfl rfl
  · split
    · rename_i ev s' htake
      obtain ⟨items, -, rfl⟩ := Session.takeEvent?_cases htake
      exact moved_of_session _ hphase (.took htake) rfl rfl
    · exact .still rfl

lemma moved_waitFor {b : Inbox} (hphase : c.phase? i = some (.established s (.free b)))
    (id : String) (pred : Frame → Bool) : Moved c (c.waitFor i s b id pred) := by
  rw [waitFor]
  split <;> exact moved_of_session _ hphase .rest rfl rfl

lemma moved_happen (c : Client) (i : Nat) (e : LinkEvent) : Moved c (c.happen i e) := by
  rw [happen]
  split
  · rename_i g link hphase
    exact .befell i g link e hphase rfl
  · rename_i s holder hphase
    exact moved_of_session holder hphase (.event e) (s.link.written_happen e) rfl
  · exact .still rfl

end Operations

theorem moved (c : Client) (m : Move) : Moved c (c.move m) := by
  cases m with
  | act a =>
    rw [move]
    cases hact : c.act? a with
    | none => exact .still rfl
    | some c' => exact moved_of_act? hact
  | connect id => exact moved_connect c id
  | connectTcp id => exact .joined id .failed (.inl rfl) (core_connectFailed c id _)
  | happen i e => exact moved_happen c i e
  | send i id wants m flags =>
    rw [move]
    split
    · exact moved_send c i _ id wants m flags
    · exact .still rfl
  | trackGroup i id g =>
    rw [move]
    split
    · exact moved_trackGroup c i _ id g
    · exact .still rfl
  | awaitStopped i id =>
    rw [move]
    split
    · exact .called _ c.progress.engine (.inr ⟨_, rfl, rfl, rfl, .inl rfl⟩) (.inl rfl) rfl
    · exact .still rfl
  | close i =>
    rw [move, close]
    split
    · rename_i s holder hhandle
      exact moved_of_session holder (handle?_eq_some hhandle) .closing rfl rfl
    · exact .still rfl
  | recv i =>
    rw [move]
    split
    · rename_i s b hinbox
      exact moved_recv (inbox?_eq_some hinbox)
    · exact .still rfl
  | waitFor i id pred =>
    rw [move]
    split
    · rename_i s b hinbox
      exact moved_waitFor (inbox?_eq_some hinbox) id pred
    · exact .still rfl
  | cancelWait i =>
    rw [move, cancelWait]
    split
    · rename_i s id b w hphase
      exact moved_of_session (.free b) hphase .rest rfl rfl
    · exact .still rfl
  | dropSession i =>
    rw [move]
    split
    · rename_i s b hinbox
      exact moved_of_session .gone (inbox?_eq_some hinbox) .abandoned rfl rfl
    · exact .still rfl
  | closeSession i id =>
    rw [move]
    split
    · rename_i s b hinbox
      exact moved_of_session (.closing id) (inbox?_eq_some hinbox) .closed rfl rfl
    · exact .still rfl
  | pass ms => exact .still rfl

lemma Moved.config_eq {c c' : Client} (h : c.Moved c') : c'.config = c.config := by
  cases h with
  | session i s s' holder holder' p' notes hphase hmoved h =>
    rw [config_congr h, config_applyNotes]
    rfl
  | still h => exact (config_congr h :)
  | joined id phase hphase h => exact (config_congr h :)
  | called new engine hnew hengine h => exact (config_congr h :)
  | greeted i g g' link link' hphase hstep h => exact (config_congr h :)
  | befell i g link e hphase h => exact (config_congr h :)
  | rejected i e link hphase h => exact (config_congr h :)
  | began i link hphase h => exact (config_congr h :)
  | failed i s holder hphase hstartup h => exact (config_congr h :)
  | offered k call item s holder outbox hcall hstage hphase hoffer h => exact (config_congr h :)
  | lined k call item s holder outbox hcall hstage hphase hoffer h => exact (config_congr h :)
  | settled k call stage hcall hstage h => exact (config_congr h :)
  | expired k call s holder seq deadline hcall hstage hreceipt hdue hphase h =>
    exact (config_congr h :)

end Client

end Parley
