import Parley.Proofs.Client.Run
import Parley.Proofs.Session.Choices

/-!
# What a move makes of a connection

`Client.Moved` says what a move can do to a client as a whole. `Client.PhaseMoved` says of one
connection which moves change it, and how: what holds of a connection in every run is a case
analysis of it. A turn is a move in which the reading side of a connection may choose among all that
it can do, where `Client.move` always takes the first; runs of turns are the more general ones.
-/

namespace Parley

namespace Client

/-- A move, and what the reading side of a connection chooses if the move is its. -/
structure Turn where
  move : Move
  choice : Nat

/-- The reading side takes the first that it can do, as in a move. -/
def Turn.first (m : Move) : Turn := ⟨m, 0⟩

def firsts (ms : List Move) : List Turn := ms.map .first

def choose (c : Client) (i n : Nat) : Client :=
  match c.phase? i with
  | some (.established s holder) => ((s.choices c.progress c.now)[n]?.map (c.hear i holder)).getD c
  | _ => c

def play (c : Client) (t : Turn) : Client :=
  match t.move with
  | .act (.reading i) => c.choose i t.choice
  | m => c.move m

def playAll (c : Client) (ts : List Turn) : Client := ts.foldl play c

lemma playAll_append (c : Client) (ts ts' : List Turn) :
    c.playAll (ts ++ ts') = (c.playAll ts).playAll ts' :=
  List.foldl_append

lemma playAll_concat (c : Client) (ts : List Turn) (t : Turn) :
    c.playAll (ts ++ [t]) = (c.playAll ts).play t :=
  List.foldl_append

lemma phase?_hear (c : Client) (i : Nat) (holder : Holder) (step : Session.Step) (j : Nat) :
    (c.hear i holder step).phase? j =
      (c.setPhase i (.established step.session holder)).phase? j :=
  phase?_applyNotes _ step.notes j

def taken? (c : Client) (i : Nat) : Move → Option Event
  | .recv j =>
    match c.inbox? j with
    | some (s, b) => if j = i ∧ b.stash = [] then s.takeEvent?.map (·.1) else none
    | none => none
  | .act (.holding j) =>
    match c.phase? j with
    | some (.established s (.waiting _ _ _)) => if j = i then s.takeEvent?.map (·.1) else none
    | _ => none
  | _ => none

def Move.joins : Move → Bool
  | .connect _ | .connectTcp _ => true
  | _ => false

/-- How a move changes the phase of a connection, and which event it takes out of its channel. -/
inductive PhaseMoved (c : Client) (i : Nat) :
    Move → Option Event → Option Phase → Option Phase → Prop
  | same (m : Move) (phase : Option Phase) : PhaseMoved c i m none phase phase
  | joined (m : Move) (phase : Phase) (hjoins : m.joins = true) (hphase : phase = .failed ∨
      ∃ token, phase = .greeting (c.introduce token) (Link.fresh c.config.connection.maxBody)) :
    PhaseMoved c i m none none (some phase)
  | befell (e : LinkEvent) (g : Handshake) (link : Link) :
    PhaseMoved c i (.happen i e) none (some (.greeting g link)) (some (.greeting g (link.happen e)))
  | greeted (g g' : Handshake) (link link' : Link)
    (h : g.step? c.config.connection.authTimeout c.now link = some (g', link')) :
    PhaseMoved c i (.act (.connecting i)) none (some (.greeting g link)) (some (.greeting g' link'))
  | rejected (e : Error) (link : Link) :
    PhaseMoved c i (.act (.connecting i)) none (some (.greeting (.done (.error e)) link))
      (some .failed)
  | began (link : Link) :
    PhaseMoved c i (.act (.connecting i)) none (some (.greeting (.done (.ok ())) link))
      (some (.established (Session.start c.config link (Handshake.seq + 1) c.now
        c.progress.engine.onReady.2) (.free {})))
  | failed (s : Session) (holder : Holder) (h : s.startup c.now = .failed) :
    PhaseMoved c i (.act (.connecting i)) none (some (.established s holder)) (some .failed)
  | ready (s s' : Session) (holder : Holder) (h : s.startup c.now = .ready s') :
    PhaseMoved c i (.act (.connecting i)) none (some (.established s holder))
      (some (.established s' holder))
  | going (s s' : Session) (holder : Holder) (h : s.startup c.now = .going s') :
    PhaseMoved c i (.act (.connecting i)) none (some (.established s holder))
      (some (.established s' holder))
  | wrote (s s' : Session) (holder : Holder) (notes : List Note)
    (h : s.write? = some (s', notes)) :
    PhaseMoved c i (.act (.writing i)) none (some (.established s holder))
      (some (.established s' holder))
  | read (s : Session) (step : Session.Step) (holder : Holder)
    (h : step ∈ s.choices c.progress c.now) :
    PhaseMoved c i (.act (.reading i)) none (some (.established s holder))
      (some (.established step.session holder))
  | event (e : LinkEvent) (s : Session) (holder : Holder) :
    PhaseMoved c i (.happen i e) none (some (.established s holder))
      (some (.established { s with link := s.link.happen e } holder))
  | offered (k : Nat) (item : Outgoing) (s : Session) (holder : Holder) (outbox : Outbox)
    (h : s.outbox.offer (.call k) item = .taken outbox ∨
      s.outbox.offer (.call k) item = .lined outbox) :
    PhaseMoved c i (.act (.calling k)) none (some (.established s holder))
      (some (.established { s with outbox } holder))
  | expired (k : Nat) (call : Call) (seq : Int32) (deadline : Nat) (s : Session) (holder : Holder)
    (hcall : c.calls[k]? = some call) (hstage : call.stage = .awaiting seq deadline)
    (hconnection : call.connection = i) (hdue : deadline ≤ c.now) :
    PhaseMoved c i (.act (.calling k)) none (some (.established s holder))
      (some (.established (s.forget seq).1 holder))
  | closing (s : Session) (holder : Holder) :
    PhaseMoved c i (.close i) none (some (.established s holder))
      (some (.established { s with closing := true } holder))
  | took (s s' : Session) (b : Inbox) (ev : Event) (hstash : b.pop? = none)
    (h : s.takeEvent? = some (ev, s')) :
    PhaseMoved c i (.recv i) (some ev) (some (.established s (.free b)))
      (some (.established s' (.free (b.observe ev))))
  | unstashed (s : Session) (b b' : Inbox) (ev : Event) (h : b.pop? = some (ev, b')) :
    PhaseMoved c i (.recv i) none (some (.established s (.free b)))
      (some (.established s (.free b')))
  | waited (id : String) (pred : Frame → Bool) (s : Session) (b b' : Inbox) (w : Wait)
    (hinbox : c.inbox? i = some (s, b)) (h : Wait.start pred b = (b', .going w)) :
    PhaseMoved c i (.waitFor i id pred) none (some (.established s (.free b)))
      (some (.established s (.waiting id b' w)))
  | answered (id : String) (pred : Frame → Bool) (s : Session) (b b' : Inbox)
    (result : Except Error Frame) (tried : Nat)
    (h : Wait.start pred b = (b', .done result tried)) :
    PhaseMoved c i (.waitFor i id pred) none (some (.established s (.free b)))
      (some (.established s (.free b')))
  | passed (id : String) (s s' : Session) (b b' : Inbox) (w w' : Wait) (ev : Event)
    (htake : s.takeEvent? = some (ev, s')) (h : w.step b ev = (b', .going w')) :
    PhaseMoved c i (.act (.holding i)) (some ev) (some (.established s (.waiting id b w)))
      (some (.established s' (.waiting id b' w')))
  | found (id : String) (s s' : Session) (b b' : Inbox) (w : Wait) (ev : Event)
    (result : Except Error Frame) (tried : Nat) (htake : s.takeEvent? = some (ev, s'))
    (h : w.step b ev = (b', .done result tried)) :
    PhaseMoved c i (.act (.holding i)) (some ev) (some (.established s (.waiting id b w)))
      (some (.established s' (.free b')))
  | starved (id : String) (s : Session) (b : Inbox) (w : Wait) (hsilent : s.isSilent = true) :
    PhaseMoved c i (.act (.holding i)) none (some (.established s (.waiting id b w)))
      (some (.established s (.free b)))
  | cancelled (id : String) (s : Session) (b : Inbox) (w : Wait) :
    PhaseMoved c i (.cancelWait i) none (some (.established s (.waiting id b w)))
      (some (.established s (.free b)))
  | dropped (s : Session) (b : Inbox) :
    PhaseMoved c i (.dropSession i) none (some (.established s (.free b)))
      (some (.established (abandon s) .gone))
  | closed (id : String) (s : Session) (b : Inbox) :
    PhaseMoved c i (.closeSession i id) none (some (.established s (.free b)))
      (some (.established { abandon s with closing := true } (.closing id)))
  | left (id : String) (s : Session) (hstage : s.stage = .gone) :
    PhaseMoved c i (.act (.holding i)) none (some (.established s (.closing id)))
      (some (.established s .gone))

section Changing
variable {c c' : Client} {m : Move} {i j : Nat}

lemma phaseMoved_of_eq (h : c'.phase? i = c.phase? i) :
    PhaseMoved c i m none (c.phase? i) (c'.phase? i) := by
  rw [h]
  exact .same m _

lemma phaseMoved_of_setPhase {d : Client} {old new : Phase} {taken : Option Event}
    (hphases : ∀ i, c'.phase? i = (d.setPhase j new).phase? i) (hold : c.phase? j = some old)
    (hd : ∀ i, d.phase? i = c.phase? i) (h : PhaseMoved c j m taken (some old) (some new))
    (i : Nat) :
    PhaseMoved c i m (if j = i then taken else none) (c.phase? i) (c'.phase? i) := by
  rcases phase?_of_setPhase hphases hold hd i with ⟨rfl, hold', hnew⟩ | ⟨hne, hsame⟩
  · rw [hold', hnew, if_pos rfl]
    exact h
  · rw [if_neg hne]
    exact phaseMoved_of_eq hsame

lemma phaseMoved_of_setPhase_none {d : Client} {old new : Phase}
    (hphases : ∀ i, c'.phase? i = (d.setPhase j new).phase? i) (hold : c.phase? j = some old)
    (hd : ∀ i, d.phase? i = c.phase? i) (h : PhaseMoved c j m none (some old) (some new))
    (i : Nat) : PhaseMoved c i m none (c.phase? i) (c'.phase? i) := by
  have hmoved := phaseMoved_of_setPhase hphases hold hd h i
  rwa [ite_self] at hmoved

lemma phaseMoved_append {k : Connection} (hjoins : m.joins = true)
    (hconnections : c'.connections = c.connections ++ [k])
    (hphase : k.phase = .failed ∨ ∃ token, k.phase =
      .greeting (c.introduce token) (Link.fresh c.config.connection.maxBody)) (i : Nat) :
    PhaseMoved c i m none (c.phase? i) (c'.phase? i) := by
  have hphase' : c'.phase? i = { c with connections := c.connections ++ [k] }.phase? i := by
    rw [phase?, phase?, hconnections]
  rw [hphase', phase?_append]
  split
  · rename_i hi
    rw [phase?_of_length_le c (Nat.le_of_eq hi.symm)]
    exact .joined m k.phase hjoins hphase
  · exact .same m _

end Changing

section Parts
variable {c c' : Client} {i j : Nat} {s : Session} {holder : Holder}

lemma phaseMoved_of_greet? {id : String} {g : Handshake} {link : Link}
    (hphase : c.phase? j = some (.greeting g link)) (h : c.greet? j id g link = some c') :
    PhaseMoved c i (.act (.connecting j)) none (c.phase? i) (c'.phase? i) := by
  cases g with
  | done result =>
    obtain rfl := Option.some.inj h
    cases result with
    | error e =>
      exact phaseMoved_of_setPhase_none (fun _ => rfl) hphase (fun _ => rfl) (.rejected e link) i
    | ok u => exact phaseMoved_of_setPhase_none (fun _ => rfl) hphase (fun _ => rfl) (.began link) i
  | writing octets =>
    obtain ⟨⟨g', link'⟩, hstep, rfl⟩ := Option.map_eq_some_iff.mp h
    exact phaseMoved_of_setPhase_none (fun _ => rfl) hphase (fun _ => rfl)
      (.greeted _ g' link link' hstep) i
  | awaiting deadline =>
    obtain ⟨⟨g', link'⟩, hstep, rfl⟩ := Option.map_eq_some_iff.mp h
    exact phaseMoved_of_setPhase_none (fun _ => rfl) hphase (fun _ => rfl)
      (.greeted _ g' link link' hstep) i

lemma phaseMoved_of_startup? {id : String} (hphase : c.phase? j = some (.established s holder))
    (h : c.startup? j id s holder = some c') :
    PhaseMoved c i (.act (.connecting j)) none (c.phase? i) (c'.phase? i) := by
  rw [startup?] at h
  split at h
  · rename_i s' hstartup
    obtain rfl := Option.some.inj h
    exact phaseMoved_of_setPhase_none (fun _ => rfl) hphase (fun _ => rfl)
      (.ready s s' holder hstartup) i
  · rename_i s' hstartup
    obtain rfl := Option.some.inj h
    exact phaseMoved_of_setPhase_none (fun _ => rfl) hphase (fun _ => rfl)
      (.going s s' holder hstartup) i
  · cases h
  · rename_i hstartup
    obtain rfl := Option.some.inj h
    exact phaseMoved_of_setPhase_none (fun _ => rfl) hphase (fun _ => rfl)
      (.failed s holder hstartup) i

lemma phaseMoved_of_wait? {id : String} {b : Inbox} {w : Wait}
    (hphase : c.phase? j = some (.established s (.waiting id b w)))
    (h : c.wait? j s id b w = some c') :
    PhaseMoved c i (.act (.holding j)) (c.taken? i (.act (.holding j))) (c.phase? i)
      (c'.phase? i) := by
  have htaken : c.taken? i (.act (.holding j)) =
      if j = i then s.takeEvent?.map (·.1) else none := by
    simp only [taken?, hphase]
  rw [wait?] at h
  split at h
  · rename_i ev s' htake
    rw [htaken, htake]
    split at h
    · rename_i b' w' hstep
      obtain rfl := Option.some.inj h
      exact phaseMoved_of_setPhase (fun _ => rfl) hphase (fun _ => rfl)
        (.passed id s s' b b' w w' ev htake hstep) i
    · rename_i b' f tried hstep
      obtain rfl := Option.some.inj h
      exact phaseMoved_of_setPhase (fun _ => rfl) hphase (fun _ => rfl)
        (.found id s s' b b' w ev _ tried htake hstep) i
    · rename_i b' e tried hstep
      obtain rfl := Option.some.inj h
      exact phaseMoved_of_setPhase (fun _ => rfl) hphase (fun _ => rfl)
        (.found id s s' b b' w ev _ tried htake hstep) i
  · rename_i htake
    rw [htaken, htake, Option.map_none, ite_self]
    split at h
    · rename_i hsilent
      obtain rfl := Option.some.inj h
      exact phaseMoved_of_setPhase_none (fun _ => rfl) hphase (fun _ => rfl)
        (.starved id s b w hsilent) i
    · cases h

lemma phase?_callNumbered (c : Client) (k : Nat) (call : Call) (seq : Int32) (i : Nat) :
    (c.callNumbered k call seq).phase? i = c.phase? i := by
  rw [callNumbered]
  split <;> rfl

lemma phaseMoved_of_callOn? {k : Nat} {call : Call} (hcall : c.calls[k]? = some call)
    (hphase : c.phase? call.connection = some (.established s holder))
    (h : c.callOn? k call s holder = some c') :
    PhaseMoved c i (.act (.calling k)) none (c.phase? i) (c'.phase? i) := by
  rw [callOn?] at h
  split at h
  · rename_i item hstage
    simp only at h
    split at h
    · rename_i outbox hoffer
      obtain rfl := Option.some.inj h
      exact phaseMoved_of_setPhase_none (fun _ => rfl) hphase (fun _ => rfl)
        (.offered k item s holder outbox (.inl hoffer)) i
    · rename_i outbox hoffer
      obtain rfl := Option.some.inj h
      exact phaseMoved_of_setPhase_none (fun _ => rfl) hphase (fun _ => rfl)
        (.offered k item s holder outbox (.inr hoffer)) i
    · cases h
    · obtain rfl := Option.some.inj h
      exact .same _ _
  · split at h
    · cases h
    · obtain rfl := Option.some.inj h
      exact phaseMoved_of_eq (phase?_callNumbered _ _ _ _ i)
    · obtain rfl := Option.some.inj h
      exact .same _ _
    · obtain rfl := Option.some.inj h
      exact .same _ _
  · rename_i seq deadline hstage
    split at h
    · obtain rfl := Option.some.inj h
      exact .same _ _
    · obtain rfl := Option.some.inj h
      exact .same _ _
    · split at h
      · rename_i hdue
        obtain rfl := Option.some.inj h
        exact phaseMoved_of_setPhase_none (fun _ => rfl) hphase (fun _ => rfl)
          (.expired k call seq deadline s holder hcall hstage rfl hdue) i
      · cases h
  · split at h
    · cases h
    · obtain rfl := Option.some.inj h
      exact .same _ _
  · cases h

lemma phaseMoved_of_act? {a : Actor} (h : c.act? a = some c') :
    PhaseMoved c i (.act a) (c.taken? i (.act a)) (c.phase? i) (c'.phase? i) := by
  cases a with
  | connecting j =>
    simp only [act?] at h
    split at h
    · rename_i id g link hconnection
      exact phaseMoved_of_greet? (by rw [phase?, hconnection]; rfl) h
    · rename_i id s holder hconnection
      exact phaseMoved_of_startup? (by rw [phase?, hconnection]; rfl) h
    · cases h
  | writing j =>
    simp only [act?] at h
    split at h
    · rename_i s holder hphase
      obtain ⟨⟨s', notes⟩, hwrite, rfl⟩ := Option.map_eq_some_iff.mp h
      exact phaseMoved_of_setPhase_none (d := c.noteWrites j s.link s'.link)
        (fun _ => phase?_applyNotes _ notes _) hphase (fun _ => rfl)
        (.wrote s s' holder notes hwrite) i
    · cases h
  | reading j =>
    simp only [act?] at h
    split at h
    · rename_i s holder hphase
      rw [read?_eq] at h
      obtain ⟨step, hread, rfl⟩ := Option.map_eq_some_iff.mp h
      exact phaseMoved_of_setPhase_none (phase?_hear c j holder step) hphase (fun _ => rfl)
        (.read s step holder (Session.mem_choices_of_read? hread)) i
    · cases h
  | calling k =>
    simp only [act?] at h
    split at h
    · cases h
    · rename_i call hcall
      split at h
      · rename_i s holder hphase
        exact phaseMoved_of_callOn? hcall hphase h
      · cases h
  | holding j =>
    simp only [act?] at h
    split at h
    · rename_i s id b w hphase
      exact phaseMoved_of_wait? hphase h
    · rename_i s id hphase
      rw [close?] at h
      split at h
      · rename_i hstage
        obtain rfl := Option.some.inj h
        have htaken : c.taken? i (.act (.holding j)) = none := by simp only [taken?, hphase]
        rw [htaken]
        exact phaseMoved_of_setPhase_none (fun _ => rfl) hphase (fun _ => rfl) (.left id s hstage) i
      · cases h
    · cases h

lemma taken?_of_act?_none {a : Actor} (h : c.act? a = none) : c.taken? i (.act a) = none := by
  cases a with
  | holding j =>
    simp only [act?] at h
    simp only [taken?]
    split at h
    · rename_i s id b w hphase
      rw [hphase]
      cases htake : s.takeEvent? with
      | none =>
        simp only [htake, Option.map_none, ite_self]
      | some taken =>
        rw [wait?, htake] at h
        simp only at h
        split at h <;> cases h
    · rename_i s id hphase
      rw [hphase]
    · rename_i hwaiting hclosing
      split
      · rename_i s id b w hphase
        exact absurd hphase (hwaiting s id b w)
      · rfl
  | _ => rfl

lemma phase?_trackGroup (c : Client) (j : Nat) (s : Session) (id : String) (g : Int64) (i : Nat) :
    (c.trackGroup j s id g).phase? i = c.phase? i := by
  simp only [trackGroup]
  split
  · obtain ⟨new, -, hcore⟩ := core_send { c with
      progress := { c.progress with engine := (c.progress.engine.trackGroup g).1 } } j s id
      .nothing _ 0
    exact phase?_congr hcore i
  · rfl

lemma connections_connectFailed (c : Client) (id : String) (e : Error) :
    ((c.addFailed id).connectFailed c.connections.length id e).connections =
      c.connections ++ [(⟨id, .failed⟩ : Connection)] :=
  congrArg Core.connections (core_connectFailed c id e)

lemma phaseMoved_connect (c : Client) (id : String) (i : Nat) :
    PhaseMoved c i (.connect id) none (c.phase? i) ((c.connect id).phase? i) := by
  obtain ⟨token, tokens, hnext⟩ := nextToken_eq { c with state := .authenticating }
  simp only [connect, hnext]
  cases token with
  | ok token => exact phaseMoved_append rfl rfl (.inr ⟨token, rfl⟩) i
  | error e =>
    have hconnections := connections_connectFailed { c with state := .authenticating, tokens } id e
    exact phaseMoved_append (c := c) rfl hconnections (.inl rfl) i

lemma phaseMoved_recv {b : Inbox} (hinbox : c.inbox? j = some (s, b)) :
    PhaseMoved c i (.recv j) (c.taken? i (.recv j)) (c.phase? i) ((c.recv j s b).2.phase? i) := by
  have hphase := inbox?_eq_some hinbox
  have htaken : c.taken? i (.recv j) =
      if j = i ∧ b.stash = [] then s.takeEvent?.map (·.1) else none := by
    simp only [taken?, hinbox]
  rw [recv]
  split
  · rename_i ev b' hpop
    have hstash : b.stash ≠ [] := by
      intro hstash
      rw [Inbox.pop?, hstash] at hpop
      cases hpop
    rw [htaken, if_neg fun h => hstash h.2]
    exact phaseMoved_of_setPhase_none (fun _ => rfl) hphase (fun _ => rfl)
      (.unstashed s b b' ev hpop) i
  · rename_i hpop
    have hstash : b.stash = [] := by
      rw [Inbox.pop?] at hpop
      split at hpop
      · assumption
      · cases hpop
    have htaken' : c.taken? i (.recv j) = if j = i then s.takeEvent?.map (·.1) else none := by
      rw [htaken]
      simp only [hstash, and_true]
    rw [htaken']
    cases htake : s.takeEvent? with
    | none =>
      rw [Option.map_none, ite_self]
      exact .same _ _
    | some taken =>
      obtain ⟨ev, s'⟩ := taken
      exact phaseMoved_of_setPhase (fun _ => rfl) hphase (fun _ => rfl)
        (.took s s' b ev hpop htake) i

lemma phaseMoved_waitFor {b : Inbox} (hinbox : c.inbox? j = some (s, b)) (id : String)
    (pred : Frame → Bool) :
    PhaseMoved c i (.waitFor j id pred) none (c.phase? i) ((c.waitFor j s b id pred).phase? i) := by
  have hphase := inbox?_eq_some hinbox
  rw [waitFor]
  split
  · rename_i b' w hstart
    exact phaseMoved_of_setPhase_none (fun _ => rfl) hphase (fun _ => rfl)
      (.waited id pred s b b' w hinbox hstart) i
  · rename_i b' f tried hstart
    exact phaseMoved_of_setPhase_none (fun _ => rfl) hphase (fun _ => rfl)
      (.answered id pred s b b' _ tried hstart) i
  · rename_i b' e tried hstart
    exact phaseMoved_of_setPhase_none (fun _ => rfl) hphase (fun _ => rfl)
      (.answered id pred s b b' _ tried hstart) i

end Parts

theorem phaseMoved (c : Client) (m : Move) (i : Nat) :
    PhaseMoved c i m (c.taken? i m) (c.phase? i) ((c.move m).phase? i) := by
  cases m with
  | act a =>
    rw [move]
    cases hact : c.act? a with
    | none =>
      rw [taken?_of_act?_none hact]
      exact .same _ _
    | some c' => exact phaseMoved_of_act? hact
  | connect id => exact phaseMoved_connect c id i
  | connectTcp id => exact phaseMoved_append rfl (connections_connectFailed c id _) (.inl rfl) i
  | happen j e =>
    rw [move, happen]
    split
    · rename_i g link hphase
      exact phaseMoved_of_setPhase_none (fun _ => rfl) hphase (fun _ => rfl) (.befell e g link) i
    · rename_i s holder hphase
      exact phaseMoved_of_setPhase_none (fun _ => rfl) hphase (fun _ => rfl) (.event e s holder) i
    · exact .same _ _
  | send j id wants message flags =>
    rw [move]
    split
    · rename_i s holder hhandle
      obtain ⟨new, -, hcore⟩ := c.core_send j s id wants message flags
      exact phaseMoved_of_eq (phase?_congr hcore i)
    · exact .same _ _
  | trackGroup j id g =>
    rw [move]
    split
    · rename_i s holder hhandle
      exact phaseMoved_of_eq (phase?_trackGroup c j s id g i)
    · exact .same _ _
  | awaitStopped j id =>
    rw [move]
    split
    · exact .same _ _
    · exact .same _ _
  | close j =>
    rw [move, close]
    split
    · rename_i s holder hhandle
      exact phaseMoved_of_setPhase_none (fun _ => rfl) (handle?_eq_some hhandle) (fun _ => rfl)
        (.closing s holder) i
    · exact .same _ _
  | recv j =>
    rw [move]
    split
    · rename_i s b hinbox
      exact phaseMoved_recv hinbox
    · rename_i hinbox
      have htaken : c.taken? i (.recv j) = none := by simp only [taken?, hinbox]
      rw [htaken]
      exact .same _ _
  | waitFor j id pred =>
    rw [move]
    split
    · rename_i s b hinbox
      exact phaseMoved_waitFor hinbox id pred
    · exact .same _ _
  | cancelWait j =>
    rw [move, cancelWait]
    split
    · rename_i s id b w hphase
      exact phaseMoved_of_setPhase_none (fun _ => rfl) hphase (fun _ => rfl) (.cancelled id s b w) i
    · exact .same _ _
  | dropSession j =>
    rw [move]
    split
    · rename_i s b hinbox
      exact phaseMoved_of_setPhase_none (fun _ => rfl) (inbox?_eq_some hinbox) (fun _ => rfl)
        (.dropped s b) i
    · exact .same _ _
  | closeSession j id =>
    rw [move]
    split
    · rename_i s b hinbox
      exact phaseMoved_of_setPhase_none (fun _ => rfl) (inbox?_eq_some hinbox) (fun _ => rfl)
        (.closed id s b) i
    · exact .same _ _
  | pass ms => exact .same _ _

lemma phaseMoved_choose (c : Client) (j n i : Nat) :
    PhaseMoved c i (.act (.reading j)) none (c.phase? i) ((c.choose j n).phase? i) := by
  unfold choose
  split
  · rename_i s holder hphase
    cases hstep : (s.choices c.progress c.now)[n]? with
    | none => exact .same _ _
    | some step =>
      exact phaseMoved_of_setPhase_none (phase?_hear c j holder step) hphase (fun _ => rfl)
        (.read s step holder (List.mem_of_getElem? hstep)) i
  · exact .same _ _

theorem phaseMoved_play (c : Client) (t : Turn) (i : Nat) :
    PhaseMoved c i t.move (c.taken? i t.move) (c.phase? i) ((c.play t).phase? i) := by
  unfold play
  split
  · rename_i j hmove
    rw [hmove]
    exact phaseMoved_choose c j t.choice i
  · exact c.phaseMoved t.move i

/-- Whatever the reading sides choose, a turn does no more than a move can do. -/
theorem moved_play (c : Client) (t : Turn) : Moved c (c.play t) := by
  unfold play
  split
  · rename_i i hmove
    unfold choose
    split
    · rename_i s holder hphase
      cases hstep : (s.choices c.progress c.now)[t.choice]? with
      | none => exact .still rfl
      | some step =>
        exact moved_hear hphase (Session.heard_of_mem_choices (List.mem_of_getElem? hstep))
    · exact .still rfl
  · exact c.moved t.move

lemma config_play (c : Client) (t : Turn) : (c.play t).config = c.config :=
  (c.moved_play t).config_eq

lemma config_playAll (c : Client) (ts : List Turn) : (c.playAll ts).config = c.config := by
  induction ts generalizing c with
  | nil => rfl
  | cons t ts ih => exact (ih (c.play t)).trans (c.config_play t)

lemma play_of_ne {c : Client} {t : Turn} (h : ∀ i, t.move ≠ .act (.reading i)) :
    c.play t = c.move t.move := by
  unfold play
  split
  · rename_i i hmove
    exact absurd hmove (h i)
  · rfl

lemma choose_first (c : Client) (i : Nat) : c.choose i 0 = c.move (.act (.reading i)) := by
  simp only [choose, move, act?]
  cases c.phase? i with
  | none => rfl
  | some phase =>
    cases phase with
    | established s holder =>
      simp only [read?_eq, Session.read?_eq_head?, List.head?_eq_getElem?]
    | greeting g link => rfl
    | failed => rfl

lemma play_first (c : Client) (m : Move) : c.play (.first m) = c.move m := by
  unfold play
  split
  · rename_i i hmove
    obtain rfl : m = .act (.reading i) := hmove
    exact c.choose_first i
  · rfl

lemma playAll_first (c : Client) (ms : List Move) : c.playAll (firsts ms) = c.run ms := by
  induction ms generalizing c with
  | nil => rfl
  | cons m ms ih =>
    change (c.play (.first m)).playAll (firsts ms) = (c.move m).run ms
    rw [play_first, ih]

end Client

end Parley
