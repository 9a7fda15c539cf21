import Parley.Proofs.Client.Feed
import Parley.Proofs.Client.Lanes
import Parley.Proofs.Session.Facing

/-!
# A client with a connection on another reader

`Client.facing` puts another reader and another keepalive under the session of one connection. All
that is done with a client is done alike, unless it is about that reader or that keepalive
(`Client.facing_move`).
-/

namespace Parley

namespace Session
variable (i : Nat) (r : FrameReader) (k : Keepalive) (j : Nat) (s : Session)

def seen : Session → Session := if j = i then facing r k else id

lemma write?_seen : (seen i r k j s).write? = s.write?.map (Prod.map (seen i r k j) id) := by
  unfold seen
  split
  · exact write?_facing r k s
  · simp

lemma takeEvent?_seen :
    (seen i r k j s).takeEvent? = s.takeEvent?.map (Prod.map id (seen i r k j)) := by
  unfold seen
  split
  · cases h : s.channel.items <;> simp [takeEvent?, facing, h]
  · simp

lemma with_outbox_seen (outbox : Outbox) :
    { seen i r k j s with outbox } = seen i r k j { s with outbox } := by
  unfold seen
  split <;> rfl

lemma with_closing_seen (closing : Bool) :
    { seen i r k j s with closing } = seen i r k j { s with closing } := by
  unfold seen
  split <;> rfl

lemma forget_seen (seq : Int32) :
    ((seen i r k j s).forget seq).1 = seen i r k j (s.forget seq).1 := by
  unfold seen
  split <;> rfl

@[simp] lemma stage_seen : (seen i r k j s).stage = s.stage := by
  unfold seen
  split <;> rfl

@[simp] lemma outbox_seen : (seen i r k j s).outbox = s.outbox := by
  unfold seen
  split <;> rfl

@[simp] lemma channel_seen : (seen i r k j s).channel = s.channel := by
  unfold seen
  split <;> rfl

@[simp] lemma written_seen : (seen i r k j s).link.written = s.link.written := by
  unfold seen
  split <;> rfl

@[simp] lemma isSilent_seen : (seen i r k j s).isSilent = s.isSilent := by
  simp [isSilent]

end Session

/-- The phase as it would be on another reader and with another keepalive. -/
def Phase.facing (r : FrameReader) (k : Keepalive) : Phase → Phase
  | .established s holder => .established (s.facing r k) holder
  | phase => phase

namespace Phase
variable (i : Nat) (r : FrameReader) (k : Keepalive) (j : Nat)

def seen : Phase → Phase := if j = i then facing r k else id

@[simp] lemma seen_established (s : Session) (holder : Holder) :
    seen i r k j (.established s holder) = .established (s.seen i r k j) holder := by
  unfold seen Session.seen
  split <;> rfl

@[simp] lemma seen_greeting (g : Handshake) (link : Link) :
    seen i r k j (.greeting g link) = .greeting g link := by
  unfold seen
  split <;> rfl

@[simp] lemma seen_failed : seen i r k j .failed = .failed := by
  unfold seen
  split <;> rfl

end Phase

namespace Client
variable {i j : Nat} {r : FrameReader} {k : Keepalive} {c : Client} {s : Session} {holder : Holder}

/-- The client as it would be with the session of a connection on another reader and with another
keepalive. -/
def facing (i : Nat) (r : FrameReader) (k : Keepalive) (c : Client) : Client :=
  { c with connections := c.connections.modify i fun n => { n with phase := n.phase.facing r k } }

lemma phase?_facing (i : Nat) (r : FrameReader) (k : Keepalive) (c : Client) (j : Nat) :
    (c.facing i r k).phase? j = (c.phase? j).map (Phase.seen i r k j) := by
  unfold phase? facing Phase.seen
  rw [List.getElem?_modify]
  cases c.connections[j]? with
  | none => rfl
  | some n =>
    by_cases h : i = j
    · subst h
      simp
    · simp [h, Ne.symm h]

lemma facing_setPhase (i : Nat) (r : FrameReader) (k : Keepalive) (c : Client) (j : Nat)
    (phase : Phase) :
    (c.setPhase j phase).facing i r k = (c.facing i r k).setPhase j (phase.seen i r k j) := by
  unfold setPhase facing Phase.seen
  congr 1
  refine List.ext_getElem? fun l => ?_
  simp only [List.getElem?_modify]
  cases c.connections[l]? with
  | none => rfl
  | some n =>
    by_cases hi : i = l
    · subst hi
      by_cases hj : j = i <;> simp [hj]
    · by_cases hj : j = l
      · subst hj
        simp [hi, Ne.symm hi]
      · simp [hi, hj]

lemma abandon_seen (i : Nat) (r : FrameReader) (k : Keepalive) (j : Nat) (s : Session) :
    abandon (s.seen i r k j) = (abandon s).seen i r k j := by
  unfold Session.seen
  split <;> rfl

section Facing
variable (i : Nat) (r : FrameReader) (k : Keepalive) (c : Client)

@[simp] lemma facing_applyNotes (notes : List Note) :
    (c.applyNotes notes).facing i r k = (c.facing i r k).applyNotes notes := by
  induction notes generalizing c with
  | nil => rfl
  | cons n notes ih =>
    have hnote : (c.applyNote n).facing i r k = (c.facing i r k).applyNote n := by
      cases n <;> rfl
    exact (ih (c.applyNote n)).trans (congrArg (applyNotes · notes) hnote)

@[simp] lemma facing_finish (id : String) (outcome : Outcome) :
    (c.finish id outcome).facing i r k = (c.facing i r k).finish id outcome := rfl

@[simp] lemma facing_setStage (l : Nat) (stage : CallStage) :
    (c.setStage l stage).facing i r k = (c.facing i r k).setStage l stage := rfl

@[simp] lemma facing_finishCall (l : Nat) (call : Call) (outcome : Outcome) :
    (c.finishCall l call outcome).facing i r k = (c.facing i r k).finishCall l call outcome := rfl

@[simp] lemma facing_connectFailed (j : Nat) (id : String) (e : Error) :
    (c.connectFailed j id e).facing i r k = (c.facing i r k).connectFailed j id e := by
  simp only [connectFailed, facing_finish]
  exact congrArg (fun c => finish { c with state := .disconnected } id (.failed e))
    ((facing_setPhase i r k c j .failed).trans (by rw [Phase.seen_failed]))

lemma facing_append (n : Connection) (hn : n.phase.facing r k = n.phase) :
    { c with connections := c.connections ++ [n] }.facing i r k =
      { c.facing i r k with connections := (c.facing i r k).connections ++ [n] } := by
  unfold facing
  congr 1
  refine List.ext_getElem? fun l => ?_
  simp only [List.getElem?_modify, List.getElem?_append, List.length_modify]
  by_cases hl : l < c.connections.length
  · simp only [if_pos hl]
  · simp only [if_neg hl]
    cases hn' : [n][l - c.connections.length]? with
    | none => rfl
    | some n' =>
      obtain rfl : n' = n := List.mem_singleton.mp (List.mem_of_getElem? hn')
      split
      · simp [hn]
      · rfl

/-! ## Steps of the parts -/

section Parts
variable (j : Nat) (s : Session) (holder : Holder)

lemma facing_write? : (c.facing i r k).write? j (s.seen i r k j) holder =
    (c.write? j s holder).map (facing i r k) := by
  unfold write?
  rw [Session.write?_seen]
  cases s.write? with
  | none => rfl
  | some written =>
    obtain ⟨s', notes⟩ := written
    simp only [Option.map_some, Prod.map_apply, id_eq, facing_applyNotes, facing_setPhase,
      Phase.seen_established, noteWrites, Session.written_seen]
    rfl

lemma facing_wait? (id : String) (b : Inbox) (w : Wait) :
    (c.facing i r k).wait? j (s.seen i r k j) id b w =
      (c.wait? j s id b w).map (facing i r k) := by
  unfold wait?
  rw [Session.takeEvent?_seen]
  cases s.takeEvent? with
  | none =>
    simp only [Option.map_none, Session.isSilent_seen, apply_ite (Option.map (facing i r k)),
      Option.map_some, facing_finish, facing_setPhase, Phase.seen_established]
  | some taken =>
    obtain ⟨ev, s'⟩ := taken
    simp only [Option.map_some, Prod.map_apply, id_eq]
    obtain ⟨b, progress⟩ := w.step b ev
    cases progress with
    | going w => simp only [Option.map_some, facing_setPhase, Phase.seen_established]
    | done result tried =>
      cases result <;>
        simp only [Option.map_some, facing_finish, facing_setPhase, Phase.seen_established]

lemma facing_close? (id : String) :
    (c.facing i r k).close? j (s.seen i r k j) id = (c.close? j s id).map (facing i r k) := by
  simp only [close?, Session.stage_seen, apply_ite (Option.map (facing i r k)), Option.map_some,
    facing_finish, facing_setPhase, Phase.seen_established, Option.map_none]

lemma facing_callNumbered (l : Nat) (call : Call) (seq : Int32) :
    (c.callNumbered l call seq).facing i r k = (c.facing i r k).callNumbered l call seq := by
  unfold callNumbered
  cases call.wants <;> rfl

lemma facing_callOn? (l : Nat) (call : Call) :
    (c.facing i r k).callOn? l call (s.seen i r k call.connection) holder =
      (c.callOn? l call s holder).map (facing i r k) := by
  unfold callOn?
  cases call.stage with
  | offering item =>
    simp only [Session.outbox_seen]
    cases s.outbox.offer (.call l) item with
    | taken outbox | lined outbox =>
      simp only [Option.map_some, facing_setStage, facing_setPhase, Phase.seen_established,
        Session.with_outbox_seen]
    | stuck | closed => rfl
  | queued =>
    cases call.number with
    | empty | broken => rfl
    | full number =>
      cases number with
      | ok seq => exact congrArg some (facing_callNumbered i r k c l call seq).symm
      | error e => rfl
  | awaiting seq deadline =>
    cases call.receipt with
    | full a | broken => rfl
    | empty =>
      simp only [apply_ite (Option.map (facing i r k)), Option.map_some, Option.map_none,
        facing_finishCall, facing_setPhase, Phase.seen_established, Session.forget_seen]
      rfl
  | untilStopped =>
    simp only [Session.outbox_seen, apply_ite (Option.map (facing i r k)), Option.map_some,
      Option.map_none, facing_finishCall]
  | finished => rfl

end Parts

/-! ## Other connections -/

section Others
variable {j : Nat} (hj : j ≠ i)
include hj

lemma phase?_facing_ne : (c.facing i r k).phase? j = c.phase? j := by
  rw [phase?_facing, Phase.seen, if_neg hj, Option.map_id_fun, id]

lemma facing_setPhase_ne (phase : Phase) :
    (c.setPhase j phase).facing i r k = (c.facing i r k).setPhase j phase := by
  rw [facing_setPhase, Phase.seen, if_neg hj, id]

lemma facing_greet?_ne (id : String) (h : Handshake) (link : Link) :
    (c.facing i r k).greet? j id h link = (c.greet? j id h link).map (facing i r k) := by
  have hsteps : ((h.step? c.config.connection.authTimeout c.now link).map fun step =>
      ((c.facing i r k).noteWrites j link step.2).setPhase j (.greeting step.1 step.2)) =
      ((h.step? c.config.connection.authTimeout c.now link).map fun step =>
        (c.noteWrites j link step.2).setPhase j (.greeting step.1 step.2)).map (facing i r k) := by
    rw [Option.map_map]
    refine Option.map_congr fun step _ => ?_
    exact (facing_setPhase_ne i r k (c.noteWrites j link step.2) hj (.greeting step.1 step.2)).symm
  unfold greet?
  cases h with
  | writing octets => exact hsteps
  | awaiting deadline => exact hsteps
  | done result =>
    refine congrArg some ?_
    unfold greeted
    cases result with
    | error e => exact (facing_connectFailed i r k c j id e).symm
    | ok _ =>
      exact (facing_setPhase_ne i r k
        { c with progress := { c.progress with engine := c.progress.engine.onReady.1 } } hj _).symm

lemma facing_startup?_ne (id : String) (s : Session) (holder : Holder) :
    (c.facing i r k).startup? j id s holder = (c.startup? j id s holder).map (facing i r k) := by
  have hnow : (c.facing i r k).now = c.now := rfl
  unfold startup?
  rw [hnow]
  cases s.startup c.now with
  | ready s =>
    simp only [Option.map_some, facing_finish]
    exact congrArg (fun c => some (finish { c with state := .ready } id (.connected j)))
      (facing_setPhase_ne i r k c hj _).symm
  | going s => simp only [Option.map_some, facing_setPhase_ne i r k c hj]
  | stuck => rfl
  | failed => simp only [Option.map_some, facing_connectFailed]

lemma facing_hear_ne (holder : Holder) (step : Session.Step) :
    (c.hear j holder step).facing i r k = (c.facing i r k).hear j holder step := by
  unfold hear
  rw [facing_applyNotes, facing_setPhase_ne i r k _ hj]
  rfl

lemma facing_choose_ne (n : Nat) :
    (c.facing i r k).choose j n = (c.choose j n).facing i r k := by
  unfold choose
  rw [phase?_facing_ne i r k c hj]
  cases c.phase? j with
  | none => rfl
  | some phase =>
    cases phase with
    | greeting _ _ | failed => rfl
    | established s holder =>
      change ((s.choices c.progress c.now)[n]?.map ((c.facing i r k).hear j holder)).getD
          (c.facing i r k) =
        facing i r k (((s.choices c.progress c.now)[n]?.map (c.hear j holder)).getD c)
      cases (s.choices c.progress c.now)[n]? with
      | none => rfl
      | some step => exact (facing_hear_ne i r k c hj holder step).symm

lemma facing_connecting_ne :
    (c.facing i r k).act? (.connecting j) = (c.act? (.connecting j)).map (facing i r k) := by
  have hconnection : (c.facing i r k).connections[j]? = c.connections[j]? := by
    simp [facing, Ne.symm hj]
  unfold act?
  simp only [hconnection]
  cases c.connections[j]? with
  | none => rfl
  | some n =>
    obtain ⟨id, phase⟩ := n
    cases phase with
    | greeting h link => exact facing_greet?_ne i r k c hj id h link
    | established s holder => exact facing_startup?_ne i r k c hj id s holder
    | failed => rfl

lemma facing_happen_ne (e : LinkEvent) :
    (c.facing i r k).happen j e = (c.happen j e).facing i r k := by
  unfold happen
  rw [phase?_facing_ne i r k c hj]
  cases c.phase? j with
  | none => rfl
  | some phase =>
    cases phase with
    | greeting h link => exact (facing_setPhase_ne i r k c hj _).symm
    | established s holder => exact (facing_setPhase_ne i r k c hj _).symm
    | failed => rfl

end Others

/-! ## The application -/

section Application
variable (j : Nat)

lemma handle?_facing :
    (c.facing i r k).handle? j = (c.handle? j).map (Prod.map (Session.seen i r k j) id) := by
  unfold handle?
  rw [phase?_facing]
  cases c.phase? j with
  | none => rfl
  | some phase =>
    cases phase with
    | greeting _ _ | failed => simp
    | established s holder =>
      simp only [Option.map_some, Phase.seen_established, Session.stage_seen]
      cases s.stage <;> rfl

lemma inbox?_facing :
    (c.facing i r k).inbox? j = (c.inbox? j).map (Prod.map (Session.seen i r k j) id) := by
  unfold inbox?
  rw [handle?_facing]
  cases c.handle? j with
  | none => rfl
  | some found =>
    obtain ⟨s, holder⟩ := found
    cases holder <;> rfl

lemma facing_send (s : Session) (id : String) (wants : Wants) (m : Message) (flags : Flags) :
    (c.facing i r k).send j (s.seen i r k j) id wants m flags =
      (c.send j s id wants m flags).facing i r k := by
  have hstate : (c.facing i r k).handleState (s.seen i r k j) = c.handleState s := by
    simp only [handleState, Session.outbox_seen]
    rfl
  unfold send
  rw [hstate]
  split <;> rfl

lemma facing_trackGroup (s : Session) (id : String) (g : Int64) :
    (c.facing i r k).trackGroup j (s.seen i r k j) id g =
      (c.trackGroup j s id g).facing i r k := by
  have hengine : (c.facing i r k).progress.engine = c.progress.engine := rfl
  unfold trackGroup
  rw [hengine]
  obtain ⟨engine, request⟩ := c.progress.engine.trackGroup g
  cases request with
  | none => rfl
  | some m =>
    exact facing_send i r k { c with progress := { c.progress with engine } } j s id .nothing m 0

lemma facing_recv (s : Session) (b : Inbox) :
    ((c.facing i r k).recv j (s.seen i r k j) b).2 = (c.recv j s b).2.facing i r k := by
  unfold recv
  cases b.pop? with
  | some popped => simp only [facing_setPhase, Phase.seen_established]
  | none =>
    rw [Session.takeEvent?_seen]
    cases s.takeEvent? with
    | none => rfl
    | some taken =>
      simp only [Option.map_some, Prod.map_fst, Prod.map_snd, id_eq, facing_setPhase,
        Phase.seen_established]

lemma facing_waitFor (s : Session) (b : Inbox) (id : String) (pred : Frame → Bool) :
    (c.facing i r k).waitFor j (s.seen i r k j) b id pred =
      (c.waitFor j s b id pred).facing i r k := by
  unfold waitFor
  obtain ⟨b, progress⟩ := Wait.start pred b
  cases progress with
  | going w => simp only [facing_setPhase, Phase.seen_established]
  | done result tried =>
    cases result <;> simp only [facing_finish, facing_setPhase, Phase.seen_established]

lemma facing_cancelWait :
    (c.facing i r k).cancelWait j = (c.cancelWait j).facing i r k := by
  unfold cancelWait
  rw [phase?_facing]
  cases c.phase? j with
  | none => rfl
  | some phase =>
    cases phase with
    | greeting _ _ | failed => simp
    | established s holder =>
      cases holder with
      | waiting id b w =>
        simp only [Option.map_some, Phase.seen_established, facing_finish, facing_setPhase]
      | free _ | closing _ | gone => simp

lemma facing_close : (c.facing i r k).close j = (c.close j).facing i r k := by
  unfold close
  rw [handle?_facing]
  cases c.handle? j with
  | none => rfl
  | some found =>
    simp only [Option.map_some, Prod.map_fst, Prod.map_snd, id_eq, facing_setPhase,
      Phase.seen_established, Session.with_closing_seen]

lemma nextToken_facing :
    (c.facing i r k).nextToken = c.nextToken.map id (facing i r k) := by
  have htokens : (c.facing i r k).tokens = c.tokens := rfl
  unfold nextToken
  rw [htokens]
  cases c.tokens with
  | nil => rfl
  | cons token tokens => cases tokens <;> rfl

lemma facing_addFailed (id : String) :
    (c.addFailed id).facing i r k = (c.facing i r k).addFailed id :=
  facing_append i r k c ⟨id, .failed⟩ rfl

lemma length_connections_facing :
    (c.facing i r k).connections.length = c.connections.length :=
  List.length_modify _ _ _

lemma facing_connect (id : String) :
    (c.facing i r k).connect id = (c.connect id).facing i r k := by
  have hstate : ({ c.facing i r k with state := .authenticating } : Client) =
      facing i r k { c with state := .authenticating } := rfl
  unfold connect
  rw [hstate, nextToken_facing]
  generalize ({ c with state := .authenticating } : Client).nextToken = next
  obtain ⟨token, c'⟩ := next
  cases token with
  | ok token =>
    exact (facing_append i r k c'
      ⟨id, .greeting (c'.introduce token) (Link.fresh c'.config.connection.maxBody)⟩ rfl).symm
  | error e =>
    simp only [Prod.map_apply, id_eq, facing_connectFailed, facing_addFailed,
      length_connections_facing]

lemma facing_connectTcp (id : String) :
    (c.facing i r k).connectTcp id = (c.connectTcp id).facing i r k := by
  simp only [connectTcp, facing_connectFailed, facing_addFailed, length_connections_facing]
  rfl

end Application

/-- Whether a move is about the reader or the keepalive of a connection, or may be. -/
def Move.touches (i : Nat) : Move → Bool
  | .act (.connecting j) | .act (.reading j) | .happen j _ => j = i
  | _ => false

lemma facing_act {a : Actor} (h : Move.touches i (.act a) = false) :
    (c.facing i r k).act? a = (c.act? a).map (facing i r k) := by
  cases a with
  | connecting j => exact facing_connecting_ne i r k c (by simpa [Move.touches] using h)
  | reading j =>
    have hj : j ≠ i := by simpa [Move.touches] using h
    simp only [act?, phase?_facing_ne i r k c hj]
    cases c.phase? j with
    | none => rfl
    | some phase =>
      cases phase with
      | greeting _ _ | failed => rfl
      | established s holder =>
        simp only [read?_eq, Option.map_map]
        exact Option.map_congr fun step _ => (facing_hear_ne i r k c hj holder step).symm
  | writing j =>
    simp only [act?, phase?_facing]
    cases c.phase? j with
    | none => rfl
    | some phase =>
      cases phase with
      | greeting _ _ | failed => simp
      | established s holder =>
        simp only [Option.map_some, Phase.seen_established]
        exact facing_write? i r k c j s holder
  | calling l =>
    have hcalls : (c.facing i r k).calls = c.calls := rfl
    simp only [act?, hcalls]
    cases c.calls[l]? with
    | none => rfl
    | some call =>
      simp only [phase?_facing]
      cases c.phase? call.connection with
      | none => rfl
      | some phase =>
        cases phase with
        | greeting _ _ | failed => simp
        | established s holder =>
          simp only [Option.map_some, Phase.seen_established]
          exact facing_callOn? i r k c s holder l call
  | holding j =>
    simp only [act?, phase?_facing]
    cases c.phase? j with
    | none => rfl
    | some phase =>
      cases phase with
      | greeting _ _ | failed => simp
      | established s holder =>
        simp only [Option.map_some, Phase.seen_established]
        cases holder with
        | waiting id b w => exact facing_wait? i r k c j s id b w
        | closing id => exact facing_close? i r k c j s id
        | free b | gone => rfl

/-- Nothing that is done elsewhere looks at the reader and the keepalive of a connection. -/
theorem facing_move {m : Move} (h : m.touches i = false) :
    (c.facing i r k).move m = (c.move m).facing i r k := by
  cases m with
  | act a =>
    simp only [move, facing_act i r k c h]
    cases c.act? a <;> rfl
  | connect id => exact facing_connect i r k c id
  | connectTcp id => exact facing_connectTcp i r k c id
  | happen j e => exact facing_happen_ne i r k c (by simpa [Move.touches] using h) e
  | send j id wants m flags =>
    simp only [move, handle?_facing]
    cases c.handle? j with
    | none => rfl
    | some found => exact facing_send i r k c j found.1 id wants m flags
  | trackGroup j id g =>
    simp only [move, handle?_facing]
    cases c.handle? j with
    | none => rfl
    | some found => exact facing_trackGroup i r k c j found.1 id g
  | awaitStopped j id =>
    simp only [move, handle?_facing]
    cases c.handle? j <;> rfl
  | close j => exact facing_close i r k c j
  | recv j =>
    simp only [move, inbox?_facing]
    cases c.inbox? j with
    | none => rfl
    | some found => exact facing_recv i r k c j found.1 found.2
  | waitFor j id pred =>
    simp only [move, inbox?_facing]
    cases c.inbox? j with
    | none => rfl
    | some found => exact facing_waitFor i r k c j found.1 found.2 id pred
  | cancelWait j => exact facing_cancelWait i r k c j
  | dropSession j =>
    simp only [move, inbox?_facing]
    cases c.inbox? j with
    | none => rfl
    | some found =>
      simp only [Option.map_some, Prod.map_fst, dropSession, facing_setPhase,
        Phase.seen_established, abandon_seen]
  | closeSession j id =>
    simp only [move, inbox?_facing]
    cases c.inbox? j with
    | none => rfl
    | some found =>
      simp only [Option.map_some, Prod.map_fst, closeSession, facing_setPhase,
        Phase.seen_established, abandon_seen, Session.with_closing_seen]
  | pass ms => rfl

lemma facing_play {t : Turn} (h : t.move.touches i = false) :
    (c.facing i r k).play t = (c.play t).facing i r k := by
  obtain ⟨m, n⟩ := t
  by_cases hreading : ∃ j, m = .act (.reading j)
  · obtain ⟨j, rfl⟩ := hreading
    exact facing_choose_ne i r k c (by simpa [Move.touches] using h) n
  · have hne (j : Nat) : m ≠ .act (.reading j) := fun hm => hreading ⟨j, hm⟩
    rw [play_of_ne hne, play_of_ne hne]
    exact facing_move i r k c h

end Facing

/-! ## The session on the reader -/

section Session
variable {r₁ : FrameReader} {k₁ : Keepalive}

lemma phase?_facing_self (hphase : c.phase? i = some (.established s holder)) (r : FrameReader)
    (k : Keepalive) :
    (c.facing i r k).phase? i = some (.established (s.facing r k) holder) := by
  rw [phase?_facing, hphase, Option.map_some, Phase.seen, if_pos rfl]
  rfl

lemma setPhase_facing (i : Nat) (r : FrameReader) (k : Keepalive) (c : Client) (phase : Phase) :
    (c.facing i r k).setPhase i phase = c.setPhase i phase := by
  unfold facing setPhase
  congr 1
  refine List.ext_getElem? fun l => ?_
  simp only [List.getElem?_modify]
  cases c.connections[l]? with
  | none => rfl
  | some n => by_cases hl : i = l <;> simp [hl]

lemma setPhase_self {phase : Phase} (hphase : c.phase? i = some phase) :
    c.setPhase i phase = c := by
  unfold setPhase
  refine congrArg (fun connections => { c with connections }) ?_
  refine List.ext_getElem? fun l => ?_
  simp only [List.getElem?_modify]
  by_cases hl : i = l
  · subst hl
    cases hn : c.connections[i]? with
    | none => rfl
    | some n =>
      obtain ⟨attempt, phase'⟩ := n
      obtain rfl : phase' = phase := by simpa [phase?, hn] using hphase
      simp
  · simp [hl]

lemma facing_of_failed (hphase : c.phase? i = some .failed) (r : FrameReader) (k : Keepalive) :
    c.facing i r k = c := by
  have hself := facing_setPhase i r k c i .failed
  rwa [setPhase_self hphase, Phase.seen_failed, setPhase_facing, setPhase_self hphase] at hself

lemma hear_facing (step : Session.Step) (holder : Holder) :
    (c.facing i r k).hear i holder (step.facing r₁ k₁) =
      (c.hear i holder step).facing i r₁ k₁ := by
  let d : Client := { c with
    progress := step.progress
    state := if step.ended then .disconnected else c.state }
  change ((d.facing i r k).setPhase i _).applyNotes step.notes =
    ((d.setPhase i (.established step.session holder)).applyNotes step.notes).facing i r₁ k₁
  rw [facing_applyNotes, facing_setPhase, setPhase_facing, setPhase_facing, Phase.seen_established,
    Session.seen, if_pos rfl]
  rfl

lemma facing_facing (i : Nat) (r r' : FrameReader) (k k' : Keepalive) (c : Client) :
    (c.facing i r k).facing i r' k' = c.facing i r' k' := by
  unfold facing
  congr 1
  refine List.ext_getElem? fun l => ?_
  simp only [List.getElem?_modify]
  by_cases hl : i = l
  · cases c.connections[l]? with
    | none => rfl
    | some n =>
      obtain ⟨attempt, phase⟩ := n
      cases phase <;> simp [hl, Phase.facing, Session.facing_facing]
  · simp [hl]

lemma facing_reader (hphase : c.phase? i = some (.established s holder)) :
    c.facing i s.link.reader s.keepalive = c := by
  have hself := facing_setPhase i s.link.reader s.keepalive c i (.established s holder)
  rw [setPhase_self hphase, setPhase_facing, Phase.seen_established, Session.seen,
    if_pos rfl] at hself
  exact hself.trans (setPhase_self hphase)

end Session

end Client

end Parley
