import Parley.Proofs.Client.Feed
import Parley.Proofs.Client.Stored

/-!
# Connections beside each other

All connections of a client share its state and its engine. A `Chronicle` is a run of a client with
the order in which its connections have come to where they stand. The last connection that has come
to run has the client to itself, so long as no other one comes to anything but a welcome. Main
statement: `Chronicle.undisturbed_ofTurns`.
-/

namespace Parley

/-- Where a connection stands, as far as the others can tell. -/
inductive Standing
  | attempting
  | welcome
  | running
  | ended
  | failed
deriving DecidableEq, Repr

namespace Standing

/-- Connections come from a lower rank to a higher one. -/
def rank : Standing → Nat
  | .attempting => 0
  | .welcome => 1
  | .running => 2
  | .ended | .failed => 3

/-- The state that a client gets when one of its connections comes to stand there. -/
def state? : Standing → Option ConnState
  | .attempting => some .authenticating
  | .welcome => none
  | .running => some .ready
  | .ended | .failed => some .disconnected

end Standing

def Session.standing (s : Session) : Standing :=
  match s.stage with
  | .starting _ => .welcome
  | .live _ => .running
  | .leaving | .gone => .ended

def Phase.standing : Phase → Standing
  | .greeting _ _ => .attempting
  | .established s _ => s.standing
  | .failed => .failed

namespace Client

def standing? (c : Client) (i : Nat) : Option Standing := (c.phase? i).map (·.standing)

def arrivals (c : Client) (t : Turn) : List (Nat × Standing) :=
  let moved := (List.range (c.play t).connections.length).filter fun i =>
    (c.play t).standing? i ≠ c.standing? i
  moved.filterMap fun i => ((c.play t).standing? i).map (i, ·)

/-- One connection has come to stand elsewhere. -/
structure Arrives (c c' : Client) (i : Nat) (standing : Standing) : Prop where
  here : c'.standing? i = some standing
  rank : ∀ old, c.standing? i = some old → old.rank < standing.rank
  others : ∀ j, j ≠ i → c'.standing? j = c.standing? j
  state : c'.state = standing.state?.getD c.state

/-- All connections stand where they have stood. -/
structure Stays (c c' : Client) : Prop where
  standing : ∀ i, c'.standing? i = c.standing? i
  state : c'.state = c.state

/-- What a turn makes of that which the connections of a client share. -/
inductive Shared (c : Client) (t : Turn) (c' : Client) : Prop
  | still (hstays : Stays c c') (hprogress : c'.progress = c.progress)
  | heard (i : Nat) (s : Session) (step : Session.Step) (hhears : c.hears? i t = some (s, step))
    (hended : step.ended = false) (hstays : Stays c c') (hprogress : c'.progress = step.progress)
  | tracked (i : Nat) (id : String) (g : Int64) (hmove : t.move = .trackGroup i id g)
    (hstays : Stays c c')
  | arrived (i : Nat) (standing : Standing) (harrives : Arrives c c' i standing)
    (hprogress : c'.progress = c.progress)
  | welcomed (i : Nat) (hmove : t.move = .act (.connecting i))
    (harrives : Arrives c c' i .welcome)
  | ended (i : Nat) (hmove : t.move = .act (.reading i)) (harrives : Arrives c c' i .ended)

section Standings
variable {c c' : Client} {i j : Nat}

lemma lt_length_of_standing? {standing : Standing} (h : c.standing? i = some standing) :
    i < c.connections.length := by
  by_contra hi
  rw [standing?, phase?_of_length_le c (Nat.le_of_not_lt hi)] at h
  cases h

lemma Stays.arrivals {t : Turn} (h : Stays c (c.play t)) : c.arrivals t = [] := by
  have hnone : (List.range (c.play t).connections.length).filter
      (fun i => (c.play t).standing? i ≠ c.standing? i) = [] := by
    apply List.filter_eq_nil_iff.mpr
    intro i hi
    simp [h.standing i]
  unfold Client.arrivals
  rw [hnone]
  rfl

lemma Arrives.arrivals {t : Turn} {standing : Standing} (h : Arrives c (c.play t) i standing) :
    c.arrivals t = [(i, standing)] := by
  have hne : (c.play t).standing? i ≠ c.standing? i := by
    intro heq
    exact absurd (h.rank standing (heq.symm.trans h.here)) (Nat.lt_irrefl _)
  have hone : (List.range (c.play t).connections.length).filter
      (fun j => (c.play t).standing? j ≠ c.standing? j) = [i] := by
    have hcongr : ∀ j ∈ List.range (c.play t).connections.length,
        decide ((c.play t).standing? j ≠ c.standing? j) = decide (j = i) := by
      intro j hj
      by_cases hji : j = i
      · simp [hji, hne]
      · simp [hji, h.others j hji]
    have hcount := List.count_eq_one_of_mem List.nodup_range
      (List.mem_range.mpr (lt_length_of_standing? h.here))
    rw [List.filter_congr hcongr, List.filter_eq, hcount]
    rfl
  unfold Client.arrivals
  rw [hone]
  simp [h.here]

end Standings

end Client

lemma Session.Heard.standing {s : Session} {p : Progress} {now : Nat} {step : Session.Step}
    (h : s.Heard p now step) :
    step.ended = false ∧ step.session.standing = s.standing ∨
      step.ended = true ∧ s.standing = .running ∧ step.session.standing = .ended := by
  unfold Session.standing
  cases h with
  | refilled ev backlog hstage hbacklog hroom => exact .inl ⟨rfl, rfl⟩
  | left hstage h => exact .inl ⟨rfl, by rw [hstage]⟩
  | finished duties link reason hstage hduty hends => exact .inr ⟨rfl, by rw [hstage], rfl⟩
  | lined m rest outbox hstage hoffer => exact .inl ⟨rfl, rfl⟩
  | sent m rest outbox hstage hoffer => exact .inl ⟨rfl, by rw [hstage]⟩
  | persisted scope key cursors rest hstage => exact .inl ⟨rfl, by rw [hstage]⟩
  | committed scope key persisted rest hstage => exact .inl ⟨rfl, by rw [hstage]⟩
  | handedOut duty ev rest backlog channel hstage hduty hput => exact .inl ⟨rfl, by rw [hstage]⟩
  | dispatched raw link hstage hnext => exact .inl ⟨rfl, by rw [hstage]⟩
  | pinged hstage hdue => exact .inl ⟨rfl, by rw [hstage]⟩

namespace Client

/-! ## What a turn does -/

/-- Whether a move reaches nothing that connections share. -/
def Move.isOwn : Move → Bool
  | .connect _ | .connectTcp _ | .act (.connecting _) | .act (.reading _) | .trackGroup .. => false
  | _ => true

def common (c : Client) : ConnState × Progress := (c.state, c.progress)

section Common
variable {c c' : Client} {i : Nat} {s : Session} {holder : Holder}

lemma common_applyNotes (c : Client) (notes : List Note) :
    (c.applyNotes notes).common = c.common := by
  induction notes generalizing c with
  | nil => rfl
  | cons n notes ih => cases n <;> exact ih _

lemma common_callOn? {k : Nat} {call : Call} (h : c.callOn? k call s holder = some c') :
    c'.common = c.common := by
  rw [callOn?] at h
  split at h
  · simp only at h
    split at h
    · cases h
      rfl
    · cases h
      rfl
    · cases h
    · cases h
      rfl
  · split at h
    · cases h
    · cases h
      rw [callNumbered]
      split <;> rfl
    · cases h
      rfl
    · cases h
      rfl
  · split at h
    · cases h
      rfl
    · cases h
      rfl
    · split at h
      · cases h
        rfl
      · cases h
  · split at h
    · cases h
    · cases h
      rfl
  · cases h

lemma common_wait? {id : String} {b : Inbox} {w : Wait} (h : c.wait? i s id b w = some c') :
    c'.common = c.common := by
  rw [wait?] at h
  split at h
  · split at h
    · cases h
      rfl
    · cases h
      rfl
    · cases h
      rfl
  · split at h
    · cases h
      rfl
    · cases h

lemma common_act? {a : Actor} (hown : (Move.act a).isOwn = true) (h : c.act? a = some c') :
    c'.common = c.common := by
  cases a with
  | connecting j => cases hown
  | reading j => cases hown
  | writing j =>
    simp only [act?] at h
    split at h
    · obtain ⟨⟨s', notes⟩, hwrite, rfl⟩ := Option.map_eq_some_iff.mp h
      exact common_applyNotes _ notes
    · cases h
  | calling k =>
    simp only [act?] at h
    split at h
    · cases h
    · split at h
      · exact common_callOn? h
      · cases h
  | holding j =>
    simp only [act?] at h
    split at h
    · exact common_wait? h
    · rw [close?] at h
      split at h
      · cases h
        rfl
      · cases h
    · cases h

lemma common_send (c : Client) (i : Nat) (s : Session) (id : String) (wants : Wants) (m : Message)
    (flags : Flags) : (c.send i s id wants m flags).common = c.common := by
  rw [send]
  split <;> rfl

lemma common_recv (c : Client) (i : Nat) (s : Session) (b : Inbox) :
    (c.recv i s b).2.common = c.common := by
  rw [recv]
  split
  · rfl
  · split <;> rfl

lemma common_waitFor (c : Client) (i : Nat) (s : Session) (b : Inbox) (id : String)
    (pred : Frame → Bool) : (c.waitFor i s b id pred).common = c.common := by
  rw [waitFor]
  split <;> rfl

theorem common_move {m : Move} (c : Client) (hown : m.isOwn = true) :
    (c.move m).common = c.common := by
  cases m with
  | act a =>
    rw [move]
    cases hact : c.act? a with
    | none => rfl
    | some c' => exact common_act? hown hact
  | connect id => cases hown
  | connectTcp id => cases hown
  | trackGroup j id g => cases hown
  | happen j e =>
    rw [move, happen]
    split <;> rfl
  | send j id wants message flags =>
    rw [move]
    split
    · exact common_send c j _ id wants message flags
    · rfl
  | awaitStopped j id =>
    rw [move]
    split <;> rfl
  | close j =>
    rw [move, close]
    split <;> rfl
  | recv j =>
    rw [move]
    split
    · exact common_recv c j _ _
    · rfl
  | waitFor j id pred =>
    rw [move]
    split
    · exact common_waitFor c j _ _ id pred
    · rfl
  | cancelWait j =>
    rw [move, cancelWait]
    split <;> rfl
  | dropSession j =>
    rw [move]
    split <;> rfl
  | closeSession j id =>
    rw [move]
    split <;> rfl
  | pass ms => rfl

end Common

section Turns
variable {c c' : Client} {m : Move} {i : Nat} {old new : Option Phase} {taken : Option Event}

lemma standing_congr {s s' : Session} (h : s'.stage = s.stage) : s'.standing = s.standing := by
  unfold Session.standing
  rw [h]

lemma isOwn_of_joins (h : m.joins = true) : m.isOwn = false := by
  cases m <;> first | rfl | cases h

lemma PhaseMoved.standing (h : PhaseMoved c i m taken old new) (hown : m.isOwn = true) :
    new.map (·.standing) = old.map (·.standing) := by
  cases h with
  | joined _ phase hjoins hphase => cases hown.symm.trans (isOwn_of_joins hjoins)
  | greeted g g' link link' h => cases hown
  | rejected e link => cases hown
  | began link => cases hown
  | failed s holder h => cases hown
  | ready s s' holder h => cases hown
  | going s s' holder h => cases hown
  | read s step holder h => cases hown
  | wrote s s' holder notes h =>
    exact congrArg some (standing_congr (Session.written_of_write? h).stage)
  | took s s' b ev hstash h =>
    obtain ⟨items, -, rfl⟩ := Session.takeEvent?_cases h
    rfl
  | passed id s s' b b' w w' ev htake h =>
    obtain ⟨items, -, rfl⟩ := Session.takeEvent?_cases htake
    rfl
  | found id s s' b b' w ev result tried htake h =>
    obtain ⟨items, -, rfl⟩ := Session.takeEvent?_cases htake
    rfl
  | _ => rfl

lemma shared_of_isOwn (c : Client) (n : Nat) (hown : m.isOwn = true) : Shared c ⟨m, n⟩ (c.move m) :=
  .still ⟨fun i => (c.phaseMoved m i).standing hown, congrArg Prod.fst (c.common_move hown)⟩
    (congrArg Prod.snd (c.common_move hown))

lemma arrives_of_append {k : Connection} (hconnections : c'.connections = c.connections ++ [k])
    (hstate : c'.state = k.phase.standing.state?.getD c.state) :
    Arrives c c' c.connections.length k.phase.standing := by
  have hphase (j : Nat) : c'.phase? j =
      if j = c.connections.length then some k.phase else c.phase? j := by
    rw [← phase?_append, phase?, phase?, hconnections]
  refine ⟨?_, ?_, ?_, hstate⟩
  · rw [standing?, hphase, if_pos rfl]
    rfl
  · intro old hold
    exact absurd (lt_length_of_standing? hold) (Nat.lt_irrefl _)
  · intro j hj
    rw [standing?, hphase, if_neg hj]
    rfl

lemma arrives_of_setPhase {d : Client} {before : Phase} (after : Phase)
    (hphases : ∀ j, c'.phase? j = (d.setPhase i after).phase? j)
    (hbefore : c.phase? i = some before) (hd : ∀ j, d.phase? j = c.phase? j)
    (hrank : before.standing.rank < after.standing.rank)
    (hstate : c'.state = after.standing.state?.getD c.state) :
    Arrives c c' i after.standing := by
  refine ⟨?_, ?_, ?_, hstate⟩
  · rw [standing?, hphases, d.phase?_setPhase_self ((hd i).trans hbefore)]
    rfl
  · intro old hold
    rw [standing?, hbefore] at hold
    cases hold
    exact hrank
  · intro j hj
    rw [standing?, hphases, d.phase?_setPhase_ne (Ne.symm hj), hd]
    rfl

lemma stays_of_setPhase {d : Client} {before after : Phase}
    (hphases : ∀ j, c'.phase? j = (d.setPhase i after).phase? j)
    (hbefore : c.phase? i = some before) (hd : ∀ j, d.phase? j = c.phase? j)
    (hstanding : after.standing = before.standing)
    (hstate : c'.state = c.state) : Stays c c' := by
  refine ⟨?_, hstate⟩
  intro j
  rcases phase?_of_setPhase hphases hbefore hd j with ⟨-, hold, hnew⟩ | ⟨-, hsame⟩
  · rw [standing?, standing?, hold, hnew]
    exact congrArg some hstanding
  · rw [standing?, standing?, hsame]

lemma shared_of_connect (c : Client) (id : String) (n : Nat) :
    Shared c ⟨.connect id, n⟩ (c.connect id) := by
  obtain ⟨token, tokens, hnext⟩ := nextToken_eq { c with state := .authenticating }
  simp only [connect, hnext]
  cases token with
  | ok token =>
    exact .arrived _ _ (arrives_of_append
      (k := ⟨id, .greeting (c.introduce token) (Link.fresh c.config.connection.maxBody)⟩)
      rfl rfl) rfl
  | error e =>
    have hconnections := connections_connectFailed { c with state := .authenticating, tokens } id e
    exact .arrived _ _ (arrives_of_append (c := c) (k := ⟨id, .failed⟩) hconnections rfl) rfl

lemma shared_of_connectTcp (c : Client) (id : String) (n : Nat) :
    Shared c ⟨.connectTcp id, n⟩ (c.connectTcp id) :=
  .arrived _ _ (arrives_of_append (k := ⟨id, .failed⟩) (connections_connectFailed c id _) rfl) rfl

lemma shared_of_greet? {id : String} {g : Handshake} {link : Link} (n : Nat)
    (hphase : c.phase? i = some (.greeting g link)) (h : c.greet? i id g link = some c') :
    Shared c ⟨.act (.connecting i), n⟩ c' := by
  cases g with
  | done result =>
    obtain rfl := Option.some.inj h
    cases result with
    | error e =>
      exact .arrived i _ (arrives_of_setPhase .failed (fun _ => rfl) hphase (fun _ => rfl)
        (Nat.zero_lt_succ _) rfl) rfl
    | ok u =>
      exact .welcomed i rfl (arrives_of_setPhase (.established _ _) (fun _ => rfl) hphase
        (fun _ => rfl) (Nat.zero_lt_succ _) rfl)
  | writing octets =>
    obtain ⟨⟨g', link'⟩, hstep, rfl⟩ := Option.map_eq_some_iff.mp h
    exact .still (stays_of_setPhase (fun _ => rfl) hphase (fun _ => rfl) rfl rfl) rfl
  | awaiting deadline =>
    obtain ⟨⟨g', link'⟩, hstep, rfl⟩ := Option.map_eq_some_iff.mp h
    exact .still (stays_of_setPhase (fun _ => rfl) hphase (fun _ => rfl) rfl rfl) rfl

lemma standing_of_stage {s : Session} {requests : List Message} (h : s.stage = .starting requests) :
    s.standing = .welcome := by
  unfold Session.standing
  rw [h]

lemma shared_of_startup? {id : String} {s : Session} {holder : Holder} (n : Nat)
    (hphase : c.phase? i = some (.established s holder)) (h : c.startup? i id s holder = some c') :
    Shared c ⟨.act (.connecting i), n⟩ c' := by
  rw [startup?] at h
  split at h
  · rename_i s' hstartup
    obtain rfl := Option.some.inj h
    obtain ⟨hstage, rfl⟩ := Session.startup_ready hstartup
    refine .arrived i _ (arrives_of_setPhase (.established { s with
      stage := .live [], keepalive := .start s.keepalive.interval c.now } holder)
      (fun _ => rfl) hphase (fun _ => rfl) ?_ rfl) rfl
    change s.standing.rank < 2
    rw [standing_of_stage hstage]
    decide
  · rename_i s' hstartup
    obtain rfl := Option.some.inj h
    refine .still (stays_of_setPhase (fun _ => rfl) hphase (fun _ => rfl) ?_ rfl) rfl
    change s'.standing = s.standing
    obtain ⟨m, requests, outbox, hstage, ⟨-, rfl⟩ | ⟨-, rfl⟩⟩ := Session.startup_going hstartup
    · rw [standing_of_stage hstage]
      rfl
    · rfl
  · cases h
  · rename_i hstartup
    obtain rfl := Option.some.inj h
    obtain ⟨-, requests, hstage⟩ := Session.startup_failed hstartup
    refine .arrived i .failed (arrives_of_setPhase .failed (fun _ => rfl) hphase
      (fun _ => rfl) ?_ rfl) rfl
    change s.standing.rank < 3
    rw [standing_of_stage hstage]
    decide

lemma shared_of_connecting (c : Client) (i n : Nat) :
    Shared c ⟨.act (.connecting i), n⟩ (c.move (.act (.connecting i))) := by
  rw [move]
  cases hact : c.act? (.connecting i) with
  | none => exact .still ⟨fun _ => rfl, rfl⟩ rfl
  | some c' =>
    simp only [act?] at hact
    split at hact
    · rename_i id g link hconnection
      exact shared_of_greet? n (by rw [phase?, hconnection]; rfl) hact
    · rename_i id s holder hconnection
      exact shared_of_startup? n (by rw [phase?, hconnection]; rfl) hact
    · cases hact

lemma common_hear (c : Client) (i : Nat) (holder : Holder) (step : Session.Step) :
    (c.hear i holder step).common =
      (if step.ended then .disconnected else c.state, step.progress) :=
  common_applyNotes _ step.notes

lemma shared_of_reading (c : Client) (i n : Nat) :
    Shared c ⟨.act (.reading i), n⟩ (c.play ⟨.act (.reading i), n⟩) := by
  change Shared c _ (c.choose i n)
  unfold choose
  split
  · rename_i s holder hphase
    cases hstep : (s.choices c.progress c.now)[n]? with
    | none => exact .still ⟨fun _ => rfl, rfl⟩ rfl
    | some step =>
      have hhears : c.hears? i ⟨.act (.reading i), n⟩ = some (s, step) := by
        simp only [hears?, hphase, hstep, if_true, Option.map_some]
      have hstate := congrArg Prod.fst (common_hear c i holder step)
      change Shared c _ (c.hear i holder step)
      rcases (Session.heard_of_mem_choices (List.mem_of_getElem? hstep)).standing with
        ⟨hended, hstanding⟩ | ⟨hended, hbefore, hafter⟩
      · rw [hended] at hstate
        exact .heard i s step hhears hended
          (stays_of_setPhase (phase?_hear c i holder step) hphase (fun _ => rfl) hstanding hstate)
          (congrArg Prod.snd (common_hear c i holder step))
      · rw [hended] at hstate
        refine .ended i rfl ?_
        have harrives := arrives_of_setPhase _ (phase?_hear c i holder step) hphase (fun _ => rfl)
          (by simp only [Phase.standing, hbefore, hafter]; decide)
          (hstate.trans (by simp only [Phase.standing, hafter]; rfl))
        simpa only [Phase.standing, hafter] using harrives
  · exact .still ⟨fun _ => rfl, rfl⟩ rfl

lemma shared_of_trackGroup (c : Client) (i : Nat) (id : String) (g : Int64) (n : Nat) :
    Shared c ⟨.trackGroup i id g, n⟩ (c.move (.trackGroup i id g)) := by
  rw [move]
  split
  · rename_i s holder hhandle
    refine .tracked i id g rfl ⟨?_, ?_⟩
    · intro j
      rw [standing?, standing?, phase?_trackGroup]
    · simp only [trackGroup]
      split
      · exact congrArg Prod.fst (common_send _ i s id .nothing _ 0)
      · rfl
  · exact .still ⟨fun _ => rfl, rfl⟩ rfl

/-- In a turn one connection at most comes to stand elsewhere, and nothing else changes the state of
the client. -/
theorem shared (c : Client) (t : Turn) : Shared c t (c.play t) := by
  obtain ⟨m, n⟩ := t
  by_cases hown : m.isOwn = true
  · rw [play_of_ne]
    · exact shared_of_isOwn c n hown
    · rintro i rfl
      cases hown
  · cases m with
    | act a =>
      cases a with
      | connecting i => exact shared_of_connecting c i n
      | reading i => exact shared_of_reading c i n
      | _ => exact absurd rfl hown
    | connect id => exact shared_of_connect c id n
    | connectTcp id => exact shared_of_connectTcp c id n
    | trackGroup i id g => exact shared_of_trackGroup c i id g n
    | _ => exact absurd rfl hown

end Turns

end Client

/-! ## The writing side of a session that runs -/

/-- Until a session is over, only a fault of its own ends its writing side. -/
def Session.Writes (s : Session) : Prop :=
  s.standing ≠ .ended → s.outbox.isOpen = s.writeFault.isNone

namespace Session
variable {s s' : Session} {p : Progress} {now : Nat} {notes : List Note}

lemma Writes.congr (h : s.Writes) (hstanding : s'.standing ≠ .ended → s.standing ≠ .ended)
    (hopen : s'.outbox.isOpen = s.outbox.isOpen) (hfault : s'.writeFault = s.writeFault) :
    s'.Writes := by
  intro hne
  rw [hopen, hfault]
  exact h (hstanding hne)

lemma Writes.written (h : s.Writes) (hwritten : s.Written s' notes) : s'.Writes := by
  cases hwritten with
  | numbered item items tracker replaced octets hflight hitems hregister hencode => exact h
  | skipped item items tracker replaced e hflight hitems hregister hencode htransport => exact h
  | advanced flight octets link hflight hwrite => exact h
  | completed flight link hflight hwrite => exact h
  | refused item items tracker replaced e hflight hitems hregister hencode htransport =>
    exact fun _ => rfl
  | broken flight left link e hflight hwrite => exact fun _ => rfl

lemma isOpen_of_offer {b b' : Outbox} {who : Sender} {item : Outgoing}
    (h : b.offer who item = .taken b' ∨ b.offer who item = .lined b') : b'.isOpen = b.isOpen := by
  rcases h with h | h
  · obtain ⟨-, rfl⟩ := Outbox.offer_taken h
    rfl
  · obtain ⟨-, rfl⟩ := Outbox.offer_lined h
    rfl

lemma Heard.writing {step : Step} (h : s.Heard p now step) (hended : step.ended = false) :
    step.session.outbox.isOpen = s.outbox.isOpen ∧ step.session.writeFault = s.writeFault := by
  cases h with
  | sent m rest outbox hstage hoffer => exact ⟨isOpen_of_offer (.inl hoffer), rfl⟩
  | lined m rest outbox hstage hoffer => exact ⟨isOpen_of_offer (.inr hoffer), rfl⟩
  | finished duties link reason hstage hduty hends => cases hended
  | _ => exact ⟨rfl, rfl⟩

lemma Writes.heard {step : Step} (h : s.Writes) (hheard : s.Heard p now step) :
    step.session.Writes := by
  rcases hheard.standing with ⟨hended, hstanding⟩ | ⟨-, -, hover⟩
  · obtain ⟨hopen, hfault⟩ := hheard.writing hended
    exact h.congr (fun hne => hstanding ▸ hne) hopen hfault
  · exact fun hne => absurd hover hne

lemma writes_of_starting {requests : List Message} (h : s.Writes)
    (hstage : s.stage = .starting requests) (hopen : s'.outbox.isOpen = s.outbox.isOpen)
    (hfault : s'.writeFault = s.writeFault) : s'.Writes := by
  refine h.congr (fun _ => ?_) hopen hfault
  rw [Client.standing_of_stage hstage]
  decide

end Session

def Phase.Writes (phase : Option Phase) : Prop :=
  ∀ s holder, phase = some (.established s holder) → s.Writes

lemma Phase.writes_established {s : Session} {holder : Holder} (h : s.Writes) :
    Phase.Writes (some (.established s holder)) := by
  rintro s' holder' ⟨⟩
  exact h

lemma Phase.Writes.congr {s s' : Session} {holder holder' : Holder}
    (h : Phase.Writes (some (.established s holder))) (hstanding : s'.standing = s.standing)
    (hopen : s'.outbox.isOpen = s.outbox.isOpen) (hfault : s'.writeFault = s.writeFault) :
    Phase.Writes (some (.established s' holder')) :=
  writes_established ((h s holder rfl).congr (fun hne => hstanding ▸ hne) hopen hfault)

namespace Client
variable {c : Client} {m : Move} {i : Nat} {old new : Option Phase} {taken : Option Event}

lemma PhaseMoved.writes (h : PhaseMoved c i m taken old new) (hold : Phase.Writes old) :
    Phase.Writes new := by
  cases h with
  | same m phase => exact hold
  | joined m phase hjoins hphase =>
    rintro s holder ⟨⟩
    rcases hphase with hphase | ⟨token, hphase⟩ <;> cases hphase
  | befell e g link => rintro s holder ⟨⟩
  | greeted g g' link link' h => rintro s holder ⟨⟩
  | rejected e link => rintro s holder ⟨⟩
  | failed s holder h => rintro s holder ⟨⟩
  | began link => exact Phase.writes_established fun _ => rfl
  | ready s s' holder h =>
    obtain ⟨hstage, rfl⟩ := Session.startup_ready h
    exact Phase.writes_established (Session.writes_of_starting (hold s holder rfl) hstage rfl rfl)
  | going s s' holder h =>
    obtain ⟨message, requests, outbox, hstage, ⟨hoffer, rfl⟩ | ⟨hoffer, rfl⟩⟩ :=
      Session.startup_going h
    · exact Phase.writes_established (Session.writes_of_starting (hold s holder rfl) hstage
        (Session.isOpen_of_offer (.inl hoffer)) rfl)
    · exact Phase.writes_established (Session.writes_of_starting (hold s holder rfl) hstage
        (Session.isOpen_of_offer (.inr hoffer)) rfl)
  | wrote s s' holder notes h =>
    exact Phase.writes_established ((hold s holder rfl).written (Session.written_of_write? h))
  | read s step holder h =>
    exact Phase.writes_established ((hold s holder rfl).heard (Session.heard_of_mem_choices h))
  | offered k item s holder outbox h => exact hold.congr rfl (Session.isOpen_of_offer h) rfl
  | took s s' b ev hstash h =>
    obtain ⟨items, -, rfl⟩ := Session.takeEvent?_cases h
    exact hold.congr rfl rfl rfl
  | passed id s s' b b' w w' ev htake h =>
    obtain ⟨items, -, rfl⟩ := Session.takeEvent?_cases htake
    exact hold.congr rfl rfl rfl
  | found id s s' b b' w ev result tried htake h =>
    obtain ⟨items, -, rfl⟩ := Session.takeEvent?_cases htake
    exact hold.congr rfl rfl rfl
  | _ => exact hold.congr rfl rfl rfl

end Client

/-! ## The engine -/

/-- Whether a step takes a frame in, or ends the window that a frame has closed. -/
def Session.Heeds (s : Session) (step : Session.Step) : Prop :=
  (∃ raw, s.reads? step = some raw) ∨
    ∃ scope key persisted rest, s.stage = .live (.commit scope key persisted :: rest)

lemma Session.Heard.heeds {s : Session} {p : Progress} {now : Nat} {step : Session.Step}
    (h : s.Heard p now step) (hended : step.ended = false) (hne : step.progress.engine ≠ p.engine) :
    s.Heeds step := by
  cases h with
  | dispatched raw link hstage hnext => exact .inl ⟨raw, reads?_of_nextRaw hnext rfl⟩
  | committed scope key persisted rest hstage => exact .inr ⟨scope, key, persisted, rest, hstage⟩
  | finished duties link reason hstage hduty hends => cases hended
  | _ => exact absurd rfl hne

/-! ## Runs -/

/-- A run of a client, with the order in which its connections have come to where they stand. -/
structure Chronicle where
  client : Client
  arrivals : List (Nat × Standing) := []

namespace Chronicle

def note (j : Chronicle) (t : Client.Turn) : Chronicle where
  client := j.client.play t
  arrivals := j.arrivals ++ j.client.arrivals t

def ofTurns (c : Client) (ts : List Client.Turn) : Chronicle := ts.foldl note { client := c }

/-- What the arrivals tell of the client is so. -/
structure Faithful (j : Chronicle) : Prop where
  state : j.client.state =
    j.arrivals.foldl (fun state x => x.2.state?.getD state) .disconnected
  rising : j.arrivals.Pairwise fun x y => x.1 = y.1 → x.2.rank < y.2.rank
  reached : ∀ x ∈ j.arrivals, ∃ standing,
    j.client.standing? x.1 = some standing ∧ x.2.rank ≤ standing.rank
  writes : ∀ i, Phase.Writes (j.client.phase? i)

variable {j : Chronicle} {t : Client.Turn}

lemma Faithful.writes_note (h : j.Faithful) (t : Client.Turn) (i : Nat) :
    Phase.Writes ((j.note t).client.phase? i) :=
  (j.client.phaseMoved_play t i).writes (h.writes i)

lemma Faithful.stays (h : j.Faithful) (hstays : Client.Stays j.client (j.client.play t)) :
    (j.note t).Faithful := by
  have harrivals : (j.note t).arrivals = j.arrivals := by
    unfold note
    rw [hstays.arrivals, List.append_nil]
  refine ⟨?_, ?_, ?_, h.writes_note t⟩
  · rw [harrivals]
    exact hstays.state.trans h.state
  · rw [harrivals]
    exact h.rising
  · rw [harrivals]
    intro x hx
    obtain ⟨standing, hstanding, hrank⟩ := h.reached x hx
    exact ⟨standing, (hstays.standing x.1).trans hstanding, hrank⟩

lemma Faithful.arrives (h : j.Faithful) {i : Nat} {standing : Standing}
    (harrives : Client.Arrives j.client (j.client.play t) i standing) : (j.note t).Faithful := by
  have harrivals : (j.note t).arrivals = j.arrivals ++ [(i, standing)] := by
    unfold note
    rw [harrives.arrivals]
  have hlower : ∀ x ∈ j.arrivals, x.1 = i → x.2.rank < standing.rank := by
    rintro x hx rfl
    obtain ⟨old, hold, hrank⟩ := h.reached x hx
    exact Nat.lt_of_le_of_lt hrank (harrives.rank old hold)
  refine ⟨?_, ?_, ?_, h.writes_note t⟩
  · rw [harrivals, List.foldl_append, ← h.state]
    exact harrives.state
  · rw [harrivals, List.pairwise_append]
    refine ⟨h.rising, List.pairwise_singleton _ _, ?_⟩
    intro x hx y hy heq
    obtain rfl := List.mem_singleton.mp hy
    exact hlower x hx heq
  · rw [harrivals]
    intro x hx
    by_cases hi : x.1 = i
    · refine ⟨standing, hi ▸ harrives.here, ?_⟩
      rcases List.mem_append.mp hx with hx | hx
      · exact Nat.le_of_lt (hlower x hx hi)
      · rw [List.mem_singleton.mp hx]
    · rcases List.mem_append.mp hx with hx | hx
      · obtain ⟨old, hold, hrank⟩ := h.reached x hx
        exact ⟨old, (harrives.others x.1 hi).trans hold, hrank⟩
      · rw [List.mem_singleton.mp hx] at hi
        exact absurd rfl hi

lemma Faithful.note (h : j.Faithful) (t : Client.Turn) : (j.note t).Faithful := by
  cases j.client.shared t with
  | still hstays hprogress => exact h.stays hstays
  | heard i s step hhears hended hstays hprogress => exact h.stays hstays
  | tracked i id g hmove hstays => exact h.stays hstays
  | arrived i standing harrives hprogress => exact h.arrives harrives
  | welcomed i hmove harrives => exact h.arrives harrives
  | ended i hmove harrives => exact h.arrives harrives

lemma faithful_new {c : Client} (hconnections : c.connections = [])
    (hstate : c.state = .disconnected) : Faithful { client := c } := by
  refine ⟨hstate, .nil, ?_, ?_⟩
  · rintro x ⟨⟩
  · rintro i s holder hphase
    rw [Client.phase?, hconnections] at hphase
    cases hphase

lemma Faithful.ofTurns {c : Client} (h : Faithful { client := c }) (ts : List Client.Turn) :
    (ofTurns c ts).Faithful := by
  induction ts using List.reverseRecOn with
  | nil => exact h
  | append_singleton ts t ih =>
    rw [Chronicle.ofTurns, List.foldl_append]
    exact ih.note t

lemma Faithful.eq_of_running (h : j.Faithful) {older newer : List (Nat × Standing)} {i : Nat}
    (harrivals : j.arrivals = older ++ (i, .running) :: newer)
    (hrunning : j.client.standing? i = some .running) : ∀ x ∈ newer, x.1 ≠ i := by
  rintro x hx rfl
  have hrising := h.rising
  rw [harrivals, List.pairwise_append] at hrising
  have hlt := List.rel_of_pairwise_cons hrising.2.1 hx rfl
  obtain ⟨standing, hstanding, hle⟩ := h.reached x (by rw [harrivals]; simp [hx])
  cases hrunning.symm.trans hstanding
  exact absurd hlt (Nat.not_lt.mpr hle)

lemma foldl_welcome (state : ConnState) {newer : List (Nat × Standing)}
    (h : ∀ x ∈ newer, x.2 = .welcome) :
    newer.foldl (fun state x => x.2.state?.getD state) state = state := by
  induction newer with
  | nil => rfl
  | cons x newer ih =>
    rw [List.foldl_cons, h x List.mem_cons_self]
    exact ih fun y hy => h y (List.mem_cons_of_mem x hy)

/-- What is left to the last connection that has come to run by all others. -/
structure Undisturbed (j : Chronicle) : Prop where
  ready {older newer : List (Nat × Standing)} {i : Nat} {s : Session} {holder : Holder}
    (harrivals : j.arrivals = older ++ (i, .running) :: newer)
    (hothers : ∀ x ∈ newer, x.1 = i ∨ x.2 = .welcome)
    (hphase : j.client.phase? i = some (.established s holder)) (hrunning : s.standing = .running) :
    j.client.state = .ready ∧
      j.client.handleState s = (if s.writeFault = none then .ready else .disconnected) ∧
      (s.writeFault = none → ∀ id wants m flags,
        (j.client.move (.send i id wants m flags)).results = j.client.results)
  attempt {t : Client.Turn} {i : Nat} (hattempt : t.move = .act (.connecting i) ∨
      t.move.joins = true ∧ i = j.client.connections.length)
    (hwelcome : (i, .welcome) ∉ j.client.arrivals t) :
    (j.client.play t).progress = j.client.progress
  /-- Besides a welcome and the end of a session, only what a session reads and a group that is
  tracked change the windows. -/
  windows {t : Client.Turn}
    (hchange : (j.client.play t).progress.engine ≠ j.client.progress.engine) :
    (∃ i, j.client.arrivals t = [(i, .welcome)] ∨ j.client.arrivals t = [(i, .ended)]) ∨
      (∃ i s step, j.client.hears? i t = some (s, step) ∧ s.Heeds step) ∨
      ∃ i id g, t.move = .trackGroup i id g

lemma standing?_of_established {c : Client} {i : Nat} {s : Session} {holder : Holder}
    (h : c.phase? i = some (.established s holder)) : c.standing? i = some s.standing := by
  rw [Client.standing?, h]
  rfl

lemma handle?_of_running {c : Client} {i : Nat} {s : Session} {holder : Holder}
    (hphase : c.phase? i = some (.established s holder)) (hrunning : s.standing = .running) :
    c.handle? i = some (s, holder) := by
  unfold Client.handle?
  rw [hphase]
  unfold Session.standing at hrunning
  simp only
  split at hrunning
  · cases hrunning
  · rename_i duties hstage
    rw [hstage]
  · cases hrunning
  · cases hrunning

lemma Faithful.ready (h : j.Faithful) {older newer : List (Nat × Standing)} {i : Nat}
    (harrivals : j.arrivals = older ++ (i, .running) :: newer)
    (hothers : ∀ x ∈ newer, x.1 = i ∨ x.2 = .welcome)
    (hrunning : j.client.standing? i = some .running) : j.client.state = .ready := by
  have hwelcome : ∀ x ∈ newer, x.2 = .welcome := fun x hx =>
    (hothers x hx).resolve_left (h.eq_of_running harrivals hrunning x hx)
  rw [h.state, harrivals, List.foldl_append, List.foldl_cons]
  exact foldl_welcome _ hwelcome

lemma Faithful.handleState (h : j.Faithful) {i : Nat} {s : Session} {holder : Holder}
    (hphase : j.client.phase? i = some (.established s holder)) (hrunning : s.standing = .running)
    (hstate : j.client.state = .ready) :
    j.client.handleState s = if s.writeFault = none then .ready else .disconnected := by
  have hopen : s.outbox.isOpen = s.writeFault.isNone := by
    apply h.writes i s holder hphase
    rw [hrunning]
    decide
  unfold Client.handleState
  rw [hopen, hstate]
  cases s.writeFault <;> rfl

lemma results_send_of_ready {c : Client} {i : Nat} {s : Session} {holder : Holder}
    (hphase : c.phase? i = some (.established s holder)) (hrunning : s.standing = .running)
    (hready : c.handleState s = .ready) (id : String) (wants : Wants) (m : Message)
    (flags : Flags) : (c.move (.send i id wants m flags)).results = c.results := by
  rw [Client.move, handle?_of_running hphase hrunning]
  simp only [Client.send, hready, if_true]
  rfl

lemma progress_of_attempt {c : Client} {t : Client.Turn} {i : Nat}
    (hattempt : t.move = .act (.connecting i) ∨ t.move.joins = true ∧ i = c.connections.length)
    (hwelcome : (i, .welcome) ∉ c.arrivals t) : (c.play t).progress = c.progress := by
  -- An attempt is no other move, and of its own moves only a welcome changes anything.
  have hmove {m : Client.Move} (hm : t.move = m) (hne : m ≠ .act (.connecting i))
      (hjoins : m.joins = false) : (c.play t).progress = c.progress := by
    rcases hattempt with hconnecting | ⟨hattempt, -⟩
    · exact absurd (hm.symm.trans hconnecting) hne
    · rw [hm, hjoins] at hattempt
      cases hattempt
  cases c.shared t with
  | still hstays hprogress => exact hprogress
  | arrived k standing harrives hprogress => exact hprogress
  | heard k s step hhears hended hstays hprogress =>
    obtain ⟨holder, hreading, -⟩ := Client.hears?_eq_some hhears
    exact hmove hreading (by simp) rfl
  | tracked k id g htrack hstays => exact hmove htrack (by simp) rfl
  | ended k hreading harrives => exact hmove hreading (by simp) rfl
  | welcomed k hconnecting harrives =>
    refine hmove hconnecting ?_ rfl
    rintro ⟨⟩
    exact hwelcome (harrives.arrivals ▸ List.mem_singleton_self _)

lemma cause_of_engine_ne {c : Client} {t : Client.Turn}
    (hchange : (c.play t).progress.engine ≠ c.progress.engine) :
    (∃ i, c.arrivals t = [(i, .welcome)] ∨ c.arrivals t = [(i, .ended)]) ∨
      (∃ i s step, c.hears? i t = some (s, step) ∧ s.Heeds step) ∨
      ∃ i id g, t.move = .trackGroup i id g := by
  cases c.shared t with
  | still hstays hprogress => exact absurd (congrArg Progress.engine hprogress) hchange
  | arrived i standing harrives hprogress =>
    exact absurd (congrArg Progress.engine hprogress) hchange
  | heard i s step hhears hended hstays hprogress =>
    obtain ⟨holder, -, -, hstep, -⟩ := Client.hears?_eq_some hhears
    rw [hprogress] at hchange
    exact .inr (.inl ⟨i, s, step, hhears,
      (Session.heard_of_mem_choices hstep).heeds hended hchange⟩)
  | tracked i id g hmove hstays => exact .inr (.inr ⟨i, id, g, hmove⟩)
  | welcomed i hmove harrives => exact .inl ⟨i, .inl harrives.arrivals⟩
  | ended i hmove harrives => exact .inl ⟨i, .inr harrives.arrivals⟩

theorem Faithful.undisturbed (h : j.Faithful) : j.Undisturbed where
  ready := by
    intro older newer i s holder harrivals hothers hphase hrunning
    have hstate := h.ready harrivals hothers
      ((standing?_of_established hphase).trans (congrArg some hrunning))
    have hhandle := h.handleState hphase hrunning hstate
    refine ⟨hstate, hhandle, ?_⟩
    intro hfault id wants m flags
    rw [if_pos hfault] at hhandle
    exact results_send_of_ready hphase hrunning hhandle id wants m flags
  attempt := progress_of_attempt
  windows := cause_of_engine_ne

/-- Whatever is done with a client and happens to it, the last connection that has come to run is
left alone by attempts that are not welcome, and the client stays ready for it until another
connection starts, fails or ends. -/
theorem undisturbed_ofTurns {config : Config} {store : CursorStore}
    {tokens : List (Except Error String)} {c : Client}
    (hnew : Client.new config store tokens = .ok c) (ts : List Client.Turn) :
    (ofTurns c ts).Undisturbed := by
  obtain ⟨progress, rfl⟩ := Client.eq_of_new hnew
  exact ((faithful_new rfl rfl).ofTurns ts).undisturbed

/-- A connection introduces itself, is welcome, and is ready. -/
def joining (i : Nat) : List Client.Move :=
  [.connect "a", .act (.connecting i),
    .happen i (.arrive [0, 0, 0, 4, 0, 0, 0, 1, 3, 2, 0, 0, 0, 0, 0, 0]), .act (.connecting i),
    .act (.connecting i), .act (.connecting i), .act (.connecting i)]

def chronicle (moves : List Client.Move) : Chronicle := ofTurns .least (Client.firsts moves)

/-- The next connection comes to run when the first one is over. -/
def succeeding : List Client.Move :=
  joining 0 ++ [.happen 0 .ended, .act (.reading 0)] ++ joining 1

theorem undisturbed_of_succeeding :
    Client.new .least (.memory .zero) [] = .ok .least ∧
      (∃ older, (chronicle succeeding).arrivals = older ++ [(1, .running)]) ∧
      (chronicle succeeding).client.standing? 1 = some .running ∧
      (chronicle succeeding).Undisturbed :=
  ⟨Client.new_least, ⟨[(0, .attempting), (0, .welcome), (0, .running), (0, .ended),
    (1, .attempting), (1, .welcome)], by decide +kernel⟩, by decide +kernel,
    undisturbed_ofTurns Client.new_least _⟩

/-- A further attempt is under way. -/
def attempting : List Client.Move := joining 0 ++ [.connect "b"]

/-- The further attempt is turned down. -/
def refused : List Client.Move :=
  attempting ++ [.act (.connecting 1),
    .happen 1 (.arrive [0, 0, 0, 4, 0, 0, 0, 1, 3, 2, 0, 0, 0, 0, 0, 1]), .act (.connecting 1),
    .act (.connecting 1)]

/-- Two connections run, and the server has opened a window on the second one. -/
def overlapping : List Client.Move :=
  joining 0 ++ joining 1 ++
    [.happen 1 (.arrive [0, 0, 0, 8, 0, 0, 0, 2, 27, 2, 0, 0, 0, 0, 0, 0, 0, 0, 0, 0]),
      .act (.reading 1)]

/-- The first one of two connections ends. -/
def outlived : List Client.Move := overlapping ++ [.happen 0 .ended, .act (.reading 0)]

/-- The server has opened a window, and there is a second scope. -/
def opened : List Client.Move :=
  joining 0 ++ [.trackGroup 0 "b" 7,
    .happen 0 (.arrive [0, 0, 0, 8, 0, 0, 0, 2, 27, 2, 0, 0, 0, 0, 0, 0, 0, 0, 0, 0]),
    .act (.reading 0)]

/-- A further attempt is welcome and fails before its requests are queued. -/
def broken : List Client.Move :=
  opened ++ (joining 1).take 6 ++ [.happen 1 (.writeFails .networkUnreachable), .act (.writing 1),
    .act (.writing 1), .act (.connecting 1)]

/-- The writing side of the connection itself fails. -/
def unwritten : List Client.Move :=
  joining 0 ++ [.happen 0 (.writeFails .networkUnreachable), .act (.writing 0), .act (.writing 0)]

def handleState? (j : Chronicle) (i : Nat) : Option ConnState :=
  (sessionOf? (j.client.phase? i)).map j.client.handleState

def window? (j : Chronicle) (scope : Scope) : Option Window :=
  j.client.progress.engine.window? scope

/-- The last connection that has come to run still runs, and the client is not ready: because of a
further attempt, because of its failure, because of the end of an older connection. That end, and
the failure of an attempt that was welcome, take the windows with them. -/
theorem disturbed_by_others :
    ((chronicle attempting).arrivals =
        [(0, .attempting), (0, .welcome), (0, .running), (1, .attempting)] ∧
      (chronicle attempting).client.standing? 0 = some .running ∧
      (chronicle attempting).client.state = .authenticating ∧
      (chronicle attempting).handleState? 0 = some .authenticating) ∧
    ((chronicle refused).arrivals =
        [(0, .attempting), (0, .welcome), (0, .running), (1, .attempting), (1, .failed)] ∧
      (chronicle refused).client.standing? 0 = some .running ∧
      (chronicle refused).client.state = .disconnected ∧
      (chronicle refused).handleState? 0 = some .disconnected) ∧
    ((chronicle outlived).arrivals =
        [(0, .attempting), (0, .welcome), (0, .running), (1, .attempting), (1, .welcome),
          (1, .running), (0, .ended)] ∧
      (chronicle outlived).client.standing? 1 = some .running ∧
      (chronicle outlived).client.state = .disconnected ∧
      (chronicle outlived).handleState? 1 = some .disconnected ∧
      (chronicle overlapping).window? .direct = some .inProgress ∧
      (chronicle outlived).window? .direct = some .idle) ∧
    ((chronicle broken).arrivals =
        [(0, .attempting), (0, .welcome), (0, .running), (1, .attempting), (1, .welcome),
          (1, .failed)] ∧
      (chronicle broken).client.standing? 0 = some .running ∧
      (chronicle opened).window? .direct = some .inProgress ∧
      (chronicle broken).window? .direct = some .requested) ∧
    ((chronicle unwritten).arrivals = [(0, .attempting), (0, .welcome), (0, .running)] ∧
      (chronicle unwritten).client.standing? 0 = some .running ∧
      (chronicle unwritten).client.state = .ready ∧
      (chronicle unwritten).handleState? 0 = some .disconnected) := by
  refine ⟨⟨?_, ?_, ?_, ?_⟩, ⟨?_, ?_, ?_, ?_⟩, ⟨?_, ?_, ?_, ?_, ?_, ?_⟩, ⟨?_, ?_, ?_, ?_⟩,
    ⟨?_, ?_, ?_, ?_⟩⟩ <;> decide +kernel

end Chronicle

end Parley
