import Parley.Proofs.Transport.Writing
import Parley.Session.Basic

/-!
# What a session does in one step

Each side of a session makes its steps by a function with many branches. Here every branch that
makes a step is stated once, with what it was guarded by and what it leaves behind:
`Session.Written` for the writing side, `Session.Heard` for the reading side.
-/

namespace Parley

lemma Outbox.offer_taken {b b' : Outbox} {who : Sender} {item : Outgoing}
    (h : b.offer who item = .taken b') :
    b.isOpen = true ∧ b' = { b with items := b.items ++ [item], line := b.line.erase who } := by
  rw [offer] at h
  split at h
  · cases h
  · rename_i hopen
    split at h
    · cases h
      exact ⟨by simpa using hopen, rfl⟩
    · split at h <;> cases h

lemma Outbox.offer_lined {b b' : Outbox} {who : Sender} {item : Outgoing}
    (h : b.offer who item = .lined b') :
    b.isOpen = true ∧ b' = { b with line := b.line ++ [who] } := by
  rw [offer] at h
  split at h
  · cases h
  · rename_i hopen
    split at h
    · cases h
    · split at h
      · cases h
      · cases h
        exact ⟨by simpa using hopen, rfl⟩

lemma Outbox.offer_closed {b : Outbox} {who : Sender} {item : Outgoing}
    (h : b.offer who item = .closed) : b.isOpen = false := by
  rw [offer] at h
  split at h
  · rename_i hopen
    simpa using hopen
  · split at h
    · cases h
    · split at h <;> cases h

namespace Session

/-! ## The writing side -/

lemma registerWaiter_eq (s : Session) (item : Outgoing) (seq : Int32) :
    ∃ tracker replaced, s.registerWaiter item seq =
      ({ s with tracker }, (replaced : Option Nat).toList.map .unreceipted) := by
  rw [registerWaiter]
  split
  · exact ⟨_, _, rfl⟩
  · exact ⟨s.tracker, none, rfl⟩

/-- What a step of the writing side does. -/
inductive Written (s : Session) : Session → List Note → Prop
  | numbered (item : Outgoing) (items : List Outgoing) (tracker : Tracker Nat)
    (replaced : Option Nat) (octets : Bytes) (hflight : s.flight = none)
    (hitems : s.outbox.items = item :: items)
    (hregister : s.registerWaiter item s.nextSeq =
      ({ s with tracker }, replaced.toList.map .unreceipted))
    (hencode : (s.frameOf item s.nextSeq).encode = .ok octets) :
    Written s
      { s with
        outbox := { s.outbox with items }, tracker, flight := some ⟨item, s.nextSeq, octets⟩ }
      (replaced.toList.map .unreceipted)
  | skipped (item : Outgoing) (items : List Outgoing) (tracker : Tracker Nat)
    (replaced : Option Nat) (e : Error) (hflight : s.flight = none)
    (hitems : s.outbox.items = item :: items)
    (hregister : s.registerWaiter item s.nextSeq =
      ({ s with tracker }, replaced.toList.map .unreceipted))
    (hencode : (s.frameOf item s.nextSeq).encode = .error e) (htransport : e.isTransport = false) :
    Written s
      { s with outbox := { s.outbox with items }, tracker := (tracker.forget s.nextSeq).1 }
      (replaced.toList.map .unreceipted ++
        ((tracker.forget s.nextSeq).2.toList.map .unreceipted ++ numberedNote item (.error e)))
  | refused (item : Outgoing) (items : List Outgoing) (tracker : Tracker Nat)
    (replaced : Option Nat) (e : Error) (hflight : s.flight = none)
    (hitems : s.outbox.items = item :: items)
    (hregister : s.registerWaiter item s.nextSeq =
      ({ s with tracker }, replaced.toList.map .unreceipted))
    (hencode : (s.frameOf item s.nextSeq).encode = .error e) (htransport : e.isTransport = true) :
    Written s
      ({ s with
        outbox := { s.outbox with items }
        tracker := (tracker.forget s.nextSeq).1 }.stopWriting (some e))
      (replaced.toList.map .unreceipted ++
        ((tracker.forget s.nextSeq).2.toList.map .unreceipted ++
          numberedNote item (.error .connectionClosed) ++
          items.filterMap fun item => item.caller.map .lost))
  | advanced (flight : Flight) (octets : Bytes) (link : Link) (hflight : s.flight = some flight)
    (hwrite : s.link.write flight.octets = (none, octets, link)) :
    Written s { s with link, flight := some { flight with octets } } []
  | completed (flight : Flight) (link : Link) (hflight : s.flight = some flight)
    (hwrite : s.link.write flight.octets = (some (.ok ()), [], link)) :
    Written s { s with link, flight := none, nextSeq := s.nextSeq + 1 }
      (numberedNote flight.item (.ok flight.seq))
  | broken (flight : Flight) (left : Bytes) (link : Link) (e : Error)
    (hflight : s.flight = some flight)
    (hwrite : s.link.write flight.octets = (some (.error e), left, link)) :
    Written s
      ({ s with link, flight := none, tracker := (s.tracker.forget flight.seq).1 }.stopWriting
        (some e))
      ((s.tracker.forget flight.seq).2.toList.map .unreceipted ++
        numberedNote flight.item (.error .connectionClosed) ++
        s.outbox.items.filterMap fun item => item.caller.map .lost)

lemma writeFailed_of_transport (s : Session) (item : Outgoing) (seq : Int32) {e : Error}
    (h : e.isTransport = true) :
    s.writeFailed item seq e =
      ({ s with flight := none, tracker := (s.tracker.forget seq).1 }.stopWriting (some e),
        (s.tracker.forget seq).2.toList.map .unreceipted ++
          numberedNote item (.error .connectionClosed) ++
          s.outbox.items.filterMap fun item => item.caller.map .lost) := by
  simp only [writeFailed, forget, h, if_true]
  rfl

lemma writeFailed_of_not_transport (s : Session) (item : Outgoing) (seq : Int32) {e : Error}
    (h : e.isTransport = false) :
    s.writeFailed item seq e =
      ({ s with tracker := (s.tracker.forget seq).1 },
        (s.tracker.forget seq).2.toList.map .unreceipted ++ numberedNote item (.error e)) := by
  simp only [writeFailed, forget, h, Bool.false_eq_true, if_false]

lemma registerWaiter_outbox {s : Session} {item : Outgoing} {seq : Int32} {tracker : Tracker Nat}
    {notes : List Note} (h : s.registerWaiter item seq = ({ s with tracker }, notes))
    (outbox : Outbox) :
    { s with outbox }.registerWaiter item seq = ({ s with outbox, tracker }, notes) := by
  simp only [registerWaiter] at h ⊢
  split at h
  · simp only [Prod.mk.injEq, mk.injEq, true_and, and_true] at h
    obtain ⟨rfl, rfl⟩ := h
    rfl
  · simp only [Prod.mk.injEq] at h
    obtain ⟨hs, rfl⟩ := h
    rw [hs]

theorem written_of_write? {s s' : Session} {notes : List Note} (h : s.write? = some (s', notes)) :
    s.Written s' notes := by
  rw [write?] at h
  split at h
  · rename_i flight hflight
    rw [writeFlight] at h
    split at h
    · rename_i octets link hwrite
      split at h
      · simp only [Option.some.injEq, Prod.mk.injEq] at h
        obtain ⟨rfl, rfl⟩ := h
        exact .advanced flight octets link hflight hwrite
      · cases h
    · rename_i left link hwrite
      simp only [Option.some.injEq, Prod.mk.injEq] at h
      obtain ⟨rfl, rfl⟩ := h
      obtain ⟨-, -, -, -, hleft, -⟩ := Link.write_spec hwrite
      exact .completed flight link hflight (by rw [hwrite, hleft rfl])
    · rename_i e left link hwrite
      obtain ⟨-, -, -, -, -, hfault⟩ := Link.write_spec hwrite
      obtain ⟨fault, rfl⟩ := hfault e rfl
      rw [writeFailed_of_transport _ _ _ rfl] at h
      simp only [Option.some.injEq, Prod.mk.injEq] at h
      obtain ⟨rfl, rfl⟩ := h
      exact .broken flight left link _ hflight hwrite
  · rename_i item outbox hflight hpop
    obtain ⟨tracker, replaced, hregister⟩ := s.registerWaiter_eq item s.nextSeq
    obtain ⟨items, hitems, rfl⟩ : ∃ items, s.outbox.items = item :: items ∧
        outbox = { s.outbox with items } := by
      rw [Outbox.pop?] at hpop
      split at hpop
      · cases hpop
      · rename_i first items hitems
        simp only [Option.some.injEq, Prod.mk.injEq] at hpop
        obtain ⟨rfl, rfl⟩ := hpop
        exact ⟨items, hitems, rfl⟩
    have hframe : ∀ outbox tracker, { s with outbox, tracker }.frameOf item s.nextSeq =
        s.frameOf item s.nextSeq := fun _ _ => rfl
    simp only [takeItem, registerWaiter_outbox hregister, hframe] at h
    split at h
    · rename_i octets hencode
      simp only [Option.some.injEq, Prod.mk.injEq] at h
      obtain ⟨rfl, rfl⟩ := h
      exact .numbered item items tracker replaced octets hflight hitems hregister hencode
    · rename_i e hencode
      cases htransport : e.isTransport with
      | true =>
        rw [writeFailed_of_transport _ _ _ htransport] at h
        simp only [Option.some.injEq, Prod.mk.injEq] at h
        obtain ⟨rfl, rfl⟩ := h
        exact .refused item items tracker replaced e hflight hitems hregister hencode htransport
      | false =>
        rw [writeFailed_of_not_transport _ _ _ htransport] at h
        simp only [Option.some.injEq, Prod.mk.injEq] at h
        obtain ⟨rfl, rfl⟩ := h
        exact .skipped item items tracker replaced e hflight hitems hregister hencode htransport
  · cases h

section Written
variable {s s' : Session} {notes : List Note}

lemma Written.stage (h : s.Written s' notes) : s'.stage = s.stage := by
  cases h <;> rfl

lemma Written.channel (h : s.Written s' notes) : s'.channel = s.channel := by
  cases h <;> rfl

lemma Written.backlog (h : s.Written s' notes) : s'.backlog = s.backlog := by
  cases h <;> rfl

end Written

/-! ## The reading side -/

/-- Why a session ends now, and the link it ends on. -/
inductive Ends (s : Session) : Link → EndReason → Prop
  | read (e : Error) (link : Link) (h : s.link.nextRaw = (some (.error e), link)) :
    Ends s link (.failed e)
  | queueing (h : s.outbox.isOpen = false) : Ends s s.link (.failed .connectionClosed)
  | writing (e : Error) (h : s.writeFault = some e) : Ends s s.link (.failed e)
  | emitting (h : s.channel.isTaken = false) :
    Ends s s.link (.failed (.internal .eventsAbandoned))
  | refilling (h : s.channel.isTaken = false) : Ends s s.link .eventsAbandoned
  | asked (h : s.closing = true) : Ends s s.link .closedByClient

/-- An event is handed out into the channel, or behind the backlog. -/
inductive HandsOut (s : Session) (ev : Event) : List Event → Channel → Prop
  | channel (hbacklog : s.backlog = []) (hroom : s.channel.items.length < s.channel.capacity) :
    HandsOut s ev [] { s.channel with items := s.channel.items ++ [ev] }
  | backlog : HandsOut s ev (s.backlog ++ [ev]) s.channel

def eventOf? (p : Progress) : Duty → Option Event
  | .deliver f => some (.message f (p.origin f))
  | .announce ev => some ev
  | _ => none

/-- Whether a duty is a step of storing cursors. Such a step is made without fail. -/
def stores : Duty → Bool
  | .persist .. | .commit .. => true
  | _ => false

lemma stores_of_eventOf? {p : Progress} {duty : Duty} {ev : Event}
    (h : eventOf? p duty = some ev) : stores duty = false := by
  cases duty with
  | persist scope key cursors => cases h
  | commit scope key persisted => cases h
  | _ => rfl

/-- What a step of the reading side does. -/
inductive Heard (s : Session) (p : Progress) (now : Nat) : Step → Prop
  | sent (m : Message) (rest : List Duty) (outbox : Outbox)
    (hstage : s.stage = .live (.send m :: rest))
    (hoffer : s.outbox.offer .reading { message := m } = .taken outbox) :
    Heard s p now { session := { s with stage := .live rest, outbox }, progress := p }
  | lined (m : Message) (rest : List Duty) (outbox : Outbox)
    (hstage : s.stage = .live (.send m :: rest))
    (hoffer : s.outbox.offer .reading { message := m } = .lined outbox) :
    Heard s p now { session := { s with outbox }, progress := p }
  | persisted (scope : Scope) (key : Int64) (cursors : Cursors) (rest : List Duty)
    (hstage : s.stage = .live (.persist scope key cursors :: rest)) :
    Heard s p now
      { session :=
          { s with stage := .live (.commit scope key (p.store.save cursors).1 :: rest) }
        progress := { p with store := (p.store.save cursors).2 } }
  | committed (scope : Scope) (key : Int64) (persisted : Bool) (rest : List Duty)
    (hstage : s.stage = .live (.commit scope key persisted :: rest)) :
    Heard s p now
      { session := { s with stage := .live ((p.syncEnd scope key persisted).2 ++ rest) }
        progress := (p.syncEnd scope key persisted).1 }
  | handedOut (duty : Duty) (ev : Event) (rest : List Duty) (backlog : List Event)
    (channel : Channel) (hstage : s.stage = .live (duty :: rest))
    (hduty : eventOf? p duty = some ev)
    (hput : s.HandsOut ev backlog channel) :
    Heard s p now { session := { s with stage := .live rest, backlog, channel }, progress := p }
  | dispatched (raw : RawFrame) (link : Link) (hstage : s.stage = .live [])
    (hnext : s.link.nextRaw = (some (.ok raw), link)) :
    Heard s p now
      { session :=
          { s with
            link, tracker := (dispatch p s.tracker raw).tracker
            keepalive := s.keepalive.onFrame now
            stage := .live (dispatch p s.tracker raw).duties }
        progress := (dispatch p s.tracker raw).progress
        notes := (dispatch p s.tracker raw).receipt.toList.map fun (call, a) =>
          .receipted call a }
  | pinged (hstage : s.stage = .live []) (hdue : (s.keepalive.onIdle now).2 = true) :
    Heard s p now
      { session :=
          { s with
            keepalive := (s.keepalive.onIdle now).1, stage := .live [.send (.signal .ping)] }
        progress := p }
  | refilled (ev : Event) (backlog : List Event)
    (hstage : s.stage = .live [] ∨ s.stage = .leaving) (hbacklog : s.backlog = ev :: backlog)
    (hroom : s.channel.items.length < s.channel.capacity) :
    Heard s p now
      { session :=
          { s with backlog, channel := { s.channel with items := s.channel.items ++ [ev] } }
        progress := p }
  | left (hstage : s.stage = .leaving) (h : s.backlog = [] ∨ s.channel.isTaken = false) :
    Heard s p now { session := { s with stage := .gone, backlog := [] }, progress := p }
  | finished (duties : List Duty) (link : Link) (reason : EndReason)
    (hstage : s.stage = .live duties) (hduty : ∀ duty ∈ duties.head?, stores duty = false)
    (hends : s.Ends link reason) : Heard s p now ({ s with link }.finish p reason)

lemma emit_cases (s : Session) (p : Progress) (ev : Event) :
    (∃ backlog channel, s.HandsOut ev backlog channel ∧
      s.emit p ev = { session := { s with backlog, channel }, progress := p }) ∨
    s.channel.isTaken = false ∧
      s.emit p ev = s.finish p (.failed (.internal .eventsAbandoned)) := by
  rw [emit]
  split
  · exact .inl ⟨_, _, .backlog, rfl⟩
  · rename_i hbacklog
    have hbacklog : s.backlog = [] := by simpa using hbacklog
    split
    · rename_i htaken
      exact .inr ⟨by simpa using htaken, rfl⟩
    · split
      · rename_i hroom
        exact .inl ⟨_, _, .channel hbacklog hroom, by rw [hbacklog]⟩
      · exact .inl ⟨_, _, .backlog, by rw [hbacklog]; rfl⟩

lemma heard_of_emit {s : Session} {p : Progress} {now : Nat} {duty : Duty} {rest : List Duty}
    {ev : Event} (hstage : s.stage = .live (duty :: rest)) (hduty : eventOf? p duty = some ev) :
    s.Heard p now ({ s with stage := .live rest }.emit p ev) := by
  rcases { s with stage := .live rest }.emit_cases p ev with
    ⟨backlog, channel, hput, hemit⟩ | ⟨htaken, hemit⟩
  · rw [hemit]
    refine .handedOut duty ev rest backlog channel hstage hduty ?_
    cases hput with
    | channel hbacklog hroom => exact .channel hbacklog hroom
    | backlog => exact .backlog
  · rw [hemit]
    refine .finished _ s.link _ hstage ?_ (.emitting htaken)
    intro duty' hhead
    obtain rfl : duty = duty' := by simpa using hhead
    exact stores_of_eventOf? hduty

lemma heard_of_perform {s : Session} {p : Progress} {now : Nat} {duty : Duty} {rest : List Duty}
    {step : Step} (hstage : s.stage = .live (duty :: rest))
    (h : s.perform p duty rest = some step) : s.Heard p now step := by
  cases duty with
  | send m =>
    simp only [perform] at h
    split at h
    · rename_i outbox hoffer
      obtain rfl := Option.some.inj h
      exact .sent m rest outbox hstage hoffer
    · rename_i outbox hoffer
      obtain rfl := Option.some.inj h
      exact .lined m rest outbox hstage hoffer
    · cases h
    · rename_i hoffer
      obtain rfl := Option.some.inj h
      exact .finished _ s.link _ hstage (by simp [stores]) (.queueing (Outbox.offer_closed hoffer))
  | deliver f =>
    obtain rfl := Option.some.inj h
    exact heard_of_emit hstage rfl
  | announce ev =>
    obtain rfl := Option.some.inj h
    exact heard_of_emit hstage rfl
  | persist scope key cursors =>
    obtain rfl := Option.some.inj h
    exact .persisted scope key cursors rest hstage
  | commit scope key persisted =>
    obtain rfl := Option.some.inj h
    exact .committed scope key persisted rest hstage

lemma heard_of_readFrame {s : Session} {p : Progress} {now : Nat} {step : Step}
    (hstage : s.stage = .live []) (h : s.readFrame p now = some step) : s.Heard p now step := by
  rw [readFrame] at h
  split at h
  · cases h
  · rename_i e link hnext
    obtain rfl := Option.some.inj h
    exact .finished _ link _ hstage (by simp) (.read e link hnext)
  · rename_i raw link hnext
    obtain rfl := Option.some.inj h
    exact .dispatched raw link hstage hnext

lemma heard_of_keepAlive {s : Session} {p : Progress} {now : Nat} {step : Step}
    (hstage : s.stage = .live []) (h : s.keepAlive p now = some step) : s.Heard p now step := by
  simp only [keepAlive] at h
  split at h
  · rename_i hdue
    obtain rfl := Option.some.inj h
    exact .pinged hstage hdue
  · cases h

lemma heard_of_refill {s : Session} {p : Progress} {now : Nat} {step : Step}
    (hstage : s.stage = .live []) (h : s.refill p = some step) : s.Heard p now step := by
  rw [refill] at h
  split at h
  · cases h
  · rename_i ev backlog hbacklog
    split at h
    · rename_i htaken
      obtain rfl := Option.some.inj h
      exact .finished _ s.link _ hstage (by simp) (.refilling (by simpa using htaken))
    · split at h
      · rename_i hroom
        obtain rfl := Option.some.inj h
        exact .refilled ev backlog (.inl hstage) hbacklog hroom
      · cases h

lemma heard_of_leave {s : Session} {p : Progress} {now : Nat} {step : Step}
    (hstage : s.stage = .leaving) (h : s.leave p = some step) : s.Heard p now step := by
  rw [leave] at h
  split at h
  · rename_i hbacklog
    obtain rfl := Option.some.inj h
    have heq : { s with stage := .gone } = { s with stage := .gone, backlog := [] } := by
      rw [← hbacklog]
    rw [heq]
    exact .left hstage (.inl hbacklog)
  · rename_i ev backlog hbacklog
    split at h
    · rename_i htaken
      obtain rfl := Option.some.inj h
      exact .left hstage (.inr (by simpa using htaken))
    · split at h
      · rename_i hroom
        obtain rfl := Option.some.inj h
        exact .refilled ev backlog (.inr hstage) hbacklog hroom
      · cases h

theorem heard_of_read? {s : Session} {p : Progress} {now : Nat} {step : Step}
    (h : s.read? p now = some step) : s.Heard p now step := by
  rw [read?] at h
  split at h
  · cases h
  · cases h
  · rename_i hstage
    exact heard_of_leave hstage h
  · rename_i duty rest hstage
    exact heard_of_perform hstage h
  · rename_i hstage
    simp only [Option.orElse_eq_orElse, Option.orElse_eq_or, Option.or_eq_some_iff] at h
    rcases h with h | ⟨-, h | ⟨-, h | ⟨-, h | ⟨-, h⟩⟩⟩⟩
    · exact heard_of_readFrame hstage h
    · exact heard_of_keepAlive hstage h
    · obtain ⟨e, hfault, rfl⟩ := Option.map_eq_some_iff.mp h
      exact .finished _ s.link _ hstage (by simp) (.writing e hfault)
    · exact heard_of_refill hstage h
    · split at h
      · rename_i hclosing
        obtain rfl := Option.some.inj h
        exact .finished _ s.link _ hstage (by simp) (.asked hclosing)
      · cases h

/-! ## Coming up -/

lemma startup_ready {s s' : Session} {now : Nat} (h : s.startup now = .ready s') :
    s.stage = .starting [] ∧
      s' = { s with stage := .live [], keepalive := .start s.keepalive.interval now } := by
  rw [startup] at h
  split at h
  · rename_i hstage
    cases h
    exact ⟨hstage, rfl⟩
  · split at h <;> cases h
  · cases h

lemma startup_going {s s' : Session} {now : Nat} (h : s.startup now = .going s') :
    ∃ m requests outbox, s.stage = .starting (m :: requests) ∧
      (s.outbox.offer .startup { message := m } = .taken outbox ∧
          s' = { s with outbox, stage := .starting requests } ∨
        s.outbox.offer .startup { message := m } = .lined outbox ∧ s' = { s with outbox }) := by
  rw [startup] at h
  split at h
  · cases h
  · rename_i m requests hstage
    split at h
    · rename_i outbox hoffer
      cases h
      exact ⟨m, requests, outbox, hstage, .inl ⟨hoffer, rfl⟩⟩
    · rename_i outbox hoffer
      cases h
      exact ⟨m, requests, outbox, hstage, .inr ⟨hoffer, rfl⟩⟩
    · cases h
    · cases h
  · cases h

lemma startup_failed {s : Session} {now : Nat} (h : s.startup now = .failed) :
    s.outbox.isOpen = false ∧ ∃ requests, s.stage = .starting requests := by
  rw [startup] at h
  split at h
  · cases h
  · rename_i m requests hstage
    split at h
    · cases h
    · cases h
    · cases h
    · rename_i hoffer
      exact ⟨Outbox.offer_closed hoffer, _, hstage⟩
  · cases h

lemma takeEvent?_cases {s s' : Session} {ev : Event} (h : s.takeEvent? = some (ev, s')) :
    ∃ items, s.channel.items = ev :: items ∧
      s' = { s with channel := { s.channel with items } } := by
  rw [takeEvent?] at h
  split at h
  · cases h
  · rename_i first items hitems
    simp only [Option.some.injEq, Prod.mk.injEq] at h
    obtain ⟨rfl, rfl⟩ := h
    exact ⟨items, hitems, rfl⟩

end Session

/-! ## Any step -/

/-- What a step does to a session, be it of a side, of its link or of the application. -/
inductive Session.Moved (now : Nat) (s : Session) (p : Progress) :
    Session → Progress → List Note → Prop
  | event (e : LinkEvent) : Moved now s p { s with link := s.link.happen e } p []
  | ready {s' : Session} (h : s.startup now = .ready s') : Moved now s p s' p []
  | going {s' : Session} (h : s.startup now = .going s') : Moved now s p s' p []
  | wrote {s' : Session} {notes : List Note} (h : s.write? = some (s', notes)) :
    Moved now s p s' p notes
  | read {step : Step} (h : s.Heard p now step) :
    Moved now s p step.session step.progress step.notes
  | took {ev : Event} {s' : Session} (h : s.takeEvent? = some (ev, s')) : Moved now s p s' p []
  | closing : Moved now s p { s with closing := true } p []
  | abandoned : Moved now s p { s with channel := { s.channel with isTaken := false } } p []
  | closed :
    Moved now s p
      { s with channel := { s.channel with isTaken := false }, closing := true } p []
  | rest : Moved now s p s p []

lemma Session.Ends.written {s : Session} {link : Link} {reason : EndReason}
    (h : s.Ends link reason) : link.written = s.link.written := by
  cases h with
  | read e link h =>
    have hwritten := s.link.nextRaw_written
    rw [h] at hwritten
    exact hwritten
  | _ => rfl

lemma Session.Heard.written {s : Session} {p : Progress} {now : Nat} {step : Step}
    (h : s.Heard p now step) : step.session.link.written = s.link.written := by
  cases h with
  | dispatched raw link hstage hnext =>
    have hwritten := s.link.nextRaw_written
    rw [hnext] at hwritten
    exact hwritten
  | finished duties link reason hstage hduty hends => exact hends.written
  | _ => rfl

end Parley
