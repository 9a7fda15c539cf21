import Parley.Proofs.Client.Owing

/-!
# What the end of a session leaves

A session that has ended has nothing on its way to the wire and no waiter, and stays so. Every call
that was on it has been told enough to end in its next steps, and nobody tells it anything else. The
windows and the state are shared by all connections, and are at rest as long as no other one is
under way. Main statement: `Client.cleared`.
-/

namespace Parley

namespace Session
variable {s s' : Session} {p : Progress} {now : Nat}

/-! ## Sessions that are over -/

/-- The session has ended. Nothing is on its way to the wire, and nobody waits. -/
structure Over (s : Session) : Prop where
  stage : s.stage = .leaving ∨ s.stage = .gone
  isOpen : s.outbox.isOpen = false
  items : s.outbox.items = []
  flight : s.flight = none
  tracker : s.tracker = .empty

namespace Over

lemma congr (h : s.Over) (hstage : s'.stage = .leaving ∨ s'.stage = .gone)
    (houtbox : s'.outbox = s.outbox) (hflight : s'.flight = s.flight)
    (htracker : s'.tracker = s.tracker) : s'.Over :=
  ⟨hstage, houtbox ▸ h.isOpen, houtbox ▸ h.items, hflight ▸ h.flight, htracker ▸ h.tracker⟩

lemma ahead (h : s.Over) : s.sending.ahead = [] := by
  simp [Sending.ahead, sending, h.flight, h.items]

lemma not_knows (h : s.Over) (k : Nat) : ¬ s.Knows k := by
  rintro (⟨item, hitem, -⟩ | ⟨seq, hentry⟩)
  · rw [h.ahead] at hitem
    cases hitem
  · rw [h.tracker] at hentry
    cases hentry

lemma not_starting (h : s.Over) (requests : List Message) : s.stage ≠ .starting requests := by
  rcases h.stage with hstage | hstage <;> simp [hstage]

lemma write?_eq_none (h : s.Over) : s.write? = none := by
  simp [write?, h.flight, h.items, Outbox.pop?]

end Over

lemma over_finish (s : Session) (p : Progress) (reason : EndReason) :
    (s.finish p reason).session.Over :=
  ⟨.inl rfl, rfl, rfl, rfl, rfl⟩

lemma Heard.eq_finish {step : Step} (h : s.Heard p now step) (hended : step.ended = true) :
    ∃ link reason, step = { s with link }.finish p reason := by
  cases h with
  | finished duties link reason hstage hduty hends => exact ⟨link, reason, rfl⟩
  | _ => cases hended

end Session

/-! ## Connections whose session is over -/

namespace Client
variable {c : Client} {i k : Nat} {t : Turn}

def IsOver (c : Client) (i : Nat) : Prop :=
  ∃ s holder, c.phase? i = some (.established s holder) ∧ s.Over

theorem IsOver.play (h : c.IsOver i) (t : Turn) : (c.play t).IsOver i := by
  obtain ⟨s, holder, hphase, hs⟩ := h
  have hmoved := c.phaseMoved_play t i
  rw [hphase] at hmoved
  unfold IsOver
  generalize (c.play t).phase? i = new at hmoved ⊢
  generalize c.taken? i t.move = taken at hmoved
  generalize t.move = m at hmoved
  cases hmoved with
  | same => exact ⟨s, holder, rfl, hs⟩
  | failed _ _ hfailed =>
    obtain ⟨-, requests, hstage⟩ := Session.startup_failed hfailed
    exact absurd hstage (hs.not_starting requests)
  | ready _ s' _ hready => exact absurd (Session.startup_ready hready).1 (hs.not_starting [])
  | going _ s' _ hgoing =>
    obtain ⟨m, requests, outbox, hstage, -⟩ := Session.startup_going hgoing
    exact absurd hstage (hs.not_starting _)
  | wrote _ s' _ notes hwrite =>
    rw [hs.write?_eq_none] at hwrite
    cases hwrite
  | read _ step _ hstep =>
    obtain ⟨-, -, stage, backlog, channel, heq, hstage⟩ :=
      (Session.heard_of_mem_choices hstep).of_ended hs.stage
    exact ⟨_, holder, rfl, hs.congr (heq ▸ hstage) (heq ▸ rfl) (heq ▸ rfl) (heq ▸ rfl)⟩
  | offered k item _ _ outbox hoffer =>
    have hopen : s.outbox.isOpen = true := by
      rcases hoffer with hoffer | hoffer
      · exact (Outbox.offer_taken hoffer).1
      · exact (Outbox.offer_lined hoffer).1
    cases hs.isOpen.symm.trans hopen
  | expired k call seq deadline _ _ hcall hstage hconnection hdue =>
    refine ⟨_, holder, rfl, hs.stage, hs.isOpen, hs.items, hs.flight, ?_⟩
    rw [Session.forget, hs.tracker]
    rfl
  | took _ s' b ev hstash htake =>
    obtain ⟨items, -, rfl⟩ := Session.takeEvent?_cases htake
    exact ⟨_, _, rfl, hs.congr hs.stage rfl rfl rfl⟩
  | passed id _ s' b b' w w' ev htake hstep =>
    obtain ⟨items, -, rfl⟩ := Session.takeEvent?_cases htake
    exact ⟨_, _, rfl, hs.congr hs.stage rfl rfl rfl⟩
  | found id _ s' b b' w ev result tried htake hstep =>
    obtain ⟨items, -, rfl⟩ := Session.takeEvent?_cases htake
    exact ⟨_, _, rfl, hs.congr hs.stage rfl rfl rfl⟩
  | _ => exact ⟨_, _, rfl, hs.congr hs.stage rfl rfl rfl⟩

theorem IsOver.playAll (h : c.IsOver i) (ts : List Turn) : (c.playAll ts).IsOver i := by
  induction ts using List.reverseRecOn with
  | nil => exact h
  | append_singleton ts t ih =>
    rw [playAll_concat]
    exact ih.play t

lemma IsOver.wireOf_play (h : c.IsOver i) (t : Turn) : (c.play t).wireOf i = c.wireOf i := by
  obtain ⟨s, holder, hphase, hs⟩ := h
  obtain ⟨out, hwire, hpasses⟩ := (c.moved_play t).passes i
  rw [hwire]
  suffices out = [] by rw [this, List.append_nil]
  rw [hphase] at hpasses
  generalize (c.play t).phase? i = new at hpasses
  cases hpasses with
  | session _ s' _ holder' _ notes origin hconveys =>
    exact (hconveys.of_stopped hs.isOpen hs.ahead).2.2
  | _ => rfl

lemma IsOver.wireOf_playAll (h : c.IsOver i) (ts : List Turn) :
    (c.playAll ts).wireOf i = c.wireOf i := by
  induction ts using List.reverseRecOn with
  | nil => rfl
  | append_singleton ts t ih =>
    rw [playAll_concat, (h.playAll ts).wireOf_play, ih]

lemma IsOver.send (h : c.IsOver i) (id : String) (wants : Wants) (m : Message) (flags : Flags) :
    c.move (.send i id wants m flags) = c.finish id (.failed .notReady) := by
  obtain ⟨s, holder, hphase, hs⟩ := h
  have hhandle : c.handle? i = some (s, holder) := by
    rcases hs.stage with hstage | hstage <;> simp [handle?, hphase, hstage]
  simp [move, hhandle, Client.send, handleState, hs.isOpen]

/-! ## What connections share -/

end Client

def Standing.isOver : Standing → Bool
  | .ended | .failed => true
  | _ => false

lemma Standing.rank_le_of_isOver {old : Standing} (new : Standing) (h : old.isOver = true) :
    new.rank ≤ old.rank := by
  cases old <;> cases new <;> first | decide | cases h

/-- Whether a move begins an attempt to connect, or follows another group. -/
def Client.Move.begins : Client.Move → Bool
  | .connect _ | .connectTcp _ | .trackGroup .. => true
  | _ => false

namespace Client
variable {c : Client} {i k : Nat} {t : Turn} {ts : List Turn}

lemma begins_of_joins {m : Move} (h : m.joins = true) : m.begins = true := by
  cases m <;> simp_all [Move.joins, Move.begins]

def Quiet (c : Client) : Prop :=
  ∀ i standing, c.standing? i = some standing → standing.isOver = true

lemma Quiet.not_arrives (h : c.Quiet) (hbegins : t.move.begins = false) {standing : Standing} :
    ¬ Arrives c (c.play t) i standing := by
  intro harrives
  cases hold : c.standing? i with
  | some old =>
    have hrank := Standing.rank_le_of_isOver standing (h i old hold)
    exact absurd (harrives.rank old hold) (Nat.not_lt_of_le hrank)
  | none =>
    have hmoved := c.phaseMoved_play t i
    have hhere := harrives.here
    rw [standing?] at hold hhere
    rw [Option.map_eq_none_iff.mp hold] at hmoved
    generalize (c.play t).phase? i = new at hmoved hhere
    generalize c.taken? i t.move = taken at hmoved
    generalize t.move = m at hmoved hbegins
    cases hmoved with
    | same => cases hhere
    | joined _ phase hjoins hphase => cases hbegins.symm.trans (begins_of_joins hjoins)

/-- What connections share stays as it is while none is under way. -/
theorem Quiet.play (h : c.Quiet) (hbegins : t.move.begins = false) :
    (c.play t).Quiet ∧ (c.play t).common = c.common := by
  have hstays (hstays : Stays c (c.play t)) (hprogress : (c.play t).progress = c.progress) :
      (c.play t).Quiet ∧ (c.play t).common = c.common :=
    ⟨fun i standing hi => h i standing (hstays.standing i ▸ hi),
      Prod.ext hstays.state hprogress⟩
  cases c.shared t with
  | still hsame hprogress => exact hstays hsame hprogress
  | heard i s step hhears hended hsame hprogress =>
    obtain ⟨holder, -, hphase, hstep, -⟩ := hears?_eq_some hhears
    have hover : s.standing.isOver = true := h i _ (by rw [standing?, hphase]; rfl)
    have hstage : s.stage = .leaving ∨ s.stage = .gone := by
      unfold Session.standing at hover
      split at hover
      · cases hover
      · cases hover
      · exact .inl ‹_›
      · exact .inr ‹_›
    refine hstays hsame (hprogress.trans ?_)
    exact ((Session.heard_of_mem_choices hstep).of_ended hstage).1
  | tracked i id g hmove hsame =>
    rw [hmove] at hbegins
    cases hbegins
  | arrived i standing harrives => exact absurd harrives (h.not_arrives hbegins)
  | welcomed i hmove harrives => exact absurd harrives (h.not_arrives hbegins)
  | ended i hmove harrives => exact absurd harrives (h.not_arrives hbegins)

theorem Quiet.playAll (h : c.Quiet) (hbegins : ∀ t ∈ ts, t.move.begins = false) :
    (c.playAll ts).common = c.common := by
  induction ts generalizing c with
  | nil => rfl
  | cons t ts ih =>
    obtain ⟨hquiet, hcommon⟩ := h.play (hbegins t List.mem_cons_self)
    exact (ih hquiet fun t' ht' => hbegins t' (List.mem_cons_of_mem t ht')).trans hcommon

/-- The client is disconnected, no scope has a window or anything noticed, and these are the
cursors. -/
structure Rests (c : Client) (cursors : Cursors) : Prop where
  state : c.state = .disconnected
  windows : ∀ scope st, c.progress.engine.get? scope = some st →
    st.window = .idle ∧ st.deferred = none
  cursors : c.cursors = cursors

lemma Rests.congr {d : Client} {cursors : Cursors} (h : c.Rests cursors)
    (hcommon : d.common = c.common) : d.Rests cursors := by
  have hstate : d.state = c.state := congrArg Prod.fst hcommon
  have hprogress : d.progress = c.progress := congrArg Prod.snd hcommon
  exact ⟨hstate.trans h.state, fun scope st hst => h.windows scope st (hprogress ▸ hst),
    (congrArg (·.engine.cursors) hprogress).trans h.cursors⟩

/-! ## The turn in which a session ends -/

section Ended
variable {s : Session} {step : Session.Step}

lemma isOver_of_ended (h : c.hears? i t = some (s, step)) (hended : step.ended = true) :
    (c.play t).IsOver i := by
  obtain ⟨holder, -, -, hstep, hphase⟩ := hears?_eq_some h
  obtain ⟨link, reason, rfl⟩ := (Session.heard_of_mem_choices hstep).eq_finish hended
  exact ⟨_, holder, hphase, Session.over_finish _ _ _⟩

/-- The end of a session takes the windows with it, and moves no cursor. -/
lemma rests_of_ended (h : c.hears? i t = some (s, step)) (hended : step.ended = true) :
    (c.play t).Rests c.cursors := by
  obtain ⟨holder, -, -, hstep, hplay⟩ := play_of_hears? h
  obtain ⟨link, reason, rfl⟩ := (Session.heard_of_mem_choices hstep).eq_finish hended
  have hcommon := c.common_hear i holder ({ s with link }.finish c.progress reason)
  rw [← hplay] at hcommon
  obtain ⟨hstate, hprogress⟩ := Prod.ext_iff.mp hcommon
  have hengine : (c.play t).progress.engine = c.progress.engine.resetWindows :=
    congrArg Progress.engine hprogress
  refine ⟨hstate, fun scope st hst => ?_, ?_⟩
  · rw [hengine, Engine.resetWindows, Engine.get?_mapStates] at hst
    obtain ⟨st', -, rfl⟩ := Option.map_eq_some_iff.mp hst
    exact ⟨rfl, rfl⟩
  · rw [cursors, hengine]
    have hscope : ∀ op ∈ [Engine.Op.reset], op.scope? = none := by simp [Engine.Op.scope?]
    exact Engine.cursors_run_of_scope?_eq_none hscope

lemma quiet_of_ended (h : c.hears? i t = some (s, step)) (hended : step.ended = true)
    (hothers : ∀ j, j ≠ i → ∀ standing, c.standing? j = some standing → standing.isOver = true) :
    (c.play t).Quiet := by
  intro j standing hstanding
  by_cases hj : j = i
  · subst hj
    obtain ⟨s', holder, hphase, hs⟩ := isOver_of_ended h hended
    rw [standing?, hphase] at hstanding
    obtain rfl : s'.standing = standing := Option.some.inj hstanding
    rcases hs.stage with hstage | hstage <;> simp [Session.standing, hstage, Standing.isOver]
  · obtain ⟨holder, -, -, -, hplay⟩ := play_of_hears? h
    refine hothers j hj standing ?_
    rw [← hstanding, standing?, standing?, hplay, phase?_hear,
      phase?_setPhase_ne c (Ne.symm hj)]

end Ended

end Client

/-! ## What a call ends with -/

/-- The answer that a call has been told and has only to take note of. -/
def Call.settled? (call : Call) : Option Outcome :=
  match call.stage, call.number with
  | .queued, .full (.ok seq) =>
    match call.wants with
    | .number => some (.numbered seq)
    | .nothing => some .done
    | .receipt => call.receipt.toOption.map .receipted
  | .queued, .full (.error e) => some (.failed e)
  | .awaiting _ _, _ => call.receipt.toOption.map .receipted
  | _, _ => none

/-- A send that has neither ended nor been told what it ends with. -/
structure Call.Unsettled (call : Call) : Prop where
  settled : call.settled? = none
  unfinished : call.stage ≠ .finished
  sends : call.stage ≠ .untilStopped

/-- A call has been told enough to end, on a session that is over, and what it ends with. -/
inductive Call.Closes (call : Call) : Outcome → Prop
  | refused (item : Outgoing) (hstage : call.stage = .offering item) :
    Closes call (.failed .notReady)
  | numbered (seq : Int32) (hstage : call.stage = .queued) (hnumber : call.number = .full (.ok seq))
    (hwants : call.wants = .number) : Closes call (.numbered seq)
  | done (seq : Int32) (hstage : call.stage = .queued) (hnumber : call.number = .full (.ok seq))
    (hwants : call.wants = .nothing) : Closes call .done
  | failed (e : Error) (hstage : call.stage = .queued) (hnumber : call.number = .full (.error e)) :
    Closes call (.failed e)
  | lost (hstage : call.stage = .queued) (hnumber : call.number = .broken) :
    Closes call (.failed .connectionClosed)
  | receipted (seq : Int32) (a : Ack) (hawaits : call.Awaits seq)
    (hreceipt : call.receipt = .full a) : Closes call (.receipted a)
  | unreceipted (seq : Int32) (hawaits : call.Awaits seq) (hreceipt : call.receipt = .broken) :
    Closes call (.failed .connectionClosed)
  | stopped (hstage : call.stage = .untilStopped) : Closes call .done

namespace Call.Closes
variable {call call' : Call} {outcome : Outcome} {k : Nat} {s : Session}

lemma of_owes (h : s.Owes k call) (hs : s.Over) (hstage : call.stage ≠ .finished) :
    ∃ outcome, call.Closes outcome := by
  have hreceipt {seq : Int32} (hawaits : call.Awaits seq) : ∃ outcome, call.Closes outcome := by
    cases hslot : call.receipt with
    | empty =>
      have hwaiter := h.receipt seq hawaits hslot
      rw [hs.tracker] at hwaiter
      cases hwaiter
    | full a => exact ⟨_, .receipted seq a hawaits hslot⟩
    | broken => exact ⟨_, .unreceipted seq hawaits hslot⟩
  cases hstage' : call.stage with
  | offering item => exact ⟨_, .refused item hstage'⟩
  | queued =>
    cases hslot : call.number with
    | empty =>
      obtain ⟨item, hitem, -⟩ := h.number hstage' hslot
      rw [hs.ahead] at hitem
      cases hitem
    | broken => exact ⟨_, .lost hstage' hslot⟩
    | full result =>
      cases result with
      | error e => exact ⟨_, .failed e hstage' hslot⟩
      | ok seq =>
        cases hwants : call.wants with
        | number => exact ⟨_, .numbered seq hstage' hslot hwants⟩
        | nothing => exact ⟨_, .done seq hstage' hslot hwants⟩
        | receipt => exact hreceipt (.inr ⟨hstage', hslot, hwants⟩)
  | awaiting seq deadline => exact hreceipt (.inl ⟨deadline, hstage'⟩)
  | untilStopped => exact ⟨_, .stopped hstage'⟩
  | finished => exact absurd hstage' hstage

/-- A call that the end of its session has found unsettled ends with the news that the connection is
closed, or is refused. -/
lemma of_hears (h : call'.Closes outcome) {notes : List Note} (hhears : call.Hears k notes call')
    (hnotes : ∀ n ∈ notes, (∃ k, n = .lost k) ∨ ∃ k, n = .unreceipted k)
    (hunsettled : call.Unsettled) :
    outcome = .failed .connectionClosed ∨ outcome = .failed .notReady := by
  have hlearnt {result : Except Error Int32} (hfull : call'.number = .full result) :
      call.number = .full result := by
    refine (hhears.learnt hfull).resolve_right fun hn => ?_
    rcases hnotes _ hn with ⟨k', h⟩ | ⟨k', h⟩ <;> cases h
  have hqueued (h : call'.stage = .queued) : call.stage = .queued := hhears.stage ▸ h
  have hsettled := hunsettled.settled
  cases h with
  | refused item h => exact .inr rfl
  | lost h hnumber => exact .inl rfl
  | unreceipted seq hawaits hreceipt => exact .inl rfl
  | stopped h => exact absurd (hhears.stage ▸ h) hunsettled.sends
  | numbered seq h hnumber hwants =>
    simp [settled?, hqueued h, hlearnt hnumber, hhears.wants ▸ hwants] at hsettled
  | done seq h hnumber hwants =>
    simp [settled?, hqueued h, hlearnt hnumber, hhears.wants ▸ hwants] at hsettled
  | failed e h hnumber => simp [settled?, hqueued h, hlearnt hnumber] at hsettled
  | receipted seq a hawaits hreceipt =>
    have hreceipt' : call.receipt = .full a := by
      rcases hhears.receipt with ⟨heq, -⟩ | ⟨n, hn, hslot⟩
      · exact heq ▸ hreceipt
      · obtain rfl := Note.eq_of_receipt? (hreceipt ▸ hslot)
        rcases hnotes _ hn with ⟨k', h⟩ | ⟨k', h⟩ <;> cases h
    rcases hawaits with ⟨deadline, h⟩ | ⟨h, hnumber, hwants⟩
    · simp [settled?, hhears.stage ▸ h, hreceipt', Slot.toOption] at hsettled
    · simp [settled?, hqueued h, hlearnt hnumber, hhears.wants ▸ hwants, hreceipt',
        Slot.toOption] at hsettled

lemma callOn? (h : call.Closes outcome) (hopen : s.outbox.isOpen = false) (c : Client)
    (holder : Holder) : ∃ c', c.callOn? k call s holder = some c' ∧
      (c' = c.finishCall k call outcome ∨ ∃ seq deadline,
        c' = c.setStage k (.awaiting seq deadline) ∧
          Closes { call with stage := .awaiting seq deadline } outcome) := by
  cases h with
  | refused item hstage =>
    refine ⟨_, ?_, .inl rfl⟩
    simp [Client.callOn?, hstage, Outbox.offer, hopen]
  | numbered seq hstage hnumber hwants =>
    refine ⟨_, ?_, .inl rfl⟩
    simp [Client.callOn?, hstage, hnumber, Client.callNumbered, hwants]
  | done seq hstage hnumber hwants =>
    refine ⟨_, ?_, .inl rfl⟩
    simp [Client.callOn?, hstage, hnumber, Client.callNumbered, hwants]
  | failed e hstage hnumber =>
    refine ⟨_, ?_, .inl rfl⟩
    simp [Client.callOn?, hstage, hnumber]
  | lost hstage hnumber =>
    refine ⟨_, ?_, .inl rfl⟩
    simp [Client.callOn?, hstage, hnumber]
  | receipted seq a hawaits hreceipt =>
    rcases hawaits with ⟨deadline, hstage⟩ | ⟨hstage, hnumber, hwants⟩
    · refine ⟨_, ?_, .inl rfl⟩
      simp [Client.callOn?, hstage, hreceipt]
    · refine ⟨_, ?_, .inr ⟨seq, c.now + c.config.delivery.ackTimeout, rfl,
        .receipted seq a (.inl ⟨_, rfl⟩) hreceipt⟩⟩
      simp [Client.callOn?, hstage, hnumber, Client.callNumbered, hwants]
  | unreceipted seq hawaits hreceipt =>
    rcases hawaits with ⟨deadline, hstage⟩ | ⟨hstage, hnumber, hwants⟩
    · refine ⟨_, ?_, .inl rfl⟩
      simp [Client.callOn?, hstage, hreceipt]
    · refine ⟨_, ?_, .inr ⟨seq, c.now + c.config.delivery.ackTimeout, rfl,
        .unreceipted seq (.inl ⟨_, rfl⟩) hreceipt⟩⟩
      simp [Client.callOn?, hstage, hnumber, Client.callNumbered, hwants]
  | stopped hstage =>
    refine ⟨_, ?_, .inl rfl⟩
    simp [Client.callOn?, hstage, hopen]

end Call.Closes

/-! ## Runs -/

namespace Journal
variable {j : Journal} {i k : Nat} {outcome : Outcome}

/-- A call on a connection has ended, or has been told enough to. -/
def Leaves (j : Journal) (i k : Nat) (outcome : Outcome) : Prop :=
  (k, outcome) ∈ j.answers ∨ ∃ call : Call, j.client.calls[k]? = some call ∧
    call.connection = i ∧ call.Closes outcome

lemma Owing.not_told (h : j.Owing) (hover : j.client.IsOver i) {call : Call}
    (hcall : j.client.calls[k]? = some call) (hconnection : call.connection = i) {i' : Nat}
    {s : Session} {holder : Holder} (hphase : j.client.phase? i' = some (.established s holder))
    {n : Note} (hknows : s.Knows n.call) : n.call ≠ k := by
  rintro rfl
  obtain ⟨call', hcall', rfl⟩ := h.knows i' _ s holder hphase hknows
  obtain rfl : call = call' := Option.some.inj (hcall.symm.trans hcall')
  obtain ⟨s', holder', hphase', hs⟩ := hover
  rw [← hconnection] at hphase'
  obtain ⟨rfl, -⟩ : s = s' ∧ holder = holder' := by simpa using hphase.symm.trans hphase'
  exact hs.not_knows _ hknows

lemma Owing.call_stays (h : j.Owing) (hover : j.client.IsOver i) {call : Call}
    (hcall : j.client.calls[k]? = some call) (hconnection : call.connection = i)
    {t : Client.Turn} (hmove : t.move ≠ .act (.calling k)) :
    (j.client.play t).calls[k]? = some call := by
  have htold {notes : List Note} (hnotes : ∀ n ∈ notes, n.call ≠ k) :
      (j.client.applyNotes notes).calls[k]? = some call := by
    obtain ⟨call', hcall', hhears⟩ := Client.exists_hears_applyNotes hcall notes
    rw [hcall', hhears.eq_of_forall_ne hnotes]
  cases j.client.calls_play t with
  | wrote i' s s' holder notes hmove' hphase hwrite hcalls =>
    rw [hcalls]
    exact htold fun n hn => h.not_told hover hcall hconnection hphase
      ((Session.written_of_write? hwrite).confides.told n hn)
  | heard i' s holder step hmove' hphase hstep hcalls =>
    have hheard := Session.heard_of_mem_choices (List.mem_of_getElem? hstep)
    rw [hcalls]
    exact htold fun n hn =>
      h.not_told hover hcall hconnection hphase (hheard.confides.told n hn)
  | stepped k' stage hmove' hcalls =>
    have hk : k' ≠ k := by
      rintro rfl
      exact hmove hmove'
    rw [hcalls, Client.setStage, List.getElem?_modify_ne _ _ hk, hcall]
  | started new hnew hcalls =>
    rw [hcalls, List.getElem?_append_left (List.getElem?_eq_some_iff.mp hcall).choose, hcall]

lemma Leaves.play (h : j.Leaves i k outcome) (howing : j.Owing) (hover : j.client.IsOver i)
    (t : Client.Turn) : (j.play t).Leaves i k outcome := by
  rcases h with hanswered | ⟨call, hcall, hconnection, hcloses⟩
  · exact .inl ((answers_foldl_play j [t]).subset hanswered)
  by_cases hmove : t.move = .act (.calling k)
  · obtain ⟨m, n⟩ := t
    obtain rfl : m = .act (.calling k) := hmove
    obtain ⟨s, holder, hphase, hs⟩ := hover
    obtain ⟨c', hcallOn, hends⟩ := hcloses.callOn? (k := k) hs.isOpen j.client holder
    have hplay : j.client.play ⟨.act (.calling k), n⟩ = c' := by
      simp [Client.play, Client.move, Client.act?, hcall, hconnection, hphase, hcallOn]
    rcases hends with rfl | ⟨seq, deadline, rfl, hcloses'⟩
    · obtain ⟨hresults, -⟩ := j.client.results_finishCall outcome hcall
      refine .inl ?_
      change (k, outcome) ∈ j.answers ++ ((j.client.play _).results.drop _).map _
      rw [hplay, hresults]
      simp
    · refine .inr ⟨{ call with stage := .awaiting seq deadline }, ?_, hconnection, hcloses'⟩
      change (j.client.play _).calls[k]? = _
      rw [hplay, Client.setStage, List.getElem?_modify_eq, hcall]
      rfl
  · exact .inr ⟨call, howing.call_stays hover hcall hconnection hmove, hconnection, hcloses⟩

lemma Leaves.answered (h : j.Leaves i k outcome) (hover : j.client.IsOver i)
    (hrest : j.client.act? (.calling k) = none) : (k, outcome) ∈ j.answers := by
  refine h.resolve_right fun ⟨call, hcall, hconnection, hcloses⟩ => ?_
  obtain ⟨s, holder, hphase, hs⟩ := hover
  obtain ⟨c', hcallOn, -⟩ := hcloses.callOn? (k := k) hs.isOpen j.client holder
  simp [Client.act?, hcall, hconnection, hphase, hcallOn] at hrest

lemma answered_of_finished (c : Client) (hcalls : c.calls = []) (ts : List Client.Turn)
    {call : Call} (hcall : (ofTurns c ts).client.calls[k]? = some call)
    (hfinished : call.stage = .finished) : ∃ outcome, (k, outcome) ∈ (ofTurns c ts).answers := by
  induction ts using List.reverseRecOn generalizing call with
  | nil =>
    change c.calls[k]? = some call at hcall
    rw [hcalls] at hcall
    cases hcall
  | append_singleton ts t ih =>
    rw [ofTurns_concat] at hcall ⊢
    have hbefore {call : Call} (hcall : (ofTurns c ts).client.calls[k]? = some call)
        (hfinished : call.stage = .finished) :
        ∃ outcome, (k, outcome) ∈ ((ofTurns c ts).play t).answers := by
      obtain ⟨outcome, hanswered⟩ := ih hcall hfinished
      exact ⟨outcome, (answers_foldl_play _ [t]).subset hanswered⟩
    change ((ofTurns c ts).client.play t).calls[k]? = some call at hcall
    by_cases hmove : t.move = .act (.calling k)
    · obtain ⟨m, n⟩ := t
      obtain rfl : m = .act (.calling k) := hmove
      change ((ofTurns c ts).client.move (.act (.calling k))).calls[k]? = some call at hcall
      cases hact : (ofTurns c ts).client.act? (.calling k) with
      | none =>
        rw [Client.move, hact] at hcall
        exact hbefore hcall hfinished
      | some c' =>
        rw [Client.move, hact, Option.getD_some] at hcall
        obtain ⟨call₀, s, holder, hcall₀, hcallOn⟩ := Client.callOn?_of_act? hact
        rcases Client.callOn?_results hcall₀ hcallOn with ⟨-, stage, hstage, hcall'⟩ |
          ⟨outcome, -, hresults, -⟩
        · obtain rfl := Option.some.inj (hcall.symm.trans hcall')
          exact absurd hfinished hstage
        · refine ⟨outcome, ?_⟩
          change (k, outcome) ∈ (ofTurns c ts).answers ++
            (((ofTurns c ts).client.move (.act (.calling k))).results.drop _).map _
          rw [Client.move, hact, Option.getD_some, hresults]
          simp
    · rcases Client.stage_play hcall hmove with ⟨-, hstarts⟩ | ⟨call₀, hcall₀, hstage⟩
      · rcases hstarts.stage with h | ⟨item, h, -⟩ <;> cases hfinished.symm.trans h
      · exact hbefore hcall₀ (hstage ▸ hfinished)

section Run
variable {config : Config} {store : CursorStore} {tokens : List (Except Error String)} {c : Client}

lemma Leaves.run (hnew : Client.new config store tokens = .ok c) {front : List Client.Turn}
    (h : (ofTurns c front).Leaves i k outcome) (hover : (c.playAll front).IsOver i)
    (ts : List Client.Turn) : (ofTurns c (front ++ ts)).Leaves i k outcome := by
  induction ts using List.reverseRecOn with
  | nil => rwa [List.append_nil]
  | append_singleton ts t ih =>
    rw [← List.append_assoc, ofTurns_concat]
    refine ih.play (.ofTurns hnew _) ?_ t
    rw [client_ofTurns, Client.playAll_append]
    exact hover.playAll ts

lemma leaves_of_ended (hnew : Client.new config store tokens = .ok c) (past : List Client.Turn)
    {t : Client.Turn} {s : Session} {step : Session.Step}
    (hhears : (c.playAll past).hears? i t = some (s, step)) (hended : step.ended = true)
    {call : Call} (hcall : (c.playAll past).calls[k]? = some call)
    (hconnection : call.connection = i) : ∃ outcome, (ofTurns c (past ++ [t])).Leaves i k outcome ∧
      (call.Unsettled → outcome = .failed .connectionClosed ∨ outcome = .failed .notReady) := by
  obtain ⟨holder, -, -, hstep, hplay⟩ := Client.play_of_hears? hhears
  obtain ⟨link, reason, rfl⟩ := (Session.heard_of_mem_choices hstep).eq_finish hended
  have howing := Owing.ofTurns hnew (past ++ [t])
  have hover := Client.isOver_of_ended hhears hended
  have hclient : (ofTurns c (past ++ [t])).client = (c.playAll past).play t := by
    rw [client_ofTurns, Client.playAll_concat]
  obtain ⟨call', hcall', hhears'⟩ := Client.exists_hears_applyNotes hcall
    ({ s with link }.finish (c.playAll past).progress reason).notes
  have hcalls : ((c.playAll past).play t).calls[k]? = some call' := by
    rw [hplay, ← hcall', Client.hear]
    exact congrArg (·[k]?) (Client.calls_applyNotes_congr (by rfl) _)
  obtain ⟨progress, rfl⟩ := Client.eq_of_new hnew
  by_cases hfinished : call'.stage = .finished
  · obtain ⟨outcome, hanswered⟩ :=
      answered_of_finished _ rfl (past ++ [t]) (hclient ▸ hcalls) hfinished
    exact ⟨outcome, .inl hanswered, fun h => absurd (hhears'.stage ▸ hfinished) h.unfinished⟩
  · obtain ⟨s', holder', hphase', hs'⟩ := hover
    rw [← hconnection, ← hhears'.connection] at hphase'
    have howes := howing.owes k call' s' holder' (hclient ▸ hcalls) (hclient ▸ hphase')
    obtain ⟨outcome, hcloses⟩ := Call.Closes.of_owes howes hs' hfinished
    refine ⟨outcome, .inr ⟨call', hclient ▸ hcalls, hhears'.connection.trans hconnection, hcloses⟩,
      hcloses.of_hears hhears' fun n hn => ?_⟩
    rcases List.mem_append.mp hn with hn | hn
    · obtain ⟨item, -, hlost⟩ := List.mem_filterMap.mp hn
      obtain ⟨k', -, rfl⟩ := Option.map_eq_some_iff.mp hlost
      exact .inl ⟨k', rfl⟩
    · obtain ⟨k', -, rfl⟩ := List.mem_map.mp hn
      exact .inr ⟨k', rfl⟩

end Run

end Journal

namespace Client

/-- What a run leaves of a session that has ended in one of its turns. -/
structure Cleared (c : Client) (past : List Turn) (t : Turn) (i : Nat) (ts : List Turn) :
    Prop where
  hover : (c.playAll (past ++ t :: ts)).IsOver i
  wire : (c.playAll (past ++ t :: ts)).wireOf i = (c.playAll past).wireOf i
  refused : ∀ id wants m flags, (c.playAll (past ++ t :: ts)).move (.send i id wants m flags) =
    (c.playAll (past ++ t :: ts)).finish id (.failed .notReady)
  /-- A call that cannot make a step has ended, whatever the others do. -/
  answered : ∀ k call, (c.playAll past).calls[k]? = some call → call.connection = i →
    (c.playAll (past ++ t :: ts)).act? (.calling k) = none →
    ∃ outcome, (k, outcome) ∈ (Journal.ofTurns c (past ++ t :: ts)).answers ∧
      (call.Unsettled → outcome = .failed .connectionClosed ∨ outcome = .failed .notReady)
  rests : (c.playAll (past ++ [t])).Rests (c.playAll past).cursors
  alone : (∀ j, j ≠ i → ∀ standing, (c.playAll past).standing? j = some standing →
      standing.isOver = true) → (∀ t' ∈ ts, t'.move.begins = false) →
    (c.playAll (past ++ t :: ts)).Rests (c.playAll past).cursors

/-- One call waits for its receipt, one is queued, one still waits for room, and the connection
ends. -/
def hangingUp : List Move :=
  introducing ++ [.send 0 "b" .receipt (.signal .heartbeat) 0, .act (.calling 0),
    .act (.writing 0), .act (.writing 0), .act (.writing 0), .act (.writing 0), .act (.writing 0),
    .act (.writing 0), .act (.calling 0), .send 0 "c" .number (.signal .heartbeat) 0,
    .act (.calling 1), .send 0 "d" .number (.signal .heartbeat) 0, .happen 0 .ended]

def hungUp : List Move :=
  [.act (.calling 0), .act (.calling 1), .act (.calling 2), .act (.reading 0), .act (.reading 0)]

/-- Nothing that a client does by itself is left to do. -/
def isSettled (c : Client) : Bool := c.actors.all fun a => (c.act? a).isNone

/-- The newer one of two connections ends. The older one is still to read a window. -/
def endingBesideWindow : List Move :=
  Chronicle.joining 0 ++ Chronicle.joining 1 ++
    [.happen 0 (.arrive ([0, 0, 0, 8, 0, 0, 0, 2, 27, 2, 0, 0, 0, 0, 0, 0, 0, 0, 0, 0] ++
      [0, 0, 0, 8, 0, 0, 0, 3, 28, 2, 0, 0, 0, 0, 0, 0, 0, 0, 0, 5])), .happen 1 .ended]

/-- The newer one of two connections ends. The older one is still to read that it is welcome. -/
def endingBesideWelcome : List Move :=
  [.connect "a", .act (.connecting 0)] ++ Chronicle.joining 1 ++
    [.happen 0 (.arrive [0, 0, 0, 4, 0, 0, 0, 1, 3, 2, 0, 0, 0, 0, 0, 0]), .happen 1 .ended]

/-- What the parts of the client do by themselves when the newer connection has ended. -/
def goingOn : List Move :=
  [.writing 0, .writing 0, .writing 1, .writing 1, .reading 0, .reading 0, .reading 0, .reading 0,
    .reading 0, .reading 0, .writing 0, .writing 0, .reading 0, .reading 1, .reading 1,
    .connecting 0, .connecting 0, .connecting 0, .connecting 0, .writing 0, .writing 0].map .act

end Client

end Parley
