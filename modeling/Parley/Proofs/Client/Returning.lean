import Parley.Proofs.Client.Lining
import Parley.Proofs.Client.Teardown

/-!
# How calls return

A call that has asked for a frame stands at every time in one of a few places (`Journal.Stands`):
its item is still to be queued, or is ahead of the writer, or something has become of it, and then
the call is answered by what that is, if it has not been answered so already. Main statement:
`Journal.inOrder_ofTurns`, which says what has gone out on a connection, how its frames are
numbered, and what every call is answered.
-/

namespace Parley

/-- What a call is answered by what has become of its frame. A frame that is written is no answer to
a call that waits for the receipt. -/
def Wants.answer? : Wants → Slot (Except Error Int32) → Option Outcome
  | _, .empty => none
  | .number, .full (.ok seq) => some (.numbered seq)
  | .nothing, .full (.ok _) => some .done
  | .receipt, .full (.ok _) => none
  | _, .full (.error e) => some (.failed e)
  | _, .broken => some (.failed .connectionClosed)

/-! ## The sessions of calls -/

namespace Client
variable {c : Client} {i k : Nat} {s : Session} {holder : Holder}

lemma PhaseMoved.established {m : Move} {taken : Option Event} {phase : Option Phase}
    (h : PhaseMoved c i m taken (some (.established s holder)) phase)
    (hready : ∀ requests, s.stage ≠ .starting requests) :
    ∃ s' holder', phase = some (.established s' holder') := by
  cases h with
  | failed _ _ hfailed =>
    obtain ⟨-, requests, hstage⟩ := Session.startup_failed hfailed
    exact absurd hstage (hready requests)
  | _ => exact ⟨_, _, rfl⟩

lemma stage_of_handle? (h : c.handle? i = some (s, holder)) (requests : List Message) :
    s.stage ≠ .starting requests := by
  intro hstage
  simp [handle?, handle?_eq_some h, hstage] at h

lemma established_of_mem_callees {config : Config} {store : CursorStore}
    {tokens : List (Except Error String)} (hnew : new config store tokens = .ok c) (ts : List Turn)
    (hi : i ∈ (c.playAll ts).callees) :
    ∃ s holder, (c.playAll ts).phase? i = some (.established s holder) := by
  induction ts using List.reverseRecOn generalizing i with
  | nil =>
    obtain ⟨progress, rfl⟩ := eq_of_new hnew
    cases hi
  | append_singleton ts t ih =>
    rw [playAll_concat] at hi ⊢
    have hmoved := (c.playAll ts).phaseMoved_play t i
    have hready := callsReady_run hnew ts
    have hkept (hi : i ∈ (c.playAll ts).callees) :
        ∃ s holder, ((c.playAll ts).play t).phase? i = some (.established s holder) := by
      obtain ⟨s, holder, hphase⟩ := ih hi
      exact (hphase ▸ hmoved).established fun _ hstage =>
        hready.not_mem_callees hphase hstage hi
    -- a turn adds at most one call, and that on a session with a handle
    rcases (c.playAll ts).callees_play t with hsame | ⟨i', hhandle, hnew'⟩
    · exact hkept (hsame ▸ hi)
    · rw [hnew', List.mem_append, List.mem_singleton] at hi
      rcases hi with hi | rfl
      · exact hkept hi
      · obtain ⟨⟨s, holder⟩, hhandle⟩ := Option.isSome_iff_exists.mp hhandle
        exact (handle?_eq_some hhandle ▸ hmoved).established (stage_of_handle? hhandle)

/-- Nothing goes on for the calls on a connection: its transport takes what is written, and neither
of its two sides nor a call can make a step. -/
structure Still (c : Client) (i : Nat) : Prop where
  flows : ∀ s holder, c.phase? i = some (.established s holder) → s.link.outbound.blocked = false
  writing : c.act? (.writing i) = none
  reading : c.act? (.reading i) = none
  calling : ∀ k, c.act? (.calling k) = none

end Client

/-! ## Where a call stands -/

namespace Journal

/-- A call has been answered with this, or has no answer yet and gets this one by its next step. -/
def Answered (j : Journal) (k : Nat) (outcome : Outcome) : Prop :=
  (k, outcome) ∈ j.answers ∨ (∀ other, (k, other) ∉ j.answers) ∧
    ∀ choice, (j.play ⟨.act (.calling k), choice⟩).answers = j.answers ++ [(k, outcome)]

/-- Where a call stands that has asked for an item to be sent. -/
inductive Stands (j : Journal) (k : Nat) (call : Call) (item : Outgoing) : Prop
  | offering (s : Session) (holder : Holder)
    (hphase : j.client.phase? call.connection = some (.established s holder))
    (hopen : s.outbox.isOpen = true) (hqueued : ∀ i, item ∉ j.queued i)
    (hnext : s.outbox.place (.call k) < s.outbox.room → ∀ choice,
      (j.play ⟨.act (.calling k), choice⟩).queued call.connection =
        j.queued call.connection ++ [item]) : Stands j k call item
  | refused (hqueued : ∀ i, item ∉ j.queued i) (h : j.Answered k (.failed .notReady)) :
    Stands j k call item
  | ahead (hahead : item ∈ aheadOf (j.client.phase? call.connection)) : Stands j k call item
  | told (slot : Slot (Except Error Int32)) (outcome : Outcome)
    (hfate : j.Fate call.connection item slot) (houtcome : call.wants.answer? slot = some outcome)
    (h : j.Answered k outcome) : Stands j k call item
  | written (seq : Int32) (hwants : call.wants = .receipt)
    (hfate : j.Fate call.connection item (.full (.ok seq))) : Stands j k call item

/-- What is known of every journal of a run that a call goes by. -/
structure Accounted (j : Journal) : Prop where
  sound : j.Sound
  owing : j.Owing
  once : j.Once
  lines : j.client.LinesUp
  ready : j.client.CallsReady
  established : ∀ i ∈ j.client.callees, ∃ s holder,
    j.client.phase? i = some (.established s holder)
  finished : ∀ (k : Nat) (call : Call), j.client.calls[k]? = some call → call.stage = .finished →
    ∃ outcome, (k, outcome) ∈ j.answers

lemma accounted_ofTurns {config : Config} {store : CursorStore}
    {tokens : List (Except Error String)} {c : Client}
    (hnew : Client.new config store tokens = .ok c) (ts : List Client.Turn) :
    (ofTurns c ts).Accounted where
  sound := (sound_start hnew).ofTurns ts
  owing := .ofTurns hnew ts
  once := once_ofTurns c ts
  lines := by
    rw [client_ofTurns]
    exact Client.linesUp_run hnew ts
  ready := by
    rw [client_ofTurns]
    exact Client.callsReady_run hnew ts
  established i hi := by
    rw [client_ofTurns] at hi ⊢
    exact Client.established_of_mem_callees hnew ts hi
  finished k call hcall hstage := by
    obtain ⟨progress, rfl⟩ := Client.eq_of_new hnew
    exact answered_of_finished _ rfl ts hcall hstage

namespace Accounted
variable {j : Journal} {k : Nat} {call : Call} {item : Outgoing} {s : Session} {holder : Holder}
  {outcome : Outcome}

lemma phase? (h : j.Accounted) (hcall : j.client.calls[k]? = some call) :
    ∃ s holder, j.client.phase? call.connection = some (.established s holder) :=
  h.established _ (List.mem_map_of_mem (List.mem_of_getElem? hcall))

lemma answered (h : j.Accounted) (hcall : j.client.calls[k]? = some call)
    (hphase : j.client.phase? call.connection = some (.established s holder))
    (hstage : call.stage ≠ .finished)
    (hstep : j.client.callOn? k call s holder = some (j.client.finishCall k call outcome)) :
    j.Answered k outcome := by
  refine .inr ⟨fun other hmem => ?_, fun choice => ?_⟩
  · obtain ⟨call', hcall', hfinished⟩ := h.once.finished k other hmem
    obtain rfl := Option.some.inj (hcall.symm.trans hcall')
    exact hstage hfinished
  · have hplay : j.client.play ⟨.act (.calling k), choice⟩ =
        j.client.finishCall k call outcome := by
      simp [Client.play, Client.move, Client.act?, hcall, hphase, hstep]
    obtain ⟨hresults, -⟩ := j.client.results_finishCall outcome hcall
    change j.answers ++ ((j.client.play _).results.drop _).map _ = _
    rw [hplay, hresults]
    simp

lemma not_mem_queued (h : j.Accounted) (hasked : j.asked[k]? = some (some item))
    (hnone : ∀ i, ∀ item ∈ j.queued i, item.caller ≠ some k) (i : Nat) : item ∉ j.queued i :=
  fun hmem => hnone i item hmem (h.sound.caller k item hasked)

lemma stands_of_offering (h : j.Accounted) (hcall : j.client.calls[k]? = some call)
    (hstage : call.stage = .offering item) : j.Stands k call item := by
  obtain ⟨s, holder, hphase⟩ := h.phase? hcall
  obtain ⟨hasked, hcaller⟩ := h.sound.offering k call item hcall hstage
  have hqueued (i : Nat) : item ∉ j.queued i := by
    intro hmem
    obtain ⟨-, call', hcall', -, hoffering⟩ := h.sound.owned i k item hmem hcaller
    obtain rfl := Option.some.inj (hcall.symm.trans hcall')
    exact hoffering item hstage
  cases hopen : s.outbox.isOpen with
  | false =>
    refine .refused hqueued (h.answered hcall hphase (by simp [hstage]) ?_)
    simp [Client.callOn?, hstage, Outbox.offer, hopen]
  | true =>
    refine .offering s holder hphase hopen hqueued fun hroom choice => ?_
    let outbox : Outbox := { s.outbox with
      items := s.outbox.items ++ [item], line := s.outbox.line.erase (.call k) }
    have hplay : j.client.play ⟨.act (.calling k), choice⟩ =
        (j.client.setPhase call.connection (.established { s with outbox } holder)).setStage k
          .queued := by
      simp [Client.play, Client.move, Client.act?, hcall, hphase, Client.callOn?, hstage,
        Outbox.offer, hopen, hroom, outbox]
    have hphase' : (j.client.play ⟨.act (.calling k), choice⟩).phase? call.connection =
        some (.established { s with outbox } holder) := by
      rw [hplay]
      exact Client.phase?_setPhase_self _ hphase _
    rw [queued_play, hphase, hphase']
    simp [newly, aheadOf, Sending.ahead, Session.sending, outbox]

lemma stands_of_queued (h : j.Accounted) (hcall : j.client.calls[k]? = some call)
    (hasked : j.asked[k]? = some (some item)) (hstage : call.stage = .queued) :
    j.Stands k call item := by
  obtain ⟨s, holder, hphase⟩ := h.phase? hcall
  have hunfinished : call.stage ≠ .finished := by simp [hstage]
  have hfate (hne : call.number ≠ .empty) : j.Fate call.connection item call.number := by
    obtain ⟨item', hasked', hfate⟩ := (h.sound.numbered k call hcall).resolve_left hne
    obtain rfl := asked_unique hasked hasked'
    exact hfate
  cases hnumber : call.number with
  | empty =>
    -- nothing has been told yet, so that the item is at hand
    obtain ⟨item', hahead, hcaller⟩ := (h.owing.owes k call s holder hcall hphase).number hstage
      hnumber
    obtain ⟨hasked', -⟩ := h.sound.owned _ k item' (h.sound.mem_queued_of_ahead hphase hahead)
      hcaller
    obtain rfl := asked_unique hasked hasked'
    exact .ahead (by rw [hphase]; exact hahead)
  | broken =>
    refine .told .broken _ (hnumber ▸ hfate (by simp [hnumber])) rfl
      (h.answered hcall hphase hunfinished ?_)
    simp [Client.callOn?, hstage, hnumber]
  | full result =>
    have hfull := hnumber ▸ hfate (by simp [hnumber])
    cases result with
    | error e =>
      refine .told _ (.failed e) hfull rfl (h.answered hcall hphase hunfinished ?_)
      simp [Client.callOn?, hstage, hnumber]
    | ok seq =>
      cases hwants : call.wants with
      | receipt => exact .written seq hwants hfull
      | number =>
        refine .told _ (.numbered seq) hfull (by rw [hwants]; rfl)
          (h.answered hcall hphase hunfinished ?_)
        simp [Client.callOn?, hstage, hnumber, Client.callNumbered, hwants]
      | nothing =>
        refine .told _ .done hfull (by rw [hwants]; rfl) (h.answered hcall hphase hunfinished ?_)
        simp [Client.callOn?, hstage, hnumber, Client.callNumbered, hwants]

lemma stands_of_settles (h : j.Accounted) (hasked : j.asked[k]? = some (some item))
    (hanswered : (k, outcome) ∈ j.answers) (hsettles : j.Settles k call outcome) :
    j.Stands k call item := by
  cases hsettles with
  | numbered item' seq hasked' hwants hfate =>
    obtain rfl := asked_unique hasked hasked'
    exact .told _ _ hfate (by rw [hwants]; rfl) (.inl hanswered)
  | done item' seq hasked' hwants hfate =>
    obtain rfl := asked_unique hasked hasked'
    exact .told _ _ hfate (by rw [hwants]; rfl) (.inl hanswered)
  | failed item' e hasked' hfate =>
    obtain rfl := asked_unique hasked hasked'
    exact .told _ _ hfate rfl (.inl hanswered)
  | lost item' hasked' hfate =>
    obtain rfl := asked_unique hasked hasked'
    exact .told _ _ hfate rfl (.inl hanswered)
  | awaited item' seq _ hasked' hwants hfate houtcome =>
    obtain rfl := asked_unique hasked hasked'
    exact .written seq hwants hfate
  | stopped hnone => cases hnone.symm.trans hasked
  | refused item' hasked' hnone hstage =>
    exact .refused (h.not_mem_queued hasked hnone) (.inl hanswered)

theorem stands (h : j.Accounted) (hcall : j.client.calls[k]? = some call)
    (hasked : j.asked[k]? = some (some item)) : j.Stands k call item := by
  cases hstage : call.stage with
  | offering item' =>
    obtain ⟨hasked', -⟩ := h.sound.offering k call item' hcall hstage
    obtain rfl := asked_unique hasked hasked'
    exact h.stands_of_offering hcall hstage
  | queued => exact h.stands_of_queued hcall hasked hstage
  | awaiting seq deadline =>
    obtain ⟨hwants, item', hasked', hfate⟩ := h.sound.awaiting k call seq deadline hcall hstage
    obtain rfl := asked_unique hasked hasked'
    exact .written seq hwants hfate
  | untilStopped => cases (h.sound.stopping k call hcall hstage).symm.trans hasked
  | finished =>
    obtain ⟨outcome, hanswered⟩ := h.finished k call hcall hstage
    obtain ⟨call', hcall', hsettles⟩ := h.sound.answered k outcome hanswered
    obtain rfl := Option.some.inj (hcall.symm.trans hcall')
    exact h.stands_of_settles hasked hanswered hsettles

/-! ## By what has become of the item -/

/-- The writer is done with the item of a call: encoding the frame says what the answer is. -/
lemma answered_of_behind (h : j.Accounted) (hcall : j.client.calls[k]? = some call)
    (hcaller : item.caller = some k) {before after : List Outgoing}
    (hbehind : j.behind call.connection = before ++ item :: after)
    (houtcome : call.wants.answer? (.full (((item.frame j.version
      (numberBehind j.version firstSeq before)).encode).map fun _ =>
        numberBehind j.version firstSeq before)) = some outcome) : j.Answered k outcome := by
  obtain ⟨hfront, -⟩ := h.sound.laid call.connection
  have hmem : item ∈ j.queued call.connection := hfront.subset (by simp [hbehind])
  obtain ⟨hasked, -⟩ := h.sound.owned _ k item hmem hcaller
  cases h.stands hcall hasked with
  | offering s holder hphase hopen hqueued hnext => exact absurd hmem (hqueued _)
  | refused hqueued => exact absurd hmem (hqueued _)
  | ahead hahead =>
    obtain ⟨hnone, -⟩ := h.sound.not_fate_of_ahead hahead hcaller .broken
    exact absurd (by simp [hbehind]) hnone
  | told slot outcome' hfate houtcome' hanswered =>
    rw [h.sound.fate_of_behind hcaller hbehind hfate, houtcome] at houtcome'
    obtain rfl := Option.some.inj houtcome'
    exact hanswered
  | written seq hwants hfate =>
    rw [← h.sound.fate_of_behind hcaller hbehind hfate, hwants] at houtcome
    cases houtcome

/-- The writer has ended before it came to the item of a call. -/
lemma answered_of_over (h : j.Accounted) (hcall : j.client.calls[k]? = some call)
    (hasked : j.asked[k]? = some (some item))
    (hover : overOf (j.client.phase? call.connection) = true) :
    (item ∈ j.queued call.connection → item ∉ j.behind call.connection →
      j.Answered k (.failed .connectionClosed)) ∧
    (item ∉ j.queued call.connection → j.Answered k (.failed .notReady)) := by
  have hwritten {seq : Int32} (hfate : j.Fate call.connection item (.full (.ok seq))) :
      item ∈ j.behind call.connection := by
    cases hfate with
    | written before after octets hbehind => simp [hbehind]
  cases h.stands hcall hasked with
  | offering s holder hphase hopen hqueued hnext => simp [hphase, overOf, hopen] at hover
  | refused hqueued hanswered => exact ⟨fun hmem => absurd hmem (hqueued _), fun _ => hanswered⟩
  | ahead hahead =>
    obtain ⟨hwrites, -⟩ := h.sound.queued_of_ahead (List.ne_nil_of_mem hahead)
    cases hover.symm.trans hwrites
  | told slot outcome hfate houtcome hanswered =>
    refine ⟨fun _ hnone => ?_, fun hnone => absurd (h.sound.mem_queued_of_fate hfate) hnone⟩
    cases hfate with
    | written before after octets hbehind => exact absurd (by simp [hbehind]) hnone
    | skipped before after e hbehind => exact absurd (by simp [hbehind]) hnone
    | refused | lost =>
      cases hwants : call.wants <;> rw [hwants] at houtcome <;> cases houtcome <;> exact hanswered
  | written seq hwants hfate =>
    exact ⟨fun _ hnone => absurd (hwritten hfate) hnone,
      fun hnone => absurd (h.sound.mem_queued_of_fate hfate) hnone⟩

/-! ## When nothing goes on -/

lemma callOn?_of_still (hcall : j.client.calls[k]? = some call)
    (hphase : j.client.phase? call.connection = some (.established s holder))
    (hstill : j.client.Still call.connection) : j.client.callOn? k call s holder = none := by
  simpa [Client.act?, hcall, hphase] using hstill.calling k

/-- No call is left with its item to queue, as the first in line would have gone on. -/
lemma not_offering_of_still (h : j.Accounted) (hcall : j.client.calls[k]? = some call)
    (hstill : j.client.Still call.connection) : call.stage ≠ .offering item := by
  intro hstage
  obtain ⟨s, holder, hphase⟩ := h.phase? hcall
  obtain ⟨-, hitems⟩ :=
    Client.items_of_unblocked hphase (hstill.flows s holder hphase) hstill.writing
  obtain ⟨hopen, -, hmem⟩ :=
    Outbox.offer_stuck (Client.stuck_of_callOn? hstage (callOn?_of_still hcall hphase hstill))
  -- the call is in line, so that somebody is first there
  obtain ⟨who, line, hline⟩ := List.exists_cons_of_ne_nil (List.ne_nil_of_mem hmem)
  have hgoes := h.lines.head_goes_on hphase hopen hitems hline
  cases who with
  | startup =>
    obtain ⟨m, requests, hstarting⟩ := (h.lines _ s holder hphase).needs .startup (by simp [hline])
    exact h.ready.not_mem_callees hphase hstarting
      (List.mem_map_of_mem (List.mem_of_getElem? hcall))
  | reading => exact hgoes hstill.reading
  | call k' => exact hgoes (hstill.calling k')

theorem returns (h : j.Accounted) (hcall : j.client.calls[k]? = some call)
    (hasked : j.asked[k]? = some (some item)) (hstill : j.client.Still call.connection) :
    (∃ outcome, (k, outcome) ∈ j.answers) ∨ ∃ seq deadline, call.wants = .receipt ∧
      call.stage = .awaiting seq deadline ∧ j.client.now < deadline := by
  obtain ⟨s, holder, hphase⟩ := h.phase? hcall
  have hstep := callOn?_of_still hcall hphase hstill
  cases hstage : call.stage with
  | offering item' => exact absurd hstage (h.not_offering_of_still hcall hstill)
  | queued =>
    -- a call that has been told goes on, and one that has not has its item with the writer
    exfalso
    simp only [Client.callOn?, hstage] at hstep
    split at hstep
    · rename_i hempty
      obtain ⟨item', hahead, -⟩ := (h.owing.owes k call s holder hcall hphase).number hstage hempty
      obtain ⟨hflight, hitems⟩ :=
        Client.items_of_unblocked hphase (hstill.flows s holder hphase) hstill.writing
      simp [Sending.ahead, Session.sending, hflight, hitems] at hahead
    · cases hstep
    · cases hstep
    · cases hstep
  | awaiting seq deadline =>
    obtain ⟨hwants, -⟩ := h.sound.awaiting k call seq deadline hcall hstage
    refine .inr ⟨seq, deadline, hwants, rfl, ?_⟩
    simp only [Client.callOn?, hstage] at hstep
    split at hstep
    · cases hstep
    · cases hstep
    · split at hstep
      · cases hstep
      · omega
  | untilStopped => cases (h.sound.stopping k call hcall hstage).symm.trans hasked
  | finished => exact .inl (h.finished k call hcall hstage)

end Accounted

/-! ## All of it -/

/-- What the frames on the connections of a client and the answers to its calls have to do with what
was queued. -/
structure InOrder (j : Journal) : Prop where
  laid : ∀ i, j.Laid i
  waiting : ∀ i, writesOf (j.client.phase? i) = true →
    j.queued i = j.behind i ++ aheadOf (j.client.phase? i)
  numbered : ∀ i n raw, (drain Frame.maxBodyLen (j.client.wireOf i)).frames[n]? = some raw →
    raw.header.seq = Int32.ofNat (n + 1)
  distinct : ∀ i m n raw raw', (drain Frame.maxBodyLen (j.client.wireOf i)).frames[m]? = some raw →
    (drain Frame.maxBodyLen (j.client.wireOf i)).frames[n]? = some raw' → m < n → n < m + 2 ^ 32 →
    raw.header.seq ≠ raw'.header.seq
  /-- To send on a session that is ready is to start a call that asks for the frame; otherwise it is
  to be refused, with nothing queued. -/
  sends : ∀ i s holder id wants m flags choice, j.client.handle? i = some (s, holder) →
    (j.client.handleState s = .ready → ∃ call item,
      (j.play ⟨.send i id wants m flags, choice⟩).client.calls = j.client.calls ++ [call] ∧
      (j.play ⟨.send i id wants m flags, choice⟩).asked = j.asked ++ [some item] ∧
      call.id = id ∧ call.connection = i ∧ call.wants = wants ∧ item.message = m ∧
      item.flags = flags ∧ item.caller = some j.client.calls.length) ∧
    (j.client.handleState s ≠ .ready → (j.play ⟨.send i id wants m flags, choice⟩).client =
      j.client.finish id (.failed .notReady))
  stands : ∀ (k : Nat) (call : Call) item, j.client.calls[k]? = some call →
    j.asked[k]? = some (some item) → j.Stands k call item
  /-- When nothing goes on any more, every call has returned that does not wait for its receipt. -/
  returns : ∀ (k : Nat) (call : Call) item, j.client.calls[k]? = some call →
    j.asked[k]? = some (some item) → j.client.Still call.connection →
    (∃ outcome, (k, outcome) ∈ j.answers) ∨ ∃ seq deadline, call.wants = .receipt ∧
      call.stage = .awaiting seq deadline ∧ j.client.now < deadline
  once : (j.answers.map (·.1)).Nodup
  answered : ∀ (k : Nat) outcome, (k, outcome) ∈ j.answers →
    ∃ call : Call, j.client.calls[k]? = some call ∧ j.Settles k call outcome
  wrote : ∀ i item seq, j.Fate i item (.full (.ok seq)) → j.Wrote i item seq
  /-- A call whose frame the writer is done with is answered by what encoding the frame has said:
  with the number, or with the fault. -/
  encoded : ∀ (k : Nat) (call : Call) before item after outcome, j.client.calls[k]? = some call →
    item.caller = some k → j.behind call.connection = before ++ item :: after →
    call.wants.answer? (.full (((item.frame j.version
      (numberBehind j.version firstSeq before)).encode).map fun _ =>
        numberBehind j.version firstSeq before)) = some outcome → j.Answered k outcome
  /-- A call whose item is left when the writer has ended is told that the connection is closed if
  the item is queued, and that it is not ready if it is not. -/
  closed : ∀ (k : Nat) (call : Call) item, j.client.calls[k]? = some call →
    j.asked[k]? = some (some item) → overOf (j.client.phase? call.connection) = true →
    (item ∈ j.queued call.connection → item ∉ j.behind call.connection →
      j.Answered k (.failed .connectionClosed)) ∧
    (item ∉ j.queued call.connection → j.Answered k (.failed .notReady))
  unwritten : ∀ (k : Nat) (call : Call) item, (k, .failed .connectionClosed) ∈ j.answers →
    j.client.calls[k]? = some call → call.wants ≠ .receipt → j.asked[k]? = some (some item) →
    item ∉ j.behind call.connection

lemma sends (j : Journal) {i : Nat} {s : Session} {holder : Holder} (id : String) (wants : Wants)
    (m : Message) (flags : Flags) (choice : Nat)
    (hhandle : j.client.handle? i = some (s, holder)) :
    (j.client.handleState s = .ready → ∃ call item,
      (j.play ⟨.send i id wants m flags, choice⟩).client.calls = j.client.calls ++ [call] ∧
      (j.play ⟨.send i id wants m flags, choice⟩).asked = j.asked ++ [some item] ∧
      call.id = id ∧ call.connection = i ∧ call.wants = wants ∧ item.message = m ∧
      item.flags = flags ∧ item.caller = some j.client.calls.length) ∧
    (j.client.handleState s ≠ .ready → (j.play ⟨.send i id wants m flags, choice⟩).client =
      j.client.finish id (.failed .notReady)) := by
  have hplay : j.client.play ⟨.send i id wants m flags, choice⟩ =
      j.client.send i s id wants m flags := by
    change j.client.move (.send i id wants m flags) = _
    rw [Client.move, hhandle]
  refine ⟨fun hready => ?_, fun hunready => ?_⟩
  · rw [Client.send, if_pos hready] at hplay
    let item : Outgoing :=
      { message := m, flags, caller := some j.client.calls.length, tracked := wants = .receipt }
    refine ⟨_, item, congrArg Client.calls hplay, ?_, rfl, rfl, rfl, rfl, rfl, rfl⟩
    rw [asked_play, hplay, Client.addCall, List.drop_left]
    rfl
  · exact hplay.trans (if_neg hunready)

/-- In every run of a client, what goes out on a connection is a front of its token frame and the
frames of the items queued on it, in order and numbered one after another, and every call is
answered according to what has become of its own frame. -/
theorem inOrder_ofTurns {config : Config} {store : CursorStore}
    {tokens : List (Except Error String)} {c : Client}
    (hnew : Client.new config store tokens = .ok c) (ts : List Client.Turn) :
    (ofTurns c ts).InOrder := by
  have haccounted := accounted_ofTurns hnew ts
  have hsound := haccounted.sound
  exact {
    laid := hsound.laid
    waiting := fun i hwrites => hsound.waiting hwrites
    numbered := fun i n raw h => hsound.seq_eq h
    distinct := by
      intro i m n raw raw' hm hn hlt hnear
      rw [hsound.seq_eq hm, hsound.seq_eq hn]
      exact ofNat_ne_ofNat (by omega) (by omega)
    sends := fun i s holder id wants m flags choice h => sends _ id wants m flags choice h
    stands := fun k call item hcall hasked => haccounted.stands hcall hasked
    returns := fun k call item hcall hasked hstill => haccounted.returns hcall hasked hstill
    once := haccounted.once.nodup
    answered := hsound.answered
    wrote := fun i item seq h => hsound.wrote_of_fate h
    encoded := fun k call before item after outcome hcall hcaller hbehind houtcome =>
      haccounted.answered_of_behind hcall hcaller hbehind houtcome
    closed := fun k call item hcall hasked hover => haccounted.answered_of_over hcall hasked hover
    unwritten := by
      intro k call item hanswer hcall hwants hasked
      obtain ⟨call', hcall', hsettles⟩ := hsound.answered k _ hanswer
      obtain rfl : call = call' := Option.some.inj (hcall.symm.trans hcall')
      exact hsound.not_mem_behind_of_closed hsettles hwants hasked }

/-- A client introduces itself, asks for its cursors, and sends one heartbeat, which is its third
frame. -/
theorem inOrder_of_heartbeat : ∃ ts,
    Client.new .least (.memory .zero) [] = .ok .least ∧
      (ofTurns .least ts).answers = [(0, .numbered 3)] ∧
      ((ofTurns .least ts).client.wireOf 0).length = 48 ∧ (ofTurns .least ts).InOrder :=
  ⟨Client.firsts (Client.introducing ++ [.send 0 "b" .number (.signal .heartbeat) 0,
    .act (.calling 0), .act (.writing 0), .act (.writing 0), .act (.writing 0), .act (.writing 0),
    .act (.calling 0)]),
    Client.new_least, by decide +kernel, by decide +kernel, inOrder_ofTurns Client.new_least _⟩

end Journal

end Parley
