import Parley.Proofs.Client.CatchingUp
import Parley.Proofs.Client.Telling

/-!
# What sessions owe to calls

A call that waits waits for something that its session still has at hand: its item on the way to the
wire, or its waiter in the tracker. Whoever takes such a thing away tells the call, so that no call
is left waiting for nothing. Main statement: `Journal.Owing.ofTurns`.
-/

namespace Parley

/-- The call waits for the receipt of a number, be it that it has still to take note of the
number. -/
def Call.Awaits (call : Call) (seq : Int32) : Prop :=
  (∃ deadline, call.stage = .awaiting seq deadline) ∨
    call.stage = .queued ∧ call.number = .full (.ok seq) ∧ call.wants = .receipt

/-! ## What a session has at hand for a call -/

/-- What a call on a session waits for is at hand in the session. -/
structure Session.Owes (s : Session) (k : Nat) (call : Call) : Prop where
  number : call.stage = .queued → call.number = .empty →
    ∃ item ∈ s.sending.ahead, item.caller = some k
  receipt : ∀ seq, call.Awaits seq → call.receipt = .empty → s.tracker.waiter? seq = some k
  flight : ∀ flight, s.flight = some flight → flight.item.caller = some k →
    flight.item.tracked = true → call.stage ≠ .finished → call.receipt = .empty →
      s.tracker.waiter? flight.seq = some k

namespace Session.Owes
variable {s s' : Session} {k : Nat} {call call' : Call} {notes : List Note}

theorem serves (h : s.Owes k call) (hserves : s.Serves s' notes) (hhears : call.Hears k notes call')
    (htracked : ∀ flight, s.flight = some flight → flight.item.caller = some k →
      call.wants = .receipt → flight.item.tracked = true) : s'.Owes k call' := by
  have hwaits {seq : Int32} (hwaiter : call.receipt = .empty → s.tracker.waiter? seq = some k)
      (hempty : call'.receipt = .empty) : s'.tracker.waiter? seq = some k := by
    obtain ⟨hempty, hnone⟩ := hhears.receipt_empty hempty
    exact (hserves.waiter seq k (hwaiter hempty)).resolve_right fun ⟨n, hn, slot, hslot⟩ =>
      hnone n hn slot hslot
  refine ⟨fun hstage hempty => ?_, fun seq hawaits => hwaits fun hempty => ?_,
    fun flight' hflight' hcaller htracked' hstage hempty => ?_⟩
  · obtain ⟨hempty, hnone⟩ := hhears.number_empty hempty
    obtain ⟨item, hitem, hcaller⟩ := h.number (hhears.stage ▸ hstage) hempty
    refine ⟨item, (hserves.ahead item hitem k hcaller).resolve_right ?_, hcaller⟩
    exact fun ⟨n, hn, slot, hslot⟩ => hnone n hn slot hslot
  · rcases hawaits with ⟨deadline, hstage⟩ | ⟨hstage, hfull, hwants⟩
    · exact h.receipt seq (.inl ⟨deadline, hhears.stage ▸ hstage⟩) hempty
    · rcases hhears.learnt hfull with hfull | hn
      · exact h.receipt seq (.inr ⟨hhears.stage ▸ hstage, hfull, hhears.wants ▸ hwants⟩) hempty
      · -- the frame of the call has just been written
        obtain ⟨flight, hflight, hcaller, rfl⟩ := hserves.number k seq hn
        refine h.flight flight hflight hcaller ?_ ?_ hempty
        · exact htracked flight hflight hcaller (hhears.wants ▸ hwants)
        · rw [← hhears.stage, hstage]
          simp
  · rcases hserves.flight flight' hflight' with ⟨flight, hflight, hitem, hseq⟩ | hnew
    · rw [← hseq]
      refine hwaits (fun hempty => ?_) hempty
      rw [← hitem] at hcaller htracked'
      exact h.flight flight hflight hcaller htracked' (hhears.stage ▸ hstage) hempty
    · exact hnew k hcaller htracked'

lemma of_finished (hstage : call.stage = .finished) : s.Owes k call where
  number h _ := by cases hstage.symm.trans h
  receipt seq h _ := by
    rcases h with ⟨deadline, h⟩ | ⟨h, -⟩
    · cases hstage.symm.trans h
    · cases hstage.symm.trans h
  flight flight _ _ _ h _ := absurd hstage h

end Session.Owes

lemma Client.Moved.knows {c c' : Client} (h : c.Moved c') {i : Nat} {s' : Session}
    {holder' : Holder} (hphase' : c'.phase? i = some (.established s' holder')) {x : Int32 × Nat}
    (hx : x ∈ s'.tracker.entries) :
    ∃ s holder, c.phase? i = some (.established s holder) ∧ s.Knows x.2 := by
  have hsame (h : c'.phase? i = c.phase? i) :
      ∃ s holder, c.phase? i = some (.established s holder) ∧ s.Knows x.2 :=
    ⟨s', holder', h ▸ hphase', .inr ⟨x.1, hx⟩⟩
  have hset {d : Client} {i₀ : Nat} {old new : Phase}
      (hphases : ∀ i, c'.phase? i = (d.setPhase i₀ new).phase? i) (hold : c.phase? i₀ = some old)
      (hd : ∀ i, d.phase? i = c.phase? i)
      (hnew : new = .established s' holder' → ∃ s holder, old = .established s holder ∧
        s.Knows x.2) : ∃ s holder, c.phase? i = some (.established s holder) ∧ s.Knows x.2 := by
    rcases phase?_of_setPhase hphases hold hd i with ⟨-, hhere, hhere'⟩ | ⟨-, h⟩
    · obtain ⟨s, holder, rfl, hknows⟩ := hnew (Option.some.inj (hhere'.symm.trans hphase'))
      exact ⟨s, holder, hhere, hknows⟩
    · exact hsame h
  cases h with
  | still hc => exact hsame (phase?_congr hc i)
  | joined id phase hphase hc =>
    have hphases := phase?_congr hc i
    rw [phase?_append] at hphases
    split at hphases
    · cases hphase'.symm.trans hphases
      rcases hphase with h | ⟨token, h⟩ <;> cases h
    · exact hsame hphases
  | called new engine hnew hengine hc => exact hsame (phase?_congr hc i :)
  | greeted i₀ g g' link link' hphase hstep hc =>
    exact hset (phase?_congr hc) hphase (fun _ => rfl) nofun
  | befell i₀ g link e hphase hc => exact hset (phase?_congr hc) hphase (fun _ => rfl) nofun
  | rejected i₀ e link hphase hc => exact hset (phase?_congr hc) hphase (fun _ => rfl) nofun
  | began i₀ link hphase hc =>
    refine hset (phase?_congr hc) hphase (fun _ => rfl) fun h => ?_
    cases h
    cases hx
  | failed i₀ s holder hphase hstartup hc =>
    exact hset (phase?_congr hc) hphase (fun _ => rfl) nofun
  | session i₀ s s₁ holder holder₁ p' notes hphase hstep hc =>
    refine hset (fun i => (phase?_congr hc i).trans (phase?_applyNotes _ notes i)) hphase
      (fun _ => rfl) fun h => ?_
    cases h
    exact ⟨s, _, rfl, hstep.confides.entries x hx⟩
  | offered k call item s holder outbox hcall hstage hphase hoffer hc =>
    refine hset (phase?_congr hc :) hphase (fun _ => rfl) fun h => ?_
    cases h
    exact ⟨s, _, rfl, .inr ⟨x.1, hx⟩⟩
  | lined k call item s holder outbox hcall hstage hphase hoffer hc =>
    refine hset (phase?_congr hc) hphase (fun _ => rfl) fun h => ?_
    cases h
    exact ⟨s, _, rfl, .inr ⟨x.1, hx⟩⟩
  | settled k call stage hcall hstage hc => exact hsame (phase?_congr hc i)
  | expired k call s holder seq deadline hcall hstage hreceipt hdue hphase hc =>
    refine hset (phase?_congr hc :) hphase (fun _ => rfl) fun h => ?_
    cases h
    exact ⟨s, _, rfl, .inr ⟨x.1, Session.entries_forget _ seq hx⟩⟩

/-! ## Runs -/

namespace Journal
variable {j : Journal} {i k : Nat} {item : Outgoing} {s : Session} {holder : Holder}

lemma Sound.mem_queued_of_ahead (hsound : j.Sound)
    (hphase : j.client.phase? i = some (.established s holder)) (hitem : item ∈ s.sending.ahead) :
    item ∈ j.queued i := by
  have hcourse := onCourse_of_ahead (hphase ▸ hsound.lanes i) (List.ne_nil_of_mem hitem)
  rw [hcourse.queued]
  exact List.mem_append_right _ hitem

lemma Sound.owner_of_flight (hsound : j.Sound)
    (hphase : j.client.phase? i = some (.established s holder)) {flight : Flight}
    (hflight : s.flight = some flight) (hcaller : flight.item.caller = some k) :
    j.asked[k]? = some (some flight.item) ∧
      ∃ call : Call, j.client.calls[k]? = some call ∧ call.connection = i := by
  have hahead : flight.item ∈ s.sending.ahead := by simp [Sending.ahead, Session.sending, hflight]
  obtain ⟨hasked, call, hcall, hconnection, -⟩ :=
    hsound.owned i k _ (hsound.mem_queued_of_ahead hphase hahead) hcaller
  exact ⟨hasked, call, hcall, hconnection⟩

lemma Sound.number_of_offering (hsound : j.Sound) {call : Call}
    (hcall : j.client.calls[k]? = some call) (hstage : call.stage = .offering item) :
    call.number = .empty := by
  refine (hsound.numbered k call hcall).resolve_right fun ⟨item', hasked, hfate⟩ => ?_
  have hcaller := hsound.caller k item' hasked
  have hqueued := hsound.mem_queued_of_fate hfate
  obtain ⟨-, call', hcall', -, hoffering⟩ := hsound.owned _ k item' hqueued hcaller
  obtain rfl : call = call' := Option.some.inj (hcall.symm.trans hcall')
  exact hoffering item hstage

/-- No call waits for what its session does not have at hand. -/
structure Owing (j : Journal) : Prop where
  knows : ∀ i k s holder, j.client.phase? i = some (.established s holder) → s.Knows k →
    ∃ call : Call, j.client.calls[k]? = some call ∧ call.connection = i
  tracked : ∀ (k : Nat) (call : Call) item, j.client.calls[k]? = some call →
    j.asked[k]? = some (some item) → item.tracked = (call.wants = .receipt : Bool)
  owes : ∀ (k : Nat) (call : Call) s holder, j.client.calls[k]? = some call →
    j.client.phase? call.connection = some (.established s holder) → s.Owes k call

lemma Owing.tracked_play (h : j.Owing) (hsound : j.Sound) {t : Client.Turn} {call' : Call}
    (hcall' : (j.client.play t).calls[k]? = some call')
    (hasked : (j.play t).asked[k]? = some (some item)) :
    item.tracked = (call'.wants = .receipt : Bool) := by
  rcases hsound.callMoved_some hcall' with ⟨-, hstarts, hasked'⟩ | ⟨call, hcall, -⟩
  · have hitem : call'.item? = some item := Option.some.inj (hasked'.symm.trans hasked)
    rcases hstarts.stage with hstage | ⟨item', hstage, -, htracked⟩
    · rw [Call.item?, hstage] at hitem
      cases hitem
    · rw [Call.item?, hstage] at hitem
      cases hitem
      exact htracked
  · obtain ⟨call'', hcall'', -, hwants, -⟩ := call_kept (t := t) hcall
    obtain rfl : call' = call'' := Option.some.inj (hcall'.symm.trans hcall'')
    rw [hwants]
    refine h.tracked k call item hcall ?_
    have hlt : k < j.asked.length :=
      hsound.length_asked ▸ (List.getElem?_eq_some_iff.mp hcall).choose
    obtain ⟨x, hx⟩ : ∃ x, j.asked[k]? = some x := ⟨_, List.getElem?_eq_getElem hlt⟩
    rw [hx, ← asked_mono hx, hasked]

lemma Owing.tracked_of_flight (h : j.Owing) (hsound : j.Sound) {call : Call}
    (hcall : j.client.calls[k]? = some call)
    (hphase : j.client.phase? i = some (.established s holder)) (flight : Flight)
    (hflight : s.flight = some flight) (hcaller : flight.item.caller = some k)
    (hwants : call.wants = .receipt) : flight.item.tracked = true := by
  rw [h.tracked k call _ hcall (hsound.owner_of_flight hphase hflight hcaller).1, hwants]
  rfl

lemma Owing.serves (h : j.Owing) (hsound : j.Sound) {call call' : Call} {s' : Session}
    {notes : List Note} (hcall : j.client.calls[k]? = some call)
    (hphase : j.client.phase? call.connection = some (.established s holder))
    (hserves : s.Serves s' notes) (hhears : call.Hears k notes call') : s'.Owes k call' :=
  (h.owes k call s holder hcall hphase).serves hserves hhears
    (h.tracked_of_flight hsound hcall hphase)

lemma Owing.of_starts (hsound : j.Sound) {call : Call} (hk : k = j.client.calls.length)
    (hstarts : Client.Call.Starts call k)
    (hphase : j.client.phase? i = some (.established s holder)) : s.Owes k call := by
  have hstage : call.stage ≠ .queued ∧ ∀ seq deadline, call.stage ≠ .awaiting seq deadline := by
    rcases hstarts.stage with h | ⟨item, h, -⟩ <;> simp [h]
  refine ⟨fun h => absurd h hstage.1, fun seq h => ?_, fun flight hflight hcaller => ?_⟩
  · rcases h with ⟨deadline, h⟩ | ⟨h, -⟩
    · exact absurd h (hstage.2 seq deadline)
    · exact absurd h hstage.1
  · obtain ⟨-, call', hcall', -⟩ := hsound.owner_of_flight hphase hflight hcaller
    exact absurd (List.getElem?_eq_some_iff.mp hcall').choose (by omega)

section Moves
variable {c' d : Client} {call call' : Call} {s' : Session} {holder' : Holder}

lemma Owing.still (h : j.Owing) (hcalls : c'.calls[k]? = j.client.calls[k]?)
    (hcall' : c'.calls[k]? = some call')
    (hphases : c'.phase? call'.connection = j.client.phase? call'.connection)
    (hphase' : c'.phase? call'.connection = some (.established s' holder')) : s'.Owes k call' :=
  h.owes k call' s' holder' (hcalls ▸ hcall') (hphases ▸ hphase')

lemma Owing.of_phase (h : j.Owing) {i₀ : Nat} {old new : Phase}
    (hphases : ∀ i, c'.phase? i = (d.setPhase i₀ new).phase? i)
    (hold : j.client.phase? i₀ = some old) (hd : ∀ i, d.phase? i = j.client.phase? i)
    (hcalls : c'.calls = j.client.calls) (hnew : ∀ s holder, new ≠ .established s holder)
    (hcall' : c'.calls[k]? = some call')
    (hphase' : c'.phase? call'.connection = some (.established s' holder')) :
    s'.Owes k call' := by
  rcases Client.phase?_of_setPhase hphases hold hd call'.connection with
    ⟨-, -, hhere⟩ | ⟨-, hsame⟩
  · exact absurd (Option.some.inj (hhere.symm.trans hphase')) (hnew s' holder')
  · exact h.still (by rw [hcalls]) hcall' hsame hphase'

lemma Owing.offered (h : j.Owing) (hsound : j.Sound) {k₀ : Nat} {call₀ : Call} {outbox : Outbox}
    (hcall₀ : j.client.calls[k₀]? = some call₀) (hstage : call₀.stage = .offering item)
    (hphase : j.client.phase? call₀.connection = some (.established s holder))
    (hoffer : s.outbox.offer (.call k₀) item = .taken outbox)
    (hcalls : c'.calls = (j.client.setStage k₀ .queued).calls)
    (hphases : ∀ i, c'.phase? i =
      (j.client.setPhase call₀.connection (.established { s with outbox } holder)).phase? i)
    (hcall' : c'.calls[k]? = some call')
    (hphase' : c'.phase? call'.connection = some (.established s' holder')) :
    s'.Owes k call' := by
  have hserves : s.Serves { s with outbox } [] := Session.serves_of_offer (.inl hoffer) rfl rfl rfl
  rw [hcalls] at hcall'
  by_cases hk : k₀ = k
  · subst hk
    obtain rfl : { call₀ with stage := .queued } = call' := by
      simpa [Client.setStage, hcall₀] using hcall'
    have hhere := (hphases _).trans (Client.phase?_setPhase_self _ hphase _)
    obtain ⟨rfl, rfl⟩ : { s with outbox } = s' ∧ holder = holder' := by
      simpa using hhere.symm.trans hphase'
    have howes := h.serves hsound hcall₀ hphase hserves (.refl k₀ call₀)
    obtain ⟨-, hcaller⟩ := hsound.offering k₀ call₀ item hcall₀ hstage
    have hnumber := hsound.number_of_offering hcall₀ hstage
    refine ⟨fun _ _ => ⟨item, ?_, hcaller⟩, fun seq hawaits => ?_,
      fun flight hflight hitem htracked _ => ?_⟩
    · obtain ⟨-, rfl⟩ := Outbox.offer_taken hoffer
      exact List.mem_append_right _ (List.mem_append_right _ (List.mem_singleton_self item))
    · rcases hawaits with ⟨deadline, h⟩ | ⟨-, h, -⟩
      · cases h
      · cases hnumber.symm.trans h
    · exact howes.flight flight hflight hitem htracked (by simp [hstage])
  · have hcall : j.client.calls[k]? = some call' := by
      simpa [Client.setStage, List.getElem?_modify_ne _ _ hk] using hcall'
    rcases Client.phase?_of_setPhase hphases hphase (fun _ => rfl) call'.connection with
      ⟨hconnection, hold, hnew⟩ | ⟨-, hsame⟩
    · obtain ⟨rfl, rfl⟩ : { s with outbox } = s' ∧ holder = holder' := by
        simpa using hnew.symm.trans hphase'
      exact h.serves hsound hcall hold hserves (.refl k call')
    · exact h.owes k call' s' holder' hcall (hsame ▸ hphase')

lemma Owing.expired (h : j.Owing) {k₀ : Nat} {call₀ : Call} {seq : Int32} {deadline : Nat}
    (hcall₀ : j.client.calls[k₀]? = some call₀) (hstage : call₀.stage = .awaiting seq deadline)
    (hreceipt : call₀.receipt = .empty)
    (hphase : j.client.phase? call₀.connection = some (.established s holder))
    (hcalls : c'.calls = (j.client.setStage k₀ .finished).calls)
    (hphases : ∀ i, c'.phase? i =
      (j.client.setPhase call₀.connection (.established (s.forget seq).1 holder)).phase? i)
    (hcall' : c'.calls[k]? = some call')
    (hphase' : c'.phase? call'.connection = some (.established s' holder')) :
    s'.Owes k call' := by
  rw [hcalls] at hcall'
  by_cases hk : k₀ = k
  · subst hk
    obtain rfl : { call₀ with stage := .finished } = call' := by
      simpa [Client.setStage, hcall₀] using hcall'
    exact .of_finished rfl
  · have hcall : j.client.calls[k]? = some call' := by
      simpa [Client.setStage, List.getElem?_modify_ne _ _ hk] using hcall'
    rcases Client.phase?_of_setPhase hphases hphase (fun _ => rfl) call'.connection with
      ⟨hconnection, hold, hnew⟩ | ⟨-, hsame⟩
    · obtain ⟨rfl, rfl⟩ : (s.forget seq).1 = s' ∧ holder = holder' := by
        simpa using hnew.symm.trans hphase'
      have howes := h.owes k call' s holder hcall hold
      have hown := (h.owes k₀ call₀ s holder hcall₀ hphase).receipt seq (.inl ⟨_, hstage⟩) hreceipt
      have hforget {seq' : Int32} (hk' : s.tracker.waiter? seq' = some k) :
          (s.forget seq).1.tracker.waiter? seq' = some k := by
        refine Session.waiter?_forget_of_ne ?_ hk'
        rintro rfl
        exact hk (Option.some.inj (hown.symm.trans hk'))
      exact ⟨howes.number, fun seq' hawaits hempty => hforget (howes.receipt seq' hawaits hempty),
        fun flight hflight hcaller htracked hstage hempty =>
          hforget (howes.flight flight hflight hcaller htracked hstage hempty)⟩
    · exact h.owes k call' s' holder' hcall (hsame ▸ hphase')

lemma Owing.settled (h : j.Owing) {k₀ : Nat} {call₀ : Call} {stage : CallStage}
    (hcall₀ : j.client.calls[k₀]? = some call₀)
    (hstage : stage = .finished ∨ ∃ seq deadline, stage = .awaiting seq deadline ∧
      call₀.wants = .receipt ∧ call₀.stage = .queued ∧ call₀.number = .full (.ok seq))
    (hcalls : c'.calls = (j.client.setStage k₀ stage).calls)
    (hphases : c'.phase? call'.connection = j.client.phase? call'.connection)
    (hcall' : c'.calls[k]? = some call')
    (hphase' : c'.phase? call'.connection = some (.established s' holder')) :
    s'.Owes k call' := by
  rw [hcalls] at hcall'
  by_cases hk : k₀ = k
  · subst hk
    obtain rfl : { call₀ with stage } = call' := by simpa [Client.setStage, hcall₀] using hcall'
    have howes := h.owes k₀ call₀ s' holder' hcall₀ (hphases ▸ hphase')
    rcases hstage with rfl | ⟨seq, deadline, rfl, hwants, hqueued, hfull⟩
    · exact .of_finished rfl
    · refine ⟨fun h => (by cases h), fun seq' hawaits => ?_,
        fun flight hflight hcaller htracked _ =>
          howes.flight flight hflight hcaller htracked (by simp [hqueued])⟩
      rcases hawaits with ⟨deadline', h⟩ | ⟨h, -⟩
      · cases h
        exact howes.receipt seq (.inr ⟨hqueued, hfull, hwants⟩)
      · cases h
  · have hcall : j.client.calls[k]? = some call' := by
      simpa [Client.setStage, List.getElem?_modify_ne _ _ hk] using hcall'
    exact h.owes k call' s' holder' hcall (hphases ▸ hphase')

theorem Owing.moved (h : j.Owing) (hsound : j.Sound) (hready : j.client.CallsReady)
    (hmoved : j.client.Moved c') (hcall' : c'.calls[k]? = some call')
    (hphase' : c'.phase? call'.connection = some (.established s' holder')) :
    s'.Owes k call' := by
  cases hmoved with
  | still hc =>
    exact h.still (by rw [Client.calls_congr hc]) hcall' (Client.phase?_congr hc _) hphase'
  | joined id phase hphase hc =>
    have hcalls : c'.calls = j.client.calls := (Client.calls_congr hc :)
    have hphases := Client.phase?_congr hc call'.connection
    rw [Client.phase?_append] at hphases
    split at hphases
    · rw [hphase'] at hphases
      cases hphases
      rcases hphase with h | ⟨token, h⟩ <;> cases h
    · exact h.still (by rw [hcalls]) hcall' hphases hphase'
  | called new engine hnew hengine hc =>
    have hcalls : c'.calls = j.client.calls ++ new := Client.calls_congr hc
    have hphases : c'.phase? call'.connection = j.client.phase? call'.connection :=
      Client.phase?_congr hc _
    by_cases hk : k < j.client.calls.length
    · exact h.still (by rw [hcalls, List.getElem?_append_left hk]) hcall' hphases hphase'
    · rw [hcalls, List.getElem?_append_right (Nat.le_of_not_lt hk)] at hcall'
      rcases hnew with rfl | ⟨call, rfl, hstarts⟩
      · cases hcall'
      · obtain ⟨hk', rfl⟩ : k - j.client.calls.length = 0 ∧ call = call' := by
          simpa [List.getElem?_singleton] using hcall'
        obtain rfl : k = j.client.calls.length := by omega
        exact Owing.of_starts hsound rfl hstarts (hphases ▸ hphase')
  | greeted i g g' link link' hphase hstep hc =>
    exact h.of_phase (Client.phase?_congr hc) hphase (fun _ => rfl) (Client.calls_congr hc :)
      (by simp) hcall' hphase'
  | befell i g link e hphase hc =>
    exact h.of_phase (Client.phase?_congr hc) hphase (fun _ => rfl) (Client.calls_congr hc :)
      (by simp) hcall' hphase'
  | rejected i e link hphase hc =>
    exact h.of_phase (Client.phase?_congr hc) hphase (fun _ => rfl) (Client.calls_congr hc :)
      (by simp) hcall' hphase'
  | failed i s holder hphase hstartup hc =>
    exact h.of_phase (Client.phase?_congr hc) hphase (fun _ => rfl) (Client.calls_congr hc :)
      (by simp) hcall' hphase'
  | began i link hphase hc =>
    have hcalls : c'.calls = j.client.calls := (Client.calls_congr hc :)
    rcases Client.phase?_of_setPhase (Client.phase?_congr hc) hphase (fun _ => rfl)
      call'.connection with ⟨hi, hold, -⟩ | ⟨-, hsame⟩
    · -- there are no calls on a connection that is still introducing itself
      obtain ⟨standing, hstanding, hrank⟩ := hready call'.connection
        (List.mem_map_of_mem (List.mem_of_getElem? (hcalls ▸ hcall')))
      rw [Client.standing?, hold] at hstanding
      obtain rfl : Standing.attempting = standing := Option.some.inj hstanding
      exact absurd hrank (by decide)
    · exact h.still (by rw [hcalls]) hcall' hsame hphase'
  | session i s s₁ holder holder₁ p' notes hphase hstep hc =>
    have hphases (i' : Nat) :=
      (Client.phase?_congr hc i').trans (Client.phase?_applyNotes _ notes i')
    rw [Client.calls_congr hc] at hcall'
    obtain ⟨call, hcall, hhears⟩ := Client.hears_applyNotes hcall'
    rw [hhears.connection] at hphase'
    rcases Client.phase?_of_setPhase hphases hphase (fun _ => rfl) call.connection with
      ⟨rfl, -, hnew⟩ | ⟨hne, hsame⟩
    · obtain ⟨rfl, rfl⟩ : s₁ = s' ∧ holder₁ = holder' := by simpa using hnew.symm.trans hphase'
      exact h.serves hsound hcall hphase hstep.serves hhears
    · -- what the session of another connection reports is not about the call
      have hstrange (n) (hn : n ∈ notes) : n.call ≠ k := by
        rintro rfl
        obtain ⟨call₁, hcall₁, hconnection⟩ :=
          h.knows i _ s holder hphase (hstep.confides.told n hn)
        obtain rfl : call = call₁ := Option.some.inj (hcall.symm.trans hcall₁)
        exact hne hconnection.symm
      rw [hhears.eq_of_forall_ne hstrange]
      exact h.owes k call s' holder' hcall (hsame ▸ hphase')
  | offered k₀ call₀ item s holder outbox hcall₀ hstage hphase hoffer hc =>
    exact h.offered hsound hcall₀ hstage hphase hoffer (Client.calls_congr hc :)
      (Client.phase?_congr hc :) hcall' hphase'
  | lined k₀ call₀ item s holder outbox hcall₀ hstage hphase hoffer hc =>
    have hcalls : c'.calls = j.client.calls := (Client.calls_congr hc :)
    have hcall : j.client.calls[k]? = some call' := hcalls ▸ hcall'
    rcases Client.phase?_of_setPhase (Client.phase?_congr hc) hphase (fun _ => rfl)
      call'.connection with ⟨-, hold, hnew⟩ | ⟨-, hsame⟩
    · obtain ⟨rfl, rfl⟩ : { s with outbox } = s' ∧ holder = holder' := by
        simpa using hnew.symm.trans hphase'
      exact h.serves hsound hcall hold (Session.serves_of_offer (.inr hoffer) rfl rfl rfl)
        (.refl k call')
    · exact h.still (by rw [hcalls]) hcall' hsame hphase'
  | settled k₀ call₀ stage hcall₀ hstage hc =>
    exact h.settled hcall₀ hstage (Client.calls_congr hc) (Client.phase?_congr hc _) hcall' hphase'
  | expired k₀ call₀ s holder seq deadline hcall₀ hstage hreceipt hdue hphase hc =>
    exact h.expired hcall₀ hstage hreceipt hphase (Client.calls_congr hc :)
      (Client.phase?_congr hc :)
      hcall' hphase'

end Moves

lemma Owing.knows_play (h : j.Owing) (hsound : j.Sound) {t : Client.Turn}
    (hphase' : (j.client.play t).phase? i = some (.established s holder)) (hknows : s.Knows k) :
    ∃ call : Call, (j.client.play t).calls[k]? = some call ∧ call.connection = i := by
  rcases hknows with ⟨item, hitem, hcaller⟩ | ⟨seq, hentry⟩
  · have hqueued := (hsound.play t).mem_queued_of_ahead hphase' hitem
    obtain ⟨-, call, hcall, hconnection, -⟩ := (hsound.play t).owned i k item hqueued hcaller
    exact ⟨call, hcall, hconnection⟩
  · obtain ⟨s₀, holder₀, hphase, hknows⟩ := (j.client.moved_play t).knows hphase' hentry
    obtain ⟨call, hcall, hconnection⟩ := h.knows i k s₀ holder₀ hphase hknows
    obtain ⟨call', hcall', hconnection', -⟩ := call_kept (t := t) hcall
    exact ⟨call', hcall', hconnection'.trans hconnection⟩

lemma Owing.play (h : j.Owing) (hsound : j.Sound) (hready : j.client.CallsReady)
    (t : Client.Turn) : (j.play t).Owing where
  knows _ _ _ _ hphase' hknows := h.knows_play hsound hphase' hknows
  tracked _ _ _ hcall' hasked := h.tracked_play hsound hcall' hasked
  owes _ _ _ _ hcall' hphase' := h.moved hsound hready (j.client.moved_play t) hcall' hphase'

/-- In every run, what a call waits for is at hand in its session. -/
theorem Owing.ofTurns {config : Config} {store : CursorStore}
    {tokens : List (Except Error String)} {c : Client}
    (hnew : Client.new config store tokens = .ok c) (ts : List Client.Turn) :
    (ofTurns c ts).Owing := by
  induction ts using List.reverseRecOn with
  | nil =>
    obtain ⟨progress, rfl⟩ := Client.eq_of_new hnew
    exact ⟨fun i k s holder hphase => (by cases hphase), fun k call item hcall => (by cases hcall),
      fun k call s holder hcall => (by cases hcall)⟩
  | append_singleton ts t ih =>
    rw [ofTurns_concat]
    refine ih.play ((sound_start hnew).ofTurns ts) ?_ t
    rw [client_ofTurns]
    exact Client.callsReady_run hnew ts

end Journal

end Parley
