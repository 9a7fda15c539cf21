import Parley.Proofs.Delivery.Tracker
import Parley.Proofs.Session.Choices

/-!
# Who waits on a session

The tracker of a session is used by its writing side, which registers the waiter of an item before
its frame goes out, by its reading side, which takes in receipts, and by calls that give up.
`Session.Tracks` says what a step does to the tracker together with what it takes out of the outbox.
-/

namespace Parley

/-! ## Receipts -/

def RawFrame.receipt? (raw : RawFrame) : Option Ack :=
  match raw.decode with
  | .ok f =>
    match f.message with
    | .ack a => some a
    | _ => none
  | .error _ => none

section Dispatch
variable {ι : Type} (p : Progress) (t : Tracker ι) (raw : RawFrame)

lemma dispatch_of_receipt? {a : Ack} (h : raw.receipt? = some a) :
    dispatch p t raw = {
      progress := p
      tracker := t.erase a.seq
      receipt := (t.waiter? a.seq).map (·, a) } := by
  unfold RawFrame.receipt? at h
  unfold dispatch
  cases hdecode : raw.decode with
  | ok f =>
    simp only [hdecode] at h ⊢
    split at h
    · rename_i a' hmessage
      cases h
      simp only [dispatchFrame, hmessage]
      rfl
    · cases h
  | error e =>
    rw [hdecode] at h
    cases h

lemma dispatch_of_receipt?_none (h : raw.receipt? = none) :
    (dispatch p t raw).tracker = t ∧ (dispatch p t raw).receipt = none := by
  unfold RawFrame.receipt? at h
  unfold dispatch
  cases hdecode : raw.decode with
  | ok f =>
    simp only [hdecode] at h ⊢
    split at h
    · cases h
    · rename_i hne
      simp only [dispatchFrame]
      split
      · rename_i a hmessage
        exact absurd hmessage (hne a)
      · exact ⟨rfl, rfl⟩
      · exact ⟨rfl, rfl⟩
      · exact ⟨rfl, rfl⟩
      · split <;> exact ⟨rfl, rfl⟩
      · exact ⟨rfl, rfl⟩
  | error e => exact ⟨rfl, rfl⟩

end Dispatch

namespace Session
variable {s s' : Session} {p p' : Progress} {now : Nat} {notes : List Note}

lemma waiter?_of_register {item : Outgoing} {seq : Int32} {tracker : Tracker Nat}
    (h : s.registerWaiter item seq = ({ s with tracker }, notes)) (seq' : Int32) :
    tracker.waiter? seq' = s.tracker.waiter? seq' ∨
      seq' = seq ∧ tracker.waiter? seq' = item.caller := by
  unfold registerWaiter at h
  split at h
  · rename_i k hcaller htracked
    have htracker : (s.tracker.register seq k).1 = tracker :=
      congrArg (fun x => x.1.tracker) h
    rw [← htracker, Tracker.waiter?_register, hcaller]
    by_cases hseq : seq' = seq
    · exact .inr ⟨hseq, if_pos hseq⟩
    · exact .inl (if_neg hseq)
  · have htracker : s.tracker = tracker := congrArg (fun x => x.1.tracker) h
    exact .inl (by rw [htracker])

lemma waiter?_of_register_ne {item : Outgoing} {seq seq' : Int32} {tracker : Tracker Nat}
    (h : s.registerWaiter item seq = ({ s with tracker }, notes)) (hne : seq' ≠ seq) :
    tracker.waiter? seq' = s.tracker.waiter? seq' :=
  (waiter?_of_register h seq').resolve_right fun hseq => hne hseq.1

lemma waiter?_forget (t : Tracker Nat) (seq seq' : Int32) :
    (t.forget seq).1.waiter? seq' = if seq' = seq then none else t.waiter? seq' :=
  t.waiter?_erase seq seq'

lemma within_of_forget {item : Outgoing} {seq : Int32} {tracker : Tracker Nat}
    (h : s.registerWaiter item seq = ({ s with tracker }, notes)) :
    (tracker.forget seq).1.Within s.tracker := by
  intro seq' k hk
  rw [waiter?_forget] at hk
  split at hk
  · cases hk
  · rename_i hne
    rwa [waiter?_of_register_ne h hne] at hk

/-- What a step does to the tracker and to the items on their way to the wire. -/
inductive Tracks (s s' : Session) : Prop
  | kept (more : List Outgoing) (hflight : s'.flight.map (·.item) = s.flight.map (·.item))
    (hitems : s'.outbox.items = s.outbox.items ++ more)
    (hopen : s'.outbox.isOpen = s.outbox.isOpen) (htracker : s'.tracker.Within s.tracker)
  | numbered (item : Outgoing) (items : List Outgoing) (octets : Bytes) (hflight : s.flight = none)
    (hitems : s.outbox.items = item :: items)
    (hencode : (s.frameOf item s.nextSeq).encode = .ok octets)
    (hflight' : s'.flight = some ⟨item, s.nextSeq, octets⟩) (hitems' : s'.outbox.items = items)
    (hopen : s'.outbox.isOpen = s.outbox.isOpen)
    (htracker : ∀ seq, s'.tracker.waiter? seq = s.tracker.waiter? seq ∨
      seq = s.nextSeq ∧ s'.tracker.waiter? seq = item.caller)
  | skipped (item : Outgoing) (items : List Outgoing) (hflight : s.flight = none)
    (hitems : s.outbox.items = item :: items) (hflight' : s'.flight = none)
    (hitems' : s'.outbox.items = items) (hopen : s'.outbox.isOpen = s.outbox.isOpen)
    (htracker : s'.tracker.Within s.tracker)
  | completed (flight : Flight) (hflight : s.flight = some flight) (hflight' : s'.flight = none)
    (hitems' : s'.outbox.items = s.outbox.items) (hopen : s'.outbox.isOpen = s.outbox.isOpen)
    (htracker : s'.tracker = s.tracker)
  | stopped (hflight' : s'.flight = none) (hitems' : s'.outbox.items = [])
    (hclosed : s'.outbox.isOpen = false) (htracker : s'.tracker.Within s.tracker)
    (hforgotten : ∀ flight, s.flight = some flight → s'.tracker.waiter? flight.seq = none)

lemma tracks_of_tracker (hflight : s'.flight = s.flight) (houtbox : s'.outbox = s.outbox)
    (htracker : s'.tracker.Within s.tracker) : s.Tracks s' :=
  .kept [] (by rw [hflight]) (by rw [houtbox, List.append_nil]) (by rw [houtbox]) htracker

lemma tracks_of_offer {who : Sender} {item : Outgoing} {outbox : Outbox}
    (hoffer : s.outbox.offer who item = .taken outbox ∨ s.outbox.offer who item = .lined outbox)
    (houtbox : s'.outbox = outbox) (hflight : s'.flight = s.flight)
    (htracker : s'.tracker = s.tracker) : s.Tracks s' := by
  have hwithin : s'.tracker.Within s.tracker := htracker ▸ .refl _
  subst houtbox
  rcases hoffer with hoffer | hoffer
  · obtain ⟨hopen, hbox⟩ := Outbox.offer_taken hoffer
    exact .kept [item] (by rw [hflight]) (by rw [hbox]) (by rw [hbox]) hwithin
  · obtain ⟨hopen, hbox⟩ := Outbox.offer_lined hoffer
    exact .kept [] (by rw [hflight]) (by rw [hbox, List.append_nil]) (by rw [hbox]) hwithin

theorem Written.tracks (h : s.Written s' notes) : s.Tracks s' := by
  cases h with
  | numbered item items tracker replaced octets hflight hitems hregister hencode =>
    exact .numbered item items octets hflight hitems hencode rfl rfl rfl
      (waiter?_of_register hregister)
  | skipped item items tracker replaced e hflight hitems hregister hencode htransport =>
    exact .skipped item items hflight hitems hflight rfl rfl (within_of_forget hregister)
  | refused item items tracker replaced e hflight hitems hregister hencode htransport =>
    refine .stopped rfl rfl rfl (within_of_forget hregister) ?_
    intro flight hflight'
    rw [hflight] at hflight'
    cases hflight'
  | advanced flight octets link hflight hwrite =>
    exact .kept [] (by rw [hflight]; rfl) (List.append_nil _).symm rfl (.refl _)
  | completed flight link hflight hwrite => exact .completed flight hflight rfl rfl rfl rfl
  | broken flight left link e hflight hwrite =>
    refine .stopped rfl rfl rfl (s.tracker.within_erase flight.seq) ?_
    intro flight' hflight'
    obtain rfl := Option.some.inj (hflight.symm.trans hflight')
    exact (s.tracker.waiter?_erase flight.seq flight.seq).trans (if_pos rfl)

def nextReceipt? (s : Session) : Option Ack :=
  match s.stage, s.link.nextRaw with
  | .live [], (some (.ok raw), _) => raw.receipt?
  | _, _ => none

lemma nextReceipt?_of_nextRaw {raw : RawFrame} {link : Link} (hstage : s.stage = .live [])
    (hnext : s.link.nextRaw = (some (.ok raw), link)) : s.nextReceipt? = raw.receipt? := by
  unfold nextReceipt?
  rw [hstage, hnext]

lemma not_receipted_of_finish {k : Nat} {a : Ack} {reason : EndReason} :
    .receipted k a ∉ (s.finish p reason).notes := by
  intro hn
  rcases List.mem_append.mp hn with hn | hn
  · obtain ⟨item, -, hlost⟩ := List.mem_filterMap.mp hn
    obtain ⟨k', -, heq⟩ := Option.map_eq_some_iff.mp hlost
    cases heq
  · obtain ⟨k', -, heq⟩ := List.mem_map.mp hn
    cases heq

lemma Heard.receipted {step : Step} {k : Nat} {a : Ack} (h : s.Heard p now step)
    (hn : .receipted k a ∈ step.notes) :
    s.nextReceipt? = some a ∧ s.tracker.waiter? a.seq = some k := by
  cases h with
  | dispatched raw link hstage hnext =>
    obtain ⟨⟨k', a'⟩, hreceipt, heq⟩ := List.mem_map.mp hn
    cases heq
    rw [nextReceipt?_of_nextRaw hstage hnext]
    cases hraw : raw.receipt? with
    | none =>
      rw [(dispatch_of_receipt?_none p s.tracker raw hraw).2] at hreceipt
      cases hreceipt
    | some b =>
      rw [dispatch_of_receipt? p s.tracker raw hraw, Option.mem_toList] at hreceipt
      obtain ⟨w, hw, heq⟩ := Option.map_eq_some_iff.mp hreceipt
      cases heq
      exact ⟨rfl, hw⟩
  | finished duties link reason hstage hduty hends => exact absurd hn not_receipted_of_finish
  | _ => cases hn

lemma within_dispatch (p : Progress) (t : Tracker Nat) (raw : RawFrame) :
    (dispatch p t raw).tracker.Within t := by
  cases hraw : raw.receipt? with
  | none =>
    rw [(dispatch_of_receipt?_none p t raw hraw).1]
    exact .refl _
  | some a =>
    rw [dispatch_of_receipt? p t raw hraw]
    exact t.within_erase a.seq

theorem Heard.tracks {step : Step} (h : s.Heard p now step) : s.Tracks step.session := by
  cases h with
  | sent m rest outbox hstage hoffer => exact tracks_of_offer (.inl hoffer) rfl rfl rfl
  | lined m rest outbox hstage hoffer => exact tracks_of_offer (.inr hoffer) rfl rfl rfl
  | dispatched raw link hstage hnext =>
    exact tracks_of_tracker rfl rfl (within_dispatch p s.tracker raw)
  | finished duties link reason hstage hduty hends =>
    exact .stopped rfl rfl rfl s.tracker.empty_within fun _ _ => rfl
  | _ => exact tracks_of_tracker rfl rfl (.refl _)

theorem Moved.tracks (h : s.Moved now p s' p' notes) : s.Tracks s' := by
  cases h with
  | ready h =>
    obtain ⟨-, rfl⟩ := startup_ready h
    exact tracks_of_tracker rfl rfl (.refl _)
  | going h =>
    obtain ⟨m, requests, outbox, hstage, ⟨hoffer, rfl⟩ | ⟨hoffer, rfl⟩⟩ := startup_going h
    · exact tracks_of_offer (.inl hoffer) rfl rfl rfl
    · exact tracks_of_offer (.inr hoffer) rfl rfl rfl
  | wrote h => exact (written_of_write? h).tracks
  | read h => exact h.tracks
  | took h =>
    obtain ⟨items, -, rfl⟩ := takeEvent?_cases h
    exact tracks_of_tracker rfl rfl (.refl _)
  | _ => exact tracks_of_tracker rfl rfl (.refl _)

/-! ## What takes a waiter away -/

section Keeping
variable {seq : Int32} {k : Nat}

lemma waiter?_forget_of_ne {t : Tracker Nat} {seq' : Int32} (hne : seq ≠ seq')
    (hk : t.waiter? seq = some k) : (t.forget seq').1.waiter? seq = some k := by
  rw [waiter?_forget, if_neg hne]
  exact hk

/-- The writing side takes no waiter away, but one under the number that it is about to give away,
or that of a frame which it cannot write. -/
lemma Written.keeps_waiter (h : s.Written s' notes) (hk : s.tracker.waiter? seq = some k) :
    s'.tracker.waiter? seq = some k ∨ (s.flight = none ∧ s.outbox.items ≠ [] ∧ seq = s.nextSeq) ∨
      ∃ flight, s.flight = some flight ∧ flight.seq = seq ∧ s'.outbox.isOpen = false := by
  cases h with
  | numbered item items tracker replaced octets hflight hitems hregister hencode =>
    by_cases hseq : seq = s.nextSeq
    · exact .inr (.inl ⟨hflight, by simp [hitems], hseq⟩)
    · exact .inl ((waiter?_of_register_ne hregister hseq).trans hk)
  | skipped item items tracker replaced e hflight hitems hregister hencode htransport =>
    by_cases hseq : seq = s.nextSeq
    · exact .inr (.inl ⟨hflight, by simp [hitems], hseq⟩)
    · exact .inl (waiter?_forget_of_ne hseq ((waiter?_of_register_ne hregister hseq).trans hk))
  | refused item items tracker replaced e hflight hitems hregister hencode htransport =>
    by_cases hseq : seq = s.nextSeq
    · exact .inr (.inl ⟨hflight, by simp [hitems], hseq⟩)
    · exact .inl (waiter?_forget_of_ne hseq ((waiter?_of_register_ne hregister hseq).trans hk))
  | advanced flight octets link hflight hwrite => exact .inl hk
  | completed flight link hflight hwrite => exact .inl hk
  | broken flight left link e hflight hwrite =>
    by_cases hseq : seq = flight.seq
    · exact .inr (.inr ⟨flight, hflight, hseq.symm, rfl⟩)
    · exact .inl (waiter?_forget_of_ne hseq hk)

lemma Heard.keeps_waiter {step : Step} (h : s.Heard p now step)
    (hk : s.tracker.waiter? seq = some k) :
    step.session.tracker.waiter? seq = some k ∨ (∃ a, s.nextReceipt? = some a ∧ a.seq = seq) ∨
      step.session.outbox.isOpen = false := by
  cases h with
  | dispatched raw link hstage hnext =>
    rw [nextReceipt?_of_nextRaw hstage hnext]
    change (dispatch p s.tracker raw).tracker.waiter? seq = some k ∨ _
    cases hraw : raw.receipt? with
    | none =>
      rw [(dispatch_of_receipt?_none p s.tracker raw hraw).1]
      exact .inl hk
    | some a =>
      rw [dispatch_of_receipt? p s.tracker raw hraw]
      by_cases hseq : seq = a.seq
      · exact .inr (.inl ⟨a, rfl, hseq.symm⟩)
      · exact .inl (waiter?_forget_of_ne hseq hk)
  | finished duties link reason hstage hduty hends => exact .inr (.inr rfl)
  | _ => exact .inl hk

/-- With a receipt at hand, the first choice of the reading side is to take it in. No other one has
to do with calls, unless the session ends. -/
lemma choice_of_nextReceipt? {step : Step} {a : Ack} {n : Nat} (hnext : s.nextReceipt? = some a)
    (h : (s.choices p now)[n + 1]? = some step) :
    (step.session.tracker = s.tracker ∧ step.notes = []) ∨ ∃ reason, step = s.finish p reason := by
  unfold nextReceipt? at hnext
  split at hnext
  · rename_i raw link hstage hraw
    obtain ⟨first, hfirst⟩ : ∃ first, s.readFrame p now = some first := by
      unfold readFrame
      rw [hraw]
      exact ⟨_, rfl⟩
    unfold choices at h
    simp only [hstage, hfirst, Option.toList_some, List.cons_append, List.nil_append,
      List.getElem?_cons_succ] at h
    have hmem := List.mem_of_getElem? h
    simp only [List.mem_append, Option.mem_toList] at hmem
    rcases hmem with ((h | h) | h) | h
    · unfold keepAlive at h
      split at h
      cases heq : s.keepalive.onIdle now
      split at h
      · cases h
        exact .inl ⟨rfl, rfl⟩
      · cases h
    · obtain ⟨e, -, rfl⟩ := Option.map_eq_some_iff.mp h
      exact .inr ⟨_, rfl⟩
    · unfold refill at h
      split at h
      · cases h
      · split at h
        · cases h
          exact .inr ⟨_, rfl⟩
        · split at h
          · cases h
            exact .inl ⟨rfl, rfl⟩
          · cases h
    · split at h
      · exact .inr ⟨_, List.mem_singleton.mp h⟩
      · cases h
  · cases hnext

lemma receipted_of_choice {step : Step} {a : Ack} {n : Nat}
    (h : (s.choices p now)[n]? = some step) (hn : .receipted k a ∈ step.notes) :
    n = 0 ∧ s.nextReceipt? = some a ∧ s.tracker.waiter? a.seq = some k := by
  obtain ⟨hnext, hwaiter⟩ := (heard_of_mem_choices (List.mem_of_getElem? h)).receipted hn
  cases n with
  | zero => exact ⟨rfl, hnext, hwaiter⟩
  | succ n =>
    rcases choice_of_nextReceipt? hnext h with ⟨-, hnotes⟩ | ⟨reason, rfl⟩
    · rw [hnotes] at hn
      cases hn
    · exact absurd hn not_receipted_of_finish

/-- Whatever the reading side chooses, a waiter stays, unless the receipt of its number is taken in
or the session ends. -/
theorem choice_keeps_waiter {step : Step} {n : Nat} (h : (s.choices p now)[n]? = some step)
    (hk : s.tracker.waiter? seq = some k) : step.session.tracker.waiter? seq = some k ∨
      n = 0 ∧ (∃ a, s.nextReceipt? = some a ∧ a.seq = seq) ∨
      step.session.outbox.isOpen = false := by
  rcases (heard_of_mem_choices (List.mem_of_getElem? h)).keeps_waiter hk with
    hkept | ⟨a, hnext, hseq⟩ | hclosed
  · exact .inl hkept
  · cases n with
    | zero => exact .inr (.inl ⟨rfl, a, hnext, hseq⟩)
    | succ n =>
      rcases choice_of_nextReceipt? hnext h with ⟨htracker, -⟩ | ⟨reason, rfl⟩
      · exact .inl (htracker ▸ hk)
      · exact .inr (.inr rfl)
  · exact .inr (.inr hclosed)

end Keeping

end Session

end Parley
