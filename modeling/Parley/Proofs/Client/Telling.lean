import Parley.Proofs.Client.Calls
import Parley.Proofs.Session.Waiters

/-!
# What sessions tell calls

A session has two things at hand for a call: its item on the way to the wire, and its waiter in the
tracker. A step takes such a thing away only when it tells the call so (`Session.Serves`), and it
tells nothing to others (`Session.Confides`).
-/

namespace Parley

namespace Session
variable {s s' : Session} {p p' : Progress} {now : Nat} {notes : List Note}

lemma mem_entries {t : Tracker Nat} {seq : Int32} {k : Nat} (hk : t.waiter? seq = some k) :
    (seq, k) ∈ t.entries := by
  obtain ⟨before, after, hentries, -⟩ := List.lookup_eq_some_iff.mp hk
  exact hentries ▸ List.mem_append_right _ List.mem_cons_self

/-! ## What a step takes away -/

/-- Whatever a step takes away from a call is reported to the call. -/
structure Serves (s s' : Session) (notes : List Note) : Prop where
  ahead : ∀ item ∈ s.sending.ahead, ∀ k, item.caller = some k →
    item ∈ s'.sending.ahead ∨ ∃ n ∈ notes, ∃ slot, n.slot? = some (k, slot)
  waiter : ∀ seq k, s.tracker.waiter? seq = some k →
    s'.tracker.waiter? seq = some k ∨ ∃ n ∈ notes, ∃ slot, n.receipt? = some (k, slot)
  number : ∀ k seq, .numbered k (.ok seq) ∈ notes →
    ∃ flight, s.flight = some flight ∧ flight.item.caller = some k ∧ flight.seq = seq
  flight : ∀ flight', s'.flight = some flight' →
    (∃ flight, s.flight = some flight ∧ flight.item = flight'.item ∧ flight.seq = flight'.seq) ∨
      ∀ k, flight'.item.caller = some k → flight'.item.tracked = true →
        s'.tracker.waiter? flight'.seq = some k

lemma serves_of_more (more : List Outgoing) (hflight : s'.flight = s.flight)
    (hitems : s'.outbox.items = s.outbox.items ++ more) (htracker : s'.tracker = s.tracker) :
    s.Serves s' [] where
  ahead item hitem k _ := by
    refine .inl ?_
    rw [Sending.ahead, sending, hflight, hitems, ← List.append_assoc]
    exact List.mem_append_left _ hitem
  waiter seq k hk := .inl (htracker ▸ hk)
  number k seq h := by cases h
  flight flight' h := .inl ⟨flight', hflight ▸ h, rfl, rfl⟩

lemma serves_of_eq (hflight : s'.flight = s.flight) (hitems : s'.outbox.items = s.outbox.items)
    (htracker : s'.tracker = s.tracker) : s.Serves s' [] :=
  serves_of_more [] hflight (by rw [hitems, List.append_nil]) htracker

lemma serves_of_offer {who : Sender} {item : Outgoing} {outbox : Outbox}
    (hoffer : s.outbox.offer who item = .taken outbox ∨ s.outbox.offer who item = .lined outbox)
    (hflight : s'.flight = s.flight) (houtbox : s'.outbox = outbox)
    (htracker : s'.tracker = s.tracker) : s.Serves s' [] := by
  rcases hoffer with hoffer | hoffer
  · obtain ⟨-, rfl⟩ := Outbox.offer_taken hoffer
    exact serves_of_more [item] hflight (congrArg Outbox.items houtbox) htracker
  · obtain ⟨-, rfl⟩ := Outbox.offer_lined hoffer
    exact serves_of_eq hflight (congrArg Outbox.items houtbox :) htracker

lemma told_of_forget {t : Tracker Nat} {seq seq' : Int32} {k : Nat}
    (hk : t.waiter? seq = some k) : (t.forget seq').1.waiter? seq = some k ∨
      .unreceipted k ∈ (t.forget seq').2.toList.map Note.unreceipted := by
  by_cases hseq : seq = seq'
  · subst hseq
    refine .inr (List.mem_map_of_mem ?_)
    rw [Tracker.forget, hk]
    exact List.mem_singleton_self k
  · exact .inl (waiter?_forget_of_ne hseq hk)

lemma told_of_register {item : Outgoing} {seq seq' : Int32} {tracker : Tracker Nat} {k : Nat}
    (h : s.registerWaiter item seq' = ({ s with tracker }, notes))
    (hk : s.tracker.waiter? seq = some k) :
    tracker.waiter? seq = some k ∨ .unreceipted k ∈ notes := by
  by_cases hseq : seq = seq'
  · subst hseq
    unfold registerWaiter at h
    split at h
    · rename_i k' hcaller htracked
      have hnotes : (s.tracker.register seq k').2.toList.map Note.unreceipted = notes :=
        congrArg Prod.snd h
      refine .inr (hnotes ▸ List.mem_map_of_mem ?_)
      rw [Tracker.register, hk]
      exact List.mem_singleton_self k
    · refine .inl ?_
      have htracker : s.tracker = tracker := congrArg (fun x => x.1.tracker) h
      rw [← htracker, hk]
  · exact .inl ((waiter?_of_register_ne h hseq).trans hk)

lemma waiter?_of_tracked {item : Outgoing} {seq : Int32} {tracker : Tracker Nat} {k : Nat}
    (h : s.registerWaiter item seq = ({ s with tracker }, notes)) (hcaller : item.caller = some k)
    (htracked : item.tracked = true) : tracker.waiter? seq = some k := by
  rw [registerWaiter, hcaller, htracked] at h
  have htracker : (s.tracker.register seq k).1 = tracker := congrArg (fun x => x.1.tracker) h
  rw [← htracker, Tracker.waiter?_register, if_pos rfl]

lemma mem_lost {items : List Outgoing} {item : Outgoing} {k : Nat} (hitem : item ∈ items)
    (hcaller : item.caller = some k) :
    .lost k ∈ items.filterMap fun item => item.caller.map Note.lost :=
  List.mem_filterMap.mpr ⟨item, hitem, by rw [hcaller]; rfl⟩

/-- The writing side tells a call what has become of its item and of its waiter. -/
theorem Written.serves (h : s.Written s' notes) : s.Serves s' notes := by
  cases h with
  | numbered item items tracker replaced octets hflight hitems hregister hencode =>
    refine ⟨fun item' hitem k hcaller => .inl ?_, fun seq k hk => ?_, fun k seq hn => ?_,
      fun flight' hflight' => .inr fun k hcaller htracked => ?_⟩
    · simpa [Sending.ahead, sending, hflight, hitems] using hitem
    · exact (told_of_register hregister hk).imp id fun hn => ⟨_, hn, _, rfl⟩
    · obtain ⟨k', -, hk'⟩ := List.mem_map.mp hn
      cases hk'
    · cases hflight'
      exact waiter?_of_tracked hregister hcaller htracked
  | skipped item items tracker replaced e hflight hitems hregister hencode htransport =>
    refine ⟨fun item' hitem k hcaller => ?_, fun seq k hk => ?_, fun k seq hn => ?_,
      fun flight' hflight' => ?_⟩
    · simp only [Sending.ahead, sending, hflight, hitems, Option.map_none, Option.toList_none,
        List.nil_append, List.mem_cons] at hitem ⊢
      rcases hitem with rfl | hitem
      · refine .inr ⟨.numbered k (.error e), ?_, _, rfl⟩
        exact List.mem_append_right _
          (List.mem_append_right _ (mem_numberedNote.mpr ⟨k, hcaller, rfl⟩))
      · exact .inl hitem
    · rcases told_of_register hregister hk with hk | hn
      · refine (told_of_forget hk).imp id fun hn => ⟨.unreceipted k, ?_, _, rfl⟩
        exact List.mem_append_right _ (List.mem_append_left _ hn)
      · exact .inr ⟨_, List.mem_append_left _ hn, _, rfl⟩
    · simp [numberedNote] at hn
    · cases hflight.symm.trans hflight'
  | refused item items tracker replaced e hflight hitems hregister hencode htransport =>
    refine ⟨fun item' hitem k hcaller => .inr ?_, fun seq k hk => ?_, fun k seq hn => ?_,
      fun flight' hflight' => ?_⟩
    · simp only [Sending.ahead, sending, hflight, hitems, Option.map_none, Option.toList_none,
        List.nil_append, List.mem_cons] at hitem
      rcases hitem with rfl | hitem
      · refine ⟨.numbered k (.error .connectionClosed), ?_, _, rfl⟩
        exact List.mem_append_right _ (List.mem_append_left _
          (List.mem_append_right _ (mem_numberedNote.mpr ⟨k, hcaller, rfl⟩)))
      · exact ⟨.lost k, List.mem_append_right _
          (List.mem_append_right _ (mem_lost hitem hcaller)), _, rfl⟩
    · rcases told_of_register hregister hk with hk | hn
      · refine (told_of_forget hk).imp id fun hn => ⟨.unreceipted k, ?_, _, rfl⟩
        exact List.mem_append_right _ (List.mem_append_left _ (List.mem_append_left _ hn))
      · exact .inr ⟨_, List.mem_append_left _ hn, _, rfl⟩
    · simp [numberedNote] at hn
    · cases hflight'
  | advanced flight octets link hflight hwrite =>
    refine ⟨fun item hitem k hcaller => .inl ?_, fun seq k hk => .inl hk,
      fun k seq hn => (by cases hn), fun flight' hflight' => .inl ⟨flight, hflight, ?_⟩⟩
    · simpa [Sending.ahead, sending, hflight] using hitem
    · cases hflight'
      exact ⟨rfl, rfl⟩
  | completed flight link hflight hwrite =>
    refine ⟨fun item hitem k hcaller => ?_, fun seq k hk => .inl hk, fun k seq hn => ?_,
      fun flight' hflight' => by cases hflight'⟩
    · simp only [Sending.ahead, sending, hflight, Option.map_some, Option.toList_some,
        List.singleton_append, List.mem_cons, Option.map_none, Option.toList_none,
        List.nil_append] at hitem ⊢
      rcases hitem with rfl | hitem
      · exact .inr ⟨_, mem_numberedNote.mpr ⟨k, hcaller, rfl⟩, _, rfl⟩
      · exact .inl hitem
    · obtain ⟨k', hcaller, hk'⟩ := mem_numberedNote.mp hn
      cases hk'
      exact ⟨flight, hflight, hcaller, rfl⟩
  | broken flight left link e hflight hwrite =>
    refine ⟨fun item hitem k hcaller => .inr ?_, fun seq k hk => ?_, fun k seq hn => ?_,
      fun flight' hflight' => by cases hflight'⟩
    · simp only [Sending.ahead, sending, hflight, Option.map_some, Option.toList_some,
        List.singleton_append, List.mem_cons] at hitem
      rcases hitem with rfl | hitem
      · exact ⟨_, List.mem_append_left _
          (List.mem_append_right _ (mem_numberedNote.mpr ⟨k, hcaller, rfl⟩)), _, rfl⟩
      · exact ⟨.lost k, List.mem_append_right _ (mem_lost hitem hcaller), _, rfl⟩
    · exact (told_of_forget hk).imp id fun hn =>
        ⟨_, List.mem_append_left _ (List.mem_append_left _ hn), _, rfl⟩
    · simp [numberedNote] at hn

lemma told_of_dispatch (p : Progress) {t : Tracker Nat} (raw : RawFrame) {seq : Int32} {k : Nat}
    (hk : t.waiter? seq = some k) : (dispatch p t raw).tracker.waiter? seq = some k ∨
      ∃ a, (dispatch p t raw).receipt = some (k, a) := by
  cases hreceipt : raw.receipt? with
  | none =>
    rw [(dispatch_of_receipt?_none p t raw hreceipt).1]
    exact .inl hk
  | some a =>
    rw [dispatch_of_receipt? p t raw hreceipt]
    by_cases hseq : seq = a.seq
    · subst hseq
      exact .inr ⟨a, by rw [hk]; rfl⟩
    · exact .inl ((t.waiter?_erase a.seq seq).trans ((if_neg hseq).trans hk))

/-- The end of a session is told to all whose item is unwritten, and to all who wait. -/
lemma serves_finish (s : Session) (link : Link) (p : Progress) (reason : EndReason) :
    s.Serves ({ s with link }.finish p reason).session
      ({ s with link }.finish p reason).notes where
  ahead item hitem k hcaller :=
    .inr ⟨.lost k, List.mem_append_left _ (mem_lost hitem hcaller), _, rfl⟩
  waiter seq k hk := by
    refine .inr ⟨.unreceipted k, List.mem_append_right _ (List.mem_map_of_mem ?_), _, rfl⟩
    exact List.mem_map_of_mem (mem_entries hk)
  number k seq hn := by
    rcases List.mem_append.mp hn with hn | hn
    · obtain ⟨item, -, hk⟩ := List.mem_filterMap.mp hn
      obtain ⟨k', -, hk'⟩ := Option.map_eq_some_iff.mp hk
      cases hk'
    · obtain ⟨k', -, hk'⟩ := List.mem_map.mp hn
      cases hk'
  flight flight' hflight' := by cases hflight'

theorem Heard.serves {step : Step} (h : s.Heard p now step) :
    s.Serves step.session step.notes := by
  cases h with
  | sent m rest outbox hstage hoffer => exact serves_of_offer (.inl hoffer) rfl rfl rfl
  | lined m rest outbox hstage hoffer => exact serves_of_offer (.inr hoffer) rfl rfl rfl
  | dispatched raw link hstage hnext =>
    refine ⟨fun item hitem k hcaller => .inl hitem, fun seq k hk => ?_, fun k seq hn => ?_,
      fun flight' hflight' => .inl ⟨flight', hflight', rfl, rfl⟩⟩
    · refine (told_of_dispatch p raw hk).imp id fun ⟨a, ha⟩ => ⟨.receipted k a, ?_, _, rfl⟩
      rw [ha]
      exact List.mem_singleton_self _
    · obtain ⟨x, -, hx⟩ := List.mem_map.mp hn
      cases hx
  | finished duties link reason hstage hduty hends => exact s.serves_finish link p reason
  | _ => exact serves_of_eq rfl rfl rfl

/-- Whatever a step takes away from a call, the call is told. -/
theorem Moved.serves (h : s.Moved now p s' p' notes) : s.Serves s' notes := by
  cases h with
  | ready hready =>
    obtain ⟨-, rfl⟩ := startup_ready hready
    exact serves_of_eq rfl rfl rfl
  | going hgoing =>
    obtain ⟨m, requests, outbox, -, ⟨hoffer, rfl⟩ | ⟨hoffer, rfl⟩⟩ := startup_going hgoing
    · exact serves_of_offer (.inl hoffer) rfl rfl rfl
    · exact serves_of_offer (.inr hoffer) rfl rfl rfl
  | wrote hwrite => exact (written_of_write? hwrite).serves
  | read hheard => exact hheard.serves
  | took htake =>
    obtain ⟨items, -, rfl⟩ := takeEvent?_cases htake
    exact serves_of_eq rfl rfl rfl
  | _ => exact serves_of_eq rfl rfl rfl

/-! ## Whom a step tells something -/

/-- The session has something at hand for a call. -/
def Knows (s : Session) (k : Nat) : Prop :=
  (∃ item ∈ s.sending.ahead, item.caller = some k) ∨ ∃ seq, (seq, k) ∈ s.tracker.entries

/-- Only calls that the session knows are told something, and only they get a waiter. -/
structure Confides (s s' : Session) (notes : List Note) : Prop where
  told : ∀ n ∈ notes, s.Knows n.call
  entries : ∀ x ∈ s'.tracker.entries, s.Knows x.2

lemma confides_of_tracker (h : s'.tracker.entries ⊆ s.tracker.entries) : s.Confides s' [] :=
  ⟨nofun, fun x hx => .inr ⟨x.1, h hx⟩⟩

lemma entries_forget (t : Tracker Nat) (seq : Int32) : (t.forget seq).1.entries ⊆ t.entries :=
  fun _ hx => List.mem_of_mem_filter hx

lemma mem_entries_of_forgotten {t : Tracker Nat} {seq : Int32} {n : Note}
    (hn : n ∈ (t.forget seq).2.toList.map Note.unreceipted) : (seq, n.call) ∈ t.entries := by
  obtain ⟨k, hk, rfl⟩ := List.mem_map.mp hn
  exact mem_entries (Option.mem_toList.mp hk)

lemma mem_entries_of_replaced {item : Outgoing} {seq : Int32} {tracker : Tracker Nat} {n : Note}
    (h : s.registerWaiter item seq = ({ s with tracker }, notes)) (hn : n ∈ notes) :
    (seq, n.call) ∈ s.tracker.entries := by
  unfold registerWaiter at h
  split at h
  · rename_i k hcaller htracked
    have hnotes : (s.tracker.register seq k).2.toList.map Note.unreceipted = notes :=
      congrArg Prod.snd h
    obtain ⟨k', hk, rfl⟩ := List.mem_map.mp (hnotes ▸ hn)
    exact mem_entries (Option.mem_toList.mp hk)
  · cases (congrArg Prod.snd h : [] = notes)
    cases hn

lemma entries_of_register {item : Outgoing} {seq : Int32} {tracker : Tracker Nat}
    (h : s.registerWaiter item seq = ({ s with tracker }, notes)) :
    ∀ x ∈ tracker.entries, x ∈ s.tracker.entries ∨ item.caller = some x.2 := by
  intro x hx
  unfold registerWaiter at h
  split at h
  · rename_i k hcaller htracked
    have htracker : (s.tracker.register seq k).1 = tracker := congrArg (fun x => x.1.tracker) h
    rw [← htracker] at hx
    rcases List.mem_cons.mp hx with rfl | hx
    · exact .inr hcaller
    · exact .inl (List.mem_of_mem_filter hx)
  · have htracker : s.tracker = tracker := congrArg (fun x => x.1.tracker) h
    exact .inl (htracker ▸ hx)

lemma caller_of_numberedNote {item : Outgoing} {result : Except Error Int32} {n : Note}
    (hn : n ∈ numberedNote item result) : item.caller = some n.call := by
  obtain ⟨k, hcaller, rfl⟩ := mem_numberedNote.mp hn
  exact hcaller

lemma caller_of_lost {items : List Outgoing} {n : Note}
    (hn : n ∈ items.filterMap fun item => item.caller.map Note.lost) :
    ∃ item ∈ items, item.caller = some n.call := by
  obtain ⟨item, hitem, hlost⟩ := List.mem_filterMap.mp hn
  obtain ⟨k, hcaller, rfl⟩ := Option.map_eq_some_iff.mp hlost
  exact ⟨item, hitem, hcaller⟩

lemma mem_ahead_of_flight {flight : Flight} (hflight : s.flight = some flight) :
    flight.item ∈ s.sending.ahead := by
  simp [Sending.ahead, sending, hflight]

lemma mem_ahead_of_items {item : Outgoing} (hitem : item ∈ s.outbox.items) :
    item ∈ s.sending.ahead := List.mem_append_right _ hitem

theorem Written.confides (h : s.Written s' notes) : s.Confides s' notes := by
  have hregistered {item : Outgoing} {tracker : Tracker Nat} {notes : List Note} {x : Int32 × Nat}
      (hregister : s.registerWaiter item s.nextSeq = ({ s with tracker }, notes))
      (hitem : item ∈ s.sending.ahead) (hx : x ∈ tracker.entries) : s.Knows x.2 := by
    rcases entries_of_register hregister x hx with hx | hcaller
    · exact .inr ⟨x.1, hx⟩
    · exact .inl ⟨item, hitem, hcaller⟩
  cases h with
  | numbered item items tracker replaced octets hflight hitems hregister hencode =>
    have hitem : item ∈ s.sending.ahead := mem_ahead_of_items (hitems ▸ List.mem_cons_self)
    exact ⟨fun n hn => .inr ⟨_, mem_entries_of_replaced hregister hn⟩,
      fun x hx => hregistered hregister hitem hx⟩
  | skipped item items tracker replaced e hflight hitems hregister hencode htransport =>
    have hitem : item ∈ s.sending.ahead := mem_ahead_of_items (hitems ▸ List.mem_cons_self)
    refine ⟨fun n hn => ?_, fun x hx => hregistered hregister hitem (entries_forget _ _ hx)⟩
    rcases List.mem_append.mp hn with hn | hn
    · exact .inr ⟨_, mem_entries_of_replaced hregister hn⟩
    · rcases List.mem_append.mp hn with hn | hn
      · exact hregistered hregister hitem (mem_entries_of_forgotten hn)
      · exact .inl ⟨item, hitem, caller_of_numberedNote hn⟩
  | refused item items tracker replaced e hflight hitems hregister hencode htransport =>
    have hitem : item ∈ s.sending.ahead := mem_ahead_of_items (hitems ▸ List.mem_cons_self)
    refine ⟨fun n hn => ?_, fun x hx => hregistered hregister hitem (entries_forget _ _ hx)⟩
    rcases List.mem_append.mp hn with hn | hn
    · exact .inr ⟨_, mem_entries_of_replaced hregister hn⟩
    · rcases List.mem_append.mp hn with hn | hn
      · rcases List.mem_append.mp hn with hn | hn
        · exact hregistered hregister hitem (mem_entries_of_forgotten hn)
        · exact .inl ⟨item, hitem, caller_of_numberedNote hn⟩
      · obtain ⟨item', hitem', hcaller⟩ := caller_of_lost hn
        refine .inl ⟨item', mem_ahead_of_items ?_, hcaller⟩
        exact hitems ▸ List.mem_cons_of_mem item hitem'
  | advanced flight octets link hflight hwrite => exact confides_of_tracker (List.Subset.refl _)
  | completed flight link hflight hwrite =>
    exact ⟨fun n hn => .inl ⟨_, mem_ahead_of_flight hflight, caller_of_numberedNote hn⟩,
      fun x hx => .inr ⟨x.1, hx⟩⟩
  | broken flight left link e hflight hwrite =>
    refine ⟨fun n hn => ?_, fun x hx => .inr ⟨x.1, entries_forget _ _ hx⟩⟩
    rcases List.mem_append.mp hn with hn | hn
    · rcases List.mem_append.mp hn with hn | hn
      · exact .inr ⟨_, mem_entries_of_forgotten hn⟩
      · exact .inl ⟨_, mem_ahead_of_flight hflight, caller_of_numberedNote hn⟩
    · obtain ⟨item, hitem, hcaller⟩ := caller_of_lost hn
      exact .inl ⟨item, mem_ahead_of_items hitem, hcaller⟩

lemma entries_dispatch (p : Progress) (t : Tracker Nat) (raw : RawFrame) :
    (dispatch p t raw).tracker.entries ⊆ t.entries := by
  cases hreceipt : raw.receipt? with
  | none =>
    rw [(dispatch_of_receipt?_none p t raw hreceipt).1]
    exact List.Subset.refl _
  | some a =>
    rw [dispatch_of_receipt? p t raw hreceipt]
    exact fun _ hx => List.mem_of_mem_filter hx

theorem Heard.confides {step : Step} (h : s.Heard p now step) :
    s.Confides step.session step.notes := by
  have hreceipted {k : Nat} {a : Ack} := h.receipted (k := k) (a := a)
  cases h with
  | dispatched raw link hstage hnext =>
    refine ⟨fun n hn => ?_, fun x hx => .inr ⟨x.1, entries_dispatch p s.tracker raw hx⟩⟩
    obtain ⟨⟨k, a⟩, -, rfl⟩ := List.mem_map.mp hn
    exact .inr ⟨a.seq, mem_entries (hreceipted hn).2⟩
  | finished duties link reason hstage hduty hends =>
    refine ⟨fun n hn => ?_, fun x hx => by cases hx⟩
    rcases List.mem_append.mp hn with hn | hn
    · exact .inl (caller_of_lost hn)
    · obtain ⟨k, hk, rfl⟩ := List.mem_map.mp hn
      obtain ⟨x, hx, rfl⟩ := List.mem_map.mp hk
      exact .inr ⟨x.1, hx⟩
  | _ => exact confides_of_tracker (List.Subset.refl _)

/-- A step of a session tells something only to calls that the session knows. -/
theorem Moved.confides (h : s.Moved now p s' p' notes) : s.Confides s' notes := by
  cases h with
  | ready hready =>
    obtain ⟨-, rfl⟩ := startup_ready hready
    exact confides_of_tracker (List.Subset.refl _)
  | going hgoing =>
    obtain ⟨m, requests, outbox, -, ⟨-, rfl⟩ | ⟨-, rfl⟩⟩ := startup_going hgoing
    · exact confides_of_tracker (List.Subset.refl _)
    · exact confides_of_tracker (List.Subset.refl _)
  | wrote hwrite => exact (written_of_write? hwrite).confides
  | read hheard => exact hheard.confides
  | took htake =>
    obtain ⟨items, -, rfl⟩ := takeEvent?_cases htake
    exact confides_of_tracker (List.Subset.refl _)
  | _ => exact confides_of_tracker (List.Subset.refl _)

end Session

end Parley
