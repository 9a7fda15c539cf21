import Parley.Proofs.Client.Admission
import Parley.Proofs.Client.Overlapping
import Parley.Proofs.Client.Skipping

/-!
# Going on behind items that cannot be encoded

The writer of a connection takes the items of its queue one by one, and one that cannot be encoded
costs the others nothing: their frames go out as if it were not there (`Client.WritesOut`). Main
statement: `Client.spared`.
-/

namespace Parley

lemma Session.write?_of_flows {s : Session} {flight : Flight} (hflight : s.flight = some flight)
    (hflows : s.link.outbound.Flows) :
    ∃ chunks, chunks.flatten = flight.octets ∧ s.write? = some
      ({ s with
          link := { s.link with written := s.link.written ++ chunks }
          flight := none, nextSeq := s.nextSeq + 1 },
        numberedNote flight.item (.ok flight.seq)) := by
  obtain ⟨written, hwrite⟩ := Link.write_of_flows hflows flight.octets
  obtain ⟨chunks, hoctets, hwritten, -⟩ := Link.write_spec hwrite
  obtain rfl : written = s.link.written ++ chunks := hwritten
  refine ⟨chunks, by rw [hoctets, List.append_nil], ?_⟩
  simp only [write?, hflight, writeFlight, hwrite]

namespace Client
variable {c c' c'' : Client} {i k : Nat} {s s' s'' : Session} {holder : Holder} {item : Outgoing}
  {items items' rest rest' : List Outgoing} {e : Error}

/-! ## Items that come up -/

/-- Items with the numbers under which they come up: an item that cannot be encoded leaves its
number to the next one. -/
def comingUp (version : UInt8) : Int32 → List Outgoing → List (Outgoing × Int32)
  | _, [] => []
  | seq, item :: items => (item, seq) :: comingUp version (numberBehind version seq [item]) items

/-- What becomes of an item that comes up under a number. -/
def verdict (version : UInt8) (x : Outgoing × Int32) : Except Error Int32 :=
  (x.1.frame version x.2).encode.map fun _ => x.2

lemma comingUp_append (version : UInt8) (seq : Int32) (items items' : List Outgoing) :
    comingUp version seq (items ++ items') =
      comingUp version seq items ++ comingUp version (numberBehind version seq items) items' := by
  induction items generalizing seq with
  | nil => rfl
  | cons item items ih =>
    have hnumber := numberBehind_append version seq [item] items
    rw [List.singleton_append] at hnumber
    rw [List.cons_append, comingUp, comingUp, ih, hnumber, List.cons_append]

lemma map_comingUp (version : UInt8) (seq : Int32) (items : List Outgoing) :
    (comingUp version seq items).map (·.1) = items := by
  induction items generalizing seq with
  | nil => rfl
  | cons item items ih => rw [comingUp, List.map_cons, ih]

/-- What is reported of items that come up: each caller is told what becomes of its item, and no
receipt is expected any more for an item that cannot be encoded. -/
structure Reports (version : UInt8) (tries : List (Outgoing × Int32)) (notes : List Note) :
    Prop where
  told : ∀ x ∈ tries, ∀ k, x.1.caller = some k → .numbered k (verdict version x) ∈ notes
  number : ∀ n ∈ notes, ∀ k slot, n.slot? = some (k, slot) →
    ∃ x ∈ tries, x.1.caller = some k ∧ slot = .full (verdict version x)
  forgotten : ∀ x ∈ tries, ∀ k e, x.1.caller = some k → x.1.tracked = true →
    verdict version x = .error e → .unreceipted k ∈ notes
  receipt : ∀ n ∈ notes, ∀ k slot, n.receipt? = some (k, slot) → slot = .broken

lemma reports_nil (version : UInt8) : Reports version [] [] where
  told _ hx := absurd hx List.not_mem_nil
  number _ hn := absurd hn List.not_mem_nil
  forgotten _ hx := absurd hx List.not_mem_nil
  receipt _ hn := absurd hn List.not_mem_nil

lemma Reports.append {version : UInt8} {tries tries' : List (Outgoing × Int32)}
    {notes notes' : List Note} (h : Reports version tries notes)
    (h' : Reports version tries' notes') : Reports version (tries ++ tries') (notes ++ notes') where
  told x hx k hcaller := (List.mem_append.mp hx).elim
    (fun hx => List.mem_append_left _ (h.told x hx k hcaller))
    (fun hx => List.mem_append_right _ (h'.told x hx k hcaller))
  number n hn k slot hslot := by
    rcases List.mem_append.mp hn with hn | hn
    · obtain ⟨x, hx, hcaller, rfl⟩ := h.number n hn k slot hslot
      exact ⟨x, List.mem_append_left _ hx, hcaller, rfl⟩
    · obtain ⟨x, hx, hcaller, rfl⟩ := h'.number n hn k slot hslot
      exact ⟨x, List.mem_append_right _ hx, hcaller, rfl⟩
  forgotten x hx k e hcaller htracked he := (List.mem_append.mp hx).elim
    (fun hx => List.mem_append_left _ (h.forgotten x hx k e hcaller htracked he))
    (fun hx => List.mem_append_right _ (h'.forgotten x hx k e hcaller htracked he))
  receipt n hn k slot hslot := (List.mem_append.mp hn).elim
    (fun hn => h.receipt n hn k slot hslot) (fun hn => h'.receipt n hn k slot hslot)

lemma reports_singleton {version : UInt8} {seq : Int32} {waiters : List Nat}
    (hforgotten : ∀ k e, item.caller = some k → item.tracked = true →
      verdict version (item, seq) = .error e → k ∈ waiters) :
    Reports version [(item, seq)]
      (waiters.map .unreceipted ++ Session.numberedNote item (verdict version (item, seq))) where
  told x hx k hcaller := by
    obtain rfl := List.mem_singleton.mp hx
    exact List.mem_append_right _ (mem_numberedNote.mpr ⟨k, hcaller, rfl⟩)
  number n hn k slot hslot := by
    rcases List.mem_append.mp hn with hn | hn
    · obtain ⟨k', -, rfl⟩ := List.mem_map.mp hn
      cases hslot
    · obtain ⟨k', hcaller, rfl⟩ := mem_numberedNote.mp hn
      cases hslot
      exact ⟨_, List.mem_singleton_self _, hcaller, rfl⟩
  forgotten x hx k e hcaller htracked he := by
    obtain rfl := List.mem_singleton.mp hx
    exact List.mem_append_left _ (List.mem_map_of_mem (hforgotten k e hcaller htracked he))
  receipt n hn k slot hslot := by
    rcases List.mem_append.mp hn with hn | hn
    · obtain ⟨k', -, rfl⟩ := List.mem_map.mp hn
      cases hslot
      rfl
    · obtain ⟨k', -, rfl⟩ := mem_numberedNote.mp hn
      cases hslot

/-! ## The writer goes on -/

/-- The writer has gone through items of its queue. The frames of those that can be encoded have
gone out, numbered one after another; the session is as it was but for its queue, its next number
and those who wait for receipts. -/
structure WritesOut (c : Client) (i : Nat) (holder : Holder) (s s' : Session)
    (items rest : List Outgoing) (c' : Client) : Prop where
  aside : c'.aside = c.aside
  phase? : ∀ j, c'.phase? j = if j = i then some (.established s' holder) else c.phase? j
  session : ∃ written tracker, s' =
    { s with
      link := { s.link with written }, outbox := { s.outbox with items := rest }, tracker
      nextSeq := numberBehind s.version s.nextSeq items }
  wire : ∀ j, c'.wireOf j =
    if j = i then c.wireOf i ++ script s.version s.nextSeq items else c.wireOf j
  reports : ∃ notes, Reports s.version (comingUp s.version s.nextSeq items) notes ∧
    ∀ (k : Nat) call, c.calls[k]? = some call →
      ∃ call', c'.calls[k]? = some call' ∧ call.Hears k notes call'

lemma WritesOut.trans (h : c.WritesOut i holder s s' items rest c')
    (h' : c'.WritesOut i holder s' s'' items' rest' c'') :
    c.WritesOut i holder s s'' (items ++ items') rest' c'' := by
  obtain ⟨written, tracker, hs⟩ := h.session
  obtain ⟨written', tracker', hs'⟩ := h'.session
  have hversion : s'.version = s.version := by rw [hs]
  have hnextSeq : s'.nextSeq = numberBehind s.version s.nextSeq items := by rw [hs]
  refine ⟨h'.aside.trans h.aside, fun j => ?_, ⟨written', tracker', ?_⟩, fun j => ?_, ?_⟩
  · rw [h'.phase?, h.phase?]
    split <;> rfl
  · rw [hs', hversion, hnextSeq, numberBehind_append, hs]
  · rw [h'.wire, h.wire, h.wire, if_pos rfl, hversion, hnextSeq, script_append, List.append_assoc]
    split <;> rfl
  · obtain ⟨notes, hreports, hhears⟩ := h.reports
    obtain ⟨notes', hreports', hhears'⟩ := h'.reports
    rw [hversion, hnextSeq] at hreports'
    refine ⟨notes ++ notes', ?_, fun k call hcall => ?_⟩
    · rw [comingUp_append]
      exact hreports.append hreports'
    · obtain ⟨call', hcall', hcallHears⟩ := hhears k call hcall
      obtain ⟨call'', hcall'', hcallHears'⟩ := hhears' k call' hcall'
      exact ⟨call'', hcall'', hcallHears.trans hcallHears'⟩

lemma writesOut_of_error (hphase : c.phase? i = some (.established s holder))
    (hflight : s.flight = none) (hitems : s.outbox.items = item :: items)
    (hencode : (item.frame s.version s.nextSeq).encode = .error e)
    (hshort : ¬ item.IsOverlong s.version) :
    c.WritesOut i holder s (s.letGo items) [item] items (c.move (.act (.writing i))) := by
  have hwrite := Session.write?_of_refused hflight hitems hencode hshort
  have hverdict : verdict s.version (item, s.nextSeq) = .error e := by rw [verdict, hencode]; rfl
  refine ⟨aside_writing hphase hwrite, phase?_writing hphase hwrite,
    ⟨s.link.written, s.tracker.erase s.nextSeq, ?_⟩, fun j => ?_, ?_⟩
  · rw [numberBehind_of_error _ _ hencode]
    rfl
  · rw [script_of_error _ _ hencode, wireOf_writing hphase hwrite (List.append_nil _).symm]
    rfl
  · refine ⟨_, ?_, fun k call hcall => hears_writing hphase hwrite hcall⟩
    rw [← hverdict]
    refine reports_singleton fun k e' hcaller htracked _ => ?_
    rw [Session.waitersAt, if_pos htracked, hcaller]
    exact List.mem_append_right _ (List.mem_singleton_self k)

lemma writesOut_of_ok {octets : Bytes} (hphase : c.phase? i = some (.established s holder))
    (hflight : s.flight = none) (hitems : s.outbox.items = item :: items)
    (hencode : (item.frame s.version s.nextSeq).encode = .ok octets)
    (hflows : s.link.outbound.Flows) :
    ∃ s', c.WritesOut i holder s s' [item] items
      ((c.move (.act (.writing i))).move (.act (.writing i))) := by
  obtain ⟨tracker, replaced, htake⟩ := Session.takeItem_of_ok hencode { s.outbox with items }
  have hnumbered := Session.write?_of_items hflight hitems
  rw [htake] at hnumbered
  generalize hs : { s with
    outbox := { s.outbox with items }, tracker, flight := some ⟨item, s.nextSeq, octets⟩ } = s₁
    at hnumbered
  have hflight₁ : s₁.flight = some ⟨item, s.nextSeq, octets⟩ := by rw [← hs]
  have hlink : s₁.link = s.link := by rw [← hs]
  obtain ⟨chunks, hchunks, hwritten⟩ := Session.write?_of_flows hflight₁ (hlink ▸ hflows)
  have hphase₁ := phase?_writing hphase hnumbered i
  rw [if_pos rfl] at hphase₁
  have hverdict : verdict s.version (item, s.nextSeq) = .ok s.nextSeq := by
    rw [verdict, hencode]
    rfl
  refine ⟨{ s₁ with
      link := { s₁.link with written := s₁.link.written ++ chunks }
      flight := none, nextSeq := s₁.nextSeq + 1 },
    (aside_writing hphase₁ hwritten).trans (aside_writing hphase hnumbered), fun j => ?_,
    ⟨s.link.written ++ chunks, tracker, ?_⟩, fun j => ?_, ?_⟩
  · rw [phase?_writing hphase₁ hwritten, phase?_writing hphase hnumbered]
    split <;> rfl
  · rw [numberBehind_of_ok _ _ hencode, ← hs, ← hflight]
    rfl
  · have hsilent : s₁.link.written = s.link.written ++ [] := by rw [hlink, List.append_nil]
    rw [wireOf_writing hphase₁ hwritten rfl, hchunks, script_of_ok _ _ hencode,
      wireOf_writing hphase hnumbered hsilent, wireOf_writing hphase hnumbered hsilent, if_pos rfl]
    simp only [script, List.flatten_nil, List.append_nil]
    split <;> rfl
  · refine ⟨replaced.toList.map .unreceipted ++ Session.numberedNote item (.ok s.nextSeq), ?_,
      fun k call hcall => ?_⟩
    · rw [← hverdict]
      refine reports_singleton fun k e' hcaller htracked he => ?_
      cases hverdict.symm.trans he
    · obtain ⟨call', hcall', hhears⟩ := hears_writing hphase hnumbered hcall
      obtain ⟨call'', hcall'', hhears'⟩ := hears_writing hphase₁ hwritten hcall'
      exact ⟨call'', hcall'', hhears.trans hhears'⟩

lemma run_replicate_add (c : Client) (m n : Nat) (move : Move) :
    c.run (List.replicate (m + n) move) =
      (c.run (List.replicate m move)).run (List.replicate n move) := by
  rw [List.replicate_add]
  exact List.foldl_append

lemma writesOut_singleton (hphase : c.phase? i = some (.established s holder))
    (hflight : s.flight = none) (hitems : s.outbox.items = item :: items)
    (hshort : ¬ item.IsOverlong s.version) (hflows : s.link.outbound.Flows) :
    ∃ s', c.WritesOut i holder s s' [item] items
      (c.run (List.replicate (1 + frameCount s.version s.nextSeq [item]) (.act (.writing i)))) := by
  cases hencode : (item.frame s.version s.nextSeq).encode with
  | ok octets =>
    rw [frameCount_of_ok _ _ hencode]
    exact writesOut_of_ok hphase hflight hitems hencode hflows
  | error e =>
    rw [frameCount_of_error _ _ hencode]
    exact ⟨_, writesOut_of_error hphase hflight hitems hencode hshort⟩

/-- A writer that nothing holds up goes through items of which none is too long, in one step for
each item and another one for each frame. -/
theorem writesOut_items (hphase : c.phase? i = some (.established s holder))
    (hflight : s.flight = none) (hitems : s.outbox.items = items ++ rest)
    (hshort : ∀ item ∈ items, ¬ item.IsOverlong s.version) (hflows : s.link.outbound.Flows) :
    ∃ s', c.WritesOut i holder s s' items rest (c.run (List.replicate
      (items.length + frameCount s.version s.nextSeq items) (.act (.writing i)))) := by
  induction items generalizing c s with
  | nil =>
    refine ⟨s, rfl, fun j => ?_, ⟨s.link.written, s.tracker, ?_⟩, fun j => ?_, [], ?_, ?_⟩
    · split
      · rename_i hj
        rw [hj]
        exact hphase
      · rfl
    · rw [List.nil_append] at hitems
      rw [← hitems]
      rfl
    · split
      · rename_i hj
        rw [hj, script, List.append_nil]
        rfl
      · rfl
    · exact reports_nil s.version
    · exact fun k call hcall => ⟨call, hcall, .refl k call⟩
  | cons item items ih =>
    rw [List.cons_append] at hitems
    obtain ⟨s₁, hfirst⟩ := writesOut_singleton hphase hflight hitems
      (hshort item List.mem_cons_self) hflows
    obtain ⟨written, tracker, hs₁⟩ := hfirst.session
    have hphase₁ := hfirst.phase? i
    rw [if_pos rfl] at hphase₁
    obtain ⟨s', hothers⟩ := ih hphase₁ (by rw [hs₁, hflight]) (by rw [hs₁])
      (fun item' hitem => by rw [hs₁]; exact hshort item' (List.mem_cons_of_mem _ hitem))
      (by rw [hs₁]; exact hflows)
    have hcount : (item :: items).length + frameCount s.version s.nextSeq (item :: items) =
        (1 + frameCount s.version s.nextSeq [item]) +
          (items.length + frameCount s₁.version s₁.nextSeq items) := by
      have hversion : s₁.version = s.version := by rw [hs₁]
      have hnextSeq : s₁.nextSeq = numberBehind s.version s.nextSeq [item] := by rw [hs₁]
      have happend := frameCount_append s.version s.nextSeq [item] items
      rw [List.singleton_append] at happend
      rw [happend, hversion, hnextSeq, List.length_cons]
      omega
    rw [hcount, run_replicate_add]
    exact ⟨s', hfirst.trans hothers⟩

lemma eq_of_caller {tries : List (Outgoing × Int32)}
    (honce : ((tries.map (·.1)).filterMap (·.caller)).Nodup) {x y : Outgoing × Int32}
    (hx : x ∈ tries) (hy : y ∈ tries) (hxk : x.1.caller = some k) (hyk : y.1.caller = some k) :
    x = y := by
  rw [List.filterMap_map] at honce
  have hpairwise : tries.Pairwise fun x y => ∀ k, x.1.caller = some k →
      ∀ k', y.1.caller = some k' → k ≠ k' := List.pairwise_filterMap.mp honce
  have hsymm : Std.Symm fun x y : Outgoing × Int32 => ∀ k, x.1.caller = some k →
      ∀ k', y.1.caller = some k' → k ≠ k' :=
    ⟨fun _ _ h k hk k' hk' => (h k' hk' k hk).symm⟩
  by_contra hne
  exact hpairwise.forall hx hy hne k hxk k hyk rfl

lemma WritesOut.learned (h : c.WritesOut i holder s s' items rest c') (hwaits : c.Waits i items)
    (honce : (items.filterMap (·.caller)).Nodup) {x : Outgoing × Int32}
    (hx : x ∈ comingUp s.version s.nextSeq items) (hcaller : x.1.caller = some k) :
    c'.Learned k (verdict s.version x) ∧
      ∀ e, verdict s.version x = .error e → x.1.tracked = true →
        ∃ call, c'.calls[k]? = some call ∧ call.receipt = .broken := by
  rw [← map_comingUp s.version s.nextSeq items] at honce hwaits
  obtain ⟨notes, hreports, hhears⟩ := h.reports
  obtain ⟨call, hcall, rfl, hstage⟩ := hwaits x.1 (List.mem_map_of_mem hx) k hcaller
  obtain ⟨call', hcall', hcallHears⟩ := hhears k call hcall
  constructor
  · have hphase := h.phase? call'.connection
    rw [if_pos hcallHears.connection] at hphase
    refine learned_of_number hcall' hphase (hcallHears.stage.trans hstage) ?_
    rcases hcallHears.number with ⟨-, hnone⟩ | ⟨n, hn, hslot⟩
    · exact absurd rfl (hnone _ (hreports.told x hx k hcaller) _)
    · obtain ⟨y, hy, hcaller', hnumber⟩ := hreports.number n hn k _ hslot
      rw [hnumber, eq_of_caller honce hx hy hcaller hcaller']
  · intro e he htracked
    refine ⟨call', hcall', ?_⟩
    rcases hcallHears.receipt with ⟨-, hnone⟩ | ⟨n, hn, hslot⟩
    · exact absurd rfl (hnone _ (hreports.forgotten x hx k e hcaller htracked he) _)
    · exact hreports.receipt n hn k _ hslot

/-! ## A message and a heartbeat behind it -/

lemma phase?_sent (hphase : c.phase? i = some (.established s holder)) (hstage : s.stage = .live [])
    (hopen : s.outbox.isOpen = true) (hstate : c.state = .ready) (hline : s.outbox.line = [])
    (hroom : s.outbox.items.length < s.outbox.capacity) (id : String) (wants : Wants)
    (m : Message) :
    let c' := (c.move (.send i id wants m 0)).move (.act (.calling c.calls.length))
    let item : Outgoing :=
      { message := m, caller := some c.calls.length, tracked := wants = .receipt }
    c'.phase? i = some (.established
        { s with outbox := { s.outbox with items := s.outbox.items ++ [item] } } holder) ∧
      c'.calls.length = c.calls.length + 1 ∧ c'.state = c.state ∧ c'.now = c.now := by
  intro c' item
  have hhandle : c.handle? i = some (s, holder) := by simp only [handle?, hphase, hstage]
  have hready : c.handleState s = .ready := by rw [handleState, if_pos hopen, hstate]
  have hsend : c.move (.send i id wants m 0) = c.addCall i id wants (.offering item) := by
    rw [move, hhandle]
    exact if_pos hready
  have hoffer : s.outbox.offer (.call c.calls.length) item =
      .taken { s.outbox with items := s.outbox.items ++ [item] } := by
    have hplace : s.outbox.place (.call c.calls.length) < s.outbox.room := by
      rw [Outbox.place, hline, Outbox.room]
      simp
      omega
    simp only [Outbox.offer, hopen, hplace, hline, Bool.not_true, Bool.false_eq_true, if_false,
      if_true, List.erase_nil]
  have hc' : c' = ((c.addCall i id wants (.offering item)).setPhase i (.established
      { s with outbox := { s.outbox with items := s.outbox.items ++ [item] } } holder)).setStage
        c.calls.length .queued := by
    have hcall : (c.addCall i id wants (.offering item)).calls[c.calls.length]? =
        some { id, connection := i, wants, stage := .offering item } := by simp [addCall]
    have hphase' : (c.addCall i id wants (.offering item)).phase? i =
        some (.established s holder) := hphase
    change (c.move (.send i id wants m 0)).move (.act (.calling c.calls.length)) = _
    rw [hsend]
    simp only [move, act?, hcall, hphase', callOn?, hoffer, Option.getD_some]
  rw [hc']
  refine ⟨phase?_setPhase_self _ hphase _, ?_, rfl, rfl⟩
  simp [setStage, setPhase, addCall]

/-- The moves by which a client is ready and has nothing left to do. -/
def settling : List Move := introducing ++ [.act (.writing 0), .act (.writing 0)]

/-- A client is ready, and a message is sent whose receipt is waited for, and then a heartbeat. -/
def sending (m : Message) : List Move :=
  settling ++ [.send 0 "m" .receipt m 0, .act (.calling 0),
    .send 0 "h" .number (.signal .heartbeat) 0, .act (.calling 1)]

/-- A session has a message and a heartbeat to write, and nothing to read. -/
structure Holds (c : Client) (m : Message) (s : Session) : Prop where
  stage : s.stage = .live []
  version : s.version = 2
  nextSeq : s.nextSeq = 3
  flight : s.flight = none
  items : s.outbox.items =
    [{ message := m, caller := some 0, tracked := true },
      { message := .signal .heartbeat, caller := some 1 }]
  flows : s.link.outbound.Flows
  silent : s.link.nextRaw.1 = none
  calm : (s.keepalive.onIdle c.now).2 = false
  state : c.state = .ready

lemma holds_sending (m : Message) : ∃ s holder,
    (least.playAll (firsts (sending m))).phase? 0 = some (.established s holder) ∧
      (least.playAll (firsts (sending m))).Holds m s := by
  have hsettled : (sessionOf? ((least.run settling).phase? 0)).any (fun s =>
      s.stage = .live [] ∧ s.version = 2 ∧ s.nextSeq = 3 ∧ s.flight = none ∧
        s.outbox = { capacity := 1024 } ∧ s.link.outbound = {} ∧ s.link.nextRaw.1.isNone ∧
        (s.keepalive.onIdle (least.run settling).now).2 = false) = true := by decide +kernel
  have hstate : (least.run settling).state = .ready := by decide +kernel
  have hcalls : (least.run settling).calls.length = 0 := by decide +kernel
  obtain ⟨s, hs, hprops⟩ := (Option.any_eq_true _ _).mp hsettled
  obtain ⟨hstage, hversion, hnextSeq, hflight, houtbox, houtbound, hsilent, hcalm⟩ :=
    of_decide_eq_true hprops
  obtain ⟨holder, hphase⟩ := established_of_sessionOf? hs
  obtain ⟨hphase₁, hcalls₁, hstate₁, hnow₁⟩ := phase?_sent hphase hstage (by rw [houtbox]) hstate
    (by rw [houtbox]) (by rw [houtbox]; decide) "m" .receipt m
  rw [hcalls] at hphase₁ hcalls₁ hstate₁ hnow₁
  obtain ⟨hphase₂, -, hstate₂, hnow₂⟩ := phase?_sent hphase₁ hstage (by rw [houtbox])
    (hstate₁.trans hstate) (by rw [houtbox])
    (by rw [houtbox]; exact (by decide : 1 < 1024)) "h" .number (.signal .heartbeat)
  rw [hcalls₁] at hphase₂ hstate₂ hnow₂
  rw [playAll_first, sending, run, List.foldl_append]
  refine ⟨_, holder, hphase₂, hstage, hversion, hnextSeq, hflight, ?_, ?_, ?_, ?_, ?_⟩
  · rw [houtbox]
    rfl
  · exact ⟨by rw [houtbound], by rw [houtbound]⟩
  · exact Option.isNone_iff_eq_none.mp hsilent
  · exact (hnow₂.trans hnow₁) ▸ hcalm
  · exact hstate₂.trans (hstate₁.trans hstate)

/-! ## In every run -/

/-- What a writer does that is about to take the next item of its queue. -/
structure Spares (c : Client) (i : Nat) (s : Session) (holder : Holder) : Prop where
  letsGo : ∀ item items e, s.outbox.items = item :: items →
    (item.frame s.version s.nextSeq).encode = .error e → ¬ item.IsOverlong s.version →
    c.LetsGo i s holder item items e (c.move (.act (.writing i)))
  /-- The items behind it are written, as far as none is too long, and each caller learns the number
  of its frame, or why it cannot be encoded. -/
  goesOn : ∀ items rest, s.outbox.items = items ++ rest →
    (∀ item ∈ items, ¬ item.IsOverlong s.version) → s.link.outbound.Flows →
    let c' := c.run (List.replicate
      (items.length + frameCount s.version s.nextSeq items) (.act (.writing i)))
    ∃ s', c.WritesOut i holder s s' items rest c' ∧
      ∀ x ∈ comingUp s.version s.nextSeq items, ∀ k, x.1.caller = some k →
        c'.Learned k (verdict s.version x) ∧
          ∀ e, verdict s.version x = .error e → x.1.tracked = true →
            ∃ call, c'.calls[k]? = some call ∧ call.receipt = .broken
  halts : ∀ item items, s.outbox.items = item :: items → item.IsOverlong s.version →
    ∃ len, c.Halts i s holder item items (.frameTooLarge len Frame.maxBodyLen)
      (c.move (.act (.writing i)))

/-- In every run, a writer lets go what cannot be encoded and goes on: nothing goes out for such an
item, its caller alone is told why, and the next frame gets its number. Only a body that is too long
for a header ends the writer, whatever is in the queue behind it. -/
theorem spared {config : Config} {store : CursorStore} {tokens : List (Except Error String)}
    (hnew : new config store tokens = .ok c) (ts : List Turn)
    (hphase : (c.playAll ts).phase? i = some (.established s holder)) (hflight : s.flight = none) :
    (c.playAll ts).Spares i s holder := by
  obtain ⟨hwaits, honce⟩ := waits_playAll hnew ts hphase
  rw [Session.ahead_eq_items hflight] at hwaits honce
  refine ⟨fun item items e hitems hencode hshort => ?_, fun items rest hitems hshort hflows => ?_,
    fun item items hitems hlong => ?_⟩
  · refine letsGo_of_error hphase hflight hitems hencode hshort fun item' hitem => ?_
    obtain rfl := List.mem_singleton.mp hitem
    exact hwaits item' (hitems ▸ List.mem_cons_self)
  · obtain ⟨s', hout⟩ := writesOut_items hphase hflight hitems hshort hflows
    rw [hitems] at hwaits honce
    rw [List.filterMap_append] at honce
    refine ⟨s', hout, fun x hx k hcaller => ?_⟩
    exact hout.learned (fun item hitem => hwaits item (List.mem_append_left _ hitem))
      honce.of_append_left hx hcaller
  · exact halts_of_overlong hphase hflight hitems hlong (hitems ▸ hwaits)

/-- A token of 256 octets, of which a field can state no more than 255. -/
def longToken : Message :=
  .authToken { platformId := 1, token := String.ofList (List.replicate 256 'x'), deviceId := "d" }

lemma refuses_longToken (version : UInt8) :
    (longToken.write version).Refuses (.authFieldTooLong "token" 256) := by
  have htoken : (Bytes.ofString (String.ofList (List.replicate 256 'x'))).length = 256 := by
    decide +kernel
  rcases AuthToken.write_cases
      { platformId := 1, token := String.ofList (List.replicate 256 'x'), deviceId := "d" } with
    ⟨hfits, -, -⟩ | ⟨name, s, ⟨rfl, rfl⟩ | ⟨rfl, rfl⟩, hlong, hrefuses⟩
  · rw [htoken] at hfits
    exact absurd hfits (by decide)
  · rw [htoken] at hrefuses
    exact hrefuses
  · exact absurd hlong (by decide)

lemma writes_signal (kind : Signal) (version : UInt8) :
    ((Message.signal kind).write version).Writes [] := by
  intro buffer
  rw [List.append_nil]
  rfl

theorem spared_of_longToken : ∃ s holder,
    new .least (.memory .zero) [] = .ok least ∧
      (least.playAll (firsts (sending longToken))).phase? 0 = some (.established s holder) ∧
      s.flight = none ∧ s.link.outbound.Flows ∧
      (∃ item item', s.outbox.items = [item, item'] ∧ item.caller = some 0 ∧
        item.tracked = true ∧ ¬ item.IsOverlong s.version ∧
        (item.frame s.version s.nextSeq).encode = .error (.authFieldTooLong "token" 256) ∧
        ¬ item'.IsOverlong s.version) ∧
      (least.playAll (firsts (sending longToken))).Spares 0 s holder := by
  obtain ⟨s, holder, hphase, h⟩ := holds_sending longToken
  refine ⟨s, holder, new_least, hphase, h.flight, h.flows, ⟨_, _, h.items, rfl, rfl, ?_, ?_, ?_⟩,
    spared new_least _ hphase h.flight⟩
  · rintro ⟨body, hbody, -⟩
    exact hbody.not_refuses (refuses_longToken s.version)
  · exact Frame.encode_of_refuses (refuses_longToken s.version)
  · rintro ⟨body, hbody, hlong⟩
    rw [hbody.unique (writes_signal .heartbeat s.version)] at hlong
    cases hlong

/-- A message whose body is too long is sent, and then a heartbeat. The writer ends, both calls are
told that the connection is closed, and the client is disconnected. -/
lemma ends_of_overlong {m : Message} {body : Bytes} {len : Nat}
    (hbody : ∀ version, (m.write version).Writes body) (hlength : body.length = len)
    (hlong : Frame.maxBodyLen < len) :
    let c := least.playAll (firsts (sending m))
    let c' := c.move (.act (.writing 0))
    c.state = .ready ∧ ({ seq := 3, version := 2, message := m } : Frame).encode =
        .error (.frameTooLarge len Frame.maxBodyLen) ∧
      c'.Learned 0 (.error .connectionClosed) ∧ c'.Learned 1 (.error .connectionClosed) ∧
      (c'.move (.act (.reading 0))).state = .disconnected := by
  intro c c'
  subst hlength
  obtain ⟨s, holder, hphase, h⟩ := holds_sending m
  obtain ⟨hwaits, -⟩ := waits_playAll new_least (firsts (sending m)) hphase
  rw [Session.ahead_eq_items h.flight, h.items] at hwaits
  obtain ⟨len, hhalts⟩ := halts_of_overlong hphase h.flight h.items
    ⟨body, hbody s.version, hlong⟩ hwaits
  refine ⟨h.state, ?_, ?_, ?_, hhalts.ended h.stage h.silent h.calm⟩
  · rw [Frame.encode, Frame.encodeInto_of_overlong (hbody 2) hlong]
  · exact hhalts.told _ List.mem_cons_self 0 rfl
  · exact hhalts.told _ (List.mem_cons_of_mem _ List.mem_cons_self) 1 rfl

/-- A notice with a body of 2^32 octets cannot be encoded. That ends the session instead of being
reported to the caller, and the heartbeat behind it is lost. -/
theorem ends_by_notice :
    let m : Message := .notice .system (List.replicate 0x100000000 0)
    let c := least.playAll (firsts (sending m))
    let c' := c.move (.act (.writing 0))
    c.state = .ready ∧ ({ seq := 3, version := 2, message := m } : Frame).encode =
        .error (.frameTooLarge 0x100000000 Frame.maxBodyLen) ∧
      c'.Learned 0 (.error .connectionClosed) ∧ c'.Learned 1 (.error .connectionClosed) ∧
      (c'.move (.act (.reading 0))).state = .disconnected :=
  ends_of_overlong (fun _ => Writing.writes_append _) List.length_replicate (by decide)

end Client

end Parley
