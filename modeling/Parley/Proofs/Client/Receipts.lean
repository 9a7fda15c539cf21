import Parley.Proofs.Client.Phases
import Parley.Proofs.Client.Stored
import Parley.Proofs.Session.Waiters

/-!
# Receipts and the calls that wait for them

A call that waits for the receipt of its frame has a waiter in the tracker of its connection, under
the number of the frame. Main statement: `Journal.Registered.ofTurns`.
-/

namespace Parley

def Slot.toOption {α : Type} : Slot α → Option α
  | .full a => some a
  | _ => none

def inHandOf : Option Phase → List Outgoing
  | some (.established s _) => (s.flight.map (·.item)).toList
  | _ => []

def trackerOf : Option Phase → Tracker Nat
  | some (.established s _) => s.tracker
  | _ => .empty

namespace Client

def waiter? (c : Client) (i : Nat) (seq : Int32) : Option Nat :=
  (trackerOf (c.phase? i)).waiter? seq

def nextReceipt? (c : Client) (i : Nat) : Option Ack :=
  (sessionOf? (c.phase? i)).bind (·.nextReceipt?)

def receipt? (c : Client) (k : Nat) : Option Ack := (c.calls[k]?).bind (·.receipt.toOption)

/-! ## What calls are told -/

section Telling
variable {c c' : Client} {i k : Nat} {a : Ack} {s : Session} {holder : Holder}

lemma waiter?_of_phase? (hphase : c.phase? i = some (.established s holder)) (seq : Int32) :
    c.waiter? i seq = s.tracker.waiter? seq := by
  rw [waiter?, hphase]
  rfl

lemma nextReceipt?_of_phase? (hphase : c.phase? i = some (.established s holder)) :
    c.nextReceipt? i = s.nextReceipt? := by
  rw [nextReceipt?, hphase]
  rfl

lemma receipt?_congr (h : c'.calls = c.calls) (k : Nat) : c'.receipt? k = c.receipt? k := by
  rw [receipt?, receipt?, h]

lemma receipt?_setStage (c : Client) (k' : Nat) (stage : CallStage) (k : Nat) :
    (c.setStage k' stage).receipt? k = c.receipt? k := by
  unfold receipt? setStage
  by_cases hk : k' = k
  · subst hk
    rw [List.getElem?_modify_eq]
    cases c.calls[k']? <;> rfl
  · rw [List.getElem?_modify_ne _ _ hk]

lemma receipt?_applyNotes {notes : List Note} (h : (c.applyNotes notes).receipt? k = some a) :
    c.receipt? k = some a ∨ .receipted k a ∈ notes := by
  obtain ⟨call', hcall', hfull⟩ := Option.bind_eq_some_iff.mp h
  have hfull' : call'.receipt = .full a := by
    cases hreceipt : call'.receipt <;> simp_all [Slot.toOption]
  obtain ⟨call, hcall, hhears⟩ := hears_applyNotes hcall'
  rcases hhears.receipt with ⟨heq, -⟩ | ⟨n, hn, hslot⟩
  · refine .inl ?_
    rw [receipt?, hcall, Option.bind_some, ← heq, hfull']
    rfl
  · exact .inr (Note.eq_of_receipt? (hfull' ▸ hslot) ▸ hn)

lemma not_receipted_of_written {s' : Session} {notes : List Note} (h : s.Written s' notes) :
    .receipted k a ∉ notes := by
  cases h <;> simp [Session.numberedNote]

lemma calls_of_connecting (h : c.act? (.connecting i) = some c') : c'.calls = c.calls := by
  simp only [act?] at h
  split at h
  · rename_i id g link hconnection
    cases g with
    | done result =>
      obtain rfl := Option.some.inj h
      cases result <;> rfl
    | writing octets =>
      obtain ⟨⟨g', link'⟩, hstep, rfl⟩ := Option.map_eq_some_iff.mp h
      rfl
    | awaiting deadline =>
      obtain ⟨⟨g', link'⟩, hstep, rfl⟩ := Option.map_eq_some_iff.mp h
      rfl
  · rw [startup?] at h
    split at h
    · cases h
      rfl
    · cases h
      rfl
    · cases h
    · cases h
      rfl
  · cases h

lemma calls_of_holding (h : c.act? (.holding i) = some c') : c'.calls = c.calls := by
  simp only [act?] at h
  split at h
  · rename_i s id b w hphase
    rw [wait?] at h
    split at h
    · split at h
      · cases h
        rfl
      · cases h
        rfl
      · cases h
        rfl
    · split at h
      · cases h
        rfl
      · cases h
  · rw [close?] at h
    split at h
    · cases h
      rfl
    · cases h
  · cases h

lemma calls_applyNotes_congr {d : Client} (h : c.calls = d.calls) (notes : List Note) :
    (c.applyNotes notes).calls = (d.applyNotes notes).calls := by
  induction notes generalizing c d with
  | nil => exact h
  | cons n notes ih =>
    refine ih ?_
    cases n <;> simp only [applyNote, h]

/-- What a turn makes of the calls of a client. -/
inductive CallsPlayed (c : Client) (t : Turn) (calls : List Call) : Prop
  | wrote (i : Nat) (s s' : Session) (holder : Holder) (notes : List Note)
    (hmove : t.move = .act (.writing i)) (hphase : c.phase? i = some (.established s holder))
    (hwrite : s.write? = some (s', notes)) (h : calls = (c.applyNotes notes).calls)
  | heard (i : Nat) (s : Session) (holder : Holder) (step : Session.Step)
    (hmove : t.move = .act (.reading i)) (hphase : c.phase? i = some (.established s holder))
    (hstep : (s.choices c.progress c.now)[t.choice]? = some step)
    (h : calls = (c.applyNotes step.notes).calls)
  | stepped (k : Nat) (stage : CallStage) (hmove : t.move = .act (.calling k))
    (h : calls = (c.setStage k stage).calls)
  | started (new : List Call)
    (hnew : new = [] ∨ ∃ call, new = [call] ∧ Call.Starts call c.calls.length ∧
      (c.handle? call.connection).isSome)
    (h : calls = c.calls ++ new)

lemma callsPlayed_of_eq {t : Turn} {calls : List Call} (h : calls = c.calls) :
    CallsPlayed c t calls :=
  .started [] (.inl rfl) (by rw [h, List.append_nil])

lemma callsPlayed_send {t : Turn} {d : Client} (hcalls : d.calls = c.calls)
    (hhandle : (c.handle? i).isSome) (s : Session) (id : String) (wants : Wants) (m : Message)
    (flags : Flags) : CallsPlayed c t (d.send i s id wants m flags).calls := by
  rw [send]
  split
  · refine .started [_] (.inr ⟨_, rfl, ⟨rfl, rfl, .inr ⟨_, rfl, ?_, ?_⟩⟩, hhandle⟩)
      (congrArg (· ++ [_]) hcalls)
    · exact congrArg (fun calls => some calls.length) hcalls
    · rfl
  · exact callsPlayed_of_eq hcalls

theorem calls_play (c : Client) (t : Turn) : CallsPlayed c t (c.play t).calls := by
  obtain ⟨m, n⟩ := t
  cases m with
  | act actor =>
    by_cases hreading : ∃ i, actor = .reading i
    · obtain ⟨i, rfl⟩ := hreading
      simp only [play, choose]
      split
      · rename_i s holder hphase
        cases hstep : (s.choices c.progress c.now)[n]? with
        | none => exact callsPlayed_of_eq rfl
        | some step =>
          refine .heard i s holder step rfl hphase hstep ?_
          change (applyNotes _ step.notes).calls = _
          exact calls_applyNotes_congr (by rfl) step.notes
      · exact callsPlayed_of_eq rfl
    · rw [play_of_ne fun i hi => hreading ⟨i, Move.act.inj hi⟩, move]
      cases hact : c.act? actor with
      | none => exact callsPlayed_of_eq rfl
      | some c' =>
        rw [Option.getD_some]
        cases actor with
        | connecting i => exact callsPlayed_of_eq (calls_of_connecting hact)
        | holding i => exact callsPlayed_of_eq (calls_of_holding hact)
        | reading i => exact absurd ⟨i, rfl⟩ hreading
        | writing i =>
          simp only [act?] at hact
          split at hact
          · rename_i s holder hphase
            obtain ⟨⟨s', notes⟩, hwrite, rfl⟩ := Option.map_eq_some_iff.mp hact
            refine .wrote i s s' holder notes rfl hphase hwrite ?_
            change (applyNotes _ notes).calls = _
            exact calls_applyNotes_congr (by rfl) notes
          · cases hact
        | calling k =>
          obtain ⟨call, s, holder, -, hcallOn⟩ := callOn?_of_act? hact
          rcases calls_callOn? hcallOn with h | ⟨stage, h⟩
          · exact callsPlayed_of_eq h
          · exact .stepped k stage rfl h
  | connect id =>
    obtain ⟨token, tokens, hnext⟩ := nextToken_eq { c with state := .authenticating }
    simp only [play, move, connect, hnext]
    cases token <;> exact callsPlayed_of_eq rfl
  | happen i e =>
    simp only [play, move, happen]
    split <;> exact callsPlayed_of_eq rfl
  | send i id wants message flags =>
    simp only [play, move]
    split
    · rename_i s holder hhandle
      exact callsPlayed_send rfl (by rw [hhandle]; rfl) s id wants message flags
    · exact callsPlayed_of_eq rfl
  | trackGroup i id g =>
    simp only [play, move]
    split
    · rename_i s holder hhandle
      simp only [trackGroup]
      split
      · refine callsPlayed_send ?_ (by rw [hhandle]; rfl) s id _ _ _
        rfl
      · exact callsPlayed_of_eq rfl
    · exact callsPlayed_of_eq rfl
  | awaitStopped i id =>
    simp only [play, move]
    split
    · rename_i found hhandle
      exact .started [_] (.inr ⟨_, rfl, ⟨rfl, rfl, .inl rfl⟩, by rw [hhandle]; rfl⟩) rfl
    · exact callsPlayed_of_eq rfl
  | close i =>
    simp only [play, move, close]
    split <;> exact callsPlayed_of_eq rfl
  | recv i =>
    simp only [play, move]
    split
    · rw [recv]
      split
      · exact callsPlayed_of_eq rfl
      · split <;> exact callsPlayed_of_eq rfl
    · exact callsPlayed_of_eq rfl
  | waitFor i id pred =>
    simp only [play, move]
    split
    · rw [waitFor]
      split <;> exact callsPlayed_of_eq rfl
    · exact callsPlayed_of_eq rfl
  | cancelWait i =>
    simp only [play, move, cancelWait]
    split <;> exact callsPlayed_of_eq rfl
  | dropSession i =>
    simp only [play, move]
    split <;> exact callsPlayed_of_eq rfl
  | closeSession i id =>
    simp only [play, move]
    split <;> exact callsPlayed_of_eq rfl
  | connectTcp id => exact callsPlayed_of_eq rfl
  | pass ms => exact callsPlayed_of_eq rfl

lemma stage_play {t : Turn} {call' : Call} (hcall' : (c.play t).calls[k]? = some call')
    (hmove : t.move ≠ .act (.calling k)) : (k = c.calls.length ∧ Call.Starts call' k) ∨
      ∃ call, c.calls[k]? = some call ∧ call'.stage = call.stage := by
  cases c.calls_play t with
  | wrote i s s' holder notes hmove' hphase hwrite hcalls =>
    obtain ⟨call, hcall, hhears⟩ := hears_applyNotes (hcalls ▸ hcall')
    exact .inr ⟨call, hcall, hhears.stage⟩
  | heard i s holder step hmove' hphase hstep hcalls =>
    obtain ⟨call, hcall, hhears⟩ := hears_applyNotes (hcalls ▸ hcall')
    exact .inr ⟨call, hcall, hhears.stage⟩
  | stepped k' stage hmove' hcalls =>
    have hk : k' ≠ k := by
      rintro rfl
      exact hmove hmove'
    rw [hcalls, setStage, List.getElem?_modify_ne _ _ hk] at hcall'
    exact .inr ⟨call', hcall', rfl⟩
  | started new hnew hcalls =>
    rw [hcalls] at hcall'
    rcases Nat.lt_or_ge k c.calls.length with hk | hk
    · rw [List.getElem?_append_left hk] at hcall'
      exact .inr ⟨call', hcall', rfl⟩
    · rw [List.getElem?_append_right hk] at hcall'
      rcases hnew with rfl | ⟨call, rfl, hstarts, -⟩
      · cases hcall'
      · obtain ⟨hk', rfl⟩ : k - c.calls.length = 0 ∧ call = call' := by
          simpa [List.getElem?_singleton] using hcall'
        obtain rfl : k = c.calls.length := by omega
        exact .inl ⟨rfl, hstarts⟩

lemma call_unmoved {t : Turn} {call : Call} (hcall : c.calls[k]? = some call)
    (hmove : t.move ≠ .act (.calling k)) : ∃ call', (c.play t).calls[k]? = some call' ∧
      call'.connection = call.connection ∧ call'.stage = call.stage := by
  obtain ⟨call', hcall', hconnection, -⟩ := Journal.call_kept (j := { client := c }) (t := t) hcall
  rcases stage_play hcall' hmove with ⟨hk, -⟩ | ⟨call₁, hcall₁, hstage⟩
  · rw [List.getElem?_eq_none hk.ge] at hcall
    cases hcall
  · obtain rfl := Option.some.inj (hcall.symm.trans hcall₁)
    exact ⟨call', hcall', hconnection, hstage⟩

/-- A call gets a receipt only when the reading side of a connection takes it in, and only if the
call waits there for its number. -/
theorem receipt?_play {t : Turn} (h : (c.play t).receipt? k = some a) :
    c.receipt? k = some a ∨ ∃ i, t = .first (.act (.reading i)) ∧ c.nextReceipt? i = some a ∧
      c.waiter? i a.seq = some k := by
  cases c.calls_play t with
  | wrote i s s' holder notes hmove hphase hwrite hcalls =>
    rw [receipt?_congr hcalls] at h
    exact .inl ((receipt?_applyNotes h).resolve_right
      (not_receipted_of_written (Session.written_of_write? hwrite)))
  | heard i s holder step hmove hphase hstep hcalls =>
    rw [receipt?_congr hcalls] at h
    rcases receipt?_applyNotes h with h | h
    · exact .inl h
    · obtain ⟨hn, hnext, hwaiter⟩ := Session.receipted_of_choice hstep h
      refine .inr ⟨i, ?_, (nextReceipt?_of_phase? hphase).trans hnext,
        (waiter?_of_phase? hphase a.seq).trans hwaiter⟩
      rw [Turn.first, ← hmove, ← hn]
  | stepped k' stage hmove hcalls =>
    rw [receipt?_congr hcalls, receipt?_setStage] at h
    exact .inl h
  | started new hnew hcalls =>
    obtain ⟨call, hcall, hreceipt⟩ := Option.bind_eq_some_iff.mp h
    rw [hcalls] at hcall
    rcases Nat.lt_or_ge k c.calls.length with hk | hk
    · rw [List.getElem?_append_left hk] at hcall
      exact .inl (Option.bind_eq_some_iff.mpr ⟨call, hcall, hreceipt⟩)
    · -- a call starts without a receipt
      rw [List.getElem?_append_right hk] at hcall
      rcases hnew with rfl | ⟨call', rfl, hstarts, -⟩
      · cases hcall
      · obtain rfl : call' = call := List.mem_singleton.mp (List.mem_of_getElem? hcall) |>.symm
        rw [hstarts.receipt] at hreceipt
        cases hreceipt

theorem receipt?_playAll {ts : List Turn} (h : (c.playAll ts).receipt? k = some a) :
    c.receipt? k = some a ∨ ∃ before after i, ts = before ++ .first (.act (.reading i)) :: after ∧
      (c.playAll before).nextReceipt? i = some a ∧
      (c.playAll before).waiter? i a.seq = some k := by
  induction ts using List.reverseRecOn with
  | nil => exact .inl h
  | append_singleton ts t ih =>
    rw [playAll_append] at h
    rcases receipt?_play h with h | ⟨i, rfl, hnext, hwaiter⟩
    · rcases ih h with h | ⟨before, after, i, rfl, hnext, hwaiter⟩
      · exact .inl h
      · exact .inr ⟨before, after ++ [t], i, by simp, hnext, hwaiter⟩
    · exact .inr ⟨ts, [], i, rfl, hnext, hwaiter⟩

lemma read?_of_nextRaw {raw : RawFrame} {link : Link} (hstage : s.stage = .live [])
    (hraw : s.link.nextRaw = (some (.ok raw), link)) :
    ∃ step, s.read? c.progress c.now = some step ∧ step.notes =
      (dispatch c.progress s.tracker raw).receipt.toList.map fun (k, a) => .receipted k a := by
  unfold Session.read? Session.readFrame
  rw [hstage, hraw]
  exact ⟨_, rfl, rfl⟩

/-- A receipt is for the call that waits for its number, and for no other one. -/
theorem calls_of_nextReceipt? (h : c.nextReceipt? i = some a) :
    (c.play (.first (.act (.reading i)))).calls =
      match c.waiter? i a.seq with
      | some k => c.calls.modify k fun call => { call with receipt := .full a }
      | none => c.calls := by
  obtain ⟨s, hs, hnext⟩ := Option.bind_eq_some_iff.mp h
  unfold sessionOf? at hs
  split at hs
  · rename_i s' holder hphase
    cases hs
    unfold Session.nextReceipt? at hnext
    split at hnext
    · rename_i raw link hstage hraw
      obtain ⟨step, hread, hnotes⟩ := read?_of_nextRaw (c := c) hstage hraw
      -- A frame at hand is what the reading side takes first.
      have hact : c.act? (.reading i) = some (c.hear i holder step) := by
        simp only [act?, hphase, read?_eq, hread, Option.map_some]
      rw [waiter?_of_phase? hphase, play_first, move, hact]
      rw [dispatch_of_receipt? _ _ _ hnext] at hnotes
      change ({ c with
        progress := step.progress
        state := if step.ended then .disconnected else c.state }.setPhase i _ |>.applyNotes
          step.notes).calls = _
      rw [hnotes]
      cases s.tracker.waiter? a.seq <;> rfl
    · cases hnext
  · cases hs

end Telling

end Client

/-! ## Who waits under which number -/

/-- Every waiter is that of an item which the writer has taken, under the number of its frame. -/
def Registers (version : UInt8) (taken : List Outgoing) (t : Tracker Nat) : Prop :=
  ∀ seq k, t.waiter? seq = some k → ∃ before item octets, before ++ [item] <+: taken ∧
    item.caller = some k ∧ numberBehind version firstSeq before = seq ∧
    (item.frame version seq).encode = .ok octets

section Registers
variable {version : UInt8} {taken taken' : List Outgoing} {t t' : Tracker Nat}

lemma registers_empty (version : UInt8) (taken : List Outgoing) :
    Registers version taken .empty := fun _ _ h => nomatch h

lemma Registers.mono (h : Registers version taken t) (hwithin : t'.Within t)
    (htaken : taken <+: taken') : Registers version taken' t' := by
  intro seq k hk
  obtain ⟨before, item, octets, hplace, hcaller, hseq, hencode⟩ := h seq k (hwithin seq k hk)
  exact ⟨before, item, octets, hplace.trans htaken, hcaller, hseq, hencode⟩

lemma Registers.numbered {item : Outgoing} {octets : Bytes} {seq : Int32}
    (h : Registers version taken t) (hseq : seq = numberBehind version firstSeq taken)
    (hencode : (item.frame version seq).encode = .ok octets)
    (htracker : ∀ seq', t'.waiter? seq' = t.waiter? seq' ∨
      seq' = seq ∧ t'.waiter? seq' = item.caller) : Registers version (taken ++ [item]) t' := by
  intro seq' k hk
  rcases htracker seq' with hsame | ⟨rfl, hnew⟩
  · exact h.mono (.refl t) (List.prefix_append _ _) seq' k (hsame.symm.trans hk)
  · exact ⟨taken, item, octets, List.prefix_refl _, hnew.symm.trans hk, hseq.symm, hencode⟩

lemma Registers.forgotten {item : Outgoing} (h : Registers version (taken ++ [item]) t)
    (hwithin : t'.Within t) (hnone : t'.waiter? (numberBehind version firstSeq taken) = none) :
    Registers version taken t' := by
  intro seq k hk
  obtain ⟨before, item', octets, hplace, hcaller, rfl, hencode⟩ := h seq k (hwithin seq k hk)
  rcases List.prefix_concat_iff.mp hplace with hlast | hplace
  · obtain ⟨rfl, -⟩ := List.append_inj' hlast rfl
    rw [hnone] at hk
    cases hk
  · exact ⟨before, item', octets, hplace, hcaller, rfl, hencode⟩

lemma passed_of_length_le {phase phase' : Option Phase}
    (h : (aheadOf phase).length ≤ (aheadOf phase').length) : passed phase phase' = [] := by
  unfold passed
  rw [Nat.sub_eq_zero_of_le h, List.take_zero, ite_self]

lemma passed_of_cons {phase phase' : Option Phase} {item : Outgoing}
    (hopen : writesOf phase' = true) (h : aheadOf phase = item :: aheadOf phase') :
    passed phase phase' = [item] := by
  unfold passed
  rw [if_pos hopen, h, List.length_cons, Nat.add_sub_cancel_left]
  rfl

end Registers

section Tracks
variable {config : Config} {queued behind : List Outgoing} {wire : Bytes} {s s' : Session}
  {holder holder' : Holder} {flight : Flight} {item : Outgoing} {items : List Outgoing}

lemma aheadOf_established (s : Session) (holder : Holder) :
    aheadOf (some (.established s holder)) =
      inHandOf (some (.established s holder)) ++ s.outbox.items := rfl

lemma inHandOf_of_none (h : s.flight = none) (holder : Holder) :
    inHandOf (some (.established s holder)) = [] := by
  change (s.flight.map (·.item)).toList = []
  rw [h]
  rfl

lemma inHandOf_of_some (h : s.flight = some flight) (holder : Holder) :
    inHandOf (some (.established s holder)) = [flight.item] := by
  change (s.flight.map (·.item)).toList = [flight.item]
  rw [h]
  rfl

lemma onCourse_of_ahead (hlane : Lane config queued behind wire (some (.established s holder)))
    (hahead : s.sending.ahead ≠ []) : OnCourse config queued behind wire s.sending := by
  cases hlane with
  | writing s holder h => exact h
  | stopped s holder hopen hnil h => exact absurd hnil hahead

lemma onCourse_of_flight (hlane : Lane config queued behind wire (some (.established s holder)))
    (hflight : s.flight = some flight) : OnCourse config queued behind wire s.sending := by
  apply onCourse_of_ahead hlane
  simp [Sending.ahead, Session.sending, hflight]

lemma onCourse_of_items (hlane : Lane config queued behind wire (some (.established s holder)))
    (hitems : s.outbox.items ≠ []) : OnCourse config queued behind wire s.sending := by
  apply onCourse_of_ahead hlane
  simp [Sending.ahead, Session.sending, hitems]

lemma OnCourse.seq_of_flight (h : OnCourse config queued behind wire s.sending)
    (hflight : s.flight = some flight) :
    flight.seq = numberBehind config.connection.protocolVersion firstSeq behind ∧
      ∃ octets, (flight.item.frame config.connection.protocolVersion flight.seq).encode =
        .ok octets := by
  obtain ⟨auth, part, -, -, -, hsome⟩ := h.wire
  obtain ⟨hseq, hencode⟩ := hsome flight hflight
  exact ⟨hseq.trans h.nextSeq, _, hencode⟩

/-- A step of a session keeps its waiters at their items. -/
theorem Registers.tracks
    (h : Registers config.connection.protocolVersion
      (behind ++ inHandOf (some (.established s holder))) s.tracker)
    (hlane : Lane config queued behind wire (some (.established s holder)))
    (htracks : s.Tracks s') :
    Registers config.connection.protocolVersion
      (behind ++ passed (some (.established s holder)) (some (.established s' holder')) ++
        inHandOf (some (.established s' holder'))) s'.tracker := by
  cases htracks with
  | kept more hflight hitems hopen htracker =>
    have hhand : inHandOf (some (.established s' holder')) =
        inHandOf (some (.established s holder)) := congrArg Option.toList hflight
    rw [passed_of_length_le, List.append_nil, hhand]
    · exact h.mono htracker (List.prefix_refl _)
    · rw [aheadOf_established, aheadOf_established, hhand, hitems]
      simp
  | numbered item items octets hflight hitems hencode hflight' hitems' hopen htracker =>
    have hcourse := onCourse_of_items hlane (by simp [hitems])
    have hlength : (aheadOf (some (.established s holder))).length ≤
        (aheadOf (some (.established s' holder'))).length := by
      rw [aheadOf_established, aheadOf_established, inHandOf_of_none hflight,
        inHandOf_of_some hflight', hitems, hitems']
      simp
    rw [inHandOf_of_none hflight, List.append_nil] at h
    rw [passed_of_length_le hlength, List.append_nil, inHandOf_of_some hflight']
    have hencode' : (item.frame config.connection.protocolVersion s.nextSeq).encode =
        .ok octets := by
      rw [← hcourse.version]
      exact hencode
    exact h.numbered hcourse.nextSeq hencode' htracker
  | skipped item items hflight hitems hflight' hitems' hopen htracker =>
    have hcourse := onCourse_of_items hlane (by simp [hitems])
    have hpassed : passed (some (.established s holder)) (some (.established s' holder')) =
        [item] := by
      refine passed_of_cons (hopen.trans hcourse.isOpen :) ?_
      rw [aheadOf_established, aheadOf_established, inHandOf_of_none hflight,
        inHandOf_of_none hflight', hitems, hitems']
      rfl
    rw [inHandOf_of_none hflight, List.append_nil] at h
    rw [hpassed, List.append_assoc]
    exact h.mono htracker (List.prefix_append _ _)
  | completed flight hflight hflight' hitems' hopen htracker =>
    have hcourse := onCourse_of_flight hlane hflight
    have hpassed : passed (some (.established s holder)) (some (.established s' holder')) =
        [flight.item] := by
      refine passed_of_cons (hopen.trans hcourse.isOpen :) ?_
      rw [aheadOf_established, aheadOf_established, inHandOf_of_some hflight,
        inHandOf_of_none hflight', hitems']
      rfl
    rw [inHandOf_of_some hflight] at h
    rw [hpassed, htracker, inHandOf_of_none hflight']
    exact h.mono (.refl _) (List.prefix_append _ _)
  | stopped hflight' hitems' hclosed htracker hforgotten =>
    have hpassed : passed (some (.established s holder)) (some (.established s' holder')) = [] := by
      unfold passed
      rw [if_neg]
      change ¬ s'.outbox.isOpen = true
      rw [hclosed]
      decide
    rw [hpassed, List.append_nil, inHandOf_of_none hflight', List.append_nil]
    cases hflight : s.flight with
    | none =>
      rw [inHandOf_of_none hflight, List.append_nil] at h
      exact h.mono htracker (List.prefix_refl _)
    | some flight =>
      rw [inHandOf_of_some hflight] at h
      -- The number of the frame in hand is the one behind, and its waiter has been forgotten.
      obtain ⟨hseq, -⟩ := (onCourse_of_flight hlane hflight).seq_of_flight hflight
      exact h.forgotten htracker (hseq ▸ hforgotten flight hflight)

end Tracks

/-- What a move does to the tracker of a connection. -/
inductive Tracked : Option Phase → Option Phase → Prop
  | same (phase : Option Phase) : Tracked phase phase
  | empty (phase phase' : Option Phase) (h : trackerOf phase' = .empty) :
    Tracked phase phase'
  | session (s s' : Session) (holder holder' : Holder) (h : s.Tracks s') :
    Tracked (some (.established s holder)) (some (.established s' holder'))

namespace Client

lemma tracked_of_setPhase {c c' d : Client} {j : Nat} {old new : Phase}
    (hphases : ∀ i, c'.phase? i = (d.setPhase j new).phase? i) (hold : c.phase? j = some old)
    (hd : ∀ i, d.phase? i = c.phase? i) (h : Tracked (some old) (some new)) (i : Nat) :
    Tracked (c.phase? i) (c'.phase? i) := by
  rcases phase?_of_setPhase hphases hold hd i with ⟨-, hold', hnew⟩ | ⟨-, hsame⟩
  · rw [hold', hnew]
    exact h
  · rw [hsame]
    exact .same _

theorem Moved.tracked {c c' : Client} (h : c.Moved c') (i : Nat) :
    Tracked (c.phase? i) (c'.phase? i) := by
  have hsame (h : c'.phase? i = c.phase? i) : Tracked (c.phase? i) (c'.phase? i) := by
    rw [h]
    exact .same _
  cases h with
  | still h => exact hsame (phase?_congr h i)
  | joined id phase hphase h =>
    rw [phase?_congr h, phase?_append]
    split
    · rcases hphase with rfl | ⟨token, rfl⟩
      · exact .empty _ _ rfl
      · exact .empty _ _ rfl
    · exact .same _
  | called new engine hnew hengine h => exact hsame (phase?_congr h i)
  | greeted j g g' link link' hphase hstep h =>
    exact tracked_of_setPhase (phase?_congr h) hphase (fun _ => rfl) (.empty _ _ rfl) i
  | befell j g link e hphase h =>
    exact tracked_of_setPhase (phase?_congr h) hphase (fun _ => rfl) (.empty _ _ rfl) i
  | rejected j e link hphase h =>
    exact tracked_of_setPhase (phase?_congr h) hphase (fun _ => rfl) (.empty _ _ rfl) i
  | began j link hphase h =>
    exact tracked_of_setPhase (phase?_congr h) hphase (fun _ => rfl) (.empty _ _ rfl) i
  | failed j s holder hphase hstartup h =>
    exact tracked_of_setPhase (phase?_congr h) hphase (fun _ => rfl) (.empty _ _ rfl) i
  | session j s s' holder holder' p' notes hphase hmoved h =>
    exact tracked_of_setPhase (fun i => (phase?_congr h i).trans (phase?_applyNotes _ notes i))
      hphase (fun _ => rfl) (.session s s' holder holder' hmoved.tracks) i
  | offered k call item s holder outbox hcall hstage hphase hoffer h =>
    have hphases := phase?_congr h
    exact tracked_of_setPhase hphases hphase (fun _ => rfl)
      (.session s { s with outbox } holder holder
        (Session.tracks_of_offer (.inl hoffer) rfl rfl rfl)) i
  | lined k call item s holder outbox hcall hstage hphase hoffer h =>
    exact tracked_of_setPhase (phase?_congr h) hphase (fun _ => rfl)
      (.session s { s with outbox } holder holder
        (Session.tracks_of_offer (.inr hoffer) rfl rfl rfl)) i
  | settled k call stage hcall hstage h => exact hsame (phase?_congr h i)
  | expired k call s holder seq deadline hcall hstage hreceipt hdue hphase h =>
    have hphases := phase?_congr h
    exact tracked_of_setPhase hphases hphase (fun _ => rfl)
      (.session s (s.forget seq).1 holder holder
        (Session.tracks_of_tracker rfl rfl (s.tracker.within_erase seq))) i

end Client

namespace Journal
variable {j : Journal} {i k : Nat} {seq : Int32}

/-- Every waiter is that of an item which the writer of its connection has taken. -/
def Registered (j : Journal) : Prop :=
  ∀ i, Registers j.version (j.behind i ++ inHandOf (j.client.phase? i))
    (trackerOf (j.client.phase? i))

lemma version_play (j : Journal) (t : Client.Turn) : (j.play t).version = j.version := by
  rw [version, config_play]
  rfl

theorem Registered.play (h : j.Registered) (hsound : j.Sound) (t : Client.Turn) :
    (j.play t).Registered := by
  intro i
  have hlane := hsound.lanes i
  have hregisters := h i
  have htracked := (j.client.moved_play t).tracked i
  rw [version_play, behind_play]
  change Registers _ (_ ++ _ ++ inHandOf ((j.client.play t).phase? i))
    (trackerOf ((j.client.play t).phase? i))
  generalize j.client.phase? i = phase at hlane hregisters htracked ⊢
  generalize (j.client.play t).phase? i = phase' at htracked ⊢
  cases htracked with
  | same => rwa [passed_self, List.append_nil]
  | empty _ _ hempty =>
    rw [hempty]
    exact registers_empty _ _
  | session s s' holder holder' htracks => exact hregisters.tracks hlane htracks

lemma registered_start {c : Client} (hconnections : c.connections = []) :
    Registered { client := c } := by
  intro i
  have hphase : c.phase? i = none := by
    rw [Client.phase?, hconnections]
    rfl
  change Registers _ _ (trackerOf (c.phase? i))
  rw [hphase]
  exact registers_empty _ _

theorem Registered.ofTurns {c : Client} (hsound : Journal.Sound { client := c })
    (hconnections : c.connections = []) (ts : List Client.Turn) : (ofTurns c ts).Registered := by
  induction ts using List.reverseRecOn with
  | nil => exact registered_start hconnections
  | append_singleton ts t ih =>
    rw [ofTurns_concat]
    exact ih.play (hsound.ofTurns ts) t

/-- The frame of what a call asks to be sent has a number, the one behind those of the items queued
before it. -/
def Numbered (j : Journal) (i k : Nat) (seq : Int32) : Prop :=
  ∃ earlier item later octets, j.queued i = earlier ++ item :: later ∧ item.caller = some k ∧
    numberBehind j.version firstSeq earlier = seq ∧ (item.frame j.version seq).encode = .ok octets

lemma Sound.taken_prefix (hsound : j.Sound) (i : Nat) :
    j.behind i ++ inHandOf (j.client.phase? i) <+: j.queued i := by
  have hbehind := (hsound.laid i).1
  have hlane := hsound.lanes i
  generalize j.client.phase? i = phase at hlane
  cases hlane with
  | writing s holder h =>
    rw [h.queued]
    exact (List.prefix_append_right_inj _).mpr (List.prefix_append _ _)
  | stopped s holder hopen hahead h =>
    have hhand : inHandOf (some (.established s holder)) = [] :=
      (List.append_eq_nil_iff.mp hahead).1
    rwa [hhand, List.append_nil]
  | _ => exact (List.append_nil (j.behind i)).symm ▸ hbehind

lemma Registered.numbered (h : j.Registered) (hsound : j.Sound)
    (hk : j.client.waiter? i seq = some k) : j.Numbered i k seq := by
  obtain ⟨earlier, item, octets, hplace, hcaller, hseq, hencode⟩ := h i seq k hk
  obtain ⟨later, hqueued⟩ := hplace.trans (hsound.taken_prefix i)
  exact ⟨earlier, item, later, octets, by rw [← hqueued]; simp, hcaller, hseq, hencode⟩

lemma Numbered.play (h : j.Numbered i k seq) (t : Client.Turn) : (j.play t).Numbered i k seq := by
  obtain ⟨earlier, item, later, octets, hqueued, hcaller, hseq, hencode⟩ := h
  unfold Numbered
  rw [version_play, queued_play, hqueued]
  exact ⟨earlier, item, later ++ newly (j.client.phase? i) ((j.client.play t).phase? i), octets,
    by simp, hcaller, hseq, hencode⟩

lemma Numbered.foldl_play (h : j.Numbered i k seq) (ts : List Client.Turn) :
    (ts.foldl Journal.play j).Numbered i k seq := by
  induction ts generalizing j with
  | nil => exact h
  | cons t ts ih => exact ih (h.play t)

lemma Numbered.eq_of_fate (h : j.Numbered i k seq) (hsound : j.Sound) {call : Call}
    {item : Outgoing} {seq' : Int32} (hcall : j.client.calls[k]? = some call)
    (hasked : j.asked[k]? = some (some item))
    (hfate : j.Fate call.connection item (.full (.ok seq'))) :
    call.connection = i ∧ seq' = seq := by
  obtain ⟨earlier, item', later, octets, hqueued, hcaller, hseq, hencode⟩ := h
  obtain ⟨hasked', call', hcall', hconnection, -⟩ :=
    hsound.owned i k item' (by rw [hqueued]; simp) hcaller
  obtain rfl : call = call' := Option.some.inj (hcall.symm.trans hcall')
  obtain rfl := asked_unique hasked hasked'
  subst hconnection
  refine ⟨rfl, ?_⟩
  obtain ⟨more, hmore⟩ := (hsound.laid call.connection).1
  cases hfate with
  | written before after octets' hbehind hencode' =>
    have hplace : j.queued call.connection = before ++ item :: (after ++ more) := by
      rw [← hmore, hbehind]
      simp
    obtain rfl := hsound.place_unique hcaller hqueued hplace
    exact hseq

end Journal

end Parley
