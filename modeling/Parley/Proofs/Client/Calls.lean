import Parley.Proofs.Client.Lanes

/-!
# What becomes of calls

What a move does to a call (`Client.Moved.callMoved`), where the items that are newly queued on a
connection come from (`Client.Moved.origin_of_newly`), and what a call ends with
(`Client.callOn?_results`).
-/

namespace Parley

/-! ## What a call hears -/

/-- What a report says about the receipt of a call, and to which call. -/
def Note.receipt? : Note → Option (Nat × Slot Ack)
  | .receipted k a => some (k, .full a)
  | .unreceipted k => some (k, .broken)
  | _ => none

/-- The call that a report is for. -/
def Note.call : Note → Nat
  | .numbered k _ | .lost k | .receipted k _ | .unreceipted k => k

/-- What reports make of a call: each of its answers stays as it is, or becomes the last one that is
told. -/
structure Call.Hears (k : Nat) (notes : List Note) (call call' : Call) : Prop where
  kept : ∃ number receipt, call' = { call with number, receipt }
  number : (call'.number = call.number ∧ ∀ n ∈ notes, ∀ slot, n.slot? ≠ some (k, slot)) ∨
    ∃ n ∈ notes, n.slot? = some (k, call'.number)
  receipt : (call'.receipt = call.receipt ∧ ∀ n ∈ notes, ∀ slot, n.receipt? ≠ some (k, slot)) ∨
    ∃ n ∈ notes, n.receipt? = some (k, call'.receipt)

lemma Note.slot?_ne_empty (n : Note) (k : Nat) : n.slot? ≠ some (k, .empty) := by
  cases n <;> simp [Note.slot?]

lemma Note.receipt?_ne_empty (n : Note) (k : Nat) : n.receipt? ≠ some (k, .empty) := by
  cases n <;> simp [Note.receipt?]

lemma Note.eq_of_slot? {n : Note} {k : Nat} {result : Except Error Int32}
    (h : n.slot? = some (k, .full result)) : n = .numbered k result := by
  cases n <;> simp_all [Note.slot?]

lemma Note.eq_of_receipt? {n : Note} {k : Nat} {a : Ack} (h : n.receipt? = some (k, .full a)) :
    n = .receipted k a := by
  cases n <;> simp_all [Note.receipt?]

lemma Note.call_of_slot? {n : Note} {k : Nat} {slot : Slot (Except Error Int32)}
    (h : n.slot? = some (k, slot)) : n.call = k := by
  cases n <;> simp_all [Note.slot?, Note.call]

lemma Note.call_of_receipt? {n : Note} {k : Nat} {slot : Slot Ack}
    (h : n.receipt? = some (k, slot)) : n.call = k := by
  cases n <;> simp_all [Note.receipt?, Note.call]

namespace Call.Hears
variable {k : Nat} {notes notes' : List Note} {call call' call'' : Call}

lemma refl (k : Nat) (call : Call) : call.Hears k [] call :=
  ⟨⟨_, _, rfl⟩, .inl ⟨rfl, nofun⟩, .inl ⟨rfl, nofun⟩⟩

lemma trans (h : call.Hears k notes call') (h' : call'.Hears k notes' call'') :
    call.Hears k (notes ++ notes') call'' where
  kept := by
    obtain ⟨number, receipt, rfl⟩ := h.kept
    obtain ⟨number', receipt', rfl⟩ := h'.kept
    exact ⟨number', receipt', rfl⟩
  number := by
    rcases h'.number with ⟨heq', hnone'⟩ | ⟨n, hn, hslot⟩
    · rcases h.number with ⟨heq, hnone⟩ | ⟨n, hn, hslot⟩
      · exact .inl ⟨heq'.trans heq, fun n hn =>
          (List.mem_append.mp hn).elim (hnone n) (hnone' n)⟩
      · exact .inr ⟨n, List.mem_append_left _ hn, heq' ▸ hslot⟩
    · exact .inr ⟨n, List.mem_append_right _ hn, hslot⟩
  receipt := by
    rcases h'.receipt with ⟨heq', hnone'⟩ | ⟨n, hn, hslot⟩
    · rcases h.receipt with ⟨heq, hnone⟩ | ⟨n, hn, hslot⟩
      · exact .inl ⟨heq'.trans heq, fun n hn =>
          (List.mem_append.mp hn).elim (hnone n) (hnone' n)⟩
      · exact .inr ⟨n, List.mem_append_left _ hn, heq' ▸ hslot⟩
    · exact .inr ⟨n, List.mem_append_right _ hn, hslot⟩

lemma stage (h : call.Hears k notes call') : call'.stage = call.stage := by
  obtain ⟨number, receipt, rfl⟩ := h.kept
  rfl

lemma connection (h : call.Hears k notes call') : call'.connection = call.connection := by
  obtain ⟨number, receipt, rfl⟩ := h.kept
  rfl

lemma wants (h : call.Hears k notes call') : call'.wants = call.wants := by
  obtain ⟨number, receipt, rfl⟩ := h.kept
  rfl

lemma number_empty (h : call.Hears k notes call') (hempty : call'.number = .empty) :
    call.number = .empty ∧ ∀ n ∈ notes, ∀ slot, n.slot? ≠ some (k, slot) := by
  rcases h.number with ⟨heq, hnone⟩ | ⟨n, hn, hslot⟩
  · exact ⟨heq ▸ hempty, hnone⟩
  · exact absurd (hempty ▸ hslot) (n.slot?_ne_empty k)

lemma receipt_empty (h : call.Hears k notes call') (hempty : call'.receipt = .empty) :
    call.receipt = .empty ∧ ∀ n ∈ notes, ∀ slot, n.receipt? ≠ some (k, slot) := by
  rcases h.receipt with ⟨heq, hnone⟩ | ⟨n, hn, hslot⟩
  · exact ⟨heq ▸ hempty, hnone⟩
  · exact absurd (hempty ▸ hslot) (n.receipt?_ne_empty k)

lemma learnt (h : call.Hears k notes call') {result : Except Error Int32}
    (hfull : call'.number = .full result) :
    call.number = .full result ∨ .numbered k result ∈ notes := by
  rcases h.number with ⟨heq, -⟩ | ⟨n, hn, hslot⟩
  · exact .inl (heq ▸ hfull)
  · exact .inr (Note.eq_of_slot? (hfull ▸ hslot) ▸ hn)

lemma eq_of_forall_ne (h : call.Hears k notes call') (hne : ∀ n ∈ notes, n.call ≠ k) :
    call' = call := by
  obtain ⟨number, receipt, rfl⟩ := h.kept
  obtain ⟨rfl, -⟩ := h.number.resolve_right fun ⟨n, hn, hslot⟩ =>
    hne n hn (Note.call_of_slot? hslot)
  obtain ⟨rfl, -⟩ := h.receipt.resolve_right fun ⟨n, hn, hslot⟩ =>
    hne n hn (Note.call_of_receipt? hslot)
  rfl

end Call.Hears

namespace Client

lemma hears_applyNote {c : Client} {n : Note} {k : Nat} {call' : Call}
    (h : (c.applyNote n).calls[k]? = some call') :
    ∃ call, c.calls[k]? = some call ∧ call.Hears k [n] call' := by
  have htold {f : Call → Call} (hcalls : (c.calls.modify n.call f)[k]? = some call')
      (hf : ∀ call : Call, call.Hears n.call [n] (f call)) :
      ∃ call, c.calls[k]? = some call ∧ call.Hears k [n] call' := by
    by_cases hk : n.call = k
    · subst hk
      rw [List.getElem?_modify_eq] at hcalls
      obtain ⟨call, hcall, rfl⟩ := Option.map_eq_some_iff.mp hcalls
      exact ⟨call, hcall, hf call⟩
    · rw [List.getElem?_modify_ne _ _ hk] at hcalls
      refine ⟨call', hcalls, ⟨_, _, rfl⟩, .inl ⟨rfl, ?_⟩, .inl ⟨rfl, ?_⟩⟩
      · exact List.forall_mem_singleton.mpr fun slot hslot => hk (Note.call_of_slot? hslot)
      · exact List.forall_mem_singleton.mpr fun slot hslot => hk (Note.call_of_receipt? hslot)
  have hnone {p : Note → Prop} (h : p n) : ∀ n' ∈ [n], p n' := List.forall_mem_singleton.mpr h
  have hsome {p : Note → Prop} (h : p n) : ∃ n' ∈ [n], p n' := ⟨n, List.mem_singleton_self n, h⟩
  cases n with
  | numbered k' result =>
    exact htold h fun call => ⟨⟨_, _, rfl⟩, .inr (hsome rfl), .inl ⟨rfl, hnone nofun⟩⟩
  | lost k' => exact htold h fun call => ⟨⟨_, _, rfl⟩, .inr (hsome rfl), .inl ⟨rfl, hnone nofun⟩⟩
  | receipted k' a =>
    exact htold h fun call => ⟨⟨_, _, rfl⟩, .inl ⟨rfl, hnone nofun⟩, .inr (hsome rfl)⟩
  | unreceipted k' =>
    exact htold h fun call => ⟨⟨_, _, rfl⟩, .inl ⟨rfl, hnone nofun⟩, .inr (hsome rfl)⟩

lemma hears_applyNotes {c : Client} {notes : List Note} {k : Nat} {call' : Call}
    (h : (c.applyNotes notes).calls[k]? = some call') :
    ∃ call, c.calls[k]? = some call ∧ call.Hears k notes call' := by
  induction notes generalizing c with
  | nil => exact ⟨call', h, .refl k call'⟩
  | cons n notes ih =>
    obtain ⟨call, hcall, hhears⟩ := ih h
    obtain ⟨call₀, hcall₀, hhears₀⟩ := hears_applyNote hcall
    exact ⟨call₀, hcall₀, hhears₀.trans hhears⟩

lemma length_calls_applyNotes (c : Client) (notes : List Note) :
    (c.applyNotes notes).calls.length = c.calls.length := by
  induction notes generalizing c with
  | nil => rfl
  | cons n notes ih =>
    refine (ih _).trans ?_
    cases n <;> exact List.length_modify _ _ _

lemma exists_hears_applyNotes {c : Client} {k : Nat} {call : Call} (hcall : c.calls[k]? = some call)
    (notes : List Note) :
    ∃ call', (c.applyNotes notes).calls[k]? = some call' ∧ call.Hears k notes call' := by
  have hlt : k < (c.applyNotes notes).calls.length :=
    c.length_calls_applyNotes notes ▸ (List.getElem?_eq_some_iff.mp hcall).choose
  have hcall' := List.getElem?_eq_getElem hlt
  obtain ⟨call₀, hcall₀, hhears⟩ := hears_applyNotes hcall'
  obtain rfl : call = call₀ := Option.some.inj (hcall.symm.trans hcall₀)
  exact ⟨_, hcall', hhears⟩

/-! ## What a move does to a call -/

/-- A call is told something about its number on a connection. -/
structure Told (c c' : Client) (i k : Nat) (slot : Slot (Except Error Int32)) : Prop where
  session : ∃ s s' holder holder' origin out notes n,
    c.phase? i = some (.established s holder) ∧ c'.phase? i = some (.established s' holder') ∧
      Conveys origin s.sending s'.sending out notes ∧ n ∈ notes ∧ n.slot? = some (k, slot)

/-- How a move changes a call. -/
inductive CallMoved (c c' : Client) (k : Nat) : Option Call → Option Call → Prop
  | absent : CallMoved c c' k none none
  | started (call : Call) (hk : k = c.calls.length) (h : Call.Starts call k) :
    CallMoved c c' k none (some call)
  | same (call : Call) : CallMoved c c' k (some call) (some call)
  | queued (call : Call) (item : Outgoing) (hstage : call.stage = .offering item) :
    CallMoved c c' k (some call) (some { call with stage := .queued })
  | settled (call : Call) (stage : CallStage)
    (hstage : stage = .finished ∨ ∃ seq deadline, stage = .awaiting seq deadline ∧
      call.wants = .receipt ∧ call.stage = .queued ∧ call.number = .full (.ok seq)) :
    CallMoved c c' k (some call) (some { call with stage })
  | told (call : Call) (number : Slot (Except Error Int32)) (receipt : Slot Ack)
    (hnumber : number = call.number ∨ ∃ i, Told c c' i k number) :
    CallMoved c c' k (some call) (some { call with number, receipt })

lemma callMoved_of_eq {c c' : Client} {k : Nat} {call? call?' : Option Call}
    (h : call?' = call?) : CallMoved c c' k call? call?' := by
  subst h
  cases call?' with
  | none => exact .absent
  | some call => exact .same call

lemma callMoved_of_calls {c c' : Client} {k : Nat} (h : c'.calls = c.calls) :
    CallMoved c c' k c.calls[k]? c'.calls[k]? :=
  callMoved_of_eq (by rw [h])

lemma callMoved_setStage {c c' : Client} {k k' : Nat} {call : Call} {stage : CallStage}
    (hcalls : c'.calls = c.calls.modify k' fun call => { call with stage })
    (hcall : c.calls[k']? = some call)
    (h : CallMoved c c' k' (some call) (some { call with stage })) :
    CallMoved c c' k c.calls[k]? c'.calls[k]? := by
  by_cases hk : k' = k
  · subst hk
    rw [hcalls, hcall, List.getElem?_modify_eq, hcall]
    exact h
  · refine callMoved_of_eq ?_
    rw [hcalls, List.getElem?_modify_ne _ _ hk]

theorem Moved.callMoved {c c' : Client} (h : c.Moved c') (k : Nat) :
    CallMoved c c' k c.calls[k]? c'.calls[k]? := by
  cases h with
  | called new engine hnew hengine h =>
    have hcalls : c'.calls = c.calls ++ new := calls_congr h
    rw [hcalls]
    rcases Nat.lt_or_ge k c.calls.length with hk | hk
    · exact callMoved_of_eq (List.getElem?_append_left hk)
    · rw [List.getElem?_eq_none hk, List.getElem?_append_right hk]
      rcases hnew with rfl | ⟨call, rfl, hstarts⟩
      · exact .absent
      · rcases Nat.eq_or_lt_of_le hk with rfl | hk
        · simpa using CallMoved.started call rfl hstarts
        · rw [List.getElem?_eq_none (by simp; omega)]
          exact .absent
  | session i s s' holder holder' p' notes hphase hmoved h =>
    obtain ⟨chunks, -, hconveys⟩ := hmoved.conveys
    have hphase' : c'.phase? i = some (.established s' holder') := by
      rw [phase?_congr h, phase?_applyNotes]
      exact phase?_setPhase_self _ hphase _
    have hcalls := calls_congr h
    have hlength : c'.calls.length = c.calls.length := by
      rw [hcalls, length_calls_applyNotes]
      rfl
    cases hcall' : c'.calls[k]? with
    | none =>
      rw [List.getElem?_eq_none (hlength ▸ List.getElem?_eq_none_iff.mp hcall')]
      exact .absent
    | some call' =>
      obtain ⟨call, hcall, hhears⟩ := hears_applyNotes (hcalls ▸ hcall')
      obtain ⟨number, receipt, rfl⟩ := hhears.kept
      rw [show c.calls[k]? = some call from hcall]
      refine .told call number receipt (hhears.number.imp And.left fun ⟨n, hn, hslot⟩ => ?_)
      exact ⟨i, ⟨s, s', holder, holder', _, _, notes, n, hphase, hphase', hconveys, hn, hslot⟩⟩
  | offered k' call item s holder outbox hcall hstage hphase hoffer h =>
    exact callMoved_setStage (calls_congr h) hcall (.queued call item hstage)
  | settled k' call stage hcall hstage h =>
    exact callMoved_setStage (calls_congr h) hcall (.settled call stage hstage)
  | expired k' call s holder seq deadline hcall hstage hreceipt hdue hphase h =>
    exact callMoved_setStage (calls_congr h) hcall (.settled call .finished (.inl rfl))
  | still h =>
    have hcalls := calls_congr h
    exact callMoved_of_calls hcalls
  | joined id phase hphase h =>
    have hcalls := calls_congr h
    exact callMoved_of_calls hcalls
  | greeted i g g' link link' hphase hstep h =>
    have hcalls := calls_congr h
    exact callMoved_of_calls hcalls
  | befell i g link e hphase h =>
    have hcalls := calls_congr h
    exact callMoved_of_calls hcalls
  | rejected i e link hphase h =>
    have hcalls := calls_congr h
    exact callMoved_of_calls hcalls
  | began i link hphase h =>
    have hcalls := calls_congr h
    exact callMoved_of_calls hcalls
  | failed i s holder hphase hstartup h =>
    have hcalls := calls_congr h
    exact callMoved_of_calls hcalls
  | lined k' call item s holder outbox hcall hstage hphase hoffer h =>
    have hcalls := calls_congr h
    exact callMoved_of_calls hcalls

lemma newly_of_setPhase {c c' d : Client} {i j : Nat} {old new : Phase} {item : Outgoing}
    (hphases : ∀ j, c'.phase? j = (d.setPhase i new).phase? j) (hold : c.phase? i = some old)
    (hd : ∀ j, d.phase? j = c.phase? j) (hitem : item ∈ newly (c.phase? j) (c'.phase? j)) :
    i = j ∧ item ∈ newly (some old) (some new) := by
  rcases phase?_of_setPhase hphases hold hd j with ⟨rfl, hold', hnew⟩ | ⟨-, hsame⟩
  · rw [hold', hnew] at hitem
    exact ⟨rfl, hitem⟩
  · rw [hsame, newly_self] at hitem
    cases hitem

lemma not_mem_newly_of_eq {phase phase' : Option Phase} (h : aheadOf phase' = aheadOf phase)
    (item : Outgoing) : item ∉ newly phase phase' := by
  rw [newly, h, List.drop_length]
  exact List.not_mem_nil

lemma not_mem_newly {phase phase' : Option Phase} (h : aheadOf phase' = []) (item : Outgoing) :
    item ∉ newly phase phase' := by
  rw [newly_of_ahead_nil h]
  exact List.not_mem_nil

/-- What is newly queued on a connection comes from its session, or from a call that has been
offering it and does so no more. -/
theorem Moved.origin_of_newly {c c' : Client} (h : c.Moved c') (j : Nat) {item : Outgoing}
    (hitem : item ∈ newly (c.phase? j) (c'.phase? j)) :
    (∃ s holder, c.phase? j = some (.established s holder) ∧ s.Sends item) ∨
      newly (c.phase? j) (c'.phase? j) = [item] ∧ ∃ (k : Nat) (call : Call),
        c.calls[k]? = some call ∧ call.stage = .offering item ∧ call.connection = j ∧
          c'.calls[k]? = some { call with stage := .queued } := by
  cases h with
  | still h =>
    rw [phase?_congr h, newly_self] at hitem
    cases hitem
  | joined id phase hphase h =>
    rw [phase?_congr h, phase?_append] at hitem
    split at hitem
    · rcases hphase with rfl | ⟨token, rfl⟩
      · exact absurd hitem (not_mem_newly rfl item)
      · exact absurd hitem (not_mem_newly rfl item)
    · rw [newly_self] at hitem
      cases hitem
  | called new engine hnew hengine h =>
    have hphase : c'.phase? j = c.phase? j := phase?_congr h j
    rw [hphase, newly_self] at hitem
    cases hitem
  | greeted i g g' link link' hphase hstep h =>
    have hphases := phase?_congr h
    obtain ⟨-, hitem⟩ := newly_of_setPhase hphases hphase (fun _ => rfl) hitem
    exact absurd hitem (not_mem_newly rfl item)
  | befell i g link e hphase h =>
    have hphases := phase?_congr h
    obtain ⟨-, hitem⟩ := newly_of_setPhase hphases hphase (fun _ => rfl) hitem
    exact absurd hitem (not_mem_newly rfl item)
  | rejected i e link hphase h =>
    have hphases := phase?_congr h
    obtain ⟨-, hitem⟩ := newly_of_setPhase hphases hphase (fun _ => rfl) hitem
    exact absurd hitem (not_mem_newly rfl item)
  | began i link hphase h =>
    have hphases := phase?_congr h
    obtain ⟨-, hitem⟩ := newly_of_setPhase hphases hphase (fun _ => rfl) hitem
    exact absurd hitem (not_mem_newly rfl item)
  | failed i s holder hphase hstartup h =>
    have hphases := phase?_congr h
    obtain ⟨-, hitem⟩ := newly_of_setPhase hphases hphase (fun _ => rfl) hitem
    exact absurd hitem (not_mem_newly rfl item)
  | session i s s' holder holder' p' notes hphase hmoved h =>
    obtain ⟨chunks, -, hconveys⟩ := hmoved.conveys
    have hphases := fun j => (phase?_congr h j).trans (phase?_applyNotes _ notes j)
    obtain ⟨rfl, hitem'⟩ := newly_of_setPhase hphases hphase (fun _ => rfl) hitem
    exact .inl ⟨s, holder, hphase, hconveys.origin_of_ahead hitem'⟩
  | offered k call item' s holder outbox hcall hstage hphase hoffer h =>
    obtain ⟨hopen, rfl⟩ := Outbox.offer_taken hoffer
    have hphases := phase?_congr h
    have hcalls : c'.calls = c.calls.modify k fun call => { call with stage := .queued } :=
      calls_congr h
    obtain ⟨rfl, hitem'⟩ := newly_of_setPhase hphases hphase (fun _ => rfl) hitem
    have hnewly : newly (c.phase? call.connection) (c'.phase? call.connection) = [item'] := by
      rw [hphases, hphase]
      change newly _ ((c.setPhase call.connection _).phase? call.connection) = [item']
      rw [phase?_setPhase_self _ hphase]
      simp [newly, aheadOf, Sending.ahead, Session.sending]
    rw [hnewly, List.mem_singleton] at hitem
    subst hitem
    refine .inr ⟨hnewly, k, call, hcall, hstage, rfl, ?_⟩
    rw [hcalls, List.getElem?_modify_eq, hcall]
    rfl
  | lined k call item' s holder outbox hcall hstage hphase hoffer h =>
    obtain ⟨hopen, rfl⟩ := Outbox.offer_lined hoffer
    have hphases := phase?_congr h
    obtain ⟨-, hitem⟩ := newly_of_setPhase hphases hphase (fun _ => rfl) hitem
    exact absurd hitem (not_mem_newly_of_eq rfl item)
  | settled k call stage hcall hstage h =>
    have hphase : c'.phase? j = c.phase? j := phase?_congr h j
    rw [hphase, newly_self] at hitem
    cases hitem
  | expired k call s holder seq deadline hcall hstage hreceipt hdue hphase h =>
    have hphases := phase?_congr h
    obtain ⟨-, hitem⟩ := newly_of_setPhase hphases hphase (fun _ => rfl) hitem
    exact absurd hitem (not_mem_newly_of_eq rfl item)

/-! ## How a call ends -/

/-- What a call ends with, by what it has been told. -/
inductive Call.Concludes (call : Call) (s : Session) : Outcome → Prop
  | numbered (seq : Int32) (hstage : call.stage = .queued)
    (hnumber : call.number = .full (.ok seq)) (hwants : call.wants = .number) :
    Concludes call s (.numbered seq)
  | done (seq : Int32) (hstage : call.stage = .queued) (hnumber : call.number = .full (.ok seq))
    (hwants : call.wants = .nothing) : Concludes call s .done
  | failed (e : Error) (hstage : call.stage = .queued) (hnumber : call.number = .full (.error e)) :
    Concludes call s (.failed e)
  | lost (hstage : call.stage = .queued) (hnumber : call.number = .broken) :
    Concludes call s (.failed .connectionClosed)
  | receipted (seq : Int32) (deadline : Nat) (a : Ack)
    (hstage : call.stage = .awaiting seq deadline) (hreceipt : call.receipt = .full a) :
    Concludes call s (.receipted a)
  | unreceipted (seq : Int32) (deadline : Nat) (hstage : call.stage = .awaiting seq deadline)
    (hreceipt : call.receipt = .broken) : Concludes call s (.failed .connectionClosed)
  | overdue (seq : Int32) (deadline : Nat) (hstage : call.stage = .awaiting seq deadline)
    (hreceipt : call.receipt = .empty) : Concludes call s (.failed (.timeout "ack"))
  | stopped (hstage : call.stage = .untilStopped) (hopen : s.outbox.isOpen = false) :
    Concludes call s .done
  | refused (item : Outgoing) (hstage : call.stage = .offering item)
    (hopen : s.outbox.isOpen = false) : Concludes call s (.failed .notReady)

lemma results_finishCall (c : Client) {k : Nat} {call : Call} (outcome : Outcome)
    (hcall : c.calls[k]? = some call) :
    (c.finishCall k call outcome).results = c.results ++ [⟨call.id, outcome, c.now⟩] ∧
      (c.finishCall k call outcome).calls[k]? = some { call with stage := .finished } := by
  refine ⟨rfl, ?_⟩
  change (c.calls.modify k fun call => { call with stage := .finished })[k]? = _
  rw [List.getElem?_modify_eq, hcall]
  rfl

lemma callOn?_of_act? {c c' : Client} {k : Nat} (h : c.act? (.calling k) = some c') :
    ∃ call s holder, c.calls[k]? = some call ∧ c.callOn? k call s holder = some c' := by
  simp only [act?] at h
  split at h
  · cases h
  · rename_i call hcall
    split at h
    · rename_i s holder hphase
      exact ⟨call, s, holder, hcall, h⟩
    · cases h

lemma calls_callOn? {c c' : Client} {k : Nat} {call : Call} {s : Session} {holder : Holder}
    (h : c.callOn? k call s holder = some c') :
    c'.calls = c.calls ∨ ∃ stage, c'.calls = (c.setStage k stage).calls := by
  rw [callOn?] at h
  split at h
  · simp only at h
    split at h
    · cases h
      exact .inr ⟨_, rfl⟩
    · cases h
      exact .inl rfl
    · cases h
    · cases h
      exact .inr ⟨_, rfl⟩
  · split at h
    · cases h
    · cases h
      rw [callNumbered]
      split <;> exact .inr ⟨_, rfl⟩
    · cases h
      exact .inr ⟨_, rfl⟩
    · cases h
      exact .inr ⟨_, rfl⟩
  · split at h
    · cases h
      exact .inr ⟨_, rfl⟩
    · cases h
      exact .inr ⟨_, rfl⟩
    · split at h
      · cases h
        exact .inr ⟨_, rfl⟩
      · cases h
  · split at h
    · cases h
    · cases h
      exact .inr ⟨_, rfl⟩
  · cases h

theorem callOn?_results {c c' : Client} {k : Nat} {call : Call} {s : Session} {holder : Holder}
    (hcall : c.calls[k]? = some call) (h : c.callOn? k call s holder = some c') :
    (c'.results = c.results ∧ ∃ stage, stage ≠ .finished ∧
      c'.calls[k]? = some { call with stage }) ∨ ∃ outcome, Call.Concludes call s outcome ∧
      c'.results = c.results ++ [⟨call.id, outcome, c.now⟩] ∧
      c'.calls[k]? = some { call with stage := .finished } := by
  have hset (d : Client) (hd : d.calls = c.calls) (stage : CallStage) :
      (d.setStage k stage).calls[k]? = some { call with stage } := by
    rw [setStage, hd, List.getElem?_modify_eq, hcall]
    rfl
  rw [callOn?] at h
  split at h
  · rename_i item hstage
    simp only at h
    split at h
    · obtain rfl := Option.some.inj h
      exact .inl ⟨rfl, .queued, by simp, hset _ rfl _⟩
    · obtain rfl := Option.some.inj h
      exact .inl ⟨rfl, call.stage, by simp [hstage], hcall⟩
    · cases h
    · rename_i hoffer
      obtain rfl := Option.some.inj h
      exact .inr ⟨_, .refused item hstage (Outbox.offer_closed hoffer),
        c.results_finishCall _ hcall⟩
  · rename_i hstage
    split at h
    · cases h
    · rename_i seq hnumber
      obtain rfl := Option.some.inj h
      rw [callNumbered]
      split
      · rename_i hwants
        exact .inr ⟨_, .numbered seq hstage hnumber hwants, c.results_finishCall _ hcall⟩
      · rename_i hwants
        exact .inr ⟨_, .done seq hstage hnumber hwants, c.results_finishCall _ hcall⟩
      · exact .inl ⟨rfl, .awaiting seq _, by simp, hset c rfl _⟩
    · rename_i e hnumber
      obtain rfl := Option.some.inj h
      exact .inr ⟨_, .failed e hstage hnumber, c.results_finishCall _ hcall⟩
    · rename_i hnumber
      obtain rfl := Option.some.inj h
      exact .inr ⟨_, .lost hstage hnumber, c.results_finishCall _ hcall⟩
  · rename_i seq deadline hstage
    split at h
    · rename_i a hreceipt
      obtain rfl := Option.some.inj h
      exact .inr ⟨_, .receipted seq deadline a hstage hreceipt, c.results_finishCall _ hcall⟩
    · rename_i hreceipt
      obtain rfl := Option.some.inj h
      exact .inr ⟨_, .unreceipted seq deadline hstage hreceipt, c.results_finishCall _ hcall⟩
    · rename_i hreceipt
      split at h
      · obtain rfl := Option.some.inj h
        exact .inr ⟨_, .overdue seq deadline hstage hreceipt,
          results_finishCall (c.setPhase call.connection (.established (s.forget seq).1 holder)) _
            hcall⟩
      · cases h
  · rename_i hstage
    split at h
    · cases h
    · rename_i hopen
      obtain rfl := Option.some.inj h
      exact .inr ⟨_, .stopped hstage (by simpa using hopen), c.results_finishCall _ hcall⟩
  · cases h

end Client

end Parley
