import Mathlib.Tactic
import Parley.Proofs.Client.Calls
import Parley.Proofs.Client.Phases

/-!
# The wire order

A journal follows a run and keeps what the client itself forgets: the items queued on each
connection, those of them that the writer is done with, what each call asked for, and what it was
answered. Main statement: `Journal.Sound.ofTurns`. From it follow what has gone out on a connection
(`Journal.Sound.laid`), how its frames are numbered (`Journal.Sound.seq_eq`), and what has become of
an item (`Journal.Sound.wrote_of_fate`, `Journal.Sound.fate_of_behind`).
-/

namespace Parley

/-! ## Journals -/

def Call.item? (call : Call) : Option Outgoing :=
  match call.stage with
  | .offering item => some item
  | _ => none

/-- A client with what has happened to it. -/
structure Journal where
  client : Client
  queued : Nat → List Outgoing := fun _ => []
  /-- Those of them that the writer of the connection is done with. -/
  behind : Nat → List Outgoing := fun _ => []
  asked : List (Option Outgoing) := []
  answers : List (Nat × Outcome) := []

namespace Journal

def play (j : Journal) (t : Client.Turn) : Journal where
  client := j.client.play t
  queued i := j.queued i ++ newly (j.client.phase? i) ((j.client.play t).phase? i)
  behind i := j.behind i ++ passed (j.client.phase? i) ((j.client.play t).phase? i)
  asked := j.asked ++ ((j.client.play t).calls.drop j.client.calls.length).map Call.item?
  answers :=
    match t.move with
    | .act (.calling k) =>
      j.answers ++
        ((j.client.play t).results.drop j.client.results.length).map fun r => (k, r.outcome)
    | _ => j.answers

def ofTurns (c : Client) (ts : List Client.Turn) : Journal := ts.foldl play { client := c }

def Fate (j : Journal) (i : Nat) (item : Outgoing) (slot : Slot (Except Error Int32)) : Prop :=
  Parley.Fate j.client.config.connection.protocolVersion (j.queued i) (j.behind i)
    (overOf (j.client.phase? i)) item slot

/-- What an answer to a call says about the item that it asked to be sent. -/
inductive Settles (j : Journal) (k : Nat) (call : Call) : Outcome → Prop
  | numbered (item : Outgoing) (seq : Int32) (hasked : j.asked[k]? = some (some item))
    (hwants : call.wants = .number) (h : j.Fate call.connection item (.full (.ok seq))) :
    Settles j k call (.numbered seq)
  | done (item : Outgoing) (seq : Int32) (hasked : j.asked[k]? = some (some item))
    (hwants : call.wants = .nothing) (h : j.Fate call.connection item (.full (.ok seq))) :
    Settles j k call .done
  | failed (item : Outgoing) (e : Error) (hasked : j.asked[k]? = some (some item))
    (h : j.Fate call.connection item (.full (.error e))) : Settles j k call (.failed e)
  | lost (item : Outgoing) (hasked : j.asked[k]? = some (some item))
    (h : j.Fate call.connection item .broken) : Settles j k call (.failed .connectionClosed)
  | awaited (item : Outgoing) (seq : Int32) (outcome : Outcome)
    (hasked : j.asked[k]? = some (some item)) (hwants : call.wants = .receipt)
    (h : j.Fate call.connection item (.full (.ok seq)))
    (houtcome : (∃ a, outcome = .receipted a) ∨ outcome = .failed .connectionClosed ∨
      outcome = .failed (.timeout "ack")) : Settles j k call outcome
  | stopped (hasked : j.asked[k]? = some none) : Settles j k call .done
  | refused (item : Outgoing) (hasked : j.asked[k]? = some (some item))
    (hqueued : ∀ i, ∀ item ∈ j.queued i, item.caller ≠ some k)
    (hstage : call.stage = .finished) : Settles j k call (.failed .notReady)

/-- What holds of the journal of every run. -/
structure Sound (j : Journal) : Prop where
  lanes : ∀ i, Lane j.client.config (j.queued i) (j.behind i) (j.client.wireOf i)
    (j.client.phase? i)
  length_asked : j.asked.length = j.client.calls.length
  caller : ∀ (k : Nat) item, j.asked[k]? = some (some item) → item.caller = some k
  offering : ∀ (k : Nat) (call : Call) item, j.client.calls[k]? = some call →
    call.stage = .offering item → j.asked[k]? = some (some item) ∧ item.caller = some k
  stopping : ∀ (k : Nat) (call : Call), j.client.calls[k]? = some call →
    call.stage = .untilStopped → j.asked[k]? = some none
  owned : ∀ (i k : Nat), ∀ item ∈ j.queued i, item.caller = some k →
    j.asked[k]? = some (some item) ∧ ∃ call : Call, j.client.calls[k]? = some call ∧
      call.connection = i ∧ ∀ item', call.stage ≠ .offering item'
  once : ∀ i, ((j.queued i).filterMap (·.caller)).Nodup
  numbered : ∀ (k : Nat) (call : Call), j.client.calls[k]? = some call → call.number = .empty ∨
    ∃ item, j.asked[k]? = some (some item) ∧ j.Fate call.connection item call.number
  awaiting : ∀ (k : Nat) (call : Call) seq deadline, j.client.calls[k]? = some call →
    call.stage = .awaiting seq deadline → call.wants = .receipt ∧
      ∃ item, j.asked[k]? = some (some item) ∧ j.Fate call.connection item (.full (.ok seq))
  answered : ∀ (k : Nat) outcome, (k, outcome) ∈ j.answers → ∃ call : Call,
    j.client.calls[k]? = some call ∧ j.Settles k call outcome

/-! ## One move -/

lemma over_of_lane {c : Client} {queued behind : List Outgoing} {wire out : Bytes}
    {phase phase' : Option Phase} (h : Lane c.config queued behind wire phase)
    (hpasses : Passes c phase out phase') (hover : overOf phase = true) :
    overOf phase' = true ∧ newly phase phase' = [] ∧ passed phase phase' = [] := by
  cases hpasses with
  | same phase => exact ⟨hover, newly_self _, passed_self _⟩
  | failed s holder hopen => exact ⟨rfl, newly_of_ahead_nil rfl, rfl⟩
  | session s s' holder holder' out notes origin hconveys =>
    cases h with
    | writing s holder h =>
      have hopen : s.outbox.isOpen = true := h.isOpen
      simp [overOf, hopen] at hover
    | stopped s holder hopen hahead h =>
      obtain ⟨hopen', hahead', -⟩ := hconveys.of_stopped hopen hahead
      refine ⟨?_, newly_of_ahead_nil hahead', passed_of_ahead_nil hahead⟩
      have hclosed : s'.outbox.isOpen = false := hopen'
      simp [overOf, hclosed]
  | _ => cases hover

section Step
variable {j : Journal} {t : Client.Turn} {k i : Nat} {item : Outgoing}
  {slot : Slot (Except Error Int32)}

lemma config_play (j : Journal) (t : Client.Turn) :
    (j.play t).client.config = j.client.config := (j.client.moved_play t).config_eq

lemma queued_play (j : Journal) (t : Client.Turn) (i : Nat) : (j.play t).queued i =
    j.queued i ++ newly (j.client.phase? i) ((j.client.play t).phase? i) := rfl

lemma behind_play (j : Journal) (t : Client.Turn) (i : Nat) : (j.play t).behind i =
    j.behind i ++ passed (j.client.phase? i) ((j.client.play t).phase? i) := rfl

lemma asked_play (j : Journal) (t : Client.Turn) : (j.play t).asked =
    j.asked ++ ((j.client.play t).calls.drop j.client.calls.length).map Call.item? := rfl

lemma asked_unique {item item' : Outgoing} (h : j.asked[k]? = some (some item))
    (h' : j.asked[k]? = some (some item')) : item = item' :=
  Option.some.inj (Option.some.inj (h.symm.trans h'))

lemma asked_mono {x : Option Outgoing} (h : j.asked[k]? = some x) :
    (j.play t).asked[k]? = some x := by
  obtain ⟨hk, -⟩ := List.getElem?_eq_some_iff.mp h
  rw [asked_play, List.getElem?_append_left hk, h]

lemma Sound.asked_of_started (hsound : j.Sound) {call : Call} (hk : k = j.client.calls.length)
    (hcall : (j.client.play t).calls[k]? = some call) :
    (j.play t).asked[k]? = some call.item? := by
  subst hk
  have hnew : ((j.client.play t).calls.drop j.client.calls.length)[0]? = some call := by
    rw [List.getElem?_drop, Nat.add_zero, hcall]
  rw [asked_play, List.getElem?_append_right hsound.length_asked.le, hsound.length_asked,
    Nat.sub_self, List.getElem?_map, hnew]
  rfl

lemma Fate.play (h : j.Fate i item slot) (hsound : j.Sound) : (j.play t).Fate i item slot := by
  obtain ⟨out, -, hpasses⟩ := (j.client.moved_play t).passes i
  rw [Journal.Fate, config_play]
  refine h.mono (List.prefix_append _ _) ?_
  intro hover
  obtain ⟨hover', hnewly, hpassed⟩ := over_of_lane (hsound.lanes i) hpasses hover
  exact ⟨hover', by rw [queued_play, hnewly, List.append_nil],
    by rw [behind_play, hpassed, List.append_nil]⟩

/-- What a call is told about its number has become of the item that it asked to be sent. -/
lemma Sound.fate_of_told (hsound : j.Sound) (h : Client.Told j.client (j.client.play t) i k slot) :
    ∃ call : Call, j.client.calls[k]? = some call ∧ call.connection = i ∧
      ∃ item, j.asked[k]? = some (some item) ∧ (j.play t).Fate i item slot := by
  obtain ⟨s, s', holder, holder', origin, out, notes, n, hphase, hphase', hconveys, hn, hslot⟩ :=
    h.session
  have hlane := hsound.lanes i
  rw [hphase] at hlane
  -- Only a writer that has not ended tells a call anything.
  cases hlane with
  | writing s holder hcourse =>
    obtain ⟨item, hitem, hcaller, hfate⟩ := hcourse.told hconveys hn hslot
    obtain ⟨hasked, call, hcall, hconnection, -⟩ := hsound.owned i k item hitem hcaller
    refine ⟨call, hcall, hconnection, item, hasked, ?_⟩
    rw [Journal.Fate, config_play, queued_play, behind_play, hphase]
    change Parley.Fate _ (j.queued i ++ newly _ ((j.client.play t).phase? i))
      (j.behind i ++ passed _ ((j.client.play t).phase? i))
      (overOf ((j.client.play t).phase? i)) item slot
    rw [hphase']
    exact hfate
  | stopped s holder hopen hahead h =>
    rw [hconveys.slot?_of_stopped hahead hn] at hslot
    cases hslot

lemma Sound.callMoved_some (hsound : j.Sound) {call' : Call}
    (hcall' : (j.client.play t).calls[k]? = some call') :
    (k = j.client.calls.length ∧ Client.Call.Starts call' k ∧
      (j.play t).asked[k]? = some call'.item?) ∨
    ∃ call : Call, j.client.calls[k]? = some call ∧
      Client.CallMoved j.client (j.client.play t) k (some call) (some call') := by
  have hmoved := (j.client.moved_play t).callMoved k
  rw [hcall'] at hmoved
  cases hcall : j.client.calls[k]? with
  | none =>
    rw [hcall] at hmoved
    cases hmoved with
    | started call hk hstarts => exact .inl ⟨hk, hstarts, hsound.asked_of_started hk hcall'⟩
  | some call =>
    rw [hcall] at hmoved
    exact .inr ⟨call, rfl, hmoved⟩

lemma call_kept {call : Call} (hcall : j.client.calls[k]? = some call) :
    ∃ call' : Call, (j.client.play t).calls[k]? = some call' ∧
      call'.connection = call.connection ∧ call'.wants = call.wants ∧
      (∀ item, call'.stage = .offering item → call.stage = .offering item) ∧
      (call.stage = .finished → call'.stage = .finished) := by
  have hmoved := (j.client.moved_play t).callMoved k
  rw [hcall] at hmoved
  generalize hcall' : (j.client.play t).calls[k]? = call?' at hmoved
  cases hmoved with
  | same => exact ⟨call, rfl, rfl, rfl, fun _ h => h, id⟩
  | queued _ item hstage =>
    refine ⟨_, rfl, rfl, rfl, fun item' h => ?_, fun h => ?_⟩
    · cases h
    · rw [hstage] at h
      cases h
  | settled _ stage hstage =>
    refine ⟨_, rfl, rfl, rfl, fun item h => ?_, fun h => ?_⟩
    · rcases hstage with rfl | ⟨seq, deadline, rfl, -⟩
      · cases h
      · cases h
    · rcases hstage with rfl | ⟨seq, deadline, -, -, hqueued, -⟩
      · rfl
      · rw [hqueued] at h
        cases h
  | told _ number receipt hnumber => exact ⟨_, rfl, rfl, rfl, fun _ h => h, id⟩

lemma Sound.length_asked_play (hsound : j.Sound) :
    (j.play t).asked.length = (j.play t).client.calls.length := by
  have hle : j.client.calls.length ≤ (j.client.play t).calls.length := by
    by_contra hlt
    have hlast : (j.client.calls.length - 1) < j.client.calls.length := by omega
    obtain ⟨call', hcall', -⟩ := call_kept (t := t) (List.getElem?_eq_getElem hlast)
    obtain ⟨hk, -⟩ := List.getElem?_eq_some_iff.mp hcall'
    omega
  rw [asked_play, List.length_append, List.length_map, List.length_drop, hsound.length_asked]
  change _ = (j.client.play t).calls.length
  omega

lemma Sound.caller_play (hsound : j.Sound) (hasked : (j.play t).asked[k]? = some (some item)) :
    item.caller = some k := by
  rcases Nat.lt_or_ge k j.asked.length with hk | hk
  · rw [asked_play, List.getElem?_append_left hk] at hasked
    exact hsound.caller k item hasked
  · have hlength := hsound.length_asked_play (t := t)
    obtain ⟨hk', -⟩ := List.getElem?_eq_some_iff.mp hasked
    rw [hlength] at hk'
    obtain ⟨call', hcall'⟩ : ∃ call', (j.client.play t).calls[k]? = some call' :=
      ⟨_, List.getElem?_eq_getElem hk'⟩
    rcases hsound.callMoved_some hcall' with ⟨-, hstarts, hasked'⟩ | ⟨call, hcall, -⟩
    · rw [hasked', Option.some.injEq, Call.item?] at hasked
      rcases hstarts.stage with huntil | ⟨item', hoffering, hcaller, -⟩
      · rw [huntil] at hasked
        cases hasked
      · rw [hoffering] at hasked
        cases hasked
        exact hcaller
    · obtain ⟨hlt, -⟩ := List.getElem?_eq_some_iff.mp hcall
      rw [hsound.length_asked] at hk
      omega

lemma Sound.offering_play (hsound : j.Sound) {call' : Call}
    (hcall' : (j.client.play t).calls[k]? = some call') (hstage : call'.stage = .offering item) :
    (j.play t).asked[k]? = some (some item) ∧ item.caller = some k := by
  rcases hsound.callMoved_some hcall' with ⟨-, hstarts, hasked⟩ | ⟨call, hcall, hmoved⟩
  · have hitem : call'.item? = some item := by rw [Call.item?, hstage]
    rcases hstarts.stage with huntil | ⟨item', hitem', hcaller, -⟩
    · rw [huntil] at hstage
      cases hstage
    · rw [hitem'] at hstage
      cases hstage
      exact ⟨by rw [hasked, hitem], hcaller⟩
  · obtain ⟨call'', hcall'', -, -, hoffering, -⟩ := call_kept (t := t) hcall
    obtain rfl : call' = call'' := Option.some.inj (hcall'.symm.trans hcall'')
    obtain ⟨hasked, hcaller⟩ := hsound.offering k call item hcall (hoffering item hstage)
    exact ⟨asked_mono hasked, hcaller⟩

lemma Sound.stopping_play (hsound : j.Sound) {call' : Call}
    (hcall' : (j.client.play t).calls[k]? = some call') (hstage : call'.stage = .untilStopped) :
    (j.play t).asked[k]? = some none := by
  rcases hsound.callMoved_some hcall' with ⟨-, hstarts, hasked⟩ | ⟨call, hcall, hmoved⟩
  · rw [hasked, Call.item?, hstage]
  · have hstage' : call.stage = .untilStopped := by
      cases hmoved with
      | same => exact hstage
      | queued _ item hoffering => cases hstage
      | settled _ stage hsettled =>
        rcases hsettled with rfl | ⟨seq, deadline, rfl, -⟩
        · cases hstage
        · cases hstage
      | told _ number receipt hnumber => exact hstage
    exact asked_mono (hsound.stopping k call hcall hstage')

lemma Sound.owned_newly (hsound : j.Sound)
    (hitem : item ∈ newly (j.client.phase? i) ((j.client.play t).phase? i))
    (hcaller : item.caller = some k) :
    newly (j.client.phase? i) ((j.client.play t).phase? i) = [item] ∧
      (j.play t).asked[k]? = some (some item) ∧ ∃ call : Call,
        j.client.calls[k]? = some call ∧ call.stage = .offering item ∧ call.connection = i ∧
          (j.client.play t).calls[k]? = some { call with stage := .queued } := by
  rcases (j.client.moved_play t).origin_of_newly i hitem with ⟨s, holder, -, hsends⟩ |
    ⟨hnewly, k', call, hcall, hstage, hconnection, hcall'⟩
  · rw [hsends.caller] at hcaller
    cases hcaller
  · obtain ⟨hasked, hcaller'⟩ := hsound.offering k' call item hcall hstage
    obtain rfl : k = k' := Option.some.inj (hcaller.symm.trans hcaller')
    exact ⟨hnewly, asked_mono hasked, call, hcall, hstage, hconnection, hcall'⟩

lemma Sound.owned_play (hsound : j.Sound) (hitem : item ∈ (j.play t).queued i)
    (hcaller : item.caller = some k) :
    (j.play t).asked[k]? = some (some item) ∧ ∃ call : Call,
      (j.client.play t).calls[k]? = some call ∧ call.connection = i ∧
        ∀ item', call.stage ≠ .offering item' := by
  rw [queued_play] at hitem
  rcases List.mem_append.mp hitem with hitem | hitem
  · obtain ⟨hasked, call, hcall, hconnection, hoffering⟩ := hsound.owned i k item hitem hcaller
    obtain ⟨call', hcall', hconnection', -, hoffering', -⟩ := call_kept (t := t) hcall
    exact ⟨asked_mono hasked, call', hcall', hconnection'.trans hconnection,
      fun item' hstage => hoffering item' (hoffering' item' hstage)⟩
  · obtain ⟨-, hasked, call, -, -, hconnection, hcall'⟩ := hsound.owned_newly hitem hcaller
    exact ⟨hasked, _, hcall', hconnection, fun item' h => by cases h⟩

lemma Sound.once_play (hsound : j.Sound) (i : Nat) :
    (((j.play t).queued i).filterMap (·.caller)).Nodup := by
  rw [queued_play, List.filterMap_append]
  by_cases hnone : ∀ item ∈ newly (j.client.phase? i) ((j.client.play t).phase? i),
      item.caller = none
  · rw [List.filterMap_eq_nil_iff.mpr hnone, List.append_nil]
    exact hsound.once i
  · push Not at hnone
    obtain ⟨item, hitem, hcaller⟩ := hnone
    obtain ⟨k, hk⟩ := Option.ne_none_iff_exists'.mp hcaller
    obtain ⟨hnewly, -, call, hcall, hstage, -⟩ := hsound.owned_newly hitem hk
    have hcallers : [item].filterMap (·.caller) = [k] := by simp [hk]
    rw [hnewly, hcallers, List.nodup_append]
    refine ⟨hsound.once i, by simp, ?_⟩
    rintro k' hk' _ hmem rfl
    obtain rfl := List.mem_singleton.mp hmem
    obtain ⟨item', hitem', hcaller'⟩ := List.mem_filterMap.mp hk'
    obtain ⟨-, call', hcall', -, hoffering⟩ := hsound.owned i k' item' hitem' hcaller'
    obtain rfl : call = call' := Option.some.inj (hcall.symm.trans hcall')
    exact hoffering item hstage

lemma Sound.numbered_play (hsound : j.Sound) {call' : Call}
    (hcall' : (j.client.play t).calls[k]? = some call') :
    call'.number = .empty ∨ ∃ item, (j.play t).asked[k]? = some (some item) ∧
      (j.play t).Fate call'.connection item call'.number := by
  rcases hsound.callMoved_some hcall' with ⟨-, hstarts, -⟩ | ⟨call, hcall, hmoved⟩
  · exact .inl hstarts.number
  · have hkept : call.number = .empty ∨ ∃ item, (j.play t).asked[k]? = some (some item) ∧
        (j.play t).Fate call.connection item call.number := by
      refine (hsound.numbered k call hcall).imp id ?_
      rintro ⟨item, hasked, hfate⟩
      exact ⟨item, asked_mono hasked, hfate.play hsound⟩
    cases hmoved with
    | same => exact hkept
    | queued _ item hstage => exact hkept
    | settled _ stage hstage => exact hkept
    | told _ number receipt hnumber =>
      rcases hnumber with rfl | ⟨i, htold⟩
      · exact hkept
      · obtain ⟨call', hcall', hconnection, item, hasked, hfate⟩ := hsound.fate_of_told htold
        obtain rfl : call = call' := Option.some.inj (hcall.symm.trans hcall')
        exact .inr ⟨item, asked_mono hasked, by rw [hconnection]; exact hfate⟩

lemma Sound.awaiting_play (hsound : j.Sound) {call' : Call} {seq : Int32} {deadline : Nat}
    (hcall' : (j.client.play t).calls[k]? = some call')
    (hstage : call'.stage = .awaiting seq deadline) :
    call'.wants = .receipt ∧ ∃ item, (j.play t).asked[k]? = some (some item) ∧
      (j.play t).Fate call'.connection item (.full (.ok seq)) := by
  rcases hsound.callMoved_some hcall' with ⟨-, hstarts, -⟩ | ⟨call, hcall, hmoved⟩
  · rcases hstarts.stage with huntil | ⟨item, hoffering, -⟩
    · rw [huntil] at hstage
      cases hstage
    · rw [hoffering] at hstage
      cases hstage
  · have hkept : call.stage = .awaiting seq deadline → call.wants = .receipt ∧
        ∃ item, (j.play t).asked[k]? = some (some item) ∧
          (j.play t).Fate call.connection item (.full (.ok seq)) := by
      intro h
      obtain ⟨hwants, item, hasked, hfate⟩ := hsound.awaiting k call seq deadline hcall h
      exact ⟨hwants, item, asked_mono hasked, hfate.play hsound⟩
    cases hmoved with
    | same => exact hkept hstage
    | queued _ item hoffering => cases hstage
    | settled _ stage hsettled =>
      rcases hsettled with rfl | ⟨seq', deadline', rfl, hwants, -, hnumber⟩
      · cases hstage
      · cases hstage
        rcases hsound.numbered k call hcall with hempty | ⟨item, hasked, hfate⟩
        · rw [hempty] at hnumber
          cases hnumber
        · rw [hnumber] at hfate
          exact ⟨hwants, item, asked_mono hasked, hfate.play hsound⟩
    | told _ number receipt hnumber => exact hkept hstage

lemma Settles.play {call call' : Call} {outcome : Outcome} (h : j.Settles k call outcome)
    (hsound : j.Sound) (hcall : j.client.calls[k]? = some call)
    (hcall' : (j.client.play t).calls[k]? = some call') : (j.play t).Settles k call' outcome := by
  obtain ⟨call'', hcall'', hconnection, hwants', -, hfinished⟩ := call_kept (t := t) hcall
  obtain rfl : call' = call'' := Option.some.inj (hcall'.symm.trans hcall'')
  cases h with
  | numbered item seq hasked hwants h =>
    exact .numbered item seq (asked_mono hasked) (hwants'.trans hwants)
      (by rw [hconnection]; exact h.play hsound)
  | done item seq hasked hwants h =>
    exact .done item seq (asked_mono hasked) (hwants'.trans hwants)
      (by rw [hconnection]; exact h.play hsound)
  | failed item e hasked h =>
    exact .failed item e (asked_mono hasked) (by rw [hconnection]; exact h.play hsound)
  | lost item hasked h =>
    exact .lost item (asked_mono hasked) (by rw [hconnection]; exact h.play hsound)
  | awaited item seq _ hasked hwants h houtcome =>
    exact .awaited item seq outcome (asked_mono hasked) (hwants'.trans hwants)
      (by rw [hconnection]; exact h.play hsound) houtcome
  | stopped hasked => exact .stopped (asked_mono hasked)
  | refused item hasked hqueued hstage =>
    refine .refused item (asked_mono hasked) ?_ (hfinished hstage)
    intro i item' hitem' hcaller
    rw [queued_play] at hitem'
    rcases List.mem_append.mp hitem' with hitem' | hitem'
    · exact hqueued i item' hitem' hcaller
    · obtain ⟨-, -, call, hcall₂, hoffering, -⟩ := hsound.owned_newly hitem' hcaller
      rw [hcall] at hcall₂
      obtain rfl := Option.some.inj hcall₂
      rw [hstage] at hoffering
      cases hoffering

lemma Sound.settles_of_concludes (hsound : j.Sound) {call : Call} {s : Session} {outcome : Outcome}
    (hcall : j.client.calls[k]? = some call) (h : Client.Call.Concludes call s outcome)
    (hcall' : (j.client.play t).calls[k]? = some { call with stage := .finished }) :
    (j.play t).Settles k { call with stage := .finished } outcome := by
  have htold : ∀ slot, call.number = slot → slot ≠ .empty →
      ∃ item, (j.play t).asked[k]? = some (some item) ∧
        (j.play t).Fate call.connection item slot := by
    rintro slot rfl hslot
    rcases hsound.numbered k call hcall with hempty | ⟨item, hasked, hfate⟩
    · exact absurd hempty hslot
    · exact ⟨item, asked_mono hasked, hfate.play hsound⟩
  have hwritten : ∀ seq deadline, call.stage = .awaiting seq deadline → call.wants = .receipt ∧
      ∃ item, (j.play t).asked[k]? = some (some item) ∧
        (j.play t).Fate call.connection item (.full (.ok seq)) := by
    intro seq deadline hstage
    obtain ⟨hwants, item, hasked, hfate⟩ := hsound.awaiting k call seq deadline hcall hstage
    exact ⟨hwants, item, asked_mono hasked, hfate.play hsound⟩
  cases h with
  | numbered seq hstage hnumber hwants =>
    obtain ⟨item, hasked, hfate⟩ := htold _ hnumber (by simp)
    exact .numbered item seq hasked hwants hfate
  | done seq hstage hnumber hwants =>
    obtain ⟨item, hasked, hfate⟩ := htold _ hnumber (by simp)
    exact .done item seq hasked hwants hfate
  | failed e hstage hnumber =>
    obtain ⟨item, hasked, hfate⟩ := htold _ hnumber (by simp)
    exact .failed item e hasked hfate
  | lost hstage hnumber =>
    obtain ⟨item, hasked, hfate⟩ := htold _ hnumber (by simp)
    exact .lost item hasked hfate
  | receipted seq deadline a hstage hreceipt =>
    obtain ⟨hwants, item, hasked, hfate⟩ := hwritten seq deadline hstage
    exact .awaited item seq _ hasked hwants hfate (.inl ⟨a, rfl⟩)
  | unreceipted seq deadline hstage hreceipt =>
    obtain ⟨hwants, item, hasked, hfate⟩ := hwritten seq deadline hstage
    exact .awaited item seq _ hasked hwants hfate (.inr (.inl rfl))
  | overdue seq deadline hstage hreceipt =>
    obtain ⟨hwants, item, hasked, hfate⟩ := hwritten seq deadline hstage
    exact .awaited item seq _ hasked hwants hfate (.inr (.inr rfl))
  | stopped hstage hopen => exact .stopped (asked_mono (hsound.stopping k call hcall hstage))
  | refused item hstage hopen =>
    obtain ⟨hasked, -⟩ := hsound.offering k call item hcall hstage
    refine .refused item (asked_mono hasked) ?_ rfl
    intro i item' hitem' hcaller
    rw [queued_play] at hitem'
    rcases List.mem_append.mp hitem' with hitem' | hitem'
    · obtain ⟨-, call', hcall'', -, hoffering⟩ := hsound.owned i k item' hitem' hcaller
      obtain rfl : call = call' := Option.some.inj (hcall.symm.trans hcall'')
      exact hoffering item hstage
    · obtain ⟨-, -, call', hcall'', -, -, hqueued⟩ := hsound.owned_newly hitem' hcaller
      obtain rfl : call = call' := Option.some.inj (hcall.symm.trans hcall'')
      rw [hcall'] at hqueued
      cases hqueued

lemma answers_play (j : Journal) (t : Client.Turn) : (j.play t).answers = j.answers ∨
    ∃ k call s outcome, t.move = .act (.calling k) ∧ j.client.calls[k]? = some call ∧
      Client.Call.Concludes call s outcome ∧ (j.play t).answers = j.answers ++ [(k, outcome)] ∧
      (j.client.play t).calls[k]? = some { call with stage := .finished } := by
  obtain ⟨m, n⟩ := t
  cases m with
  | act a =>
    cases a with
    | calling k =>
      change j.answers ++ ((j.client.move (.act (.calling k))).results.drop _).map _ = _ ∨
        ∃ k' call s outcome, _ ∧ _ ∧ _ ∧ j.answers ++
          ((j.client.move (.act (.calling k))).results.drop _).map _ = _ ∧
          (j.client.move (.act (.calling k))).calls[k']? = _
      cases hact : j.client.act? (.calling k) with
      | none =>
        left
        rw [Client.move, hact]
        simp
      | some c' =>
        rw [Client.move, hact, Option.getD_some]
        obtain ⟨call, s, holder, hcall, hcallOn⟩ := Client.callOn?_of_act? hact
        rcases Client.callOn?_results hcall hcallOn with ⟨hresults, -⟩ |
          ⟨outcome, hconcludes, hresults, hcall'⟩
        · left
          simp [hresults]
        · exact .inr ⟨k, call, s, outcome, rfl, hcall, hconcludes, by simp [hresults], hcall'⟩
    | _ => exact .inl rfl
  | _ => exact .inl rfl

lemma Sound.answered_play (hsound : j.Sound) {outcome : Outcome}
    (h : (k, outcome) ∈ (j.play t).answers) :
    ∃ call : Call, (j.client.play t).calls[k]? = some call ∧ (j.play t).Settles k call outcome := by
  have hold : (k, outcome) ∈ j.answers → ∃ call : Call,
      (j.client.play t).calls[k]? = some call ∧ (j.play t).Settles k call outcome := by
    intro hmem
    obtain ⟨call, hcall, hsettles⟩ := hsound.answered k outcome hmem
    obtain ⟨call', hcall', -⟩ := call_kept (t := t) hcall
    exact ⟨call', hcall', hsettles.play hsound hcall hcall'⟩
  rcases j.answers_play t with hsame |
    ⟨k', call, s, outcome', -, hcall, hconcludes, hanswers, hcall'⟩
  · exact hold (hsame ▸ h)
  · rw [hanswers] at h
    rcases List.mem_append.mp h with h | h
    · exact hold h
    · obtain ⟨rfl, rfl⟩ := Prod.mk.inj (List.mem_singleton.mp h)
      exact ⟨_, hcall', hsound.settles_of_concludes hcall hconcludes hcall'⟩

theorem Sound.play (hsound : j.Sound) (t : Client.Turn) : (j.play t).Sound where
  lanes i := by
    obtain ⟨out, hwire, hpasses⟩ := (j.client.moved_play t).passes i
    have hlane := (hsound.lanes i).passes hpasses
    rw [config_play, queued_play, behind_play]
    change Lane _ _ _ ((j.client.play t).wireOf i) ((j.client.play t).phase? i)
    rw [hwire]
    exact hlane
  length_asked := hsound.length_asked_play
  caller _ _ hasked := hsound.caller_play hasked
  offering _ _ _ hcall hstage := hsound.offering_play hcall hstage
  stopping _ _ hcall hstage := hsound.stopping_play hcall hstage
  owned _ _ _ hitem hcaller := hsound.owned_play hitem hcaller
  once i := hsound.once_play i
  numbered _ _ hcall := hsound.numbered_play hcall
  awaiting _ _ _ _ hcall hstage := hsound.awaiting_play hcall hstage
  answered _ _ h := hsound.answered_play h

end Step

/-! ## A whole run -/

lemma sound_start {config : Config} {store : CursorStore} {tokens : List (Except Error String)}
    {c : Client} (hnew : Client.new config store tokens = .ok c) :
    Journal.Sound { client := c } := by
  obtain ⟨progress, rfl⟩ := Client.eq_of_new hnew
  exact {
    lanes := fun i => .absent ⟨rfl, rfl, .inl rfl⟩ rfl
    length_asked := rfl
    caller := fun k item hasked => by cases hasked
    offering := fun k call item hcall => by cases hcall
    stopping := fun k call hcall => by cases hcall
    owned := fun i k item hitem => by cases hitem
    once := fun i => List.nodup_nil
    numbered := fun k call hcall => by cases hcall
    awaiting := fun k call seq deadline hcall => by cases hcall
    answered := fun k outcome h => by cases h }

lemma ofTurns_concat (c : Client) (ts : List Client.Turn) (t : Client.Turn) :
    ofTurns c (ts ++ [t]) = (ofTurns c ts).play t := by
  rw [ofTurns, List.foldl_append]
  rfl

/-- The journal of every run is sound. -/
theorem Sound.ofTurns {c : Client} (h : Journal.Sound { client := c }) (ts : List Client.Turn) :
    (ofTurns c ts).Sound := by
  induction ts using List.reverseRecOn with
  | nil => exact h
  | append_singleton ts t ih =>
    rw [ofTurns_concat]
    exact ih.play t

def version (j : Journal) : UInt8 := j.client.config.connection.protocolVersion

/-- What has gone out on a connection is a front of the token frame and the script of the queued
items behind it, and is no less than what the writer is done with. -/
def Laid (j : Journal) (i : Nat) : Prop :=
  j.behind i <+: j.queued i ∧
    ((j.queued i = [] ∧ j.client.wireOf i = []) ∨
      ∃ auth, j.client.config.Opens auth ∧
        j.client.wireOf i <+: auth ++ script j.version firstSeq (j.queued i) ∧
        (j.queued i = [] ∨ auth ++ script j.version firstSeq (j.behind i) <+: j.client.wireOf i))

/-- The frame of an item has gone out in whole on a connection under a number: the one behind those
of the items before it. -/
def Wrote (j : Journal) (i : Nat) (item : Outgoing) (seq : Int32) : Prop :=
  ∃ auth before octets, j.client.config.Opens auth ∧ before ++ [item] <+: j.queued i ∧
    seq = numberBehind j.version firstSeq before ∧
    (item.frame j.version seq).encode = .ok octets ∧
    auth ++ script j.version firstSeq before ++ octets <+: j.client.wireOf i

lemma Sound.laid {j : Journal} (hsound : j.Sound) (i : Nat) : j.Laid i := by
  have hsilent : Silent j.client.config (j.queued i) (j.behind i) (j.client.wireOf i) →
      j.Laid i := by
    rintro ⟨hqueued, hbehind, hwire | ⟨rest, hrest⟩⟩
    · exact ⟨by rw [hbehind]; exact List.nil_prefix, .inl ⟨hqueued, hwire⟩⟩
    · refine ⟨by rw [hbehind]; exact List.nil_prefix, .inr ⟨_, hrest, ?_, .inl hqueued⟩⟩
      rw [List.append_assoc]
      exact List.prefix_append _ _
  have hfollows : Follows j.client.config (j.queued i) (j.behind i) (j.client.wireOf i) →
      j.Laid i := by
    rintro ⟨auth, hauth, hbehind, hdone, hwire⟩
    exact ⟨hbehind, .inr ⟨auth, hauth, hwire, .inr hdone⟩⟩
  have hlane := hsound.lanes i
  generalize j.client.phase? i = phase at hlane
  cases hlane with
  | absent h hwire => exact hsilent h
  | greeting g link hqueued hbehind h =>
    refine hsilent ⟨hqueued, hbehind, ?_⟩
    match g, h with
    | .writing octets, h => exact .inr ⟨octets, h⟩
    | .awaiting _, h => exact .inr ⟨[], by rw [List.append_nil]; exact h⟩
    | .done (.ok ()), h => exact .inr ⟨[], by rw [List.append_nil]; exact h⟩
    | .done (.error _), h => exact h
  | failed h => exact h.elim hsilent hfollows
  | writing s holder h => exact hfollows h.follows
  | stopped s holder hopen hahead h => exact hfollows h

lemma Sound.mem_queued_of_fate {j : Journal} (hsound : j.Sound) {i : Nat} {item : Outgoing}
    {slot : Slot (Except Error Int32)} (h : j.Fate i item slot) : item ∈ j.queued i := by
  obtain ⟨hfront, -⟩ := hsound.laid i
  cases h with
  | written before after octets hbehind hencode => exact hfront.subset (by simp [hbehind])
  | skipped before after e hbehind hencode htransport => exact hfront.subset (by simp [hbehind])
  | refused before after hover hqueued => simp [hqueued]
  | lost before after hover hqueued => simp [hqueued]

lemma Sound.wrote_of_fate {j : Journal} (hsound : j.Sound) {i : Nat} {item : Outgoing}
    {seq : Int32} (h : j.Fate i item (.full (.ok seq))) : j.Wrote i item seq := by
  cases h with
  | written before after octets hitem hencode =>
    obtain ⟨hbehind, hlaid⟩ := hsound.laid i
    have hqueued : j.queued i ≠ [] := by
      rintro hnil
      rw [hnil, hitem] at hbehind
      simp at hbehind
    rcases hlaid with ⟨hnil, -⟩ | ⟨auth, hauth, -, hnil | hdone⟩
    · exact absurd hnil hqueued
    · exact absurd hnil hqueued
    · refine ⟨auth, before, octets, hauth, ?_, rfl, hencode, ?_⟩
      · refine List.IsPrefix.trans ?_ hbehind
        exact ⟨after, by simp [hitem]⟩
      · refine List.IsPrefix.trans ?_ hdone
        rw [hitem, script_append, List.append_assoc]
        refine List.prefix_append_right_inj _ |>.mpr (List.prefix_append_right_inj _ |>.mpr ?_)
        rw [version, script_of_ok _ _ hencode]
        exact List.prefix_append _ _

lemma Sound.seq_eq {j : Journal} (hsound : j.Sound) {i n : Nat} {raw : RawFrame}
    (h : (drain Frame.maxBodyLen (j.client.wireOf i)).frames[n]? = some raw) :
    raw.header.seq = Int32.ofNat (n + 1) := by
  obtain ⟨-, ⟨-, hwire⟩ | ⟨auth, ⟨token, hauth⟩, ⟨more, hwire⟩, -⟩⟩ := hsound.laid i
  · rw [hwire, drain_of_needMore rfl] at h
    cases h
  · obtain ⟨raw₁, hfits₁, rfl, hseq₁⟩ := Frame.raw_of_encode hauth
    obtain ⟨raws, hscript, hfits, hseqs, -⟩ := script_eq_wireForm j.version firstSeq (j.queued i)
    have hall : ∀ raw ∈ raw₁ :: raws, raw.Fits Frame.maxBodyLen := by simpa [hfits₁] using hfits
    obtain ⟨later, hlater⟩ := drain_frames_prefix Frame.maxBodyLen (j.client.wireOf i) more
    rw [hwire, hscript, ← wireForm_cons, drain_wireForm hall] at hlater
    change _ ++ later = raw₁ :: raws at hlater
    have hraw : (raw₁ :: raws)[n]? = some raw := by
      obtain ⟨hn, -⟩ := List.getElem?_eq_some_iff.mp h
      rw [← hlater, List.getElem?_append_left hn, h]
    cases n with
    | zero =>
      obtain rfl : raw₁ = raw := by simpa using hraw
      rw [hseq₁]
      rfl
    | succ n =>
      rw [hseqs n raw (by simpa using hraw), Int32.ofNat_add (n + 1), Int32.ofNat_add n,
        Int32.add_comm, Int32.add_assoc]
      rfl

lemma Sound.place_unique {j : Journal} (hsound : j.Sound) {i k : Nat} {item : Outgoing}
    {before before' after after' : List Outgoing} (hcaller : item.caller = some k)
    (h : j.queued i = before ++ item :: after) (h' : j.queued i = before' ++ item :: after') :
    before = before' := by
  have hnotMem : ∀ {before after : List Outgoing}, j.queued i = before ++ item :: after →
      item ∉ before := by
    intro before after hqueued hmem
    have honce := hsound.once i
    rw [hqueued, List.filterMap_append, List.nodup_append] at honce
    obtain ⟨-, -, hdisjoint⟩ := honce
    have hk : k ∈ before.filterMap (·.caller) := List.mem_filterMap.mpr ⟨item, hmem, hcaller⟩
    exact hdisjoint k hk k (by simp [hcaller]) rfl
  rcases List.append_eq_append_iff.mp (h.symm.trans h') with ⟨more, rfl, hmore⟩ |
    ⟨more, rfl, hmore⟩
  · cases more with
    | nil => simp
    | cons x more =>
      obtain ⟨rfl, -⟩ := List.cons.inj hmore
      exact absurd (by simp) (hnotMem h')
  · cases more with
    | nil => simp
    | cons x more =>
      obtain ⟨rfl, -⟩ := List.cons.inj hmore
      exact absurd (by simp) (hnotMem h)

/-- What becomes of an item that the writer is done with is what encoding it says. -/
lemma Sound.fate_of_behind {j : Journal} (hsound : j.Sound) {i k : Nat} {item : Outgoing}
    {before after : List Outgoing} {slot : Slot (Except Error Int32)}
    (hcaller : item.caller = some k) (hbehind : j.behind i = before ++ item :: after)
    (h : j.Fate i item slot) :
    slot = .full (((item.frame j.version (numberBehind j.version firstSeq before)).encode).map
      fun _ => numberBehind j.version firstSeq before) := by
  obtain ⟨⟨more, hqueued⟩, -⟩ := hsound.laid i
  have hplace : j.queued i = before ++ item :: (after ++ more) := by rw [← hqueued, hbehind]; simp
  have hbehind' : ∀ {before' after' : List Outgoing}, j.behind i = before' ++ item :: after' →
      before' = before := by
    intro before' after' hitem
    refine hsound.place_unique hcaller (?_ : _ = before' ++ item :: (after' ++ more)) hplace
    rw [← hqueued, hitem]
    simp
  have hahead : ∀ before' after', j.queued i ≠ j.behind i ++ (before' ++ item :: after') := by
    intro before' after' hitem
    rw [← List.append_assoc] at hitem
    have hlength := congrArg List.length (hsound.place_unique hcaller hitem hplace)
    simp [hbehind] at hlength
  cases h with
  | written before' after' octets hitem hencode =>
    obtain rfl := hbehind' hitem
    rw [version, hencode]
    rfl
  | skipped before' after' e hitem hencode htransport =>
    obtain rfl := hbehind' hitem
    rw [version, hencode]
    rfl
  | refused before' after' hover hitem => exact absurd hitem (hahead before' after')
  | lost before' after' hover hitem => exact absurd hitem (hahead before' after')

lemma Sound.not_mem_behind_of_closed {j : Journal} (hsound : j.Sound) {k : Nat} {call : Call}
    {item : Outgoing} (h : j.Settles k call (.failed .connectionClosed))
    (hwants : call.wants ≠ .receipt) (hasked : j.asked[k]? = some (some item)) :
    item ∉ j.behind call.connection := by
  intro hmem
  have hcaller := hsound.caller k item hasked
  obtain ⟨before, after, hbehind⟩ := List.append_of_mem hmem
  have hfate : ∀ {item' slot}, j.asked[k]? = some (some item') →
      j.Fate call.connection item' slot → j.Fate call.connection item slot := by
    intro item' slot hasked' hfate
    rw [hasked, Option.some.injEq, Option.some.injEq] at hasked'
    subst hasked'
    exact hfate
  cases h with
  | failed item' e hasked' h =>
    have hslot := hsound.fate_of_behind hcaller hbehind (hfate hasked' h)
    cases hencode : (item.frame j.version (numberBehind j.version firstSeq before)).encode with
    | ok octets =>
      rw [hencode] at hslot
      cases hslot
    | error e =>
      have hclosed := Frame.ne_connectionClosed_of_encode hencode
      rw [hencode] at hslot
      cases hslot
      exact hclosed rfl
  | lost item' hasked' h => cases hsound.fate_of_behind hcaller hbehind (hfate hasked' h)
  | awaited item' seq _ hasked' hwants' h houtcome => exact absurd hwants' hwants

lemma ofNat_ne_ofNat {m n : Nat} (hlt : m < n) (hnear : n < m + 2 ^ 32) :
    Int32.ofNat m ≠ Int32.ofNat n := by
  intro h
  have hbits := congrArg (fun x => x.toBitVec.toNat) h
  simp only [Int32.toBitVec_ofNat', BitVec.toNat_ofNat] at hbits
  omega

lemma Sound.waiting {j : Journal} (hsound : j.Sound) {i : Nat}
    (hwrites : writesOf (j.client.phase? i) = true) :
    j.queued i = j.behind i ++ aheadOf (j.client.phase? i) := by
  have hlane := hsound.lanes i
  generalize j.client.phase? i = phase at hlane hwrites
  cases hlane with
  | writing s holder h => exact h.queued
  | stopped s holder hopen hahead h =>
    have hclosed : s.outbox.isOpen = false := hopen
    simp [writesOf, hclosed] at hwrites
  | _ => cases hwrites

lemma Sound.queued_of_ahead {j : Journal} (hsound : j.Sound) {i : Nat}
    (hahead : aheadOf (j.client.phase? i) ≠ []) : overOf (j.client.phase? i) = false ∧
      j.queued i = j.behind i ++ aheadOf (j.client.phase? i) := by
  have hlane := hsound.lanes i
  generalize j.client.phase? i = phase at hlane hahead
  cases hlane with
  | writing s holder h =>
    have hopen : s.outbox.isOpen = true := h.isOpen
    exact ⟨by rw [overOf, hopen]; rfl, h.queued⟩
  | stopped s holder hopen hnil h => exact absurd hnil hahead
  | _ => exact absurd rfl hahead

lemma Sound.not_fate_of_ahead {j : Journal} (hsound : j.Sound) {i k : Nat} {item : Outgoing}
    (hitem : item ∈ aheadOf (j.client.phase? i)) (hcaller : item.caller = some k)
    (slot : Slot (Except Error Int32)) : item ∉ j.behind i ∧ ¬ j.Fate i item slot := by
  obtain ⟨hover, hqueued⟩ := hsound.queued_of_ahead (List.ne_nil_of_mem hitem)
  have hbehind : item ∉ j.behind i := by
    intro hmem
    have honce := hsound.once i
    rw [hqueued, List.filterMap_append, List.nodup_append] at honce
    obtain ⟨-, -, hdisjoint⟩ := honce
    exact hdisjoint k (List.mem_filterMap.mpr ⟨item, hmem, hcaller⟩) k
      (List.mem_filterMap.mpr ⟨item, hitem, hcaller⟩) rfl
  refine ⟨hbehind, fun hfate => ?_⟩
  cases hfate with
  | written before after octets h hencode => exact hbehind (by simp [h])
  | skipped before after e h hencode htransport => exact hbehind (by simp [h])
  | refused before after h hqueued => cases hover.symm.trans h
  | lost before after h hqueued => cases hover.symm.trans h

end Journal

end Parley
