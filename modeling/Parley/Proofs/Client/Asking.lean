import Parley.Proofs.Client.Receipts
import Parley.Proofs.Client.Standing

/-!
# What a connection queues first

A connection that has been accepted queues the requests for all scopes before it is ready. They go
through the same bounded queue as everything else; but as long as they are not all queued, nobody
else has a place in it, because calls can be made only on a connection that has been ready, and
frames are answered only then. Main statement: `CatchesUp.moved`.
-/

namespace Parley

namespace Client
variable {c c' : Client} {i : Nat}

/-! ## Calls -/

def callees (c : Client) : List Nat := c.calls.map (·.connection)

/-- Calls are on connections that have been ready. -/
def CallsReady (c : Client) : Prop :=
  ∀ i ∈ c.callees, ∃ standing, c.standing? i = some standing ∧
    Standing.running.rank ≤ standing.rank

lemma callees_modify {f : Call → Call} (hf : ∀ call, (f call).connection = call.connection)
    (calls : List Call) (k : Nat) :
    (calls.modify k f).map (·.connection) = calls.map (·.connection) := by
  refine List.ext_getElem? fun n => ?_
  rw [List.getElem?_map, List.getElem?_map, List.getElem?_modify]
  by_cases hn : k = n
  · simp [hn, hf, Function.comp_def]
  · simp [hn]

lemma callees_setStage (c : Client) (k : Nat) (stage : CallStage) :
    (c.setStage k stage).callees = c.callees :=
  callees_modify (by intro call; rfl) c.calls k

lemma callees_applyNotes (c : Client) (notes : List Note) :
    (c.applyNotes notes).callees = c.callees := by
  induction notes generalizing c with
  | nil => rfl
  | cons n notes ih =>
    refine (ih _).trans ?_
    cases n <;> exact callees_modify (by intro call; rfl) c.calls _

lemma callees_play (c : Client) (t : Turn) : (c.play t).callees = c.callees ∨
    ∃ i, (c.handle? i).isSome ∧ (c.play t).callees = c.callees ++ [i] := by
  have hsame {d : Client} (h : (c.play t).calls = d.calls) : (c.play t).callees = d.callees := by
    rw [callees, h, callees]
  cases c.calls_play t with
  | wrote i s s' holder notes hmove hphase hwrite hcalls =>
    exact .inl ((hsame hcalls).trans (callees_applyNotes c notes))
  | heard i s holder step hmove hphase hstep hcalls =>
    exact .inl ((hsame hcalls).trans (callees_applyNotes c step.notes))
  | stepped k stage hmove hcalls => exact .inl ((hsame hcalls).trans (callees_setStage c k stage))
  | started new hnew hcalls =>
    rcases hnew with rfl | ⟨call, rfl, -, hhandle⟩
    · exact .inl (hsame (hcalls.trans (List.append_nil _)))
    · exact .inr ⟨call.connection, hhandle, by rw [callees, hcalls, List.map_append]; rfl⟩

lemma standing?_of_handle? (h : (c.handle? i).isSome) :
    ∃ standing, c.standing? i = some standing ∧ Standing.running.rank ≤ standing.rank := by
  unfold handle? at h
  split at h
  · rename_i s holder hphase
    split at h
    · cases h
    · rename_i hstage
      refine ⟨s.standing, by rw [standing?, hphase]; rfl, ?_⟩
      unfold Session.standing
      split
      · rename_i requests hstarting
        exact absurd hstarting (hstage requests)
      · decide
      · decide
      · decide
  · cases h

lemma standing?_mono (t : Turn) {old : Standing} (hold : c.standing? i = some old) :
    ∃ new, (c.play t).standing? i = some new ∧ old.rank ≤ new.rank := by
  have hstays (h : Stays c (c.play t)) :
      ∃ new, (c.play t).standing? i = some new ∧ old.rank ≤ new.rank :=
    ⟨old, (h.standing i).trans hold, Nat.le_refl _⟩
  have harrives {j : Nat} {standing : Standing} (h : Arrives c (c.play t) j standing) :
      ∃ new, (c.play t).standing? i = some new ∧ old.rank ≤ new.rank := by
    by_cases hi : i = j
    · subst hi
      exact ⟨standing, h.here, Nat.le_of_lt (h.rank old hold)⟩
    · exact ⟨old, (h.others i hi).trans hold, Nat.le_refl _⟩
  cases c.shared t with
  | still h => exact hstays h
  | heard j s step hhears hended h => exact hstays h
  | tracked j id g hmove h => exact hstays h
  | arrived j standing h => exact harrives h
  | welcomed j hmove h => exact harrives h
  | ended j hmove h => exact harrives h

lemma standing?_playAll {old : Standing} (hold : c.standing? i = some old) (ts : List Turn) :
    ∃ new, (c.playAll ts).standing? i = some new ∧ old.rank ≤ new.rank := by
  induction ts using List.reverseRecOn with
  | nil => exact ⟨old, hold, Nat.le_refl _⟩
  | append_singleton ts t ih =>
    obtain ⟨mid, hmid, hle⟩ := ih
    obtain ⟨new, hnew, hle'⟩ := standing?_mono t hmid
    rw [playAll_concat]
    exact ⟨new, hnew, hle.trans hle'⟩

lemma CallsReady.play (h : c.CallsReady) (t : Turn) : (c.play t).CallsReady := by
  intro i hi
  have hbefore : ∃ standing, c.standing? i = some standing ∧
      Standing.running.rank ≤ standing.rank := by
    rcases c.callees_play t with hsame | ⟨j, hhandle, hnew⟩
    · exact h i (hsame ▸ hi)
    · rw [hnew, List.mem_append, List.mem_singleton] at hi
      rcases hi with hi | rfl
      · exact h i hi
      · exact standing?_of_handle? hhandle
  obtain ⟨old, hold, hrank⟩ := hbefore
  obtain ⟨new, hnew, hle⟩ := standing?_mono t hold
  exact ⟨new, hnew, hrank.trans hle⟩

lemma CallsReady.playAll (h : c.CallsReady) (ts : List Turn) : (c.playAll ts).CallsReady := by
  induction ts using List.reverseRecOn with
  | nil => exact h
  | append_singleton ts t ih =>
    rw [playAll_concat]
    exact ih.play t

lemma CallsReady.not_mem_callees (h : c.CallsReady) {s : Session} {holder : Holder}
    {requests : List Message} (hphase : c.phase? i = some (.established s holder))
    (hstage : s.stage = .starting requests) : i ∉ c.callees := by
  intro hi
  obtain ⟨standing, hstanding, hrank⟩ := h i hi
  rw [standing?, hphase, Option.map_some, Phase.standing, standing_of_stage hstage] at hstanding
  cases hstanding
  exact absurd hrank (by decide)

lemma Moved.of_established (h : c.Moved c') (hcalls : i ∉ c.callees) {s : Session}
    {holder : Holder} (hphase : c.phase? i = some (.established s holder)) :
    c'.phase? i = c.phase? i ∨
      (s.startup c.now = .failed ∧ c'.phase? i = some .failed) ∨
      ∃ s' holder' p' notes, s.Moved c.now c.progress s' p' notes ∧
        c'.phase? i = some (.established s' holder') := by
  have hcallee {k : Nat} {call : Call} (hcall : c.calls[k]? = some call) : call.connection ≠ i := by
    rintro rfl
    exact hcalls (List.mem_map_of_mem (List.mem_of_getElem? hcall))
  -- the phase of another connection has changed
  have hother {d : Client} {j : Nat} {phase : Phase} (hj : j ≠ i)
      (hphases : c'.phase? i = (d.setPhase j phase).phase? i) (hd : d.phase? i = c.phase? i) :
      c'.phase? i = c.phase? i :=
    hphases.trans ((phase?_setPhase_ne d hj phase).trans hd)
  have hgreeting {j : Nat} {g : Handshake} {link : Link}
      (hj : c.phase? j = some (.greeting g link)) : j ≠ i := by
    rintro rfl
    cases hphase.symm.trans hj
  cases h with
  | still h => exact .inl (phase?_congr h i)
  | joined id phase hjoined h =>
    rw [phase?_congr h, phase?_append]
    split
    · rename_i hi
      rw [phase?_of_length_le c hi.ge] at hphase
      cases hphase
    · exact .inl rfl
  | called new engine hnew hengine h => exact .inl (phase?_congr h i :)
  | greeted j g g' link link' hj hstep h =>
    exact .inl (hother (hgreeting hj) (phase?_congr h i :) rfl)
  | befell j g link e hj h => exact .inl (hother (hgreeting hj) (phase?_congr h i :) rfl)
  | rejected j e link hj h => exact .inl (hother (hgreeting hj) (phase?_congr h i :) rfl)
  | began j link hj h => exact .inl (hother (hgreeting hj) (phase?_congr h i :) rfl)
  | failed j s' holder' hj hstartup h =>
    by_cases hi : j = i
    · subst hi
      obtain ⟨rfl, rfl⟩ : s = s' ∧ holder = holder' := by simpa using hphase.symm.trans hj
      exact .inr (.inl ⟨hstartup, (phase?_congr h j).trans (phase?_setPhase_self c hphase _)⟩)
    · exact .inl (hother hi (phase?_congr h i :) rfl)
  | session j s₁ s' holder₁ holder' p' notes hj hmoved h =>
    have hphase' := (phase?_congr h i).trans (phase?_applyNotes _ notes i)
    by_cases hi : j = i
    · subst hi
      obtain ⟨rfl, rfl⟩ : s = s₁ ∧ holder = holder₁ := by simpa using hphase.symm.trans hj
      refine .inr (.inr ⟨s', holder', p', notes, hmoved, hphase'.trans ?_⟩)
      exact phase?_setPhase_self _ hphase _
    · exact .inl (hother hi hphase' rfl)
  | offered k call item s' holder' outbox hcall hstage hj hoffer h =>
    exact .inl (hother (hcallee hcall) (phase?_congr h i :) rfl)
  | lined k call item s' holder' outbox hcall hstage hj hoffer h =>
    exact .inl (hother (hcallee hcall) (phase?_congr h i :) rfl)
  | settled k call stage hcall hstage h => exact .inl (phase?_congr h i :)
  | expired k call s' holder' seq deadline hcall hstage hreceipt hdue hj h =>
    exact .inl (hother (hcallee hcall) (phase?_congr h i :) rfl)

end Client

/-! ## Queueing the requests -/

def Outgoing.own (m : Message) : Outgoing := { message := m }

namespace Session
variable {s s' : Session} {p p' : Progress} {now : Nat} {notes : List Note}
  {requests : List Message}

/-- A session has still to queue requests, and nobody else is in line for the room there is. -/
structure Asks (s : Session) (requests : List Message) : Prop where
  stage : s.stage = .starting requests
  line : ∀ who ∈ s.outbox.line, who = .startup
  capacity : 0 < s.outbox.capacity

lemma Heard.stage_ne_starting {step : Step} (h : s.Heard p now step) (requests : List Message) :
    s.stage ≠ .starting requests := by
  intro hstarting
  cases h with
  | refilled ev backlog hstage hbacklog hroom =>
    rcases hstage with hstage | hstage <;> cases hstarting.symm.trans hstage
  | _ => simp_all

lemma Written.outbox (h : s.Written s' notes) :
    s'.outbox.capacity = s.outbox.capacity ∧ s'.outbox.line ⊆ s.outbox.line := by
  cases h with
  | refused item items tracker replaced e hflight hitems hregister hencode htransport =>
    exact ⟨rfl, List.nil_subset _⟩
  | broken flight left link e hflight hwrite => exact ⟨rfl, List.nil_subset _⟩
  | _ => exact ⟨rfl, List.Subset.refl _⟩

/-- The requests are queued one after another, and nothing else is. -/
theorem Asks.moved (h : s.Asks requests) (hmoved : s.Moved now p s' p' notes) :
    ∃ front rest, requests = front ++ rest ∧
      s'.sending.ahead.drop s.sending.ahead.length = front.map .own ∧
      (s'.Asks rest ∨ rest = []) := by
  have hsame (hahead : s'.sending.ahead = s.sending.ahead) (hasks : s'.Asks requests ∨
      requests = []) : ∃ front rest, requests = front ++ rest ∧
        s'.sending.ahead.drop s.sending.ahead.length = front.map .own ∧
        (s'.Asks rest ∨ rest = []) :=
    ⟨[], requests, rfl, by rw [hahead, List.drop_length]; rfl, hasks⟩
  cases hmoved with
  | ready hready =>
    obtain ⟨hstage, rfl⟩ := startup_ready hready
    obtain rfl : requests = [] := by simpa using h.stage.symm.trans hstage
    exact hsame rfl (.inr rfl)
  | going hgoing =>
    obtain ⟨m, rest, outbox, hstage, ⟨hoffer, rfl⟩ | ⟨hoffer, rfl⟩⟩ := startup_going hgoing
    · obtain rfl : requests = m :: rest := by simpa using h.stage.symm.trans hstage
      obtain ⟨-, rfl⟩ := Outbox.offer_taken hoffer
      refine ⟨[m], rest, rfl, ?_, .inl ⟨rfl, ?_, h.capacity⟩⟩
      · simp [Sending.ahead, sending, Outgoing.own]
      · exact fun who hwho => h.line who (List.mem_of_mem_erase hwho)
    · obtain ⟨-, rfl⟩ := Outbox.offer_lined hoffer
      refine hsame rfl (.inl ⟨h.stage, fun who hwho => ?_, h.capacity⟩)
      rcases List.mem_append.mp hwho with hwho | hwho
      · exact h.line who hwho
      · exact List.mem_singleton.mp hwho
  | wrote hwrite =>
    have hwritten := written_of_write? hwrite
    obtain ⟨chunks, -, hconveys⟩ : ∃ chunks : List Bytes,
        s'.link.written = s.link.written ++ chunks ∧
          Conveys (fun _ => False) s.sending s'.sending chunks.flatten notes := hwritten.conveys
    obtain ⟨hcapacity, hline⟩ := hwritten.outbox
    refine ⟨[], requests, rfl, ?_, .inl ⟨hwritten.stage.trans h.stage, ?_, ?_⟩⟩
    · exact List.eq_nil_iff_forall_not_mem.mpr fun item hitem => hconveys.origin_of_ahead hitem
    · exact fun who hwho => h.line who (hline hwho)
    · exact hcapacity ▸ h.capacity
  | read hheard => exact absurd h.stage (hheard.stage_ne_starting requests)
  | took htake =>
    obtain ⟨items, -, rfl⟩ := takeEvent?_cases htake
    exact hsame rfl (.inl ⟨h.stage, h.line, h.capacity⟩)
  | _ => exact hsame rfl (.inl ⟨h.stage, h.line, h.capacity⟩)

lemma Asks.offer_of_empty (h : s.Asks requests) (hopen : s.outbox.isOpen = true)
    (hitems : s.outbox.items = []) (item : Outgoing) :
    ∃ outbox, s.outbox.offer .startup item = .taken outbox := by
  have hplace : s.outbox.place .startup = 0 := by
    unfold Outbox.place
    cases hline : s.outbox.line with
    | nil => rfl
    | cons who line =>
      rw [h.line who (by rw [hline]; exact List.mem_cons_self)]
      exact List.idxOf_cons_self
  have hroom : s.outbox.place .startup < s.outbox.room := by
    rw [hplace, Outbox.room, hitems]
    exact h.capacity
  exact ⟨_, by simp [Outbox.offer, hopen, hroom]; rfl⟩

lemma Asks.startup_ne_stuck (h : s.Asks requests) (hopen : s.outbox.isOpen = true)
    (hitems : s.outbox.items = []) (now : Nat) : s.startup now ≠ .stuck := by
  unfold startup
  rw [h.stage]
  cases requests with
  | nil => simp
  | cons m requests =>
    obtain ⟨outbox, hoffer⟩ := h.offer_of_empty hopen hitems { message := m }
    simp [hoffer]

end Session

/-- The items of a connection that has begun to queue them, or has queued them all, or has failed
before. -/
inductive CatchesUp (items queued : List Outgoing) : Option Phase → Prop
  | asking (s : Session) (holder : Holder) (requests : List Message) (h : s.Asks requests)
    (hitems : queued ++ requests.map .own = items) :
    CatchesUp items queued (some (.established s holder))
  | asked (phase : Option Phase) (h : items <+: queued) : CatchesUp items queued phase
  | failed (h : queued <+: items) : CatchesUp items queued (some .failed)

/-- A move of the client goes on with the requests of a connection that no call is on yet. -/
theorem CatchesUp.moved {c c' : Client} {i : Nat} {items queued : List Outgoing}
    (h : CatchesUp items queued (c.phase? i)) (hmoved : c.Moved c') (hready : c.CallsReady) :
    CatchesUp items (queued ++ newly (c.phase? i) (c'.phase? i)) (c'.phase? i) := by
  generalize hphase : c.phase? i = phase at h
  cases h with
  | asked _ h => exact .asked _ (h.trans (List.prefix_append _ _))
  | failed h =>
    obtain ⟨out, -, hpasses⟩ := hmoved.passes i
    rw [hphase] at hpasses
    generalize c'.phase? i = phase' at hpasses ⊢
    cases hpasses with
    | same =>
      rw [newly_self, List.append_nil]
      exact .failed h
  | asking s holder requests h hitems =>
    rcases hmoved.of_established (hready.not_mem_callees hphase h.stage) hphase with
      hsame | ⟨-, hfailed⟩ | ⟨s', holder', p', notes, hstep, hphase'⟩
    · rw [hsame, hphase, newly_self, List.append_nil]
      exact .asking s holder requests h hitems
    · rw [hfailed, newly_of_ahead_nil rfl, List.append_nil]
      exact .failed (hitems ▸ List.prefix_append _ _)
    · rw [hphase']
      obtain ⟨front, rest, rfl, hnewly, hrest⟩ := h.moved hstep
      have hqueued : queued ++ newly (some (.established s holder))
          (some (.established s' holder')) ++ rest.map .own = items := by
        rw [newly, aheadOf, aheadOf, hnewly, List.append_assoc, ← List.map_append, hitems]
      rcases hrest with hasks | rfl
      · exact .asking s' holder' rest hasks hqueued
      · rw [List.map_nil, List.append_nil] at hqueued
        exact .asked _ (hqueued ▸ List.prefix_refl _)

end Parley
