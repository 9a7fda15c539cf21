import Parley.Proofs.Client.CatchingUp

/-!
# Who waits for room

Whoever finds the queue of a connection full gets in line. Everybody in line still has something to
queue (`Client.LinesUp`), so that nobody is left there when all who are in line have gone on as far
as they can and nothing holds the writer up (`Client.LinesUp.idles`).
-/

namespace Parley

namespace Session
variable {s s' : Session} {p : Progress} {now : Nat} {notes : List Note} {who : Sender}
  {item : Outgoing} {outbox : Outbox} {offers offers' : Nat → Prop}

/-- Whether somebody has something to queue: calls are told by a predicate. -/
def Needs (offers : Nat → Prop) (s : Session) : Sender → Prop
  | .startup => ∃ m requests, s.stage = .starting (m :: requests)
  | .reading => ∃ m duties, s.stage = .live (.send m :: duties)
  | .call k => offers k

/-- Those in line for the queue of a session have something to queue, and each is there once. -/
structure Lines (offers : Nat → Prop) (s : Session) : Prop where
  capacity : 0 < s.outbox.capacity
  nodup : s.outbox.line.Nodup
  needs : ∀ who ∈ s.outbox.line, s.Needs offers who
  closed : s.outbox.isOpen = false → s.outbox.line = []

namespace Lines

lemma of_nil (hcapacity : 0 < s.outbox.capacity) (hline : s.outbox.line = []) :
    s.Lines offers := by
  refine ⟨hcapacity, ?_, ?_, fun _ => hline⟩
  · rw [hline]
    exact .nil
  · rw [hline]
    intro who hwho
    cases hwho

lemma mono (h : s.Lines offers) (houtbox : s'.outbox = s.outbox)
    (hneeds : ∀ who ∈ s.outbox.line, s.Needs offers who → s'.Needs offers' who) :
    s'.Lines offers' := by
  refine ⟨?_, ?_, ?_, ?_⟩
  all_goals rw [houtbox]
  · exact h.capacity
  · exact h.nodup
  · exact fun who hwho => hneeds who hwho (h.needs who hwho)
  · exact h.closed

lemma congr (h : s.Lines offers) (houtbox : s'.outbox = s.outbox) (hstage : s'.stage = s.stage) :
    s'.Lines offers := by
  refine h.mono houtbox fun who _ hneeds => ?_
  cases who with
  | startup =>
    obtain ⟨m, requests, hstarting⟩ := hneeds
    exact ⟨m, requests, hstage.trans hstarting⟩
  | reading =>
    obtain ⟨m, duties, hlive⟩ := hneeds
    exact ⟨m, duties, hstage.trans hlive⟩
  | call k => exact hneeds

lemma taken (h : s.Lines offers) (hoffer : s.outbox.offer who item = .taken outbox)
    (houtbox : s'.outbox = outbox)
    (hneeds : ∀ other, other ≠ who → s.Needs offers other → s'.Needs offers other) :
    s'.Lines offers ∧ who ∉ s'.outbox.line := by
  obtain ⟨hopen, rfl⟩ := Outbox.offer_taken hoffer
  refine ⟨⟨?_, ?_, ?_, ?_⟩, ?_⟩
  all_goals rw [houtbox]
  · exact h.capacity
  · exact h.nodup.erase who
  · intro other hother
    obtain ⟨hne, hmem⟩ := h.nodup.mem_erase_iff.mp hother
    exact hneeds other hne (h.needs other hmem)
  · intro hclosed
    cases hopen.symm.trans hclosed
  · exact h.nodup.not_mem_erase

lemma lined (h : s.Lines offers) (hoffer : s.outbox.offer who item = .lined outbox)
    (houtbox : s'.outbox = outbox) (hstage : s'.stage = s.stage) (hwho : s.Needs offers who) :
    s'.Lines offers := by
  have hnew : who ∉ s.outbox.line := by
    intro hmem
    have hcontains : s.outbox.line.contains who = true := List.contains_iff_mem.mpr hmem
    simp only [Outbox.offer, hcontains, if_true] at hoffer
    split at hoffer
    · cases hoffer
    · split at hoffer <;> cases hoffer
  obtain ⟨hopen, rfl⟩ := Outbox.offer_lined hoffer
  have hline : (s.outbox.line ++ [who]).Nodup := by
    rw [List.nodup_append]
    refine ⟨h.nodup, List.nodup_singleton who, ?_⟩
    rintro other hother last hlast rfl
    exact hnew (List.mem_singleton.mp hlast ▸ hother)
  have hbehind : Lines offers
      { s with outbox := { s.outbox with line := s.outbox.line ++ [who] } } := by
    refine ⟨h.capacity, hline, ?_, ?_⟩
    · intro other hother
      rcases List.mem_append.mp hother with hother | hother
      · exact h.needs other hother
      · exact List.mem_singleton.mp hother ▸ hwho
    · intro hclosed
      cases hopen.symm.trans hclosed
  exact hbehind.congr houtbox hstage

lemma written (h : s.Lines offers) (hwritten : s.Written s' notes) : s'.Lines offers := by
  have hstage := hwritten.stage
  have hitems {items : List Outgoing}
      (houtbox : s'.outbox = { s.outbox with items }) : s'.Lines offers := by
    have hbefore : Lines offers { s with outbox := { s.outbox with items } } :=
      ⟨h.capacity, h.nodup, h.needs, h.closed⟩
    exact hbefore.congr houtbox hstage
  cases hwritten with
  | numbered item items => exact hitems rfl
  | skipped item items => exact hitems rfl
  | refused item items => exact of_nil h.capacity rfl
  | advanced flight => exact h.congr rfl rfl
  | completed flight => exact h.congr rfl rfl
  | broken flight => exact of_nil h.capacity rfl

lemma heard {step : Step} (h : s.Lines offers) (hheard : s.Heard p now step) :
    step.session.Lines offers := by
  -- Only a message at the head of the duties keeps the reading side in line.
  have hduties (hsend : ∀ m duties, s.stage ≠ .live (.send m :: duties))
      (houtbox : step.session.outbox = s.outbox) : step.session.Lines offers := by
    refine h.mono houtbox fun who _ hneeds => ?_
    cases who with
    | startup =>
      obtain ⟨m, requests, hstage⟩ := hneeds
      exact absurd hstage (hheard.stage_ne_starting _)
    | reading =>
      obtain ⟨m, duties, hstage⟩ := hneeds
      exact absurd hstage (hsend m duties)
    | call k => exact hneeds
  cases hheard with
  | sent m rest outbox hstage hoffer =>
    refine (h.taken hoffer rfl fun other hne hneeds => ?_).1
    cases other with
    | startup =>
      obtain ⟨m', requests, hstarting⟩ := hneeds
      cases hstage.symm.trans hstarting
    | reading => exact absurd rfl hne
    | call k => exact hneeds
  | lined m rest outbox hstage hoffer => exact h.lined hoffer rfl rfl ⟨m, rest, hstage⟩
  | persisted scope key cursors rest hstage => exact hduties (by simp [hstage]) rfl
  | committed scope key persisted rest hstage => exact hduties (by simp [hstage]) rfl
  | handedOut duty ev rest backlog channel hstage hduty hput =>
    refine hduties ?_ rfl
    rintro m duties hsend
    cases hstage.symm.trans hsend
    cases hduty
  | dispatched raw link hstage hnext => exact hduties (by simp [hstage]) rfl
  | pinged hstage hdue => exact hduties (by simp [hstage]) rfl
  | refilled ev backlog hstage hbacklog hroom =>
    refine hduties ?_ rfl
    rintro m duties hsend
    rcases hstage with hstage | hstage <;> cases hstage.symm.trans hsend
  | left hstage hleft => exact hduties (by simp [hstage]) rfl
  | finished duties link reason hstage hduty hends => exact of_nil h.capacity rfl

lemma going (h : s.Lines offers) (hgoing : s.startup now = .going s') : s'.Lines offers := by
  obtain ⟨m, requests, outbox, hstage, ⟨hoffer, rfl⟩ | ⟨hoffer, rfl⟩⟩ := startup_going hgoing
  · refine (h.taken hoffer rfl fun other hne hneeds => ?_).1
    cases other with
    | startup => exact absurd rfl hne
    | reading =>
      obtain ⟨m', duties, hlive⟩ := hneeds
      cases hstage.symm.trans hlive
    | call k => exact hneeds
  · exact h.lined hoffer rfl rfl ⟨m, requests, hstage⟩

lemma ready (h : s.Lines offers) (hready : s.startup now = .ready s') : s'.Lines offers := by
  obtain ⟨hstage, rfl⟩ := startup_ready hready
  refine h.mono rfl fun who _ hneeds => ?_
  cases who with
  | startup =>
    obtain ⟨m, requests, hstarting⟩ := hneeds
    cases hstage.symm.trans hstarting
  | reading =>
    obtain ⟨m, duties, hlive⟩ := hneeds
    cases hstage.symm.trans hlive
  | call k => exact hneeds

end Lines

end Session

namespace Client
variable {c d : Client} {t : Turn} {i k : Nat} {s s' : Session} {holder : Holder}

def Offers (c : Client) (i k : Nat) : Prop :=
  ∃ call item, c.calls[k]? = some call ∧ call.connection = i ∧ call.stage = .offering item

/-- Those in line on the connections of a client have something to queue. -/
def LinesUp (c : Client) : Prop :=
  ∀ i s holder, c.phase? i = some (.established s holder) → s.Lines (c.Offers i)

lemma LinesUp.congr (h : c.LinesUp) (hphases : ∀ i, d.phase? i = c.phase? i)
    (hcalls : d.calls = c.calls) : d.LinesUp := by
  intro i s holder hphase
  have hoffers : d.Offers i = c.Offers i := by
    funext k
    rw [Offers, Offers, hcalls]
  rw [hoffers]
  exact h i s holder (hphases i ▸ hphase)

lemma LinesUp.setStage {stage : CallStage} (h : c.LinesUp)
    (hline : ∀ i s holder, c.phase? i = some (.established s holder) → c.Offers i k →
      .call k ∉ s.outbox.line) : (c.setStage k stage).LinesUp := by
  intro i s holder hphase
  refine (h i s holder hphase).mono rfl fun who hwho hneeds => ?_
  cases who with
  | startup => exact hneeds
  | reading => exact hneeds
  | call k' =>
    by_cases hk : k = k'
    · subst hk
      exact absurd hwho (hline i s holder hphase hneeds)
    · obtain ⟨call, item, hcall, hconnection, hstage⟩ := hneeds
      refine ⟨call, item, ?_, hconnection, hstage⟩
      rw [Client.setStage, List.getElem?_modify_ne _ _ hk]
      exact hcall

lemma LinesUp.setPhase (h : c.LinesUp) (hphase : c.phase? i = some (.established s holder))
    (hlines : s'.Lines (c.Offers i)) (holder' : Holder) :
    (c.setPhase i (.established s' holder')).LinesUp := by
  intro j s₁ holder₁ hphase₁
  by_cases hj : i = j
  · subst hj
    rw [c.phase?_setPhase_self hphase] at hphase₁
    cases hphase₁
    exact hlines
  · rw [c.phase?_setPhase_ne hj] at hphase₁
    exact h j s₁ holder₁ hphase₁

lemma Offers.eq_of_call {call : Call} (h : c.Offers i k) (hcall : c.calls[k]? = some call) :
    call.connection = i ∧ ∃ item, call.stage = .offering item := by
  obtain ⟨call', item, hcall', hconnection, hstage⟩ := h
  obtain rfl := Option.some.inj (hcall.symm.trans hcall')
  exact ⟨hconnection, item, hstage⟩

/-- What a step of a call does to the queue of its connection, and to the stage of the call. -/
inductive CallStepped (c : Client) (k : Nat) (call : Call) (s : Session) (holder : Holder)
    (c' : Client) : Prop
  | taken (item : Outgoing) (outbox : Outbox) (hstage : call.stage = .offering item)
    (hoffer : s.outbox.offer (.call k) item = .taken outbox)
    (h : c' = (c.setPhase call.connection (.established { s with outbox } holder)).setStage k
      .queued)
  | lined (item : Outgoing) (outbox : Outbox) (hstage : call.stage = .offering item)
    (hoffer : s.outbox.offer (.call k) item = .lined outbox)
    (h : c' = c.setPhase call.connection (.established { s with outbox } holder))
  | refused (item : Outgoing) (hstage : call.stage = .offering item)
    (hclosed : s.outbox.isOpen = false) (hphases : ∀ i, c'.phase? i = c.phase? i)
    (hcalls : c'.calls = (c.setStage k .finished).calls)
  | onward (s' : Session) (stage : CallStage) (hstage : ∀ item, call.stage ≠ .offering item)
    (houtbox : s'.outbox = s.outbox) (hsame : s'.stage = s.stage) (hflight : s'.flight = s.flight)
    (hphases : ∀ i, c'.phase? i =
      (c.setPhase call.connection (.established s' holder)).phase? i)
    (hcalls : c'.calls = (c.setStage k stage).calls)

lemma phase?_setPhase_same (hphase : c.phase? i = some (.established s holder)) (j : Nat) :
    (c.setPhase i (.established s holder)).phase? j = c.phase? j := by
  by_cases hj : i = j
  · subst hj
    rw [c.phase?_setPhase_self hphase, hphase]
  · exact c.phase?_setPhase_ne hj _

lemma calls_callNumbered (c : Client) (k : Nat) (call : Call) (seq : Int32) :
    ∃ stage, (c.callNumbered k call seq).calls = (c.setStage k stage).calls := by
  rw [callNumbered]
  split
  · exact ⟨_, rfl⟩
  · exact ⟨_, rfl⟩
  · exact ⟨_, rfl⟩

lemma callStepped {call : Call} {c' : Client}
    (hphase : c.phase? call.connection = some (.established s holder))
    (h : c.callOn? k call s holder = some c') : CallStepped c k call s holder c' := by
  have hkept {stage : CallStage} (hstage : ∀ item, call.stage ≠ .offering item)
      (hphases : ∀ i, c'.phase? i = c.phase? i) (hcalls : c'.calls = (c.setStage k stage).calls) :
      CallStepped c k call s holder c' :=
    .onward s stage hstage rfl rfl rfl
      (fun i => (hphases i).trans (phase?_setPhase_same hphase i).symm) hcalls
  rw [callOn?] at h
  split at h
  · rename_i item hstage
    simp only at h
    split at h
    · rename_i outbox hoffer
      exact .taken item outbox hstage hoffer (Option.some.inj h).symm
    · rename_i outbox hoffer
      exact .lined item outbox hstage hoffer (Option.some.inj h).symm
    · cases h
    · rename_i hoffer
      obtain rfl := Option.some.inj h
      exact .refused item hstage (Outbox.offer_closed hoffer) (fun i => rfl) rfl
  · rename_i hstage
    have hqueued : ∀ item, call.stage ≠ .offering item := by simp [hstage]
    split at h
    · cases h
    · obtain rfl := Option.some.inj h
      obtain ⟨stage, hcalls⟩ := calls_callNumbered c k call _
      exact hkept hqueued (phase?_callNumbered c k call _) hcalls
    · obtain rfl := Option.some.inj h
      exact hkept hqueued (fun i => rfl) rfl
    · obtain rfl := Option.some.inj h
      exact hkept hqueued (fun i => rfl) rfl
  · rename_i seq deadline hstage
    have hawaiting : ∀ item, call.stage ≠ .offering item := by simp [hstage]
    split at h
    · obtain rfl := Option.some.inj h
      exact hkept hawaiting (fun i => rfl) rfl
    · obtain rfl := Option.some.inj h
      exact hkept hawaiting (fun i => rfl) rfl
    · split at h
      · obtain rfl := Option.some.inj h
        exact .onward (s.forget seq).1 .finished hawaiting rfl rfl rfl (fun i => rfl) rfl
      · cases h
  · rename_i hstage
    split at h
    · cases h
    · obtain rfl := Option.some.inj h
      exact hkept (by simp [hstage]) (fun i => rfl) rfl
  · cases h

lemma callStepped_of_act? {c' : Client} (h : c.act? (.calling k) = some c') :
    ∃ call s holder, c.calls[k]? = some call ∧
      c.phase? call.connection = some (.established s holder) ∧
      CallStepped c k call s holder c' := by
  simp only [act?] at h
  split at h
  · cases h
  · rename_i call hcall
    split at h
    · rename_i s holder hphase
      exact ⟨call, s, holder, hcall, hphase, callStepped hphase h⟩
    · cases h

/-- A step of a call keeps all lines: it puts its item in, gets in line, or is in none. -/
lemma LinesUp.called {c' : Client} (h : c.LinesUp) (hstep : c.act? (.calling k) = some c') :
    c'.LinesUp := by
  obtain ⟨call, s, holder, hcall, hphase, hstepped⟩ := callStepped_of_act? hstep
  have hlines := h _ s holder hphase
  cases hstepped with
  | taken item outbox hstage hoffer hc' =>
    subst hc'
    obtain ⟨htaken, hout⟩ : Session.Lines (c.Offers call.connection) { s with outbox } ∧
        .call k ∉ outbox.line :=
      hlines.taken hoffer rfl fun other _ hneeds => by cases other <;> exact hneeds
    refine (h.setPhase hphase htaken holder).setStage ?_
    intro i s₁ holder₁ hphase₁ hoffers
    obtain ⟨rfl, -⟩ := hoffers.eq_of_call hcall
    rw [c.phase?_setPhase_self hphase] at hphase₁
    cases hphase₁
    exact hout
  | lined item outbox hstage hoffer hc' =>
    subst hc'
    have hlined : Session.Lines (c.Offers call.connection) { s with outbox } :=
      hlines.lined hoffer rfl rfl ⟨call, item, hcall, rfl, hstage⟩
    exact h.setPhase hphase hlined holder
  | refused item hstage hclosed hphases hcalls =>
    refine LinesUp.congr (h.setStage ?_) hphases hcalls
    intro i s₁ holder₁ hphase₁ hoffers
    obtain ⟨rfl, -⟩ := hoffers.eq_of_call hcall
    cases hphase.symm.trans hphase₁
    rw [hlines.closed hclosed]
    exact List.not_mem_nil
  | onward s' stage hstage houtbox hsame hflight hphases hcalls =>
    have hset : (c.setStage k stage).LinesUp := by
      refine h.setStage fun i s₁ holder₁ _ hoffers => ?_
      obtain ⟨-, item, hoffering⟩ := hoffers.eq_of_call hcall
      exact absurd hoffering (hstage item)
    have hs' : Session.Lines ((c.setStage k stage).Offers call.connection) s' :=
      (hset _ s holder hphase).congr houtbox hsame
    exact (hset.setPhase hphase hs' holder).congr hphases hcalls

lemma Offers.play (h : c.Offers i k) (hmove : t.move ≠ .act (.calling k)) :
    (c.play t).Offers i k := by
  obtain ⟨call, item, hcall, hconnection, hstage⟩ := h
  obtain ⟨call', hcall', hconnection', hstage'⟩ := call_unmoved hcall hmove
  exact ⟨call', item, hcall', hconnection'.trans hconnection, hstage'.trans hstage⟩

/-- What holds of a session holds of a phase that is one. -/
def PhaseLines (offers : Nat → Prop) (phase : Option Phase) : Prop :=
  ∀ s holder, phase = some (.established s holder) → s.Lines offers

lemma phaseLines_established {offers : Nat → Prop} (h : s.Lines offers) :
    PhaseLines offers (some (.established s holder)) := by
  rintro s' holder' ⟨⟩
  exact h

lemma PhaseMoved.lines {offers : Nat → Prop} {m : Move} {taken : Option Event}
    {old new : Option Phase} (h : PhaseMoved c i m taken old new)
    (hcapacity : 0 < c.config.delivery.outboundQueue) (hm : ∀ k, m ≠ .act (.calling k))
    (hold : PhaseLines offers old) : PhaseLines offers new := by
  have hsame {s s' : Session} {holder holder' : Holder}
      (hold : PhaseLines offers (some (.established s holder))) (houtbox : s'.outbox = s.outbox)
      (hstage : s'.stage = s.stage) : PhaseLines offers (some (.established s' holder')) :=
    phaseLines_established ((hold s holder rfl).congr houtbox hstage)
  cases h with
  | same m phase => exact hold
  | joined m phase hjoins hphase =>
    rintro s holder ⟨⟩
    rcases hphase with hphase | ⟨token, hphase⟩ <;> cases hphase
  | befell e g link => rintro s holder ⟨⟩
  | greeted g g' link link' h => rintro s holder ⟨⟩
  | rejected e link => rintro s holder ⟨⟩
  | failed s holder h => rintro s holder ⟨⟩
  | began link => exact phaseLines_established (.of_nil hcapacity rfl)
  | ready s s' holder h => exact phaseLines_established ((hold s holder rfl).ready h)
  | going s s' holder h => exact phaseLines_established ((hold s holder rfl).going h)
  | wrote s s' holder notes h =>
    exact phaseLines_established ((hold s holder rfl).written (Session.written_of_write? h))
  | read s step holder h =>
    exact phaseLines_established ((hold s holder rfl).heard (Session.heard_of_mem_choices h))
  | offered k => exact absurd rfl (hm k)
  | expired k => exact absurd rfl (hm k)
  | took s s' b ev hstash h =>
    obtain ⟨items, -, rfl⟩ := Session.takeEvent?_cases h
    exact hsame hold rfl rfl
  | passed id s s' b b' w w' ev htake h =>
    obtain ⟨items, -, rfl⟩ := Session.takeEvent?_cases htake
    exact hsame hold rfl rfl
  | found id s s' b b' w ev result tried htake h =>
    obtain ⟨items, -, rfl⟩ := Session.takeEvent?_cases htake
    exact hsame hold rfl rfl
  | _ => exact hsame hold rfl rfl

theorem LinesUp.play (h : c.LinesUp) (hcapacity : 0 < c.config.delivery.outboundQueue)
    (t : Turn) : (c.play t).LinesUp := by
  by_cases hcalling : ∃ k, t.move = .act (.calling k)
  · obtain ⟨k, hk⟩ := hcalling
    rw [play_of_ne (by rw [hk]; simp), hk, move]
    cases hstep : c.act? (.calling k) with
    | none => exact h
    | some c' => exact h.called hstep
  · have hmove (k : Nat) : t.move ≠ .act (.calling k) := fun hk => hcalling ⟨k, hk⟩
    intro i s holder hphase
    have hlines := (c.phaseMoved_play t i).lines hcapacity hmove (h i) s holder hphase
    refine hlines.mono rfl fun who _ hneeds => ?_
    cases who with
    | startup => exact hneeds
    | reading => exact hneeds
    | call k => exact hneeds.play (hmove k)

theorem linesUp_run {config : Config} {store : CursorStore} {tokens : List (Except Error String)}
    (hnew : new config store tokens = .ok c) (ts : List Turn) : (c.playAll ts).LinesUp := by
  induction ts using List.reverseRecOn with
  | nil =>
    obtain ⟨progress, rfl⟩ := eq_of_new hnew
    intro i s holder hphase
    cases hphase
  | append_singleton ts t ih =>
    rw [playAll_concat]
    refine ih.play ?_ t
    rw [config_playAll]
    exact (Feed.queues_pos_of_new hnew).1

end Client

/-! ## When all have gone on -/

lemma Link.write_ne_none {l : Link} (h : l.outbound.blocked = false) (bs : Bytes) :
    (l.write bs).1 ≠ none := by
  simp only [Link.write, Outbound.write, h, Outbound.stopped]
  cases hfailure : l.outbound.failure with
  | none => simp
  | some fault =>
    by_cases hslack : bs.length < l.outbound.slack <;> simp [hslack]

lemma Outbox.offer_of_head {b : Outbox} {who : Sender} {line : List Sender}
    (hopen : b.isOpen = true) (hcapacity : 0 < b.capacity) (hitems : b.items = [])
    (hline : b.line = who :: line) (item : Outgoing) : ∃ b', b.offer who item = .taken b' := by
  have hroom : b.place who < b.room := by
    rw [Outbox.place, hline, List.idxOf_cons_self, Outbox.room, hitems]
    exact hcapacity
  exact ⟨_, by simp only [Outbox.offer, hopen, if_pos hroom]; rfl⟩

lemma Outbox.offer_stuck {b : Outbox} {who : Sender} {item : Outgoing}
    (h : b.offer who item = .stuck) :
    b.isOpen = true ∧ ¬ b.place who < b.room ∧ who ∈ b.line := by
  rw [Outbox.offer] at h
  split at h
  · cases h
  · rename_i hopen
    split at h
    · cases h
    · rename_i hplace
      split at h
      · rename_i hcontains
        exact ⟨by simpa using hopen, hplace, List.contains_iff_mem.mp hcontains⟩
      · cases h

namespace Session
variable {s : Session} {p : Progress} {now : Nat}

/-- A writer that nothing holds up stands still only when it has written all. -/
lemma flight_of_write? (hblocked : s.link.outbound.blocked = false) (h : s.write? = none) :
    s.flight = none := by
  cases hflight : s.flight with
  | none => rfl
  | some flight =>
    have hanswer := s.link.write_ne_none hblocked flight.octets
    simp only [write?, hflight, writeFlight] at h
    split at h
    · rename_i octets link hwrite
      rw [hwrite] at hanswer
      exact absurd rfl hanswer
    · cases h
    · cases h

/-- The reading side stands still at a duty only when it is in line with a message. -/
lemma stuck_of_read? {duty : Duty} {duties : List Duty} (hstage : s.stage = .live (duty :: duties))
    (h : s.read? p now = none) :
    ∃ m, duty = .send m ∧ s.outbox.offer .reading { message := m } = .stuck := by
  simp only [read?, hstage] at h
  cases duty with
  | send m =>
    simp only [perform] at h
    split at h
    · cases h
    · cases h
    · rename_i hoffer
      exact ⟨m, rfl, hoffer⟩
    · cases h
  | deliver f => cases h
  | announce ev => cases h
  | persist scope key cursors => cases h
  | commit scope key persisted => cases h

/-- A session that runs, has nothing to do and waits for what comes next. -/
structure Idles (s : Session) (now : Nat) : Prop where
  stage : s.stage = .live []
  isOpen : s.outbox.isOpen = true
  items : s.outbox.items = []
  flight : s.flight = none
  early : now < s.keepalive.deadline

lemma Idles.running (h : s.Idles now) : s.standing = .running := by
  rw [standing, h.stage]

lemma idles_of_read? (hwrites : s.Writes) (hstage : s.stage = .live [])
    (hitems : s.outbox.items = []) (hflight : s.flight = none) (h : s.read? p now = none) :
    s.Idles now := by
  have hnone : s.choices p now = [] := by
    rw [read?_eq_head?] at h
    exact List.head?_eq_none_iff.mp h
  simp only [choices, hstage, List.append_eq_nil_iff, Option.toList_eq_nil_iff,
    Option.map_eq_none_iff] at hnone
  obtain ⟨⟨⟨⟨-, hkeep⟩, hfault⟩, -⟩, -⟩ := hnone
  have hopen : s.outbox.isOpen = true := by
    rw [hwrites (by rw [standing, hstage]; decide), hfault]
    rfl
  refine ⟨hstage, hopen, hitems, hflight, ?_⟩
  simp only [keepAlive, Keepalive.onIdle] at hkeep
  by_contra hlate
  simp [hlate] at hkeep

end Session

def Sender.actor (i : Nat) : Sender → Client.Actor
  | .startup => .connecting i
  | .reading => .reading i
  | .call k => .calling k

namespace Client
variable {c : Client} {i : Nat}

/-- A session runs, its writer is not held up, and neither its two sides nor those in line for its
queue can go on. -/
def waits (c : Client) (i : Nat) : Bool :=
  match c.phase? i with
  | some (.established s _) =>
    decide (s.standing = .running) && !s.link.outbound.blocked &&
      (.writing i :: .reading i :: s.outbox.line.map (·.actor i)).all fun a => (c.act? a).isNone
  | _ => false

lemma items_of_unblocked {s : Session} {holder : Holder}
    (hphase : c.phase? i = some (.established s holder))
    (hblocked : s.link.outbound.blocked = false) (h : c.act? (.writing i) = none) :
    s.flight = none ∧ s.outbox.items = [] := by
  have hflight : s.flight = none := by
    refine Session.flight_of_write? hblocked ?_
    simpa [act?, hphase, write?] using h
  exact ⟨hflight, items_of_act?_writing hphase h hflight⟩

lemma stuck_of_callOn? {s : Session} {holder : Holder} {k : Nat} {call : Call} {item : Outgoing}
    (hstage : call.stage = .offering item) (h : c.callOn? k call s holder = none) :
    s.outbox.offer (.call k) item = .stuck := by
  simp only [callOn?, hstage] at h
  split at h
  · cases h
  · cases h
  · assumption
  · cases h

/-- Whoever is first in line for the queue of a session goes on once the writer has taken all. -/
lemma LinesUp.head_goes_on {s : Session} {holder : Holder} {who : Sender} {line : List Sender}
    (h : c.LinesUp) (hphase : c.phase? i = some (.established s holder))
    (hopen : s.outbox.isOpen = true) (hitems : s.outbox.items = [])
    (hline : s.outbox.line = who :: line) : c.act? (who.actor i) ≠ none := by
  intro hstill
  have hlines := h i s holder hphase
  have hgets := Outbox.offer_of_head hopen hlines.capacity hitems hline
  have hneeds := hlines.needs who (by rw [hline]; exact List.mem_cons_self)
  cases who with
  | startup =>
    obtain ⟨m, requests, hstarting⟩ := hneeds
    obtain ⟨b, htaken⟩ := hgets { message := m }
    have hstuck := act?_connecting_of_established hphase hstill
    simp [Session.startup, hstarting, htaken] at hstuck
  | reading =>
    obtain ⟨m, duties, hlive⟩ := hneeds
    obtain ⟨b, htaken⟩ := hgets { message := m }
    have hread : s.read? c.progress c.now = none := by
      simpa [Sender.actor, act?, hphase, read?_eq] using hstill
    obtain ⟨m', hm, hstuck⟩ := Session.stuck_of_read? hlive hread
    cases hm
    cases hstuck.symm.trans htaken
  | call k =>
    obtain ⟨call, item, hcall, rfl, hoffering⟩ := hneeds
    obtain ⟨b, htaken⟩ := hgets item
    simp [Sender.actor, act?, hcall, hphase, callOn?, hoffering, htaken] at hstill

/-- Where nothing can go on, nothing is left to be done: nobody is in line, as the first would have
gone on. -/
theorem LinesUp.idles (h : c.LinesUp) (hwrites : Phase.Writes (c.phase? i))
    (hwaits : c.waits i = true) :
    ∃ s holder, c.phase? i = some (.established s holder) ∧ s.Idles c.now := by
  rw [waits] at hwaits
  split at hwaits
  · rename_i s holder hphase
    simp only [Bool.and_eq_true, decide_eq_true_eq, Bool.not_eq_true', List.all_cons,
      Option.isNone_iff_eq_none, List.all_map, List.all_eq_true, Function.comp_apply] at hwaits
    obtain ⟨⟨hrunning, hblocked⟩, hwriting, hreading, hline⟩ := hwaits
    obtain ⟨hflight, hitems⟩ := items_of_unblocked hphase hblocked hwriting
    have hread : s.read? c.progress c.now = none := by
      simpa [act?, hphase, read?_eq] using hreading
    have hlines := h i s holder hphase
    refine ⟨s, holder, hphase, ?_⟩
    cases hstage : s.stage with
    | starting requests => simp [Session.standing, hstage] at hrunning
    | leaving => simp [Session.standing, hstage] at hrunning
    | gone => simp [Session.standing, hstage] at hrunning
    | live duties =>
      cases duties with
      | nil => exact Session.idles_of_read? (hwrites s holder hphase) hstage hitems hflight hread
      | cons duty duties =>
        -- The reading side is in line, so that somebody is first there and could go on.
        exfalso
        obtain ⟨m, rfl, hstuck⟩ := Session.stuck_of_read? hstage hread
        obtain ⟨hopen, hplace, hmem⟩ := Outbox.offer_stuck hstuck
        obtain ⟨who, line, hwho⟩ := List.exists_cons_of_ne_nil (List.ne_nil_of_mem hmem)
        have hfirst : who ∈ s.outbox.line := by
          rw [hwho]
          exact List.mem_cons_self
        exact h.head_goes_on hphase hopen hitems hwho (hline who hfirst)
  · cases hwaits

end Client

end Parley
