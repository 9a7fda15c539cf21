import Parley.Proofs.Client.CatchingUp
import Parley.Proofs.Client.Introduction

/-!
# Every attempt that is answered comes up

A client whose writes go out and whose token frame is answered by a welcome becomes ready, whatever
else is done with it meanwhile: it only has to be given turns again and again. The writer takes
what is queued, so that the bounded queue never holds the requests up for good. Main statement:
`Client.admitted`.
-/

namespace Parley

/-! ## Streams on which writes succeed -/

def Outbound.Flows (o : Outbound) : Prop := o.failure = none ∧ o.blocked = false

def LinkEvent.breaks : LinkEvent → Bool
  | .writeFails _ => true
  | _ => false

lemma Outbound.write_eq (o : Outbound) (len : Nat) :
    ∃ slack, (o.write len).2.2 = { o with slack } := by
  unfold Outbound.write
  split
  · exact ⟨o.slack, rfl⟩
  · split
    · exact ⟨_, rfl⟩
    · exact ⟨0, rfl⟩

namespace Link
variable {l : Link}

lemma sound_happen (h : l.outbound.failure = none) {e : LinkEvent} (he : e.breaks = false) :
    (l.happen e).outbound.failure = none := by
  cases e with
  | writeFails fault => cases he
  | _ => exact h

lemma sound_write (h : l.outbound.failure = none) (bs : Bytes) :
    (l.write bs).2.2.outbound.failure = none := by
  obtain ⟨slack, hslack⟩ := l.outbound.write_eq bs.length
  change (l.outbound.write bs.length).2.2.failure = none
  rw [hslack]
  exact h

lemma write_ne_error (h : l.outbound.failure = none) (bs : Bytes) (e : Error) :
    (l.write bs).1 ≠ some (.error e) := by
  change (l.outbound.write bs.length).1 ≠ some (.error e)
  unfold Outbound.write
  split
  · simp
  · split
    · simp
    · simp [Outbound.stopped, h]

lemma write_of_flows (h : l.outbound.Flows) (bs : Bytes) :
    ∃ written, l.write bs = (some (.ok ()), [], { l with written }) := by
  have hwrite : l.outbound.write bs.length = (some (.ok ()), bs.length, l.outbound) := by
    simp [Outbound.write, h.1, h.2]
  simp only [write, hwrite, List.drop_length]
  exact ⟨_, rfl⟩

end Link

/-! ## Introductions that are answered -/

lemma Handshake.sound_step? {timeout now : Nat} {g g' : Handshake} {link link' : Link}
    (hsound : link.outbound.failure = none) (h : g.step? timeout now link = some (g', link')) :
    link'.outbound.failure = none := by
  cases g with
  | writing octets =>
    have hwrite := Link.sound_write hsound octets
    rw [step?, Handshake.write] at h
    generalize link.write octets = written at h hwrite
    obtain ⟨answer, left, after⟩ := written
    obtain rfl : after = link' := by
      split at h
      · split at h
        · simp_all
        · cases h
      · simp_all
      · simp_all
    exact hwrite
  | awaiting deadline =>
    rw [step?] at h
    cases hnext : link.reader.nextRaw.1 with
    | some answer =>
      rw [hear_of_some hnext] at h
      obtain rfl := (Prod.mk.inj (Option.some.inj h)).2
      exact hsound
    | none =>
      rw [hear_of_none hnext] at h
      split at h
      · obtain rfl := (Prod.mk.inj (Option.some.inj h)).2
        exact hsound
      · cases h
  | done result => cases h

namespace Greeting

def Move.breaks : Move → Bool
  | .happen e => e.breaks
  | _ => false

section Flowing
variable {timeout maxBody : Nat} {octets : Bytes} {g : Greeting} {ms : List Move}

lemma sound_run (h : g.link.outbound.failure = none) (hms : ∀ m ∈ ms, m.breaks = false)
    (timeout : Nat) : (g.run timeout ms).link.outbound.failure = none := by
  induction ms using List.reverseRecOn with
  | nil => exact h
  | append_singleton ms m ih =>
    have hsound := ih fun m' hm' => hms m' (List.mem_append_left _ hm')
    rw [run_concat]
    cases m with
    | happen e => exact Link.sound_happen hsound (hms (.happen e) (by simp))
    | pass n => exact hsound
    | goOn =>
      rw [move]
      split
      · rename_i stage link hstep
        exact Handshake.sound_step? hsound hstep
      · exact hsound

lemma stage_goOn_of_flows (h : g.link.outbound.Flows) (timeout : Nat) (left : Bytes) :
    (g.move timeout .goOn).stage ≠ .writing left := by
  cases hstage : g.stage with
  | writing octets =>
    obtain ⟨written, hwrite⟩ := Link.write_of_flows h octets
    rw [move, hstage, Handshake.step?, Handshake.write, hwrite]
    simp
  | _ =>
    apply ((moved timeout g .goOn).written _).1
    simp [hstage]

/-- Where no write fails, an introduction that writes no more has sent its token frame. -/
lemma sends_of_sound (hg : g.Starts maxBody octets) (hms : ∀ m ∈ ms, m.breaks = false)
    (hpast : ∀ left, (g.run timeout ms).stage ≠ .writing left) :
    ∃ deadline, g.Sends timeout ms deadline := by
  obtain ⟨hcourse, -⟩ := course_run hg timeout ms
  cases hcourse with
  | writing left hwriting hwritten hwhole => exact absurd hwriting (hpast left)
  | broken fault hbroken hwritten hbreaks =>
    obtain ⟨front, back, left, rfl, -, hfault⟩ := hbreaks
    have hsound := sound_run (by rw [hg.link]; rfl)
      (fun m hm => hms m (List.mem_append_left _ hm)) timeout
    exact absurd hfault (Link.write_ne_error hsound left _)
  | awaiting deadline hawaiting hwritten hwhole hsends => exact ⟨deadline, hsends⟩
  | decided front back deadline result rest taken hdecided hawaiting hverdict =>
    obtain ⟨-, -, front', back', left, hfront, hsends⟩ := course_of_awaiting hg hawaiting
    exact ⟨deadline, front', back' ++ .goOn :: back, left, by simp [hdecided, hfront], hsends⟩

lemma now_lt_of_sends {ms' : List Move} {deadline : Nat} (htimeout : 0 < timeout)
    (hsends : g.Sends timeout (ms ++ ms') deadline)
    (h : ∀ deadline, g.Sends timeout ms deadline → (g.run timeout ms).now < deadline) :
    (g.run timeout ms).now < deadline := by
  obtain ⟨front, back, left, hsplit, hwriting, hawaiting, hdeadline⟩ := hsends
  have hsent : front ++ [.goOn] <+: ms ++ ms' := ⟨back, by rw [hsplit, List.append_assoc]; rfl⟩
  rcases List.prefix_or_prefix_of_prefix (List.prefix_append ms ms') hsent with
    hbefore | ⟨back', hback'⟩
  · rcases List.prefix_concat_iff.mp hbefore with hms | ⟨middle, hmiddle⟩
    · exact h deadline ⟨front, [], left, hms, hwriting, hawaiting, hdeadline⟩
    · have hle := now_le_run timeout (g.run timeout ms) middle
      rw [← run_append, hmiddle] at hle
      omega
  · refine h deadline ⟨front, back', left, ?_, hwriting, hawaiting, hdeadline⟩
    rw [← hback', ← List.append_cons]

lemma stage_goOn_of_welcomes (hg : g.Starts maxBody octets) {deadline : Nat}
    (h : (g.run timeout ms).stage = .awaiting deadline)
    (hwelcomes : (brought ms).Welcomes maxBody) :
    (g.run timeout (ms ++ [.goOn])).stage = .done (.ok ()) := by
  obtain ⟨raw, f, rest, hfits, hwaiting, hdecode, hmessage⟩ := hwelcomes
  exact stage_of_hears hg ⟨ms, [], deadline, rest, rfl, h,
    .reply raw rest _ hfits hwaiting (.welcome f hdecode hmessage)⟩

end Flowing

end Greeting

/-! ## Coming up -/

/-- What a session on its way to being ready has before it: requests that are still to be queued,
items in the queue, and a frame that is being written. -/
structure Load where
  requests : Nat
  items : Nat
  flies : Bool

/-- A request becomes an item, and an item a frame. -/
def Load.size (l : Load) : Nat := 3 * l.requests + 2 * l.items + l.flies.toNat

def Load.Shrinks (l l' : Load) : Prop := l' = l ∨ l'.size < l.size

lemma Load.Shrinks.trans {l l' l'' : Load} (h : l.Shrinks l') (h' : l'.Shrinks l'') :
    l.Shrinks l'' := by
  rcases h with rfl | h
  · exact h'
  · rcases h' with rfl | h'
    · exact .inr h
    · exact .inr (Nat.lt_trans h' h)

namespace Session
variable {s s' : Session} {requests : List Message} {notes : List Note} {now : Nat}

/-- A session on its way to being ready whose writes do not fail. -/
structure Rising (s : Session) (requests : List Message) : Prop where
  asks : s.Asks requests
  isOpen : s.outbox.isOpen = true
  sound : s.link.outbound.failure = none
  own : ∀ item ∈ s.outbox.items ++ requests.map .own, ∃ scope key,
    item = .own (Scope.request scope key)

def load (s : Session) (requests : List Message) : Load :=
  ⟨requests.length, s.outbox.items.length, s.flight.isSome⟩

lemma Rising.written (h : s.Rising requests) (hwritten : s.Written s' notes) :
    s'.Rising requests ∧ (s.load requests).Shrinks (s'.load requests) ∧
      (s.link.outbound.blocked = false → (s'.load requests).size < (s.load requests).size) := by
  obtain ⟨hasks, hopen, hsound, hown⟩ := h
  obtain ⟨hcapacity, hline⟩ := hwritten.outbox
  have hasks' : s'.Asks requests := ⟨hwritten.stage.trans hasks.stage,
    fun who hwho => hasks.line who (hline hwho), hcapacity ▸ hasks.capacity⟩
  -- A request can always be encoded.
  have hencodes {item : Outgoing} {items : List Outgoing} {e : Error}
      (hitems : s.outbox.items = item :: items)
      (hencode : (s.frameOf item s.nextSeq).encode = .error e) : False := by
    obtain ⟨scope, key, rfl⟩ := hown item (by simp [hitems])
    obtain ⟨octets, hoctets⟩ := scope.encode_request key s.version s.nextSeq
    cases hoctets.symm.trans hencode
  cases hwritten with
  | numbered item items tracker replaced octets hflight hitems hregister hencode =>
    have hless : (load { s with
        outbox := { s.outbox with items }, tracker, flight := some ⟨item, s.nextSeq, octets⟩ }
        requests).size < (s.load requests).size := by
      simp [load, Load.size, hflight, hitems]
      omega
    refine ⟨⟨hasks', hopen, hsound, fun other hother => hown other ?_⟩, .inr hless, fun _ => hless⟩
    rw [hitems]
    exact List.mem_cons_of_mem item hother
  | skipped item items tracker replaced e hflight hitems hregister hencode =>
    exact (hencodes hitems hencode).elim
  | refused item items tracker replaced e hflight hitems hregister hencode =>
    exact (hencodes hitems hencode).elim
  | advanced flight octets link hflight hwrite =>
    have hsound' := Link.sound_write hsound flight.octets
    rw [hwrite] at hsound'
    refine ⟨⟨hasks', hopen, hsound', hown⟩, .inl (by simp [load, hflight]), fun hblocked => ?_⟩
    obtain ⟨written, hwhole⟩ := Link.write_of_flows ⟨hsound, hblocked⟩ flight.octets
    cases hwhole.symm.trans hwrite
  | completed flight link hflight hwrite =>
    have hsound' := Link.sound_write hsound flight.octets
    rw [hwrite] at hsound'
    have hless : (load { s with link, flight := none, nextSeq := s.nextSeq + 1 } requests).size <
        (s.load requests).size := by
      simp [load, Load.size, hflight]
    exact ⟨⟨hasks', hopen, hsound', hown⟩, .inr hless, fun _ => hless⟩
  | broken flight left link e hflight hwrite =>
    exact absurd (congrArg Prod.fst hwrite) (Link.write_ne_error hsound flight.octets e)

lemma Rising.write?_ne_none (h : s.Rising requests) (hblocked : s.link.outbound.blocked = false)
    (hitems : s.outbox.items ≠ []) : s.write? ≠ none := by
  unfold write?
  cases hflight : s.flight with
  | some flight =>
    obtain ⟨written, hwrite⟩ := Link.write_of_flows ⟨h.sound, hblocked⟩ flight.octets
    simp [writeFlight, hwrite]
  | none =>
    obtain ⟨item, items, hcons⟩ := List.exists_cons_of_ne_nil hitems
    simp [Outbox.pop?, hcons]

lemma Rising.startup (h : s.Rising requests) (now : Nat) :
    (∃ s', s.startup now = .ready s' ∧ s'.stage = .live []) ∨
    (∃ s' requests', s.startup now = .going s' ∧ s'.Rising requests' ∧
      (s.load requests).Shrinks (s'.load requests') ∧
      (s.outbox.items = [] → (s'.load requests').size < (s.load requests).size)) ∨
    s.startup now = .stuck ∧ s.outbox.items ≠ [] := by
  obtain ⟨hasks, hopen, hsound, hown⟩ := h
  cases hstartup : s.startup now with
  | ready s' =>
    obtain ⟨-, rfl⟩ := startup_ready hstartup
    exact .inl ⟨_, rfl, rfl⟩
  | going s' =>
    right
    left
    obtain ⟨m, rest, outbox, hstage, hoffer⟩ := startup_going hstartup
    obtain rfl : requests = m :: rest := by simpa using hasks.stage.symm.trans hstage
    rcases hoffer with ⟨hoffer, rfl⟩ | ⟨hoffer, rfl⟩
    · obtain ⟨-, rfl⟩ := Outbox.offer_taken hoffer
      refine ⟨_, rest, rfl, ⟨⟨rfl, ?_, hasks.capacity⟩, hopen, hsound, ?_⟩, .inr ?_, fun _ => ?_⟩
      · exact fun who hwho => hasks.line who (List.mem_of_mem_erase hwho)
      · simpa [Outgoing.own] using hown
      all_goals
        simp [load, Load.size]
        omega
    · have hempty : s.outbox.items ≠ [] := by
        intro hitems
        obtain ⟨room, htaken⟩ := hasks.offer_of_empty hopen hitems { message := m }
        cases htaken.symm.trans hoffer
      obtain ⟨-, rfl⟩ := Outbox.offer_lined hoffer
      refine ⟨_, m :: rest, rfl, ⟨⟨hstage, ?_, hasks.capacity⟩, hopen, hsound, hown⟩, .inl rfl,
        fun hitems => absurd hitems hempty⟩
      intro who hwho
      rcases List.mem_append.mp hwho with hwho | hwho
      · exact hasks.line who hwho
      · exact List.mem_singleton.mp hwho
  | stuck => exact .inr (.inr ⟨rfl, fun hitems => hasks.startup_ne_stuck hopen hitems now hstartup⟩)
  | failed =>
    obtain ⟨hclosed, -⟩ := startup_failed hstartup
    cases hopen.symm.trans hclosed

end Session

namespace Client
variable {c : Client} {i : Nat} {id : String} {s : Session} {requests : List Message} {t : Turn}

lemma phase?_callOn?_ne {c' : Client} {k : Nat} {call : Call} {holder : Holder}
    (h : c.callOn? k call s holder = some c') (hne : call.connection ≠ i) :
    c'.phase? i = c.phase? i := by
  have hset (phase : Phase) : (c.setPhase call.connection phase).phase? i = c.phase? i :=
    phase?_setPhase_ne c hne phase
  rw [callOn?] at h
  split at h
  · split at h
    · cases h
      exact hset _
    · cases h
      exact hset _
    · cases h
    · cases h
      rfl
  · split at h
    · cases h
    · cases h
      exact phase?_callNumbered c k call _ i
    · cases h
      rfl
    · cases h
      rfl
  · split at h
    · cases h
      rfl
    · cases h
      rfl
    · split at h
      · cases h
        exact hset _
      · cases h
  · split at h
    · cases h
    · cases h
      rfl
  · cases h

lemma phase?_calling (hcalls : i ∉ c.callees) (k : Nat) :
    (c.move (.act (.calling k))).phase? i = c.phase? i := by
  rw [move]
  cases hact : c.act? (.calling k) with
  | none => rfl
  | some c' =>
    obtain ⟨call, s, holder, hcall, hcallOn⟩ := callOn?_of_act? hact
    refine phase?_callOn?_ne hcallOn ?_
    rintro rfl
    exact hcalls (List.mem_map_of_mem (List.mem_of_getElem? hcall))

/-- The turn in which an attempt succeeds. -/
structure Connects (d d' : Client) (i : Nat) (id : String) : Prop where
  phase : ∃ s holder, d'.phase? i = some (.established s holder) ∧ s.stage = .live []
  state : d'.state = .ready
  results : d'.results = d.results ++ [⟨id, .connected i, d.now⟩]

/-- The session of a connection is on its way to being ready, with so much before it. -/
structure ComesUp (c : Client) (i : Nat) (s : Session) (requests : List Message) : Prop where
  phase : ∃ holder, c.phase? i = some (.established s holder)
  rising : s.Rising requests

lemma ComesUp.act?_connecting (h : ComesUp c i s requests) (hid : c.attempt? i = some id) :
    ∃ holder, c.phase? i = some (.established s holder) ∧
      c.act? (.connecting i) = c.startup? i id s holder := by
  obtain ⟨holder, hphase⟩ := h.phase
  obtain ⟨⟨name, phase⟩, hk, rfl⟩ := Option.map_eq_some_iff.mp hid
  obtain rfl : phase = .established s holder := by simpa [phase?, hk] using hphase
  exact ⟨holder, hphase, by rw [act?, hk]⟩

lemma ComesUp.connecting (h : ComesUp c i s requests) (hid : c.attempt? i = some id)
    (ht : t.move = .act (.connecting i)) :
    Connects c (c.play t) i id ∨ ∃ s' requests', ComesUp (c.play t) i s' requests' ∧
      (s.load requests).Shrinks (s'.load requests') ∧
      (s.outbox.items = [] → (s'.load requests').size < (s.load requests).size) := by
  obtain ⟨holder, hphase, hact⟩ := h.act?_connecting hid
  rw [play_of_ne (by simp [ht]), ht, move, hact, startup?]
  rcases h.rising.startup c.now with
    ⟨s', hready, hstage⟩ | ⟨s', requests', hgoing, hrising, hload⟩ | ⟨hstuck, hitems⟩
  · rw [hready]
    exact .inl ⟨⟨s', holder, phase?_setPhase_self c hphase _, hstage⟩, rfl, rfl⟩
  · rw [hgoing]
    exact .inr ⟨s', requests', ⟨⟨holder, phase?_setPhase_self c hphase _⟩, hrising⟩, hload⟩
  · rw [hstuck]
    exact .inr ⟨s, requests, h, .inl rfl, fun hempty => absurd hempty hitems⟩

def isBlocked (c : Client) (i : Nat) : Bool :=
  match c.phase? i with
  | some (.greeting _ link) => link.outbound.blocked
  | some (.established s _) => s.link.outbound.blocked
  | _ => false

lemma ComesUp.writing (h : ComesUp c i s requests) (ht : t.move = .act (.writing i)) :
    ∃ s', ComesUp (c.play t) i s' requests ∧ (s.load requests).Shrinks (s'.load requests) ∧
      (c.isBlocked i = false → s.outbox.items ≠ [] →
        (s'.load requests).size < (s.load requests).size) := by
  obtain ⟨holder, hphase⟩ := h.phase
  have hflows : c.isBlocked i = s.link.outbound.blocked := by rw [isBlocked, hphase]
  rw [play_of_ne (by simp [ht]), ht, move]
  simp only [act?, hphase, write?]
  cases hwrite : s.write? with
  | none =>
    exact ⟨s, h, .inl rfl, fun hblocked hitems =>
      absurd hwrite (h.rising.write?_ne_none (hflows ▸ hblocked) hitems)⟩
  | some written =>
    obtain ⟨s', notes⟩ := written
    obtain ⟨hrising, hshrinks, hless⟩ := h.rising.written (Session.written_of_write? hwrite)
    refine ⟨s', ⟨⟨holder, ?_⟩, hrising⟩, hshrinks, fun hblocked _ => hless (hflows ▸ hblocked)⟩
    rw [Option.map_some, Option.getD_some, phase?_applyNotes]
    exact phase?_setPhase_self _ hphase _

lemma ComesUp.other (h : ComesUp c i s requests) (hready : c.CallsReady)
    (hconnecting : t.move ≠ .act (.connecting i)) (hwriting : t.move ≠ .act (.writing i))
    (hbreaks : ∀ e, t.move = .happen i e → e.breaks = false) :
    ∃ s', ComesUp (c.play t) i s' requests ∧ s'.load requests = s.load requests := by
  obtain ⟨holder, hphase⟩ := h.phase
  have hcalls := hready.not_mem_callees hphase h.rising.asks.stage
  by_cases hcalling : ∃ k, t.move = .act (.calling k)
  · obtain ⟨k, hcalling⟩ := hcalling
    refine ⟨s, ⟨⟨holder, ?_⟩, h.rising⟩, rfl⟩
    rw [play_of_ne (by simp [hcalling]), hcalling, phase?_calling hcalls]
    exact hphase
  · have hmoved := c.phaseMoved_play t i
    have hrising := h.rising
    obtain ⟨hasks, hopen, hsound, hown⟩ := hrising
    generalize hm : t.move = m at *
    rw [hphase] at hmoved
    generalize hnew : (c.play t).phase? i = new at hmoved
    generalize c.taken? i m = taken at hmoved
    cases hmoved with
    | same => exact ⟨s, ⟨⟨holder, hnew⟩, h.rising⟩, rfl⟩
    | event e => exact ⟨_, ⟨⟨holder, hnew⟩, ⟨hasks.stage, hasks.line, hasks.capacity⟩, hopen,
        Link.sound_happen hsound (hbreaks e rfl), hown⟩, rfl⟩
    | failed s holder hfailed => exact absurd rfl hconnecting
    | ready s s' holder hready => exact absurd rfl hconnecting
    | going s s' holder hgoing => exact absurd rfl hconnecting
    | wrote s s' holder notes hwrite => exact absurd rfl hwriting
    | read s step holder hstep =>
      exact absurd hasks.stage ((Session.heard_of_mem_choices hstep).stage_ne_starting requests)
    | offered k => exact absurd ⟨k, rfl⟩ hcalling
    | expired k => exact absurd ⟨k, rfl⟩ hcalling
    | took s s' b ev hstash htake =>
      obtain ⟨items, -, rfl⟩ := Session.takeEvent?_cases htake
      exact ⟨_, ⟨⟨_, hnew⟩, ⟨hasks.stage, hasks.line, hasks.capacity⟩, hopen, hsound, hown⟩, rfl⟩
    | passed id s s' b b' w w' ev htake =>
      obtain ⟨items, -, rfl⟩ := Session.takeEvent?_cases htake
      exact ⟨_, ⟨⟨_, hnew⟩, ⟨hasks.stage, hasks.line, hasks.capacity⟩, hopen, hsound, hown⟩, rfl⟩
    | found id s s' b b' w ev result tried htake =>
      obtain ⟨items, -, rfl⟩ := Session.takeEvent?_cases htake
      exact ⟨_, ⟨⟨_, hnew⟩, ⟨hasks.stage, hasks.line, hasks.capacity⟩, hopen, hsound, hown⟩, rfl⟩
    | _ =>
      exact ⟨_, ⟨⟨_, hnew⟩, ⟨hasks.stage, hasks.line, hasks.capacity⟩, hopen, hsound, hown⟩, rfl⟩

/-- Every turn leaves less before the session, or as much, unless it makes it ready. -/
lemma ComesUp.play (h : ComesUp c i s requests) (hready : c.CallsReady)
    (hid : c.attempt? i = some id) (hbreaks : ∀ e, t.move = .happen i e → e.breaks = false) :
    Connects c (c.play t) i id ∨ ∃ s' requests', ComesUp (c.play t) i s' requests' ∧
      (s.load requests).Shrinks (s'.load requests') := by
  by_cases hconnecting : t.move = .act (.connecting i)
  · rcases h.connecting hid hconnecting with hconnects | ⟨s', requests', h', hshrinks, -⟩
    · exact .inl hconnects
    · exact .inr ⟨s', requests', h', hshrinks⟩
  · by_cases hwriting : t.move = .act (.writing i)
    · obtain ⟨s', h', hshrinks, -⟩ := h.writing hwriting
      exact .inr ⟨s', requests, h', hshrinks⟩
    · obtain ⟨s', h', hsame⟩ := h.other hready hconnecting hwriting hbreaks
      exact .inr ⟨s', requests, h', .inl hsame⟩

end Client

/-! ## Welcomes -/

/-- The server's welcome, in a version of the protocol. -/
def Frame.welcome (version : UInt8) (seq : Int32) (flags : Flags) : Frame :=
  { seq, version, flags, message := .authStatus 0 }

lemma Frame.cut_welcome {version : UInt8} {seq : Int32} {flags : Flags} {maxBody : Nat}
    {reply : Bytes} (hbound : 4 ≤ maxBody) (h : (welcome version seq flags).encode = .ok reply)
    (rest : Bytes) :
    ∃ raw : RawFrame, raw.Fits maxBody ∧ reply = raw.encode ∧
      cut maxBody (reply ++ rest) = .frame raw rest ∧
      raw.decode = .ok (welcome version seq flags) := by
  obtain ⟨body, hbody, -, rfl⟩ := encode_eq_ok_iff.mp h
  obtain rfl : body = Bytes.ofInt32 0 := hbody.unique (Writing.writes_append _)
  have hfits : RawFrame.Fits maxBody
      ⟨(welcome version seq flags).header 4, Bytes.ofInt32 0⟩ := ⟨rfl, hbound⟩
  refine ⟨_, hfits, rfl, cut_eq_frame_iff.mpr ⟨hfits, rfl⟩, ?_⟩
  have hflags : flags ||| (Message.authStatus 0).impliedFlags = flags := UInt8.or_zero
  have hread : Message.decode (Message.authStatus 0).cmd version
      (flags ||| (Message.authStatus 0).impliedFlags) (Bytes.ofInt32 0) = .ok (.authStatus 0) :=
    Message.decode_of_writes flags hbody fun cmd bs hunknown => Message.noConfusion hunknown
  simp only [RawFrame.decode, header, welcome]
  rw [hread, hflags]
  rfl

namespace Client

/-! ## Schedules -/

/-- The first turns of a schedule, which says which turn comes when. -/
def upTo (schedule : Nat → Turn) (n : Nat) : List Turn := (List.range n).map schedule

lemma upTo_succ (schedule : Nat → Turn) (n : Nat) :
    upTo schedule (n + 1) = upTo schedule n ++ [schedule n] := by
  rw [upTo, List.range_succ, List.map_append]
  rfl

lemma upTo_of_le (schedule : Nat → Turn) {n m : Nat} (h : n ≤ m) :
    ∃ back, upTo schedule m = upTo schedule n ++ back := by
  obtain ⟨k, rfl⟩ := Nat.exists_eq_add_of_le h
  exact ⟨_, by rw [upTo, List.range_add, List.map_append]; rfl⟩

/-- A part of an attempt has turns again and again in which what is written need not wait. -/
def Recurs (c : Client) (id : String) (schedule : Nat → Turn) (a : Actor) : Prop :=
  ∀ n, ∃ m, n ≤ m ∧ (schedule m).move = .act a ∧
    (c.trying id (upTo schedule m)).isBlocked c.connections.length = false

/-- No write fails on the connection of an attempt, and the server answers: the first that the
stream brings is a welcome of the configured version, in the time for the reply, which runs from the
end of the write of the token frame. -/
structure Answered (c : Client) (token : String) (schedule : Nat → Turn) : Prop where
  writes : ∀ n e, (schedule n).move = .happen c.connections.length e → e.breaks = false
  reply : ∃ n seq flags reply rest,
    (Frame.welcome c.config.connection.protocolVersion seq flags).encode = .ok reply ∧
    (Greeting.brought (greetingMoves c.connections.length (upTo schedule n))).waiting =
      reply ++ rest ∧
    Greeting.Orderly (greetingMoves c.connections.length (upTo schedule n)) ∧
    ∀ deadline, (c.greeting token).Sends c.config.connection.authTimeout
      (greetingMoves c.connections.length (upTo schedule n)) deadline →
        (c.introduction token (upTo schedule n)).now < deadline

/-- An attempt that is answered comes up. -/
structure Admitted (c : Client) (id token : String) (schedule : Nat → Turn) : Prop where
  encodes : ∃ octets,
    (Handshake.frame c.config.connection.protocolVersion (c.auth token)).encode = .ok octets
  passes : ∀ seq flags reply rest,
    (Frame.welcome c.config.connection.protocolVersion seq flags).encode = .ok reply →
    ∃ raw, cut c.config.connection.maxBody (reply ++ rest) = .frame raw rest ∧
      raw.decode = .ok (Frame.welcome c.config.connection.protocolVersion seq flags)
  connects : ∃ n, Connects (c.trying id (upTo schedule n)) (c.trying id (upTo schedule (n + 1)))
    c.connections.length id

lemma Attempt.eq_of_greeting {d : Client} {i : Nat} {wire : Bytes} {h : Greeting} {g : Handshake}
    {link : Link} (hattempt : Attempt i wire h d) (hphase : d.phase? i = some (.greeting g link)) :
    h.stage = g ∧ h.link = link := by
  cases hattempt with
  | greeting hphase' hwire => simpa using hphase'.symm.trans hphase
  | failed e hstage hphase' hwire => cases hphase'.symm.trans hphase
  | begun hstage hphase' =>
    obtain ⟨phase, hphase', hleft⟩ := hphase'
    exact absurd (Option.some.inj (hphase'.symm.trans hphase)) (hleft g link)

section Schedules
variable {c : Client} {id token : String} {schedule : Nat → Turn}

lemma greetingMoves_succ (i n : Nat) : greetingMoves i (upTo schedule (n + 1)) =
    greetingMoves i (upTo schedule n) ++ (greetingMove? i (schedule n)).toList := by
  rw [upTo_succ, greetingMoves, List.filterMap_append, List.filterMap_cons]
  cases greetingMove? i (schedule n) <;> rfl

lemma greetingMove?_connecting {i : Nat} {t : Turn} (h : t.move = .act (.connecting i)) :
    greetingMove? i t = some .goOn := by
  simp [greetingMove?, h]

lemma breaks_of_mem_greetingMoves {i n : Nat}
    (hwrites : ∀ n e, (schedule n).move = .happen i e → e.breaks = false) :
    ∀ m ∈ greetingMoves i (upTo schedule n), m.breaks = false := by
  intro m hm
  obtain ⟨t, ht, hmove⟩ := List.mem_filterMap.mp hm
  obtain ⟨k, -, rfl⟩ := List.mem_map.mp ht
  rcases greetingMove?_cases i (schedule k) with ⟨e, hhappen, hsome⟩ | ⟨ms, -, hsome⟩ |
    ⟨-, hsome⟩ | ⟨-, -, -, hnone⟩
  · obtain rfl := Option.some.inj (hsome.symm.trans hmove)
    exact hwrites k e hhappen
  · obtain rfl := Option.some.inj (hsome.symm.trans hmove)
    rfl
  · obtain rfl := Option.some.inj (hsome.symm.trans hmove)
    rfl
  · cases hnone.symm.trans hmove

lemma stage_of_done_le {n m : Nat} {result : Except Error Unit} (hle : n ≤ m)
    (h : (c.introduction token (upTo schedule n)).stage = .done result) :
    (c.introduction token (upTo schedule m)).stage = .done result := by
  obtain ⟨back, hback⟩ := upTo_of_le schedule hle
  rw [introduction, hback, greetingMoves, List.filterMap_append, Greeting.run_append]
  exact Greeting.run_of_done h _

lemma stage_of_turn {n : Nat} (htoken : c.nextToken.1 = .ok token)
    (hwrites : ∀ n e, (schedule n).move = .happen c.connections.length e → e.breaks = false)
    (hturn : (schedule n).move = .act (.connecting c.connections.length))
    (hblocked : (c.trying id (upTo schedule n)).isBlocked c.connections.length = false)
    (left : Bytes) : (c.introduction token (upTo schedule (n + 1))).stage ≠ .writing left := by
  have hover {result : Except Error Unit}
      (hdone : (c.introduction token (upTo schedule n)).stage = .done result) :
      (c.introduction token (upTo schedule (n + 1))).stage ≠ .writing left := by
    rw [stage_of_done_le (Nat.le_succ n) hdone]
    simp
  cases (along htoken id (upTo schedule n)).attempt with
  | greeting hphase hwire =>
    rw [isBlocked, hphase] at hblocked
    have hsound : (c.introduction token (upTo schedule n)).link.outbound.failure = none :=
      Greeting.sound_run rfl (breaks_of_mem_greetingMoves hwrites) _
    rw [introduction, greetingMoves_succ, greetingMove?_connecting hturn, Option.toList_some,
      Greeting.run_concat]
    exact Greeting.stage_goOn_of_flows ⟨hsound, hblocked⟩ _ left
  | failed e hdone hphase hwire => exact hover hdone
  | begun hdone hphase => exact hover hdone

lemma Answered.introduction (h : Answered c token schedule)
    (hbody : 4 ≤ c.config.connection.maxBody) (htimeout : 0 < c.config.connection.authTimeout)
    (hauth : (c.auth token).Encodable) (htoken : c.nextToken.1 = .ok token)
    (hconnecting : Recurs c id schedule (.connecting c.connections.length)) :
    ∃ n, (c.introduction token (upTo schedule n)).stage = .done (.ok ()) := by
  obtain ⟨hwrites, n₀, seq, flags, reply, rest, hencode, hwaiting, horderly, hnow⟩ := h
  obtain ⟨octets, hstart⟩ :
      ∃ octets, (c.greeting token).Starts c.config.connection.maxBody octets := by
    rcases Handshake.start_cases c.config.connection.protocolVersion (c.auth token) with
      ⟨-, octets, -, hstart⟩ | ⟨hnot, -⟩
    · exact ⟨octets, ⟨hstart, rfl⟩⟩
    · exact absurd hauth hnot
  have hmoves {n m : Nat} (hle : n ≤ m) : ∃ back, greetingMoves c.connections.length
      (upTo schedule m) = greetingMoves c.connections.length (upTo schedule n) ++ back := by
    obtain ⟨back, hback⟩ := upTo_of_le schedule hle
    exact ⟨_, by rw [hback, greetingMoves, List.filterMap_append]; rfl⟩
  -- After one turn of the attempt the token frame is written.
  obtain ⟨n₁, hle₁, hturn₁, hblocked⟩ := hconnecting n₀
  obtain ⟨n₂, hle₂, hturn₂, -⟩ := hconnecting (n₁ + 1)
  have hpast : ∀ left, (c.introduction token (upTo schedule n₂)).stage ≠ .writing left := by
    obtain ⟨back, hback⟩ := hmoves hle₂
    rw [Client.introduction, hback, Greeting.run_append]
    exact (Greeting.written_run (stage_of_turn htoken hwrites hturn₁ hblocked) back).1
  -- From then on it waits for the welcome, which is there, or has heard it.
  obtain ⟨deadline, hsends⟩ :=
    Greeting.sends_of_sound hstart (breaks_of_mem_greetingMoves hwrites) hpast
  obtain ⟨raw, hfits, hreply, -, hdecode⟩ := Frame.cut_welcome hbody hencode rest
  have hwelcomes : (Greeting.brought (greetingMoves c.connections.length
      (upTo schedule n₀))).Welcomes c.config.connection.maxBody :=
    ⟨raw, _, rest, hfits, by rw [hwaiting, hreply], hdecode, rfl⟩
  obtain ⟨back, hback⟩ := hmoves (Nat.le_trans hle₁ (Nat.le_trans (Nat.le_succ n₁) hle₂))
  rw [hback] at hsends
  rcases Greeting.stage_of_welcomes_in_time hstart hsends horderly
    (Greeting.now_lt_of_sends htimeout hsends hnow) hwelcomes with hawaiting | hdone
  · rw [← hback] at hawaiting
    refine ⟨n₂ + 1, ?_⟩
    rw [Client.introduction, greetingMoves_succ, greetingMove?_connecting hturn₂]
    refine Greeting.stage_goOn_of_welcomes hstart hawaiting (hwelcomes.mono ?_)
    rw [hback]
    exact Greeting.waiting_grows _ back
  · exact ⟨n₂, by rw [Client.introduction, hback]; exact hdone⟩

lemma comesUp_of_began {link : Link} {holder : Holder} {n : Nat} {d : Client}
    (hcapacity : 0 < c.config.delivery.outboundQueue) (hsound : link.outbound.failure = none)
    (hphase : d.phase? n = some (.established
      (Session.start c.config link (Handshake.seq + 1) c.now c.progress.engine.onReady.2) holder)) :
    ∃ s requests, ComesUp d n s requests := by
  refine ⟨_, c.progress.engine.onReady.2, ⟨holder, hphase⟩,
    ⟨rfl, by rintro who ⟨⟩, hcapacity⟩, rfl, hsound, ?_⟩
  intro item hitem
  obtain ⟨m, hm, rfl⟩ := List.mem_map.mp hitem
  obtain ⟨scope, -, rfl⟩ := Engine.mem_onReady.mp hm
  exact ⟨scope, _, rfl⟩

lemma exists_comesUp (htoken : c.nextToken.1 = .ok token)
    (hcapacity : 0 < c.config.delivery.outboundQueue)
    (hwrites : ∀ n e, (schedule n).move = .happen c.connections.length e → e.breaks = false)
    (hconnecting : Recurs c id schedule (.connecting c.connections.length))
    (hdone : ∃ n, (c.introduction token (upTo schedule n)).stage = .done (.ok ())) :
    ∃ n s requests, ComesUp (c.trying id (upTo schedule n)) c.connections.length s requests := by
  obtain ⟨n₀, hdone⟩ := hdone
  -- The first moment at which the attempt has left its introduction.
  have hleft : ∃ n, ∀ g link, (c.trying id (upTo schedule n)).phase? c.connections.length ≠
      some (.greeting g link) := by
    obtain ⟨n₁, hle, hturn, -⟩ := hconnecting n₀
    have halong := along htoken id (upTo schedule n₁)
    cases halong.attempt with
    | greeting hphase hwire =>
      refine ⟨n₁ + 1, ?_⟩
      rw [stage_of_done_le hle hdone] at hphase
      rw [upTo_succ, trying_concat, play_connecting halong.name hphase hturn, greet?,
        Option.getD_some]
      intro g link hgreeting
      cases (phase?_setPhase_self _ hphase _).symm.trans hgreeting
    | failed e hfailed hphase hwire =>
      exact ⟨n₁, fun g link hgreeting => by cases hphase.symm.trans hgreeting⟩
    | begun hok hphase =>
      obtain ⟨phase, hphase, hnot⟩ := hphase
      exact ⟨n₁, fun g link hgreeting =>
        hnot g link (Option.some.inj (hphase.symm.trans hgreeting))⟩
  have hfirst : ¬ ∀ g link, (c.trying id (upTo schedule 0)).phase? c.connections.length ≠
      some (.greeting g link) := by
    intro hnot
    obtain ⟨tokens, hconnect⟩ := connect_eq htoken id
    refine hnot (c.greeting token).stage (c.greeting token).link ?_
    rw [upTo, List.range_zero, List.map_nil, trying, playAll, List.foldl_nil, hconnect, phase?]
    simp
  obtain ⟨n, hgreeting, hgone⟩ := Nat.exists_not_and_succ_of_not_zero_of_exists hfirst hleft
  push Not at hgreeting
  obtain ⟨g, link, hphase⟩ := hgreeting
  obtain ⟨rfl, rfl⟩ := (along htoken id (upTo schedule n)).attempt.eq_of_greeting hphase
  have hmoved := (c.trying id (upTo schedule n)).phaseMoved_play (schedule n) c.connections.length
  rw [hphase] at hmoved
  rw [upTo_succ, trying_concat] at hgone
  have hconfig := (along htoken id (upTo schedule n)).config
  have hsound : (c.introduction token (upTo schedule n)).link.outbound.failure = none :=
    Greeting.sound_run rfl (breaks_of_mem_greetingMoves hwrites) _
  refine ⟨n + 1, ?_⟩
  rw [upTo_succ, trying_concat]
  generalize hstage : (c.introduction token (upTo schedule n)).stage = g at hmoved
  generalize hnew : ((c.trying id (upTo schedule n)).play (schedule n)).phase?
    c.connections.length = new at hmoved hgone
  generalize (c.trying id (upTo schedule n)).taken? _ _ = taken at hmoved
  generalize (schedule n).move = m at hmoved
  cases hmoved with
  | same _ _ => exact absurd rfl (hgone _ _)
  | befell e _ _ => exact absurd rfl (hgone _ _)
  | greeted _ _ _ _ _ => exact absurd rfl (hgone _ _)
  | rejected e _ =>
    cases (stage_of_done_le (Nat.le_max_left n n₀) hstage).symm.trans
      (stage_of_done_le (Nat.le_max_right n n₀) hdone)
  | began _ => exact comesUp_of_began (hconfig.symm ▸ hcapacity) hsound hnew

lemma ComesUp.later {i n : Nat} {s : Session} {requests : List Message}
    (hready : ∀ n, (c.trying id (upTo schedule n)).CallsReady)
    (hname : ∀ n, (c.trying id (upTo schedule n)).attempt? i = some id)
    (hwrites : ∀ n e, (schedule n).move = .happen i e → e.breaks = false)
    (h : ComesUp (c.trying id (upTo schedule n)) i s requests) {m : Nat} (hle : n ≤ m) :
    (∃ k, Connects (c.trying id (upTo schedule k)) (c.trying id (upTo schedule (k + 1))) i id) ∨
      ∃ s' requests', ComesUp (c.trying id (upTo schedule m)) i s' requests' ∧
        (s.load requests).Shrinks (s'.load requests') := by
  induction m, hle using Nat.le_induction with
  | base => exact .inr ⟨s, requests, h, .inl rfl⟩
  | succ m hle ih =>
    rcases ih with hconnects | ⟨s₁, requests₁, h₁, hshrinks⟩
    · exact .inl hconnects
    · rw [upTo_succ, trying_concat]
      rcases h₁.play (hready m) (hname m) (hwrites m) with hconnects | ⟨s', requests', h', hless⟩
      · exact .inl ⟨m, by rw [upTo_succ, trying_concat]; exact hconnects⟩
      · exact .inr ⟨s', requests', h', hshrinks.trans hless⟩

lemma ComesUp.connects (hready : ∀ n, (c.trying id (upTo schedule n)).CallsReady)
    (hname : ∀ n, (c.trying id (upTo schedule n)).attempt? c.connections.length = some id)
    (hwrites : ∀ n e, (schedule n).move = .happen c.connections.length e → e.breaks = false)
    (hconnecting : Recurs c id schedule (.connecting c.connections.length))
    (hwriting : Recurs c id schedule (.writing c.connections.length))
    {n : Nat} {s : Session} {requests : List Message}
    (h : ComesUp (c.trying id (upTo schedule n)) c.connections.length s requests) :
    ∃ k, Connects (c.trying id (upTo schedule k)) (c.trying id (upTo schedule (k + 1)))
      c.connections.length id := by
  -- Induction on what is before the session: the turn that takes something away is one of the
  -- writing side if the queue holds something, else one of the attempt.
  generalize hsize : (s.load requests).size = size
  induction size using Nat.strong_induction_on generalizing n s requests with
  | h size ih =>
    subst hsize
    by_cases hitems : s.outbox.items = []
    · obtain ⟨m, hle, hturn, -⟩ := hconnecting n
      rcases h.later hready hname hwrites hle with hconnects | ⟨s₁, requests₁, h₁, hsame | hless⟩
      · exact hconnects
      · rcases h₁.connecting (hname m) hturn with hconnects | ⟨s', requests', h', -, hless⟩
        · exact ⟨m, by rw [upTo_succ, trying_concat]; exact hconnects⟩
        · have hempty : s₁.outbox.items = [] := List.length_eq_zero_iff.mp
            ((congrArg Load.items hsame).trans (by rw [Session.load, hitems]; rfl))
          rw [← trying_concat, ← upTo_succ] at h'
          exact ih _ (hsame ▸ hless hempty) h' rfl
      · exact ih _ hless h₁ rfl
    · obtain ⟨m, hle, hturn, hblocked⟩ := hwriting n
      rcases h.later hready hname hwrites hle with hconnects | ⟨s₁, requests₁, h₁, hsame | hless⟩
      · exact hconnects
      · obtain ⟨s', h', -, hless⟩ := h₁.writing hturn
        have hnot : s₁.outbox.items ≠ [] := by
          intro hempty
          have hlength := congrArg Load.items hsame
          rw [Session.load, Session.load, hempty] at hlength
          exact hitems (List.length_eq_zero_iff.mp hlength.symm)
        rw [← trying_concat, ← upTo_succ] at h'
        exact ih _ (hsame ▸ hless hblocked hnot) h' rfl
      · exact ih _ hless h₁ rfl

end Schedules

/-! ## Accepted configurations -/

lemma length_ofString (s : String) : (Bytes.ofString s).length = s.utf8ByteSize := rfl

lemma encodable_of_validate {c : Client} {token : String} (hvalid : c.config.validate = .ok ())
    (hlength : token.utf8ByteSize ≤ 255) : (c.auth token).Encodable := by
  have hfault := Feed.fault?_of_validate hvalid
  have hdevice : c.config.device.fault? = none := by
    simp only [Config.fault?, Option.orElse_eq_orElse, Option.orElse_eq_or,
      Option.or_eq_none_iff] at hfault
    exact hfault.2.1
  simp only [Config.Device.fault?, Option.orElse_eq_orElse, Option.orElse_eq_or,
    Option.or_eq_none_iff] at hdevice
  simp only [ite_eq_left_iff, reduceCtorEq, imp_false, Classical.not_not] at hdevice
  exact ⟨(length_ofString token).trans_le hlength, (length_ofString _).trans_le hdevice.2.2⟩

lemma authTimeout_pos_of_validate {config : Config} (hvalid : config.validate = .ok ()) :
    0 < config.connection.authTimeout := by
  have hfault := Feed.fault?_of_validate hvalid
  have hconnection : config.connection.fault? = none := by
    simp only [Config.fault?, Option.orElse_eq_orElse, Option.orElse_eq_or,
      Option.or_eq_none_iff] at hfault
    exact hfault.1
  simp only [Config.Connection.fault?, Option.orElse_eq_orElse, Option.orElse_eq_or,
    Option.or_eq_none_iff, Config.outside] at hconnection
  simp only [ite_eq_left_iff, reduceCtorEq, imp_false, Classical.not_not] at hconnection
  omega

/-- Every accepted configuration whose bound leaves room for a welcome can be used. An attempt with
a token of 255 octets at most, on a connection that the server answers and whose writes do not fail,
comes up, whatever has been done with the client before and whatever is done with it meanwhile. -/
theorem admitted {config : Config} {store : CursorStore} {tokens : List (Except Error String)}
    {c : Client} (hnew : new config store tokens = .ok c) (hbody : 4 ≤ config.connection.maxBody)
    (past : List Turn) (id : String) {token : String}
    (htoken : (c.playAll past).nextToken.1 = .ok token) (hlength : token.utf8ByteSize ≤ 255)
    {schedule : Nat → Turn} (hanswered : (c.playAll past).Answered token schedule)
    (hconnecting : (c.playAll past).Recurs id schedule
      (.connecting (c.playAll past).connections.length))
    (hwriting : (c.playAll past).Recurs id schedule
      (.writing (c.playAll past).connections.length)) :
    (c.playAll past).Admitted id token schedule := by
  have hconfig : (c.playAll past).config = config := config_of_new hnew past
  have hvalid : (c.playAll past).config.validate = .ok () := hconfig ▸ (load_of_new hnew).1
  have hbody' : 4 ≤ (c.playAll past).config.connection.maxBody := hconfig ▸ hbody
  have htimeout := authTimeout_pos_of_validate hvalid
  have hauth : ((c.playAll past).auth token).Encodable := encodable_of_validate hvalid hlength
  have hcapacity : 0 < (c.playAll past).config.delivery.outboundQueue := by
    rw [config_playAll]
    exact (Feed.queues_pos_of_new hnew).1
  have hready (n : Nat) : ((c.playAll past).trying id (upTo schedule n)).CallsReady := by
    have htrying : (c.playAll past).trying id (upTo schedule n) =
        c.playAll (past ++ .first (.connect id) :: upTo schedule n) := by
      rw [playAll_append]
      rfl
    exact htrying ▸ callsReady_run hnew _
  refine ⟨?_, ?_, ?_⟩
  · rcases Handshake.start_cases _ _ with ⟨-, octets, hencode, -⟩ | ⟨hnot, -⟩
    · exact ⟨octets, hencode⟩
    · exact absurd hauth hnot
  · intro seq flags reply rest hencode
    obtain ⟨raw, -, -, hcut, hdecode⟩ := Frame.cut_welcome hbody' hencode rest
    exact ⟨raw, hcut, hdecode⟩
  · have hwelcome := hanswered.introduction hbody' htimeout hauth htoken hconnecting
    obtain ⟨n, s, requests, hcomesUp⟩ :=
      exists_comesUp htoken hcapacity hanswered.writes hconnecting hwelcome
    exact hcomesUp.connects hready (fun n => (along htoken id (upTo schedule n)).name)
      hanswered.writes hconnecting hwriting

/-- The welcome comes when the token frame has gone out, and both parts of the connection have turns
by turns. -/
def answering (n : Nat) : Turn :=
  if n = 1 then
    .first (.happen 0 (.arrive [0, 0, 0, 4, 0, 0, 0, 1, 3, 2, 0, 0, 0, 0, 0, 0]))
  else if n % 2 = 0 then .first (.act (.connecting 0))
  else .first (.act (.writing 0))

/-- A new client over an empty store in memory that has one token. -/
def fresh (config : Config) : Client := { least with config, tokens := [.ok "secret"] }

lemma answered_answering (config : Config) (hversion : config.connection.protocolVersion = 2)
    (htimeout : 0 < config.connection.authTimeout) :
    (fresh config).Answered "secret" answering where
  writes := by
    intro n e he
    unfold answering at he
    split at he
    · obtain ⟨-, rfl⟩ := Move.happen.inj he
      rfl
    · split at he <;> cases he
  reply := by
    have hmoves : greetingMoves (fresh config).connections.length (upTo answering 2) = [.goOn,
        .happen (.arrive [0, 0, 0, 4, 0, 0, 0, 1, 3, 2, 0, 0, 0, 0, 0, 0])] := rfl
    have htoken : (fresh config).nextToken.1 = .ok "secret" := rfl
    have hnow := (along htoken "a" (upTo answering 2)).clock
    refine ⟨2, 1, 0, [0, 0, 0, 4, 0, 0, 0, 1, 3, 2, 0, 0, 0, 0, 0, 0], [], ?_, rfl, ?_, ?_⟩
    · change (Frame.welcome config.connection.protocolVersion 1 0).encode = _
      rw [hversion]
      rfl
    · intro front bs back hfront
      rw [hmoves] at hfront
      cases front with
      | nil => cases hfront
      | cons m front =>
        cases front with
        | nil =>
          obtain ⟨rfl, -⟩ := List.cons.inj hfront
          simp [Greeting.brought, Inbound.IsOver]
        | cons m' front => simp at hfront
    · rintro deadline ⟨front, back, left, -, -, -, rfl⟩
      have hzero : ((fresh config).introduction "secret" (upTo answering 2)).now = 0 := by
        rw [← hnow, upTo_succ, trying_concat, now_play (by simp [answering, Turn.first]), upTo_succ,
          trying_concat, now_play (by simp [answering, Turn.first])]
        rfl
      rw [hzero]
      exact Nat.add_pos_right _ htimeout

lemma trying_answering {config : Config} {n m : Nat} (hle : n ≤ m) (hpos : 2 ≤ n)
    (hconnecting : ((fresh config).trying "a" (upTo answering n)).act? (.connecting 0) = none)
    (hwriting : ((fresh config).trying "a" (upTo answering n)).act? (.writing 0) = none) :
    (fresh config).trying "a" (upTo answering m) =
      (fresh config).trying "a" (upTo answering n) := by
  induction m, hle using Nat.le_induction with
  | base => rfl
  | succ m hle ih =>
    rw [upTo_succ, trying_concat, ih]
    have hturn : answering m = .first (.act (.connecting 0)) ∨
        answering m = .first (.act (.writing 0)) := by
      rw [answering, if_neg (by omega)]
      split
      · exact .inl rfl
      · exact .inr rfl
    rcases hturn with hturn | hturn
    · rw [hturn, play_first, move, hconnecting, Option.getD_none]
    · rw [hturn, play_first, move, hwriting, Option.getD_none]

lemma recurs_answering {config : Config} {n : Nat} (hpos : 2 ≤ n)
    (hconnecting : ((fresh config).trying "a" (upTo answering n)).act? (.connecting 0) = none)
    (hwriting : ((fresh config).trying "a" (upTo answering n)).act? (.writing 0) = none)
    (hblocked : ((fresh config).trying "a" (upTo answering n)).isBlocked 0 = false) :
    (fresh config).Recurs "a" answering (.connecting 0) ∧
      (fresh config).Recurs "a" answering (.writing 0) := by
  constructor
  · intro k
    refine ⟨2 * (n + k), by omega, ?_, ?_⟩
    · rw [answering, if_neg (by omega), if_pos (by omega)]
      rfl
    · rw [trying_answering (by omega) hpos hconnecting hwriting]
      exact hblocked
  · intro k
    refine ⟨2 * (n + k) + 1, by omega, ?_, ?_⟩
    · rw [answering, if_neg (by omega), if_neg (by omega)]
      rfl
    · rw [trying_answering (by omega) hpos hconnecting hwriting]
      exact hblocked

theorem admitted_of_answering : new .least (.memory .zero) [.ok "secret"] = .ok (fresh .least) ∧
    4 ≤ Config.least.connection.maxBody ∧
    ((fresh .least).playAll []).nextToken.1 = .ok "secret" ∧ "secret".utf8ByteSize ≤ 255 ∧
    ((fresh .least).playAll []).Answered "secret" answering ∧
    ((fresh .least).playAll []).Recurs "a" answering (.connecting 0) ∧
    ((fresh .least).playAll []).Recurs "a" answering (.writing 0) ∧
    ((fresh .least).playAll []).Admitted "a" "secret" answering := by
  have hanswered : ((fresh .least).playAll []).Answered "secret" answering :=
    answered_answering .least rfl (by decide)
  have hnew : new .least (.memory .zero) [.ok "secret"] = .ok (fresh .least) := by rfl
  have hrecurs : (fresh .least).Recurs "a" answering (.connecting 0) ∧
      (fresh .least).Recurs "a" answering (.writing 0) :=
    recurs_answering (by decide : 2 ≤ 12) (by rfl) (by rfl) (by rfl)
  exact ⟨hnew, by decide, rfl, by decide, hanswered, hrecurs.1, hrecurs.2,
    admitted hnew (by decide) [] "a" rfl (by decide) hanswered hrecurs.1 hrecurs.2⟩

/-- An accepted configuration with a bound below the body of a welcome. -/
def narrow : Config := { Config.least with connection := { maxBody := 3 } }

/-- With such a bound the welcome itself is too large, and no attempt comes up. -/
theorem refused_of_narrow : narrow.validate = .ok () ∧
    new narrow (.memory .zero) [.ok "secret"] = .ok (fresh narrow) ∧
    (fresh narrow).nextToken.1 = .ok "secret" ∧
    "secret".utf8ByteSize ≤ 255 ∧ (fresh narrow).Answered "secret" answering ∧
    (fresh narrow).Recurs "a" answering (.connecting 0) ∧
    (fresh narrow).Recurs "a" answering (.writing 0) ∧
    ((fresh narrow).trying "a" (upTo answering 5)).results =
      [⟨"a", .failed (.frameTooLarge 4 3), 0⟩] ∧
    ∀ n, ¬ Connects ((fresh narrow).trying "a" (upTo answering n))
      ((fresh narrow).trying "a" (upTo answering (n + 1))) 0 "a" := by
  have hrecurs : (fresh narrow).Recurs "a" answering (.connecting 0) ∧
      (fresh narrow).Recurs "a" answering (.writing 0) :=
    recurs_answering (by decide : 2 ≤ 6) (by rfl) (by rfl) (by rfl)
  refine ⟨by decide, rfl, rfl, by decide, answered_answering narrow rfl (by decide), hrecurs.1,
    hrecurs.2, by decide +kernel, fun n hconnects => ?_⟩
  obtain ⟨s, holder, hphase, -⟩ := hconnects.phase
  have hfailed : ((fresh narrow).introduction "secret" (upTo answering 4)).stage =
      .done (.error (.frameTooLarge 4 3)) := by rfl
  -- The introduction fails, and a session would mean that it has succeeded.
  have htoken : (fresh narrow).nextToken.1 = .ok "secret" := rfl
  cases (along htoken "a" (upTo answering (n + 1))).attempt with
  | greeting hgreeting hwire => cases hphase.symm.trans hgreeting
  | failed e hstage hfailed' hwire => cases hphase.symm.trans hfailed'
  | begun hok hbegun =>
    cases (stage_of_done_le (Nat.le_max_left 4 (n + 1)) hfailed).symm.trans
      (stage_of_done_le (Nat.le_max_right 4 (n + 1)) hok)

end Client

end Parley
