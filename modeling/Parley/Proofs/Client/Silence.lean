import Parley.Proofs.Client.Grounds
import Parley.Proofs.Client.Lining
import Parley.Proofs.Client.Vigil

/-!
# Times of silence

In a time of silence a connection takes no frame, and time passes only where nothing is left to do,
and never over a deadline (`Client.isLull`). Its keepalive is then asked at each of its deadlines,
and the ping that is due there is queued before the next one is (`Rung`).
-/

namespace Parley

def Outgoing.ping : Outgoing := .own (.signal .ping)

lemma newly_of_ahead_eq {phase phase' : Option Phase} (h : aheadOf phase' = aheadOf phase) :
    newly phase phase' = [] := by
  rw [newly, h, List.drop_length]

namespace Session
variable {s s' : Session} {p : Progress} {now : Nat}

/-- What a turn without a frame does to a session that has no duty besides a ping: which items are
queued by it, and what the keepalive is told. -/
inductive Calmed (now : Nat) (s s' : Session) : List Outgoing → Option Keepalive.Op → Prop
  | pinged (hstage : s.stage = .live []) (hlate : s.keepalive.deadline ≤ now)
    (hstage' : s'.stage = .live [.send (.signal .ping)]) : Calmed now s s' [] (some .idle)
  | sent (hstage : s.stage = .live [.send (.signal .ping)]) (hstage' : s'.stage = .live []) :
    Calmed now s s' [.ping] none
  | apart (items : List Outgoing) (hitems : ∀ item ∈ items, item.caller ≠ none)
    (hstage : s'.stage = s.stage) : Calmed now s s' items none

lemma standing_ne_welcome_of_running (h : s.standing = .running) : s.standing ≠ .welcome := by
  rw [h]
  decide

def Rests (s : Session) : Prop := s.stage = .live [] ∨ s.stage = .live [.send (.signal .ping)]

lemma Heard.calmed {step : Step} (h : s.Heard p now step) (hrests : s.Rests)
    (hreads : s.reads? step = none) (hrunning : step.session.standing = .running)
    (holder : Holder) :
    Calmed now s step.session
      (newly (some (.established s holder)) (some (.established step.session holder)))
      (s.tells? step) := by
  have hduty {duty : Duty} {rest : List Duty} (hstage : s.stage = .live (duty :: rest)) :
      duty = .send (.signal .ping) ∧ rest = [] := by
    rcases hrests with hrests | hrests
    · cases hrests.symm.trans hstage
    · cases hrests.symm.trans hstage
      exact ⟨rfl, rfl⟩
  have hnewly (hsending : step.session.sending = s.sending) :
      newly (some (.established s holder)) (some (.established step.session holder)) = [] :=
    newly_of_ahead_eq (congrArg Sending.ahead hsending)
  cases h with
  | sent m rest outbox hstage hoffer =>
    obtain ⟨hm, rfl⟩ := hduty hstage
    cases hm
    obtain ⟨-, rfl⟩ := Outbox.offer_taken hoffer
    rw [tells?_of_keepalive hreads rfl]
    simp only [newly, aheadOf, Sending.ahead, sending, ← List.append_assoc, List.drop_left]
    exact .sent hstage rfl
  | lined m rest outbox hstage hoffer =>
    obtain ⟨-, rfl⟩ := Outbox.offer_lined hoffer
    rw [tells?_of_keepalive hreads rfl, hnewly rfl]
    exact .apart [] (by simp) rfl
  | persisted scope key cursors rest hstage => cases (hduty hstage).1
  | committed scope key persisted rest hstage => cases (hduty hstage).1
  | handedOut duty ev rest backlog channel hstage hev hput =>
    obtain ⟨rfl, -⟩ := hduty hstage
    cases hev
  | dispatched raw link hstage hnext =>
    rw [reads?_of_nextRaw hnext rfl] at hreads
    cases hreads
  | pinged hstage hdue =>
    rw [tells?_of_pingsSent hreads (Dialogue.pingsSent_lt hdue), hnewly rfl]
    exact .pinged hstage (Keepalive.deadline_le_of_onIdle hdue) rfl
  | refilled ev backlog hstage hbacklog hroom =>
    rw [tells?_of_keepalive hreads rfl, hnewly rfl]
    exact .apart [] (by simp) rfl
  | left hstage hleft => rcases hrests with hrests | hrests <;> cases hrests.symm.trans hstage
  | finished duties link reason hstage hduty hends => cases hrunning

end Session

namespace Client
variable {c : Client} {i k : Nat} {t : Turn} {s s' : Session} {holder holder' : Holder}

/-! ## Turns without a frame -/

/-- In a turn no frame is taken on a connection. Time passes in it only where nothing is left to
do, and not over the deadline of the connection. -/
def isCalm (c : Client) (i : Nat) (t : Turn) : Bool :=
  match t.move with
  | .pass ms => c.waits i && ((c.phase? i).bind deadlineOf).all fun t => c.now + ms ≤ t
  | _ => ((c.hears? i t).bind fun (s, step) => s.reads? step).isNone

/-- A time of silence on a connection. -/
def isLull (c : Client) (i : Nat) : List Turn → Bool
  | [] => true
  | t :: ts => c.isCalm i t && (c.play t).isLull i ts

lemma isLull_concat (c : Client) (i : Nat) (ts : List Turn) (t : Turn) :
    c.isLull i (ts ++ [t]) = (c.isLull i ts && (c.playAll ts).isCalm i t) := by
  induction ts generalizing c with
  | nil => simp [isLull, playAll]
  | cons u ts ih =>
    rw [List.cons_append, isLull, ih, isLull, Bool.and_assoc]
    rfl

lemma PhaseMoved.newly_eq_nil {m : Move} {taken : Option Event} {duties : List Duty}
    (h : c.PhaseMoved i m taken (some (.established s holder)) (some (.established s' holder')))
    (hreading : m ≠ .act (.reading i)) (hcalling : ∀ k, m ≠ .act (.calling k))
    (hstage : s.stage = .live duties) :
    newly (some (.established s holder)) (some (.established s' holder')) = [] := by
  cases h with
  | same => exact newly_self _
  | ready _ _ _ hready => cases hstage.symm.trans (Session.startup_ready hready).1
  | going _ _ _ hgoing =>
    obtain ⟨m, requests, outbox, hstarting, -⟩ := Session.startup_going hgoing
    cases hstage.symm.trans hstarting
  | wrote _ _ _ notes hwrite =>
    obtain ⟨chunks, -, hconveys⟩ : ∃ chunks : List Bytes,
        s'.link.written = s.link.written ++ chunks ∧
          Conveys (fun _ => False) s.sending s'.sending chunks.flatten notes :=
      (Session.written_of_write? hwrite).conveys
    exact List.eq_nil_iff_forall_not_mem.mpr fun item hitem => hconveys.origin_of_ahead hitem
  | read => exact absurd rfl hreading
  | offered k => exact absurd rfl (hcalling k)
  | expired k => exact absurd rfl (hcalling k)
  | took _ _ b ev hstash htake =>
    obtain ⟨items, -, rfl⟩ := Session.takeEvent?_cases htake
    exact newly_of_ahead_eq rfl
  | passed id _ _ b b' w w' ev htake =>
    obtain ⟨items, -, rfl⟩ := Session.takeEvent?_cases htake
    exact newly_of_ahead_eq rfl
  | found id _ _ b b' w ev result tried htake =>
    obtain ⟨items, -, rfl⟩ := Session.takeEvent?_cases htake
    exact newly_of_ahead_eq rfl
  | _ => exact newly_of_ahead_eq rfl

/-- What a call has to queue bears its number. -/
def Signs (c : Client) : Prop :=
  ∀ (k : Nat) call item, c.calls[k]? = some call → call.stage = .offering item →
    item.caller = some k

lemma Signs.of_calling (h : c.Signs) (hmove : t.move = .act (.calling k)) {item : Outgoing}
    (hitem : item ∈ newly (c.phase? i) ((c.play t).phase? i)) : item.caller = some k := by
  rw [play_of_ne (by rw [hmove]; simp), hmove, move] at hitem
  cases hstep : c.act? (.calling k) with
  | none =>
    rw [hstep, Option.getD_none, newly_self] at hitem
    cases hitem
  | some c' =>
    rw [hstep, Option.getD_some] at hitem
    obtain ⟨call, s, holder, hcall, hphase, hstepped⟩ := callStepped_of_act? hstep
    cases hstepped with
    | taken item' outbox hstage hoffer hc' =>
      subst hc'
      obtain ⟨-, rfl⟩ := Outbox.offer_taken hoffer
      obtain ⟨-, hmem⟩ := newly_of_setPhase (fun _ => rfl) hphase (fun _ => rfl) hitem
      obtain rfl : item = item' := by
        simpa [newly, aheadOf, Sending.ahead, Session.sending] using hmem
      exact h k call item hcall hstage
    | lined item' outbox hstage hoffer hc' =>
      subst hc'
      obtain ⟨-, rfl⟩ := Outbox.offer_lined hoffer
      obtain ⟨-, hmem⟩ := newly_of_setPhase (fun _ => rfl) hphase (fun _ => rfl) hitem
      exact absurd hmem (not_mem_newly_of_eq rfl item)
    | refused item' hstage hclosed hphases hcalls =>
      rw [hphases, newly_self] at hitem
      cases hitem
    | onward s' stage hstage houtbox hsame hflight hphases hcalls =>
      obtain ⟨-, hmem⟩ := newly_of_setPhase hphases hphase (fun _ => rfl) hitem
      refine absurd hmem (not_mem_newly_of_eq ?_ item)
      rw [aheadOf, aheadOf, Sending.ahead, Sending.ahead, Session.sending, Session.sending,
        houtbox, hflight]

lemma calmed_play (hsigns : c.Signs)
    (hphase : c.phase? i = some (.established s holder))
    (hphase' : (c.play t).phase? i = some (.established s' holder')) (hrests : s.Rests)
    (hrunning : s'.standing = .running) (hcalm : c.isCalm i t = true) :
    s.Calmed c.now s' (newly (c.phase? i) ((c.play t).phase? i))
      (c.tells? i t) := by
  cases hhears : c.hears? i t with
  | some heard =>
    obtain ⟨s₁, step⟩ := heard
    obtain ⟨holder₁, hmove, hphase₁, hchoice, hstep⟩ := hears?_eq_some hhears
    obtain ⟨rfl, rfl⟩ : s = s₁ ∧ holder = holder₁ := by simpa using hphase.symm.trans hphase₁
    obtain ⟨rfl, rfl⟩ : s' = step.session ∧ holder' = holder := by
      simpa using hphase'.symm.trans hstep
    simp only [isCalm, hmove, hhears, Option.bind_some, Option.isNone_iff_eq_none] at hcalm
    rw [tells?_of_some hhears, hphase, hphase']
    exact (Session.heard_of_mem_choices hchoice).calmed hrests hcalm hrunning _
  | none =>
    obtain ⟨duties, hstage⟩ : ∃ duties, s.stage = .live duties := by
      rcases hrests with hstage | hstage
      · exact ⟨_, hstage⟩
      · exact ⟨_, hstage⟩
    rw [tells?_of_none hhears]
    by_cases hreading : t.move = .act (.reading i)
    · have hsame := phase?_of_hears?_none hhears hreading
      rw [hsame, newly_self]
      obtain ⟨rfl, -⟩ : s' = s ∧ holder' = holder := by
        simpa using hphase'.symm.trans (hsame.trans hphase)
      exact .apart [] (by simp) rfl
    · have hmoved := c.phaseMoved_play t i
      have hsame : s'.stage = s.stage := by
        rcases hmoved.stage hreading hphase' with ⟨link, -, hgreeting⟩ | ⟨s₁, holder₁, hphase₁, hon⟩
        · cases hphase.symm.trans hgreeting
        · obtain ⟨rfl, -⟩ : s = s₁ ∧ holder = holder₁ := by
            simpa using hphase.symm.trans hphase₁
          rw [hstage] at hon ⊢
          generalize s'.stage = stage at hon
          cases hon with
          | same => rfl
      refine .apart _ (fun item hitem => ?_) hsame
      by_cases hcalling : ∃ k, t.move = .act (.calling k)
      · obtain ⟨k, hk⟩ := hcalling
        simp [hsigns.of_calling hk hitem]
      · rw [hphase, hphase'] at hmoved hitem
        rw [hmoved.newly_eq_nil hreading (fun k hk => hcalling ⟨k, hk⟩) hstage] at hitem
        cases hitem

end Client

/-! ## What becomes due -/

/-- All pings that were due are queued, or all but the last one, which the session has to queue. -/
inductive Stage.Pings (own : List Outgoing) (n : Nat) : Stage → Prop
  | queued (h : own = .replicate n .ping) : Pings own n (.live [])
  | due (h : own ++ [.ping] = .replicate n .ping) : Pings own n (.live [.send (.signal .ping)])

/-- How far a time of silence behind a run has come: so many pings have become due, each at one of
the deadlines that follow each other, and such items have been queued. -/
structure Rung (c : Client) (i : Nat) (past ts : List Client.Turn) (n : Nat)
    (items : List Outgoing) (stage : Stage) : Prop where
  start : (Vigil.ofTurns i c (past ++ ts)).start = (Vigil.ofTurns i c past).start
  calls : (Vigil.ofTurns i c (past ++ ts)).calls = (Vigil.ofTurns i c past).calls ++
    Keepalive.ticks (Vigil.ofTurns i c past).since c.config.keepalive.idleInterval n
  queued : (Journal.ofTurns c (past ++ ts)).queued i = (Journal.ofTurns c past).queued i ++ items
  pings : stage.Pings (items.filter (·.caller.isNone)) n
  reached : (Vigil.ofTurns i c past).since + n * c.config.keepalive.idleInterval ≤
    (c.playAll (past ++ ts)).now
  ahead : (c.playAll (past ++ ts)).now ≤
    (Vigil.ofTurns i c past).since + (n + 1) * c.config.keepalive.idleInterval

namespace Rung
variable {c : Client} {i n n' : Nat} {past ts : List Client.Turn} {t : Client.Turn}
  {items : List Outgoing} {stage : Stage} {s s' : Session} {holder holder' : Holder}

lemma rests (h : Rung c i past ts n items s.stage) : s.Rests := by
  have hpings := h.pings
  generalize hstage : s.stage = stage at hpings
  cases hpings with
  | queued => exact .inl hstage
  | due => exact .inr hstage

lemma deadline (h : Rung c i past ts n items stage) (hnew : c.phase? i = none)
    (hordered : Keepalive.Ordered (Vigil.ofTurns i c past).start (Vigil.ofTurns i c past).calls)
    (hphase : (c.playAll (past ++ ts)).phase? i = some (.established s holder))
    (hstanding : s.standing ≠ .welcome) : s.keepalive.deadline =
      (Vigil.ofTurns i c past).since + (n + 1) * c.config.keepalive.idleInterval := by
  rw [(Vigil.of_established hnew hphase hstanding).1, Vigil.course_ofTurns, h.start, h.calls,
    Vigil.since, Vigil.course_ofTurns, Keepalive.Course.keepalive_ticks hordered]

lemma concat (h : Rung c i past ts n items s.stage)
    (hphase : (c.playAll (past ++ ts)).phase? i = some (.established s holder))
    (hstanding : s.standing ≠ .welcome) {more : List Outgoing} {op : Option Keepalive.Op}
    (hmore : newly ((c.playAll (past ++ ts)).phase? i)
      (((c.playAll (past ++ ts)).play t).phase? i) = more)
    (htells : (c.playAll (past ++ ts)).tells? i t = op)
    (hcalls : Keepalive.ticks (Vigil.ofTurns i c past).since c.config.keepalive.idleInterval n ++
        (op.map ((c.playAll (past ++ ts)).now, ·)).toList =
      Keepalive.ticks (Vigil.ofTurns i c past).since c.config.keepalive.idleInterval n')
    (hpings : stage.Pings ((items ++ more).filter (·.caller.isNone)) n')
    (hreached : (Vigil.ofTurns i c past).since + n' * c.config.keepalive.idleInterval ≤
      ((c.playAll (past ++ ts)).play t).now)
    (hahead : ((c.playAll (past ++ ts)).play t).now ≤
      (Vigil.ofTurns i c past).since + (n' + 1) * c.config.keepalive.idleInterval) :
    Rung c i past (ts ++ [t]) n' (items ++ more) stage := by
  have hplay : c.playAll (past ++ (ts ++ [t])) = (c.playAll (past ++ ts)).play t := by
    rw [← List.append_assoc, Client.playAll_concat]
  refine ⟨?_, ?_, ?_, hpings, hplay ▸ hreached, hplay ▸ hahead⟩
  · rw [← List.append_assoc, Vigil.start_concat hphase hstanding, h.start]
  · rw [← List.append_assoc, Vigil.calls_concat, htells, h.calls, List.append_assoc, hcalls]
  · rw [← List.append_assoc, Journal.ofTurns_concat, Journal.queued_play, Journal.client_ofTurns,
      hmore, h.queued, List.append_assoc]

end Rung

section New
variable {config : Config} {store : CursorStore} {tokens : List (Except Error String)} {c : Client}
  {i n : Nat} {run past ts : List Client.Turn} {t : Client.Turn} {items : List Outgoing}
  {s s' : Session} {holder holder' : Holder}

lemma Client.writes_run (hnew : c.phase? i = none) (run : List Client.Turn) :
    Phase.Writes ((c.playAll run).phase? i) := by
  induction run using List.reverseRecOn with
  | nil =>
    intro s holder hphase
    cases hnew.symm.trans hphase
  | append_singleton run t ih =>
    rw [Client.playAll_concat]
    exact ((c.playAll run).phaseMoved_play t i).writes ih

lemma Client.idles_run (hnew : Client.new config store tokens = .ok c)
    (hwaits : (c.playAll run).waits i = true) :
    ∃ s holder, (c.playAll run).phase? i = some (.established s holder) ∧
      s.Idles (c.playAll run).now :=
  (Client.linesUp_run hnew run).idles (Client.writes_run (Client.phase?_of_new hnew i) run) hwaits

lemma Client.signs_run (hnew : Client.new config store tokens = .ok c) (run : List Client.Turn) :
    (c.playAll run).Signs := by
  intro k call item hcall hstage
  have hsound := (Journal.sound_start hnew).ofTurns run
  rw [← Journal.client_ofTurns] at hcall
  exact (hsound.offering k call item hcall hstage).2

lemma Client.now_le_of_isCalm (hnew : Client.new config store tokens = .ok c)
    (hphase : (c.playAll run).phase? i = some (.established s holder))
    (hle : (c.playAll run).now ≤ s.keepalive.deadline)
    (hcalm : (c.playAll run).isCalm i t = true) :
    ((c.playAll run).play t).now ≤ s.keepalive.deadline := by
  by_cases hpass : ∃ ms, t.move = .pass ms
  · obtain ⟨ms, hms⟩ := hpass
    simp only [Client.isCalm, hms, Bool.and_eq_true] at hcalm
    obtain ⟨hwaits, hdeadline⟩ := hcalm
    obtain ⟨s₁, holder₁, hphase₁, hidles⟩ := Client.idles_run hnew hwaits
    obtain ⟨rfl, -⟩ : s = s₁ ∧ holder = holder₁ := by simpa using hphase.symm.trans hphase₁
    rw [Client.play_of_ne (by rw [hms]; simp), hms]
    change (c.playAll run).now + ms ≤ s.keepalive.deadline
    simpa [hphase, Client.deadlineOf, Session.deadline?, hidles.stage] using hdeadline
  · rw [Client.now_play fun ms hms => hpass ⟨ms, hms⟩]
    exact hle

/-- A turn in a time of silence brings on the next ping, or queues the one that is due, or does
neither. -/
theorem Rung.play (h : Rung c i past ts n items s.stage)
    (hnew : Client.new config store tokens = .ok c)
    (hordered : Keepalive.Ordered (Vigil.ofTurns i c past).start (Vigil.ofTurns i c past).calls)
    (hphase : (c.playAll (past ++ ts)).phase? i = some (.established s holder))
    (hphase' : ((c.playAll (past ++ ts)).play t).phase? i = some (.established s' holder'))
    (hrunning : s.standing = .running) (hrunning' : s'.standing = .running)
    (hcalm : (c.playAll (past ++ ts)).isCalm i t = true) :
    ∃ n' items', Rung c i past (ts ++ [t]) n' items' s'.stage := by
  have hstanding := Session.standing_ne_welcome_of_running hrunning
  have hdeadline := h.deadline (Client.phase?_of_new hnew i) hordered hphase hstanding
  have hreached := h.reached
  have hahead := Client.now_le_of_isCalm hnew hphase (hdeadline ▸ h.ahead) hcalm
  have hnow := (c.playAll (past ++ ts)).now_le_play t
  have hcalmed := Client.calmed_play (Client.signs_run hnew (past ++ ts)) hphase hphase' h.rests
    hrunning' hcalm
  have hpings := h.pings
  generalize hmore : newly _ _ = more at hcalmed
  generalize htells : (c.playAll (past ++ ts)).tells? i t = op at hcalmed
  cases hcalmed with
  | pinged hstage hlate hstage' =>
    -- The deadline has come just now, since time stops there.
    have htime : (c.playAll (past ++ ts)).now = s.keepalive.deadline := by omega
    refine ⟨n + 1, items ++ [], ?_⟩
    refine h.concat hphase hstanding hmore htells ?_ ?_ (by omega) ?_
    · rw [Keepalive.ticks_succ, htime, hdeadline]
      rfl
    · rw [hstage']
      rw [hstage] at hpings
      cases hpings with
      | queued hown =>
        refine .due ?_
        rw [List.append_nil, hown, List.replicate_succ']
    · rw [Nat.succ_mul]
      omega
  | sent hstage hstage' =>
    refine ⟨n, items ++ [.ping], h.concat hphase hstanding hmore htells ?_ ?_ ?_ ?_⟩
    · exact List.append_nil _
    · rw [hstage']
      rw [hstage] at hpings
      cases hpings with
      | due hown =>
        refine .queued ?_
        rw [List.filter_append, ← hown]
        rfl
    · omega
    · omega
  | apart _ hitems hsame =>
    refine ⟨n, items ++ more, h.concat hphase hstanding hmore htells ?_ ?_ ?_ ?_⟩
    · exact List.append_nil _
    · have hnone : more.filter (·.caller.isNone) = [] := by
        rw [List.filter_eq_nil_iff]
        intro item hitem
        simpa using hitems item hitem
      rw [hsame, List.filter_append, hnone, List.append_nil]
      exact hpings
    · omega
    · omega

lemma Client.running_between {rest : List Client.Turn}
    (hpast : (c.playAll past).standing? i = some .running)
    (hend : (c.playAll (past ++ (ts ++ rest))).standing? i = some .running) :
    ∃ s holder, (c.playAll (past ++ ts)).phase? i = some (.established s holder) ∧
      s.standing = .running := by
  rw [← List.append_assoc, Client.playAll_append] at hend
  obtain ⟨standing, hmid, hfrom⟩ := Client.standing?_playAll hpast ts
  rw [← Client.playAll_append] at hmid
  obtain ⟨last, hlast, hto⟩ := Client.standing?_playAll hmid rest
  obtain rfl : Standing.running = last := Option.some.inj (hend.symm.trans hlast)
  obtain rfl : standing = .running := by
    cases standing with
    | running => rfl
    | attempting => exact absurd hfrom (by decide)
    | welcome => exact absurd hfrom (by decide)
    | ended => exact absurd hto (by decide)
    | failed => exact absurd hto (by decide)
  obtain ⟨phase, hphase, hstanding⟩ := Option.map_eq_some_iff.mp hmid
  cases phase with
  | greeting g link => cases hstanding
  | failed => cases hstanding
  | established s holder => exact ⟨s, holder, hphase, hstanding⟩

/-- All along a time of silence pings become due at one deadline after another. -/
theorem rung_run (hnew : Client.new config store tokens = .ok c)
    (hwaits : (c.playAll past).waits i = true) (hlull : (c.playAll past).isLull i ts = true)
    (hphase : (c.playAll (past ++ ts)).phase? i = some (.established s holder))
    (hrunning : s.standing = .running) : ∃ n items, Rung c i past ts n items s.stage := by
  obtain ⟨s₀, holder₀, hphase₀, hidles⟩ := Client.idles_run hnew hwaits
  obtain ⟨hkeepalive, hordered, hsince⟩ := Vigil.of_established (Client.phase?_of_new hnew i)
    hphase₀ (Session.standing_ne_welcome_of_running hidles.running)
  induction ts using List.reverseRecOn generalizing s holder with
  | nil =>
    rw [List.append_nil] at hphase
    obtain ⟨rfl, -⟩ : s = s₀ ∧ holder = holder₀ := by simpa using hphase.symm.trans hphase₀
    have hearly := hidles.early
    rw [hkeepalive, Vigil.course_ofTurns,
      (Keepalive.Course.sound_ofCalls _ _ _ hordered).deadline] at hearly
    rw [Vigil.since, Vigil.course_ofTurns] at hsince
    refine ⟨0, [], ?_⟩
    rw [hidles.stage]
    refine ⟨?_, ?_, ?_, .queued rfl, ?_, ?_⟩
    · rw [List.append_nil]
    · rw [List.append_nil]
      exact (List.append_nil _).symm
    · rw [List.append_nil, List.append_nil]
    · rw [List.append_nil, Vigil.since, Vigil.course_ofTurns]
      omega
    · rw [List.append_nil, Vigil.since, Vigil.course_ofTurns]
      omega
  | append_singleton ts t ih =>
    rw [Client.isLull_concat, Bool.and_eq_true, ← Client.playAll_append] at hlull
    have hend : (c.playAll (past ++ (ts ++ [t]))).standing? i = some .running := by
      rw [Chronicle.standing?_of_established hphase, hrunning]
    have hpast : (c.playAll past).standing? i = some .running := by
      rw [Chronicle.standing?_of_established hphase₀, hidles.running]
    obtain ⟨s₁, holder₁, hphase₁, hrunning₁⟩ := Client.running_between hpast hend
    obtain ⟨n, items, hrung⟩ := ih hlull.1 hphase₁ hrunning₁
    rw [← List.append_assoc, Client.playAll_concat] at hphase
    exact hrung.play hnew hordered hphase₁ hphase hrunning₁ hrunning hlull.2

end New

end Parley
