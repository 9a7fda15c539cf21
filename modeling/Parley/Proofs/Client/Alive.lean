import Parley.Proofs.Client.Silence

/-!
# Pings

The keepalive of a connection asks for a ping whenever the link has been silent for a whole
interval. In a time of silence just as many pings go out as intervals have passed since the latest
restart. Main statement: `Client.kept_alive`.
-/

namespace Parley

/-- How many of the frames in front of some octets are pings. -/
def pingsIn (bs : Bytes) : Nat :=
  ((drain Frame.maxBodyLen bs).frames.filter (·.header.cmd = (Command.signal .ping).code)).length

section Script
variable (version : UInt8) (seq : Int32)

lemma pingsIn_encode_append {f : Frame} {octets : Bytes} (h : f.encode = .ok octets)
    (rest : Bytes) : pingsIn (octets ++ rest) =
      pingsIn rest + if f.message.cmd = (Command.signal .ping).code then 1 else 0 := by
  obtain ⟨body, -, hfits, rfl⟩ := Frame.encode_eq_ok_iff.mp h
  have hraw : ∀ raw ∈ [RawFrame.mk (f.header body.length) body], raw.Fits Frame.maxBodyLen := by
    intro raw hmem
    obtain rfl := List.mem_singleton.mp hmem
    exact ⟨f.toNat_bodyLen_header hfits, hfits⟩
  have hdrain := drain_wireForm_append hraw rest
  rw [wireForm_cons, wireForm_nil, List.append_nil, RawFrame.encode] at hdrain
  rw [pingsIn, hdrain, Drained.behind, List.singleton_append, List.filter_cons]
  have hcmd : (f.header body.length).cmd = f.message.cmd := rfl
  rw [hcmd]
  by_cases hping : f.message.cmd = (Command.signal .ping).code
  · simp [hping, pingsIn]
  · simp [hping, pingsIn]

lemma pingsIn_script {items : List Outgoing} {n : Nat}
    (hown : items.filter (·.caller.isNone) = .replicate n .ping)
    (hcalls : ∀ item ∈ items, item.caller ≠ none →
      item.message.cmd ≠ (Command.signal .ping).code) :
    pingsIn (script version seq items) = n := by
  induction items generalizing seq n with
  | nil =>
    obtain rfl : n = 0 := by simpa using hown.symm
    rw [script, pingsIn, drain_of_needMore rfl]
    rfl
  | cons item items ih =>
    have hcalls' : ∀ item ∈ items, item.caller ≠ none →
        item.message.cmd ≠ (Command.signal .ping).code :=
      fun other hother => hcalls other (List.mem_cons_of_mem _ hother)
    cases hcaller : item.caller with
    | none =>
      rw [List.filter_cons_of_pos (by rw [hcaller]; rfl)] at hown
      obtain ⟨m, rfl⟩ : ∃ m, n = m + 1 := by
        cases n with
        | zero => cases hown
        | succ m => exact ⟨m, rfl⟩
      rw [List.replicate_succ, List.cons.injEq] at hown
      obtain ⟨rfl, hown⟩ := hown
      -- A ping has no body, so that it can always be written.
      obtain ⟨octets, hencode⟩ : ∃ octets, (Outgoing.ping.frame version seq).encode = .ok octets :=
        ⟨_, rfl⟩
      rw [script_of_ok _ _ hencode, pingsIn_encode_append hencode, ih _ hown hcalls']
      rfl
    | some k =>
      rw [List.filter_cons_of_neg (by rw [hcaller]; simp)] at hown
      have hcmd : (item.frame version seq).message.cmd ≠ (Command.signal .ping).code :=
        hcalls item List.mem_cons_self (by rw [hcaller]; simp)
      cases hencode : (item.frame version seq).encode with
      | error e =>
        rw [script_of_error _ _ hencode]
        exact ih _ hown hcalls'
      | ok octets =>
        rw [script_of_ok _ _ hencode, pingsIn_encode_append hencode, ih _ hown hcalls',
          if_neg hcmd, Nat.add_zero]

end Script

namespace Client
variable {config : Config} {store : CursorStore} {tokens : List (Except Error String)} {c : Client}
  {i : Nat} {run past lull : List Turn} {items : List Outgoing} {s : Session} {holder : Holder}

lemma atRest_of_waits (hnew : new config store tokens = .ok c)
    (hwaits : (c.playAll run).waits i = true) : (c.playAll run).AtRest i := by
  obtain ⟨s, holder, hphase, hidles⟩ := idles_run hnew hwaits
  refine ⟨s, holder, hphase, hidles.isOpen, hidles.flight, ?_, ?_⟩
  · obtain ⟨⟨id, phase⟩, hconnection, rfl⟩ := Option.map_eq_some_iff.mp hphase
    simp only [act?, hconnection, startup?, Session.startup, hidles.stage]
  · simp only [act?, hphase, write?, Session.write?, hidles.flight, Outbox.pop?, hidles.items,
      Option.map_none]

/-- Between two times at which a session waits, just the frames of what is queued go out. -/
lemma wire_of_waits (hnew : new config store tokens = .ok c)
    (hwaits : (c.playAll past).waits i = true)
    (hwaits' : (c.playAll (past ++ lull)).waits i = true)
    (hqueued : (Journal.ofTurns c (past ++ lull)).queued i =
      (Journal.ofTurns c past).queued i ++ items) :
    (c.playAll (past ++ lull)).wireOf i = (c.playAll past).wireOf i ++
      script config.connection.protocolVersion
        (numberBehind config.connection.protocolVersion firstSeq
          ((Journal.ofTurns c past).queued i)) items := by
  have hrest := atRest_of_waits hnew hwaits
  have hrest' := atRest_of_waits hnew hwaits'
  obtain ⟨s, holder, hphase, -⟩ := idles_run hnew hwaits
  obtain ⟨front, n, since, link, rfl, hgreeted⟩ := exists_began (phase?_of_new hnew i) hphase
  obtain ⟨out, hout, -, hwhole⟩ := laid_run hnew hgreeted (⟨.act (.connecting i), n⟩ :: since)
  obtain ⟨out', hout', -, hwhole'⟩ :=
    laid_run hnew hgreeted (⟨.act (.connecting i), n⟩ :: since ++ lull)
  rw [← List.append_assoc] at hout' hwhole'
  rw [hout', hwhole' hrest', hqueued, script_append, hout, hwhole hrest, List.append_assoc]

/-- How many whole intervals have passed since the latest restart that a connection has seen in a
run, when a time of silence behind it is over. -/
def intervals (c : Client) (i : Nat) (past lull : List Turn) : Nat :=
  ((c.playAll (past ++ lull)).now - (Vigil.ofTurns i c past).since) /
    c.config.keepalive.idleInterval

/-- The keepalive of a connection: at any time, in any run, and in a time of silence behind a
run. -/
structure KeptAlive (c : Client) (i : Nat) (past lull : List Turn) : Prop where
  sound : ∀ interval start calls, Keepalive.Ordered start calls →
    (Keepalive.Course.ofCalls interval start calls).Sound interval start ∧
      (Keepalive.Course.ofCalls interval start calls).beats.map (fun b => (b.time, b.op)) = calls
  followed : ∀ run s holder, (c.playAll run).phase? i = some (.established s holder) →
    s.standing ≠ .welcome → s.keepalive = (Vigil.ofTurns i c run).course.keepalive ∧
      Keepalive.Ordered (Vigil.ofTurns i c run).start (Vigil.ofTurns i c run).calls ∧
      (Vigil.ofTurns i c run).since ≤ (c.playAll run).now
  restarted : ∀ run t s step raw, (c.playAll run).hears? i t = some (s, step) →
    s.reads? step = some raw → (Vigil.ofTurns i c (run ++ [t])).since = (c.playAll run).now ∧
      step.session.keepalive.deadline = (c.playAll run).now + c.config.keepalive.idleInterval
  /-- In a time of silence a ping becomes due after each interval, as often as one has passed. -/
  due : (Vigil.ofTurns i c (past ++ lull)).calls = (Vigil.ofTurns i c past).calls ++
    Keepalive.ticks (Vigil.ofTurns i c past).since c.config.keepalive.idleInterval
      (c.intervals i past lull)
  /-- All of these pings are queued, and besides them only what calls have asked for. The frames of
  just these items go out, so that there are just as many pings among them, if no call has sent
  one. -/
  sent : ∃ items out, (Journal.ofTurns c (past ++ lull)).queued i =
      (Journal.ofTurns c past).queued i ++ items ∧
    items.filter (·.caller.isNone) = .replicate (c.intervals i past lull) .ping ∧
    (c.playAll (past ++ lull)).wireOf i = (c.playAll past).wireOf i ++ out ∧
    out = script c.config.connection.protocolVersion
      (numberBehind c.config.connection.protocolVersion firstSeq
        ((Journal.ofTurns c past).queued i)) items ∧
    ((∀ item ∈ items, item.caller ≠ none → item.message.cmd ≠ (Command.signal .ping).code) →
      pingsIn out = c.intervals i past lull)

/-- When a time of silence is over, all pings that have become due in it are queued, one for each
interval. -/
lemma rung_of_waits (hnew : new config store tokens = .ok c)
    (hwaits : (c.playAll past).waits i = true) (hlull : (c.playAll past).isLull i lull = true)
    (hwaits' : (c.playAll (past ++ lull)).waits i = true) :
    ∃ items, Rung c i past lull (c.intervals i past lull) items (.live []) := by
  obtain ⟨s₀, holder₀, hphase₀, hidles₀⟩ := idles_run hnew hwaits
  obtain ⟨s, holder, hphase, hidles⟩ := idles_run hnew hwaits'
  have hordered := (Vigil.of_established (phase?_of_new hnew i) hphase₀
    (Session.standing_ne_welcome_of_running hidles₀.running)).2.1
  obtain ⟨n, items, hrung⟩ := rung_run hnew hwaits hlull hphase hidles.running
  have hearly := hidles.early
  rw [hrung.deadline (phase?_of_new hnew i) hordered hphase
    (Session.standing_ne_welcome_of_running hidles.running)] at hearly
  obtain rfl : n = c.intervals i past lull := Keepalive.eq_div_of_deadline hrung.reached hearly
  exact ⟨items, hidles.stage ▸ hrung⟩

/-- A silent link gets one ping for each interval that passes, and no other. -/
theorem kept_alive (hnew : new config store tokens = .ok c)
    (hwaits : (c.playAll past).waits i = true) (hlull : (c.playAll past).isLull i lull = true)
    (hwaits' : (c.playAll (past ++ lull)).waits i = true) : c.KeptAlive i past lull := by
  obtain ⟨items, hrung⟩ := rung_of_waits hnew hwaits hlull hwaits'
  refine ⟨?_, ?_, ?_, hrung.calls, ?_⟩
  · exact fun interval start calls hordered =>
      ⟨Keepalive.Course.sound_ofCalls interval start calls hordered,
        Keepalive.Course.calls_ofCalls interval start calls⟩
  · exact fun run s holder => Vigil.of_established (phase?_of_new hnew i)
  · exact fun run t s step raw => Vigil.since_of_reads? (phase?_of_new hnew i)
  · have hown : items.filter (·.caller.isNone) =
        .replicate (c.intervals i past lull) .ping := by
      cases hrung.pings with
      | queued hown => exact hown
    have hwire := wire_of_waits hnew hwaits hwaits' hrung.queued
    rw [← config_of_new hnew []] at hwire
    exact ⟨items, _, hrung.queued, hown, hwire, rfl, pingsIn_script _ _ hown⟩

/-- The first connection is ready, and its request is written. A frame that cannot be decoded, a
receipt without a body, comes after twenty seconds. -/
def waiting : List Turn :=
  firsts (introducing ++ List.replicate 2 (.act (.writing 0)) ++
    [.pass 20000, .happen 0 (.arrive [0, 0, 0, 0, 0, 0, 0, 9, 5, 2, 0, 0]), .act (.reading 0)])

/-- Two and a half minutes pass without a frame, with an interval of one minute. -/
def unheard : List Turn :=
  firsts ((List.replicate 2 (.pass 60000 :: List.replicate 2 (.act (.reading 0)) ++
    List.replicate 2 (.act (.writing 0)))).flatten ++ [.pass 30000])

theorem kept_alive_unheard :
    new .least (.memory .zero) [] = .ok least ∧ (least.playAll waiting).waits 0 = true ∧
      (least.playAll waiting).isLull 0 unheard = true ∧
      (least.playAll (waiting ++ unheard)).waits 0 = true ∧
      least.intervals 0 waiting unheard = 2 ∧
      (Vigil.ofTurns 0 least (waiting ++ unheard)).calls =
        [(20000, .frame), (80000, .idle), (140000, .idle)] ∧
      (least.playAll (waiting ++ unheard)).wireOf 0 = (least.playAll waiting).wireOf 0 ++
        [0, 0, 0, 0, 0, 0, 0, 3, 13, 2, 0, 0, 0, 0, 0, 0, 0, 0, 0, 4, 13, 2, 0, 0] ∧
      least.KeptAlive 0 waiting unheard := by
  have hwaits : (least.playAll waiting).waits 0 = true := by decide +kernel
  have hlull : (least.playAll waiting).isLull 0 unheard = true := by decide +kernel
  have hwaits' : (least.playAll (waiting ++ unheard)).waits 0 = true := by decide +kernel
  exact ⟨rfl, hwaits, hlull, hwaits', by decide +kernel, by decide +kernel, by decide +kernel,
    kept_alive new_least hwaits hlull hwaits'⟩

end Client

end Parley
