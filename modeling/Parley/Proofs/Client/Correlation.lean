import Parley.Proofs.Client.Receipts

/-!
# Receipts find their calls

A receipt reaches the call whose frame went out under its number, and no other one. Main statement:
`Journal.correlated_ofTurns`.
-/

namespace Parley

/-! ## Numbers that do not come around -/

section Places
variable {version : UInt8} {seq : Int32} {taken before before' behind hand : List Outgoing}
  {item item' : Outgoing} {octets octets' : Bytes}

lemma frameCount_le_of_prefix (version : UInt8) (seq : Int32) (h : before <+: taken) :
    frameCount version seq before ≤ frameCount version seq taken := by
  obtain ⟨more, rfl⟩ := h
  rw [frameCount_append]
  omega

lemma frameCount_lt_of_place (hplace : before ++ [item] <+: taken)
    (hencode : (item.frame version (numberBehind version seq before)).encode = .ok octets) :
    frameCount version seq before < frameCount version seq taken := by
  have hle := frameCount_le_of_prefix version seq hplace
  rw [frameCount_append, frameCount_of_ok _ _ hencode] at hle
  omega

/-- A number is not given away again before 2³² frames. -/
lemma numberBehind_ne_of_place (hplace : before ++ [item] <+: taken)
    (hencode : (item.frame version (numberBehind version seq before)).encode = .ok octets)
    (hcount : frameCount version seq taken < 2 ^ 32) :
    numberBehind version seq before ≠ numberBehind version seq taken := by
  have hlt := frameCount_lt_of_place hplace hencode
  rw [numberBehind_eq, numberBehind_eq]
  intro h
  exact Journal.ofNat_ne_ofNat hlt (by omega) ((Int32.add_right_inj seq).mp h)

lemma item_eq_of_number (h : before ++ [item] <+: taken) (h' : before' ++ [item'] <+: taken)
    (hencode : (item.frame version (numberBehind version seq before)).encode = .ok octets)
    (hencode' : (item'.frame version (numberBehind version seq before')).encode = .ok octets')
    (hcount : frameCount version seq before < 2 ^ 32)
    (hcount' : frameCount version seq before' < 2 ^ 32)
    (hseq : numberBehind version seq before = numberBehind version seq before') :
    item = item' := by
  rcases Nat.lt_trichotomy before.length before'.length with hlt | heq | hlt
  · have hplace : before ++ [item] <+: before' :=
      List.prefix_of_prefix_length_le h ((List.prefix_append _ _).trans h') (by simp; omega)
    exact absurd hseq (numberBehind_ne_of_place hplace hencode hcount')
  · have hsame : before ++ [item] = before' ++ [item'] :=
      (List.prefix_of_prefix_length_le h h' (by simp [heq])).eq_of_length (by simp [heq])
    simpa using (List.append_inj' hsame rfl).2
  · have hplace : before' ++ [item'] <+: before :=
      List.prefix_of_prefix_length_le h' ((List.prefix_append _ _).trans h) (by simp; omega)
    exact absurd hseq.symm (numberBehind_ne_of_place hplace hencode' hcount)

lemma before_of_place (h : before ++ [item] <+: behind ++ hand) (hhand : hand.length ≤ 1) :
    before <+: behind := by
  refine List.prefix_of_prefix_length_le ((List.prefix_append _ _).trans h)
    (List.prefix_append _ _) ?_
  have hlength := h.length_le
  simp only [List.length_append, List.length_singleton] at hlength
  omega

lemma length_inHandOf_le (phase : Option Phase) : (inHandOf phase).length ≤ 1 := by
  unfold inHandOf
  split
  · rename_i s holder
    cases s.flight <;> simp
  · simp

end Places

namespace Client
variable {c : Client} {t : Turn} {i k : Nat} {seq : Int32}

/-- How a turn can take the waiter of a call away. -/
inductive Releases (c : Client) (t : Turn) (i : Nat) (seq : Int32) (k : Nat) : Prop
  | receipted (a : Ack) (hturn : t = .first (.act (.reading i)))
    (hnext : c.nextReceipt? i = some a) (hseq : a.seq = seq)
  | overdue (call : Call) (deadline : Nat) (hmove : t.move = .act (.calling k))
    (hcall : c.calls[k]? = some call) (hconnection : call.connection = i)
    (hstage : call.stage = .awaiting seq deadline) (hdue : deadline ≤ c.now)
  | unwritten (s : Session) (holder : Holder) (flight : Flight) (hmove : t.move = .act (.writing i))
    (hphase : c.phase? i = some (.established s holder)) (hflight : s.flight = some flight)
    (hseq : flight.seq = seq) (hcaller : flight.item.caller = some k)
    (hclosed : writesOf ((c.play t).phase? i) = false)
  | ended (hmove : t.move = .act (.reading i) ∨ t.move = .act (.connecting i))
    (hclosed : writesOf ((c.play t).phase? i) = false)

lemma established_of_waiter? (h : c.waiter? i seq = some k) :
    ∃ s holder, c.phase? i = some (.established s holder) ∧ s.tracker.waiter? seq = some k := by
  unfold waiter? trackerOf at h
  split at h
  · rename_i s holder hphase
    exact ⟨s, holder, hphase, h⟩
  · cases h

/-- The reading side keeps a waiter, unless it takes in the receipt of its number or ends. -/
lemma waiter?_reading (hk : c.waiter? i seq = some k) (hmove : t.move = .act (.reading i)) :
    (c.play t).waiter? i seq = some k ∨ c.Releases t i seq k := by
  obtain ⟨s, holder, hphase, hwaiter⟩ := established_of_waiter? hk
  obtain ⟨m, n⟩ := t
  obtain rfl : m = .act (.reading i) := hmove
  have hplay : c.play ⟨.act (.reading i), n⟩ =
      ((s.choices c.progress c.now)[n]?.map (c.hear i holder)).getD c := by
    change c.choose i n = _
    unfold choose
    rw [hphase]
  cases hstep : (s.choices c.progress c.now)[n]? with
  | none =>
    rw [hstep] at hplay
    rw [hplay]
    exact .inl hk
  | some step =>
    rw [hstep] at hplay
    have hphase' : (c.play ⟨.act (.reading i), n⟩).phase? i =
        some (.established step.session holder) := by
      rw [hplay]
      exact (phase?_hear c i holder step i).trans (phase?_setPhase_self c hphase _)
    rcases Session.choice_keeps_waiter hstep hwaiter with hkept | ⟨rfl, a, hnext, hseq⟩ | hclosed
    · exact .inl ((waiter?_of_phase? hphase' seq).trans hkept)
    · exact .inr (.receipted a rfl ((nextReceipt?_of_phase? hphase).trans hnext) hseq)
    · refine .inr (.ended (.inl rfl) ?_)
      rw [hphase']
      exact hclosed

end Client

namespace Journal
variable {j : Journal} {i k : Nat} {seq : Int32}

lemma Sound.frameCount_le (hsound : j.Sound) (i : Nat) :
    frameCount j.version firstSeq (j.behind i) ≤
      (drain Frame.maxBodyLen (j.client.wireOf i)).frames.length := by
  obtain ⟨hbehind, hlaid⟩ := hsound.laid i
  have hnil (hqueued : j.queued i = []) : frameCount j.version firstSeq (j.behind i) = 0 := by
    rw [hqueued, List.prefix_nil] at hbehind
    rw [hbehind]
    rfl
  rcases hlaid with ⟨hqueued, -⟩ | ⟨auth, ⟨token, hauth⟩, -, hqueued | ⟨more, hmore⟩⟩
  · rw [hnil hqueued]
    exact Nat.zero_le _
  · rw [hnil hqueued]
    exact Nat.zero_le _
  · obtain ⟨raw, hfits, rfl, -⟩ := Frame.raw_of_encode hauth
    obtain ⟨raws, hscript, hraws, -, hlength⟩ := script_eq_wireForm j.version firstSeq (j.behind i)
    have hall : ∀ raw' ∈ raw :: raws, raw'.Fits Frame.maxBodyLen := by simpa [hfits] using hraws
    rw [hscript, ← wireForm_cons] at hmore
    -- The frames that the writer is done with are on the wire in whole, behind the token frame.
    have hfront := drain_frames_prefix Frame.maxBodyLen (wireForm (raw :: raws)) more
    rw [hmore, drain_wireForm hall] at hfront
    have hle := hfront.length_le
    rw [List.length_cons] at hle
    omega

lemma Registered.caller_of_place (h : j.Registered)
    (hcount : frameCount j.version firstSeq (j.behind i) < 2 ^ 32)
    (hk : j.client.waiter? i seq = some k) {before : List Outgoing} {item : Outgoing}
    {octets : Bytes} (hplace : before ++ [item] <+: j.behind i ++ inHandOf (j.client.phase? i))
    (hseq : numberBehind j.version firstSeq before = seq)
    (hencode : (item.frame j.version seq).encode = .ok octets) : item.caller = some k := by
  obtain ⟨before', item', octets', hplace', hcaller, hseq', hencode'⟩ := h i seq k hk
  have hless : ∀ {before : List Outgoing} {item : Outgoing},
      before ++ [item] <+: j.behind i ++ inHandOf (j.client.phase? i) →
        frameCount j.version firstSeq before < 2 ^ 32 := by
    intro before item hplace
    have hle := frameCount_le_of_prefix j.version firstSeq
      (before_of_place hplace (length_inHandOf_le _))
    omega
  have hsame : item = item' := item_eq_of_number hplace hplace' (by rw [hseq]; exact hencode)
    (by rw [hseq']; exact hencode') (hless hplace) (hless hplace') (hseq.trans hseq'.symm)
  rw [hsame]
  exact hcaller

lemma Registered.ne_nextSeq (h : j.Registered) (hsound : j.Sound)
    (hcount : frameCount j.version firstSeq (j.behind i) < 2 ^ 32) {s : Session} {holder : Holder}
    (hphase : j.client.phase? i = some (.established s holder))
    (hitems : s.outbox.items ≠ []) (hflight : s.flight = none)
    (hk : s.tracker.waiter? seq = some k) : seq ≠ s.nextSeq := by
  have hlane := hsound.lanes i
  have hregisters := h i
  rw [hphase] at hlane hregisters
  have hcourse := onCourse_of_items hlane hitems
  obtain ⟨before, item, octets, hplace, -, hseq, hencode⟩ := hregisters seq k hk
  rw [inHandOf_of_none hflight, List.append_nil] at hplace
  have hne := numberBehind_ne_of_place hplace (by rw [hseq]; exact hencode) hcount
  rw [hseq] at hne
  exact fun heq => hne (heq.trans hcourse.nextSeq)

/-- The writing side keeps a waiter, unless it is that of a frame which it cannot write. -/
lemma Registered.waiter?_writing (h : j.Registered) (hsound : j.Sound)
    (hcount : frameCount j.version firstSeq (j.behind i) < 2 ^ 32) {t : Client.Turn}
    {s s' : Session} {holder : Holder} {notes : List Note}
    (hphase : j.client.phase? i = some (.established s holder))
    (hphase' : (j.client.play t).phase? i = some (.established s' holder))
    (hmove : t.move = .act (.writing i)) (hwritten : s.Written s' notes)
    (hk : s.tracker.waiter? seq = some k) :
    (j.client.play t).waiter? i seq = some k ∨ j.client.Releases t i seq k := by
  rcases hwritten.keeps_waiter hk with hkept | ⟨hflight, hitems, hseq⟩ |
    ⟨flight, hflight, rfl, hclosed⟩
  · exact .inl ((Client.waiter?_of_phase? hphase' seq).trans hkept)
  · exact absurd hseq (h.ne_nextSeq hsound hcount hphase hitems hflight hk)
  · have hlane := hsound.lanes i
    rw [hphase] at hlane
    obtain ⟨hseq, octets, hencode⟩ := (onCourse_of_flight hlane hflight).seq_of_flight hflight
    have hplace : j.behind i ++ [flight.item] <+:
        j.behind i ++ inHandOf (j.client.phase? i) := by
      rw [hphase, inHandOf_of_some hflight]
    have hcaller := h.caller_of_place hcount ((Client.waiter?_of_phase? hphase _).trans hk) hplace
      hseq.symm hencode
    refine .inr (.unwritten s holder flight hmove hphase hflight rfl hcaller ?_)
    rw [hphase']
    exact hclosed

lemma Registered.eq_of_awaiting (h : j.Registered) (hsound : j.Sound)
    (hcount : frameCount j.version firstSeq (j.behind i) < 2 ^ 32)
    (hk : j.client.waiter? i seq = some k) {k' deadline : Nat} {call : Call}
    (hcall : j.client.calls[k']? = some call) (hconnection : call.connection = i)
    (hstage : call.stage = .awaiting seq deadline) : k' = k := by
  obtain ⟨-, item, hasked, hfate⟩ := hsound.awaiting k' call seq deadline hcall hstage
  have hcaller := hsound.caller k' item hasked
  subst hconnection
  cases hfate with
  | written before after octets hbehind hencode =>
    have hplace : before ++ [item] <+: j.behind call.connection ++
        inHandOf (j.client.phase? call.connection) := by
      rw [hbehind]
      exact ⟨after ++ inHandOf (j.client.phase? call.connection), by simp⟩
    exact Option.some.inj
      (hcaller.symm.trans (h.caller_of_place hcount hk hplace rfl hencode))

/-- A waiter stays, unless the receipt of its number is taken in, its own call gives up or fails, or
the session is over. -/
theorem Registered.keeps (h : j.Registered) (hsound : j.Sound)
    (hcount : (drain Frame.maxBodyLen (j.client.wireOf i)).frames.length < 2 ^ 32)
    (hk : j.client.waiter? i seq = some k) (t : Client.Turn) :
    (j.client.play t).waiter? i seq = some k ∨ j.client.Releases t i seq k := by
  have hcount' : frameCount j.version firstSeq (j.behind i) < 2 ^ 32 :=
    Nat.lt_of_le_of_lt (hsound.frameCount_le i) hcount
  by_cases hreading : t.move = .act (.reading i)
  · exact Client.waiter?_reading hk hreading
  · obtain ⟨s, holder, hphase, hwaiter⟩ := Client.established_of_waiter? hk
    -- Besides the writing side and a call that gives up, nothing touches the tracker.
    have hsame : ∀ s' holder', (j.client.play t).phase? i = some (.established s' holder') →
        s'.tracker = s.tracker → (j.client.play t).waiter? i seq = some k ∨
          j.client.Releases t i seq k := by
      intro s' holder' hphase' htracker
      exact .inl ((Client.waiter?_of_phase? hphase' seq).trans (htracker ▸ hwaiter))
    have hmoved := j.client.phaseMoved_play t i
    rw [hphase] at hmoved
    generalize hmove : t.move = m at hmoved hreading
    generalize hphase' : (j.client.play t).phase? i = phase' at hmoved
    generalize j.client.taken? i m = ev at hmoved
    cases hmoved with
    | same => exact hsame s holder hphase' rfl
    | failed _ _ hstartup =>
      refine .inr (.ended (.inr hmove) ?_)
      rw [hphase']
      rfl
    | ready _ s' _ hstartup =>
      obtain ⟨-, rfl⟩ := Session.startup_ready hstartup
      exact hsame _ _ hphase' rfl
    | going _ s' _ hstartup =>
      obtain ⟨m, requests, outbox, -, ⟨-, rfl⟩ | ⟨-, rfl⟩⟩ := Session.startup_going hstartup
      · exact hsame _ _ hphase' rfl
      · exact hsame _ _ hphase' rfl
    | wrote _ s' _ notes hwrite =>
      exact h.waiter?_writing hsound hcount' hphase hphase' hmove
        (Session.written_of_write? hwrite) hwaiter
    | read => exact absurd rfl hreading
    | expired k' call seq' deadline _ _ hcall hstage hconnection hdue =>
      by_cases hseq : seq = seq'
      · subst hseq
        obtain rfl := h.eq_of_awaiting hsound hcount' hk hcall hconnection hstage
        exact .inr (.overdue call deadline hmove hcall hconnection hstage hdue)
      · exact .inl ((Client.waiter?_of_phase? hphase' seq).trans
          (Session.waiter?_forget_of_ne hseq hwaiter))
    | took _ s' b ev hstash htake =>
      obtain ⟨items, -, rfl⟩ := Session.takeEvent?_cases htake
      exact hsame _ _ hphase' rfl
    | passed id _ s' b b' w w' ev htake hstep =>
      obtain ⟨items, -, rfl⟩ := Session.takeEvent?_cases htake
      exact hsame _ _ hphase' rfl
    | found id _ s' b b' w ev result tried htake hstep =>
      obtain ⟨items, -, rfl⟩ := Session.takeEvent?_cases htake
      exact hsame _ _ hphase' rfl
    | _ => exact hsame _ _ hphase' rfl

/-! ## Answers -/

/-- No call is answered twice, since it is finished once it is answered. -/
structure Once (j : Journal) : Prop where
  finished : ∀ (k : Nat) outcome, (k, outcome) ∈ j.answers →
    ∃ call : Call, j.client.calls[k]? = some call ∧ call.stage = .finished
  nodup : (j.answers.map (·.1)).Nodup

lemma stage_of_concludes {call : Call} {s : Session} {outcome : Outcome}
    (h : Client.Call.Concludes call s outcome) : call.stage ≠ .finished := by
  intro hfinished
  cases h <;> simp_all

theorem Once.play (h : j.Once) (t : Client.Turn) : (j.play t).Once := by
  have hold : ∀ (k : Nat) outcome, (k, outcome) ∈ j.answers →
      ∃ call : Call, (j.client.play t).calls[k]? = some call ∧ call.stage = .finished := by
    intro k outcome hmem
    obtain ⟨call, hcall, hfinished⟩ := h.finished k outcome hmem
    obtain ⟨call', hcall', -, -, -, hfinished'⟩ := call_kept (t := t) hcall
    exact ⟨call', hcall', hfinished' hfinished⟩
  rcases j.answers_play t with hsame |
    ⟨k, call, s, outcome, -, hcall, hconcludes, hanswers, hcall'⟩
  · exact ⟨by rw [hsame]; exact hold, by rw [hsame]; exact h.nodup⟩
  · refine ⟨?_, ?_⟩
    · intro k' outcome' hmem
      rw [hanswers] at hmem
      rcases List.mem_append.mp hmem with hmem | hmem
      · exact hold k' outcome' hmem
      · obtain ⟨rfl, rfl⟩ := Prod.mk.inj (List.mem_singleton.mp hmem)
        exact ⟨_, hcall', rfl⟩
    · rw [hanswers, List.map_append, List.map_singleton, ← List.concat_eq_append]
      refine h.nodup.concat ?_
      intro hmem
      obtain ⟨⟨k', outcome'⟩, hanswered, rfl⟩ := List.mem_map.mp hmem
      obtain ⟨call', hcall', hfinished⟩ := h.finished _ outcome' hanswered
      obtain rfl : call = call' := Option.some.inj (hcall.symm.trans hcall')
      -- It would have been finished already.
      exact stage_of_concludes hconcludes hfinished

lemma once_ofTurns (c : Client) (ts : List Client.Turn) : (ofTurns c ts).Once := by
  induction ts using List.reverseRecOn with
  | nil => exact ⟨fun k outcome hmem => (List.not_mem_nil hmem).elim, List.nodup_nil⟩
  | append_singleton ts t ih =>
    rw [ofTurns_concat]
    exact ih.play t

lemma answers_foldl_play (j : Journal) (ts : List Client.Turn) :
    j.answers <+: (ts.foldl Journal.play j).answers := by
  induction ts generalizing j with
  | nil => exact List.prefix_refl _
  | cons t ts ih =>
    refine List.IsPrefix.trans ?_ (ih (j.play t))
    rcases j.answers_play t with hsame | ⟨k, call, s, outcome, -, -, -, hanswers, -⟩
    · rw [hsame]
    · rw [hanswers]
      exact List.prefix_append _ _

lemma client_ofTurns (c : Client) (ts : List Client.Turn) :
    (ofTurns c ts).client = c.playAll ts := by
  induction ts using List.reverseRecOn with
  | nil => rfl
  | append_singleton ts t ih =>
    rw [ofTurns_concat, Client.playAll_append]
    change (ofTurns c ts).client.play t = (c.playAll ts).play t
    rw [ih]

lemma receipt?_of_answer {c : Client} {ts : List Client.Turn} {a : Ack}
    (h : (k, .receipted a) ∈ (ofTurns c ts).answers) : ∃ before after, ts = before ++ after ∧
      (c.playAll before).receipt? k = some a ∧
      ∀ outcome, (k, outcome) ∉ (ofTurns c before).answers := by
  induction ts using List.reverseRecOn with
  | nil => cases h
  | append_singleton ts t ih =>
    have hkept (hmem : (k, .receipted a) ∈ (ofTurns c ts).answers) : ∃ before after,
        ts ++ [t] = before ++ after ∧ (c.playAll before).receipt? k = some a ∧
          ∀ outcome, (k, outcome) ∉ (ofTurns c before).answers := by
      obtain ⟨before, after, rfl, hreceipt, hnone⟩ := ih hmem
      exact ⟨before, after ++ [t], by simp, hreceipt, hnone⟩
    rw [ofTurns_concat] at h
    rcases (ofTurns c ts).answers_play t with hsame |
      ⟨k', call, s, outcome, -, hcall, hconcludes, hanswers, -⟩
    · exact hkept (hsame ▸ h)
    · rw [hanswers] at h
      rcases List.mem_append.mp h with h | h
      · exact hkept h
      · obtain ⟨rfl, rfl⟩ := Prod.mk.inj (List.mem_singleton.mp h)
        refine ⟨ts, [t], rfl, ?_, ?_⟩
        · rw [client_ofTurns] at hcall
          cases hconcludes with
          | receipted seq deadline _ hstage hreceipt =>
            unfold Client.receipt?
            rw [hcall, Option.bind_some, hreceipt]
            rfl
        · intro outcome hmem
          obtain ⟨call', hcall', hfinished⟩ := (once_ofTurns c ts).finished k outcome hmem
          obtain rfl : call = call' := Option.some.inj (hcall.symm.trans hcall')
          exact stage_of_concludes hconcludes hfinished

/-! ## Runs -/

/-- What the receipts that are taken in have to do with the calls that wait for them. -/
structure Correlated (c : Client) (ts : List Client.Turn) : Prop where
  /-- A call that is answered with a receipt has its frame written under the number of the receipt,
  which was taken in while the call waited for that number and had not been answered. -/
  receipted : ∀ k a, (k, .receipted a) ∈ (ofTurns c ts).answers → ∃ before after i call item,
    ts = before ++ .first (.act (.reading i)) :: after ∧
      (ofTurns c before).client.nextReceipt? i = some a ∧
      (ofTurns c before).client.waiter? i a.seq = some k ∧
      (∀ outcome, (k, outcome) ∉ (ofTurns c before).answers) ∧
      (ofTurns c ts).client.calls[k]? = some call ∧ call.connection = i ∧ call.wants = .receipt ∧
      (ofTurns c ts).asked[k]? = some (some item) ∧ (ofTurns c ts).Wrote i item a.seq
  once : ((ofTurns c ts).answers.map (·.1)).Nodup
  told : ∀ i a, (ofTurns c ts).client.nextReceipt? i = some a →
    ((ofTurns c ts).client.play (.first (.act (.reading i)))).calls =
      match (ofTurns c ts).client.waiter? i a.seq with
      | some k => (ofTurns c ts).client.calls.modify k fun call => { call with receipt := .full a }
      | none => (ofTurns c ts).client.calls
  numbered : ∀ i seq k, (ofTurns c ts).client.waiter? i seq = some k →
    (ofTurns c ts).Numbered i k seq
  /-- What becomes of other calls takes no waiter away. -/
  keeps : ∀ i, (drain Frame.maxBodyLen ((ofTurns c ts).client.wireOf i)).frames.length < 2 ^ 32 →
    ∀ seq k, (ofTurns c ts).client.waiter? i seq = some k → ∀ t,
      ((ofTurns c ts).client.play t).waiter? i seq = some k ∨
        (ofTurns c ts).client.Releases t i seq k

section Run
variable {c : Client}

lemma written_of_receipted (hsound : Journal.Sound { client := c })
    (hconnections : c.connections = []) {before after : List Client.Turn} {a : Ack}
    (hanswer : (k, .receipted a) ∈ (ofTurns c (before ++ after)).answers)
    (hwaiter : (ofTurns c before).client.waiter? i a.seq = some k) :
    ∃ (call : Call) (item : Outgoing),
      (ofTurns c (before ++ after)).client.calls[k]? = some call ∧ call.connection = i ∧
      call.wants = .receipt ∧ (ofTurns c (before ++ after)).asked[k]? = some (some item) ∧
      (ofTurns c (before ++ after)).Wrote i item a.seq := by
  have hsound' := hsound.ofTurns (before ++ after)
  have hnumbered := (Registered.ofTurns hsound hconnections before).numbered
    (hsound.ofTurns before) hwaiter
  have hnumbered' : (ofTurns c (before ++ after)).Numbered i k a.seq := by
    rw [ofTurns, List.foldl_append]
    exact hnumbered.foldl_play after
  obtain ⟨call, hcall, hsettles⟩ := hsound'.answered k _ hanswer
  cases hsettles with
  | awaited item seq _ hasked hwants hfate =>
    obtain ⟨rfl, rfl⟩ := hnumbered'.eq_of_fate hsound' hcall hasked hfate
    exact ⟨call, item, hcall, rfl, hwants, hasked, hsound'.wrote_of_fate hfate⟩

/-- In every run of a client, a receipt reaches the call whose frame has gone out under its number,
if that call still waits, and it reaches no other one; and no call loses its waiter to another
one. -/
theorem correlated_ofTurns {config : Config} {store : CursorStore}
    {tokens : List (Except Error String)} (hnew : Client.new config store tokens = .ok c)
    (ts : List Client.Turn) : Correlated c ts := by
  have hsound := sound_start hnew
  obtain ⟨hconnections, hcalls⟩ : c.connections = [] ∧ c.calls = [] := by
    obtain ⟨progress, rfl⟩ := Client.eq_of_new hnew
    exact ⟨rfl, rfl⟩
  have hregistered := Registered.ofTurns hsound hconnections ts
  exact {
    receipted := by
      intro k a hanswer
      obtain ⟨front, back, rfl, hreceipt, hunanswered⟩ := receipt?_of_answer hanswer
      have hnone : c.receipt? k ≠ some a := by
        simp [Client.receipt?, hcalls]
      obtain ⟨before, after, i, rfl, hnext, hwaiter⟩ :=
        (Client.receipt?_playAll hreceipt).resolve_left hnone
      rw [← client_ofTurns] at hnext hwaiter
      rw [List.append_assoc] at hanswer ⊢
      obtain ⟨call, item, hcall, hconnection, hwants, hasked, hwrote⟩ :=
        written_of_receipted hsound hconnections hanswer hwaiter
      refine ⟨before, after ++ back, i, call, item, rfl, hnext, hwaiter, ?_, hcall, hconnection,
        hwants, hasked, hwrote⟩
      -- An answer from before would still be there when the call has got the receipt.
      intro outcome hmem
      refine hunanswered outcome ((List.IsPrefix.subset ?_) hmem)
      rw [ofTurns, ofTurns, List.foldl_append]
      exact answers_foldl_play _ _
    once := (once_ofTurns c ts).nodup
    told := fun i a hnext => Client.calls_of_nextReceipt? hnext
    numbered := fun i seq k hk => hregistered.numbered (hsound.ofTurns ts) hk
    keeps := fun i hcount seq k hk t => hregistered.keeps (hsound.ofTurns ts) hcount hk t }

end Run

/-- Two calls wait for receipts. That of the second one comes, and that of the first one never. -/
def receiving : List Client.Move :=
  Client.introducing ++ [.send 0 "b" .receipt (.signal .heartbeat) 0,
    .send 0 "c" .receipt (.signal .heartbeat) 0, .act (.calling 0), .act (.calling 1),
    .act (.writing 0), .act (.writing 0), .act (.writing 0), .act (.writing 0), .act (.writing 0),
    .act (.writing 0), .act (.calling 0), .act (.calling 1),
    .happen 0 (.arrive [0, 0, 0, 5, 0, 0, 0, 9, 5, 2, 0, 0, 0, 0, 0, 4, 0]), .act (.reading 0),
    .act (.calling 1), .pass 100000, .act (.calling 0)]

theorem correlated_of_receiving : Client.new .least (.memory .zero) [] = .ok .least ∧
    (ofTurns .least (Client.firsts receiving)).answers =
      [(1, .receipted ⟨4, 0⟩), (0, .failed (.timeout "ack"))] ∧
    Correlated .least (Client.firsts receiving) :=
  ⟨Client.new_least, by decide +kernel, correlated_ofTurns Client.new_least _⟩

end Journal

end Parley
