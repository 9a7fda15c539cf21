import Parley.Proofs.Session.Answering

/-!
# A session's side of a dialogue

A `Dialogue` is all that has led the reading side of a session to speak, in order: the frames that
it has taken and the silences that it has broken by a ping, with all messages that it has queued.
Main statements: `Dialogue.Agrees.heard` and `Session.exists_read?_of_live`.
-/

namespace Parley

/-- What leads the reading side of a session to speak. -/
inductive Prompt
  | frame (x : Exchange)
  | silence

namespace Prompt

def answers : Prompt → List Message
  | .frame x => x.answers
  | .silence => [.signal .ping]

def IsComplete : Prompt → Prop
  | .frame x => x.IsComplete
  | .silence => True

def raw? : Prompt → Option RawFrame
  | .frame x => some x.raw
  | .silence => none

def did (p : Progress) (stage : Stage) : Prompt → Prompt
  | .frame x => .frame (x.did p stage)
  | .silence => .silence

end Prompt

/-- What has led the reading side of a session to speak, and all messages that it has queued. -/
structure Dialogue where
  past : List Prompt := []
  current : Option Prompt := none
  queued : List Message := []

namespace Dialogue

def prompts (d : Dialogue) : List Prompt := d.past ++ d.current.toList

def frames (d : Dialogue) : List RawFrame := d.prompts.filterMap Prompt.raw?

def prompt? (s : Session) (p : Progress) (step : Session.Step) : Option Prompt :=
  match s.reads? step with
  | some raw => some (.frame { raw, engine := p.engine })
  | none =>
    if s.keepalive.pingsSent < step.session.keepalive.pingsSent then some .silence else none

def heard (d : Dialogue) (s : Session) (p : Progress) (step : Session.Step) : Dialogue where
  past := if (prompt? s p step).isSome then d.prompts else d.past
  current := (prompt? s p step).or (d.current.map (·.did p s.stage))
  queued := d.queued ++
    (step.session.outbox.items.drop s.outbox.items.length).map (·.message)

lemma raw?_did (p : Progress) (stage : Stage) (prompt : Prompt) :
    (prompt.did p stage).raw? = prompt.raw? := by
  cases prompt with
  | silence => rfl
  | frame x =>
    refine congrArg some ?_
    unfold Exchange.did
    split <;> rfl

lemma frames_heard (d : Dialogue) (s : Session) (p : Progress) (step : Session.Step) :
    (d.heard s p step).frames = d.frames ++ (s.reads? step).toList := by
  cases hprompt : prompt? s p step with
  | none =>
    have hreads : s.reads? step = none := by
      unfold prompt? at hprompt
      split at hprompt
      · cases hprompt
      · assumption
    have hcurrent : (d.current.map (·.did p s.stage)).toList.filterMap Prompt.raw? =
        d.current.toList.filterMap Prompt.raw? := by
      cases d.current with
      | none => rfl
      | some x => simp only [Option.map_some, Option.toList_some, List.filterMap_cons, raw?_did]
    simp [heard, frames, prompts, hprompt, hreads, hcurrent]
  | some prompt =>
    have hraw : prompt.raw? = s.reads? step := by
      unfold prompt? at hprompt
      split at hprompt
      · rename_i raw hreads
        rw [← Option.some.inj hprompt, hreads]
        rfl
      · rename_i hreads
        rw [← Option.some.inj (Option.ite_none_right_eq_some.mp hprompt).2, hreads]
        rfl
    have hlast : [prompt].filterMap Prompt.raw? = (s.reads? step).toList := by
      rw [← hraw]
      cases prompt <;> rfl
    rw [frames, prompts, heard, hprompt, List.filterMap_append]
    exact congrArg (d.frames ++ ·) hlast

/-- The duties that are left store nothing and all answers to the last prompt are known, or they
store what its frame has closed. -/
def Leaves (prompt : Option Prompt) (duties : List Duty) : Prop :=
  (∀ duty ∈ duties, Session.stores duty = false) ∧ (∀ x ∈ prompt, x.IsComplete) ∨
    ∃ x, prompt = some (.frame x) ∧ x.Stores duties

/-- What has been queued answers the prompts, together with what the duties of the last one will
still send. -/
inductive Agrees (d : Dialogue) : Stage → Prop
  | starting (requests : List Message) (h : d = {}) : Agrees d (.starting requests)
  | live (duties : List Duty) (sent : List Message) (hpast : ∀ x ∈ d.past, x.IsComplete)
    (hduties : Leaves d.current duties)
    (hqueued : d.queued = d.past.flatMap Prompt.answers ++ sent)
    (hsent : sent ++ duties.filterMap Duty.message? = d.current.toList.flatMap Prompt.answers) :
    Agrees d (.live duties)
  | finished (stage : Stage) (hstage : stage = .leaving ∨ stage = .gone)
    (hpast : ∀ x ∈ d.past, x.IsComplete)
    (hfront : d.past.flatMap Prompt.answers <+: d.queued)
    (hmost : d.queued <+: d.prompts.flatMap Prompt.answers) : Agrees d stage

variable {d : Dialogue} {s : Session} {p : Progress} {step : Session.Step} {prompt : Prompt}
  {duty : Duty} {duties rest : List Duty}

lemma Agrees.of_live (h : d.Agrees (.live duties)) :
    ∃ sent, (∀ x ∈ d.past, x.IsComplete) ∧ Leaves d.current duties ∧
      d.queued = d.past.flatMap Prompt.answers ++ sent ∧
      sent ++ duties.filterMap Duty.message? = d.current.toList.flatMap Prompt.answers := by
  cases h with
  | live duties sent hpast hduties hqueued hsent => exact ⟨sent, hpast, hduties, hqueued, hsent⟩
  | finished stage hstage => rcases hstage with hstage | hstage <;> cases hstage

lemma Leaves.of_cons {current : Option Prompt} (h : Leaves current (duty :: rest))
    (hduty : Session.stores duty = false) : Leaves current rest := by
  rcases h with ⟨hquiet, hcomplete⟩ | ⟨x, -, hstores⟩
  · exact .inl ⟨fun other hother => hquiet other (List.mem_cons_of_mem _ hother), hcomplete⟩
  · cases hstores <;> cases hduty

lemma Leaves.of_nil {current : Option Prompt} (h : Leaves current []) :
    ∀ x ∈ current, x.IsComplete := by
  rcases h with ⟨-, hcomplete⟩ | ⟨x, -, hstores⟩
  · exact hcomplete
  · cases hstores

lemma Leaves.of_stores {current : Option Prompt} (h : Leaves current (duty :: rest))
    (hduty : Session.stores duty = true) :
    ∃ x, current = some (.frame x) ∧ x.Stores (duty :: rest) := by
  rcases h with ⟨hquiet, -⟩ | hstores
  · rw [hquiet duty List.mem_cons_self] at hduty
    cases hduty
  · exact hstores

lemma Agrees.bounds {stage : Stage} (h : d.Agrees stage) :
    (∀ x ∈ d.past, x.IsComplete) ∧ d.past.flatMap Prompt.answers <+: d.queued ∧
      d.queued <+: d.prompts.flatMap Prompt.answers := by
  cases h with
  | starting requests h =>
    subst h
    exact ⟨by simp, List.nil_prefix, List.nil_prefix⟩
  | live duties sent hpast hduties hqueued hsent =>
    refine ⟨hpast, ⟨sent, hqueued.symm⟩, ⟨duties.filterMap Duty.message?, ?_⟩⟩
    rw [hqueued, List.append_assoc, hsent, prompts, List.flatMap_append]
  | finished stage hstage hpast hfront hmost => exact ⟨hpast, hfront, hmost⟩

lemma Agrees.whole (h : d.Agrees (.live [])) :
    d.queued = d.prompts.flatMap Prompt.answers ∧ ∀ x ∈ d.prompts, x.IsComplete := by
  obtain ⟨sent, hpast, hduties, hqueued, hsent⟩ := h.of_live
  have hall : sent = d.current.toList.flatMap Prompt.answers := by
    rw [← hsent]
    exact (List.append_nil sent).symm
  refine ⟨?_, fun x hx => ?_⟩
  · rw [hqueued, hall, prompts, List.flatMap_append]
  · rcases List.mem_append.mp hx with hx | hx
    · exact hpast x hx
    · exact hduties.of_nil x (Option.mem_toList.mp hx)

/-! ## Steps that store nothing and are not prompted -/

lemma did_eq_self {stage : Stage}
    (h : ∀ duty rest, stage = .live (duty :: rest) → Session.stores duty = false) :
    prompt.did p stage = prompt := by
  cases prompt with
  | silence => rfl
  | frame x =>
    refine congrArg Prompt.frame ?_
    unfold Exchange.did
    split
    · cases h _ _ rfl
    · cases h _ _ rfl
    · rfl

lemma did_of_head {stage : Stage} (hstage : stage = .live duties)
    (h : ∀ duty ∈ duties.head?, Session.stores duty = false) : prompt.did p stage = prompt := by
  subst hstage
  refine did_eq_self fun duty rest hduties => ?_
  cases hduties
  exact h duty rfl

lemma prompt?_of_keepalive (hreads : s.reads? step = none)
    (hkeepalive : step.session.keepalive = s.keepalive) : prompt? s p step = none := by
  simp [prompt?, hreads, hkeepalive]

lemma heard_eq {queued : List Message} (hprompt : prompt? s p step = none)
    (hdid : ∀ x : Prompt, x.did p s.stage = x)
    (hitems : (step.session.outbox.items.drop s.outbox.items.length).map (·.message) = queued) :
    d.heard s p step = { d with queued := d.queued ++ queued } := by
  have hcurrent : d.current.map (·.did p s.stage) = d.current := by
    simp only [hdid, Option.map_id']
  simp [heard, hprompt, hitems, hcurrent]

lemma agrees_of_quiet {stage : Stage} (hreads : s.reads? step = none)
    (hkeepalive : step.session.keepalive = s.keepalive)
    (hdid : ∀ x : Prompt, x.did p s.stage = x)
    (hitems : step.session.outbox.items = s.outbox.items ∨ step.session.outbox.items = [])
    (h : d.Agrees stage) : (d.heard s p step).Agrees stage := by
  have hqueued : (step.session.outbox.items.drop s.outbox.items.length).map (·.message) = [] := by
    rcases hitems with hitems | hitems <;> simp [hitems]
  rw [heard_eq (prompt?_of_keepalive hreads hkeepalive) hdid hqueued, List.append_nil]
  exact h

lemma agrees_of_sent {m : Message} (h : d.Agrees (.live (.send m :: rest)))
    (hstage : s.stage = .live (.send m :: rest)) (hlink : step.session.link = s.link)
    (hkeepalive : step.session.keepalive = s.keepalive)
    (hitems : step.session.outbox.items = s.outbox.items ++ [{ message := m }]) :
    (d.heard s p step).Agrees (.live rest) := by
  obtain ⟨sent, hpast, hduties, hqueued, hsent⟩ := h.of_live
  have hnew : (step.session.outbox.items.drop s.outbox.items.length).map (·.message) = [m] := by
    simp [hitems]
  have hprompt : prompt? s p step = none :=
    prompt?_of_keepalive (Session.reads?_of_link hlink) hkeepalive
  rw [heard_eq hprompt (fun x => did_of_head hstage (by simp [Session.stores])) hnew]
  refine .live rest (sent ++ [m]) hpast (hduties.of_cons rfl) ?_ ?_
  · change d.queued ++ [m] = _
    rw [hqueued, List.append_assoc]
  · rw [List.append_assoc]
    exact hsent

lemma Agrees.handedOut {ev : Event} (h : d.Agrees (.live (duty :: rest)))
    (hduty : Session.eventOf? p duty = some ev) : d.Agrees (.live rest) := by
  obtain ⟨sent, hpast, hduties, hqueued, hsent⟩ := h.of_live
  have hmessage : duty.message? = none := by
    cases duty with
    | send m => cases hduty
    | _ => rfl
  rw [List.filterMap_cons_none hmessage] at hsent
  exact .live rest sent hpast (hduties.of_cons (Session.stores_of_eventOf? hduty)) hqueued hsent

lemma Agrees.finish {stage : Stage} (h : d.Agrees stage) : d.Agrees .leaving := by
  obtain ⟨hpast, hfront, hmost⟩ := h.bounds
  exact .finished .leaving (.inl rfl) hpast hfront hmost

lemma Agrees.left (h : d.Agrees .leaving) : d.Agrees .gone := by
  cases h with
  | finished stage hstage hpast hfront hmost => exact .finished .gone (.inr rfl) hpast hfront hmost

/-! ## Prompts -/

/-- There is a new prompt only when everything is done that the one before it has left. -/
lemma agrees_of_prompted (h : d.Agrees (.live [])) (hprompt : prompt? s p step = some prompt)
    (houtbox : step.session.outbox = s.outbox)
    (hsends : duties.filterMap Duty.message? = prompt.answers)
    (hduties : Leaves (some prompt) duties) : (d.heard s p step).Agrees (.live duties) := by
  obtain ⟨hqueued, hcomplete⟩ := h.whole
  have hheard : d.heard s p step =
      { past := d.prompts, current := some prompt, queued := d.queued } := by
    simp [heard, hprompt, houtbox]
  rw [hheard]
  refine .live _ [] hcomplete hduties ?_ ?_
  · exact hqueued.trans (List.append_nil _).symm
  · rw [hsends]
    exact (List.append_nil _).symm

lemma agrees_of_dispatched {raw : RawFrame} (h : d.Agrees (.live []))
    (hreads : s.reads? step = some raw) (houtbox : step.session.outbox = s.outbox) :
    (d.heard s p step).Agrees (.live (dispatch p s.tracker raw).duties) := by
  have hbegins := begins_dispatch p s.tracker raw
  have hprompt : prompt? s p step = some (.frame { raw, engine := p.engine }) := by
    simp [prompt?, hreads]
  refine agrees_of_prompted h hprompt houtbox hbegins.sends ?_
  rcases hbegins.stores with ⟨hquiet, hcomplete⟩ | hstores
  · exact .inl ⟨hquiet, fun x hx => Option.some.inj hx ▸ hcomplete⟩
  · exact .inr ⟨_, rfl, hstores⟩

lemma pingsSent_lt {k : Keepalive} {now : Nat} (h : (k.onIdle now).2 = true) :
    k.pingsSent < (k.onIdle now).1.pingsSent := by
  unfold Keepalive.onIdle at h ⊢
  split
  · rename_i hearly
    rw [if_pos hearly] at h
    cases h
  · exact Nat.lt_succ_self _

lemma agrees_of_pinged (h : d.Agrees (.live [])) (hlink : step.session.link = s.link)
    (hkeepalive : s.keepalive.pingsSent < step.session.keepalive.pingsSent)
    (houtbox : step.session.outbox = s.outbox) :
    (d.heard s p step).Agrees (.live [.send (.signal .ping)]) := by
  have hprompt : prompt? s p step = some .silence := by
    simp [prompt?, Session.reads?_of_link hlink, hkeepalive]
  refine agrees_of_prompted h hprompt houtbox rfl (.inl ⟨by simp [Session.stores], ?_⟩)
  intro x hx
  obtain rfl := Option.some.inj hx
  trivial

/-! ## The end of a window -/

lemma heard_did (hlink : step.session.link = s.link)
    (hkeepalive : step.session.keepalive = s.keepalive)
    (houtbox : step.session.outbox = s.outbox) :
    d.heard s p step = { d with current := d.current.map (·.did p s.stage) } := by
  have hprompt : prompt? s p step = none :=
    prompt?_of_keepalive (Session.reads?_of_link hlink) hkeepalive
  simp [heard, hprompt, houtbox]

lemma agrees_of_persisted {scope : Scope} {key : Int64} {cursors : Cursors}
    (h : d.Agrees (.live (.persist scope key cursors :: rest)))
    (hstage : s.stage = .live (.persist scope key cursors :: rest))
    (hlink : step.session.link = s.link) (hkeepalive : step.session.keepalive = s.keepalive)
    (houtbox : step.session.outbox = s.outbox) :
    (d.heard s p step).Agrees (.live (.commit scope key (p.store.save cursors).1 :: rest)) := by
  obtain ⟨sent, hpast, hduties, hqueued, hsent⟩ := h.of_live
  obtain ⟨x, hcurrent, hstores⟩ := hduties.of_stores rfl
  have hdid : (Prompt.frame x).did p s.stage =
      .frame { x with stored := some (p.store.save cursors).1 } := by
    rw [hstage]
    rfl
  rw [heard_did hlink hkeepalive houtbox, hcurrent, Option.map_some, hdid]
  rw [hcurrent] at hsent
  cases hstores with
  | persist point cursors hend hsnapshot hclosing =>
    have hanswers (stored : Option Bool) : ({ x with stored } : Exchange).answers = [] := by
      rw [Exchange.answers_of_ending? (x := { x with stored }) hend, Exchange.outcome, hclosing]
    have hsent : sent ++ [] = x.answers ++ [] := hsent
    refine .live _ sent hpast (.inr ⟨_, rfl, ?_⟩) hqueued ?_
    · refine .commit point hend ?_ hclosing
      exact (congrArg Option.isSome hsnapshot).symm
    · refine Eq.trans hsent ?_
      exact congrArg (· ++ []) ((hanswers x.stored).trans (hanswers _).symm)

lemma agrees_of_committed {scope : Scope} {key : Int64} {persisted : Bool}
    (h : d.Agrees (.live (.commit scope key persisted :: rest)))
    (hstage : s.stage = .live (.commit scope key persisted :: rest))
    (hlink : step.session.link = s.link) (hkeepalive : step.session.keepalive = s.keepalive)
    (houtbox : step.session.outbox = s.outbox) :
    (d.heard s p step).Agrees (.live ((p.syncEnd scope key persisted).2 ++ rest)) := by
  obtain ⟨sent, hpast, hduties, hqueued, hsent⟩ := h.of_live
  obtain ⟨x, hcurrent, hstores⟩ := hduties.of_stores rfl
  have hdid : (Prompt.frame x).did p s.stage = .frame { x with closing := some p.engine } := by
    rw [hstage]
    rfl
  rw [heard_did hlink hkeepalive houtbox, hcurrent, Option.map_some, hdid]
  rw [hcurrent] at hsent
  cases hstores with
  | commit point hend hstored hclosing =>
    -- the end of a window is not receipted, so nothing has been sent for this frame yet
    have hnone : x.answers = [] := by
      rw [Exchange.answers_of_ending? hend, Exchange.outcome, hclosing]
    have hnothing : sent = [] := by
      have hall : sent ++ [] = x.answers ++ [] := hsent
      rwa [hnone, List.append_nil] at hall
    have hbegins := begins_of_syncEnd (p := p) hend hstored
    rw [List.append_nil]
    refine .live _ sent hpast ?_ hqueued ?_
    · rcases hbegins.stores with ⟨hquiet, hcomplete⟩ | hstores
      · exact .inl ⟨hquiet, fun y hy => Option.some.inj hy ▸ hcomplete⟩
      · exact .inr ⟨_, rfl, hstores⟩
    · rw [hbegins.sends, hnothing]
      exact (List.append_nil _).symm

/-- A step of the reading side queues answers to its prompts in their order, and nothing else. -/
theorem Agrees.heard {now : Nat} (h : d.Agrees s.stage) (hstep : s.Heard p now step) :
    (d.heard s p step).Agrees step.session.stage := by
  cases hstep with
  | sent m rest outbox hstage hoffer =>
    obtain ⟨-, rfl⟩ := Outbox.offer_taken hoffer
    exact agrees_of_sent (hstage ▸ h) hstage rfl rfl rfl
  | lined m rest outbox hstage hoffer =>
    obtain ⟨-, rfl⟩ := Outbox.offer_lined hoffer
    refine agrees_of_quiet (Session.reads?_of_link rfl) rfl (fun x => did_of_head hstage ?_)
      (.inl rfl) h
    simp [Session.stores]
  | persisted scope key cursors rest hstage =>
    rw [hstage] at h
    exact agrees_of_persisted h hstage rfl rfl rfl
  | committed scope key persisted rest hstage =>
    rw [hstage] at h
    exact agrees_of_committed h hstage rfl rfl rfl
  | handedOut duty ev rest backlog channel hstage hduty hput =>
    have hquiet := Session.stores_of_eventOf? hduty
    rw [hstage] at h
    refine agrees_of_quiet (Session.reads?_of_link rfl) rfl (fun x => did_of_head hstage ?_)
      (.inl rfl) (h.handedOut hduty)
    simpa using hquiet
  | dispatched raw link hstage hnext =>
    rw [hstage] at h
    exact agrees_of_dispatched h (Session.reads?_of_nextRaw hnext rfl) rfl
  | pinged hstage hdue =>
    rw [hstage] at h
    exact agrees_of_pinged h rfl (pingsSent_lt hdue) rfl
  | refilled ev backlog hstage hbacklog hroom =>
    refine agrees_of_quiet (Session.reads?_of_link rfl) rfl (fun x => did_eq_self ?_) (.inl rfl) h
    rcases hstage with hstage | hstage <;> simp [hstage]
  | left hstage hempty =>
    rw [hstage] at h
    refine agrees_of_quiet (Session.reads?_of_link rfl) rfl (fun x => did_eq_self ?_) (.inl rfl)
      h.left
    simp [hstage]
  | finished duties link reason hstage hduty hends =>
    rw [hstage] at h
    exact agrees_of_quiet (hends.reads? rfl) rfl (fun x => did_of_head hstage hduty) (.inr rfl)
      h.finish

/-! ## Receipts -/

lemma receipts_prompts (prompts : List Prompt) :
    (prompts.flatMap Prompt.answers).filterMap Message.receipt? =
      ((prompts.filterMap Prompt.raw?).filter (·.isDue)).map fun raw => ⟨raw.header.seq, 0⟩ := by
  induction prompts with
  | nil => rfl
  | cons prompt prompts ih =>
    rw [List.flatMap_cons, List.filterMap_append, ih]
    cases prompt with
    | silence => rfl
    | frame x =>
      simp only [Prompt.answers, x.receipts_answers, List.filterMap_cons, Prompt.raw?]
      cases hdue : x.raw.isDue <;> simp [hdue]

end Dialogue

/-! ## Coming to an end -/

namespace Session

/-- How many steps a duty may take, with those it leads to. -/
def effort : Duty → Nat
  | .persist .. => 5
  | .commit .. => 4
  | _ => 1

def efforts (duties : List Duty) : Nat := (duties.map effort).sum

lemma efforts_cons (duty : Duty) (rest : List Duty) :
    efforts (duty :: rest) = effort duty + efforts rest := by
  simp [efforts]

lemma efforts_append (duties rest : List Duty) :
    efforts (duties ++ rest) = efforts duties + efforts rest := by
  simp [efforts]

lemma efforts_send (m : Option Message) : efforts (m.toList.map .send) ≤ 1 := by
  cases m <;> simp [efforts, effort]

lemma efforts_syncEnd_lt (p : Progress) (scope : Scope) (key : Int64) (persisted : Bool) :
    efforts (p.syncEnd scope key persisted).2 < 4 := by
  have hack := efforts_send (p.engine.commitEnd scope key persisted).2.ack
  have hfollowUp := efforts_send (p.engine.commitEnd scope key persisted).2.followUp
  have hannounce (ev : Event) : efforts [.announce ev] = 1 := rfl
  rw [Progress.syncEnd, efforts_append, efforts_append, hannounce]
  omega

variable {s : Session} {p : Progress} {duty : Duty} {rest : List Duty}

lemma emit_of_taken (ev : Event) (htaken : s.channel.isTaken = true) :
    (s.emit p ev).session.stage = s.stage := by
  rcases s.emit_cases p ev with ⟨backlog, channel, -, hemit⟩ | ⟨hnot, -⟩
  · rw [hemit]
  · rw [htaken] at hnot
    cases hnot

/-- The duties of a frame come to an end, if there is room in the queue for what they send. -/
theorem exists_read?_of_live (now : Nat) (hstage : s.stage = .live (duty :: rest))
    (hopen : s.outbox.isOpen = true) (htaken : s.channel.isTaken = true)
    (hroom : ∀ m, duty = .send m → s.outbox.place .reading < s.outbox.room) :
    ∃ step duties, s.read? p now = some step ∧ step.session.stage = .live duties ∧
      efforts duties < efforts (duty :: rest) := by
  have hread : s.read? p now = s.perform p duty rest := by
    rw [read?, hstage]
  rw [hread, efforts_cons]
  cases duty with
  | send m =>
    have hoffer : s.outbox.offer .reading { message := m } = .taken { s.outbox with
        items := s.outbox.items ++ [{ message := m }], line := s.outbox.line.erase .reading } := by
      simp [Outbox.offer, hopen, hroom m rfl]
    simp only [perform, hoffer]
    exact ⟨_, rest, rfl, rfl, Nat.lt_add_of_pos_left Nat.one_pos⟩
  | deliver f =>
    exact ⟨_, rest, rfl, emit_of_taken (s := { s with stage := .live rest }) _ htaken,
      Nat.lt_add_of_pos_left Nat.one_pos⟩
  | announce ev =>
    exact ⟨_, rest, rfl, emit_of_taken (s := { s with stage := .live rest }) _ htaken,
      Nat.lt_add_of_pos_left Nat.one_pos⟩
  | persist scope key cursors =>
    refine ⟨_, _, rfl, rfl, ?_⟩
    rw [efforts_cons]
    exact Nat.add_lt_add_right (Nat.lt_succ_self 4) _
  | commit scope key persisted =>
    refine ⟨_, _, rfl, rfl, ?_⟩
    rw [efforts_append]
    exact Nat.add_lt_add_right (efforts_syncEnd_lt p scope key persisted) _

end Session

end Parley
