import Parley.Proofs.Session.Steps
import Parley.Proofs.Transport.Chunking

/-!
# The way of the events to the application

A frame that has been read tells the application at most one event, perhaps after other duties.
Events go into the channel, or behind the backlog that is put into it later. What the application
has taken, what is in the channel and what is in the backlog are together, in this order, the events
told by the frames in the order of these (`Session.Feeds`); the end of the session comes behind all
of them.
-/

namespace Parley

/-- Whether a frame is for the application, and not for the session alone. -/
def Frame.isHandedOn (f : Frame) : Bool :=
  match f.message with
  | .ack _ | .signal .pong | .signal .heartbeat | .signal .ping => false
  | .sync .opened _ | .sync .ended _ | .sync .notify _ => false
  | _ => true

/-- Whether an event is what a frame tells. -/
def Event.IsOf (raw : RawFrame) : Event → Prop
  | .message f _ => raw.decode = .ok f ∧ f.isHandedOn = true
  | .syncBegin scope => ∃ f key, raw.decode = .ok f ∧ f.message = .sync .opened ⟨scope, key⟩
  | .syncEnd scope _ _ => ∃ f key, raw.decode = .ok f ∧ f.message = .sync .ended ⟨scope, key⟩
  | .disconnected _ => False

/-- The events that frames tell, in the order of the frames, one for every frame that tells any. -/
inductive Tells : List RawFrame → List Event → Prop
  | nil : Tells [] []
  | silent {frames : List RawFrame} {evs : List Event} (raw : RawFrame) (h : Tells frames evs)
    (hsilent : ∀ ev : Event, ¬ ev.IsOf raw) : Tells (frames ++ [raw]) evs
  | told {frames : List RawFrame} {evs : List Event} (raw : RawFrame) (ev : Event)
    (h : Tells frames evs) (hev : ev.IsOf raw) : Tells (frames ++ [raw]) (evs ++ [ev])

lemma Tells.not_mem_disconnected {frames : List RawFrame} {evs : List Event}
    (h : Tells frames evs) (reason : EndReason) : .disconnected reason ∉ evs := by
  induction h with
  | nil => exact List.not_mem_nil
  | silent raw h hsilent ih => exact ih
  | told raw ev h hev ih =>
    rw [List.mem_append, List.mem_singleton]
    rintro (hin | rfl)
    · exact ih hin
    · exact hev

/-- Whether doing a duty leads to the event that a frame tells. -/
def Duty.IsOf (raw : RawFrame) : Duty → Prop
  | .send _ => False
  | .deliver f => raw.decode = .ok f ∧ f.isHandedOn = true
  | .announce ev => ev.IsOf raw
  | .persist scope key _ | .commit scope key _ =>
    ∃ f, raw.decode = .ok f ∧ f.message = .sync .ended ⟨scope, key⟩

/-- The duties of a session whose frames have told these events: messages to be sent, and at the end
the duty that leads to the event of the last frame, if that is still to be told. -/
inductive Owes (frames : List RawFrame) (evs : List Event) : List Duty → Prop
  | told (messages : List Message) (h : Tells frames evs) : Owes frames evs (messages.map .send)
  | owing (messages : List Message) (duty : Duty) (before : List RawFrame) (raw : RawFrame)
    (hframes : frames = before ++ [raw]) (h : Tells before evs) (hduty : duty.IsOf raw) :
    Owes frames evs (messages.map .send ++ [duty])

/-- All frames have told their events, except perhaps the last one. -/
def TellsMost (frames : List RawFrame) (evs : List Event) : Prop :=
  ∃ told rest, frames = told ++ rest ∧ rest.length ≤ 1 ∧ Tells told evs

lemma TellsMost.not_mem_disconnected {frames : List RawFrame} {evs : List Event}
    (h : TellsMost frames evs) (reason : EndReason) : .disconnected reason ∉ evs := by
  obtain ⟨told, rest, -, -, htells⟩ := h
  exact htells.not_mem_disconnected reason

section Owes
variable {frames : List RawFrame} {evs : List Event} {raw : RawFrame} {duties : List Duty}

lemma Tells.most (h : Tells frames evs) : TellsMost frames evs :=
  ⟨frames, [], (List.append_nil _).symm, Nat.zero_le _, h⟩

lemma Owes.most (h : Owes frames evs duties) : TellsMost frames evs := by
  cases h with
  | told messages h => exact h.most
  | owing messages duty before raw hframes h hduty =>
    exact ⟨before, [raw], hframes, Nat.le_refl 1, h⟩

lemma Owes.of_nil (h : Owes frames evs []) : Tells frames evs := by
  generalize hduties : ([] : List Duty) = duties at h
  cases h with
  | told messages h => exact h
  | owing messages duty before raw hframes h hduty => simp at hduties

lemma Owes.cons {duty : Duty} {rest : List Duty} (h : Owes frames evs (duty :: rest)) :
    (∃ m, duty = .send m) ∧ Owes frames evs rest ∨
      rest = [] ∧ ∃ before raw, frames = before ++ [raw] ∧ Tells before evs ∧ duty.IsOf raw := by
  generalize hduties : duty :: rest = duties at h
  cases h with
  | told messages h =>
    cases messages with
    | nil => cases hduties
    | cons m messages =>
      cases hduties
      exact .inl ⟨⟨m, rfl⟩, .told messages h⟩
  | owing messages last before raw hframes h hduty =>
    cases messages with
    | nil =>
      cases hduties
      exact .inr ⟨rfl, before, raw, hframes, h, hduty⟩
    | cons m messages =>
      cases hduties
      exact .inl ⟨⟨m, rfl⟩, .owing messages last before raw hframes h hduty⟩

lemma silent_of_error {e : Error} (h : raw.decode = .error e) (ev : Event) : ¬ ev.IsOf raw := by
  cases ev with
  | message f origin =>
    rintro ⟨hdecode, -⟩
    cases h.symm.trans hdecode
  | syncBegin scope =>
    rintro ⟨f, key, hdecode, -⟩
    cases h.symm.trans hdecode
  | syncEnd scope cursor caughtUp =>
    rintro ⟨f, key, hdecode, -⟩
    cases h.symm.trans hdecode
  | disconnected reason => exact id

lemma silent_of_ok {f : Frame} (h : raw.decode = .ok f) (hhandedOn : f.isHandedOn = false)
    (hsync : ∀ verb point, f.message = .sync verb point → verb = .notify) (ev : Event) :
    ¬ ev.IsOf raw := by
  cases ev with
  | message g origin =>
    rintro ⟨hdecode, hg⟩
    cases h.symm.trans hdecode
    exact absurd hg (by rw [hhandedOn]; decide)
  | syncBegin scope =>
    rintro ⟨g, key, hdecode, hmessage⟩
    cases h.symm.trans hdecode
    cases hsync _ _ hmessage
  | syncEnd scope cursor caughtUp =>
    rintro ⟨g, key, hdecode, hmessage⟩
    cases h.symm.trans hdecode
    cases hsync _ _ hmessage
  | disconnected reason => exact id

lemma Owes.silent (h : Tells frames evs) (hsilent : ∀ ev : Event, ¬ ev.IsOf raw)
    (messages : List Message) : Owes (frames ++ [raw]) evs (messages.map .send) :=
  .told messages (.silent raw h hsilent)

lemma owes_of_handOn {f : Frame} (h : Tells frames evs) (hdecode : raw.decode = .ok f)
    (hhandedOn : f.isHandedOn = true) :
    Owes (frames ++ [raw]) evs (receiptDuty f ++ [.deliver f]) := by
  unfold receiptDuty
  split
  · exact .owing [_] (.deliver f) frames raw rfl h ⟨hdecode, hhandedOn⟩
  · exact .owing [] (.deliver f) frames raw rfl h ⟨hdecode, hhandedOn⟩

lemma owes_of_syncClosed {f : Frame} {scope : Scope} {key : Int64} (p : Progress)
    (h : Tells frames evs) (hdecode : raw.decode = .ok f)
    (hmessage : f.message = .sync .ended ⟨scope, key⟩) :
    Owes (frames ++ [raw]) evs (p.syncClosed scope key).2 := by
  simp only [Progress.syncClosed]
  split
  · exact .owing [] (.persist scope key _) frames raw rfl h ⟨f, hdecode, hmessage⟩
  · exact .owing [] (.commit scope key false) frames raw rfl h ⟨f, hdecode, hmessage⟩

/-- A frame leaves the duties that lead to what it tells. -/
theorem owes_of_dispatch (p : Progress) (t : Tracker Nat) (h : Tells frames evs)
    (raw : RawFrame) : Owes (frames ++ [raw]) evs (dispatch p t raw).duties := by
  unfold dispatch
  split
  · rename_i f hdecode
    obtain ⟨seq, version, flags, message⟩ := f
    cases message with
    | ack a => exact .silent h (silent_of_ok hdecode rfl (by simp)) []
    | signal kind =>
      cases kind with
      | ping => exact .silent h (silent_of_ok hdecode rfl (by simp)) [_]
      | pong => exact .silent h (silent_of_ok hdecode rfl (by simp)) []
      | heartbeat => exact .silent h (silent_of_ok hdecode rfl (by simp)) []
      | reset => exact owes_of_handOn h hdecode rfl
    | sync verb point =>
      cases verb with
      | opened =>
        exact .owing [] (.announce (.syncBegin point.scope)) frames raw rfl h
          ⟨_, point.key, hdecode, rfl⟩
      | ended => exact owes_of_syncClosed p h hdecode rfl
      | notify =>
        have hsilent := silent_of_ok hdecode rfl (by simp)
        have hsends := Owes.silent h hsilent
          (p.engine.handleNotify point.scope point.key).2.toList
        exact hsends
      | request => exact owes_of_handOn h hdecode rfl
      | confirm => exact owes_of_handOn h hdecode rfl
    | _ => exact owes_of_handOn h hdecode rfl
  · rename_i e hdecode
    exact .silent h (silent_of_error hdecode) []

end Owes

lemma owes_of_syncEnd {frames : List RawFrame} {raw : RawFrame} {evs : List Event}
    {scope : Scope} {key : Int64} {persisted : Bool} (p : Progress) (h : Tells frames evs)
    (hduty : Duty.IsOf raw (.commit scope key persisted)) :
    Owes (frames ++ [raw]) evs (p.syncEnd scope key persisted).2 := by
  obtain ⟨f, hdecode, hmessage⟩ := hduty
  have hduties : (p.syncEnd scope key persisted).2 =
      ((p.engine.commitEnd scope key persisted).2.ack.toList ++
          (p.engine.commitEnd scope key persisted).2.followUp.toList).map .send ++
        [.announce (.syncEnd scope
          (((p.syncEnd scope key persisted).1.engine.cursor? scope).getD 0)
          (p.syncEnd scope key persisted).1.engine.isCaughtUp)] := by
    rw [List.map_append]
    rfl
  rw [hduties]
  exact .owing _ _ frames raw rfl h ⟨f, key, hdecode, hmessage⟩

/-! ## Frames off a link -/

lemma length_lt_of_cutNext {r r' : FrameReader} {raw : RawFrame}
    (h : r.cutNext = (some (.ok raw), r')) : r'.pending.length < r.pending.length := by
  unfold FrameReader.cutNext at h
  split at h
  · rename_i raw' rest hcut
    cases h
    have hlt := length_lt_of_cut hcut
    simp only [FrameReader.pending, List.length_append]
    omega
  · cases h
  · cases h

lemma length_lt_of_nextRaw {r r' : FrameReader} {raw : RawFrame}
    (h : r.nextRaw = (some (.ok raw), r')) : r'.pending.length < r.pending.length := by
  unfold FrameReader.nextRaw at h
  split at h
  · rename_i answer r₁ hcut
    cases h
    exact length_lt_of_cutNext hcut
  · rename_i r₁ hcut
    have hlength : r₁.refill.pending.length = r.pending.length := by
      unfold FrameReader.cutNext at hcut
      split at hcut
      · cases hcut
      · cases hcut
      · cases hcut
        simp [FrameReader.refill, FrameReader.pending]
    split at h
    · rename_i answer r₂ hcut
      cases h
      rw [← hlength]
      exact length_lt_of_cutNext hcut
    · rename_i r₂ hcut
      have hstalled : r₂.inbound.stalled r₂.endError = some (Except.ok raw) := congrArg Prod.fst h
      unfold Inbound.stalled at hstalled
      split at hstalled
      · cases hstalled
      · split at hstalled <;> cases hstalled

lemma link_ne_of_nextRaw {l l' : Link} {raw : RawFrame} (h : l.nextRaw = (some (.ok raw), l')) :
    l ≠ l' := by
  rintro rfl
  rw [Link.nextRaw, Prod.mk.injEq] at h
  have hreader : l.reader.nextRaw = (some (.ok raw), l.reader) :=
    Prod.ext h.1 (congrArg Link.reader h.2)
  exact absurd (length_lt_of_nextRaw hreader) (Nat.lt_irrefl _)

/-! ## What a session does with events -/

namespace Session

def pending (s : Session) : List Event := s.channel.items ++ s.backlog

def reads? (s : Session) (step : Step) : Option RawFrame :=
  match s.link.nextRaw with
  | (some (.ok raw), link) => if step.session.link = link then some raw else none
  | _ => none

/-- The event that a step hands out for a frame. -/
def emits? (s : Session) (p : Progress) (step : Step) : Option Event :=
  match s.stage with
  | .live (duty :: _) => if step.ended then none else eventOf? p duty
  | _ => none

/-- What the application has taken of the events of a session and what it has still to take are the
events that its frames have told. -/
inductive Feeds (s : Session) (frames : List RawFrame) (evs taken : List Event) : Prop
  | starting (requests : List Message) (hstage : s.stage = .starting requests)
    (hframes : frames = []) (hevs : evs = []) (htaken : taken = []) (hpending : s.pending = [])
  | live (duties : List Duty) (hstage : s.stage = .live duties) (howes : Owes frames evs duties)
    (h : taken ++ s.pending = evs)
  | finished (reason : EndReason) (hstage : s.stage = .leaving ∨ s.stage = .gone ∧ s.backlog = [])
    (hmost : TellsMost frames evs) (h : taken ++ s.pending = evs ++ [.disconnected reason])
  | lost (reason : EndReason) (hstage : s.stage = .gone) (habandoned : s.channel.isTaken = false)
    (hmost : TellsMost frames evs) (h : taken ++ s.pending <+: evs ++ [.disconnected reason])

variable {s s' : Session} {frames : List RawFrame} {evs taken : List Event}

lemma Feeds.congr (h : s.Feeds frames evs taken) (hstage : s'.stage = s.stage)
    (hitems : s'.channel.items = s.channel.items) (hbacklog : s'.backlog = s.backlog)
    (htaken : s.channel.isTaken = false → s'.channel.isTaken = false) :
    s'.Feeds frames evs taken := by
  have hpending : s'.pending = s.pending := by rw [pending, hitems, hbacklog, pending]
  cases h with
  | starting requests hs hframes hevs ht hp =>
    exact .starting requests (hstage.trans hs) hframes hevs ht (hpending.trans hp)
  | live duties hs howes h => exact .live duties (hstage.trans hs) howes (hpending ▸ h)
  | finished reason hs hmost h =>
    exact .finished reason (by rwa [hstage, hbacklog]) hmost (hpending ▸ h)
  | lost reason hs habandoned hmost h =>
    exact .lost reason (hstage.trans hs) (htaken habandoned) hmost (hpending ▸ h)

lemma Feeds.take {ev : Event} (h : s.Feeds frames evs taken)
    (htake : s.takeEvent? = some (ev, s')) : s'.Feeds frames evs (taken ++ [ev]) := by
  obtain ⟨items, hitems, rfl⟩ := takeEvent?_cases htake
  have hpending : taken ++ s.pending = taken ++ [ev] ++ (items ++ s.backlog) := by
    simp [pending, hitems]
  cases h with
  | starting requests hs hframes hevs ht hp =>
    rw [pending, hitems] at hp
    cases hp
  | live duties hs howes h => exact .live duties hs howes (hpending.symm.trans h)
  | finished reason hs hmost h => exact .finished reason hs hmost (hpending.symm.trans h)
  | lost reason hs habandoned hmost h => exact .lost reason hs habandoned hmost (hpending ▸ h)

lemma reads?_of_link {step : Step} (hlink : step.session.link = s.link) :
    s.reads? step = none := by
  unfold reads?
  split
  · rename_i raw link hnext
    rw [hlink, if_neg (link_ne_of_nextRaw hnext)]
  · rfl

lemma reads?_of_nextRaw {step : Step} {link : Link} {raw : RawFrame}
    (hnext : s.link.nextRaw = (some (.ok raw), link)) (hlink : step.session.link = link) :
    s.reads? step = some raw := by
  simp only [reads?, hnext, hlink, if_true]

lemma Ends.reads? {step : Step} {link : Link} {reason : EndReason} (h : s.Ends link reason)
    (hlink : step.session.link = link) : s.reads? step = none := by
  cases h with
  | read e link hnext => simp only [Session.reads?, hnext]
  | _ => exact reads?_of_link hlink

lemma isOf_of_eventOf? {p : Progress} {duty : Duty} {ev : Event} {raw : RawFrame}
    (h : eventOf? p duty = some ev) (hduty : duty.IsOf raw) : ev.IsOf raw := by
  cases duty with
  | deliver f =>
    cases h
    exact hduty
  | announce ev' =>
    cases h
    exact hduty
  | _ => cases h

lemma HandsOut.pending {ev : Event} {backlog : List Event} {channel : Channel}
    (h : s.HandsOut ev backlog channel) : channel.items ++ backlog = s.pending ++ [ev] := by
  cases h with
  | channel hbacklog hroom => simp [Session.pending, hbacklog]
  | backlog => simp [Session.pending]

lemma Feeds.of_live {duties : List Duty} (h : s.Feeds frames evs taken)
    (hstage : s.stage = .live duties) : Owes frames evs duties ∧ taken ++ s.pending = evs := by
  cases h with
  | starting requests hs => cases hs.symm.trans hstage
  | live duties' hs howes h =>
    cases hs.symm.trans hstage
    exact ⟨howes, h⟩
  | finished reason hs => simp [hstage] at hs
  | lost reason hs => cases hs.symm.trans hstage

lemma Feeds.of_leaving (h : s.Feeds frames evs taken) (hstage : s.stage = .leaving) :
    TellsMost frames evs ∧ ∃ reason, taken ++ s.pending = evs ++ [.disconnected reason] := by
  cases h with
  | starting requests hs => cases hs.symm.trans hstage
  | live duties hs => cases hs.symm.trans hstage
  | finished reason hs hmost h => exact ⟨hmost, reason, h⟩
  | lost reason hs => cases hs.symm.trans hstage

lemma emits?_of_stage {p : Progress} {step : Step}
    (h : ∀ duty rest, s.stage = .live (duty :: rest) → eventOf? p duty = none) :
    s.emits? p step = none := by
  unfold emits?
  split
  · rename_i duty rest hstage
    rw [h duty rest hstage, ite_self]
  · rfl

lemma emits?_of_ended {p : Progress} {step : Step} (h : step.ended = true) :
    s.emits? p step = none := by
  unfold emits?
  split
  · rw [if_pos h]
  · rfl

lemma feeds_of_quiet {p : Progress} {step : Step} (hreads : s.reads? step = none)
    (hemits : s.emits? p step = none) (h : step.session.Feeds frames evs taken) :
    step.session.Feeds (frames ++ (s.reads? step).toList) (evs ++ (s.emits? p step).toList)
      taken := by
  rw [hreads, hemits, Option.toList_none, Option.toList_none, List.append_nil, List.append_nil]
  exact h

lemma feeds_of_told {p : Progress} {step : Step} {ev : Event} (hreads : s.reads? step = none)
    (hemits : s.emits? p step = some ev) (h : step.session.Feeds frames (evs ++ [ev]) taken) :
    step.session.Feeds (frames ++ (s.reads? step).toList) (evs ++ (s.emits? p step).toList)
      taken := by
  rw [hreads, hemits, Option.toList_none, List.append_nil]
  exact h

/-- A step of the reading side takes events nowhere but to where the application takes them. -/
theorem Feeds.heard {p : Progress} {now : Nat} {step : Step} (h : s.Feeds frames evs taken)
    (hstep : s.Heard p now step) :
    step.session.Feeds (frames ++ (s.reads? step).toList) (evs ++ (s.emits? p step).toList)
      taken := by
  -- a step with a first duty that tells no event
  have hquiet {duty : Duty} {rest : List Duty} {step : Step}
      (hstage : s.stage = .live (duty :: rest)) (hduty : eventOf? p duty = none) :
      s.emits? p step = none := by
    refine emits?_of_stage fun duty' rest' hstage' => ?_
    cases hstage.symm.trans hstage'
    exact hduty
  have hidle {step : Step} (hstage : s.stage = .live []) : s.emits? p step = none := by
    refine emits?_of_stage fun duty rest hstage' => ?_
    cases hstage.symm.trans hstage'
  have hgone {step : Step} (hstage : ∀ duties, s.stage ≠ .live duties) :
      s.emits? p step = none :=
    emits?_of_stage fun duty rest hstage' => absurd hstage' (hstage _)
  cases hstep with
  | sent m rest outbox hstage hoffer =>
    refine feeds_of_quiet (reads?_of_link rfl) (hquiet hstage rfl) ?_
    obtain ⟨howes, hall⟩ := h.of_live hstage
    rcases howes.cons with ⟨-, hrest⟩ | ⟨-, before, raw, -, -, hduty⟩
    · exact .live rest rfl hrest hall
    · exact absurd hduty id
  | lined m rest outbox hstage hoffer =>
    exact feeds_of_quiet (reads?_of_link rfl) (hquiet hstage rfl) (h.congr rfl rfl rfl id)
  | persisted scope key cursors rest hstage =>
    refine feeds_of_quiet (reads?_of_link rfl) (hquiet hstage rfl) ?_
    obtain ⟨howes, hall⟩ := h.of_live hstage
    rcases howes.cons with ⟨⟨m, hm⟩, -⟩ | ⟨rfl, before, raw, rfl, htells, hduty⟩
    · cases hm
    · exact .live _ rfl (.owing [] _ before raw rfl htells hduty) hall
  | committed scope key persisted rest hstage =>
    refine feeds_of_quiet (reads?_of_link rfl) (hquiet hstage rfl) ?_
    obtain ⟨howes, hall⟩ := h.of_live hstage
    rcases howes.cons with ⟨⟨m, hm⟩, -⟩ | ⟨rfl, before, raw, rfl, htells, hduty⟩
    · cases hm
    · refine .live _ rfl ?_ hall
      rw [List.append_nil]
      exact owes_of_syncEnd p htells hduty
  | handedOut duty ev rest backlog channel hstage hduty hput =>
    refine feeds_of_told (reads?_of_link rfl) (by simp only [emits?, hstage, hduty]; rfl) ?_
    obtain ⟨howes, hall⟩ := h.of_live hstage
    rcases howes.cons with ⟨⟨m, rfl⟩, -⟩ | ⟨rfl, before, raw, rfl, htells, hof⟩
    · cases hduty
    · refine .live [] rfl (.told [] (.told raw ev htells (isOf_of_eventOf? hduty hof))) ?_
      rw [← hall, List.append_assoc]
      exact congrArg (taken ++ ·) hput.pending
  | dispatched raw link hstage hnext =>
    obtain ⟨howes, hall⟩ := h.of_live hstage
    rw [hidle hstage, reads?_of_nextRaw hnext rfl, Option.toList_none, List.append_nil]
    exact .live _ rfl (owes_of_dispatch p s.tracker howes.of_nil raw) hall
  | pinged hstage hdue =>
    refine feeds_of_quiet (reads?_of_link rfl) (hidle hstage) ?_
    obtain ⟨howes, hall⟩ := h.of_live hstage
    exact .live _ rfl (.told [_] howes.of_nil) hall
  | refilled ev backlog hstage hbacklog hroom =>
    have hpending : s.channel.items ++ [ev] ++ backlog = s.pending := by
      simp [pending, hbacklog]
    rcases hstage with hstage | hstage
    · refine feeds_of_quiet (reads?_of_link rfl) (hidle hstage) ?_
      obtain ⟨howes, hall⟩ := h.of_live hstage
      exact .live [] hstage howes ((congrArg (taken ++ ·) hpending).trans hall)
    · refine feeds_of_quiet (reads?_of_link rfl) (hgone (by simp [hstage])) ?_
      obtain ⟨hmost, reason, hall⟩ := h.of_leaving hstage
      exact .finished reason (.inl hstage) hmost ((congrArg (taken ++ ·) hpending).trans hall)
  | left hstage hempty =>
    refine feeds_of_quiet (reads?_of_link rfl) (hgone (by simp [hstage])) ?_
    obtain ⟨hmost, reason, hall⟩ := h.of_leaving hstage
    rcases hempty with hempty | habandoned
    · refine .finished reason (.inr ⟨rfl, rfl⟩) hmost ?_
      rw [← hall, pending, pending, hempty]
    · refine .lost reason rfl habandoned hmost ?_
      rw [← hall, pending, pending, List.append_nil, ← List.append_assoc]
      exact List.prefix_append _ _
  | finished duties link reason hstage hduty hends =>
    refine feeds_of_quiet (hends.reads? rfl) (emits?_of_ended rfl) ?_
    obtain ⟨howes, hall⟩ := h.of_live hstage
    refine .finished reason (.inl rfl) howes.most ?_
    rw [← hall, List.append_assoc]
    exact congrArg (taken ++ ·) (List.append_assoc _ _ _).symm

def isOver (s : Session) : Bool :=
  match s.stage with
  | .leaving | .gone => true
  | _ => false

lemma Feeds.most (h : s.Feeds frames evs taken) : TellsMost frames evs := by
  cases h with
  | starting requests hs hframes hevs =>
    rw [hframes, hevs]
    exact Tells.nil.most
  | live duties hs howes h => exact howes.most
  | finished reason hs hmost h => exact hmost
  | lost reason hs habandoned hmost h => exact hmost

lemma Feeds.running (h : s.Feeds frames evs taken) (hrunning : s.isOver = false) :
    taken ++ s.pending = evs := by
  cases h with
  | starting requests hs hframes hevs htaken hpending => rw [htaken, hpending, hevs]; rfl
  | live duties hs howes h => exact h
  | finished reason hs =>
    rcases hs with hs | ⟨hs, -⟩ <;> simp [isOver, hs] at hrunning
  | lost reason hs => simp [isOver, hs] at hrunning

lemma Feeds.ended (h : s.Feeds frames evs taken) (hover : s.isOver = true)
    (htaken : s.channel.isTaken = true) :
    (s.stage = .leaving ∨ s.stage = .gone ∧ s.backlog = []) ∧
      ∃ reason, taken ++ s.pending = evs ++ [.disconnected reason] := by
  cases h with
  | starting requests hs => simp [isOver, hs] at hover
  | live duties hs => simp [isOver, hs] at hover
  | finished reason hs hmost h => exact ⟨hs, reason, h⟩
  | lost reason hs habandoned => cases htaken.symm.trans habandoned

/-- What has been taken is a front of what was told, or all of it and the end. -/
lemma Feeds.front (h : s.Feeds frames evs taken) :
    taken <+: evs ∨ ∃ reason, taken = evs ++ [.disconnected reason] := by
  have hover {reason : EndReason} (h : taken <+: evs ++ [.disconnected reason]) :
      taken <+: evs ∨ ∃ reason, taken = evs ++ [.disconnected reason] := by
    rcases List.prefix_concat_iff.mp h with hall | hfront
    · exact .inr ⟨reason, hall⟩
    · exact .inl hfront
  cases h with
  | starting requests hs hframes hevs htaken => exact .inl (by rw [htaken]; exact List.nil_prefix)
  | live duties hs howes h => exact .inl ⟨s.pending, h⟩
  | finished reason hs hmost h => exact hover ⟨s.pending, h⟩
  | lost reason hs habandoned hmost h => exact hover ((List.prefix_append _ _).trans h)

lemma Feeds.written {notes : List Note} (h : s.Feeds frames evs taken)
    (hwritten : s.Written s' notes) : s'.Feeds frames evs taken := by
  have hchannel := hwritten.channel
  refine h.congr hwritten.stage ?_ hwritten.backlog ?_ <;> rw [hchannel]
  exact id

lemma Heard.channel {p : Progress} {now : Nat} {step : Step} (h : s.Heard p now step) :
    step.session.channel.capacity = s.channel.capacity ∧
      step.session.channel.isTaken = s.channel.isTaken := by
  cases h with
  | handedOut duty ev rest backlog channel hstage hduty hput => cases hput <;> exact ⟨rfl, rfl⟩
  | _ => exact ⟨rfl, rfl⟩

end Session

end Parley
