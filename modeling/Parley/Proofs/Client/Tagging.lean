import Parley.Proofs.Client.Handing
import Parley.Proofs.Client.Operating
import Parley.Proofs.Client.Stored
import Parley.Proofs.Sync.Windows

/-!
# Origins of frames

The windows that are open are kept twice: in the engine, and by whoever takes the events, who has
only these to go by. As long as sessions do not overlap, a frame is handed on with the windows that
the engine had open when the frame was read, and its origin says so. Main statement:
`Client.tagged_run`.
-/

namespace Parley

/-- The windows that are open in an engine are those that events have left open. -/
def Engine.Follows (e : Engine) (seen : List Event) : Prop :=
  ∀ scope, e.IsOpen scope ↔ OpenAfter seen scope

/-- What a duty has still to tell of the windows. -/
def Duty.owed : Duty → List Event
  | .announce ev => [ev]
  | .persist scope _ _ | .commit scope _ _ => [.syncEnd scope 0 false]
  | .send _ | .deliver _ => []

/-- Only frames of a kind are delivered, and no frame is announced. -/
def Duty.Brings (Read : Frame → Prop) : Duty → Prop
  | .deliver f => Read f
  | .announce (.message ..) => False
  | _ => True

/-- The windows of the engine are those of the events told and of those that the session has still
to tell, and the frames that it has still to hand on are of a kind. -/
inductive InStep (e : Engine) (told : List Event) (Read : Frame → Prop) : Stage → Prop
  | starting (requests : List Message) (h : e.Follows told) :
    InStep e told Read (.starting requests)
  | live (duties : List Duty) (h : e.Follows (told ++ duties.flatMap Duty.owed))
    (hduties : ∀ duty ∈ duties, duty.Brings Read) : InStep e told Read (.live duties)
  | leaving : InStep e told Read .leaving
  | gone : InStep e told Read .gone

/-- How the stage of a session goes on unless its reading side makes a step. -/
inductive Stage.Onward : Stage → Stage → Prop
  | same (stage : Stage) : Onward stage stage
  | starting (requests requests' : List Message) : Onward (.starting requests) (.starting requests')
  | ready : Onward (.starting []) (.live [])

/-- A frame is handed on with the windows of the engine at a moment, and its origin says whether
any of them was open. -/
structure Tagged (f : Frame) (origin : Origin) (windows : List Scope) (e : Engine) : Prop where
  isOpen : ∀ scope, scope ∈ windows ↔ e.window? scope = some .inProgress
  origin : origin = if f.isPush then .push else if windows = [] then .live else .catchup

section Follows
variable {e e' : Engine} {seen : List Event}

lemma Engine.Follows.congr (h : e.Follows seen)
    (hopen : ∀ scope, e'.IsOpen scope ↔ e.IsOpen scope) : e'.Follows seen :=
  fun scope => (hopen scope).trans (h scope)

lemma Engine.follows_of_closed (h : ∀ scope, ¬ e.IsOpen scope) : e.Follows [] :=
  fun scope => iff_of_false (h scope) (not_openAfter_nil scope)

lemma Engine.Follows.message (h : e.Follows seen) (f : Frame) (origin : Origin) :
    e.Follows (seen ++ [.message f origin]) := by
  intro scope
  rw [openAfter_concat, h scope]
  simp [Event.ends]

lemma Engine.Follows.opened (h : e.Follows seen) (scope : Scope) :
    (e.after (.opened scope)).Follows (seen ++ [.syncBegin scope]) := by
  intro other
  rw [isOpen_opened, openAfter_concat, h other]
  simp [Event.ends, eq_comm]

lemma Engine.follows_syncEnd {scope : Scope} {cursor : Int64} {caughtUp : Bool} :
    e.Follows (seen ++ [.syncEnd scope cursor caughtUp]) ↔
      ∀ other, e.IsOpen other ↔ other ≠ scope ∧ OpenAfter seen other := by
  refine forall_congr' fun other => ?_
  rw [openAfter_concat]
  simp [Event.ends, eq_comm, and_comm]

lemma Engine.Follows.closed (h : e.Follows seen) (scope : Scope) (key cursor : Int64)
    (caughtUp : Bool) :
    (e.after (.closed scope key)).Follows (seen ++ [.syncEnd scope cursor caughtUp]) := by
  rw [follows_syncEnd]
  intro other
  rw [isOpen_closed, h other]

lemma origin_of_follows {p : Progress} {b : Inbox} (h : p.engine.Follows seen)
    (hb : b.Follows seen) (f : Frame) :
    p.origin f = if f.isPush then .push else if b.windows = [] then .live else .catchup := by
  have hopen : p.engine.inProgress = true ↔ b.windows ≠ [] := by
    rw [Engine.inProgress_iff, Ne, List.eq_nil_iff_forall_not_mem, not_forall_not]
    exact exists_congr fun scope => (h scope).trans (hb scope).symm
  rw [Progress.origin]
  by_cases hwindows : b.windows = []
  · have hnone : ¬ p.engine.inProgress = true := fun hsome => hopen.mp hsome hwindows
    rw [if_neg hnone, if_pos hwindows]
  · rw [if_pos (hopen.mpr hwindows), if_neg hwindows]

lemma Inbox.follows_foldl (seen : List Event) : (seen.foldl Inbox.observe {}).Follows seen := by
  induction seen using List.reverseRecOn with
  | nil => exact follows_nil
  | append_singleton seen ev ih =>
    rw [List.foldl_append]
    exact ih.observe ev

end Follows

/-! ## Frames -/

section Dispatch
variable {p : Progress} {seen : List Event}

lemma owed_sends (messages : List Message) : (messages.map Duty.send).flatMap Duty.owed = [] := by
  simp [Duty.owed]

lemma brings_sends (Read : Frame → Prop) (messages : List Message) :
    ∀ duty ∈ messages.map Duty.send, duty.Brings Read := by
  intro duty hduty
  obtain ⟨m, -, rfl⟩ := List.mem_map.mp hduty
  trivial

lemma receiptDuty_eq (f : Frame) :
    ∃ messages : List Message, receiptDuty f = messages.map .send := by
  unfold receiptDuty
  split
  · exact ⟨[_], rfl⟩
  · exact ⟨[], rfl⟩

lemma inStep_dispatch (h : p.engine.Follows seen) (t : Tracker Nat) (raw : RawFrame) :
    InStep (dispatch p t raw).progress.engine seen (raw.decode = .ok ·)
      (.live (dispatch p t raw).duties) := by
  have hquiet (messages : List Message) {e : Engine}
      (hopen : ∀ scope, e.IsOpen scope ↔ p.engine.IsOpen scope) {Read : Frame → Prop} :
      InStep e seen Read (.live (messages.map .send)) := by
    refine .live _ ?_ (brings_sends Read messages)
    rw [owed_sends, List.append_nil]
    exact h.congr hopen
  have hhandOn {f : Frame} (hdecode : raw.decode = .ok f) :
      InStep p.engine seen (raw.decode = .ok ·) (.live (receiptDuty f ++ [.deliver f])) := by
    obtain ⟨messages, hmessages⟩ := receiptDuty_eq f
    rw [hmessages]
    refine .live _ ?_ ?_
    · rw [List.flatMap_append, owed_sends]
      simpa [Duty.owed] using h
    · intro duty hduty
      rcases List.mem_append.mp hduty with hduty | hduty
      · exact brings_sends _ messages duty hduty
      · rw [List.mem_singleton.mp hduty]
        exact hdecode
  have hsame : ∀ scope, p.engine.IsOpen scope ↔ p.engine.IsOpen scope := fun _ => Iff.rfl
  unfold dispatch
  cases hdecode : raw.decode with
  | error e => exact hquiet [] hsame
  | ok f =>
    rw [hdecode] at hhandOn
    obtain ⟨seq, version, flags, message⟩ := f
    cases message with
    | ack a => exact hquiet [] hsame
    | signal kind =>
      cases kind with
      | ping => exact hquiet [_] hsame
      | pong => exact hquiet [] hsame
      | heartbeat => exact hquiet [] hsame
      | reset => exact hhandOn rfl
    | sync verb point =>
      obtain ⟨scope, key⟩ := point
      cases verb with
      | opened =>
        change InStep _ seen _ (.live [.announce (.syncBegin scope)])
        exact .live _ (h.opened scope) (by simp [Duty.Brings])
      | ended =>
        have hclosed := h.closed scope key 0 false
        change InStep _ seen _ (.live (p.syncClosed scope key).2)
        simp only [Progress.syncClosed]
        split
        · exact .live _ hclosed (by simp [Duty.Brings])
        · exact .live _ hclosed (by simp [Duty.Brings])
      | notify =>
        exact hquiet (p.engine.handleNotify scope key).2.toList
          fun other => Engine.isOpen_notify key
      | request => exact hhandOn rfl
      | confirm => exact hhandOn rfl
    | _ => exact hhandOn rfl

lemma inStep_syncEnd {scope : Scope} (h : p.engine.Follows (seen ++ [.syncEnd scope 0 false]))
    (key : Int64) (persisted : Bool) (Read : Frame → Prop) :
    InStep (p.syncEnd scope key persisted).1.engine seen Read
      (.live (p.syncEnd scope key persisted).2) := by
  have hother := Engine.follows_syncEnd.mp h
  have hclosed : ¬ p.engine.IsOpen scope := fun hopen => ((hother scope).mp hopen).1 rfl
  have hduties : ∃ (messages : List Message) (cursor : Int64) (caughtUp : Bool),
      (p.syncEnd scope key persisted).2 =
        messages.map .send ++ [.announce (.syncEnd scope cursor caughtUp)] :=
    ⟨(p.engine.commitEnd scope key persisted).2.ack.toList ++
      (p.engine.commitEnd scope key persisted).2.followUp.toList, _, _, by
        rw [List.map_append]; rfl⟩
  obtain ⟨messages, cursor, caughtUp, heq⟩ := hduties
  rw [heq]
  refine .live _ ?_ ?_
  · rw [List.flatMap_append, owed_sends, List.nil_append]
    refine Engine.follows_syncEnd.mpr fun other => ?_
    exact (Engine.isOpen_commit hclosed key persisted).trans (hother other)
  · intro duty hduty
    rcases List.mem_append.mp hduty with hduty | hduty
    · exact brings_sends Read messages duty hduty
    · rw [List.mem_singleton.mp hduty]
      trivial

end Dispatch

/-! ## Sessions -/

namespace InStep
variable {e e' : Engine} {told : List Event} {Read Read' : Frame → Prop} {stage : Stage}

lemma congr (h : InStep e told Read stage) (hopen : ∀ scope, e'.IsOpen scope ↔ e.IsOpen scope)
    (hread : ∀ f, Read f → Read' f) : InStep e' told Read' stage := by
  cases h with
  | starting requests h => exact .starting requests (h.congr hopen)
  | live duties h hduties =>
    refine .live duties (h.congr hopen) fun duty hduty => ?_
    have hbrings := hduties duty hduty
    cases duty with
    | deliver f => exact hread f hbrings
    | announce ev => cases ev <;> exact hbrings
    | _ => trivial
  | leaving => exact .leaving
  | gone => exact .gone

lemma of_live {duties : List Duty} (h : InStep e told Read (.live duties)) :
    e.Follows (told ++ duties.flatMap Duty.owed) ∧ ∀ duty ∈ duties, duty.Brings Read := by
  cases h with
  | live duties h hduties => exact ⟨h, hduties⟩

lemma of_starting {requests : List Message} (h : InStep e told Read (.starting requests)) :
    e.Follows told := by
  cases h with
  | starting requests h => exact h

lemma of_not_runs {s : Session} (h : ¬ s.runs = true) : InStep e told Read s.stage := by
  rw [Session.runs] at h
  cases hstage : s.stage with
  | starting requests => exact absurd (by rw [hstage]) h
  | live duties => exact absurd (by rw [hstage]) h
  | leaving => exact .leaving
  | gone => exact .gone

lemma onward {s s' : Session} (h : InStep e told Read s.stage) (hstage : s.stage.Onward s'.stage)
    (hopen : s.runs = true → s'.runs = true → ∀ scope, e'.IsOpen scope ↔ e.IsOpen scope)
    (hread : ∀ f, Read f → Read' f) : InStep e' told Read' s'.stage := by
  by_cases hruns' : s'.runs = true
  · have hruns : s.runs = true := by
      rw [Session.runs] at hruns' ⊢
      generalize s.stage = old at hstage
      generalize s'.stage = new at hstage hruns'
      cases hstage with
      | same => exact hruns'
      | starting => rfl
      | ready => rfl
    have hkept := h.congr (hopen hruns hruns') hread
    generalize s.stage = old at hstage hkept
    generalize s'.stage = new at hstage
    cases hstage with
    | same => exact hkept
    | starting requests requests' => exact .starting requests' hkept.of_starting
    | ready =>
      refine .live [] ?_ (by simp)
      rw [List.flatMap_nil, List.append_nil]
      exact hkept.of_starting
  · exact .of_not_runs hruns'

lemma of_idle (h : InStep e told Read (.live [])) : e.Follows told := by
  obtain ⟨h, -⟩ := h.of_live
  rwa [List.flatMap_nil, List.append_nil] at h

end InStep

namespace Session
variable {s : Session} {p : Progress} {now : Nat} {frames : List RawFrame} {told : List Event}
  {Read Read' : Frame → Prop}

lemma inStep_handedOut {duty : Duty} {rest : List Duty} {ev : Event}
    (h : InStep p.engine told Read (.live (duty :: rest))) (howes : Owes frames told (duty :: rest))
    (hduty : eventOf? p duty = some ev) :
    rest = [] ∧ p.engine.Follows (told ++ [ev]) ∧
      ∀ f origin, ev = .message f origin →
        Read f ∧ p.engine.Follows told ∧ origin = p.origin f := by
  obtain ⟨hfollows, hduties⟩ := h.of_live
  have hbrings := hduties duty List.mem_cons_self
  have hlast : rest = [] := by
    rcases howes.cons with ⟨⟨m, rfl⟩, -⟩ | ⟨hrest, -⟩
    · cases hduty
    · exact hrest
  subst hlast
  refine ⟨rfl, ?_⟩
  cases duty with
  | deliver f =>
    obtain rfl := Option.some.inj hduty
    have hsame : p.engine.Follows told := by simpa [Duty.owed] using hfollows
    refine ⟨hsame.message f _, ?_⟩
    rintro g origin ⟨⟩
    exact ⟨hbrings, hsame, rfl⟩
  | announce ev' =>
    obtain rfl := Option.some.inj hduty
    refine ⟨by simpa [Duty.owed] using hfollows, ?_⟩
    rintro g origin rfl
    exact absurd hbrings id
  | _ => cases hduty

lemma duty_of_emits? {step : Step} {ev : Event} (h : s.emits? p step = some ev) :
    ∃ duty rest, s.stage = .live (duty :: rest) ∧ eventOf? p duty = some ev := by
  unfold emits? at h
  split at h
  · rename_i duty rest hstage
    refine ⟨duty, rest, hstage, ?_⟩
    split at h
    · cases h
    · exact h
  · cases h

/-- A step of the reading side keeps the session in step with the engine. -/
theorem Heard.inStep {step : Step} (hheard : s.Heard p now step)
    (h : InStep p.engine told Read s.stage)
    (howes : ∀ duties, s.stage = .live duties → Owes frames told duties)
    (hkeep : s.reads? step = none → s.emits? p step = none → ∀ f, Read f → Read' f)
    (hread : ∀ raw f, s.reads? step = some raw → s.stage = .live [] → p.engine.Follows told →
      raw.decode = .ok f → Read' f) :
    InStep step.progress.engine (told ++ (s.emits? p step).toList) Read' step.session.stage := by
  -- a step that reads no frame and tells no event
  have hquiet (hreads : s.reads? step = none) (hemits : s.emits? p step = none)
      (h : InStep step.progress.engine told Read step.session.stage) :
      InStep step.progress.engine (told ++ (s.emits? p step).toList) Read' step.session.stage := by
    rw [hemits, Option.toList_none, List.append_nil]
    exact h.congr (fun _ => Iff.rfl) (hkeep hreads hemits)
  have hsilent {duty : Duty} {rest : List Duty} {step : Step}
      (hstage : s.stage = .live (duty :: rest)) (hduty : eventOf? p duty = none) :
      s.emits? p step = none :=
    emits?_of_stage fun duty' rest' hstage' => by
      cases hstage.symm.trans hstage'
      exact hduty
  have hidle {step : Step} (hstage : s.stage = .live []) : s.emits? p step = none :=
    emits?_of_stage fun duty rest hstage' => by cases hstage.symm.trans hstage'
  cases hheard with
  | sent m rest outbox hstage hoffer =>
    rw [hstage] at h
    obtain ⟨hfollows, hduties⟩ := h.of_live
    refine hquiet (reads?_of_link rfl) (hsilent hstage rfl) (.live rest hfollows ?_)
    exact fun duty hduty => hduties duty (List.mem_cons_of_mem _ hduty)
  | lined m rest outbox hstage hoffer =>
    exact hquiet (reads?_of_link rfl) (hsilent hstage rfl) h
  | persisted scope key cursors rest hstage =>
    rw [hstage] at h
    obtain ⟨hfollows, hduties⟩ := h.of_live
    refine hquiet (reads?_of_link rfl) (hsilent hstage rfl) (.live _ hfollows fun duty hduty => ?_)
    rcases List.mem_cons.mp hduty with rfl | hduty
    · trivial
    · exact hduties duty (List.mem_cons_of_mem _ hduty)
  | committed scope key persisted rest hstage =>
    obtain rfl : rest = [] := by
      rcases (howes _ hstage).cons with ⟨⟨m, hm⟩, -⟩ | ⟨hrest, -⟩
      · cases hm
      · exact hrest
    rw [hstage] at h
    obtain ⟨hfollows, -⟩ := h.of_live
    refine hquiet (reads?_of_link rfl) (hsilent hstage rfl) ?_
    have hended := inStep_syncEnd hfollows key persisted Read
    rwa [← List.append_nil (p.syncEnd scope key persisted).2] at hended
  | handedOut duty ev rest backlog channel hstage hduty hput =>
    rw [hstage] at h
    obtain ⟨rfl, hfollows, -⟩ := inStep_handedOut h (howes _ hstage) hduty
    have hemits : ∀ step : Step, step.ended = false → s.emits? p step = some ev := by
      intro step hended
      simp only [emits?, hstage, hended, Bool.false_eq_true, if_false, hduty]
    rw [hemits _ rfl]
    refine .live [] ?_ (by simp)
    rwa [List.flatMap_nil, List.append_nil]
  | dispatched raw link hstage hnext =>
    rw [hstage] at h
    have hfollows := h.of_idle
    rw [hidle hstage, Option.toList_none, List.append_nil]
    exact (inStep_dispatch hfollows s.tracker raw).congr (fun _ => Iff.rfl)
      fun f hdecode => hread raw f (reads?_of_nextRaw hnext rfl) hstage hfollows hdecode
  | pinged hstage hdue =>
    rw [hstage] at h
    refine hquiet (reads?_of_link rfl) (hidle hstage) (.live _ ?_ (brings_sends Read [_]))
    change p.engine.Follows (told ++ [])
    rw [List.append_nil]
    exact h.of_idle
  | refilled ev backlog hstage hbacklog hroom =>
    refine hquiet (reads?_of_link rfl) ?_ h
    rcases hstage with hstage | hstage
    · exact hidle hstage
    · exact emits?_of_stage fun duty rest hlive => by cases hstage.symm.trans hlive
  | left hstage hempty =>
    exact hquiet (reads?_of_link rfl)
      (emits?_of_stage fun duty rest hlive => by cases hstage.symm.trans hlive) .gone
  | finished duties link reason hstage hduty hends =>
    exact hquiet (hends.reads? rfl) (emits?_of_ended rfl) .leaving

end Session

/-! ## Runs of a client -/

def Holder.inbox? : Holder → Option Inbox
  | .free b | .waiting _ b _ => some b
  | .closing _ | .gone => none

namespace Client
variable {c : Client} {i : Nat} {t : Turn} {ts : List Turn}

/-- A run has read a frame off the link of a connection behind those that tell these events, with
this engine. -/
def HasRead (c : Client) (i : Nat) (ts : List Turn) (seen : List Event) (e : Engine) (f : Frame) :
    Prop :=
  ∃ front t after s step raw, ts = front ++ t :: after ∧
    (c.playAll front).hears? i t = some (s, step) ∧ s.reads? step = some raw ∧
    raw.decode = .ok f ∧ Tells (Feed.ofTurns i c front).frames seen ∧
    e = (c.playAll front).progress.engine

lemma HasRead.concat {seen : List Event} {e : Engine} {f : Frame} (h : c.HasRead i ts seen e f)
    (t : Turn) : c.HasRead i (ts ++ [t]) seen e f := by
  obtain ⟨front, u, after, s, step, raw, rfl, hhears, hreads, hdecode, htells, he⟩ := h
  exact ⟨front, u, after ++ [t], s, step, raw, by simp, hhears, hreads, hdecode, htells, he⟩

/-- A frame that has been read with the windows of the events told. -/
def ReadInStep (c : Client) (i : Nat) (ts : List Turn) (seen : List Event) (f : Frame) : Prop :=
  ∃ e, c.HasRead i ts seen e f ∧ e.Follows seen

lemma isOpen_play {s s' : Session} {holder holder' : Holder} (hapart : c.Apart)
    (hapart' : (c.play t).Apart) (hphase : c.phase? i = some (.established s holder))
    (hruns : s.runs = true) (hphase' : (c.play t).phase? i = some (.established s' holder'))
    (hruns' : s'.runs = true) (hhears : c.hears? i t = none) (scope : Scope) :
    (c.play t).progress.engine.IsOpen scope ↔ c.progress.engine.IsOpen scope := by
  -- no other session runs, before or after
  have hother {c : Client} {s₁ s₂ : Session} {holder₁ holder₂ : Holder} {j : Nat}
      (hapart : c.Apart) (h₁ : c.phase? i = some (.established s₁ holder₁))
      (h₂ : c.phase? j = some (.established s₂ holder₂)) (hruns₁ : s₁.runs = true)
      (hruns₂ : s₂.runs = true) : i = j :=
    hapart i j s₁ s₂ (by rw [h₁]; rfl) (by rw [h₂]; rfl) hruns₁ hruns₂
  obtain ⟨m, n⟩ := t
  by_cases hown : m.isOwn = true
  · rw [engine_play, ops_of_isOwn hown]
    rfl
  cases m with
  | act a =>
    cases a with
    | connecting j =>
      rw [engine_play, ops]
      simp only
      split
      · rename_i link hgreeting
        obtain ⟨hbegan, -⟩ := play_began hgreeting n
        obtain rfl := hother hapart' hphase' hbegan hruns' rfl
        cases hphase.symm.trans hgreeting
      · rfl
    | reading j =>
      cases hstep : c.hears? j ⟨.act (.reading j), n⟩ with
      | none => rw [play_of_hears?_none rfl hstep]
      | some heard =>
        obtain ⟨s₂, step⟩ := heard
        obtain ⟨holder₂, -, hphase₂, hchoice, -⟩ := hears?_eq_some hstep
        have hduties : s₂.duties? = none := by
          refine Option.eq_none_iff_forall_not_mem.mpr fun duties hduties => ?_
          obtain ⟨-, hruns₂⟩ := Session.runs_of_duties? hduties
          obtain rfl := hother hapart hphase hphase₂ hruns hruns₂
          cases hhears.symm.trans hstep
        obtain ⟨hprogress, -⟩ :=
          (Session.heard_of_mem_choices hchoice).of_duties?_eq_none hduties
        rw [progress_of_hears? hstep, hprogress]
    | _ => exact absurd rfl hown
  | connect id => rw [engine_play]; rfl
  | connectTcp id => rw [engine_play]; rfl
  | trackGroup j id g =>
    rw [engine_play, ops]
    simp only
    split
    · exact Engine.isOpen_track g
    · rfl
  | _ => exact absurd rfl hown

lemma PhaseMoved.stage {m : Move} {taken : Option Event} {old new : Option Phase}
    (h : c.PhaseMoved i m taken old new) (hm : m ≠ .act (.reading i)) {s' : Session}
    {holder' : Holder} (hnew : new = some (.established s' holder')) :
    (∃ link, m = .act (.connecting i) ∧ old = some (.greeting (.done (.ok ())) link)) ∨
      ∃ s holder, old = some (.established s holder) ∧ s.stage.Onward s'.stage := by
  have hsame {s s₁ : Session} (h : s₁.stage = s.stage) : s.stage.Onward s₁.stage := by
    rw [h]
    exact .same _
  have htook {s s₁ : Session} {ev : Event} (h : s.takeEvent? = some (ev, s₁)) :
      s.stage.Onward s₁.stage := by
    obtain ⟨items, -, rfl⟩ := Session.takeEvent?_cases h
    exact .same _
  cases h with
  | same => exact .inr ⟨s', holder', hnew, .same _⟩
  | joined _ phase hjoins hphase =>
    rcases hphase with rfl | ⟨token, rfl⟩ <;> cases hnew
  | befell => cases hnew
  | greeted => cases hnew
  | rejected => cases hnew
  | failed => cases hnew
  | began link => exact .inl ⟨link, rfl, rfl⟩
  | ready s s₁ holder hready =>
    cases hnew
    obtain ⟨hstage, rfl⟩ := Session.startup_ready hready
    refine .inr ⟨s, _, rfl, ?_⟩
    rw [hstage]
    exact .ready
  | going s s₁ holder hgoing =>
    cases hnew
    obtain ⟨m, requests, outbox, hstage, ⟨-, rfl⟩ | ⟨-, rfl⟩⟩ := Session.startup_going hgoing
    · refine .inr ⟨s, _, rfl, ?_⟩
      rw [hstage]
      exact .starting _ _
    · exact .inr ⟨s, _, rfl, .same _⟩
  | wrote s s₁ holder notes hwrite =>
    cases hnew
    exact .inr ⟨s, _, rfl, hsame (Session.written_of_write? hwrite).stage⟩
  | read => exact absurd rfl hm
  | took s s₁ b ev hstash htake =>
    cases hnew
    exact .inr ⟨s, _, rfl, htook htake⟩
  | passed id s s₁ b b' w w' ev htake =>
    cases hnew
    exact .inr ⟨s, _, rfl, htook htake⟩
  | found id s s₁ b b' w ev result tried htake =>
    cases hnew
    exact .inr ⟨s, _, rfl, htook htake⟩
  | _ =>
    cases hnew
    exact .inr ⟨_, _, rfl, .same _⟩

lemma told_concat (i : Nat) (c : Client) (ts : List Turn) (t : Turn) :
    (Feed.ofTurns i c (ts ++ [t])).told = (Feed.ofTurns i c ts).told ++
      (((c.playAll ts).hears? i t).bind fun heard =>
        heard.1.emits? (c.playAll ts).progress heard.2).toList := by
  rw [Feed.ofTurns_concat, Feed.note, Feed.client_ofTurns]

lemma owes_run (hnew : c.phase? i = none) {s : Session} {holder : Holder}
    (hphase : (c.playAll ts).phase? i = some (.established s holder)) {duties : List Duty}
    (hstage : s.stage = .live duties) :
    Owes (Feed.ofTurns i c ts).frames (Feed.ofTurns i c ts).told duties := by
  have hagrees := Feed.agrees_ofTurns hnew ts
  rw [Feed.client_ofTurns, hphase] at hagrees
  exact (hagrees.feeds.1.of_live hstage).1

lemma told_of_greeting (hnew : c.phase? i = none) {g : Handshake} {link : Link}
    (hphase : (c.playAll ts).phase? i = some (.greeting g link)) :
    (Feed.ofTurns i c ts).told = [] := by
  have hagrees := Feed.agrees_ofTurns hnew ts
  rw [Feed.client_ofTurns, hphase] at hagrees
  cases hagrees with
  | before phase hphase' hframes htold htaken => exact htold

lemma inStep_hears (hnew : c.phase? i = none) {s : Session} {step : Session.Step}
    (hhears : (c.playAll ts).hears? i t = some (s, step))
    (h : InStep (c.playAll ts).progress.engine (Feed.ofTurns i c ts).told
      (c.ReadInStep i ts (Feed.ofTurns i c ts).told) s.stage) :
    InStep step.progress.engine (Feed.ofTurns i c (ts ++ [t])).told
      (c.ReadInStep i (ts ++ [t]) (Feed.ofTurns i c (ts ++ [t])).told) step.session.stage := by
  obtain ⟨holder, -, hphase, hchoice, -⟩ := hears?_eq_some hhears
  have htold : (Feed.ofTurns i c (ts ++ [t])).told = (Feed.ofTurns i c ts).told ++
      (s.emits? (c.playAll ts).progress step).toList := by
    rw [told_concat, hhears, Option.bind_some]
  rw [htold]
  refine (Session.heard_of_mem_choices hchoice).inStep h
    (fun duties hstage => owes_run hnew hphase hstage) ?_ ?_
  · rintro - hemits f ⟨e, hread, hfollows⟩
    rw [hemits, Option.toList_none, List.append_nil]
    exact ⟨e, hread.concat t, hfollows⟩
  · intro raw f hreads hstage hfollows hdecode
    have hemits : s.emits? (c.playAll ts).progress step = none := by
      simp only [Session.emits?, hstage]
    rw [hemits, Option.toList_none, List.append_nil]
    exact ⟨_, ⟨ts, t, [], s, step, raw, rfl, hhears, hreads, hdecode,
      (owes_run hnew hphase hstage).of_nil, rfl⟩, hfollows⟩

/-- A session that runs is in step with the engine as long as sessions do not overlap. -/
lemma inStep_run (hnew : c.phase? i = none) (ts : List Turn)
    (hapart : ∀ front, front <+: ts → (c.playAll front).Apart) {s : Session} {holder : Holder}
    (hphase : (c.playAll ts).phase? i = some (.established s holder)) :
    InStep (c.playAll ts).progress.engine (Feed.ofTurns i c ts).told
      (c.ReadInStep i ts (Feed.ofTurns i c ts).told) s.stage := by
  induction ts using List.reverseRecOn generalizing s holder with
  | nil => cases hnew.symm.trans hphase
  | append_singleton ts t ih =>
    have hbefore := hapart ts (List.prefix_append _ _)
    have hafter := hapart (ts ++ [t]) (List.prefix_refl _)
    have hinStep {s : Session} {holder : Holder}
        (hphase : (c.playAll ts).phase? i = some (.established s holder)) :=
      ih (fun front hfront => hapart front (hfront.trans (List.prefix_append _ _))) hphase
    rw [playAll_concat] at hphase hafter ⊢
    cases hhears : (c.playAll ts).hears? i t with
    | some heard =>
      obtain ⟨s₁, step⟩ := heard
      obtain ⟨holder₁, -, hphase₁, -, hstep⟩ := hears?_eq_some hhears
      obtain ⟨rfl, rfl⟩ : step.session = s ∧ holder₁ = holder := by
        simpa using hstep.symm.trans hphase
      rw [progress_of_hears? hhears]
      exact inStep_hears hnew hhears (hinStep hphase₁)
    | none =>
      have htold : (Feed.ofTurns i c (ts ++ [t])).told = (Feed.ofTurns i c ts).told := by
        rw [told_concat, hhears, Option.bind_none, Option.toList_none, List.append_nil]
      rw [htold]
      have hread : ∀ f, c.ReadInStep i ts (Feed.ofTurns i c ts).told f →
          c.ReadInStep i (ts ++ [t]) (Feed.ofTurns i c ts).told f := by
        rintro f ⟨e, hread, hfollows⟩
        exact ⟨e, hread.concat t, hfollows⟩
      by_cases hmove : t.move = .act (.reading i)
      · rw [play_of_hears?_none hmove hhears] at hphase ⊢
        exact (hinStep hphase).congr (fun _ => Iff.rfl) hread
      have hmoved := (c.playAll ts).phaseMoved_play t i
      rw [hphase] at hmoved
      rcases hmoved.stage hmove rfl with
        ⟨link, hconnecting, hgreeting⟩ | ⟨s₁, holder₁, hphase₁, hstage⟩
      · -- the session begins in this turn
        obtain ⟨m, n⟩ := t
        obtain rfl : m = .act (.connecting i) := hconnecting
        obtain ⟨hbegan, hengine⟩ := play_began hgreeting n
        obtain ⟨rfl, -⟩ : Session.start _ link _ _ _ = s ∧ _ := by
          simpa using hbegan.symm.trans hphase
        rw [hengine, told_of_greeting hnew hgreeting]
        exact .starting _ (Engine.follows_of_closed fun scope => Engine.not_isOpen_of_ready)
      · exact (hinStep hphase₁).onward hstage (fun hruns hruns' =>
          isOpen_play hbefore hafter hphase₁ hruns hphase hruns' hhears) hread

lemma tagged_of_told (hnew : c.phase? i = none) (ts : List Turn)
    (hapart : ∀ front, front <+: ts → (c.playAll front).Apart) {seen after : List Event} {f : Frame}
    {origin : Origin} (htold : (Feed.ofTurns i c ts).told = seen ++ .message f origin :: after) :
    ∃ e, c.HasRead i ts seen e f ∧ ∀ b : Inbox, b.Follows seen → Tagged f origin b.windows e := by
  induction ts using List.reverseRecOn generalizing after with
  | nil => simp [Feed.ofTurns] at htold
  | append_singleton ts t ih =>
    have hapart' : ∀ front, front <+: ts → (c.playAll front).Apart :=
      fun front hfront => hapart front (hfront.trans (List.prefix_append _ _))
    rw [told_concat] at htold
    cases hemits : ((c.playAll ts).hears? i t).bind fun heard =>
        heard.1.emits? (c.playAll ts).progress heard.2 with
    | none =>
      rw [hemits, Option.toList_none, List.append_nil] at htold
      obtain ⟨e, hread, htagged⟩ := ih hapart' htold
      exact ⟨e, hread.concat t, htagged⟩
    | some ev =>
      rw [hemits, Option.toList_some] at htold
      rcases List.eq_nil_or_concat after with rfl | ⟨after, last, rfl⟩
      · -- the frame is told in this turn
        obtain ⟨hseen, hev⟩ := List.append_inj' htold rfl
        obtain rfl := (List.cons.inj hev).1
        obtain ⟨⟨s, step⟩, hhears, hemits⟩ := Option.bind_eq_some_iff.mp hemits
        obtain ⟨holder, -, hphase, -, -⟩ := hears?_eq_some hhears
        have hinStep := inStep_run hnew ts hapart' hphase
        obtain ⟨duty, rest, hstage, hduty⟩ := Session.duty_of_emits? hemits
        rw [hstage] at hinStep
        obtain ⟨-, -, hmessage⟩ :=
          Session.inStep_handedOut hinStep (owes_run hnew hphase hstage) hduty
        obtain ⟨⟨e, hread, hfollows⟩, hnow, rfl⟩ := hmessage f origin rfl
        rw [hseen] at hread hfollows hnow
        exact ⟨e, hread.concat t, fun b hb =>
          ⟨fun scope => (hb scope).trans (hfollows scope).symm, origin_of_follows hnow hb f⟩⟩
      · rw [List.concat_eq_append, ← List.cons_append, ← List.append_assoc] at htold
        obtain ⟨e, hread, htagged⟩ := ih hapart' (List.append_inj' htold rfl).1
        exact ⟨e, hread.concat t, htagged⟩

lemma of_taken? {m : Move} {ev : Event} (h : c.taken? i m = some ev) :
    ∃ s s' holder b, c.phase? i = some (.established s holder) ∧ holder.inbox? = some b ∧
      s.takeEvent? = some (ev, s') := by
  cases m with
  | recv j =>
    simp only [taken?] at h
    cases hinbox : c.inbox? j with
    | none => simp [hinbox] at h
    | some found =>
      obtain ⟨s, b⟩ := found
      simp only [hinbox, Option.ite_none_right_eq_some, Option.map_eq_some_iff] at h
      obtain ⟨⟨rfl, -⟩, ⟨ev', s'⟩, htake, rfl⟩ := h
      exact ⟨s, s', _, b, inbox?_eq_some hinbox, rfl, htake⟩
  | act a =>
    cases a with
    | holding j =>
      simp only [taken?] at h
      split at h
      · rename_i s id b w hphase
        simp only [Option.ite_none_right_eq_some, Option.map_eq_some_iff] at h
        obtain ⟨rfl, ⟨ev', s'⟩, htake, rfl⟩ := h
        exact ⟨s, s', _, b, hphase, rfl, htake⟩
      · cases h
    | _ => cases h
  | _ => cases h

lemma follows_of_inbox? (hnew : c.phase? i = none) {s : Session} {holder : Holder} {b : Inbox}
    (hphase : (c.playAll ts).phase? i = some (.established s holder))
    (hb : holder.inbox? = some b) : b.Follows (takenBy i c ts) := by
  have hfollows := follows_run hnew ts
  rw [hphase] at hfollows
  have hheld : c.HeldFollows i ts holder := hfollows
  cases holder with
  | free b' =>
    obtain rfl := Option.some.inj hb
    exact hheld
  | waiting id b' w =>
    obtain rfl := Option.some.inj hb
    exact hheld.1
  | closing id => cases hb
  | gone => cases hb

lemma told_of_takeEvent? (hnew : c.phase? i = none) {s s' : Session} {holder : Holder} {f : Frame}
    {origin : Origin} (hphase : (c.playAll ts).phase? i = some (.established s holder))
    (htake : s.takeEvent? = some (.message f origin, s')) :
    ∃ after, (Feed.ofTurns i c ts).told = takenBy i c ts ++ .message f origin :: after := by
  have hagrees := Feed.agrees_ofTurns hnew ts
  rw [Feed.client_ofTurns, hphase] at hagrees
  have hfeeds := hagrees.feeds.1.take htake
  rw [taken_ofTurns] at hfeeds
  rcases hfeeds.front with ⟨after, hafter⟩ | ⟨reason, hall⟩
  · exact ⟨after, by rw [← hafter, List.append_assoc]; rfl⟩
  · cases (List.append_inj' hall rfl).2

/-- Origins agree on both sides. In a run in which sessions do not overlap, every frame that is told
comes with the windows that the events before it have left open, and these are the windows that the
engine had in progress when the frame was read; its origin is a push if its flag says so, and else a
catch-up if there are such windows. The inbox of whoever takes it lists the same windows. -/
theorem tagged_run (hnew : c.phase? i = none) (ts : List Turn)
    (hapart : ∀ front, front <+: ts → (c.playAll front).Apart) :
    (∀ seen f origin after,
      (Feed.ofTurns i c ts).told = seen ++ .message f origin :: after →
        ∃ e, c.HasRead i ts seen e f ∧
          Tagged f origin (seen.foldl Inbox.observe {}).windows e) ∧
    ∀ m f origin, (c.playAll ts).taken? i m = some (.message f origin) →
      ∃ s holder b e, (c.playAll ts).phase? i = some (.established s holder) ∧
        holder.inbox? = some b ∧ c.HasRead i ts (takenBy i c ts) e f ∧
        Tagged f origin b.windows e := by
  refine ⟨fun seen f origin after htold => ?_, fun m f origin htaken => ?_⟩
  · obtain ⟨e, hread, htagged⟩ := tagged_of_told hnew ts hapart htold
    exact ⟨e, hread, htagged _ (Inbox.follows_foldl seen)⟩
  · obtain ⟨s, s', holder, b, hphase, hb, htake⟩ := of_taken? htaken
    obtain ⟨after, htold⟩ := told_of_takeEvent? hnew hphase htake
    obtain ⟨e, hread, htagged⟩ := tagged_of_told hnew ts hapart htold
    exact ⟨s, holder, b, e, hphase, hb, hread, htagged b (follows_of_inbox? hnew hphase hb)⟩

theorem tagged_run_overlapping :
    least.phase? 0 = none ∧
      (∀ front, front <+: overlapping → (least.playAll front).Apart) ∧
      (Feed.ofTurns 0 least overlapping).told =
        [.syncBegin .direct, .message (bare 3) .catchup, .syncBegin (.group 7)] ++
          .message (bare 5) .catchup :: [.syncEnd .direct 0 false] ∧
      ∃ e, least.HasRead 0 overlapping
          [.syncBegin .direct, .message (bare 3) .catchup, .syncBegin (.group 7)] e (bare 5) ∧
        Tagged (bare 5) .catchup [.group 7, .direct] e := by
  have hlengths : ∀ front ∈ overlapping.inits,
      (least.playAll front).connections.length ≤ 1 := by decide +kernel
  have hapart : ∀ front, front <+: overlapping → (least.playAll front).Apart :=
    fun front hfront => apart_of_length (hlengths front ((List.mem_inits _ _).mpr hfront))
  have htold : (Feed.ofTurns 0 least overlapping).told =
      [.syncBegin .direct, .message (bare 3) .catchup, .syncBegin (.group 7)] ++
        .message (bare 5) .catchup :: [.syncEnd .direct 0 false] := by
    decide +kernel
  exact ⟨rfl, hapart, htold, (tagged_run rfl overlapping hapart).1 _ _ _ _ htold⟩

end Client

end Parley
