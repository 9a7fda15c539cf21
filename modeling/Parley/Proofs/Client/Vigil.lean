import Parley.Proofs.Client.Asking
import Parley.Proofs.Client.Mirroring
import Parley.Proofs.Session.Dialogue
import Parley.Proofs.Session.Pinging

/-!
# The keepalive of a connection

A `Vigil` is a run of a client that notes what becomes of the keepalive of one connection: when it
was started, which is when the connection became ready, and what the reading side has told it since
then. The session has the keepalive that the course of these calls leads to (`Vigil.Keeps.note`), so
that all that holds of a course holds of it.
-/

namespace Parley

namespace Session
variable {s : Session} {p : Progress} {now : Nat} {step : Step}

/-- What a step of the reading side tells the keepalive: that a frame has arrived, or that the
deadline has passed. -/
def tells? (s : Session) (step : Step) : Option Keepalive.Op :=
  if (s.reads? step).isSome then some .frame
  else if s.keepalive.pingsSent < step.session.keepalive.pingsSent then some .idle
  else none

/-- What a step of the reading side does with the keepalive. -/
inductive Attends (s : Session) (now : Nat) (step : Step) : Prop
  | frame (raw : RawFrame) (hreads : s.reads? step = some raw)
    (htells : s.tells? step = some .frame)
    (hkeepalive : step.session.keepalive = s.keepalive.onFrame now)
  | idle (hstage : s.stage = .live []) (hlate : s.keepalive.deadline ≤ now)
    (hreads : s.reads? step = none) (htells : s.tells? step = some .idle)
    (hkeepalive : step.session.keepalive = (s.keepalive.onIdle now).1)
  | apart (hreads : s.reads? step = none) (htells : s.tells? step = none)
    (hkeepalive : step.session.keepalive = s.keepalive)

lemma tells?_of_reads? {raw : RawFrame} (h : s.reads? step = some raw) :
    s.tells? step = some .frame := by
  rw [tells?, h]
  rfl

lemma tells?_of_pingsSent (hreads : s.reads? step = none)
    (h : s.keepalive.pingsSent < step.session.keepalive.pingsSent) :
    s.tells? step = some .idle := by
  rw [tells?, hreads, if_neg (by simp), if_pos h]

lemma tells?_of_keepalive (hreads : s.reads? step = none)
    (hkeepalive : step.session.keepalive = s.keepalive) : s.tells? step = none := by
  simp [tells?, hreads, hkeepalive]

lemma attends_apart (hreads : s.reads? step = none)
    (hkeepalive : step.session.keepalive = s.keepalive) : s.Attends now step :=
  .apart hreads (tells?_of_keepalive hreads hkeepalive) hkeepalive

lemma Heard.attends (h : s.Heard p now step) : s.Attends now step := by
  cases h with
  | dispatched raw link hstage hnext =>
    exact .frame raw (reads?_of_nextRaw hnext rfl)
      (tells?_of_reads? (reads?_of_nextRaw hnext rfl)) rfl
  | pinged hstage hdue =>
    exact .idle hstage (Keepalive.deadline_le_of_onIdle hdue) (reads?_of_link rfl)
      (tells?_of_pingsSent (reads?_of_link rfl) (Dialogue.pingsSent_lt hdue)) rfl
  | finished duties link reason hstage hduty hends => exact attends_apart (hends.reads? rfl) rfl
  | _ => exact attends_apart (reads?_of_link rfl) rfl

lemma Heard.keepalive (h : s.Heard p now step) :
    step.session.keepalive =
      (s.tells? step).elim s.keepalive fun op => (s.keepalive.act now op).1 := by
  cases h.attends with
  | frame raw hreads htells hkeepalive =>
    rw [htells, hkeepalive]
    rfl
  | idle hstage hlate hreads htells hkeepalive =>
    rw [htells, hkeepalive]
    rfl
  | apart hreads htells hkeepalive =>
    rw [htells, hkeepalive]
    rfl

lemma standing_eq_welcome_iff :
    s.standing = .welcome ↔ ∃ requests, s.stage = .starting requests := by
  rw [standing]
  cases s.stage <;> simp

lemma Heard.standing_ne_welcome (h : s.Heard p now step) :
    s.standing ≠ .welcome ∧ step.session.standing ≠ .welcome := by
  have hbefore : s.standing ≠ .welcome := by
    rw [Ne, standing_eq_welcome_iff]
    rintro ⟨requests, hstage⟩
    exact h.stage_ne_starting requests hstage
  refine ⟨hbefore, ?_⟩
  rcases h.standing with ⟨-, hsame⟩ | ⟨-, -, hended⟩
  · rwa [hsame]
  · rw [hended]
    decide

end Session

namespace Client
variable {c : Client} {i : Nat} {t : Turn} {s : Session} {step : Session.Step}

def tells? (c : Client) (i : Nat) (t : Turn) : Option Keepalive.Op :=
  (c.hears? i t).bind fun (s, step) => s.tells? step

lemma tells?_of_some (h : c.hears? i t = some (s, step)) : c.tells? i t = s.tells? step := by
  rw [tells?, h, Option.bind_some]

lemma tells?_of_none (h : c.hears? i t = none) : c.tells? i t = none := by
  rw [tells?, h, Option.bind_none]

end Client

/-- A run of a client, with what becomes of the keepalive of one connection. -/
structure Vigil where
  client : Client
  start : Nat := 0
  calls : List (Nat × Keepalive.Op) := []

namespace Vigil

def note (i : Nat) (v : Vigil) (t : Client.Turn) : Vigil where
  client := v.client.play t
  start :=
    if v.client.standing? i = some .welcome ∧ (v.client.play t).standing? i = some .running then
      v.client.now
    else v.start
  calls := v.calls ++ ((v.client.tells? i t).map (v.client.now, ·)).toList

def ofTurns (i : Nat) (c : Client) (ts : List Client.Turn) : Vigil :=
  ts.foldl (note i) { client := c }

lemma ofTurns_concat (i : Nat) (c : Client) (ts : List Client.Turn) (t : Client.Turn) :
    ofTurns i c (ts ++ [t]) = (ofTurns i c ts).note i t :=
  List.foldl_append

lemma client_ofTurns (i : Nat) (c : Client) (ts : List Client.Turn) :
    (ofTurns i c ts).client = c.playAll ts := by
  induction ts using List.reverseRecOn with
  | nil => rfl
  | append_singleton ts t ih =>
    rw [ofTurns_concat, Client.playAll_concat, ← ih]
    rfl

/-- The keepalive of a connection is the one that calls lead to. -/
inductive Keeps (interval start now : Nat) (calls : List (Nat × Keepalive.Op)) :
    Option Phase → Prop
  | before (phase : Option Phase) (hphase : ∀ s holder, phase ≠ some (.established s holder))
    (hcalls : calls = []) : Keeps interval start now calls phase
  | welcome (s : Session) (holder : Holder) (hstanding : s.standing = .welcome)
    (hinterval : s.keepalive.interval = interval) (hcalls : calls = []) :
    Keeps interval start now calls (some (.established s holder))
  | started (s : Session) (holder : Holder) (hstanding : s.standing ≠ .welcome)
    (hkeepalive : s.keepalive = (Keepalive.Course.ofCalls interval start calls).keepalive)
    (hordered : Keepalive.Ordered start calls) (hstart : start ≤ now)
    (hcalls : ∀ call ∈ calls, call.1 ≤ now) :
    Keeps interval start now calls (some (.established s holder))

namespace Keeps
variable {interval start now : Nat} {calls : List (Nat × Keepalive.Op)} {s s' : Session}
  {holder holder' : Holder} {c : Client} {i : Nat}

lemma later {phase : Option Phase} (h : Keeps interval start now calls phase) {now' : Nat}
    (hnow : now ≤ now') : Keeps interval start now' calls phase := by
  cases h with
  | before phase hphase hcalls => exact .before phase hphase hcalls
  | welcome s holder hstanding hinterval hcalls =>
    exact .welcome s holder hstanding hinterval hcalls
  | started s holder hstanding hkeepalive hordered hstart hcalls =>
    exact .started s holder hstanding hkeepalive hordered (hstart.trans hnow)
      fun call hcall => (hcalls call hcall).trans hnow

lemma congr (h : Keeps interval start now calls (some (.established s holder)))
    (hkeepalive : s'.keepalive = s.keepalive) (hstanding : s'.standing = s.standing) :
    Keeps interval start now calls (some (.established s' holder')) := by
  cases h with
  | before phase hphase hcalls => exact absurd rfl (hphase s holder)
  | welcome _ _ hwelcome hinterval hcalls =>
    exact .welcome s' holder' (hstanding.trans hwelcome) (hkeepalive ▸ hinterval) hcalls
  | started _ _ hstarted hcourse hordered hstart hcalls =>
    exact .started s' holder' (hstanding ▸ hstarted) (hkeepalive.trans hcourse) hordered hstart
      hcalls

lemma of_started (h : Keeps interval start now calls (some (.established s holder)))
    (hstanding : s.standing ≠ .welcome) :
    s.keepalive = (Keepalive.Course.ofCalls interval start calls).keepalive ∧
      Keepalive.Ordered start calls ∧ start ≤ now ∧ ∀ call ∈ calls, call.1 ≤ now := by
  cases h with
  | before phase hphase hcalls => exact absurd rfl (hphase s holder)
  | welcome _ _ hwelcome hinterval hcalls => exact absurd hwelcome hstanding
  | started _ _ hstarted hkeepalive hordered hstart hcalls =>
    exact ⟨hkeepalive, hordered, hstart, hcalls⟩

lemma of_welcome (h : Keeps interval start now calls (some (.established s holder)))
    (hstanding : s.standing = .welcome) : s.keepalive.interval = interval ∧ calls = [] := by
  cases h with
  | before phase hphase hcalls => exact absurd rfl (hphase s holder)
  | welcome _ _ hwelcome hinterval hcalls => exact ⟨hinterval, hcalls⟩
  | started _ _ hstarted => exact absurd hstanding hstarted

lemma heard {p : Progress} {step : Session.Step}
    (h : Keeps interval start now calls (some (.established s holder)))
    (hheard : s.Heard p now step) :
    Keeps interval start now (calls ++ ((s.tells? step).map (now, ·)).toList)
      (some (.established step.session holder)) := by
  obtain ⟨hbefore, hafter⟩ := hheard.standing_ne_welcome
  obtain ⟨hkeepalive, hordered, hstart, hcalls⟩ := h.of_started hbefore
  have hkept := hheard.keepalive
  cases htells : s.tells? step with
  | none =>
    rw [htells] at hkept
    rw [Option.map_none, Option.toList_none, List.append_nil]
    exact .started _ holder hafter (hkept.trans hkeepalive) hordered hstart hcalls
  | some op =>
    rw [htells] at hkept
    rw [Option.map_some, Option.toList_some]
    refine .started _ holder hafter ?_ ?_ hstart ?_
    · rw [Keepalive.Course.ofCalls_concat, hkept, hkeepalive]
      rfl
    · exact Keepalive.ordered_concat.mpr ⟨hordered, hstart, hcalls⟩
    · intro call hcall
      rcases List.mem_append.mp hcall with hcall | hcall
      · exact hcalls call hcall
      · rw [List.mem_singleton.mp hcall]

lemma of_before {phase : Option Phase} (h : Keeps interval start now calls phase)
    (hphase : ∀ s holder, phase ≠ some (.established s holder)) : calls = [] := by
  cases h with
  | before _ _ hcalls => exact hcalls
  | welcome s holder hstanding hinterval hcalls => exact hcalls
  | started s holder => exact absurd rfl (hphase s holder)

/-- When the session of a connection began to count, seen from one turn to the next. -/
def startAfter (start now : Nat) (old new : Option Phase) : Nat :=
  if old.map (·.standing) = some .welcome ∧ new.map (·.standing) = some .running then now
  else start

/-- Besides the reading side, only a connection that becomes ready touches its keepalive. -/
lemma moved {m : Client.Move} {taken : Option Event} {old new : Option Phase}
    (h : Keeps c.config.keepalive.idleInterval start c.now calls old)
    (hmoved : c.PhaseMoved i m taken old new) (hm : m ≠ .act (.reading i)) :
    Keeps c.config.keepalive.idleInterval (startAfter start c.now old new) c.now calls new := by
  have hsame {s s' : Session} {holder holder' : Holder}
      (h : Keeps c.config.keepalive.idleInterval start c.now calls (some (.established s holder)))
      (hkeepalive : s'.keepalive = s.keepalive) (hstanding : s'.standing = s.standing) :
      Keeps c.config.keepalive.idleInterval (startAfter start c.now
        (some (.established s holder)) (some (.established s' holder'))) c.now calls
        (some (.established s' holder')) := by
    have hstart : startAfter start c.now (some (.established s holder))
        (some (.established s' holder')) = start := by
      refine if_neg ?_
      rintro ⟨hold, hnew⟩
      have hboth : s.standing = .welcome ∧ s'.standing = .running :=
        ⟨Option.some.inj hold, Option.some.inj hnew⟩
      rw [hstanding, hboth.1] at hboth
      cases hboth.2
    rw [hstart]
    exact h.congr hkeepalive hstanding
  have hnone {old : Option Phase} {phase : Phase} (hcalls : calls = [])
      (hphase : ∀ s holder, phase ≠ .established s holder) :
      Keeps c.config.keepalive.idleInterval (startAfter start c.now old (some phase)) c.now calls
        (some phase) :=
    .before _ (fun s holder heq => hphase s holder (Option.some.inj heq)) hcalls
  cases hmoved with
  | same m phase =>
    cases h with
    | before _ hphase hcalls => exact .before _ hphase hcalls
    | welcome s holder hstanding hinterval hcalls =>
      exact hsame (.welcome s holder hstanding hinterval hcalls) rfl rfl
    | started s holder hstanding hkeepalive hordered hstart hcalls =>
      exact hsame (.started s holder hstanding hkeepalive hordered hstart hcalls) rfl rfl
  | joined m phase hjoins hphase =>
    refine hnone (h.of_before (by simp)) ?_
    rcases hphase with rfl | ⟨token, rfl⟩ <;> simp
  | befell e g link => exact hnone (h.of_before (by simp)) (by simp)
  | greeted g g' link link' hstep => exact hnone (h.of_before (by simp)) (by simp)
  | rejected e link => exact hnone (h.of_before (by simp)) (by simp)
  | failed s holder hfailed =>
    obtain ⟨-, requests, hstage⟩ := Session.startup_failed hfailed
    exact hnone (h.of_welcome (Session.standing_eq_welcome_iff.mpr ⟨_, hstage⟩)).2 (by simp)
  | began link => exact .welcome _ _ rfl rfl (h.of_before (by simp))
  | ready s s' holder hready =>
    obtain ⟨hstage, rfl⟩ := Session.startup_ready hready
    have hwelcome : s.standing = .welcome := Session.standing_eq_welcome_iff.mpr ⟨_, hstage⟩
    obtain ⟨hinterval, rfl⟩ := h.of_welcome hwelcome
    have hstart : startAfter start c.now (some (.established s holder)) (some (.established
        { s with stage := .live [], keepalive := .start s.keepalive.interval c.now } holder)) =
          c.now := if_pos ⟨congrArg some hwelcome, rfl⟩
    rw [hstart, ← hinterval]
    exact .started _ holder (by simp [Session.standing]) rfl (List.pairwise_singleton _ _)
      (Nat.le_refl _) (by simp)
  | going s s' holder hgoing =>
    obtain ⟨message, requests, outbox, hstage, ⟨-, rfl⟩ | ⟨-, rfl⟩⟩ := Session.startup_going hgoing
    · refine hsame h rfl ?_
      rw [Session.standing, Session.standing, hstage]
    · exact hsame h rfl rfl
  | wrote s s' holder notes hwrite =>
    exact hsame h (Session.keepalive_of_write? hwrite)
      (Client.standing_congr (Session.written_of_write? hwrite).stage)
  | read s step holder hstep => exact absurd rfl hm
  | took s s' b ev hstash htake =>
    obtain ⟨items, -, rfl⟩ := Session.takeEvent?_cases htake
    exact hsame h rfl rfl
  | passed id s s' b b' w w' ev htake hstep =>
    obtain ⟨items, -, rfl⟩ := Session.takeEvent?_cases htake
    exact hsame h rfl rfl
  | found id s s' b b' w ev result tried htake hstep =>
    obtain ⟨items, -, rfl⟩ := Session.takeEvent?_cases htake
    exact hsame h rfl rfl
  | _ => exact hsame h rfl rfl

end Keeps

/-- After a turn the session still has the keepalive that the noted calls lead to. -/
theorem Keeps.note {v : Vigil} {i : Nat}
    (h : Keeps v.client.config.keepalive.idleInterval v.start v.client.now v.calls
      (v.client.phase? i)) (t : Client.Turn) :
    Keeps v.client.config.keepalive.idleInterval (v.note i t).start (v.note i t).client.now
      (v.note i t).calls ((v.note i t).client.phase? i) := by
  refine later ?_ (v.client.now_le_play t)
  cases hhears : v.client.hears? i t with
  | some heard =>
    obtain ⟨s, step⟩ := heard
    obtain ⟨holder, -, hphase, hchoice, hphase'⟩ := Client.hears?_eq_some hhears
    have hheard := Session.heard_of_mem_choices hchoice
    have hstart : (v.note i t).start = v.start := by
      refine if_neg ?_
      rintro ⟨hwelcome, -⟩
      rw [Chronicle.standing?_of_established hphase] at hwelcome
      exact hheard.standing_ne_welcome.1 (Option.some.inj hwelcome)
    rw [hphase] at h
    change Keeps _ _ _ _ ((v.client.play t).phase? i)
    rw [hstart, hphase', Vigil.note, Client.tells?_of_some hhears]
    exact h.heard hheard
  | none =>
    have hcalls : (v.note i t).calls = v.calls := by
      rw [Vigil.note, Client.tells?_of_none hhears]
      exact List.append_nil _
    rw [hcalls]
    by_cases hmove : t.move = .act (.reading i)
    · have hsame := h.moved (i := i) (.same (.pass 0) (v.client.phase? i)) (by simp)
      change Keeps _ (startAfter v.start v.client.now _ ((v.client.play t).phase? i)) _ _
        ((v.client.play t).phase? i)
      rw [Client.phase?_of_hears?_none hhears hmove]
      exact hsame
    · exact h.moved (v.client.phaseMoved_play t i) hmove

/-- All along a run a session has the keepalive that the noted calls lead to. -/
theorem keeps_ofTurns {c : Client} {i : Nat} (hnew : c.phase? i = none)
    (ts : List Client.Turn) :
    Keeps c.config.keepalive.idleInterval (ofTurns i c ts).start (c.playAll ts).now
      (ofTurns i c ts).calls ((c.playAll ts).phase? i) := by
  induction ts using List.reverseRecOn with
  | nil => exact .before _ (fun s holder => by simp [Client.playAll, hnew]) rfl
  | append_singleton ts t ih =>
    have hnote := Keeps.note (v := ofTurns i c ts) (i := i) (t := t)
    rw [client_ofTurns, Client.config_playAll] at hnote
    rw [ofTurns_concat, Client.playAll_concat]
    have hclient : ((ofTurns i c ts).note i t).client = (c.playAll ts).play t := by
      rw [← client_ofTurns i c ts]
      rfl
    rw [← hclient]
    exact hnote ih

def course (v : Vigil) : Keepalive.Course :=
  .ofCalls v.client.config.keepalive.idleInterval v.start v.calls

/-- When the time in which the connection may be silent has last begun to run. -/
def since (v : Vigil) : Nat := Keepalive.latest v.start v.course.beats

section Run
variable {c : Client} {i : Nat} {ts : List Client.Turn} {t : Client.Turn} {s : Session}
  {holder : Holder} {step : Session.Step}

lemma course_ofTurns (i : Nat) (c : Client) (ts : List Client.Turn) :
    (ofTurns i c ts).course = .ofCalls c.config.keepalive.idleInterval (ofTurns i c ts).start
      (ofTurns i c ts).calls := by
  rw [course, client_ofTurns, Client.config_playAll]

lemma calls_concat (i : Nat) (c : Client) (ts : List Client.Turn) (t : Client.Turn) :
    (ofTurns i c (ts ++ [t])).calls = (ofTurns i c ts).calls ++
      (((c.playAll ts).tells? i t).map ((c.playAll ts).now, ·)).toList := by
  rw [ofTurns_concat, ← client_ofTurns i c ts]
  rfl

lemma start_concat (hphase : (c.playAll ts).phase? i = some (.established s holder))
    (hstanding : s.standing ≠ .welcome) (t : Client.Turn) :
    (ofTurns i c (ts ++ [t])).start = (ofTurns i c ts).start := by
  rw [ofTurns_concat]
  refine if_neg ?_
  rintro ⟨hwelcome, -⟩
  rw [client_ofTurns, Chronicle.standing?_of_established hphase] at hwelcome
  exact hstanding (Option.some.inj hwelcome)

lemma of_established (hnew : c.phase? i = none)
    (hphase : (c.playAll ts).phase? i = some (.established s holder))
    (hstanding : s.standing ≠ .welcome) :
    s.keepalive = (ofTurns i c ts).course.keepalive ∧
      Keepalive.Ordered (ofTurns i c ts).start (ofTurns i c ts).calls ∧
      (ofTurns i c ts).since ≤ (c.playAll ts).now := by
  have hkeeps := keeps_ofTurns hnew ts
  rw [hphase] at hkeeps
  obtain ⟨hkeepalive, hordered, hstart, hcalls⟩ := hkeeps.of_started hstanding
  refine ⟨by rw [course_ofTurns, hkeepalive], hordered, ?_⟩
  rw [since, course_ofTurns]
  exact Keepalive.latest_le hstart (Keepalive.Course.time_le_of_mem hcalls)

lemma since_of_reads? (hnew : c.phase? i = none) {raw : RawFrame}
    (hhears : (c.playAll ts).hears? i t = some (s, step)) (hreads : s.reads? step = some raw) :
    (ofTurns i c (ts ++ [t])).since = (c.playAll ts).now ∧
      step.session.keepalive.deadline =
        (c.playAll ts).now + c.config.keepalive.idleInterval := by
  obtain ⟨holder, -, hphase, hchoice, -⟩ := Client.hears?_eq_some hhears
  have hheard := Session.heard_of_mem_choices hchoice
  have hstanding := hheard.standing_ne_welcome.1
  obtain ⟨hkeepalive, hordered, hsince⟩ := of_established hnew hphase hstanding
  rw [course_ofTurns] at hkeepalive
  have hsound := Keepalive.Course.sound_ofCalls c.config.keepalive.idleInterval _ _ hordered
  cases hheard.attends with
  | idle hstage hlate hnone => cases hnone.symm.trans hreads
  | apart hnone => cases hnone.symm.trans hreads
  | frame raw' hreads' htells hframe =>
    constructor
    · rw [since, course_ofTurns] at hsince ⊢
      rw [start_concat hphase hstanding, calls_concat, Client.tells?_of_some hhears, htells,
        Option.map_some, Option.toList_some]
      rw [Keepalive.Course.ofCalls_concat, Keepalive.Course.note, Keepalive.latest_concat]
      exact Nat.max_eq_right hsince
    · rw [hframe, hkeepalive, Keepalive.onFrame, hsound.kept]

end Run

end Vigil

end Parley
