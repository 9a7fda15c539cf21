import Parley.Client.Timeline
import Parley.Proofs.Client.Correlation
import Parley.Proofs.Client.Facing
import Parley.Proofs.Client.Introduction
import Parley.Proofs.Transport.Legible

/-!
# Illegible frames go unnoticed

A session passes over a frame whose body it cannot read. Put a connection on two streams that show
alike, which hold the same legible frames in the same order: every course of turns on one of them is
matched by a course on the other (`Client.exists_course`), in which the same is told, queued and
answered, and all of the client is the same after each turn but for the octets that are unread and
the time at which the next ping is due. The invariant is that the ping is due no later on the side
that follows (`Keepalive.Within`), so that it can be sent there whenever it is sent on the other.

A ping is sent there because it may be, not because its time has come. Where all parts go on at once
(`Client.promptly`) an illegible frame is noticed after all, as a sign of life.
-/

namespace Parley

/-! ## Keepalives -/

/-- A keepalive of the same interval that is due no later. -/
structure Keepalive.Within (now : Nat) (k k' : Keepalive) : Prop where
  interval : k'.interval = k.interval
  deadline : k'.deadline ≤ k.deadline
  timely : k'.deadline ≤ now + k'.interval

lemma Keepalive.Within.later {now now' : Nat} {k k' : Keepalive} (h : k.Within now k')
    (hnow : now ≤ now') : k.Within now' k' :=
  ⟨h.interval, h.deadline, h.timely.trans (Nat.add_le_add_right hnow _)⟩

namespace Client

/-- No deadline of a session is farther away than a whole interval. -/
def Timely (c : Client) : Prop := ∀ i s holder, c.phase? i = some (.established s holder) →
  s.keepalive.deadline ≤ c.now + s.keepalive.interval

lemma now_le_play (c : Client) (t : Turn) : c.now ≤ (c.play t).now := by
  by_cases h : ∃ n, t.move = .pass n
  · obtain ⟨n, hn⟩ := h
    rw [play_of_ne (by simp [hn]), hn]
    exact Nat.le_add_right _ _
  · exact (now_play fun n hn => h ⟨n, hn⟩).ge

end Client

namespace Session

lemma keepalive_of_write? {s s' : Session} {notes : List Note} (h : s.write? = some (s', notes)) :
    s'.keepalive = s.keepalive := by
  have hself := write?_facing s.link.reader s.keepalive s
  rw [facing_self, h] at hself
  exact congrArg (·.1.keepalive) (Option.some.inj hself)

lemma timely_of_heard {s : Session} {p : Progress} {now : Nat} {step : Step}
    (h : s.Heard p now step) (htimely : s.keepalive.deadline ≤ now + s.keepalive.interval) :
    step.session.keepalive.deadline ≤ now + step.session.keepalive.interval := by
  cases h with
  | dispatched raw link hstage hnext => exact Nat.le_refl _
  | pinged hstage hdue =>
    by_cases hnow : now < s.keepalive.deadline
    · simp [Keepalive.onIdle, hnow] at hdue
    · simp [Keepalive.onIdle, hnow]
  | _ => exact htimely

end Session

namespace Client

theorem Timely.play {c : Client} (h : c.Timely) (t : Turn) : (c.play t).Timely := by
  intro i s' holder' hphase'
  have hmoved := c.phaseMoved_play t i
  rw [hphase'] at hmoved
  refine Nat.le_trans ?_ (Nat.add_le_add_right (c.now_le_play t) _)
  have hold := h i
  generalize c.phase? i = old at hmoved hold
  generalize c.taken? i t.move = taken at hmoved
  generalize t.move = m at hmoved
  cases hmoved with
  | same => exact hold _ _ rfl
  | joined _ phase hjoins hphase => simp at hphase
  | began link => exact Nat.le_refl _
  | ready s _ _ hready =>
    obtain ⟨-, rfl⟩ := Session.startup_ready hready
    exact Nat.le_refl _
  | going s _ _ hgoing =>
    obtain ⟨m, requests, outbox, hstage, ⟨-, rfl⟩ | ⟨-, rfl⟩⟩ := Session.startup_going hgoing
    · exact hold s holder' rfl
    · exact hold s holder' rfl
  | wrote s _ _ notes hwrite =>
    rw [Session.keepalive_of_write? hwrite]
    exact hold s holder' rfl
  | read s step _ hstep =>
    exact Session.timely_of_heard (Session.heard_of_mem_choices hstep) (hold s holder' rfl)
  | took s _ b ev hstash htake =>
    obtain ⟨items, -, rfl⟩ := Session.takeEvent?_cases htake
    exact hold s _ rfl
  | passed id s _ b b' w w' ev htake hstep =>
    obtain ⟨items, -, rfl⟩ := Session.takeEvent?_cases htake
    exact hold s _ rfl
  | found id s _ b b' w ev result tried htake hstep =>
    obtain ⟨items, -, rfl⟩ := Session.takeEvent?_cases htake
    exact hold s _ rfl
  | _ =>
    have hbefore := hold _ _ rfl
    exact hbefore

theorem timely_playAll {config : Config} {store : CursorStore}
    {tokens : List (Except Error String)} {c : Client}
    (hnew : Client.new config store tokens = .ok c) (ts : List Turn) : (c.playAll ts).Timely := by
  induction ts using List.reverseRecOn with
  | nil =>
    obtain ⟨progress, rfl⟩ := eq_of_new hnew
    intro i s holder hphase
    cases hphase
  | append_singleton ts t ih =>
    rw [playAll_concat]
    exact ih.play t

/-! ## Turns -/

section Turns
variable {i : Nat} {b b₁ : Client} {r r' r₁ r₁' : FrameReader} {k k' k₁ k₁' : Keepalive}
  {s : Session} {holder : Holder} {t u : Turn}

def Move.reads (i : Nat) : Move → Bool
  | .act (.reading j) => j = i
  | _ => false

/-- Whether the reading side takes an illegible frame in a turn. -/
def isMute (i : Nat) (c : Client) (t : Turn) : Bool :=
  match c.phase? i with
  | some (.established s _) =>
    t.move.reads i && t.choice == 0 && s.stage == .live [] && s.link.reader.isGarbled
  | _ => false

def Move.emptied (i : Nat) : Move → Move
  | .happen j e => if j = i then .happen j e.emptied else .happen j e
  | m => m

/-- What is seen of a turn: the move, the event told, the items queued, and all of the client
afterwards but for the reader and the keepalive of a connection. -/
structure Scene where
  move : Move
  event : Option Event
  queued : Nat → List Outgoing
  client : Client

def scene (i : Nat) (c : Client) (t : Turn) : Scene where
  move := t.move.emptied i
  event := (c.hears? i t).bind fun (s, step) => s.emits? c.progress step
  queued j := newly (c.phase? j) ((c.play t).phase? j)
  client := (c.play t).facing i { maxBody := 0 } (.start 0 0)

/-- What is seen of a course of turns, apart from those in which illegible frames are taken. -/
def scenes (i : Nat) : Client → List Turn → List Scene
  | _, [] => []
  | c, t :: ts =>
    if c.isMute i t then scenes i (c.play t) ts else c.scene i t :: scenes i (c.play t) ts

lemma aheadOf_facing (i : Nat) (r : FrameReader) (k : Keepalive) (c : Client) (j : Nat) :
    aheadOf ((c.facing i r k).phase? j) = aheadOf (c.phase? j) := by
  rw [phase?_facing]
  cases c.phase? j with
  | none => rfl
  | some phase =>
    cases phase with
    | greeting _ _ | failed => simp
    | established s holder =>
      simp only [Option.map_some, Phase.seen_established, aheadOf]
      unfold Session.seen
      split <;> rfl

lemma scene_congr (hmove : t.move.emptied i = u.move.emptied i)
    (hevent : ((b.facing i r k).hears? i t).bind (fun (s, step) => s.emits? b.progress step) =
      ((b.facing i r' k').hears? i u).bind fun (s, step) => s.emits? b.progress step)
    (hleft : (b.facing i r k).play t = b₁.facing i r₁ k₁)
    (hright : (b.facing i r' k').play u = b₁.facing i r₁' k₁') :
    (b.facing i r k).scene i t = (b.facing i r' k').scene i u := by
  unfold scene
  rw [hleft, hright, facing_facing, facing_facing]
  congr 1
  funext j
  simp only [newly, aheadOf_facing]

/-! ## The reading side -/

lemma choose_facing (hphase : b.phase? i = some (.established s holder)) (n : Nat) :
    (b.facing i r k).play ⟨.act (.reading i), n⟩ =
      (((s.facing r k).choices b.progress b.now)[n]?.map ((b.facing i r k).hear i holder)).getD
        (b.facing i r k) := by
  change (b.facing i r k).choose i n = _
  unfold choose
  rw [phase?_facing_self hphase]
  rfl

lemma hears?_facing (hphase : b.phase? i = some (.established s holder)) (n : Nat) :
    (b.facing i r k).hears? i ⟨.act (.reading i), n⟩ =
      ((s.facing r k).choices b.progress b.now)[n]?.map (s.facing r k, ·) := by
  unfold hears?
  simp only [phase?_facing_self hphase, if_true]
  rfl

lemma isMute_facing (hphase : b.phase? i = some (.established s holder)) (n : Nat) :
    (b.facing i r k).isMute i ⟨.act (.reading i), n⟩ =
      (n == 0 && s.stage == .live [] && r.isGarbled) := by
  unfold isMute
  rw [phase?_facing_self hphase]
  simp [Move.reads, Session.facing]

lemma reads_of_mem_reading {n : Nat} (hu : u ∈ [(⟨.act (.reading i), n⟩ : Turn)]) :
    u.move.reads i = true := by
  obtain rfl := List.mem_singleton.mp hu
  simp [Move.reads]

lemma isMute_of_not_reads (c : Client) (h : t.move.reads i = false) : c.isMute i t = false := by
  unfold isMute
  split <;> simp [h]

lemma scene_of_steps (hphase : b.phase? i = some (.established s holder)) {n n' : Nat}
    {step : Session.Step}
    (hstep : ((s.facing r k).choices b.progress b.now)[n]? = some (step.facing r₁ k₁))
    (hstep' : ((s.facing r' k').choices b.progress b.now)[n']? = some (step.facing r₁' k₁')) :
    (b.facing i r k).play ⟨.act (.reading i), n⟩ = (b.hear i holder step).facing i r₁ k₁ ∧
      (b.facing i r' k').play ⟨.act (.reading i), n'⟩ =
        (b.hear i holder step).facing i r₁' k₁' ∧
      (b.facing i r k).scene i ⟨.act (.reading i), n⟩ =
        (b.facing i r' k').scene i ⟨.act (.reading i), n'⟩ := by
  have hleft : (b.facing i r k).play ⟨.act (.reading i), n⟩ =
      (b.hear i holder step).facing i r₁ k₁ := by
    rw [choose_facing hphase, hstep, Option.map_some, Option.getD_some, hear_facing]
  have hright : (b.facing i r' k').play ⟨.act (.reading i), n'⟩ =
      (b.hear i holder step).facing i r₁' k₁' := by
    rw [choose_facing hphase, hstep', Option.map_some, Option.getD_some, hear_facing]
  refine ⟨hleft, hright, scene_congr rfl ?_ hleft hright⟩
  rw [hears?_facing hphase, hears?_facing hphase, hstep, hstep']
  rfl

lemma play_of_isGarbled (hphase : b.phase? i = some (.established s holder))
    (hstage : s.stage = .live []) (hr : r.isGarbled = true) :
    (b.facing i r k).isMute i ⟨.act (.reading i), 0⟩ = true ∧
      (b.facing i r k).play ⟨.act (.reading i), 0⟩ =
        b.facing i r.nextRaw.2 (k.onFrame b.now) := by
  obtain ⟨raw, hnext, hlegible⟩ := FrameReader.isGarbled_eq_true hr
  obtain ⟨e, hdecode⟩ := RawFrame.exists_error_of_isLegible hlegible
  refine ⟨by rw [isMute_facing hphase, hstage, hr]; rfl, ?_⟩
  have hfirst : ((s.facing r k).choices b.progress b.now)[0]? =
      some (Session.Step.facing r.nextRaw.2 (k.onFrame b.now)
        { session := s, progress := b.progress }) := by
    rw [Session.choices_of_live (show (s.facing r k).stage = .live [] from hstage),
      Session.readFrame_facing, hnext]
    simp [Session.hearing_of_illegible s b.progress hstage hdecode]
  rw [choose_facing hphase, hfirst, Option.map_some, Option.getD_some, hear_facing]
  exact congrArg (facing i r.nextRaw.2 (k.onFrame b.now)) (setPhase_self hphase)

lemma scenes_append (i : Nat) (c : Client) (ts ts' : List Turn) :
    scenes i c (ts ++ ts') = scenes i c ts ++ scenes i (c.playAll ts) ts' := by
  induction ts generalizing c with
  | nil => rfl
  | cons t ts ih =>
    rw [List.cons_append, scenes, scenes, ih]
    split <;> rfl

lemma scenes_singleton {c : Client} (h : c.isMute i t = false) :
    scenes i c [t] = [c.scene i t] := by
  simp [scenes, h]

lemma exists_clear (hphase : b.phase? i = some (.established s holder))
    (hstage : s.stage = .live []) (r : FrameReader) (k : Keepalive) :
    ∃ us r₁ k₁, (∀ u ∈ us, u.move.reads i = true) ∧
      (b.facing i r k).playAll us = b.facing i r₁ k₁ ∧ scenes i (b.facing i r k) us = [] ∧
      r₁.isGarbled = false ∧ r.Alike r₁ ∧ k₁.interval = k.interval ∧
      ∀ ended bs more, ShowAlike r.maxBody ended bs (r.pending ++ more) →
        ShowAlike r.maxBody ended bs (r₁.pending ++ more) := by
  induction hlen : r.pending.length using Nat.strong_induction_on generalizing r k with
  | h len ih =>
    subst hlen
    cases hr : r.isGarbled with
    | false =>
      exact ⟨[], r, k, by simp, rfl, rfl, hr, ⟨rfl, rfl, rfl⟩, rfl, fun _ _ _ h => h⟩
    | true =>
      obtain ⟨raw, hfits, hlegible, hpending⟩ := FrameReader.pending_of_isGarbled hr
      have halike := r.alike_nextRaw
      obtain ⟨hmute, hplay⟩ := play_of_isGarbled (k := k) hphase hstage hr
      have hshorter : r.nextRaw.2.pending.length < r.pending.length := by
        rw [hpending, List.length_append, RawFrame.length_encode, Header.size]
        omega
      obtain ⟨us, r₁, k₁, hus, hrun, hscenes, hclear, halike₁, hinterval, hskip⟩ :=
        ih _ hshorter r.nextRaw.2 (k.onFrame b.now) rfl
      refine ⟨⟨.act (.reading i), 0⟩ :: us, r₁, k₁, ?_, ?_, ?_, hclear, halike.trans halike₁,
        hinterval, fun ended bs more h => ?_⟩
      · intro u hu
        rcases List.mem_append.mp (show u ∈ [_] ++ us from hu) with hu | hu
        · exact reads_of_mem_reading hu
        · exact hus u hu
      · rw [← hrun, ← hplay]
        rfl
      · rw [scenes, if_pos hmute, hplay, hscenes]
      · rw [hpending, List.append_assoc] at h
        have hrest := (ShowAlike.skip_right hfits hlegible).mp h
        rw [← halike.bound] at hrest ⊢
        exact hskip ended bs more hrest

/-- The session of a connection has ended, or one keepalive of it is due no later than another one.
-/
def Paced (b : Client) (i : Nat) (k k' : Keepalive) : Prop :=
  b.phase? i = some .failed ∨ ∃ s holder, b.phase? i = some (.established s holder) ∧
    ((s.stage = .leaving ∨ s.stage = .gone) ∨ k.Within b.now k')

/-- A turn on one reader, and turns on another one in which the same is seen. -/
structure Matched (i : Nat) (b : Client) (r r' : FrameReader) (k k' : Keepalive) (t : Turn)
    (us : List Turn) (b₁ : Client) (r₁ r₁' : FrameReader) (k₁ k₁' : Keepalive) : Prop where
  left : (b.facing i r k).play t = b₁.facing i r₁ k₁
  right : (b.facing i r' k').playAll us = b₁.facing i r₁' k₁'
  scenes : scenes i (b.facing i r' k') us = scenes i (b.facing i r k) [t]
  paced : b₁.Paced i k₁ k₁'
  alike : r₁.Alike r₁'
  kept : r.Alike r₁
  shows : ∀ ended more more', ShowAlike r.maxBody ended (r.pending ++ more) (r'.pending ++ more') →
    ShowAlike r.maxBody ended (r₁.pending ++ more) (r₁'.pending ++ more')

lemma length_frames_of_isGarbled (hr : r.isGarbled = true) (s : Session) (k : Keepalive)
    (p : Progress) (now : Nat) : ((s.facing r k).readFrame p now).toList.length = 1 := by
  obtain ⟨raw, hnext, -⟩ := FrameReader.isGarbled_eq_true hr
  rw [Session.readFrame_facing, hnext]
  rfl

/-- The reading side makes the same step on two readers, on one of them behind turns in which
nothing is seen. -/
lemma matched_of_steps (hphase : b.phase? i = some (.established s holder)) {n n' : Nat}
    {step : Session.Step} {us : List Turn} {r₂ : FrameReader} {k₂ : Keepalive}
    (hrun : (b.facing i r' k').playAll us = b.facing i r₂ k₂)
    (hscenes : scenes i (b.facing i r' k') us = [])
    (hstep : ((s.facing r k).choices b.progress b.now)[n]? = some (step.facing r₁ k₁))
    (hstep' : ((s.facing r₂ k₂).choices b.progress b.now)[n']? = some (step.facing r₁' k₁'))
    (hmute : (b.facing i r k).isMute i ⟨.act (.reading i), n⟩ = false)
    (hmute' : (b.facing i r₂ k₂).isMute i ⟨.act (.reading i), n'⟩ = false)
    (hpaced : (step.session.stage = .leaving ∨ step.session.stage = .gone) ∨
      k₁.Within b.now k₁') (halike : r₁.Alike r₁') (hkept : r.Alike r₁)
    (hshows : ∀ ended more more',
      ShowAlike r.maxBody ended (r.pending ++ more) (r'.pending ++ more') →
        ShowAlike r.maxBody ended (r₁.pending ++ more) (r₁'.pending ++ more')) :
    Matched i b r r' k k' ⟨.act (.reading i), n⟩ (us ++ [⟨.act (.reading i), n'⟩])
      (b.hear i holder step) r₁ r₁' k₁ k₁' := by
  obtain ⟨hleft, hright, hscene⟩ := scene_of_steps hphase hstep hstep'
  refine ⟨hleft, ?_, ?_, ?_, halike, hkept, hshows⟩
  · rw [playAll_append, hrun]
    exact hright
  · rw [scenes_append, hscenes, hrun, scenes_singleton hmute, scenes_singleton hmute', hscene]
    rfl
  · refine .inr ⟨step.session, holder, ?_, ?_⟩
    · rw [phase?_hear]
      exact phase?_setPhase_self b hphase _
    · rwa [show (b.hear i holder step).now = b.now from now_applyNotes _ step.notes]

lemma matched_of_step (hphase : b.phase? i = some (.established s holder)) {n n' : Nat}
    {step : Session.Step}
    (hstep : ((s.facing r k).choices b.progress b.now)[n]? = some (step.facing r k₁))
    (hstep' : ((s.facing r' k').choices b.progress b.now)[n']? = some (step.facing r' k₁'))
    (hmute : (b.facing i r k).isMute i ⟨.act (.reading i), n⟩ = false)
    (hmute' : (b.facing i r' k').isMute i ⟨.act (.reading i), n'⟩ = false)
    (hpaced : (step.session.stage = .leaving ∨ step.session.stage = .gone) ∨
      k₁.Within b.now k₁') (halike : r.Alike r') :
    Matched i b r r' k k' ⟨.act (.reading i), n⟩ [⟨.act (.reading i), n'⟩]
      (b.hear i holder step) r r' k₁ k₁' := by
  have hrun : (b.facing i r' k').playAll [] = b.facing i r' k' := rfl
  exact matched_of_steps hphase hrun rfl hstep hstep' hmute hmute' hpaced halike ⟨rfl, rfl, rfl⟩
    fun _ _ _ h => h

lemma matched_of_none (hphase : b.phase? i = some (.established s holder)) {n : Nat}
    (hnone : ((s.facing r k).choices b.progress b.now)[n]? = none)
    (hmute : (b.facing i r k).isMute i ⟨.act (.reading i), n⟩ = false)
    (hpaced : b.Paced i k k') (halike : r.Alike r') :
    ∃ n', Matched i b r r' k k' ⟨.act (.reading i), n⟩ [⟨.act (.reading i), n'⟩] b r r' k k' := by
  have hnone' : ((s.facing r' k').choices b.progress b.now)[
      ((s.facing r' k').choices b.progress b.now).length]? = none := by simp
  have hleft : (b.facing i r k).play ⟨.act (.reading i), n⟩ = b.facing i r k := by
    rw [choose_facing hphase, hnone]
    rfl
  have hright : (b.facing i r' k').play ⟨.act (.reading i),
      ((s.facing r' k').choices b.progress b.now).length⟩ = b.facing i r' k' := by
    rw [choose_facing hphase, hnone']
    rfl
  have hmute' : (b.facing i r' k').isMute i ⟨.act (.reading i),
      ((s.facing r' k').choices b.progress b.now).length⟩ = false := by
    rw [isMute_facing hphase]
    by_contra h
    simp only [Bool.not_eq_false, Bool.and_eq_true, beq_iff_eq] at h
    obtain ⟨⟨hlength, hstage⟩, hr⟩ := h
    have hone := length_frames_of_isGarbled hr s k' b.progress b.now
    rw [Session.choices_of_live (show (s.facing r' k').stage = .live [] from hstage)] at hlength
    simp only [List.length_append] at hlength
    omega
  refine ⟨_, hleft, hright, ?_, hpaced, halike, ⟨rfl, rfl, rfl⟩, fun _ _ _ h => h⟩
  rw [scenes_singleton hmute, scenes_singleton hmute']
  refine congrArg (fun scene => [scene]) (scene_congr rfl ?_ hright hleft)
  rw [hears?_facing hphase, hears?_facing hphase, hnone, hnone']
  rfl

/-- The next frame, or the end of the stream, is the same on two readers, but for the illegible
frames in front of it. -/
lemma matched_of_frame (hphase : b.phase? i = some (.established s holder))
    (hstage : s.stage = .live []) (hclear : r.isGarbled = false) {answer : Except Error RawFrame}
    (hnext : r.nextRaw.1 = some answer) (hpaced : k.Within b.now k') (halike : r.Alike r')
    (hshow : ShowAlike r.maxBody r.inbound.ended r.pending r'.pending) :
    ∃ us b₁ r₁ r₁' k₁ k₁', (∀ u ∈ us, u.move.reads i = true) ∧
      Matched i b r r' k k' ⟨.act (.reading i), 0⟩ us b₁ r₁ r₁' k₁ k₁' := by
  obtain ⟨us, r₂, k₂, hus, hrun, hscenes, hclear₂, halike₂, hinterval, hskip⟩ :=
    exists_clear hphase hstage r' k'
  have halike' := halike.trans halike₂
  rw [halike.bound] at hskip
  have hnext₂ : r₂.nextRaw.1 = some answer := by
    rw [← hnext]
    refine FrameReader.nextRaw_congr halike'.bound halike'.ended halike'.failure ?_
      (FrameReader.isClear_of_isGarbled hclear) (FrameReader.isClear_of_isGarbled hclear₂)
    have hshow₂ := hskip r.inbound.ended r.pending []
    rw [List.append_nil, List.append_nil] at hshow₂
    exact hshow₂ hshow
  have hmute : (b.facing i r k).isMute i ⟨.act (.reading i), 0⟩ = false := by
    rw [isMute_facing hphase, hclear, Bool.and_false]
  have hmute₂ : (b.facing i r₂ k₂).isMute i ⟨.act (.reading i), 0⟩ = false := by
    rw [isMute_facing hphase, hclear₂, Bool.and_false]
  have hreads : ∀ u ∈ us ++ [(⟨.act (.reading i), 0⟩ : Turn)], u.move.reads i = true := by
    intro u hu
    rcases List.mem_append.mp hu with hu | hu
    · exact hus u hu
    · exact reads_of_mem_reading hu
  have hfirst {r : FrameReader} {k : Keepalive} {step : Session.Step}
      (h : (s.facing r k).readFrame b.progress b.now = some step) :
      ((s.facing r k).choices b.progress b.now)[0]? = some step := by
    rw [Session.choices_of_live (show (s.facing r k).stage = .live [] from hstage), h]
    rfl
  have hreaders : r.nextRaw.2.Alike r₂.nextRaw.2 :=
    r.alike_nextRaw.symm.trans (halike'.trans r₂.alike_nextRaw)
  cases answer with
  | error e =>
    -- Both sessions end. No octet has been taken.
    have hpending {r : FrameReader} (hnext : r.nextRaw.1 = some (.error e)) :
        r.nextRaw.2.pending = r.pending := by
      rcases r.nextRaw_cases with ⟨raw, hraw, -⟩ | ⟨-, hpending, -⟩
      · cases hnext.symm.trans hraw
      · exact hpending
    have hstep : ((s.facing r k).choices b.progress b.now)[0]? =
        some ((s.finish b.progress (.failed e)).facing r.nextRaw.2 k) :=
      hfirst (by rw [Session.readFrame_facing, hnext])
    have hstep₂ : ((s.facing r₂ k₂).choices b.progress b.now)[0]? =
        some ((s.finish b.progress (.failed e)).facing r₂.nextRaw.2 k₂) :=
      hfirst (by rw [Session.readFrame_facing, hnext₂])
    refine ⟨_, _, _, _, _, _, hreads, matched_of_steps hphase hrun hscenes hstep hstep₂ hmute hmute₂
      (.inl (.inl rfl)) hreaders r.alike_nextRaw fun ended more more' h => ?_⟩
    rw [hpending hnext, hpending hnext₂]
    exact hskip _ _ _ h
  | ok raw =>
    have hpending {r : FrameReader} (hnext : r.nextRaw.1 = some (.ok raw)) :
        raw.Fits r.maxBody ∧ r.pending = raw.encode ++ r.nextRaw.2.pending := by
      rcases r.nextRaw_cases with ⟨raw', hraw', hfits, hpending⟩ | ⟨hnone, -⟩
      · obtain rfl : raw = raw' := by simpa [hnext] using hraw'
        exact ⟨hfits, hpending⟩
      · exact absurd hnext (hnone raw)
    have hstep : ((s.facing r k).choices b.progress b.now)[0]? =
        some ((s.hearing b.progress raw).facing r.nextRaw.2 (k.onFrame b.now)) :=
      hfirst (by rw [Session.readFrame_facing, hnext])
    have hstep₂ : ((s.facing r₂ k₂).choices b.progress b.now)[0]? =
        some ((s.hearing b.progress raw).facing r₂.nextRaw.2 (k₂.onFrame b.now)) :=
      hfirst (by rw [Session.readFrame_facing, hnext₂])
    have hsame : k₂.interval = k.interval := hinterval.trans hpaced.interval
    have hwithin : (k.onFrame b.now).Within b.now (k₂.onFrame b.now) :=
      ⟨hsame, by simp [Keepalive.onFrame, hsame], Nat.le_refl _⟩
    refine ⟨_, _, _, _, _, _, hreads, matched_of_steps hphase hrun hscenes hstep hstep₂ hmute hmute₂
      (.inr hwithin) hreaders r.alike_nextRaw fun ended more more' h => ?_⟩
    obtain ⟨hfits, hfront⟩ := hpending hnext
    have hshow₂ := hskip _ _ _ h
    rw [hfront, (hpending hnext₂).2, List.append_assoc, List.append_assoc] at hshow₂
    exact (ShowAlike.cons hfits).mp hshow₂

lemma matched_of_aside (hphase : b.phase? i = some (.established s holder))
    (hstage : s.stage = .live []) {n : Nat} {step : Session.Step}
    (hstep : ((s.facing r k).choices b.progress b.now)[n]? = some step)
    (haside : (k.deadline ≤ b.now ∧ step = (s.pinging b.progress).facing r (k.onIdle b.now).1) ∨
      ∃ aside : Session.Step, aside ∈ s.asides b.progress ∧ step = aside.facing r k)
    (hmute : (b.facing i r k).isMute i ⟨.act (.reading i), n⟩ = false)
    (hpaced : k.Within b.now k') (halike : r.Alike r') :
    ∃ us b₁ r₁ r₁' k₁ k₁', (∀ u ∈ us, u.move.reads i = true) ∧
      Matched i b r r' k k' ⟨.act (.reading i), n⟩ us b₁ r₁ r₁' k₁ k₁' := by
  have hbehind {n' : Nat}
      (h : ((s.facing r' k').readFrame b.progress b.now).toList.length ≤ n') :
      (b.facing i r' k').isMute i ⟨.act (.reading i), n'⟩ = false := by
    rw [isMute_facing hphase]
    cases hr : r'.isGarbled with
    | false => rw [Bool.and_false]
    | true =>
      rw [length_frames_of_isGarbled hr] at h
      have hn : (n' == 0) = false := by simpa using Nat.ne_of_gt h
      rw [hn, Bool.false_and, Bool.false_and]
  rcases haside with ⟨hdue, rfl⟩ | ⟨aside, haside, rfl⟩
  · have hdue' : k'.deadline ≤ b.now := hpaced.deadline.trans hdue
    obtain ⟨n', hn', hstep'⟩ := Session.exists_choice_of_live (r := r') hstage (.inl ⟨hdue', rfl⟩)
    have hwithin : (k.onIdle b.now).1.Within b.now (k'.onIdle b.now).1 := by
      simp only [Keepalive.onIdle, if_neg (Nat.not_lt.mpr hdue), if_neg (Nat.not_lt.mpr hdue')]
      exact ⟨hpaced.interval, by rw [hpaced.interval], Nat.le_refl _⟩
    exact ⟨_, _, _, _, _, _, fun _ => reads_of_mem_reading,
      matched_of_step hphase hstep hstep' hmute (hbehind hn') (.inr hwithin) halike⟩
  · obtain ⟨n', hn', hstep'⟩ := Session.exists_choice_of_live (r := r') hstage
      (.inr ⟨aside, haside, rfl⟩)
    exact ⟨_, _, _, _, _, _, fun _ => reads_of_mem_reading,
      matched_of_step hphase hstep hstep' hmute (hbehind hn') (.inr hpaced) halike⟩

theorem matched_reading (hphase : b.phase? i = some (.established s holder)) (n : Nat)
    (hpaced : (s.stage = .leaving ∨ s.stage = .gone) ∨ k.Within b.now k') (halike : r.Alike r')
    (hshow : ShowAlike r.maxBody r.inbound.ended r.pending r'.pending) :
    ∃ us b₁ r₁ r₁' k₁ k₁', (∀ u ∈ us, u.move.reads i = true) ∧
      Matched i b r r' k k' ⟨.act (.reading i), n⟩ us b₁ r₁ r₁' k₁ k₁' := by
  cases hmute : (b.facing i r k).isMute i ⟨.act (.reading i), n⟩ with
  | true =>
    have hgarbled := hmute
    rw [isMute_facing hphase] at hgarbled
    simp only [Bool.and_eq_true, beq_iff_eq] at hgarbled
    obtain ⟨⟨rfl, hstage⟩, hr⟩ := hgarbled
    have hwithin : k.Within b.now k' := hpaced.resolve_left (by simp [hstage])
    obtain ⟨raw, hfits, hlegible, hpending⟩ := FrameReader.pending_of_isGarbled hr
    refine ⟨[], b, r.nextRaw.2, r', k.onFrame b.now, k', by simp,
      (play_of_isGarbled hphase hstage hr).2, rfl, ?_, ?_, r.alike_nextRaw.symm.trans halike,
      r.alike_nextRaw, fun ended more more' h => ?_⟩
    · simp [scenes, hmute]
    · refine .inr ⟨s, holder, hphase, .inr ⟨hwithin.interval, ?_, hwithin.timely⟩⟩
      exact hwithin.timely.trans (by rw [hwithin.interval]; exact Nat.le_refl _)
    · rw [hpending, List.append_assoc] at h
      exact (ShowAlike.skip hfits hlegible).mp h
  | false =>
    cases hstep : ((s.facing r k).choices b.progress b.now)[n]? with
    | none =>
      have hkept : b.Paced i k k' := .inr ⟨s, holder, hphase, hpaced⟩
      obtain ⟨n', hmatched⟩ := matched_of_none hphase hstep hmute hkept halike
      exact ⟨_, _, _, _, _, _, fun _ => reads_of_mem_reading, hmatched⟩
    | some step =>
      by_cases hstage : s.stage = .live []
      · have hwithin : k.Within b.now k' := hpaced.resolve_left (by simp [hstage])
        rcases Session.choice_of_live hstage hstep with ⟨rfl, answer, hnext⟩ | haside
        · have hclear : r.isGarbled = false := by
            rw [isMute_facing hphase, hstage] at hmute
            simpa using hmute
          exact matched_of_frame hphase hstage hclear hnext hwithin halike hshow
        · exact matched_of_aside hphase hstage hstep haside hmute hwithin halike
      · have hother (r : FrameReader) (k : Keepalive) :
            ((s.facing r k).choices b.progress b.now)[n]? =
              ((s.choices b.progress b.now)[n]?).map (Session.Step.facing r k) := by
          rw [Session.choices_facing r k hstage, List.getElem?_map]
        obtain ⟨step₀, hstep₀, rfl⟩ := Option.map_eq_some_iff.mp ((hother r k).symm.trans hstep)
        have hstep' : ((s.facing r' k').choices b.progress b.now)[n]? =
            some (step₀.facing r' k') := by
          rw [hother, hstep₀, Option.map_some]
        have hmute' : (b.facing i r' k').isMute i ⟨.act (.reading i), n⟩ = false := by
          rw [isMute_facing hphase]
          simp [hstage]
        have hover (h : s.stage = .leaving ∨ s.stage = .gone) :
            step₀.session.stage = .leaving ∨ step₀.session.stage = .gone := by
          obtain ⟨-, -, stage, backlog, channel, heq, hstage⟩ :=
            (Session.heard_of_mem_choices (List.mem_of_getElem? hstep₀)).of_ended h
          exact heq ▸ hstage
        exact ⟨_, _, _, _, _, _, fun _ => reads_of_mem_reading,
          matched_of_step hphase hstep hstep' hmute hmute' (hpaced.imp_left hover) halike⟩

/-! ## The other turns -/

lemma failed_play (hfailed : b.phase? i = some .failed) (t : Turn) :
    (b.play t).phase? i = some .failed := by
  have hmoved := b.phaseMoved_play t i
  rw [hfailed] at hmoved
  generalize (b.play t).phase? i = new at hmoved ⊢
  generalize b.taken? i t.move = taken at hmoved
  generalize t.move = m at hmoved
  cases hmoved with
  | same => rfl

lemma Paced.play (h : b.Paced i k k') (t : Turn) : (b.play t).Paced i k k' := by
  rcases h with hfailed | ⟨s, holder, hphase, hpaced⟩
  · exact .inl (failed_play hfailed t)
  have hmoved := b.phaseMoved_play t i
  unfold Paced
  have hpaced' : (s.stage = .leaving ∨ s.stage = .gone) ∨ k.Within (b.play t).now k' :=
    hpaced.imp_right (·.later (b.now_le_play t))
  rw [hphase] at hmoved
  generalize (b.play t).phase? i = new at hmoved ⊢
  generalize b.taken? i t.move = taken at hmoved
  generalize t.move = m at hmoved
  cases hmoved with
  | same => exact .inr ⟨s, holder, rfl, hpaced'⟩
  | failed _ _ hfailed => exact .inl rfl
  | ready _ s' _ hready =>
    obtain ⟨hstage, rfl⟩ := Session.startup_ready hready
    exact .inr ⟨_, holder, rfl, .inr (hpaced'.resolve_left (by simp [hstage]))⟩
  | going _ s' _ hgoing =>
    obtain ⟨m, requests, outbox, hstage, -⟩ := Session.startup_going hgoing
    exact .inr ⟨_, holder, rfl, .inr (hpaced'.resolve_left (by simp [hstage]))⟩
  | wrote _ s' _ notes hwrite =>
    have hstage := (Session.written_of_write? hwrite).stage
    exact .inr ⟨_, holder, rfl, hstage ▸ hpaced'⟩
  | read _ step _ hstep =>
    refine .inr ⟨_, holder, rfl, hpaced'.imp_left fun hover => ?_⟩
    obtain ⟨-, -, stage, backlog, channel, heq, hstage⟩ :=
      (Session.heard_of_mem_choices hstep).of_ended hover
    exact heq ▸ hstage
  | took _ s' b ev hstash htake =>
    obtain ⟨items, -, rfl⟩ := Session.takeEvent?_cases htake
    exact .inr ⟨_, _, rfl, hpaced'⟩
  | passed id _ s' b b' w w' ev htake hstep =>
    obtain ⟨items, -, rfl⟩ := Session.takeEvent?_cases htake
    exact .inr ⟨_, _, rfl, hpaced'⟩
  | found id _ s' b b' w ev result tried htake hstep =>
    obtain ⟨items, -, rfl⟩ := Session.takeEvent?_cases htake
    exact .inr ⟨_, _, rfl, hpaced'⟩
  | _ => exact .inr ⟨_, _, rfl, hpaced'⟩

/-- What becomes of a keepalive when its session goes on towards being ready. -/
def startedUp (s : Session) (now : Nat) (k : Keepalive) : Keepalive :=
  if s.stage = .starting [] then .start k.interval now else k

lemma paced_startedUp (hphase : b.phase? i = some (.established s holder))
    (hpaced : (s.stage = .leaving ∨ s.stage = .gone) ∨ k.Within b.now k') (t : Turn) :
    (b.play t).Paced i (startedUp s b.now k) (startedUp s b.now k') := by
  have hplayed := Paced.play (.inr ⟨s, holder, hphase, hpaced⟩) t
  unfold startedUp
  by_cases hstage : s.stage = .starting []
  · have hwithin : k.Within b.now k' := hpaced.resolve_left (by simp [hstage])
    rw [if_pos hstage, if_pos hstage]
    refine hplayed.imp_right fun ⟨s', holder', hphase', _⟩ => ⟨s', holder', hphase', .inr ?_⟩
    exact ⟨hwithin.interval, by simp [Keepalive.start, hwithin.interval],
      Nat.add_le_add_right (b.now_le_play t) _⟩
  · rwa [if_neg hstage, if_neg hstage]

lemma startup_facing (hphase : b.phase? i = some (.established s holder)) (n : Nat) :
    (b.facing i r k).play ⟨.act (.connecting i), n⟩ =
      (b.play ⟨.act (.connecting i), n⟩).facing i r (startedUp s b.now k) := by
  obtain ⟨id, hconnection⟩ : ∃ id, b.connections[i]? = some ⟨id, .established s holder⟩ := by
    unfold phase? at hphase
    obtain ⟨⟨id, phase⟩, hn, rfl⟩ := Option.map_eq_some_iff.mp hphase
    exact ⟨id, hn⟩
  have hconnection' : (b.facing i r k).connections[i]? =
      some ⟨id, .established (s.facing r k) holder⟩ := by
    simp [facing, hconnection, Phase.facing]
  have hleft : (b.facing i r k).play ⟨.act (.connecting i), n⟩ =
      ((b.facing i r k).startup? i id (s.facing r k) holder).getD (b.facing i r k) := by
    simp [play, move, act?, hconnection']
  have hright : b.play ⟨.act (.connecting i), n⟩ = (b.startup? i id s holder).getD b := by
    simp [play, move, act?, hconnection]
  have hset (session : Session) (c : Client) : (c.facing i r k).setPhase i
      (.established (session.facing r (startedUp s b.now k)) holder) =
      (c.setPhase i (.established session holder)).facing i r (startedUp s b.now k) := by
    rw [facing_setPhase, setPhase_facing, setPhase_facing, Phase.seen_established, Session.seen,
      if_pos rfl]
  have hstage' : (s.facing r k).stage = s.stage := rfl
  rw [hleft, hright]
  unfold startup? Session.startup
  rw [hstage']
  cases hstage : s.stage with
  | live _ | leaving | gone => simp [startedUp, hstage]
  | starting requests =>
    cases requests with
    | nil =>
      have hstarted : startedUp s b.now k = .start k.interval b.now := by simp [startedUp, hstage]
      rw [hstarted] at hset ⊢
      simp only [Option.getD_some, facing_finish]
      exact congrArg (fun c : Client => finish { c with state := .ready } id (.connected i))
        (hset { s with stage := .live [], keepalive := .start s.keepalive.interval b.now } b)
    | cons m requests =>
      have hstarted : startedUp s b.now k = k := by simp [startedUp, hstage]
      have houtbox : (s.facing r k).outbox = s.outbox := rfl
      rw [hstarted] at hset ⊢
      simp only [houtbox]
      cases s.outbox.offer .startup { message := m } with
      | taken outbox => exact hset { s with outbox, stage := .starting requests } b
      | lined outbox => exact hset { s with outbox, stage := .starting (m :: requests) } b
      | stuck => rfl
      | closed => exact (facing_connectFailed i r k b i id .connectionClosed).symm

lemma happen_facing (hpaced : b.Paced i k k') (r : FrameReader) (k₁ : Keepalive) (e : LinkEvent) :
    (b.facing i r k₁).happen i e = (b.happen i e.emptied).facing i (r.happen e) k₁ := by
  unfold happen
  rw [phase?_facing]
  rcases hpaced with hfailed | ⟨s, holder, hphase, -⟩
  · simp only [hfailed, Option.map_some, Phase.seen_failed, facing_of_failed hfailed]
  · simp only [hphase, Option.map_some, Phase.seen_established, Session.seen, if_pos]
    rw [facing_setPhase, setPhase_facing, setPhase_facing, Phase.seen_established, Session.seen,
      if_pos rfl]
    cases e <;> rfl

lemma hears?_of_not_reads (c : Client) (h : t.move.reads i = false) : c.hears? i t = none := by
  unfold hears?
  split
  · rename_i j s holder hmove hphase
    rw [hmove] at h
    rw [if_neg (by simpa [Move.reads] using h)]
  · rfl

lemma matched_of_play (hreads : t.move.reads i = false)
    (hleft : (b.facing i r k).play t = b₁.facing i r k₁)
    (hright : (b.facing i r' k').play t = b₁.facing i r' k₁') (hpaced : b₁.Paced i k₁ k₁')
    (halike : r.Alike r') : Matched i b r r' k k' t [t] b₁ r r' k₁ k₁' := by
  refine ⟨hleft, hright, ?_, hpaced, halike, ⟨rfl, rfl, rfl⟩, fun _ _ _ h => h⟩
  rw [scenes_singleton (isMute_of_not_reads _ hreads),
    scenes_singleton (isMute_of_not_reads _ hreads)]
  refine congrArg (fun scene => [scene]) (scene_congr rfl ?_ hright hleft)
  rw [hears?_of_not_reads _ hreads, hears?_of_not_reads _ hreads]

/-- A turn in which nothing happens to the link of the connection. -/
theorem matched_turn (ht : ∀ e, t.move ≠ .happen i e) (hpaced : b.Paced i k k')
    (halike : r.Alike r') (hshow : ShowAlike r.maxBody r.inbound.ended r.pending r'.pending) :
    ∃ us b₁ r₁ r₁' k₁ k₁',
      us.filter (fun u => !u.move.reads i) = [t].filter (fun u => !u.move.reads i) ∧
      Matched i b r r' k k' t us b₁ r₁ r₁' k₁ k₁' := by
  rcases hpaced with hfailed | ⟨s, holder, hphase, hpaced⟩
  · have hplay (r : FrameReader) (k : Keepalive) :
        (b.facing i r k).play t = (b.play t).facing i r k := by
      rw [facing_of_failed hfailed, facing_of_failed (failed_play hfailed t)]
    refine ⟨[t], b.play t, r, r', k, k', rfl, hplay r k, hplay r' k', ?_,
      .inl (failed_play hfailed t), halike, ⟨rfl, rfl, rfl⟩, fun _ _ _ h => h⟩
    rw [facing_of_failed hfailed, facing_of_failed hfailed]
  obtain ⟨m, n⟩ := t
  by_cases hreading : m = .act (.reading i)
  · subst hreading
    obtain ⟨us, b₁, r₁, r₁', k₁, k₁', hus, hmatched⟩ :=
      matched_reading hphase n hpaced halike hshow
    refine ⟨us, b₁, r₁, r₁', k₁, k₁', ?_, hmatched⟩
    have hnone : us.filter (fun u => !u.move.reads i) = [] := by
      simpa using fun u hu => hus u hu
    rw [hnone]
    simp [Move.reads]
  · have hreads : m.reads i = false := by
      cases m with
      | act a => cases a <;> simp_all [Move.reads]
      | _ => rfl
    by_cases hconnecting : m = .act (.connecting i)
    · subst hconnecting
      exact ⟨_, _, _, _, _, _, rfl, matched_of_play hreads (startup_facing hphase n)
        (startup_facing hphase n) (paced_startedUp hphase hpaced _) halike⟩
    · have htouches : m.touches i = false := by
        cases m with
        | act a => cases a <;> simp_all [Move.reads, Move.touches]
        | happen j e => simpa [Move.touches] using fun hj => ht e (by rw [hj])
        | _ => rfl
      exact ⟨_, _, _, _, _, _, rfl, matched_of_play hreads (facing_play i r k b htouches)
        (facing_play i r' k' b htouches) (Paced.play (.inr ⟨s, holder, hphase, hpaced⟩) _) halike⟩

/-! ## Courses -/

/-- Two courses of turns in which the same is done, but for the octets that come up on a connection.
At all times those that have come up show alike. -/
inductive ShowAlong (i maxBody : Nat) : Bool → Bytes → Bytes → List Turn → List Turn → Prop
  | nil {ended : Bool} {bs bs' : Bytes} (h : ShowAlike maxBody ended bs bs') :
    ShowAlong i maxBody ended bs bs' [] []
  | turn {ended : Bool} {bs bs' : Bytes} {ts vs : List Turn} (t : Turn)
    (ht : ∀ e, t.move ≠ .happen i e) (h : ShowAlike maxBody ended bs bs')
    (hrest : ShowAlong i maxBody ended bs bs' ts vs) :
    ShowAlong i maxBody ended bs bs' (t :: ts) (t :: vs)
  | event {ended : Bool} {bs bs' : Bytes} {ts vs : List Turn} (e e' : LinkEvent) (n : Nat)
    (he : e.emptied = e'.emptied) (h : ShowAlike maxBody ended bs bs')
    (hrest : ShowAlong i maxBody (ended || e.ends) (bs ++ e.octets) (bs' ++ e'.octets) ts vs) :
    ShowAlong i maxBody ended bs bs' (⟨.happen i e, n⟩ :: ts) (⟨.happen i e', n⟩ :: vs)

section Courses
variable {maxBody : Nat} {ended : Bool} {bs bs' : Bytes} {ts vs : List Turn}

lemma ShowAlong.now (h : ShowAlong i maxBody ended bs bs' ts vs) :
    ShowAlike maxBody ended bs bs' := by
  cases h <;> assumption

lemma ShowAlong.congr {b b' : Bytes} (h : ShowAlong i maxBody ended bs bs' ts vs)
    (hshows : ∀ ended more more', ShowAlike maxBody ended (bs ++ more) (bs' ++ more') →
      ShowAlike maxBody ended (b ++ more) (b' ++ more')) :
    ShowAlong i maxBody ended b b' ts vs := by
  have hnow {ended : Bool} {bs bs' b b' : Bytes} (h : ShowAlike maxBody ended bs bs')
      (hshows : ∀ ended more more', ShowAlike maxBody ended (bs ++ more) (bs' ++ more') →
        ShowAlike maxBody ended (b ++ more) (b' ++ more')) : ShowAlike maxBody ended b b' := by
    simpa using hshows ended [] [] (by simpa using h)
  induction h generalizing b b' with
  | nil h => exact .nil (hnow h hshows)
  | turn t ht h hrest ih => exact .turn t ht (hnow h hshows) (ih hshows)
  | event e e' n he h hrest ih =>
    refine .event e e' n he (hnow h hshows) (ih fun ended more more' hmore => ?_)
    rw [List.append_assoc, List.append_assoc] at hmore ⊢
    exact hshows ended _ _ hmore

lemma ShowAlong.of_showAlike (h : ShowAlike maxBody ended bs bs')
    (hts : ∀ t ∈ ts, ∀ e, t.move ≠ .happen i e) : ShowAlong i maxBody ended bs bs' ts ts := by
  induction ts with
  | nil => exact .nil h
  | cons t ts ih =>
    exact .turn t (hts t List.mem_cons_self) h
      (ih fun t' ht' => hts t' (List.mem_cons_of_mem _ ht'))

/-- For every course on one reader there is a course on the other one in which the same is seen. -/
theorem exists_course {b : Client} {r r' : FrameReader} {k k' : Keepalive}
    (hpaced : b.Paced i k k') (halike : r.Alike r')
    (h : ShowAlong i r.maxBody r.inbound.ended r.pending r'.pending ts vs) :
    ∃ (us : List Turn) (b₁ : Client) (r₁ r₁' : FrameReader) (k₁ k₁' : Keepalive),
      us.filter (fun u => !u.move.reads i) = vs.filter (fun u => !u.move.reads i) ∧
      (b.facing i r k).playAll ts = b₁.facing i r₁ k₁ ∧
      (b.facing i r' k').playAll us = b₁.facing i r₁' k₁' ∧
      scenes i (b.facing i r' k') us = scenes i (b.facing i r k) ts := by
  induction ts generalizing b r r' k k' vs with
  | nil =>
    cases h with
    | nil h => exact ⟨[], b, r, r', k, k', rfl, rfl, rfl, rfl⟩
  | cons t ts ih =>
    cases h with
    | turn _ ht h hrest =>
      obtain ⟨us, b₁, r₁, r₁', k₁, k₁', hus, hmatched⟩ := matched_turn ht hpaced halike h
      have hrest' := hrest.congr hmatched.shows
      rw [← hmatched.kept.bound, ← hmatched.kept.ended] at hrest'
      obtain ⟨us', b₂, r₂, r₂', k₂, k₂', hus', hleft, hright, hscenes⟩ :=
        ih hmatched.paced hmatched.alike hrest'
      refine ⟨us ++ us', b₂, r₂, r₂', k₂, k₂', ?_, ?_, ?_, ?_⟩
      · rw [List.filter_append, hus, hus', ← List.filter_append]
        rfl
      · rw [← hleft, ← hmatched.left]
        rfl
      · rw [playAll_append, hmatched.right, hright]
      · rw [scenes_append, hmatched.scenes, hmatched.right, hscenes, ← hmatched.left]
        exact (scenes_append i _ [t] ts).symm
    | @event _ _ _ _ vs e e' n he h hrest =>
      have hleft : (b.facing i r k).play ⟨.happen i e, n⟩ =
          (b.happen i e.emptied).facing i (r.happen e) k := happen_facing hpaced r k e
      have hright : (b.facing i r' k').play ⟨.happen i e', n⟩ =
          (b.happen i e.emptied).facing i (r'.happen e') k' := he ▸ happen_facing hpaced r' k' e'
      have hrest' : ShowAlong i (r.happen e).maxBody (r.happen e).inbound.ended
          (r.happen e).pending (r'.happen e').pending ts vs := by
        rw [FrameReader.maxBody_happen, FrameReader.ended_happen, FrameReader.pending_happen,
          FrameReader.pending_happen]
        exact hrest
      obtain ⟨us, b₁, r₁, r₁', k₁, k₁', hus, hts, hrun, hscenes⟩ :=
        ih (hpaced.play ⟨.happen i e.emptied, n⟩) (halike.happen he) hrest'
      refine ⟨⟨.happen i e', n⟩ :: us, b₁, r₁, r₁', k₁, k₁', ?_, ?_, ?_, ?_⟩
      · simp only [List.filter_cons, hus]
      · rw [← hts]
        exact congrArg (playAll · ts) hleft
      · rw [← hrun]
        exact congrArg (playAll · us) hright
      · have hscene := scene_congr (t := ⟨.happen i e', n⟩) (u := ⟨.happen i e, n⟩) (i := i)
          (by simp [Move.emptied, he]) (by simp [hears?]) hright hleft
        have hmute (e : LinkEvent) (c : Client) : ¬ c.isMute i ⟨.happen i e, n⟩ = true := by
          rw [isMute_of_not_reads c rfl]
          simp
        rw [scenes, scenes, if_neg (hmute e' _), if_neg (hmute e _), hscene, hleft, hright]
        exact congrArg _ hscenes

end Courses

/-! ## What is told and queued -/

/-- A turn in which an illegible frame is taken changes nothing but the reader and the keepalive,
and tells nothing. -/
theorem play_of_isMute {c : Client} (h : c.isMute i t = true) :
    (∃ r k, c.play t = c.facing i r k) ∧
      ((c.hears? i t).bind fun (s, step) => s.emits? c.progress step) = none := by
  have hmute := h
  unfold isMute at h
  split at h
  · rename_i s holder hphase
    simp only [Bool.and_eq_true, beq_iff_eq] at h
    obtain ⟨⟨⟨hreads, hchoice⟩, hstage⟩, hgarbled⟩ := h
    obtain ⟨m, n⟩ := t
    obtain rfl : n = 0 := hchoice
    obtain rfl : m = .act (.reading i) := by
      unfold Move.reads at hreads
      split at hreads
      · rename_i j hmove
        obtain rfl : j = i := of_decide_eq_true hreads
        exact hmove
      · cases hreads
    refine ⟨⟨s.link.reader.nextRaw.2, s.keepalive.onFrame c.now, ?_⟩, ?_⟩
    · have hplay := (play_of_isGarbled (k := s.keepalive) hphase hstage hgarbled).2
      rwa [facing_reader hphase] at hplay
    · simp [hears?, hphase, Session.emits?, hstage]
  · cases h

lemma told_ofTurns (i : Nat) (c : Client) (ts : List Turn) :
    (Feed.ofTurns i c ts).told = (scenes i c ts).flatMap (·.event.toList) := by
  induction ts using List.reverseRecOn with
  | nil => rfl
  | append_singleton ts t ih =>
    rw [Feed.ofTurns_concat, scenes_append, List.flatMap_append, ← ih]
    refine congrArg ((Feed.ofTurns i c ts).told ++ ·) ?_
    rw [Feed.client_ofTurns]
    cases hmute : (c.playAll ts).isMute i t with
    | true => simp [scenes, hmute, (play_of_isMute hmute).2]
    | false => simp [scenes_singleton hmute, scene]

lemma queued_ofTurns (i : Nat) (c : Client) (ts : List Turn) (j : Nat) :
    (Journal.ofTurns c ts).queued j = (scenes i c ts).flatMap (·.queued j) := by
  induction ts using List.reverseRecOn with
  | nil => rfl
  | append_singleton ts t ih =>
    rw [Journal.ofTurns_concat, Journal.queued_play, scenes_append, List.flatMap_append, ← ih]
    refine congrArg ((Journal.ofTurns c ts).queued j ++ ·) ?_
    rw [Journal.client_ofTurns]
    cases hmute : (c.playAll ts).isMute i t with
    | true =>
      obtain ⟨⟨r, k, hplay⟩, -⟩ := play_of_isMute hmute
      rw [hplay, newly, aheadOf_facing]
      simp [scenes, hmute]
    | false => simp [scenes_singleton hmute, scene]

end Turns

/-- Two courses in which the same is seen: turn by turn, apart from those in which illegible frames
are taken, and in what they come to. -/
structure Mirrored (i : Nat) (c : Client) (ts : List Turn) (d : Client) (us : List Turn) :
    Prop where
  scenes : scenes i d us = scenes i c ts
  queued : (Journal.ofTurns d us).queued = (Journal.ofTurns c ts).queued
  told : (Feed.ofTurns i d us).told = (Feed.ofTurns i c ts).told
  client : ∃ r k, d.playAll us = (c.playAll ts).facing i r k

/-- A session cannot tell whether illegible frames stand between the others. Whatever is done with a
client on whose connection some octets come up, all of it can be done, and comes to the same, where
other octets come up that show alike, but for the turns in which illegible frames are taken. -/
theorem mirrored {config : Config} {store : CursorStore} {tokens : List (Except Error String)}
    {c : Client} (hnew : Client.new config store tokens = .ok c) (past : List Turn) {i : Nat}
    {s : Session} {holder : Holder}
    (hphase : (c.playAll past).phase? i = some (.established s holder))
    (buffer waiting buffer' waiting' : Bytes) {ts vs : List Turn}
    (hshow : ShowAlong i s.link.reader.maxBody s.link.reader.inbound.ended (buffer ++ waiting)
      (buffer' ++ waiting') ts vs) :
    ∃ us, us.filter (fun u => !u.move.reads i) = vs.filter (fun u => !u.move.reads i) ∧
      Mirrored i ((c.playAll past).facing i (s.link.reader.holding buffer waiting) s.keepalive) ts
        ((c.playAll past).facing i (s.link.reader.holding buffer' waiting') s.keepalive) us := by
  have hwithin : s.keepalive.Within (c.playAll past).now s.keepalive :=
    ⟨rfl, Nat.le_refl _, timely_playAll hnew past i s holder hphase⟩
  have hpaced : (c.playAll past).Paced i s.keepalive s.keepalive :=
    .inr ⟨s, holder, hphase, .inr hwithin⟩
  have halike : (s.link.reader.holding buffer waiting).Alike
      (s.link.reader.holding buffer' waiting') := ⟨rfl, rfl, rfl⟩
  obtain ⟨us, b, r, r', k, k', hus, hts, hrun, hscenes⟩ := exists_course hpaced halike hshow
  refine ⟨us, hus, hscenes, funext fun j => ?_, ?_, r', k', ?_⟩
  · rw [queued_ofTurns i, queued_ofTurns i, hscenes]
  · rw [told_ofTurns, told_ofTurns, hscenes]
  · rw [hts, hrun, facing_facing]

/-- A window that begins, with one octet of its cursor. -/
def garbled : RawFrame := ⟨⟨1, 9, (Command.sync .opened false).code, 2, 0, 0⟩, [0]⟩

/-- A window that begins. -/
def opening : RawFrame := ⟨⟨8, 7, (Command.sync .opened false).code, 2, 0, 0⟩, List.replicate 8 0⟩

/-- The server has something for a group that the client has not heard of. -/
def announcing : RawFrame :=
  ⟨⟨16, 8, (Command.sync .notify true).code, 2, 0, 0⟩,
    [0, 0, 0, 0, 0, 0, 0, 7, 0, 0, 0, 0, 0, 0, 0, 5]⟩

/-- Some octets come up and then some more, and the reading and the writing side go on. -/
def bringing (first second : Bytes) : List Turn :=
  .first (.happen 0 (.arrive first)) :: .first (.act (.reading 0)) ::
    .first (.happen 0 (.arrive second)) ::
      firsts (List.replicate 6 (.act (.reading 0)) ++ List.replicate 4 (.act (.writing 0)))

/-- Two frames come up at once. -/
def uninterrupted : List Turn := bringing [] (wireForm [opening, announcing])

/-- They come up behind an illegible frame that itself comes up in two pieces, and with one between
them. -/
def interrupted : List Turn :=
  bringing (garbled.encode.take 5)
    (garbled.encode.drop 5 ++ (wireForm [opening] ++ wireForm [garbled] ++ wireForm [announcing]))

lemma showAlong_interrupted : ShowAlong 0 32768 false [] [] uninterrupted interrupted := by
  have hlegible : garbled.isLegible = false := by decide +kernel
  have hfits : garbled.Fits 32768 := by simp [RawFrame.Fits, garbled]
  have hpart : ShowAlike 32768 false ([] ++ []) ([] ++ garbled.encode.take 5) :=
    (ShowAlike.of_unfinished hfits (List.take_append_drop 5 _).symm (by decide +kernel)).symm
  have hbetween : ShowAlike 32768 false (wireForm [opening, announcing])
      (wireForm [opening] ++ wireForm [garbled] ++ wireForm [announcing]) := by
    have hfront : ∀ raw ∈ [opening], raw.Fits 32768 := by simp [RawFrame.Fits, opening]
    have hbad : ∀ raw ∈ [garbled], raw.Fits 32768 ∧ raw.isLegible = false := by
      simp [hfits, hlegible]
    exact (ShowAlike.of_inserted hfront hbad false (wireForm [announcing])).symm
  have hwhole : ShowAlike 32768 false (wireForm [opening, announcing])
      (garbled.encode.take 5 ++ (garbled.encode.drop 5 ++
        (wireForm [opening] ++ wireForm [garbled] ++ wireForm [announcing]))) := by
    rw [← List.append_assoc, List.take_append_drop]
    exact (ShowAlike.skip_right hfits hlegible).mpr hbetween
  refine .event _ _ 0 rfl (.refl ..) (.turn _ (by simp [Turn.first]) hpart
    (.event _ _ 0 rfl hpart (.of_showAlike hwhole ?_)))
  simp [firsts, Turn.first]

theorem mirrored_of_garbled : Client.new .least (.memory .zero) [] = .ok .least ∧
    garbled.isLegible = false ∧ ∃ s holder,
      (least.playAll (firsts introducing)).phase? 0 = some (.established s holder) ∧
      ShowAlong 0 s.link.reader.maxBody s.link.reader.inbound.ended ([] ++ []) ([] ++ [])
        uninterrupted interrupted ∧
      (Feed.ofTurns 0 ((least.playAll (firsts introducing)).facing 0
        (s.link.reader.holding [] []) s.keepalive) uninterrupted).told = [.syncBegin .direct] ∧
      (Journal.ofTurns ((least.playAll (firsts introducing)).facing 0
        (s.link.reader.holding [] []) s.keepalive) uninterrupted).queued 0 =
          [{ message := .sync .request ⟨.group 7, 0⟩ }] ∧
      ∃ us, us.filter (fun u => !u.move.reads 0) = interrupted.filter (fun u => !u.move.reads 0) ∧
        Mirrored 0
          ((least.playAll (firsts introducing)).facing 0 (s.link.reader.holding [] []) s.keepalive)
          uninterrupted
          ((least.playAll (firsts introducing)).facing 0 (s.link.reader.holding [] []) s.keepalive)
          us := by
  have hfound : ((least.playAll (firsts introducing)).handle? 0).map (fun found =>
      (found.1.link.reader.maxBody, found.1.link.reader.inbound.ended,
        (Feed.ofTurns 0 ((least.playAll (firsts introducing)).facing 0
          (found.1.link.reader.holding [] []) found.1.keepalive) uninterrupted).told,
        (Journal.ofTurns ((least.playAll (firsts introducing)).facing 0
          (found.1.link.reader.holding [] []) found.1.keepalive) uninterrupted).queued 0)) =
      some (32768, false, [.syncBegin .direct], [{ message := .sync .request ⟨.group 7, 0⟩ }]) := by
    decide +kernel
  obtain ⟨⟨s, holder⟩, hhandle, hseen⟩ := Option.map_eq_some_iff.mp hfound
  obtain ⟨hbound, hended, htold, hqueued⟩ : _ ∧ _ ∧ _ ∧ _ := by simpa using hseen
  have hphase := handle?_eq_some hhandle
  have hshow : ShowAlong 0 s.link.reader.maxBody s.link.reader.inbound.ended ([] ++ [])
      ([] ++ []) uninterrupted interrupted := by
    rw [hbound, hended]
    exact showAlong_interrupted
  exact ⟨new_least, by decide +kernel, s, holder, hphase, hshow, htold, hqueued,
    mirrored new_least (firsts introducing) hphase [] [] [] [] hshow⟩

/-- All parts of the client go on at once whatever is done. -/
def promptly (c : Client) (ms : List Move) : Client := ms.foldl (fun c m => (c.move m).settle) c

/-- A server that is silent for a minute, but for some octets in the middle. Then a receipt is asked
for. -/
def silentBut (bs : Bytes) : List Move :=
  [.connect "a", .happen 0 (.arrive [0, 0, 0, 4, 0, 0, 0, 1, 3, 2, 0, 0, 0, 0, 0, 0]), .pass 30000,
    .happen 0 (.arrive bs), .pass 30000, .send 0 "b" .receipt (.signal .heartbeat) 0]

/-- An illegible frame is a sign of life: the next ping comes later, and the message asked about
gets the number that the ping would have had. -/
theorem alive_by_garbled : garbled.isLegible = false ∧
    ((least.promptly (silentBut [])).handle? 0).map (·.1.tracker.entries) = some [(4, 0)] ∧
    ((least.promptly (silentBut garbled.encode)).handle? 0).map (·.1.tracker.entries) =
      some [(3, 0)] := by
  refine ⟨?_, ?_, ?_⟩ <;> decide +kernel

end Client

end Parley
