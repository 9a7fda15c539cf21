import Mathlib.Data.List.Basic
import Mathlib.Data.List.Induction
import Parley.Proofs.Client.Phases
import Parley.Proofs.Session.Waits

/-!
# Waits in a run of a client

A run takes events out of the channel of a connection, by `recv` and by the waits on it. An inbox
follows the windows through all of them, and a running wait knows those taken since it began; so
what it finds is released.
-/

namespace Parley

namespace Wait

lemma start_going {pred : Frame → Bool} {b b' : Inbox} {w : Wait}
    (h : Wait.start pred b = (b', .going w)) : b' = b ∧ ∃ tried, w = { pred, tried } := by
  unfold start at h
  split at h
  · cases h
  · cases h
    exact ⟨rfl, _, rfl⟩

lemma windows_start (pred : Frame → Bool) (b : Inbox) :
    (Wait.start pred b).1.windows = b.windows := by
  unfold start
  split <;> rfl

end Wait

lemma Inbox.windows_pop? {b b' : Inbox} {ev : Event} (h : b.pop? = some (ev, b')) :
    b'.windows = b.windows := by
  unfold pop? at h
  split at h
  · cases h
  · cases h
    rfl

namespace Client

def takenBy (i : Nat) : Client → List Turn → List Event
  | _, [] => []
  | c, t :: ts => (c.taken? i t.move).toList ++ takenBy i (c.play t) ts

variable {c : Client} {i n : Nat} {ts : List Turn} {m : Move}

lemma takenBy_append (i : Nat) (c : Client) (ts ts' : List Turn) :
    takenBy i c (ts ++ ts') = takenBy i c ts ++ takenBy i (c.playAll ts) ts' := by
  induction ts generalizing c with
  | nil => rfl
  | cons t ts ih =>
    rw [List.cons_append, takenBy, ih, takenBy, List.append_assoc]
    rfl

lemma takenBy_concat (i : Nat) (c : Client) (ts : List Turn) (m : Move) (n : Nat) :
    takenBy i c (ts ++ [⟨m, n⟩]) = takenBy i c ts ++ ((c.playAll ts).taken? i m).toList := by
  rw [takenBy_append, takenBy, takenBy, List.append_nil]

/-- A wait of a name for a condition began in a run, between the events taken earlier and those
since. -/
def Began (c : Client) (i : Nat) (id : String) (ts : List Turn) (pred : Frame → Bool)
    (earlier since : List Event) : Prop :=
  ∃ before n after s b, ts = before ++ ⟨.waitFor i id pred, n⟩ :: after ∧
    (c.playAll before).inbox? i = some (s, b) ∧ earlier = takenBy i c before ∧
    since = takenBy i (c.playAll (before ++ [⟨.waitFor i id pred, n⟩])) after

section Began
variable {id : String} {pred : Frame → Bool} {earlier since : List Event}

lemma began_concat {s : Session} {b : Inbox}
    (hinbox : (c.playAll ts).inbox? i = some (s, b)) :
    Began c i id (ts ++ [⟨.waitFor i id pred, n⟩]) pred (takenBy i c ts) [] :=
  ⟨ts, n, [], s, b, rfl, hinbox, rfl, rfl⟩

lemma Began.concat (h : Began c i id ts pred earlier since) (m : Move) (n : Nat) :
    Began c i id (ts ++ [⟨m, n⟩]) pred earlier (since ++ ((c.playAll ts).taken? i m).toList) := by
  obtain ⟨before, n', after, s, b, rfl, hinbox, rfl, rfl⟩ := h
  refine ⟨before, n', after ++ [⟨m, n⟩], s, b, by simp, hinbox, rfl, ?_⟩
  rw [takenBy_concat, ← playAll_append, List.append_assoc]
  rfl

lemma Began.taken (h : Began c i id ts pred earlier since) : takenBy i c ts = earlier ++ since := by
  obtain ⟨before, n, after, s, b, rfl, -, rfl, rfl⟩ := h
  rw [List.append_cons, takenBy_append, takenBy_concat]
  exact congrArg (· ++ _) (List.append_nil _)

end Began

/-- Who has the events of a connection has followed those that a run has taken. -/
def HeldFollows (c : Client) (i : Nat) (ts : List Turn) : Holder → Prop
  | .free b => b.Follows (takenBy i c ts)
  | .waiting id b w =>
    b.Follows (takenBy i c ts) ∧
      ∃ earlier since, Began c i id ts w.pred earlier since ∧ w.Knows earlier since
  | _ => True

def Follows (c : Client) (i : Nat) (ts : List Turn) : Option Phase → Prop
  | none | some (.greeting ..) => takenBy i c ts = []
  | some (.established _ holder) => c.HeldFollows i ts holder
  | some .failed => True

lemma takenBy_concat_none (htaken : (c.playAll ts).taken? i m = none) (n : Nat) :
    takenBy i c (ts ++ [⟨m, n⟩]) = takenBy i c ts := by
  rw [takenBy_concat, htaken]
  exact List.append_nil _

lemma HeldFollows.concat {holder : Holder} (h : c.HeldFollows i ts holder)
    (htaken : (c.playAll ts).taken? i m = none) : c.HeldFollows i (ts ++ [⟨m, n⟩]) holder := by
  have hsame := takenBy_concat_none htaken n
  cases holder with
  | free b =>
    change b.Follows _
    rwa [hsame]
  | waiting id b w =>
    obtain ⟨hb, earlier, since, hbegan, hknows⟩ := h
    have hconcat := hbegan.concat m n
    rw [htaken, Option.toList_none, List.append_nil] at hconcat
    exact ⟨hsame ▸ hb, earlier, since, hconcat, hknows⟩
  | closing id => trivial
  | gone => trivial

lemma Follows.concat {phase : Option Phase} (h : c.Follows i ts phase)
    (htaken : (c.playAll ts).taken? i m = none) : c.Follows i (ts ++ [⟨m, n⟩]) phase := by
  unfold Follows at h ⊢
  split at h
  · exact (takenBy_concat_none htaken n).trans h
  · exact (takenBy_concat_none htaken n).trans h
  · exact h.concat htaken
  · trivial

lemma HeldFollows.step {id : String} {b : Inbox} {w : Wait} {ev : Event}
    (h : c.HeldFollows i ts (.waiting id b w)) (htaken : (c.playAll ts).taken? i m = some ev) :
    (w.step b ev).1.Follows (takenBy i c (ts ++ [⟨m, n⟩])) ∧
      ∃ earlier since, Began c i id (ts ++ [⟨m, n⟩]) w.pred earlier since ∧
        (w.step b ev).2.Sound w.pred earlier since := by
  obtain ⟨hb, earlier, since, hbegan, hknows⟩ := h
  have hconcat := hbegan.concat m n
  rw [hbegan.taken] at hb
  rw [htaken] at hconcat
  refine ⟨?_, earlier, _, hconcat, Wait.sound_step hknows hb⟩
  rw [hconcat.taken]
  exact Wait.follows_step w hb

lemma Follows.moved (h : c.Follows i ts ((c.playAll ts).phase? i)) (m : Move) (n : Nat) :
    c.Follows i (ts ++ [⟨m, n⟩]) ((c.playAll (ts ++ [⟨m, n⟩])).phase? i) := by
  have hmoved : PhaseMoved _ i m _ _ _ := (c.playAll ts).phaseMoved_play ⟨m, n⟩ i
  have hrun : c.playAll (ts ++ [⟨m, n⟩]) = (c.playAll ts).play ⟨m, n⟩ := playAll_append c ts _
  rw [hrun]
  generalize htaken : (c.playAll ts).taken? i m = taken at hmoved
  generalize (c.playAll ts).phase? i = old at h hmoved
  generalize ((c.playAll ts).play ⟨m, n⟩).phase? i = new at hmoved
  cases hmoved with
  | same => exact h.concat htaken
  | joined _ phase hjoins hphase =>
    have hnone : takenBy i c (ts ++ [⟨m, n⟩]) = [] := h.concat htaken
    cases phase with
    | failed => trivial
    | greeting => exact hnone
    | established => simp at hphase
  | befell => exact h.concat htaken
  | greeted => exact h.concat htaken
  | rejected => trivial
  | began link =>
    have hnone : takenBy i c (ts ++ [⟨_, n⟩]) = [] := h.concat htaken
    change Inbox.Follows {} _
    rw [hnone]
    exact Inbox.follows_nil
  | failed => trivial
  | ready s => exact HeldFollows.concat h htaken
  | going s => exact HeldFollows.concat h htaken
  | wrote s => exact HeldFollows.concat h htaken
  | read s => exact HeldFollows.concat h htaken
  | event e s => exact HeldFollows.concat h htaken
  | offered k item s => exact HeldFollows.concat h htaken
  | expired k call seq deadline s => exact HeldFollows.concat h htaken
  | closing s => exact HeldFollows.concat h htaken
  | took s s' b ev hstash htake =>
    change Inbox.Follows _ _
    rw [takenBy_concat, htaken]
    exact Inbox.Follows.observe h ev
  | unstashed s b b' ev hpop =>
    have hb : b.Follows (takenBy i c (ts ++ [⟨_, n⟩])) := h.concat htaken
    exact hb.congr (Inbox.windows_pop? hpop)
  | waited id pred s b b' w hinbox hstart =>
    have hb : b.Follows (takenBy i c (ts ++ [⟨_, n⟩])) := h.concat htaken
    obtain ⟨rfl, tried, rfl⟩ := Wait.start_going hstart
    exact ⟨hb, _, _, began_concat hinbox, Wait.knows_start pred tried _⟩
  | answered id pred s b b' result tried hstart =>
    have hb : b.Follows (takenBy i c (ts ++ [⟨_, n⟩])) := h.concat htaken
    have hwindows := Wait.windows_start pred b
    rw [hstart] at hwindows
    exact hb.congr hwindows
  | passed id s s' b b' w w' ev htake hstep =>
    have hwaiting : c.HeldFollows i ts (.waiting id b w) := h
    obtain ⟨hb, earlier, since, hbegan, hsound⟩ := hwaiting.step htaken
    rw [hstep] at hb hsound
    exact ⟨hb, earlier, since, hsound.1 ▸ hbegan, hsound.2⟩
  | found id s s' b b' w ev result tried htake hstep =>
    have hwaiting : c.HeldFollows i ts (.waiting id b w) := h
    obtain ⟨hb, -⟩ := hwaiting.step htaken
    rwa [hstep] at hb
  | starved id s b w =>
    have hwaiting : c.HeldFollows i (ts ++ [⟨_, n⟩]) (.waiting id b w) := h.concat htaken
    exact hwaiting.1
  | cancelled id s b w =>
    have hwaiting : c.HeldFollows i (ts ++ [⟨_, n⟩]) (.waiting id b w) := h.concat htaken
    exact hwaiting.1
  | dropped => trivial
  | closed => trivial
  | left => trivial

lemma follows_run (hnew : c.phase? i = none) (ts : List Turn) :
    c.Follows i ts ((c.playAll ts).phase? i) := by
  induction ts using List.reverseRecOn with
  | nil =>
    change c.Follows i [] (c.phase? i)
    rw [hnew]
    rfl
  | append_singleton ts t ih => exact ih.moved t.move t.choice

lemma waiting_of_found {id : String} {f : Frame} {tried t : Nat}
    (h : (c.move (.act (.holding i))).results = c.results ++ [⟨id, .found f tried, t⟩]) :
    ∃ s s' b b' w ev, c.phase? i = some (.established s (.waiting id b w)) ∧
      s.takeEvent? = some (ev, s') ∧ w.step b ev = (b', .done (.ok f) tried) := by
  have hne (ms : List Result) : ms ≠ ms ++ [⟨id, .found f tried, t⟩] := by simp
  simp only [move, act?] at h
  split at h
  · rename_i s name b w hphase
    rw [wait?] at h
    split at h
    · rename_i ev s' htake
      split at h
      · exact absurd h (hne _)
      · rename_i b' f' tried' hstep
        have hlast := List.append_cancel_left h
        cases hlast
        exact ⟨s, s', b, b', w, ev, hphase, htake, hstep⟩
      · have hlast := List.append_cancel_left h
        cases hlast
    · split at h
      · have hlast := List.append_cancel_left h
        cases hlast
      · exact absurd h (hne _)
  · rw [close?] at h
    split at h
    · have hlast := List.append_cancel_left h
      cases hlast
    · exact absurd h (hne _)
  · exact absurd h (hne _)

/-- A frame that a wait finds as it takes events is the first match among those taken since the wait
began, and if it came in a catch-up, then every window that was open around it has ended. -/
theorem released_of_found (hnew : c.phase? i = none) {id : String} {f : Frame} {tried t : Nat}
    (hfound : ((c.playAll ts).move (.act (.holding i))).results =
      (c.playAll ts).results ++ [⟨id, .found f tried, t⟩]) :
    ∃ pred earlier since, Began c i id (ts ++ [.first (.act (.holding i))]) pred earlier since ∧
      Released pred f earlier since := by
  obtain ⟨s, s', b, b', w, ev, hphase, htake, hstep⟩ := waiting_of_found hfound
  have hfollows := follows_run hnew ts
  have htaken : (c.playAll ts).taken? i (.act (.holding i)) = some ev := by
    simp only [taken?, hphase, htake, if_true, Option.map_some]
  rw [hphase] at hfollows
  have hwaiting : c.HeldFollows i ts (.waiting id b w) := hfollows
  obtain ⟨-, earlier, since, hbegan, hsound⟩ := hwaiting.step htaken
  rw [hstep] at hsound
  exact ⟨w.pred, earlier, since, hbegan, hsound f rfl⟩

def bare (seq : Int32) : Frame := { seq, version := 2, message := .unknown 200 [] }

/-- A wait finds a frame inside a window and returns it when the window has ended. -/
theorem released_of_found_bare : ∃ ts,
    least.phase? 0 = none ∧
      ((least.playAll ts).move (.act (.holding 0))).results =
        (least.playAll ts).results ++ [⟨"b", .found (bare 3) 1, 0⟩] ∧
      .message (bare 3) .catchup ∈ takenBy 0 least ts ∧
      ∃ pred earlier since,
        Began least 0 "b" (ts ++ [.first (.act (.holding 0))]) pred earlier since ∧
          Released pred (bare 3) earlier since :=
  have hfound := by decide +kernel
  ⟨firsts (introducing ++ [.waitFor 0 "b" fun f => f.seq = 3, .happen 0 (.arrive
      [0, 0, 0, 8, 0, 0, 0, 2, 27, 2, 0, 0, 0, 0, 0, 0, 0, 0, 0, 0,
        0, 0, 0, 0, 0, 0, 0, 3, 200, 2, 0, 0,
        0, 0, 0, 8, 0, 0, 0, 4, 28, 2, 0, 0, 0, 0, 0, 0, 0, 0, 0, 0])] ++
      List.replicate 7 (.act (.reading 0)) ++ List.replicate 2 (.act (.holding 0))),
    rfl, hfound, by decide +kernel, released_of_found rfl hfound⟩

/-- The windows of two scopes overlap. A wait for the frame in front of the second one passes over
the frame behind it, and is over when the first one ends. -/
def overlapping : List Turn :=
  firsts (introducing ++ [.happen 0 (.arrive
    [0, 0, 0, 8, 0, 0, 0, 2, 27, 2, 0, 0, 0, 0, 0, 0, 0, 0, 0, 0,
      0, 0, 0, 0, 0, 0, 0, 3, 200, 2, 0, 0,
      0, 0, 0, 16, 0, 0, 0, 4, 31, 2, 0, 0, 0, 0, 0, 0, 0, 0, 0, 7, 0, 0, 0, 0, 0, 0, 0, 0,
      0, 0, 0, 0, 0, 0, 0, 5, 200, 2, 0, 0,
      0, 0, 0, 8, 0, 0, 0, 6, 28, 2, 0, 0, 0, 0, 0, 0, 0, 0, 0, 0])] ++
    List.replicate 11 (.act (.reading 0)) ++ [.waitFor 0 "b" fun f => f.seq = 3] ++
    List.replicate 5 (.act (.holding 0)))

/-- A match that an earlier wait has passed over is returned at once, while a window that was open
around it is still open. -/
theorem unreleased_of_stash :
    ((least.playAll overlapping).move (.waitFor 0 "c" fun f => f.seq = 5)).results =
        (least.playAll overlapping).results ++ [⟨"c", .found (bare 5) 1, 0⟩] ∧
      .message (bare 5) .catchup ∈ takenBy 0 least overlapping ∧
      ¬ ∃ before after,
        takenBy 0 least (overlapping ++ [.first (.waitFor 0 "c" fun f => f.seq = 5)]) =
          before ++ .message (bare 5) .catchup :: after ∧
        ∀ scope, OpenAfter before scope → ∃ ev ∈ after, ev.ends scope = true := by
  refine ⟨by decide +kernel, by decide +kernel, ?_⟩
  have htaken : takenBy 0 least (overlapping ++ [.first (.waitFor 0 "c" fun f => f.seq = 5)]) =
      [.syncBegin .direct, .message (bare 3) .catchup, .syncBegin (.group 7)] ++
        .message (bare 5) .catchup :: [.syncEnd .direct 0 false] := by
    decide +kernel
  rintro ⟨before, after, hsplit, hends⟩
  rw [htaken] at hsplit
  -- the frame is taken only once, so there is one way to split there
  obtain ⟨rfl, -, rfl⟩ :=
    (List.append_cons_inj_of_notMem (by decide +kernel) (by decide +kernel)).mp hsplit
  obtain ⟨ev, hev, hended⟩ := hends (.group 7)
    ⟨[.syncBegin .direct, .message (bare 3) .catchup], [], rfl, by simp⟩
  rw [List.mem_singleton.mp hev] at hended
  cases hended

end Client

end Parley
