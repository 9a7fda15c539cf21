import Parley.Proofs.Client.Asking
import Parley.Proofs.Client.Handing

/-!
# Giving up a wait

A wait that is given up leaves behind what it has passed over, in its old order, and the application
receives that next. A frame that it has held back for the windows around it is in no other hands:
it goes with the wait. An `Account` follows through a run what was handed out, what has gone that
way and what is left.
-/

namespace Parley

/-- What goes with a wait when it is given up, of the events that the application has not got yet,
and what is left of them. -/
inductive Client.Forfeits (phase : Option Phase) (avail : List Event) :
    List Event → List Event → Prop
  | nothing (hheld : ∀ s id b w, phase = some (.established s (.waiting id b w)) → w.held = none) :
    Forfeits phase avail [] avail
  | held (s : Session) (id : String) (b : Inbox) (w : Wait) (f : Frame) (pending : List Scope)
    (front after : List Event) (hphase : phase = some (.established s (.waiting id b w)))
    (hheld : w.held = some (f, pending))
    (hmatch : FirstMatch w.pred f .catchup avail front after) :
    Forfeits phase avail [.message f .catchup] (front ++ after)

namespace Client

/-- The events of a connection that a run has handed to the application, those that have gone with a
wait that was given up, and those that the run has taken out of the channel besides. -/
inductive Account (c : Client) (i : Nat) :
    List Turn → List Event → List Event → List Event → Prop
  | nil : Account c i [] [] [] []
  | kept {ts : List Turn} {handed gone left left' : List Event} {given : Option Event} (t : Turn)
    (h : Account c i ts handed gone left) (hcancel : t.move.cancels i = false)
    (hhands : (c.playAll ts).Hands i t.move
      (left ++ ((c.playAll ts).taken? i t.move).toList) given left') :
    Account c i (ts ++ [t]) (handed ++ given.toList) gone left'
  | gaveUp {ts : List Turn} {handed gone left forfeit left' : List Event} (t : Turn)
    (h : Account c i ts handed gone left) (hcancel : t.move.cancels i = true)
    (hforfeits : Forfeits ((c.playAll ts).phase? i) left forfeit left') :
    Account c i (ts ++ [t]) handed (gone ++ forfeit) left'

def Throughout (c : Client) (P : Client → Move → Prop) (ts : List Turn) : Prop :=
  ∀ before t after, ts = before ++ t :: after → P (c.playAll before) t.move

def LetsGoEmpty (i : Nat) (c : Client) (m : Move) : Prop :=
  m.cancels i = true →
    ∀ s id b w, c.phase? i = some (.established s (.waiting id b w)) → w.held = none

def FindsNothing (i : Nat) (c : Client) (m : Move) : Prop :=
  c.condition? i m = none ∨ c.awarded? m = none

variable {c : Client} {i : Nat} {ts : List Turn} {handed gone left forfeit left' taken : List Event}

namespace Forfeits
variable {phase : Option Phase} {avail : List Event}

lemma perm (h : Forfeits phase avail forfeit left') : (forfeit ++ left').Perm avail := by
  cases h with
  | nothing => exact .refl _
  | held s id b w f pending front after hphase hheld hmatch =>
    rw [hmatch.split]
    change (.message f .catchup :: (front ++ after)).Perm _
    exact List.perm_middle.symm

lemma sublist (h : Forfeits phase avail forfeit left') : left'.Sublist avail := by
  cases h with
  | nothing => exact .refl _
  | held s id b w f pending front after hphase hheld hmatch =>
    rw [hmatch.split]
    exact (List.sublist_cons_self _ after).append_left front

lemma eq_nil_iff (h : Forfeits phase avail forfeit left') : forfeit = [] ↔
    ∀ s id b w, phase = some (.established s (.waiting id b w)) → w.held = none := by
  cases h with
  | nothing hheld => exact iff_of_true rfl hheld
  | held s id b w f pending front after hphase hheld hmatch =>
    refine iff_of_false (List.cons_ne_nil _ _) fun hnone => ?_
    cases hheld.symm.trans (hnone s id b w hphase)

end Forfeits

/-! ## What a wait leaves when it is given up -/

lemma eq_cancelWait_of_cancels {m : Move} (h : m.cancels i = true) : m = .cancelWait i := by
  cases m with
  | cancelWait j =>
    obtain rfl : j = i := by simpa [Move.cancels] using h
    rfl
  | _ => cases h

lemma phase?_cancelWait {s : Session} {id : String} {b : Inbox} {w : Wait}
    (hphase : c.phase? i = some (.established s (.waiting id b w))) :
    (c.move (.cancelWait i)).phase? i = some (.established s (.free b)) := by
  simp only [move, cancelWait, hphase]
  exact phase?_setPhase_self c hphase _

lemma Keeps.forfeits {s : Session} {id : String} {b : Inbox} {w : Wait}
    (h : Keeps taken left (some (.established s (.waiting id b w)))) :
    ∃ forfeit, Forfeits (some (.established s (.waiting id b w))) left forfeit b.stash := by
  obtain ⟨hkeeps, -⟩ := h
  cases hheld : w.held with
  | none =>
    simp only [Wait.Keeps, hheld] at hkeeps
    refine ⟨[], hkeeps.1 ▸ .nothing ?_⟩
    rintro s id b w ⟨⟩
    exact hheld
  | some found =>
    obtain ⟨f, pending⟩ := found
    simp only [Wait.Keeps, hheld] at hkeeps
    obtain ⟨front, after, hmatch, hstash⟩ := hkeeps
    rw [hstash]
    exact ⟨_, .held s id b w f pending front after rfl hheld hmatch⟩

lemma Keeps.cancel (h : Keeps taken left (c.phase? i)) (t : Turn)
    (hcancel : t.move.cancels i = true) :
    ∃ forfeit left', Forfeits (c.phase? i) left forfeit left' ∧
      Keeps taken left' ((c.play t).phase? i) := by
  obtain ⟨m, n⟩ := t
  obtain rfl : m = .cancelWait i := eq_cancelWait_of_cancels hcancel
  change ∃ forfeit left', _ ∧ Keeps taken left' ((c.move (.cancelWait i)).phase? i)
  by_cases hwaiting : ∃ s id b w, c.phase? i = some (.established s (.waiting id b w))
  · obtain ⟨s, id, b, w, hphase⟩ := hwaiting
    rw [phase?_cancelWait hphase]
    rw [hphase] at h ⊢
    obtain ⟨forfeit, hforfeits⟩ := h.forfeits
    exact ⟨forfeit, b.stash, hforfeits, rfl⟩
  · have hsame : c.move (.cancelWait i) = c := by
      simp only [move, cancelWait]
      split
      · rename_i s id b w hphase
        exact absurd ⟨s, id, b, w, hphase⟩ hwaiting
      · rfl
    refine ⟨[], left, .nothing fun s id b w hphase => ?_, hsame.symm ▸ h⟩
    exact absurd ⟨s, id, b, w, hphase⟩ hwaiting

/-! ## Runs -/

lemma Account.conserves (h : Account c i ts handed gone left) :
    (handed ++ (gone ++ left)).Perm (takenBy i c ts) ∧ left.Sublist (takenBy i c ts) := by
  induction h with
  | nil => exact ⟨.refl _, .refl _⟩
  | @kept ts handed gone left left' given t h hcancel hhands ih =>
    obtain ⟨hperm, hsublist⟩ := ih
    obtain ⟨m, n⟩ := t
    rw [takenBy_concat]
    refine ⟨?_, hhands.sublist.trans (hsublist.append_right _)⟩
    -- what is handed out now moves behind what has gone
    have hmoved : (given.toList ++ (gone ++ left')).Perm (gone ++ (given.toList ++ left')) := by
      rw [← List.append_assoc, ← List.append_assoc]
      exact List.perm_append_comm.append_right left'
    have hgiven := hmoved.trans (hhands.perm.append_left gone)
    rw [List.append_assoc]
    refine (hgiven.append_left handed).trans ?_
    rw [← List.append_assoc gone, ← List.append_assoc handed]
    exact hperm.append_right _
  | @gaveUp ts handed gone left forfeit left' t h hcancel hforfeits ih =>
    obtain ⟨hperm, hsublist⟩ := ih
    obtain ⟨m, n⟩ := t
    obtain rfl : m = .cancelWait i := eq_cancelWait_of_cancels hcancel
    rw [takenBy_concat, taken?_of_handles rfl, Option.toList_none, List.append_nil,
      List.append_assoc]
    exact ⟨((hforfeits.perm.append_left gone).append_left handed).trans hperm,
      hforfeits.sublist.trans hsublist⟩

lemma throughout_nil (c : Client) (P : Client → Move → Prop) : c.Throughout P [] := by
  intro before t after hsplit
  simp at hsplit

lemma throughout_concat {P : Client → Move → Prop} {t : Turn} :
    c.Throughout P (ts ++ [t]) ↔ c.Throughout P ts ∧ P (c.playAll ts) t.move := by
  constructor
  · intro h
    refine ⟨fun before t' after hsplit => h before t' (after ++ [t]) ?_, h ts t [] rfl⟩
    rw [hsplit, List.append_assoc, List.cons_append]
  · rintro ⟨hearlier, hlast⟩ before t' after hsplit
    rcases List.eq_nil_or_concat after with rfl | ⟨after, last, rfl⟩
    · obtain ⟨rfl, heq⟩ := List.append_inj' hsplit rfl
      obtain rfl := (List.cons.inj heq).1
      exact hlast
    · rw [List.concat_eq_append, ← List.cons_append, ← List.append_assoc] at hsplit
      obtain ⟨rfl, -⟩ := List.append_inj' hsplit rfl
      exact hearlier before t' after rfl

lemma Account.gone_eq_nil_iff (h : Account c i ts handed gone left) :
    gone = [] ↔ c.Throughout (LetsGoEmpty i) ts := by
  induction h with
  | nil => exact iff_of_true rfl (throughout_nil c _)
  | kept t h hcancel hhands ih =>
    rw [throughout_concat, ih]
    refine (and_iff_left fun htrue => ?_).symm
    cases hcancel.symm.trans htrue
  | gaveUp t h hcancel hforfeits ih =>
    rw [throughout_concat, List.append_eq_nil_iff, ih, hforfeits.eq_nil_iff]
    exact and_congr_right fun _ => ⟨fun hnone _ => hnone, fun hempty => hempty hcancel⟩

/-- As long as no wait finds or holds anything, the events are handed out in their old order, those
that are left behind those that were handed out. -/
lemma Account.in_order (h : Account c i ts handed gone left)
    (hfinds : c.Throughout (FindsNothing i) ts) (hempty : c.Throughout (LetsGoEmpty i) ts) :
    handed ++ left = takenBy i c ts := by
  induction h with
  | nil => rfl
  | @kept ts handed gone left left' given t h hcancel hhands ih =>
    rw [throughout_concat] at hfinds hempty
    obtain ⟨m, n⟩ := t
    rw [takenBy_concat, ← ih hfinds.1 hempty.1, List.append_assoc, List.append_assoc]
    congr 1
    cases hhands with
    | nothing => rfl
    | first ev rest hrecv havail => exact havail.symm
    | found pred f origin front after hwait hfound hmatch =>
      rcases hfinds.2 with hnone | hnone
      · cases hnone.symm.trans hwait
      · cases hnone.symm.trans hfound
  | @gaveUp ts handed gone left forfeit left' t h hcancel hforfeits ih =>
    rw [throughout_concat] at hfinds hempty
    obtain ⟨m, n⟩ := t
    obtain rfl : m = .cancelWait i := eq_cancelWait_of_cancels hcancel
    rw [takenBy_concat, taken?_of_handles rfl, Option.toList_none, List.append_nil,
      ← ih hfinds.1 hempty.1]
    cases hforfeits with
    | nothing => rfl
    | held s id b w f pending front after hphase hheld hmatch =>
      cases hheld.symm.trans (hempty.2 hcancel s id b w hphase)

lemma Account.receive {s : Session} {b : Inbox} (h : Account c i ts handed gone left)
    (hinbox : (c.playAll ts).inbox? i = some (s, b)) (hleft : b.stash = left) :
    Account c i (ts ++ List.replicate left.length (.first (.recv i))) (handed ++ left) gone [] := by
  induction left generalizing ts handed b with
  | nil => rwa [List.length_nil, List.replicate_zero, List.append_nil, List.append_nil]
  | cons ev left ih =>
    obtain ⟨stash, windows⟩ := b
    obtain rfl : stash = ev :: left := hleft
    obtain ⟨htaken, hreturned, hmove⟩ := recv_of_stash hinbox
    have hconcat := h.kept (.first (.recv i)) rfl (.first ev left hreturned (by
      change _ ++ ((c.playAll ts).taken? i (.recv i)).toList = _
      rw [htaken]
      exact List.append_nil _))
    have hrun : c.playAll (ts ++ [.first (.recv i)]) =
        (c.playAll ts).setPhase i (.established s (.free ⟨left, windows⟩)) := by
      rw [playAll_concat, play_first, hmove]
    have hrest := ih hconcat (b := ⟨left, windows⟩) (by rw [hrun]; exact inbox?_setPhase hinbox) rfl
    rw [List.append_assoc, List.append_assoc] at hrest
    exact hrest

lemma account_run (hnew : c.phase? i = none) (ts : List Turn) :
    ∃ handed gone left, Account c i ts handed gone left ∧
      Keeps (takenBy i c ts) left ((c.playAll ts).phase? i) := by
  induction ts using List.reverseRecOn with
  | nil =>
    refine ⟨[], [], [], .nil, ?_⟩
    change Keeps _ _ (c.phase? i)
    rw [hnew]
    rfl
  | append_singleton ts t ih =>
    obtain ⟨handed, gone, left, haccount, hkeeps⟩ := ih
    have hrun : c.playAll (ts ++ [t]) = (c.playAll ts).play t := playAll_concat c ts t
    rw [hrun]
    cases hcancel : t.move.cancels i with
    | false =>
      obtain ⟨given, left', hhands, hkeeps'⟩ := hkeeps.moved
        (fun s id b w hphase => ended_of_silent hnew hphase) t hcancel
      refine ⟨_, _, left', haccount.kept t hcancel hhands, ?_⟩
      obtain ⟨m, n⟩ := t
      rw [takenBy_concat]
      exact hkeeps'
    | true =>
      obtain ⟨forfeit, left', hforfeits, hkeeps'⟩ := hkeeps.cancel t hcancel
      refine ⟨_, _, left', haccount.gaveUp t hcancel hforfeits, ?_⟩
      obtain ⟨m, n⟩ := t
      obtain rfl : m = .cancelWait i := eq_cancelWait_of_cancels hcancel
      rw [takenBy_concat, taken?_of_handles rfl, Option.toList_none, List.append_nil]
      exact hkeeps'

/-! ## The wait that is running -/

lemma handle?_of_waiting (hnew : c.phase? i = none) {s : Session} {id : String} {b : Inbox}
    {w : Wait} (hphase : (c.playAll ts).phase? i = some (.established s (.waiting id b w))) :
    (c.playAll ts).handle? i = some (s, .waiting id b w) := by
  have hfollows := follows_run hnew ts
  rw [hphase] at hfollows
  obtain ⟨-, _, _, hbegan, -⟩ : c.HeldFollows i ts (.waiting id b w) := hfollows
  obtain ⟨before, n, after, s', b', rfl, hinbox, -⟩ := hbegan
  have hhandle : ((c.playAll before).handle? i).isSome := by
    unfold inbox? at hinbox
    split at hinbox
    · rename_i hhandle
      rw [hhandle]
      rfl
    · cases hinbox
  obtain ⟨old, hold, hrank⟩ := standing?_of_handle? hhandle
  obtain ⟨new, hnew', hle⟩ := standing?_playAll hold (⟨.waitFor i id w.pred, n⟩ :: after)
  rw [← playAll_append, Chronicle.standing?_of_established hphase] at hnew'
  obtain rfl := Option.some.inj hnew'
  have hstarted (requests : List Message) : s.stage ≠ .starting requests := by
    intro hstage
    rw [standing_of_stage hstage] at hle
    exact absurd (hrank.trans hle) (by decide)
  -- only a session that is starting has no handle
  simp only [handle?, hphase]

lemma inbox?_cancelWait (hnew : c.phase? i = none) {s : Session} {id : String} {b : Inbox}
    {w : Wait} (hphase : (c.playAll ts).phase? i = some (.established s (.waiting id b w))) :
    ((c.playAll ts).move (.cancelWait i)).inbox? i = some (s, b) := by
  have hhandle := handle?_of_waiting hnew hphase
  simp only [handle?, hphase] at hhandle
  simp only [inbox?, handle?, phase?_cancelWait hphase]
  cases hstage : s.stage with
  | starting requests =>
    rw [hstage] at hhandle
    cases hhandle
  | _ => rfl

/-- Giving up a wait loses nothing but the frame that it holds. Of the events that a run takes out
of the channel of a connection, each has been handed to the application once, has gone with a wait
that held it when it was given up, or is left in its old order. The application receives next, in
that order, what is left; and if it gives up a wait now, then all that is left but a frame that this
wait holds. As long as no wait finds or holds a frame, that is the order in which all the events
were taken. -/
theorem given_up (hnew : c.phase? i = none) (ts : List Turn) :
    ∃ handed gone left, Account c i ts handed gone left ∧
      (handed ++ (gone ++ left)).Perm (takenBy i c ts) ∧ left.Sublist (takenBy i c ts) ∧
      (gone = [] ↔ c.Throughout (LetsGoEmpty i) ts) ∧
      (c.Throughout (FindsNothing i) ts → c.Throughout (LetsGoEmpty i) ts →
        handed ++ left = takenBy i c ts) ∧
      (∀ s b, (c.playAll ts).inbox? i = some (s, b) → b.stash = left ∧
        Account c i (ts ++ List.replicate left.length (.first (.recv i))) (handed ++ left) gone
          []) ∧
      ∀ s id b w, (c.playAll ts).phase? i = some (.established s (.waiting id b w)) →
        ∃ forfeit, Forfeits ((c.playAll ts).phase? i) left forfeit b.stash ∧
          (forfeit = [] ↔ w.held = none) ∧
          ((c.playAll ts).move (.cancelWait i)).inbox? i = some (s, b) ∧
          Account c i
            (ts ++ .first (.cancelWait i) :: List.replicate b.stash.length (.first (.recv i)))
            (handed ++ b.stash) (gone ++ forfeit) [] := by
  obtain ⟨handed, gone, left, haccount, hkeeps⟩ := account_run hnew ts
  obtain ⟨hperm, hsublist⟩ := haccount.conserves
  refine ⟨handed, gone, left, haccount, hperm, hsublist, haccount.gone_eq_nil_iff,
    haccount.in_order, fun s b hinbox => ?_, fun s id b w hphase => ?_⟩
  · rw [inbox?_eq_some hinbox] at hkeeps
    exact ⟨hkeeps, haccount.receive hinbox hkeeps⟩
  · have hinbox := inbox?_cancelWait hnew hphase
    rw [hphase] at hkeeps
    obtain ⟨forfeit, hforfeits⟩ := hkeeps.forfeits
    have hheld : forfeit = [] ↔ w.held = none := by
      rw [hforfeits.eq_nil_iff]
      constructor
      · exact fun hnone => hnone s id b w rfl
      · rintro hnone s id b w ⟨⟩
        exact hnone
    rw [← hphase] at hforfeits
    have hgave := haccount.gaveUp (.first (.cancelWait i)) (by simp [Turn.first, Move.cancels])
      hforfeits
    have hrun : c.playAll (ts ++ [.first (.cancelWait i)]) =
        (c.playAll ts).move (.cancelWait i) := by
      rw [playAll_concat, play_first]
    have hreceive := hgave.receive (hrun ▸ hinbox) rfl
    rw [List.append_assoc, List.singleton_append] at hreceive
    exact ⟨forfeit, hforfeits, hheld, hinbox, hreceive⟩

/-- A wait holds the frame that it has found inside a window that has not ended. -/
def holdingBack : List Turn :=
  firsts (introducing ++ [.happen 0 (.arrive
    [0, 0, 0, 8, 0, 0, 0, 2, 27, 2, 0, 0, 0, 0, 0, 0, 0, 0, 0, 0,
      0, 0, 0, 0, 0, 0, 0, 3, 200, 2, 0, 0])] ++
    List.replicate 4 (.act (.reading 0)) ++ [.waitFor 0 "b" fun f => f.seq = 3] ++
    List.replicate 2 (.act (.holding 0)))

/-- A wait that holds a frame is given up, and what it has passed over is left. -/
theorem given_up_holdingBack : ∃ handed gone left, least.phase? 0 = none ∧
    Account least 0 (holdingBack ++ [.first (.cancelWait 0)]) handed gone left ∧
      (handed ++ (gone ++ left)).Perm [.syncBegin .direct, .message (bare 3) .catchup] ∧
      left = [.syncBegin .direct] := by
  have hnew : least.phase? 0 = none := rfl
  have htaken : takenBy 0 least (holdingBack ++ [.first (.cancelWait 0)]) =
      [.syncBegin .direct, .message (bare 3) .catchup] := by decide +kernel
  have hstash : ((least.playAll (holdingBack ++ [.first (.cancelWait 0)])).inbox? 0).map
      (·.2.stash) = some [.syncBegin .direct] := by decide +kernel
  obtain ⟨⟨s, b⟩, hinbox, hb⟩ := Option.map_eq_some_iff.mp hstash
  obtain ⟨handed, gone, left, haccount, hperm, -, -, -, hleft, -⟩ :=
    given_up hnew (holdingBack ++ [.first (.cancelWait 0)])
  exact ⟨handed, gone, left, hnew, haccount, htaken ▸ hperm, (hleft s b hinbox).1.symm.trans hb⟩

/-- The application receives every event but the one that the wait had taken and held, though the
wait was given up before it had returned. -/
theorem unreturned_of_cancelWait :
    takenBy 0 least holdingBack = [.syncBegin .direct, .message (bare 3) .catchup] ∧
      (least.playAll holdingBack).results.map (·.id) = ["a"] ∧
      ∃ s b, ((least.playAll holdingBack).move (.cancelWait 0)).inbox? 0 = some (s, b) ∧
        (((least.playAll holdingBack).move (.cancelWait 0)).recvAll 0 s b).1 =
          [.syncBegin .direct] := by
  refine ⟨by decide +kernel, by decide +kernel, ?_⟩
  have hreceives : (((least.playAll holdingBack).move (.cancelWait 0)).inbox? 0).map
      (fun taken => (((least.playAll holdingBack).move (.cancelWait 0)).recvAll 0 taken.1
        taken.2).1) = some [.syncBegin .direct] := by
    decide +kernel
  obtain ⟨⟨s, b⟩, hinbox, hreceived⟩ := Option.map_eq_some_iff.mp hreceives
  exact ⟨s, b, hinbox, hreceived⟩

end Client

end Parley
