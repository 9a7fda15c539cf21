import Mathlib.Data.List.Perm.Basic
import Parley.Proofs.Client.Draining
import Parley.Proofs.Client.Taking

/-!
# Every event is handed out once

The events that a run takes out of the channel of a connection go to the application, one by one by
`recv` or as the frames that waits find. A `Ledger` follows those that were handed out and those
that are left: whoever has the events of the connection keeps what is left in its old order, so that
nothing is lost, doubled or overtaken by what it may not be overtaken by.
-/

namespace Parley

/-! ## What a wait leaves -/

/-- What a wait keeps for later is what is left; one that holds a frame has it beside the rest. -/
def Wait.Keeps (w : Wait) (b : Inbox) (left : List Event) : Prop :=
  match w.held with
  | none => b.stash = left ∧ ∀ ev ∈ left, ev.isPassed w.pred = true
  | some (f, _) => ∃ front after, FirstMatch w.pred f .catchup left front after ∧
      b.stash = front ++ after

/-- What a wait that goes on keeps, and what one that is over leaves: it has taken the first match
out, or nothing. -/
def WaitProgress.Leaves (pred : Frame → Bool) (b : Inbox) (avail : List Event) :
    WaitProgress → Prop
  | .going w => w.pred = pred ∧ w.Keeps b avail
  | .done (.ok f) _ => ∃ origin front after, FirstMatch pred f origin avail front after ∧
      b.stash = front ++ after
  | .done (.error _) _ => b.stash = avail

lemma FirstMatch.cons {pred : Frame → Bool} {f : Frame} {origin : Origin}
    {evs front after : List Event} (h : FirstMatch pred f origin evs front after) {ev : Event}
    (hev : ev.isPassed pred = true) : FirstMatch pred f origin (ev :: evs) (ev :: front) after where
  split := by rw [h.split, List.cons_append]
  passed := by
    rintro ev' (_ | ⟨_, hin⟩)
    · exact hev
    · exact h.passed ev' hin
  candidate := h.candidate
  satisfies := h.satisfies

lemma Event.eq_message_of_candidate? {ev : Event} {f : Frame} (h : ev.candidate? = some f) :
    ∃ origin, ev = .message f origin := by
  cases ev with
  | message g origin =>
    cases origin with
    | push => cases h
    | live =>
      cases h
      exact ⟨.live, rfl⟩
    | catchup =>
      cases h
      exact ⟨.catchup, rfl⟩
  | _ => cases h

lemma takeFirst_cases (pred : Frame → Bool) (evs : List Event) :
    (∃ f origin front after, FirstMatch pred f origin evs front after ∧
        (takeFirst pred evs).1 = some (f, front ++ after)) ∨
      (∀ ev ∈ evs, ev.isPassed pred = true) ∧ (takeFirst pred evs).1 = none := by
  induction evs with
  | nil => exact .inr ⟨fun ev hev => absurd hev List.not_mem_nil, rfl⟩
  | cons ev evs ih =>
    -- an event that is passed over stays in front of what is found behind it
    have hbehind (hev : ev.isPassed pred = true) (hrest : (takeFirst pred (ev :: evs)).1 =
        (takeFirst pred evs).1.map fun found => (found.1, ev :: found.2)) :
        (∃ f origin front after, FirstMatch pred f origin (ev :: evs) front after ∧
          (takeFirst pred (ev :: evs)).1 = some (f, front ++ after)) ∨
        (∀ ev' ∈ ev :: evs, ev'.isPassed pred = true) ∧ (takeFirst pred (ev :: evs)).1 = none := by
      rw [hrest]
      rcases ih with ⟨f, origin, front, after, hmatch, hfound⟩ | ⟨hpassed, hnone⟩
      · exact .inl ⟨f, origin, ev :: front, after, hmatch.cons hev, by rw [hfound]; rfl⟩
      · refine .inr ⟨?_, by rw [hnone]; rfl⟩
        rintro ev' (_ | ⟨_, hin⟩)
        · exact hev
        · exact hpassed ev' hin
    cases hcandidate : ev.candidate? with
    | none =>
      refine hbehind (by rw [Event.isPassed, hcandidate]; rfl) ?_
      simp only [takeFirst, hcandidate]
    | some f =>
      cases hpred : pred f with
      | true =>
        obtain ⟨origin, rfl⟩ := Event.eq_message_of_candidate? hcandidate
        refine .inl ⟨f, origin, [], evs, ⟨rfl, by simp, hcandidate, hpred⟩, ?_⟩
        simp only [takeFirst, hcandidate, hpred, if_true, List.nil_append]
      | false =>
        refine hbehind (by rw [Event.isPassed, hcandidate, Option.all_some, hpred]; rfl) ?_
        simp [takeFirst, hcandidate, hpred]

namespace Wait
variable {w : Wait} {b : Inbox} {left : List Event} {ev : Event}

lemma leaves_start (pred : Frame → Bool) (b : Inbox) :
    (Wait.start pred b).2.Leaves pred (Wait.start pred b).1 b.stash := by
  unfold start
  rcases takeFirst_cases pred b.stash with ⟨f, origin, front, after, hmatch, hfound⟩ |
    ⟨hpassed, hnone⟩
  · generalize takeFirst pred b.stash = found at hfound
    obtain ⟨found, tried⟩ := found
    obtain rfl : found = _ := hfound
    exact ⟨origin, front, after, hmatch, rfl⟩
  · generalize takeFirst pred b.stash = found at hnone
    obtain ⟨found, tried⟩ := found
    obtain rfl : found = _ := hnone
    exact ⟨rfl, rfl, hpassed⟩

lemma keeps_concat (hheld : w.held = none) (h : w.Keeps b left) (hev : ev.isPassed w.pred = true)
    (tried : Nat) : Keeps { w with tried } ((b.observe ev).keep ev) (left ++ [ev]) := by
  simp only [Keeps, hheld] at h ⊢
  obtain ⟨rfl, hpassed⟩ := h
  refine ⟨by rw [Inbox.keep, Inbox.stash_observe], fun ev' hev' => ?_⟩
  rcases List.mem_append.mp hev' with hin | hin
  · exact hpassed ev' hin
  · rwa [List.mem_singleton.mp hin]

lemma leaves_tryFrame {f : Frame} {origin : Origin} (hheld : w.held = none) (h : w.Keeps b left)
    (hcandidate : (Event.message f origin).candidate? = some f) :
    (w.tryFrame (b.observe (.message f origin)) (.message f origin) f origin).2.Leaves w.pred
      (w.tryFrame (b.observe (.message f origin)) (.message f origin) f origin).1
      (left ++ [.message f origin]) := by
  have hkeeps := h
  simp only [Keeps, hheld] at hkeeps
  obtain ⟨rfl, hpassed⟩ := hkeeps
  rw [tryFrame]
  split
  · rename_i hpred
    have hmatch := FirstMatch.last hpassed hcandidate hpred
    split
    · exact ⟨origin, b.stash, [], hmatch, (List.append_nil _).symm⟩
    · rename_i hwindow
      obtain rfl : origin = .catchup := by
        cases origin with
        | live => simp at hwindow
        | push => cases hcandidate
        | catchup => rfl
      exact ⟨rfl, b.stash, [], hmatch, (List.append_nil _).symm⟩
  · rename_i hpred
    refine ⟨rfl, keeps_concat hheld h ?_ _⟩
    rw [Event.isPassed, hcandidate, Option.all_some]
    simpa using hpred

lemma leaves_step_of_none (hheld : w.held = none) (h : w.Keeps b left) (ev : Event) :
    (w.step b ev).2.Leaves w.pred (w.step b ev).1 (left ++ [ev]) := by
  cases ev with
  | message f origin =>
    cases origin with
    | push =>
      simp only [step, hheld]
      exact ⟨rfl, keeps_concat hheld h rfl w.tried⟩
    | live =>
      simp only [step, hheld]
      exact leaves_tryFrame hheld h rfl
    | catchup =>
      simp only [step, hheld]
      exact leaves_tryFrame hheld h rfl
  | syncBegin scope =>
    simp only [step, hheld]
    exact ⟨rfl, keeps_concat hheld h rfl w.tried⟩
  | syncEnd scope cursor caughtUp =>
    simp only [step, hheld]
    exact ⟨rfl, keeps_concat hheld h rfl w.tried⟩
  | disconnected reason =>
    simp only [step, hheld]
    simp only [Keeps, hheld] at h
    exact congrArg (· ++ _) h.1

lemma leaves_step_of_some {f : Frame} {pending : List Scope} (hheld : w.held = some (f, pending))
    (h : w.Keeps b left) (ev : Event) :
    (w.step b ev).2.Leaves w.pred (w.step b ev).1 (left ++ [ev]) := by
  simp only [Keeps, hheld] at h
  obtain ⟨front, after, hmatch, hstash⟩ := h
  have hmatch' := hmatch.concat ev
  have hstash' : ((b.observe ev).keep ev).stash = front ++ (after ++ [ev]) := by
    rw [Inbox.keep, Inbox.stash_observe, hstash, List.append_assoc]
  have hgoing (held : List Scope) :
      Keeps { w with held := some (f, held) } ((b.observe ev).keep ev) (left ++ [ev]) :=
    ⟨front, after ++ [ev], hmatch', hstash'⟩
  have hsame := hgoing pending
  rw [← hheld] at hsame
  cases ev with
  | message g origin =>
    simp only [step, hheld]
    exact ⟨rfl, hsame⟩
  | syncBegin scope =>
    simp only [step, hheld]
    exact ⟨rfl, hsame⟩
  | syncEnd scope cursor caughtUp =>
    simp only [step, hheld]
    split
    · exact ⟨_, front, _, hmatch', hstash'⟩
    · exact ⟨rfl, hgoing _⟩
  | disconnected reason =>
    simp only [step, hheld]
    exact ⟨_, front, _, hmatch', hstash'⟩

lemma leaves_step (h : w.Keeps b left) (ev : Event) :
    (w.step b ev).2.Leaves w.pred (w.step b ev).1 (left ++ [ev]) := by
  cases hheld : w.held with
  | none => exact leaves_step_of_none hheld h ev
  | some found => exact leaves_step_of_some hheld h ev

lemma ne_disconnected_of_going {b' : Inbox} {w' : Wait} (h : w.step b ev = (b', .going w'))
    (reason : EndReason) : ev ≠ .disconnected reason := by
  rintro rfl
  cases hheld : w.held <;> simp only [step, hheld] at h <;> cases h

end Wait

/-! ## What a move hands to the application -/

def Outcome.frame? : Outcome → Option Frame
  | .found f _ => some f
  | _ => none

namespace Client

/-- The condition of the wait on a connection that a move may bring to its end. -/
def condition? (c : Client) (i : Nat) : Move → Option (Frame → Bool)
  | .waitFor j _ pred => if j = i then some pred else none
  | .act (.holding j) =>
    match c.phase? j with
    | some (.established _ (.waiting _ _ w)) => if j = i then some w.pred else none
    | _ => none
  | _ => none

/-- The frame with which a wait is over by a move. -/
def awarded? (c : Client) (m : Move) : Option Frame :=
  ((c.move m).results.drop c.results.length).findSome? (·.outcome.frame?)

/-- What a move hands to the application of the events of a connection that it has not got yet, and
what is left of them: `recv` hands out the first one, and a wait the first one that it may find. -/
inductive Hands (c : Client) (i : Nat) (m : Move) (avail : List Event) :
    Option Event → List Event → Prop
  | nothing (hrecv : c.returned? i m = none)
    (hwait : c.condition? i m = none ∨ c.awarded? m = none) : Hands c i m avail none avail
  | first (ev : Event) (rest : List Event) (hrecv : c.returned? i m = some ev)
    (havail : avail = ev :: rest) : Hands c i m avail (some ev) rest
  | found (pred : Frame → Bool) (f : Frame) (origin : Origin) (front after : List Event)
    (hwait : c.condition? i m = some pred) (hfound : c.awarded? m = some f)
    (hmatch : FirstMatch pred f origin avail front after) :
    Hands c i m avail (some (.message f origin)) (front ++ after)

/-- The events of a connection that a run has handed to the application, and those that it has taken
out of the channel and not handed out. -/
inductive Ledger (c : Client) (i : Nat) : List Turn → List Event → List Event → Prop
  | nil : Ledger c i [] [] []
  | concat {ts : List Turn} {handed left left' : List Event} {given : Option Event} (t : Turn)
    (h : Ledger c i ts handed left)
    (hhands : (c.playAll ts).Hands i t.move
      (left ++ ((c.playAll ts).taken? i t.move).toList) given left') :
    Ledger c i (ts ++ [t]) (handed ++ given.toList) left'

/-- Whoever has the events of a connection keeps those that are left. A wait that holds a frame goes
on, so that what was taken last is not the end of the session. -/
def Keeps (taken left : List Event) : Option Phase → Prop
  | none | some (.greeting ..) => left = []
  | some (.established _ (.free b)) => b.stash = left
  | some (.established _ (.waiting _ b w)) =>
    w.Keeps b left ∧ (w.held ≠ none → ∀ reason, taken.getLast? ≠ some (.disconnected reason))
  | _ => True

def Move.handles (i : Nat) : Move → Bool
  | .recv j | .waitFor j _ _ | .act (.holding j) => j = i
  | _ => false

def Move.cancels (i : Nat) : Move → Bool
  | .cancelWait j => j = i
  | _ => false

variable {c : Client} {i n : Nat} {m : Move} {taken left : List Event}

lemma awarded?_of_finish {d : Client} {id : String} {outcome : Outcome}
    (h : c.move m = d.finish id outcome) (hresults : d.results = c.results) :
    c.awarded? m = outcome.frame? := by
  rw [awarded?, h, finish, hresults, List.drop_left]
  cases hframe : outcome.frame? <;> simp [hframe]

lemma awarded?_of_same (h : (c.move m).results = c.results) : c.awarded? m = none := by
  rw [awarded?, h, List.drop_length]
  rfl

section Others

lemma taken?_of_handles (hm : m.handles i = false) : c.taken? i m = none := by
  cases m with
  | recv j =>
    have hj : j ≠ i := by simpa [Move.handles] using hm
    simp only [taken?, hj, false_and, if_false]
    split <;> rfl
  | act a =>
    cases a with
    | holding j =>
      have hj : j ≠ i := by simpa [Move.handles] using hm
      simp only [taken?, hj, if_false]
      split <;> rfl
    | _ => rfl
  | _ => rfl

lemma returned?_of_handles (hm : m.handles i = false) : c.returned? i m = none := by
  cases m with
  | recv j =>
    have hj : j ≠ i := by simpa [Move.handles] using hm
    simp only [returned?, hj, if_false]
    split
    · split <;> rfl
    · rfl
  | _ => rfl

lemma condition?_of_handles (hm : m.handles i = false) : c.condition? i m = none := by
  cases m with
  | waitFor j id pred =>
    have hj : j ≠ i := by simpa [Move.handles] using hm
    rw [condition?, if_neg hj]
  | act a =>
    cases a with
    | holding j =>
      have hj : j ≠ i := by simpa [Move.handles] using hm
      simp only [condition?, hj, if_false]
      split <;> rfl
    | _ => rfl
  | _ => rfl

lemma Keeps.others {old new : Option Phase} {taken? : Option Event} (h : Keeps taken left old)
    (hmoved : PhaseMoved c i m taken? old new) (hm : m.handles i = false)
    (hcancel : m.cancels i = false) : Keeps taken left new := by
  cases hmoved with
  | same => exact h
  | joined _ phase hjoins hphase =>
    rcases hphase with rfl | ⟨token, rfl⟩
    · trivial
    · exact h
  | befell => exact h
  | greeted => exact h
  | rejected => trivial
  | began link => exact Eq.symm h
  | failed => trivial
  | ready s s' holder => cases holder <;> exact h
  | going s s' holder => cases holder <;> exact h
  | wrote s s' holder => cases holder <;> exact h
  | read s step holder => cases holder <;> exact h
  | event e s holder => cases holder <;> exact h
  | offered k item s holder => cases holder <;> exact h
  | expired k call seq deadline s holder => cases holder <;> exact h
  | closing s holder => cases holder <;> exact h
  | took => simp [Move.handles] at hm
  | unstashed => simp [Move.handles] at hm
  | waited => simp [Move.handles] at hm
  | answered => simp [Move.handles] at hm
  | passed => simp [Move.handles] at hm
  | found => simp [Move.handles] at hm
  | starved => simp [Move.handles] at hm
  | cancelled => simp [Move.cancels] at hcancel
  | dropped => trivial
  | closed => trivial
  | left => trivial

end Others

lemma recv_of_stash {s : Session} {ev : Event} {stash : List Event} {windows : List Scope}
    (hinbox : c.inbox? i = some (s, ⟨ev :: stash, windows⟩)) :
    c.taken? i (.recv i) = none ∧ c.returned? i (.recv i) = some ev ∧
      c.move (.recv i) = c.setPhase i (.established s (.free ⟨stash, windows⟩)) := by
  have hrecv : c.recv i s ⟨ev :: stash, windows⟩ =
      (.event ev, c.setPhase i (.established s (.free ⟨stash, windows⟩))) := rfl
  refine ⟨by simp [taken?, hinbox], ?_, ?_⟩
  · simp only [returned?, hinbox, hrecv, if_true]
  · simp only [move, hinbox, hrecv]

lemma Keeps.recv (h : Keeps taken left (c.phase? i)) :
    ∃ given left', c.Hands i (.recv i) (left ++ (c.taken? i (.recv i)).toList) given left' ∧
      Keeps (taken ++ (c.taken? i (.recv i)).toList) left' ((c.move (.recv i)).phase? i) := by
  cases hinbox : c.inbox? i with
  | none =>
    refine ⟨none, left, ?_, ?_⟩
    · simp only [taken?, hinbox, Option.toList_none, List.append_nil]
      exact .nothing (by simp only [returned?, hinbox]) (.inl rfl)
    · simp only [taken?, hinbox, move, Option.toList_none, List.append_nil]
      exact h
  | some found =>
    obtain ⟨s, ⟨stash, windows⟩⟩ := found
    have hphase := inbox?_eq_some hinbox
    rw [hphase] at h
    obtain rfl : stash = left := h
    cases stash with
    | cons ev stash =>
      obtain ⟨htaken, hreturned, hmove⟩ := recv_of_stash hinbox
      rw [htaken, Option.toList_none, List.append_nil]
      refine ⟨some ev, stash, .first ev stash hreturned rfl, ?_⟩
      rw [hmove, phase?_setPhase_self c hphase]
      rfl
    | nil =>
      cases htake : s.takeEvent? with
      | none =>
        have hrecv : c.recv i s ⟨[], windows⟩ =
            (if s.isSilent then .ended else .pending, c) := by
          simp only [recv, Inbox.pop?, htake]
        have htaken : c.taken? i (.recv i) = none := by simp [taken?, hinbox, htake]
        have hreturned : c.returned? i (.recv i) = none := by
          simp only [returned?, hinbox, hrecv]
          split
          · rename_i ev hev
            split at hev <;> cases hev
          · rfl
        rw [htaken, Option.toList_none, List.append_nil]
        refine ⟨none, [], .nothing hreturned (.inl rfl), ?_⟩
        simp only [move, hinbox, hrecv, hphase]
        rfl
      | some next =>
        obtain ⟨ev, s'⟩ := next
        have hrecv : c.recv i s ⟨[], windows⟩ = (.event ev,
            c.setPhase i (.established s' (.free (Inbox.observe ⟨[], windows⟩ ev)))) := by
          simp only [recv, Inbox.pop?, htake]
        have htaken : c.taken? i (.recv i) = some ev := by simp [taken?, hinbox, htake]
        have hreturned : c.returned? i (.recv i) = some ev := by
          simp only [returned?, hinbox, hrecv, if_true]
        rw [htaken]
        refine ⟨some ev, [], .first ev [] hreturned rfl, ?_⟩
        simp only [move, hinbox, hrecv, phase?_setPhase_self c hphase]
        exact Inbox.stash_observe _ ev

/-- What becomes of a connection and of a wait on it that has come so far. -/
def come (c : Client) (i : Nat) (s : Session) (id : String) (b : Inbox) : WaitProgress → Client
  | .going w => c.setPhase i (.established s (.waiting id b w))
  | .done (.ok f) tried => (c.setPhase i (.established s (.free b))).finish id (.found f tried)
  | .done (.error e) tried =>
    (c.setPhase i (.established s (.free b))).finish id (.notFound e tried)

lemma waitFor_eq (c : Client) (i : Nat) (s : Session) (b : Inbox) (id : String)
    (pred : Frame → Bool) : c.waitFor i s b id pred =
      c.come i s id (Wait.start pred b).1 (Wait.start pred b).2 := by
  rw [waitFor]
  split <;> rename_i hstart <;> rw [hstart] <;> rfl

lemma wait?_eq {s s' : Session} {ev : Event} (c : Client) (i : Nat) (id : String) (b : Inbox)
    (w : Wait) (htake : s.takeEvent? = some (ev, s')) : c.wait? i s id b w =
      some (c.come i s' id (w.step b ev).1 (w.step b ev).2) := by
  simp only [wait?, htake]
  split <;> rename_i hstep <;> rw [hstep] <;> rfl

lemma keeps_come {s s' : Session} {holder : Holder} {id : String} {pred : Frame → Bool}
    {b : Inbox} {progress : WaitProgress} (hphase : c.phase? i = some (.established s holder))
    (hcondition : c.condition? i m = some pred) (hreturned : c.returned? i m = none)
    (hmove : c.move m = c.come i s' id b progress) (hleaves : progress.Leaves pred b left)
    (hlast : ∀ w, progress = .going w → w.held ≠ none →
      ∀ reason, taken.getLast? ≠ some (.disconnected reason)) :
    ∃ given left', c.Hands i m left given left' ∧ Keeps taken left' ((c.move m).phase? i) := by
  have hnew {phase : Phase} : (c.setPhase i phase).phase? i = some phase :=
    phase?_setPhase_self c hphase _
  cases progress with
  | going w =>
    refine ⟨none, left, .nothing hreturned (.inr (awarded?_of_same (by rw [hmove]; rfl))), ?_⟩
    rw [hmove, come, hnew]
    exact ⟨hleaves.2, hlast w rfl⟩
  | done result tried =>
    cases result with
    | ok f =>
      obtain ⟨origin, front, after, hmatch, hstash⟩ := hleaves
      refine ⟨_, _, .found pred f origin front after hcondition (awarded?_of_finish hmove rfl)
        hmatch, ?_⟩
      rw [hmove]
      change Keeps taken _ ((c.setPhase i _).phase? i)
      rw [hnew]
      exact hstash
    | error e =>
      refine ⟨none, left, .nothing hreturned (.inr (awarded?_of_finish hmove rfl)), ?_⟩
      rw [hmove]
      change Keeps taken _ ((c.setPhase i _).phase? i)
      rw [hnew]
      exact hleaves

lemma Keeps.waitFor (h : Keeps taken left (c.phase? i)) (id : String) (pred : Frame → Bool) :
    ∃ given left', c.Hands i (.waitFor i id pred) left given left' ∧
      Keeps taken left' ((c.move (.waitFor i id pred)).phase? i) := by
  cases hinbox : c.inbox? i with
  | none =>
    have hsame : c.move (.waitFor i id pred) = c := by simp only [move, hinbox]
    refine ⟨none, left, .nothing rfl (.inr (awarded?_of_same (by rw [hsame]))), ?_⟩
    rwa [hsame]
  | some found =>
    obtain ⟨s, b⟩ := found
    have hphase := inbox?_eq_some hinbox
    rw [hphase] at h
    obtain rfl : b.stash = left := h
    have hmove : c.move (.waitFor i id pred) =
        c.come i s id (Wait.start pred b).1 (Wait.start pred b).2 := by
      rw [← waitFor_eq]
      simp only [move, hinbox]
    refine keeps_come hphase (if_pos rfl) rfl hmove (Wait.leaves_start pred b) fun w hgoing => ?_
    obtain ⟨-, tried, rfl⟩ := Wait.start_going (Prod.ext rfl hgoing)
    exact fun hheld => absurd rfl hheld

lemma Keeps.wait {s s' : Session} {id : String} {b : Inbox} {w : Wait} {ev : Event}
    (h : Keeps taken left (c.phase? i))
    (hphase : c.phase? i = some (.established s (.waiting id b w)))
    (htake : s.takeEvent? = some (ev, s')) :
    ∃ given left', c.Hands i (.act (.holding i)) (left ++ [ev]) given left' ∧
      Keeps (taken ++ [ev]) left' ((c.move (.act (.holding i))).phase? i) := by
  rw [hphase] at h
  have hmove : c.move (.act (.holding i)) = c.come i s' id (w.step b ev).1 (w.step b ev).2 := by
    simp only [move, act?, hphase, wait?_eq c i id b w htake, Option.getD_some]
  refine keeps_come hphase ?_ rfl hmove (Wait.leaves_step h.1 ev) fun w' hgoing _ reason hlast => ?_
  · simp only [condition?, hphase, if_true]
  · rw [List.getLast?_concat] at hlast
    exact Wait.ne_disconnected_of_going (Prod.ext rfl hgoing) reason (Option.some.inj hlast)

lemma Keeps.starve {s : Session} {id : String} {b : Inbox} {w : Wait}
    (h : Keeps taken left (c.phase? i))
    (hphase : c.phase? i = some (.established s (.waiting id b w)))
    (htake : s.takeEvent? = none)
    (hover : s.isSilent = true → ∃ reason, taken.getLast? = some (.disconnected reason)) :
    c.Hands i (.act (.holding i)) left none left ∧
      Keeps taken left ((c.move (.act (.holding i))).phase? i) := by
  have hkept := h
  rw [hphase] at hkept
  obtain ⟨hkeeps, hlast⟩ := hkept
  by_cases hsilent : s.isSilent = true
  · obtain ⟨reason, hreason⟩ := hover hsilent
    have hheld : w.held = none := by
      by_contra hheld
      exact hlast hheld reason hreason
    simp only [Wait.Keeps, hheld] at hkeeps
    have hmove : c.move (.act (.holding i)) = (c.setPhase i (.established s (.free b))).finish id
        (.notFound .connectionClosed w.tried) := by
      simp only [move, act?, hphase, wait?, htake, if_pos hsilent, Option.getD_some]
    refine ⟨.nothing rfl (.inr (awarded?_of_finish hmove rfl)), ?_⟩
    rw [hmove]
    change Keeps _ _ ((c.setPhase i _).phase? i)
    rw [phase?_setPhase_self c hphase]
    exact hkeeps.1
  · have hsame : c.move (.act (.holding i)) = c := by
      simp only [move, act?, hphase, wait?, htake, if_neg hsilent, Option.getD_none]
    refine ⟨.nothing rfl (.inr (awarded?_of_same (by rw [hsame]))), ?_⟩
    rwa [hsame]

lemma Keeps.hold (h : Keeps taken left (c.phase? i))
    (hover : ∀ s id b w, c.phase? i = some (.established s (.waiting id b w)) →
      s.isSilent = true → ∃ reason, taken.getLast? = some (.disconnected reason)) :
    ∃ given left', c.Hands i (.act (.holding i))
        (left ++ (c.taken? i (.act (.holding i))).toList) given left' ∧
      Keeps (taken ++ (c.taken? i (.act (.holding i))).toList) left'
        ((c.move (.act (.holding i))).phase? i) := by
  by_cases hwaiting : ∃ s id b w, c.phase? i = some (.established s (.waiting id b w))
  · obtain ⟨s, id, b, w, hphase⟩ := hwaiting
    cases htake : s.takeEvent? with
    | some next =>
      obtain ⟨ev, s'⟩ := next
      have htaken : c.taken? i (.act (.holding i)) = some ev := by simp [taken?, hphase, htake]
      rw [htaken]
      exact h.wait hphase htake
    | none =>
      have htaken : c.taken? i (.act (.holding i)) = none := by simp [taken?, hphase, htake]
      rw [htaken, Option.toList_none, List.append_nil, List.append_nil]
      exact ⟨none, left, h.starve hphase htake (hover s id b w hphase)⟩
  · have htaken : c.taken? i (.act (.holding i)) = none := by
      simp only [taken?]
      split
      · rename_i s id b w hphase
        exact absurd ⟨s, id, b, w, hphase⟩ hwaiting
      · rfl
    have hcondition : c.condition? i (.act (.holding i)) = none := by
      simp only [condition?]
      split
      · rename_i s id b w hphase
        exact absurd ⟨s, id, b, w, hphase⟩ hwaiting
      · rfl
    rw [htaken, Option.toList_none, List.append_nil, List.append_nil]
    refine ⟨none, left, .nothing rfl (.inl hcondition), ?_⟩
    have hmoved := c.phaseMoved (.act (.holding i)) i
    rw [htaken] at hmoved
    generalize c.phase? i = old at h hmoved hwaiting
    generalize (c.move (.act (.holding i))).phase? i = new at hmoved
    cases hmoved with
    | same => exact h
    | joined _ phase hjoins => cases hjoins
    | starved id s b w => exact absurd ⟨s, id, b, w, rfl⟩ hwaiting
    | left => trivial

lemma Keeps.moved (h : Keeps taken left (c.phase? i))
    (hover : ∀ s id b w, c.phase? i = some (.established s (.waiting id b w)) →
      s.isSilent = true → ∃ reason, taken.getLast? = some (.disconnected reason))
    (t : Turn) (hcancel : t.move.cancels i = false) :
    ∃ given left', c.Hands i t.move (left ++ (c.taken? i t.move).toList) given left' ∧
      Keeps (taken ++ (c.taken? i t.move).toList) left' ((c.play t).phase? i) := by
  cases hm : t.move.handles i with
  | false =>
    have hmoved := c.phaseMoved_play t i
    rw [taken?_of_handles hm, Option.toList_none, List.append_nil, List.append_nil]
    exact ⟨none, left,
      .nothing (returned?_of_handles hm) (.inl (condition?_of_handles hm)),
      h.others hmoved hm hcancel⟩
  | true =>
    have hplay : c.play t = c.move t.move := by
      refine play_of_ne fun j hj => ?_
      rw [hj] at hm
      cases hm
    rw [hplay]
    generalize t.move = m at hm
    cases m with
    | recv j =>
      obtain rfl : j = i := by simpa [Move.handles] using hm
      exact h.recv
    | waitFor j id pred =>
      obtain rfl : j = i := by simpa [Move.handles] using hm
      simp only [taken?, Option.toList_none, List.append_nil]
      exact h.waitFor id pred
    | act a =>
      cases a with
      | holding j =>
        obtain rfl : j = i := by simpa [Move.handles] using hm
        exact h.hold hover
      | _ => cases hm
    | _ => cases hm

/-! ## Runs -/

lemma Hands.perm {avail left' : List Event} {given : Option Event}
    (h : c.Hands i m avail given left') : (given.toList ++ left').Perm avail := by
  cases h with
  | nothing => exact .refl _
  | first ev rest hrecv havail =>
    rw [havail]
    exact .refl _
  | found pred f origin front after hwait hfound hmatch =>
    rw [hmatch.split]
    change (.message f origin :: (front ++ after)).Perm _
    exact List.perm_middle.symm

lemma Hands.sublist {avail left' : List Event} {given : Option Event}
    (h : c.Hands i m avail given left') : left'.Sublist avail := by
  cases h with
  | nothing => exact .refl _
  | first ev rest hrecv havail =>
    rw [havail]
    exact List.sublist_cons_self ev left'
  | found pred f origin front after hwait hfound hmatch =>
    rw [hmatch.split]
    exact (List.sublist_cons_self _ after).append_left front

lemma Ledger.conserves {ts : List Turn} {handed left : List Event}
    (h : Ledger c i ts handed left) :
    (handed ++ left).Perm (takenBy i c ts) ∧ left.Sublist (takenBy i c ts) := by
  induction h with
  | nil => exact ⟨.refl _, .refl _⟩
  | @concat ts handed left left' given t h hhands ih =>
    obtain ⟨hperm, hsublist⟩ := ih
    obtain ⟨m, n⟩ := t
    rw [takenBy_concat]
    refine ⟨?_, hhands.sublist.trans (hsublist.append_right _)⟩
    have hgiven := hhands.perm.append_left handed
    rw [← List.append_assoc, ← List.append_assoc] at hgiven
    exact hgiven.trans (hperm.append_right _)

lemma taken_ofTurns (i : Nat) (c : Client) (ts : List Turn) :
    (Feed.ofTurns i c ts).taken = takenBy i c ts := by
  induction ts using List.reverseRecOn with
  | nil => rfl
  | append_singleton ts t ih =>
    obtain ⟨m, n⟩ := t
    rw [Feed.ofTurns_concat, takenBy_concat, ← ih, Feed.note, Feed.client_ofTurns]

lemma ended_of_silent (hnew : c.phase? i = none) {ts : List Turn} {s : Session} {id : String}
    {b : Inbox} {w : Wait}
    (hphase : (c.playAll ts).phase? i = some (.established s (.waiting id b w)))
    (hsilent : s.isSilent = true) :
    ∃ reason, (takenBy i c ts).getLast? = some (.disconnected reason) := by
  have hagrees := Feed.agrees_ofTurns hnew ts
  rw [Feed.client_ofTurns, hphase] at hagrees
  obtain ⟨hfeeds, -, hheld⟩ := hagrees.feeds
  rw [taken_ofTurns] at hfeeds
  obtain ⟨hstage, hitems⟩ : s.stage = .gone ∧ s.channel.items = [] := by
    simpa [Session.isSilent] using hsilent
  have hover : s.isOver = true := by rw [Session.isOver, hstage]
  obtain ⟨hgone, reason, hall⟩ := hfeeds.ended hover hheld
  have hbacklog : s.backlog = [] := by
    rcases hgone with hleaving | ⟨-, hbacklog⟩
    · cases hleaving.symm.trans hstage
    · exact hbacklog
  rw [Session.pending, hitems, hbacklog, List.append_nil, List.append_nil] at hall
  exact ⟨reason, by rw [hall, List.getLast?_concat]⟩

/-- A run hands out what it may hand out, and the rest stays with who has the events. -/
lemma keeps_run (hnew : c.phase? i = none) (ts : List Turn)
    (hcancel : ∀ t ∈ ts, t.move.cancels i = false) :
    ∃ handed left, Ledger c i ts handed left ∧
      Keeps (takenBy i c ts) left ((c.playAll ts).phase? i) := by
  induction ts using List.reverseRecOn with
  | nil =>
    refine ⟨[], [], .nil, ?_⟩
    change Keeps _ _ (c.phase? i)
    rw [hnew]
    rfl
  | append_singleton ts t ih =>
    obtain ⟨handed, left, hledger, hkeeps⟩ := ih fun t ht => hcancel t (List.mem_append_left _ ht)
    obtain ⟨given, left', hhands, hkeeps'⟩ := hkeeps.moved
      (fun s id b w hphase => ended_of_silent hnew hphase) t (hcancel t (by simp))
    refine ⟨_, left', hledger.concat t hhands, ?_⟩
    obtain ⟨m, n⟩ := t
    rw [takenBy_concat, playAll_append]
    exact hkeeps'

lemma inbox?_setPhase {s : Session} {b b' : Inbox} (h : c.inbox? i = some (s, b)) :
    (c.setPhase i (.established s (.free b'))).inbox? i = some (s, b') := by
  have hphase := inbox?_eq_some h
  simp only [inbox?, handle?, hphase] at h
  simp only [inbox?, handle?, phase?_setPhase_self c hphase]
  cases hstage : s.stage with
  | starting requests =>
    rw [hstage] at h
    cases h
  | _ => rfl

lemma Ledger.receive {ts : List Turn} {handed left : List Event} {s : Session} {b : Inbox}
    (h : Ledger c i ts handed left) (hinbox : (c.playAll ts).inbox? i = some (s, b))
    (hleft : b.stash = left) :
    Ledger c i (ts ++ List.replicate left.length (.first (.recv i))) (handed ++ left) [] := by
  induction left generalizing ts handed b with
  | nil => rwa [List.length_nil, List.replicate_zero, List.append_nil, List.append_nil]
  | cons ev left ih =>
    obtain ⟨stash, windows⟩ := b
    obtain rfl : stash = ev :: left := hleft
    obtain ⟨htaken, hreturned, hmove⟩ := recv_of_stash hinbox
    have hconcat := h.concat (.first (.recv i)) (.first ev left hreturned (by
      change _ ++ ((c.playAll ts).taken? i (.recv i)).toList = _
      rw [htaken]
      exact List.append_nil _))
    have hrun : c.playAll (ts ++ [.first (.recv i)]) =
        (c.playAll ts).setPhase i (.established s (.free ⟨left, windows⟩)) := by
      rw [playAll_concat, play_first, hmove]
    have hrest := ih hconcat (b := ⟨left, windows⟩) (by rw [hrun]; exact inbox?_setPhase hinbox) rfl
    rw [List.append_assoc, List.append_assoc] at hrest
    exact hrest

/-- No event is lost or doubled by waits. Of the events that a run takes out of the channel of a
connection, each has been handed to the application once, by `recv` or as the frame that a wait
found, or is left; what is left is in its old order, and the application receives it next. -/
theorem handed_out_once (hnew : c.phase? i = none) (ts : List Turn)
    (hcancel : ∀ t ∈ ts, t.move.cancels i = false) :
    ∃ handed left, Ledger c i ts handed left ∧
      (handed ++ left).Perm (takenBy i c ts) ∧ left.Sublist (takenBy i c ts) ∧
      ∀ s b, (c.playAll ts).inbox? i = some (s, b) →
        b.stash = left ∧
          Ledger c i (ts ++ List.replicate left.length (.first (.recv i))) (handed ++ left) [] := by
  obtain ⟨handed, left, hledger, hkeeps⟩ := keeps_run hnew ts hcancel
  obtain ⟨hperm, hsublist⟩ := hledger.conserves
  refine ⟨handed, left, hledger, hperm, hsublist, fun s b hinbox => ?_⟩
  rw [inbox?_eq_some hinbox] at hkeeps
  exact ⟨hkeeps, hledger.receive hinbox hkeeps⟩

theorem handed_out_once_overlapping : ∃ handed left,
    (∀ t ∈ overlapping, t.move.cancels 0 = false) ∧ Ledger least 0 overlapping handed left ∧
      (handed ++ left).Perm (takenBy 0 least overlapping) ∧
      left = [.syncBegin .direct, .syncBegin (.group 7), .message (bare 5) .catchup,
        .syncEnd .direct 0 false] := by
  have hnew : least.phase? 0 = none := rfl
  have hcancel : ∀ t ∈ overlapping, t.move.cancels 0 = false := by decide
  have hstash : ((least.playAll overlapping).inbox? 0).map (·.2.stash) =
      some [.syncBegin .direct, .syncBegin (.group 7), .message (bare 5) .catchup,
        .syncEnd .direct 0 false] := by decide +kernel
  obtain ⟨⟨s, b⟩, hinbox, hb⟩ := Option.map_eq_some_iff.mp hstash
  obtain ⟨handed, left, hledger, hperm, -, hleft⟩ := handed_out_once hnew overlapping hcancel
  exact ⟨handed, left, hcancel, hledger, hperm, (hleft s b hinbox).1.symm.trans hb⟩

end Client

end Parley
