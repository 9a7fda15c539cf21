import Mathlib.Tactic.Lemma
import Parley.Session.Inbox

/-!
# What a wait returns

The window of a scope is open after a list of events if one of them has begun it and none behind
that has ended it. The events that a wait takes are passed to it one by one: the first match among
them is the frame it returns, and one that came inside windows is kept back until all of those have
ended.
-/

namespace Parley

/-- Whether no window of a scope is open any more after an event. -/
def Event.ends (scope : Scope) : Event → Bool
  | .syncEnd other _ _ => other = scope
  | .disconnected _ => true
  | _ => false

/-- Whether a wait for a condition passes an event over as long as it holds nothing. -/
def Event.isPassed (pred : Frame → Bool) (ev : Event) : Bool := ev.candidate?.all (!pred ·)

/-- A window of a scope has been begun and not ended since. -/
def OpenAfter (seen : List Event) (scope : Scope) : Prop :=
  ∃ before after, seen = before ++ .syncBegin scope :: after ∧ ∀ ev ∈ after, ev.ends scope = false

lemma not_openAfter_nil (scope : Scope) : ¬ OpenAfter [] scope := by
  rintro ⟨before, after, hseen, -⟩
  simp at hseen

lemma openAfter_concat {seen : List Event} {ev : Event} {scope : Scope} :
    OpenAfter (seen ++ [ev]) scope ↔
      ev = .syncBegin scope ∨ OpenAfter seen scope ∧ ev.ends scope = false := by
  constructor
  · rintro ⟨before, after, hseen, hafter⟩
    -- the event is the one that begins the window, or lies behind that one
    rcases List.eq_nil_or_concat after with rfl | ⟨after, last, rfl⟩
    · exact .inl (List.append_inj_right' hseen rfl |> List.cons.inj).1
    · rw [List.concat_eq_append, ← List.cons_append, ← List.append_assoc] at hseen
      obtain ⟨rfl, hlast⟩ := List.append_inj' hseen rfl
      obtain rfl := (List.cons.inj hlast).1
      rw [List.concat_eq_append] at hafter
      exact .inr ⟨⟨before, after, rfl, fun ev hev => hafter ev (by simp [hev])⟩,
        hafter ev (by simp)⟩
  · rintro (rfl | ⟨⟨before, after, rfl, hafter⟩, hev⟩)
    · exact ⟨seen, [], rfl, by simp⟩
    · refine ⟨before, after ++ [ev], by simp, ?_⟩
      intro ev' hev'
      rcases List.mem_append.mp hev' with hin | hin
      · exact hafter ev' hin
      · rwa [List.mem_singleton.mp hin]

namespace Inbox

/-- The windows that are open after the events seen. -/
def Follows (b : Inbox) (seen : List Event) : Prop :=
  ∀ scope, scope ∈ b.windows ↔ OpenAfter seen scope

variable {b b' : Inbox} {seen : List Event} {ev : Event}

lemma mem_observe {scope : Scope} :
    scope ∈ (b.observe ev).windows ↔
      ev = .syncBegin scope ∨ scope ∈ b.windows ∧ ev.ends scope = false := by
  cases ev with
  | message f origin => simp [observe, Event.ends]
  | syncBegin other =>
    by_cases h : scope = other
    · simp [observe, Event.ends, h]
    · simp [observe, Event.ends, h, Ne.symm h]
  | syncEnd other cursor caughtUp => simp [observe, Event.ends, eq_comm (a := scope)]
  | disconnected reason => simp [observe, Event.ends]

lemma follows_nil : Follows {} [] := fun scope => by simpa using not_openAfter_nil scope

lemma Follows.observe (h : b.Follows seen) (ev : Event) : (b.observe ev).Follows (seen ++ [ev]) :=
  fun scope => by rw [mem_observe, openAfter_concat, h scope]

lemma Follows.congr (h : b.Follows seen) (hwindows : b'.windows = b.windows) :
    b'.Follows seen := by
  intro scope
  rw [hwindows]
  exact h scope

end Inbox

/-- A frame is the first match among the events since a wait began: those in front of it were
passed over. -/
structure FirstMatch (pred : Frame → Bool) (f : Frame) (origin : Origin) (since : List Event)
    (front after : List Event) : Prop where
  split : since = front ++ .message f origin :: after
  passed : ∀ ev ∈ front, ev.isPassed pred = true
  candidate : (Event.message f origin).candidate? = some f
  satisfies : pred f = true

/-- What a wait knows from the events taken before it and since it began. One that holds a frame
still lists every window that was open around the frame and has not ended. -/
def Wait.Knows (w : Wait) (earlier since : List Event) : Prop :=
  match w.held with
  | none => ∀ ev ∈ since, ev.isPassed w.pred = true
  | some (f, pending) =>
    ∃ front after, FirstMatch w.pred f .catchup since front after ∧
      ∀ scope, OpenAfter (earlier ++ front) scope →
        scope ∈ pending ∨ ∃ ev ∈ after, ev.ends scope = true

/-- The frame is the first match since a wait began, and if it came in a catch-up, then every window
that was open around it has ended. -/
def Released (pred : Frame → Bool) (f : Frame) (earlier since : List Event) : Prop :=
  ∃ front origin after, FirstMatch pred f origin since front after ∧
    (origin = .catchup →
      ∀ scope, OpenAfter (earlier ++ front) scope → ∃ ev ∈ after, ev.ends scope = true)

namespace FirstMatch

variable {pred : Frame → Bool} {f : Frame} {origin : Origin} {since front after : List Event}

lemma concat (h : FirstMatch pred f origin since front after) (ev : Event) :
    FirstMatch pred f origin (since ++ [ev]) front (after ++ [ev]) :=
  { h with split := by simp [h.split] }

lemma last (hpassed : ∀ ev ∈ since, ev.isPassed pred = true)
    (hcandidate : (Event.message f origin).candidate? = some f) (hpred : pred f = true) :
    FirstMatch pred f origin (since ++ [.message f origin]) since [] where
  split := rfl
  passed := hpassed
  candidate := hcandidate
  satisfies := hpred

end FirstMatch

/-- What a wait has come to agrees with the events. -/
def WaitProgress.Sound (pred : Frame → Bool) (earlier since : List Event) : WaitProgress → Prop
  | .going w => w.pred = pred ∧ w.Knows earlier since
  | .done result _ => ∀ f, result = .ok f → Released pred f earlier since

namespace Wait

variable {w : Wait} {b : Inbox} {earlier since : List Event} {ev : Event}

lemma knows_start (pred : Frame → Bool) (tried : Nat) (earlier : List Event) :
    Knows { pred, tried } earlier [] := by
  intro ev hev
  simp at hev

lemma knows_concat (hheld : w.held = none) (h : w.Knows earlier since)
    (hev : ev.isPassed w.pred = true) (tried : Nat) :
    Knows { w with tried } earlier (since ++ [ev]) := by
  simp only [Knows, hheld] at h ⊢
  intro ev' hev'
  rcases List.mem_append.mp hev' with hin | hin
  · exact h ev' hin
  · rwa [List.mem_singleton.mp hin]

/-- A scope has to be listed only until an event ends its window. -/
lemma knows_held {f : Frame} {pending : List Scope} (hheld : w.held = some (f, pending))
    (h : w.Knows earlier since) (ev : Event) (left : List Scope)
    (hleft : ∀ scope ∈ pending, scope ∈ left ∨ ev.ends scope = true) :
    Knows { w with held := some (f, left) } earlier (since ++ [ev]) := by
  simp only [Knows, hheld] at h ⊢
  obtain ⟨front, after, hmatch, hopen⟩ := h
  refine ⟨front, after ++ [ev], hmatch.concat ev, ?_⟩
  intro scope hscope
  rcases hopen scope hscope with hin | ⟨ev', hin, hends⟩
  · rcases hleft scope hin with hin | hends
    · exact .inl hin
    · exact .inr ⟨ev, by simp, hends⟩
  · exact .inr ⟨ev', by simp [hin], hends⟩

lemma released_of_knows {f : Frame} (hheld : w.held = some (f, [])) (h : w.Knows earlier since) :
    Released w.pred f earlier since := by
  simp only [Knows, hheld] at h
  obtain ⟨front, after, hmatch, hopen⟩ := h
  refine ⟨front, .catchup, after, hmatch, ?_⟩
  intro _ scope hscope
  exact (hopen scope hscope).resolve_left List.not_mem_nil

lemma sound_tryFrame {f : Frame} {origin : Origin} (hheld : w.held = none)
    (h : w.Knows earlier since) (hcandidate : (Event.message f origin).candidate? = some f)
    (hb : b.Follows (earlier ++ since)) :
    (w.tryFrame b (.message f origin) f origin).2.Sound w.pred earlier
      (since ++ [.message f origin]) := by
  have hpassed : ∀ ev ∈ since, ev.isPassed w.pred = true := by simpa only [Knows, hheld] using h
  rw [tryFrame]
  split
  · rename_i hpred
    have hmatch := FirstMatch.last hpassed hcandidate hpred
    split
    · rename_i hfree
      rintro g ⟨⟩
      refine ⟨since, origin, [], hmatch, ?_⟩
      rintro rfl scope hscope
      rw [← hb scope, hfree.resolve_left (by decide)] at hscope
      exact absurd hscope List.not_mem_nil
    · rename_i hheld'
      obtain rfl : origin = .catchup := by
        cases origin with
        | live => simp at hheld'
        | push => cases hcandidate
        | catchup => rfl
      exact ⟨rfl, since, [], hmatch, fun scope hscope => .inl ((hb scope).mpr hscope)⟩
  · rename_i hpred
    refine ⟨rfl, knows_concat hheld h ?_ _⟩
    rw [Event.isPassed, hcandidate]
    simpa using hpred

lemma windows_tryFrame (w : Wait) (b : Inbox) (ev : Event) (f : Frame) (origin : Origin) :
    (w.tryFrame b ev f origin).1.windows = b.windows := by
  rw [tryFrame]
  split
  · split <;> rfl
  · rfl

lemma windows_step (w : Wait) (b : Inbox) (ev : Event) :
    (w.step b ev).1.windows = (b.observe ev).windows := by
  unfold step
  split
  · split
    · rfl
    · exact windows_tryFrame _ _ _ _ _
  · dsimp only
    split <;> rfl
  · split <;> rfl
  · rfl

lemma sound_step_of_none (hheld : w.held = none) (h : w.Knows earlier since)
    (hb : b.Follows (earlier ++ since)) :
    (w.step b ev).2.Sound w.pred earlier (since ++ [ev]) := by
  cases ev with
  | message f origin =>
    cases origin with
    | push =>
      simp only [step, hheld]
      exact ⟨rfl, knows_concat hheld h rfl w.tried⟩
    | live =>
      simp only [step, hheld]
      exact sound_tryFrame hheld h rfl hb
    | catchup =>
      simp only [step, hheld]
      exact sound_tryFrame hheld h rfl hb
  | syncBegin scope =>
    simp only [step, hheld]
    exact ⟨rfl, knows_concat hheld h rfl w.tried⟩
  | syncEnd scope cursor caughtUp =>
    simp only [step, hheld]
    exact ⟨rfl, knows_concat hheld h rfl w.tried⟩
  | disconnected reason =>
    simp only [step, hheld]
    rintro g ⟨⟩

lemma sound_step_of_some {f : Frame} {pending : List Scope} (hheld : w.held = some (f, pending))
    (h : w.Knows earlier since) : (w.step b ev).2.Sound w.pred earlier (since ++ [ev]) := by
  have hkept : w.Knows earlier (since ++ [ev]) := by
    have hknows := knows_held hheld h ev pending fun _ hin => .inl hin
    rwa [← hheld] at hknows
  cases ev with
  | message g origin =>
    simp only [step, hheld]
    exact ⟨rfl, hkept⟩
  | syncBegin scope =>
    simp only [step, hheld]
    exact ⟨rfl, hkept⟩
  | syncEnd scope cursor caughtUp =>
    have hknows := knows_held hheld h (.syncEnd scope cursor caughtUp)
      (pending.filter (· ≠ scope)) fun other hin => by
        by_cases heq : other = scope
        · exact .inr (by simp [Event.ends, heq])
        · exact .inl (List.mem_filter.mpr ⟨hin, by simpa using heq⟩)
    simp only [step, hheld]
    split
    · rename_i hnone
      rintro g ⟨⟩
      rw [hnone] at hknows
      exact released_of_knows (w := { w with held := some (f, []) }) rfl hknows
    · exact ⟨rfl, hknows⟩
  | disconnected reason =>
    have hknows := knows_held hheld h (.disconnected reason) [] fun _ _ => .inr rfl
    simp only [step, hheld]
    rintro g ⟨⟩
    exact released_of_knows (w := { w with held := some (f, []) }) rfl hknows

/-- A wait that takes an event knows as much afterwards, and what it returns may be returned. -/
theorem sound_step (h : w.Knows earlier since) (hb : b.Follows (earlier ++ since)) :
    (w.step b ev).2.Sound w.pred earlier (since ++ [ev]) := by
  cases hheld : w.held with
  | none => exact sound_step_of_none hheld h hb
  | some found => exact sound_step_of_some hheld h

lemma follows_step (w : Wait) (hb : b.Follows (earlier ++ since)) :
    (w.step b ev).1.Follows (earlier ++ (since ++ [ev])) := by
  rw [← List.append_assoc]
  exact (hb.observe ev).congr (windows_step w b ev)

end Wait

end Parley
