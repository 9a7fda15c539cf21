import Mathlib.Data.Bool.Count
import Parley.Proofs.Sync.Held

/-!
# The ends of two windows

Two sessions of a client share its engine and its store. Each of them takes the end of a window in
three steps, and the steps of the two may come in any order: the cursors to be stored are those held
when the window is closed, and may be stored when others are held already. `Meeting.retained_iff`
tells the orders after which what is stored last has all that the server is told.
-/

namespace Parley

/-- How far a session has come with the frame that ends a window. -/
inductive Ending
  | unread
  | closed (snapshot : Cursors)
  | stored (persisted : Bool)
  | committed (outcome : EndOutcome)

namespace Ending

/-- The next step towards the end of a window at a key, over what all sessions share. -/
def next (point : SyncPoint) (p : Progress) : Ending → Progress × Ending
  | unread =>
    let (engine, snapshot) := p.engine.handleEnd point.scope point.key
    ({ p with engine }, (snapshot.map closed).getD (stored false))
  | closed snapshot =>
    let (persisted, store) := p.store.save snapshot
    ({ p with store }, stored persisted)
  | stored persisted =>
    let (engine, outcome) := p.engine.commitEnd point.scope point.key persisted
    ({ p with engine }, committed outcome)
  | committed outcome => (p, committed outcome)

def ack? : Ending → Option Message
  | committed outcome => outcome.ack
  | _ => none

/-- How many steps are left. A key that does not move the cursor leaves nothing to be stored. -/
def ahead (point : SyncPoint) (p : Progress) : Ending → Nat
  | unread => if p.engine.held point.scope < point.key then 3 else 2
  | closed _ => 2
  | stored _ => 1
  | committed _ => 0

section Next
variable {point : SyncPoint} {p : Progress}

lemma held_next_ne (e : Ending) {scope : Scope} (h : scope ≠ point.scope) :
    (e.next point p).1.engine.held scope = p.engine.held scope := by
  cases e with
  | unread => exact p.engine.held_handleEnd point.scope point.key scope
  | stored persisted =>
    refine (p.engine.held_commitEnd point.scope point.key persisted scope).trans ?_
    rw [if_neg fun hcommit => h hcommit.1]
  | closed snapshot => rfl
  | committed outcome => rfl

lemma next_unread (h : p.engine.held point.scope < point.key) :
    ∃ engine snapshot, unread.next point p = ({ p with engine }, closed snapshot) ∧
      (∀ scope, engine.held scope = p.engine.held scope) ∧
      ∀ scope, snapshot.at scope =
        if scope = point.scope then point.key else p.engine.held scope := by
  have hend : (p.engine.handleEnd point.scope point.key).2 =
      some ((p.engine.handleEnd point.scope point.key).1.cursors.set point.key point.scope) :=
    if_pos (decide_eq_true h)
  have hheld := p.engine.held_handleEnd point.scope point.key
  obtain ⟨-, -, hsnapshot⟩ := Engine.snapshot_of_handleEnd hend
  refine ⟨_, _, ?_, hheld, hsnapshot⟩
  simp only [next, hend, Option.map_some, Option.getD_some]

lemma next_unread_of_le (h : point.key ≤ p.engine.held point.scope) :
    ∃ engine, unread.next point p = ({ p with engine }, stored false) ∧
      ∀ scope, engine.held scope = p.engine.held scope := by
  have hend : (p.engine.handleEnd point.scope point.key).2 = none :=
    if_neg fun hadvances => Int64.not_lt.mpr h (of_decide_eq_true hadvances)
  refine ⟨_, ?_, p.engine.held_handleEnd point.scope point.key⟩
  simp only [next, hend, Option.map_none, Option.getD_none]

lemma next_stored_true (h : p.engine.held point.scope < point.key) :
    ∃ engine outcome, (stored true).next point p = ({ p with engine }, committed outcome) ∧
      outcome.ack = some (point.scope.confirm point.key) ∧
      ∀ scope, engine.held scope =
        if scope = point.scope then point.key else p.engine.held scope := by
  refine ⟨_, _, rfl, if_pos (decide_eq_true h), fun scope => ?_⟩
  refine (p.engine.held_commitEnd point.scope point.key true scope).trans ?_
  simp only [h, and_true]

lemma next_stored_false (point : SyncPoint) (p : Progress) : ∃ engine outcome,
    (stored false).next point p = ({ p with engine }, committed outcome) ∧ outcome.ack = none ∧
      ∀ scope, engine.held scope = p.engine.held scope := by
  refine ⟨_, _, rfl, rfl, fun scope => ?_⟩
  refine (p.engine.held_commitEnd point.scope point.key false scope).trans ?_
  rw [if_neg (by simp)]

lemma ahead_next (e : Ending) : (e.next point p).2.ahead point (e.next point p).1 =
    e.ahead point p - 1 := by
  cases e with
  | unread =>
    by_cases h : p.engine.held point.scope < point.key
    · obtain ⟨engine, snapshot, hnext, -⟩ := next_unread h
      rw [hnext, ahead, ahead, if_pos h]
    · obtain ⟨engine, hnext, -⟩ := next_unread_of_le (Int64.not_lt.mp h)
      rw [hnext, ahead, ahead, if_neg h]
  | closed snapshot => rfl
  | stored persisted => rfl
  | committed outcome => rfl

lemma ahead_congr {p' : Progress} (e : Ending)
    (h : p'.engine.held point.scope = p.engine.held point.scope) :
    e.ahead point p' = e.ahead point p := by
  cases e with
  | unread => rw [ahead, ahead, h]
  | _ => rfl

end Next

end Ending

/-! ## Two sessions -/

/-- What two sessions share, and how far each of them has come with its frame. -/
structure Meeting where
  progress : Progress
  first : Ending
  second : Ending

namespace Meeting

def step (a b : SyncPoint) (s : Meeting) : Bool → Meeting
  | true =>
    let (progress, first) := s.first.next a s.progress
    { s with progress, first }
  | false =>
    let (progress, second) := s.second.next b s.progress
    { s with progress, second }

def run (a b : SyncPoint) (s : Meeting) (turns : List Bool) : Meeting := turns.foldl (step a b) s

/-- All that is told to the server is in the cursors that were stored last. -/
def Retained (s : Meeting) : Prop :=
  ∀ scope key, s.first.ack? = some (scope.confirm key) ∨
    s.second.ack? = some (scope.confirm key) →
      ∃ snapshot, s.progress.store.saves.getLast? = some ⟨snapshot, true⟩ ∧
        key ≤ snapshot.at scope

def Succeeds (a b : SyncPoint) (s : Meeting) (turns : List Bool) : Prop :=
  ∀ save ∈ (s.run a b turns).progress.store.saves.drop s.progress.store.saves.length,
    save.saved = true

def swap (s : Meeting) : Meeting := ⟨s.progress, s.second, s.first⟩

section Run
variable {a b : SyncPoint} {s : Meeting} {first : Bool} {turns : List Bool}

lemma run_swap (a b : SyncPoint) (s : Meeting) (turns : List Bool) :
    (s.run a b turns).swap = s.swap.run b a (turns.map not) := by
  induction turns generalizing s with
  | nil => rfl
  | cons first turns ih => cases first <;> exact ih _

lemma retained_swap : s.swap.Retained ↔ s.Retained := by
  simp only [Retained, swap, or_comm]

lemma succeeds_swap (h : s.Succeeds a b turns) : s.swap.Succeeds b a (turns.map not) := by
  rw [Succeeds, ← run_swap]
  exact h

lemma saves_step (a b : SyncPoint) (s : Meeting) (first : Bool) :
    ∃ more, (s.step a b first).progress.store.saves = s.progress.store.saves ++ more := by
  have hnext : ∀ (point : SyncPoint) (e : Ending), ∃ more,
      (e.next point s.progress).1.store.saves = s.progress.store.saves ++ more := by
    intro point e
    cases e with
    | closed snapshot => exact ⟨_, rfl⟩
    | _ => exact ⟨[], by rw [List.append_nil]; rfl⟩
  cases first with
  | true => exact hnext a s.first
  | false => exact hnext b s.second

lemma saves_run (a b : SyncPoint) (s : Meeting) (turns : List Bool) :
    ∃ more, (s.run a b turns).progress.store.saves = s.progress.store.saves ++ more := by
  induction turns generalizing s with
  | nil => exact ⟨[], by rw [List.append_nil]; rfl⟩
  | cons first turns ih =>
    obtain ⟨more, hmore⟩ := saves_step a b s first
    obtain ⟨more', hmore'⟩ := ih (s.step a b first)
    refine ⟨more ++ more', ?_⟩
    change ((s.step a b first).run a b turns).progress.store.saves = _
    rw [hmore', hmore, List.append_assoc]

lemma Succeeds.tail (h : s.Succeeds a b (first :: turns)) :
    (s.step a b first).Succeeds a b turns := by
  intro save hsave
  refine h save ?_
  obtain ⟨more, hmore⟩ := saves_step a b s first
  obtain ⟨more', hmore'⟩ := saves_run a b (s.step a b first) turns
  rw [hmore', List.drop_left] at hsave
  change save ∈ ((s.step a b first).run a b turns).progress.store.saves.drop _
  rw [hmore', hmore, List.append_assoc, List.drop_left]
  exact List.mem_append_right more hsave

lemma Succeeds.step_closed (h : s.Succeeds a b (true :: turns)) {snapshot : Cursors}
    (hfirst : s.first = .closed snapshot) :
    (s.step a b true).first = .stored true ∧ (s.step a b true).second = s.second ∧
      (s.step a b true).progress.engine = s.progress.engine ∧
      (s.step a b true).progress.store.saves.getLast? = some ⟨snapshot, true⟩ := by
  obtain ⟨more, hmore⟩ := saves_run a b (s.step a b true) turns
  have hsaves : (s.step a b true).progress.store.saves =
      s.progress.store.saves ++ [⟨snapshot, (s.progress.store.save snapshot).1⟩] := by
    rw [step, hfirst]
    rfl
  have hsaved : (s.progress.store.save snapshot).1 = true := by
    refine h ⟨snapshot, _⟩ ?_
    change _ ∈ ((s.step a b true).run a b turns).progress.store.saves.drop _
    rw [hmore, hsaves, List.append_assoc, List.drop_left]
    exact List.mem_append_left more (List.mem_singleton_self _)
  have hfirst' : (s.step a b true).first = .stored (s.progress.store.save snapshot).1 := by
    rw [step, hfirst]
    rfl
  have hengine : (s.step a b true).progress.engine = s.progress.engine := by
    rw [step, hfirst]
    rfl
  refine ⟨by rw [hfirst', hsaved], rfl, hengine, ?_⟩
  rw [hsaves, hsaved, List.getLast?_append_of_ne_nil _ (by simp)]
  rfl

end Run

/-! ## Ends that cross -/

/-- A window that was closed when another key was still to be held. -/
inductive Behind (point : SyncPoint) (snapshot : Cursors) (p : Progress) : Ending → Prop
  | closed (h : p.engine.held point.scope < point.key) : Behind point snapshot p (.closed snapshot)
  | stored (h : p.engine.held point.scope < point.key) : Behind point snapshot p (.stored true)
  | committed (outcome : EndOutcome) (h : outcome.ack = some (point.scope.confirm point.key)) :
    Behind point snapshot p (.committed outcome)

/-- Each of two windows was closed before the key of the other was held. -/
structure Crossed (a b : SyncPoint) (snapshot snapshot' : Cursors) (s : Meeting) : Prop where
  first : Behind a snapshot s.progress s.first
  second : Behind b snapshot' s.progress s.second
  lacks : snapshot.at b.scope < b.key
  lacks' : snapshot'.at a.scope < a.key
  last : s.first = .closed snapshot ∧ s.second = .closed snapshot' ∨
    ∃ cursors, s.progress.store.saves.getLast? = some ⟨cursors, true⟩ ∧
      (cursors = snapshot ∨ cursors = snapshot')

section Crossed
variable {a b : SyncPoint} {s : Meeting} {first : Bool} {turns : List Bool}
  {snapshot snapshot' : Cursors}

lemma Behind.congr {point : SyncPoint} {p p' : Progress} {e : Ending}
    (h : Behind point snapshot p e)
    (hheld : p'.engine.held point.scope = p.engine.held point.scope) :
    Behind point snapshot p' e := by
  cases h with
  | closed h => exact .closed (by rwa [hheld])
  | stored h => exact .stored (by rwa [hheld])
  | committed outcome h => exact .committed outcome h

lemma Behind.step_true (h : Behind a snapshot s.progress s.first)
    (hsucceeds : s.Succeeds a b (true :: turns)) :
    Behind a snapshot (s.step a b true).progress (s.step a b true).first := by
  generalize hs : s.first = e at h
  cases h with
  | closed hheld =>
    obtain ⟨hstored, -, hengine, -⟩ := hsucceeds.step_closed hs
    rw [hstored]
    exact .stored (by rwa [hengine])
  | stored hheld =>
    obtain ⟨engine, outcome, hnext, hack, -⟩ := Ending.next_stored_true hheld
    rw [step, hs, hnext]
    exact .committed outcome hack
  | committed outcome hack =>
    rw [step, hs]
    exact .committed outcome hack

lemma Behind.ack {point : SyncPoint} {p : Progress} {e : Ending} (h : Behind point snapshot p e)
    (hahead : e.ahead point p = 0) : e.ack? = some (point.scope.confirm point.key) := by
  cases h with
  | committed outcome hack => exact hack
  | closed hheld => cases hahead
  | stored hheld => cases hahead

lemma Crossed.swap (h : s.Crossed a b snapshot snapshot') :
    s.swap.Crossed b a snapshot' snapshot := by
  obtain ⟨hfirst, hsecond, hlacks, hlacks', hlast⟩ := h
  refine ⟨hsecond, hfirst, hlacks', hlacks, ?_⟩
  rcases hlast with ⟨hclosed, hclosed'⟩ | ⟨cursors, hlast, hcursors⟩
  · exact .inl ⟨hclosed', hclosed⟩
  · exact .inr ⟨cursors, hlast, hcursors.symm⟩

lemma Crossed.step_true (h : s.Crossed a b snapshot snapshot') (hscopes : a.scope ≠ b.scope)
    (hsucceeds : s.Succeeds a b (true :: turns)) :
    (s.step a b true).Crossed a b snapshot snapshot' := by
  obtain ⟨hfirst, hsecond, hlacks, hlacks', hlast⟩ := h
  refine ⟨hfirst.step_true hsucceeds, hsecond.congr (s.first.held_next_ne hscopes.symm), hlacks,
    hlacks', .inr ?_⟩
  generalize hs : s.first = e at hfirst
  cases hfirst with
  | closed hheld =>
    obtain ⟨-, -, -, hlast'⟩ := hsucceeds.step_closed hs
    exact ⟨snapshot, hlast', .inl rfl⟩
  | stored hheld =>
    rcases hlast with ⟨hclosed, -⟩ | hlast
    · rw [hs] at hclosed
      cases hclosed
    · rw [step, hs]
      exact hlast
  | committed outcome hack =>
    rcases hlast with ⟨hclosed, -⟩ | hlast
    · rw [hs] at hclosed
      cases hclosed
    · rw [step, hs]
      exact hlast

lemma Crossed.step (h : s.Crossed a b snapshot snapshot') (hscopes : a.scope ≠ b.scope)
    (hsucceeds : s.Succeeds a b (first :: turns)) :
    (s.step a b first).Crossed a b snapshot snapshot' := by
  cases first with
  | true => exact h.step_true hscopes hsucceeds
  | false => exact (h.swap.step_true hscopes.symm (succeeds_swap hsucceeds)).swap

lemma Crossed.run (h : s.Crossed a b snapshot snapshot') (hscopes : a.scope ≠ b.scope)
    (hsucceeds : s.Succeeds a b turns) : (s.run a b turns).Crossed a b snapshot snapshot' := by
  induction turns generalizing s with
  | nil => exact h
  | cons first turns ih => exact ih (h.step hscopes hsucceeds) hsucceeds.tail

/-- When both have told the server, one of the two keys is not in what is stored last. -/
lemma Crossed.not_retained (h : s.Crossed a b snapshot snapshot')
    (hfirst : s.first.ahead a s.progress = 0) (hsecond : s.second.ahead b s.progress = 0) :
    ¬ s.Retained := by
  obtain ⟨hbehind, hbehind', hlacks, hlacks', hlast⟩ := h
  intro hretained
  obtain ⟨cursors, hcursors, hkey⟩ := hretained a.scope a.key (.inl (hbehind.ack hfirst))
  obtain ⟨cursors', hcursors', hkey'⟩ := hretained b.scope b.key (.inr (hbehind'.ack hsecond))
  rcases hlast with ⟨hclosed, -⟩ | ⟨last, hlast, heither⟩
  · rw [hclosed] at hfirst
    cases hfirst
  · rw [hlast] at hcursors hcursors'
    cases hcursors
    cases hcursors'
    rcases heither with rfl | rfl
    · exact Int64.not_lt.mpr hkey' hlacks
    · exact Int64.not_lt.mpr hkey hlacks'

end Crossed

/-! ## Ends that do not cross -/

/-- An end that moves no cursor. -/
inductive Unmoved (point : SyncPoint) (p : Progress) : Ending → Prop
  | unread (h : point.key ≤ p.engine.held point.scope) : Unmoved point p .unread
  | stored : Unmoved point p (.stored false)
  | committed (outcome : EndOutcome) (h : outcome.ack = none) : Unmoved point p (.committed outcome)

/-- An end whose key is in what is stored last once it has been stored. -/
inductive Kept (point : SyncPoint) (p : Progress) : Ending → Prop
  | unread : Kept point p .unread
  | closed (snapshot : Cursors) (h : snapshot.at point.scope = point.key) :
    Kept point p (.closed snapshot)
  | unstored : Kept point p (.stored false)
  | stored (snapshot : Cursors) (hlast : p.store.saves.getLast? = some ⟨snapshot, true⟩)
    (h : snapshot.at point.scope = point.key) : Kept point p (.stored true)
  | untold (outcome : EndOutcome) (h : outcome.ack = none) : Kept point p (.committed outcome)
  | told (outcome : EndOutcome) (snapshot : Cursors)
    (hack : outcome.ack = some (point.scope.confirm point.key))
    (hlast : p.store.saves.getLast? = some ⟨snapshot, true⟩)
    (h : snapshot.at point.scope = point.key) : Kept point p (.committed outcome)

section Lone
variable {a b point : SyncPoint} {p p' : Progress} {e : Ending} {s : Meeting} {first : Bool}
  {turns : List Bool}

lemma Unmoved.congr (h : Unmoved point p e)
    (hheld : p'.engine.held point.scope = p.engine.held point.scope) : Unmoved point p' e := by
  cases h with
  | unread h => exact .unread (by rwa [hheld])
  | stored => exact .stored
  | committed outcome h => exact .committed outcome h

lemma Unmoved.next (h : Unmoved point p e) :
    Unmoved point (e.next point p).1 (e.next point p).2 ∧ (e.next point p).1.store = p.store := by
  cases h with
  | unread h =>
    obtain ⟨engine, hnext, -⟩ := Ending.next_unread_of_le h
    rw [hnext]
    exact ⟨.stored, rfl⟩
  | stored =>
    obtain ⟨engine, outcome, hnext, hack, -⟩ := Ending.next_stored_false point p
    rw [hnext]
    exact ⟨.committed outcome hack, rfl⟩
  | committed outcome h => exact ⟨.committed outcome h, rfl⟩

lemma Kept.congr (h : Kept point p e) (hstore : p'.store = p.store) : Kept point p' e := by
  cases h with
  | unread => exact .unread
  | closed snapshot h => exact .closed snapshot h
  | unstored => exact .unstored
  | stored snapshot hlast h => exact .stored snapshot (by rwa [hstore]) h
  | untold outcome h => exact .untold outcome h
  | told outcome snapshot hack hlast h => exact .told outcome snapshot hack (by rwa [hstore]) h

lemma Kept.next (h : Kept point p e) : Kept point (e.next point p).1 (e.next point p).2 := by
  cases h with
  | unread =>
    by_cases hheld : p.engine.held point.scope < point.key
    · obtain ⟨engine, snapshot, hnext, -, hsnapshot⟩ := Ending.next_unread hheld
      rw [hnext]
      exact .closed snapshot (by rw [hsnapshot, if_pos rfl])
    · obtain ⟨engine, hnext, -⟩ := Ending.next_unread_of_le (Int64.not_lt.mp hheld)
      rw [hnext]
      exact .unstored
  | closed snapshot h =>
    have hnext : Ending.next point p (.closed snapshot) =
        ({ p with store := (p.store.save snapshot).2 }, .stored (p.store.save snapshot).1) := rfl
    have hlast : (p.store.save snapshot).2.saves.getLast? =
        some ⟨snapshot, (p.store.save snapshot).1⟩ := List.getLast?_concat
    rw [hnext]
    cases hsaved : (p.store.save snapshot).1 with
    | true => exact .stored snapshot (by rw [hlast, hsaved]) h
    | false => exact .unstored
  | unstored =>
    obtain ⟨engine, outcome, hnext, hack, -⟩ := Ending.next_stored_false point p
    rw [hnext]
    exact .untold outcome hack
  | stored snapshot hlast h =>
    rw [Ending.next]
    cases hack : (p.engine.commitEnd point.scope point.key true).2.ack with
    | none => exact .untold _ hack
    | some m =>
      obtain ⟨-, rfl⟩ := Engine.ack_commitEnd hack
      exact .told _ snapshot hack hlast h
  | untold outcome h => exact .untold outcome h
  | told outcome snapshot hack hlast h => exact .told outcome snapshot hack hlast h

lemma Kept.retained (hfirst : Kept a s.progress s.first)
    (hsecond : Unmoved b s.progress s.second) : s.Retained := by
  intro scope key hack
  generalize s.first = e at hfirst hack
  generalize s.second = e' at hsecond hack
  have hnone : e'.ack? = none := by
    cases hsecond with
    | unread h => rfl
    | stored => rfl
    | committed outcome h => exact h
  rw [hnone, or_iff_left (by simp)] at hack
  cases hfirst with
  | told outcome snapshot hack' hlast h =>
    rw [Ending.ack?, hack'] at hack
    cases hack
    exact ⟨snapshot, hlast, Int64.le_of_eq h.symm⟩
  | untold outcome h =>
    rw [Ending.ack?, h] at hack
    cases hack
  | _ => cases hack

lemma retained_run_of_unmoved (hscopes : a.scope ≠ b.scope) (hfirst : Kept a s.progress s.first)
    (hsecond : Unmoved b s.progress s.second) : (s.run a b turns).Retained := by
  induction turns generalizing s with
  | nil => exact hfirst.retained hsecond
  | cons first turns ih =>
    cases first with
    | true => exact ih hfirst.next (hsecond.congr (s.first.held_next_ne hscopes.symm))
    | false => exact ih (hfirst.congr hsecond.next.2) hsecond.next.1

end Lone

section Whole
variable {a b : SyncPoint} {s : Meeting} {first : Bool} {turns : List Bool}

lemma run_three (hfirst : s.first = .unread)
    (hheld : s.progress.engine.held a.scope < a.key)
    (hsucceeds : s.Succeeds a b (true :: true :: true :: turns)) :
    ∃ progress outcome snapshot,
      s.run a b [true, true, true] = ⟨progress, .committed outcome, s.second⟩ ∧
      outcome.ack = some (a.scope.confirm a.key) ∧
      progress.store.saves.getLast? = some ⟨snapshot, true⟩ ∧
      (∀ scope, snapshot.at scope =
        if scope = a.scope then a.key else s.progress.engine.held scope) ∧
      ∀ scope, progress.engine.held scope =
        if scope = a.scope then a.key else s.progress.engine.held scope := by
  obtain ⟨engine, snapshot, hnext, hsame, hsnapshot⟩ := Ending.next_unread hheld
  have hclosed : (s.step a b true).first = .closed snapshot := by
    rw [step, hfirst, hnext]
  have hengine : (s.step a b true).progress.engine = engine := by
    rw [step, hfirst, hnext]
  obtain ⟨hstored, -, hengine', hlast⟩ := hsucceeds.tail.step_closed hclosed
  rw [hengine] at hengine'
  have hheld' : ((s.step a b true).step a b true).progress.engine.held a.scope < a.key := by
    rwa [hengine', hsame]
  obtain ⟨engine', outcome, hnext', hack, hheld''⟩ := Ending.next_stored_true hheld'
  refine ⟨{ ((s.step a b true).step a b true).progress with engine := engine' }, outcome, snapshot,
    ?_, hack, hlast, hsnapshot, fun scope => ?_⟩
  · change ((s.step a b true).step a b true).step a b true = _
    rw [step, hstored, hnext']
    rfl
  · rw [hheld'', hengine', hsame]

lemma retained_of_whole (hscopes : a.scope ≠ b.scope) (hfirst : s.first = .unread)
    (hsecond : s.second = .unread) (hheld : s.progress.engine.held a.scope < a.key)
    (hheld' : s.progress.engine.held b.scope < b.key)
    (hsucceeds : s.Succeeds a b [true, true, true, false, false, false]) :
    (s.run a b [true, true, true, false, false, false]).Retained := by
  obtain ⟨progress, outcome, snapshot, hrun, hack, hlast, -, hengine⟩ :=
    run_three hfirst hheld hsucceeds
  have htail := hsucceeds.tail.tail.tail
  change (s.run a b [true, true, true]).Succeeds a b _ at htail
  change ((s.run a b [true, true, true]).run a b [false, false, false]).Retained
  rw [hrun, hsecond] at htail ⊢
  have hheld'' : progress.engine.held b.scope < b.key := by
    rwa [hengine, if_neg hscopes.symm]
  obtain ⟨progress', outcome', snapshot', hrun', hack', hlast', hsnapshot, -⟩ :=
    run_three (s := swap ⟨progress, .committed outcome, .unread⟩) rfl hheld'' (succeeds_swap htail)
  rw [← retained_swap, run_swap]
  change (run b a (swap ⟨progress, .committed outcome, .unread⟩) [true, true, true]).Retained
  rw [hrun']
  rintro scope key (hconfirm | hconfirm)
  · rw [Ending.ack?, hack'] at hconfirm
    cases hconfirm
    exact ⟨snapshot', hlast', Int64.le_of_eq (by rw [hsnapshot, if_pos rfl])⟩
  · change outcome.ack = _ at hconfirm
    rw [hack] at hconfirm
    cases hconfirm
    refine ⟨snapshot', hlast', Int64.le_of_eq ?_⟩
    rw [hsnapshot, if_neg hscopes]
    exact ((hengine a.scope).trans (if_pos rfl)).symm

end Whole

/-! ## All orders -/

section Orders
variable {a b : SyncPoint} {s : Meeting} {turns : List Bool}

lemma ahead_run (hscopes : a.scope ≠ b.scope) (s : Meeting) (turns : List Bool) :
    (s.run a b turns).first.ahead a (s.run a b turns).progress =
        s.first.ahead a s.progress - turns.count true ∧
      (s.run a b turns).second.ahead b (s.run a b turns).progress =
        s.second.ahead b s.progress - turns.count false := by
  induction turns generalizing s with
  | nil => exact ⟨rfl, rfl⟩
  | cons first turns ih =>
    obtain ⟨hfirst, hsecond⟩ := ih (s.step a b first)
    have hrun : s.run a b (first :: turns) = (s.step a b first).run a b turns := rfl
    rw [hrun, hfirst, hsecond]
    cases first with
    | true =>
      have hnext : (s.step a b true).first.ahead a (s.step a b true).progress =
          s.first.ahead a s.progress - 1 := s.first.ahead_next
      have hother : (s.step a b true).second.ahead b (s.step a b true).progress =
          s.second.ahead b s.progress := s.second.ahead_congr (s.first.held_next_ne hscopes.symm)
      rw [hnext, hother, List.count_cons_self, List.count_cons_of_ne (by decide)]
      omega
    | false =>
      have hnext : (s.step a b false).second.ahead b (s.step a b false).progress =
          s.second.ahead b s.progress - 1 := s.second.ahead_next
      have hother : (s.step a b false).first.ahead a (s.step a b false).progress =
          s.first.ahead a s.progress := s.first.ahead_congr (s.second.held_next_ne hscopes)
      rw [hnext, hother, List.count_cons_self, List.count_cons_of_ne (by decide)]
      omega

lemma told_run (hscopes : a.scope ≠ b.scope)
    (hfirst : s.first = .unread ∧ s.progress.engine.held a.scope < a.key ∨
      ∃ snapshot, Behind a snapshot s.progress s.first)
    (hcount : turns.count true = s.first.ahead a s.progress) (hsucceeds : s.Succeeds a b turns) :
    (s.run a b turns).first.ack? = some (a.scope.confirm a.key) := by
  have hdone : (s.run a b turns).first.ahead a (s.run a b turns).progress = 0 := by
    rw [(ahead_run hscopes s turns).1, hcount, Nat.sub_self]
  clear hcount
  induction turns generalizing s with
  | nil =>
    rcases hfirst with ⟨hunread, hheld⟩ | ⟨snapshot, hbehind⟩
    · change s.first.ahead a s.progress = 0 at hdone
      rw [hunread, Ending.ahead, if_pos hheld] at hdone
      cases hdone
    · exact hbehind.ack hdone
  | cons first turns ih =>
    refine ih ?_ hsucceeds.tail hdone
    cases first with
    | true =>
      rcases hfirst with ⟨hunread, hheld⟩ | ⟨snapshot, hbehind⟩
      · obtain ⟨engine, snapshot, hnext, hsame, -⟩ := Ending.next_unread hheld
        rw [step, hunread, hnext]
        exact .inr ⟨snapshot, .closed (by rwa [hsame])⟩
      · exact .inr ⟨snapshot, hbehind.step_true hsucceeds⟩
    | false =>
      have hheld' := s.second.held_next_ne (p := s.progress) hscopes
      rcases hfirst with ⟨hunread, hheld⟩ | ⟨snapshot, hbehind⟩
      · exact .inl ⟨hunread, hheld'.symm ▸ hheld⟩
      · exact .inr ⟨snapshot, hbehind.congr hheld'⟩

lemma count_map_not (turns : List Bool) (first : Bool) :
    (turns.map not).count first = turns.count (!first) := by
  have hcount := List.count_map_of_injective turns not Bool.involutive_not.injective (!first)
  rwa [Bool.not_not] at hcount

lemma told_run_second (hscopes : a.scope ≠ b.scope) (hsecond : s.second = .unread)
    (hheld : s.progress.engine.held b.scope < b.key)
    (hcount : turns.count false = s.second.ahead b s.progress) (hsucceeds : s.Succeeds a b turns) :
    (s.run a b turns).second.ack? = some (b.scope.confirm b.key) := by
  have htold := told_run (s := s.swap) hscopes.symm (.inl ⟨hsecond, hheld⟩)
    ((count_map_not turns true).trans hcount) (succeeds_swap hsucceeds)
  rw [← run_swap] at htold
  exact htold

lemma crossed_of_unread {snapshot : Cursors} (hscopes : a.scope ≠ b.scope)
    (hfirst : s.first = .closed snapshot ∨ s.first = .stored true ∧
      s.progress.store.saves.getLast? = some ⟨snapshot, true⟩)
    (hsecond : s.second = .unread) (hheld : s.progress.engine.held a.scope < a.key)
    (hheld' : s.progress.engine.held b.scope < b.key) (hlacks : snapshot.at b.scope < b.key) :
    ∃ snapshot', (s.step a b false).Crossed a b snapshot snapshot' := by
  obtain ⟨engine, snapshot', hnext, hsame, hsnapshot'⟩ := Ending.next_unread hheld'
  have hstep : s.step a b false = ⟨{ s.progress with engine }, s.first, .closed snapshot'⟩ := by
    rw [step, hsecond, hnext]
  have hlacks' : snapshot'.at a.scope < a.key := by rwa [hsnapshot', if_neg hscopes]
  have hheld'' : engine.held a.scope < a.key := by rwa [hsame]
  rw [hstep]
  refine ⟨snapshot', ?_, .closed (by rwa [hsame]), hlacks, hlacks', ?_⟩
  · rcases hfirst with hclosed | ⟨hstored, -⟩
    · rw [hclosed]
      exact .closed hheld''
    · rw [hstored]
      exact .stored hheld''
  · rcases hfirst with hclosed | ⟨-, hlast⟩
    · exact .inl ⟨hclosed, rfl⟩
    · exact .inr ⟨snapshot, hlast, .inl rfl⟩

lemma retained_iff_of_first (hscopes : a.scope ≠ b.scope) (hfirst : s.first = .unread)
    (hsecond : s.second = .unread) (hheld : s.progress.engine.held a.scope < a.key)
    (hheld' : s.progress.engine.held b.scope < b.key)
    (hcount : (true :: turns).count true = 3) (hcount' : (true :: turns).count false = 3)
    (hsucceeds : s.Succeeds a b (true :: turns)) :
    (s.run a b (true :: turns)).Retained ↔
      true :: turns = [true, true, true, false, false, false] := by
  obtain ⟨hdone, hdone'⟩ := ahead_run hscopes s (true :: turns)
  rw [hcount, hfirst, Ending.ahead, if_pos hheld] at hdone
  rw [hcount', hsecond, Ending.ahead, if_pos hheld'] at hdone'
  obtain ⟨engine, snapshot, hnext, hsame, hsnapshot⟩ := Ending.next_unread hheld
  have hstep : s.step a b true = ⟨{ s.progress with engine }, .closed snapshot, .unread⟩ := by
    rw [step, hfirst, hnext, hsecond]
  have hlacks : snapshot.at b.scope < b.key := by rwa [hsnapshot, if_neg hscopes.symm]
  have hsame' : ∀ scope, (s.step a b true).progress.engine.held scope =
      s.progress.engine.held scope := by
    rw [hstep]
    exact hsame
  have hfew : (true :: turns).length = 6 := by
    rw [← List.count_not_add_count _ true, Bool.not_true, hcount, hcount']
  cases turns with
  | nil => simp at hfew
  | cons second turns =>
    cases second with
    | false =>
      -- The second window is closed while the cursors of the first are still to be stored.
      obtain ⟨snapshot', hcrossed⟩ := crossed_of_unread (s := s.step a b true) hscopes
        (.inl (by rw [hstep])) (by rw [hstep]) (by rwa [hsame']) (by rwa [hsame']) hlacks
      refine iff_of_false ?_ (by simp)
      exact (hcrossed.run hscopes hsucceeds.tail.tail).not_retained hdone hdone'
    | true =>
      cases turns with
      | nil => simp at hfew
      | cons third turns =>
        cases third with
        | false =>
          -- It is closed while they are stored and not yet held.
          obtain ⟨hstored, hunread, hengine, hlast⟩ :=
            hsucceeds.tail.step_closed (by rw [hstep] : _ = Ending.closed snapshot)
          obtain ⟨snapshot', hcrossed⟩ := crossed_of_unread
            (s := (s.step a b true).step a b true) hscopes (.inr ⟨hstored, hlast⟩)
            (by rw [hunread, hstep]) (by rwa [hengine, hsame']) (by rwa [hengine, hsame']) hlacks
          refine iff_of_false ?_ (by simp)
          exact (hcrossed.run hscopes hsucceeds.tail.tail.tail).not_retained hdone hdone'
        | true =>
          have hnone : turns.count true = 0 := by simpa using hcount
          have hall : ∀ x ∈ turns, x = false := by
            intro x hx
            cases x with
            | false => rfl
            | true => exact absurd hx (List.count_eq_zero.mp hnone)
          have hlength : turns.length = 3 := by simpa using hfew
          have hrest : turns = [false, false, false] :=
            List.eq_replicate_iff.mpr ⟨hlength, hall⟩
          subst hrest
          exact iff_of_true (retained_of_whole hscopes hfirst hsecond hheld hheld' hsucceeds) rfl

/-- What two sessions tell the server is stored last unless both keys move a cursor and one window
is closed before the end of the other is committed. -/
theorem retained_iff (hscopes : a.scope ≠ b.scope) (hfirst : s.first = .unread)
    (hsecond : s.second = .unread)
    (hcount : turns.count true = s.first.ahead a s.progress)
    (hcount' : turns.count false = s.second.ahead b s.progress)
    (hsucceeds : s.Succeeds a b turns) :
    (s.run a b turns).Retained ↔
      a.key ≤ s.progress.engine.held a.scope ∨ b.key ≤ s.progress.engine.held b.scope ∨
        turns = [true, true, true, false, false, false] ∨
        turns = [false, false, false, true, true, true] := by
  by_cases hheld : s.progress.engine.held a.scope < a.key
  · by_cases hheld' : s.progress.engine.held b.scope < b.key
    · rw [hfirst, Ending.ahead, if_pos hheld] at hcount
      rw [hsecond, Ending.ahead, if_pos hheld'] at hcount'
      rw [or_iff_right (Int64.not_le.mpr hheld), or_iff_right (Int64.not_le.mpr hheld')]
      cases turns with
      | nil => simp at hcount
      | cons first turns =>
        cases first with
        | true =>
          rw [retained_iff_of_first hscopes hfirst hsecond hheld hheld' hcount hcount' hsucceeds]
          simp
        | false =>
          have hnot : (false :: turns).map not = true :: turns.map not := rfl
          have hlist := Bool.involutive_not.injective.list_map.eq_iff (a := false :: turns)
            (b := [false, false, false, true, true, true])
          have hswap := retained_iff_of_first (s := s.swap) hscopes.symm hsecond hfirst hheld' hheld
            (by rw [← hnot, count_map_not]; exact hcount')
            (by rw [← hnot, count_map_not]; exact hcount) (succeeds_swap hsucceeds)
          rw [← retained_swap, run_swap, hnot, hswap, or_iff_right (by simp)]
          exact hlist
    · have hunmoved : Unmoved b s.progress s.second := hsecond ▸ .unread (Int64.not_lt.mp hheld')
      refine iff_of_true ?_ (.inr (.inl (Int64.not_lt.mp hheld')))
      exact retained_run_of_unmoved hscopes (hfirst ▸ .unread) hunmoved
  · have hunmoved : Unmoved a s.progress s.first := hfirst ▸ .unread (Int64.not_lt.mp hheld)
    refine iff_of_true ?_ (.inl (Int64.not_lt.mp hheld))
    rw [← retained_swap, run_swap]
    have hkept : Kept b s.progress s.second := hsecond ▸ .unread
    exact retained_run_of_unmoved (s := s.swap) hscopes.symm hkept hunmoved

end Orders

end Meeting

end Parley
