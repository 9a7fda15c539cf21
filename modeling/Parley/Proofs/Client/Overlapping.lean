import Parley.Proofs.Client.Phases
import Parley.Proofs.Client.Stored
import Parley.Proofs.Session.Ending

/-!
# Sessions that overlap

Two sessions of a client may each be taking the end of a window. The reading sides of the two do so
as a `Meeting` does: each step works on the engine and the store that both share. Main statement:
`Client.retained_of_ends_iff`.
-/

namespace Parley

/-- The scope and the key of a frame that ends a window. -/
def Frame.ended? (f : Frame) : Option SyncPoint :=
  match f.message with
  | .sync .ended point => some point
  | _ => none

/-- The end of a window that a session reads next, when it has nothing else to do. -/
def Session.endAhead? (s : Session) : Option SyncPoint :=
  match s.duties?, s.link.nextRaw.1 with
  | some [], some (.ok raw) => raw.decode.toOption.bind (·.ended?)
  | _, _ => none

lemma Session.of_endAhead? {s : Session} {point : SyncPoint} (h : s.endAhead? = some point) :
    ∃ raw link f, s.stage = .live [] ∧ s.link.nextRaw = (some (.ok raw), link) ∧
      raw.decode = .ok f ∧ f.message = .sync .ended point := by
  rw [endAhead?] at h
  split at h
  · rename_i raw hduties hnext
    obtain ⟨f, hf, hended⟩ := Option.bind_eq_some_iff.mp h
    have hdecode : raw.decode = .ok f := by
      cases hraw : raw.decode with
      | ok g =>
        rw [hraw] at hf
        cases hf
        rfl
      | error e =>
        rw [hraw] at hf
        cases hf
    have hmessage : f.message = .sync .ended point := by
      rw [Frame.ended?] at hended
      split at hended
      · rename_i hmessage
        cases hended
        exact hmessage
      · cases hended
    exact ⟨raw, _, f, (runs_of_duties? hduties).1, Prod.ext hnext rfl, hdecode, hmessage⟩
  · cases h

section Reading
variable {s : Session} {scope : Scope} {key : Int64}

lemma Session.read?_end (p : Progress) (now : Nat) {raw : RawFrame} {link : Link} {f : Frame}
    {point : SyncPoint} (hstage : s.stage = .live [])
    (hnext : s.link.nextRaw = (some (.ok raw), link)) (hdecode : raw.decode = .ok f)
    (hmessage : f.message = .sync .ended point) : s.read? p now = some
      { session :=
          { s with
            link, keepalive := s.keepalive.onFrame now
            stage := .live (p.syncClosed point.scope point.key).2 }
        progress := (p.syncClosed point.scope point.key).1 } := by
  have hdispatch : dispatch p s.tracker raw =
      { progress := (p.syncClosed point.scope point.key).1, tracker := s.tracker
        duties := (p.syncClosed point.scope point.key).2 } := by
    simp only [dispatch, hdecode, dispatchFrame, hmessage, Progress.sync]
  simp only [read?, hstage, readFrame, hnext, hdispatch]
  rfl

lemma Session.read?_persist (p : Progress) (now : Nat) {cursors : Cursors}
    (hstage : s.stage = .live [.persist scope key cursors]) : s.read? p now = some
      { session := { s with stage := .live [.commit scope key (p.store.save cursors).1] }
        progress := { p with store := (p.store.save cursors).2 } } := by
  rw [read?, hstage]
  rfl

lemma Session.read?_commit (p : Progress) (now : Nat) {persisted : Bool}
    (hstage : s.stage = .live [.commit scope key persisted]) : s.read? p now = some
      { session := { s with stage := .live (p.syncEnd scope key persisted).2 }
        progress := (p.syncEnd scope key persisted).1 } := by
  have hduties := List.append_nil (p.syncEnd scope key persisted).2
  simp only [read?, hstage, perform, hduties]

end Reading

/-- How a connection stands that has come so far with the end of a window. -/
def Ending.Stands (point : SyncPoint) (phase : Option Phase) : Ending → Prop
  | unread => (sessionOf? phase).bind (·.endAhead?) = some point
  | closed snapshot => dutiesOf? phase = some [.persist point.scope point.key snapshot]
  | stored persisted => dutiesOf? phase = some [.commit point.scope point.key persisted]
  | committed outcome =>
    (∃ ev, dutiesOf? phase = some
      (outcome.ack.toList.map .send ++ outcome.followUp.toList.map .send ++ [.announce ev])) ∧
        ∀ m, outcome.followUp = some m → ∃ key, m = point.scope.request key

namespace Client
variable {c : Client} {i j : Nat}

lemma established_of_sessionOf? {s : Session} (h : sessionOf? (c.phase? i) = some s) :
    ∃ holder, c.phase? i = some (.established s holder) := by
  cases hphase : c.phase? i with
  | none =>
    rw [hphase] at h
    cases h
  | some phase =>
    rw [hphase] at h
    cases phase with
    | established s' holder =>
      cases h
      exact ⟨holder, rfl⟩
    | _ => cases h

lemma live_of_dutiesOf? {duties : List Duty} (h : dutiesOf? (c.phase? i) = some duties) :
    ∃ s holder, c.phase? i = some (.established s holder) ∧ s.stage = .live duties := by
  obtain ⟨s, hs, hduties⟩ := Option.bind_eq_some_iff.mp h
  obtain ⟨holder, hphase⟩ := established_of_sessionOf? hs
  exact ⟨s, holder, hphase, (Session.runs_of_duties? hduties).1⟩

lemma move_reading {s : Session} {holder : Holder} {step : Session.Step}
    (hphase : c.phase? i = some (.established s holder))
    (hread : s.read? c.progress c.now = some step) :
    (c.move (.act (.reading i))).progress = step.progress ∧
      dutiesOf? ((c.move (.act (.reading i))).phase? i) = step.session.duties? ∧
      ∀ j, i ≠ j → (c.move (.act (.reading i))).phase? j = c.phase? j := by
  have hmove : c.move (.act (.reading i)) = c.hear i holder step := by
    rw [move, act?, hphase]
    simp only [read?_eq, hread, Option.map_some, Option.getD_some]
  rw [hmove]
  refine ⟨progress_applyNotes _ step.notes, ?_, fun j hj => ?_⟩
  · rw [phase?_hear, phase?_setPhase_self c hphase]
    rfl
  · rw [phase?_hear, phase?_setPhase_ne c hj]

lemma move_of_stands {point : SyncPoint} {e : Parley.Ending} (h : e.Stands point (c.phase? i))
    (hahead : 0 < e.ahead point c.progress) :
    (c.move (.act (.reading i))).progress = (e.next point c.progress).1 ∧
      (e.next point c.progress).2.Stands point ((c.move (.act (.reading i))).phase? i) ∧
      ∀ j, i ≠ j → (c.move (.act (.reading i))).phase? j = c.phase? j := by
  cases e with
  | unread =>
    obtain ⟨s, hs, hend⟩ := Option.bind_eq_some_iff.mp h
    obtain ⟨holder, hphase⟩ := established_of_sessionOf? hs
    obtain ⟨raw, link, f, hstage, hnext, hdecode, hmessage⟩ := Session.of_endAhead? hend
    obtain ⟨hprogress, hduties, hother⟩ :=
      move_reading hphase (Session.read?_end c.progress c.now hstage hnext hdecode hmessage)
    refine ⟨hprogress, ?_, hother⟩
    cases hsnapshot : (c.progress.engine.handleEnd point.scope point.key).2 with
    | none =>
      have hclosed : (c.progress.syncClosed point.scope point.key).2 =
          [.commit point.scope point.key false] := by
        simp only [Progress.syncClosed, hsnapshot]
      simp only [Ending.next, hsnapshot, Option.map_none, Option.getD_none]
      exact hduties.trans (congrArg some hclosed)
    | some snapshot =>
      have hclosed : (c.progress.syncClosed point.scope point.key).2 =
          [.persist point.scope point.key snapshot] := by
        simp only [Progress.syncClosed, hsnapshot]
      simp only [Ending.next, hsnapshot, Option.map_some, Option.getD_some]
      exact hduties.trans (congrArg some hclosed)
  | closed snapshot =>
    obtain ⟨s, holder, hphase, hstage⟩ := live_of_dutiesOf? h
    obtain ⟨hprogress, hduties, hother⟩ :=
      move_reading hphase (Session.read?_persist c.progress c.now hstage)
    exact ⟨hprogress, hduties, hother⟩
  | stored persisted =>
    obtain ⟨s, holder, hphase, hstage⟩ := live_of_dutiesOf? h
    obtain ⟨hprogress, hduties, hother⟩ :=
      move_reading hphase (Session.read?_commit c.progress c.now hstage)
    exact ⟨hprogress, ⟨⟨_, hduties⟩, fun m hm => Engine.followUp_commitEnd hm⟩, hother⟩
  | committed outcome => exact absurd hahead (Nat.lt_irrefl 0)

/-- A reading side that may take steps among others. -/
def turnsOf (i j : Nat) (turns : List Bool) : List Move :=
  turns.map fun first => .act (.reading (if first then i else j))

/-- A client two of whose connections stand as two that meet. -/
structure Meets (c : Client) (i j : Nat) (a b : SyncPoint) (s : Meeting) : Prop where
  progress : c.progress = s.progress
  first : s.first.Stands a (c.phase? i)
  second : s.second.Stands b (c.phase? j)

def tells (c : Client) (i : Nat) (m : Message) : Bool :=
  (dutiesOf? (c.phase? i)).any (·.contains (.send m))

/-- What two sessions tell the server is stored is in the cursors that were stored last. -/
def Retained (c : Client) (i j : Nat) : Prop :=
  ∀ scope key, c.tells i (scope.confirm key) = true ∨ c.tells j (scope.confirm key) = true →
    ∃ snapshot, c.progress.store.saves.getLast? = some ⟨snapshot, true⟩ ∧ key ≤ snapshot.at scope

section Meets
variable {a b : SyncPoint} {s : Meeting} {turns : List Bool}

lemma Meets.move (h : c.Meets i j a b s) (hij : i ≠ j) {first : Bool}
    (hcount : [first].count true ≤ s.first.ahead a s.progress)
    (hcount' : [first].count false ≤ s.second.ahead b s.progress) :
    (c.move (.act (.reading (if first then i else j)))).Meets i j a b (s.step a b first) := by
  obtain ⟨hprogress, hfirst, hsecond⟩ := h
  rw [← hprogress] at hcount hcount'
  cases first with
  | true =>
    obtain ⟨hprogress', hfirst', hother⟩ := move_of_stands hfirst hcount
    rw [hprogress] at hprogress' hfirst'
    exact ⟨hprogress', hfirst', by rw [if_pos rfl, hother j hij]; exact hsecond⟩
  | false =>
    obtain ⟨hprogress', hsecond', hother⟩ := move_of_stands hsecond hcount'
    rw [hprogress] at hprogress' hsecond'
    exact ⟨hprogress', by rw [if_neg (by decide), hother i hij.symm]; exact hfirst, hsecond'⟩

lemma Meets.run (h : c.Meets i j a b s) (hij : i ≠ j) (hscopes : a.scope ≠ b.scope)
    (hcount : turns.count true ≤ s.first.ahead a s.progress)
    (hcount' : turns.count false ≤ s.second.ahead b s.progress) :
    (c.run (turnsOf i j turns)).Meets i j a b (s.run a b turns) := by
  induction turns generalizing c s with
  | nil => exact h
  | cons first turns ih =>
    have hsplit : ∀ x, (first :: turns).count x = [first].count x + turns.count x := fun x =>
      (List.count_append : ([first] ++ turns).count x = _)
    rw [hsplit] at hcount hcount'
    obtain ⟨hleft, hleft'⟩ := Meeting.ahead_run hscopes s [first]
    change (s.step a b first).first.ahead a (s.step a b first).progress = _ at hleft
    change (s.step a b first).second.ahead b (s.step a b first).progress = _ at hleft'
    exact ih (h.move hij (by omega) (by omega)) (by omega) (by omega)

lemma tells_confirm_iff {point : SyncPoint} {p : Progress} {e : Parley.Ending}
    (h : e.Stands point (c.phase? i)) (hahead : e.ahead point p = 0) (scope : Scope) (key : Int64) :
    c.tells i (scope.confirm key) = true ↔ e.ack? = some (scope.confirm key) := by
  cases e with
  | unread =>
    rw [Ending.ahead] at hahead
    split at hahead
    · cases hahead
    · cases hahead
  | closed snapshot => cases hahead
  | stored persisted => cases hahead
  | committed outcome =>
    obtain ⟨⟨ev, hduties⟩, hfollow⟩ := h
    have hnot : outcome.followUp ≠ some (scope.confirm key) := by
      intro hconfirm
      obtain ⟨key', hrequest⟩ := hfollow _ hconfirm
      cases hrequest
    simp [tells, hduties, Ending.ack?, hnot]

/-- Two sessions of a client each take the end of a window, for different scopes, in any order of
their steps, and no save fails. A key that moves its cursor is told to the server. What is stored
last has all that is told if one of the keys moves no cursor, or if one end is taken as a whole
before the other begins; otherwise it lacks one of the two keys. -/
theorem retained_of_ends_iff (turns : List Bool) (hij : i ≠ j) (hscopes : a.scope ≠ b.scope)
    (hfirst : (sessionOf? (c.phase? i)).bind (·.endAhead?) = some a)
    (hsecond : (sessionOf? (c.phase? j)).bind (·.endAhead?) = some b)
    (hcount : turns.count true = Ending.unread.ahead a c.progress)
    (hcount' : turns.count false = Ending.unread.ahead b c.progress)
    (hsaved : ∀ save ∈ (c.run (turnsOf i j turns)).progress.store.saves.drop
      c.progress.store.saves.length, save.saved = true) :
    (c.progress.engine.held a.scope < a.key →
        (c.run (turnsOf i j turns)).tells i (a.scope.confirm a.key) = true) ∧
      (c.progress.engine.held b.scope < b.key →
        (c.run (turnsOf i j turns)).tells j (b.scope.confirm b.key) = true) ∧
      ((c.run (turnsOf i j turns)).Retained i j ↔
        a.key ≤ c.progress.engine.held a.scope ∨ b.key ≤ c.progress.engine.held b.scope ∨
          turns = [true, true, true, false, false, false] ∨
          turns = [false, false, false, true, true, true]) := by
  let s : Meeting := ⟨c.progress, .unread, .unread⟩
  have hmeets : c.Meets i j a b s := ⟨rfl, hfirst, hsecond⟩
  obtain ⟨hprogress, hstands, hstands'⟩ := hmeets.run hij hscopes hcount.le hcount'.le
  obtain ⟨hdone, hdone'⟩ := Meeting.ahead_run hscopes s turns
  rw [hcount, Nat.sub_self] at hdone
  rw [hcount', Nat.sub_self] at hdone'
  have hsucceeds : s.Succeeds a b turns := by
    rw [hprogress] at hsaved
    exact hsaved
  have htells := tells_confirm_iff hstands hdone
  have htells' := tells_confirm_iff hstands' hdone'
  refine ⟨fun hheld => ?_, fun hheld => ?_, ?_⟩
  · rw [htells]
    exact Meeting.told_run hscopes (.inl ⟨rfl, hheld⟩) hcount hsucceeds
  · rw [htells']
    exact Meeting.told_run_second hscopes rfl hheld hcount' hsucceeds
  · rw [← Meeting.retained_iff (s := s) hscopes rfl rfl hcount hcount' hsucceeds]
    simp only [Retained, Meeting.Retained, htells, htells', hprogress]

end Meets

/-- A client over a store that has zero for the direct inbox and for the group 7. -/
def following : Client :=
  { least with
    progress :=
      { engine := (Engine.ofCursors ⟨0, GroupMap.empty.set 7 0⟩).resetWindows
        store := .memory ⟨0, GroupMap.empty.set 7 0⟩ } }

lemma new_following :
    new .least (.memory ⟨0, GroupMap.empty.set 7 0⟩) [] = .ok following := by rfl

/-- Two connections of the client are ready at the same time. The server ends the window of the
direct inbox on the one and that of the group on the other. -/
def encounter : Client :=
  following.run
    [.connect "a", .act (.connecting 0),
      .happen 0 (.arrive [0, 0, 0, 4, 0, 0, 0, 1, 3, 2, 0, 0, 0, 0, 0, 0]), .act (.connecting 0),
      .act (.connecting 0), .act (.connecting 0), .act (.connecting 0), .act (.connecting 0),
      .connect "b", .act (.connecting 1),
      .happen 1 (.arrive [0, 0, 0, 4, 0, 0, 0, 1, 3, 2, 0, 0, 0, 0, 0, 0]), .act (.connecting 1),
      .act (.connecting 1), .act (.connecting 1), .act (.connecting 1), .act (.connecting 1),
      .happen 0 (.arrive [0, 0, 0, 8, 0, 0, 0, 5, 28, 2, 0, 0, 0, 0, 0, 0, 0, 0, 0, 5]),
      .happen 1 (.arrive
        [0, 0, 0, 16, 0, 0, 0, 5, 32, 2, 0, 0, 0, 0, 0, 0, 0, 0, 0, 7, 0, 0, 0, 0, 0, 0, 0, 9])]

theorem retained_of_succession :
    (encounter.run (turnsOf 0 1 [true, true, true, false, false, false])).tells 0
        (Scope.direct.confirm 5) = true ∧
      (encounter.run (turnsOf 0 1 [true, true, true, false, false, false])).tells 1
        ((Scope.group 7).confirm 9) = true ∧
      (encounter.run (turnsOf 0 1 [true, true, true, false, false, false])).Retained 0 1 := by
  obtain ⟨htells, htells', hretained⟩ := retained_of_ends_iff (c := encounter) (i := 0) (j := 1)
    (a := ⟨.direct, 5⟩) (b := ⟨.group 7, 9⟩) [true, true, true, false, false, false] (by decide)
    (by decide) (by decide +kernel) (by decide +kernel) (by decide +kernel) (by decide +kernel)
    (by decide +kernel)
  exact ⟨htells (by decide +kernel), htells' (by decide +kernel), hretained.mpr (by simp)⟩

/-- Each window is closed before the cursors of the other are stored: the server is told that the
key 5 of the direct inbox is stored, and a new client over the same store begins at zero. -/
theorem rolled_back_of_crossing :
    new .least (.memory ⟨0, GroupMap.empty.set 7 0⟩) [] = .ok following ∧
      (encounter.run (turnsOf 0 1 [true, false, true, false, true, false])).tells 0
        (Scope.direct.confirm 5) = true ∧
      (encounter.run (turnsOf 0 1 [true, false, true, false, true, false])).tells 1
        ((Scope.group 7).confirm 9) = true ∧
      (encounter.run (turnsOf 0 1 [true, false, true, false, true, false])).progress.store.saves =
        [⟨⟨5, GroupMap.empty.set 7 0⟩, true⟩, ⟨⟨0, GroupMap.empty.set 7 9⟩, true⟩] ∧
      (encounter.run (turnsOf 0 1 [true, false, true, false, true, false])).progress.store.load =
        .ok ⟨0, GroupMap.empty.set 7 9⟩ ∧
      ¬ (encounter.run (turnsOf 0 1 [true, false, true, false, true, false])).Retained 0 1 := by
  have htells : (encounter.run (turnsOf 0 1 [true, false, true, false, true, false])).tells 0
      (Scope.direct.confirm 5) = true := by decide +kernel
  have hsaves : (encounter.run (turnsOf 0 1
      [true, false, true, false, true, false])).progress.store.saves =
        [⟨⟨5, GroupMap.empty.set 7 0⟩, true⟩, ⟨⟨0, GroupMap.empty.set 7 9⟩, true⟩] := by
    decide +kernel
  refine ⟨new_following, htells, by decide +kernel, hsaves, by rfl, fun hretained => ?_⟩
  obtain ⟨snapshot, hlast, hkey⟩ := hretained .direct 5 (.inl htells)
  rw [hsaves] at hlast
  cases hlast
  exact absurd hkey (by decide)

end Client

end Parley
