import Parley.Proofs.Client.WireOrder
import Parley.Proofs.Session.Storing

/-!
# Stored cursors of a client

A client whose sessions do not overlap holds what its store holds, save between the end of a window
and the commit of it. Main statement: `Journal.resumable_ofTurns`.
-/

namespace Parley

/-! ## Phases -/

def Session.requests (s : Session) : List Message :=
  match s.stage with
  | .starting requests => requests
  | _ => []

/-- Whether a session has begun and has not ended. -/
def Session.runs (s : Session) : Bool :=
  match s.stage with
  | .starting _ | .live _ => true
  | _ => false

def sessionOf? : Option Phase → Option Session
  | some (.established s _) => some s
  | _ => none

def dutiesOf? (phase : Option Phase) : Option (List Duty) := (sessionOf? phase).bind (·.duties?)

def requestsOf (phase : Option Phase) : List Message :=
  ((sessionOf? phase).map (·.requests)).getD []

/-- At most one connection has a session that has not ended. -/
def Client.Apart (c : Client) : Prop :=
  ∀ i j s s', sessionOf? (c.phase? i) = some s → sessionOf? (c.phase? j) = some s' →
    s.runs = true → s'.runs = true → i = j

structure Alike (phase phase' : Option Phase) : Prop where
  duties : dutiesOf? phase' = dutiesOf? phase
  requests : ∀ m ∈ requestsOf phase', m ∈ requestsOf phase ∨
    ∃ scope key, m = Scope.request scope key

lemma Alike.refl (phase : Option Phase) : Alike phase phase := ⟨rfl, fun _ h => .inl h⟩

lemma alike_established {s s' : Session} {holder holder' : Holder}
    (hduties : s'.duties? = s.duties?) (hrequests : ∀ m ∈ s'.requests, m ∈ s.requests) :
    Alike (some (.established s holder)) (some (.established s' holder')) :=
  ⟨hduties, fun m hm => .inl (hrequests m hm)⟩

namespace Session
variable {s s' : Session} {p p' : Progress} {now : Nat} {notes : List Note}

lemma runs_of_duties? {duties : List Duty} (h : s.duties? = some duties) :
    s.stage = .live duties ∧ s.runs = true := by
  rw [duties?] at h
  split at h
  · rename_i hstage
    cases h
    exact ⟨hstage, by rw [runs, hstage]⟩
  · cases h

lemma Heard.requests {step : Step} (h : s.Heard p now step) : step.session.requests = [] := by
  cases h with
  | lined m rest outbox hstage hoffer => rw [Session.requests, hstage]
  | refilled ev backlog hstage hbacklog hroom =>
    rcases hstage with hstage | hstage
    · rw [Session.requests, hstage]
    · rw [Session.requests, hstage]
  | _ => rfl

lemma Heard.of_duties?_eq_none {step : Step} (h : s.Heard p now step) (hduties : s.duties? = none) :
    step.progress = p ∧ step.session.duties? = none := by
  have hlive : ∀ duties, s.stage ≠ .live duties := by
    intro duties hstage
    rw [duties?, hstage] at hduties
    cases hduties
  cases h with
  | refilled ev backlog hstage hbacklog hroom => exact ⟨rfl, hduties⟩
  | left hstage hbacklog => exact ⟨rfl, rfl⟩
  | sent m rest outbox hstage hoffer => exact absurd hstage (hlive _)
  | lined m rest outbox hstage hoffer => exact absurd hstage (hlive _)
  | persisted scope key cursors rest hstage => exact absurd hstage (hlive _)
  | committed scope key persisted rest hstage => exact absurd hstage (hlive _)
  | handedOut duty ev rest backlog channel hstage hduty hput => exact absurd hstage (hlive _)
  | dispatched raw link hstage hnext => exact absurd hstage (hlive _)
  | pinged hstage hdue => exact absurd hstage (hlive _)
  | finished duties link reason hstage hduty hends => exact absurd hstage (hlive _)

/-- What a step does to the duties of a session: nothing, or it becomes ready, or it does one. -/
theorem Moved.duties (h : s.Moved now p s' p' notes) :
    (p' = p ∧ s'.duties? = s.duties? ∧ ∀ m ∈ s'.requests, m ∈ s.requests) ∨
      (p' = p ∧ s.stage = .starting [] ∧ s'.stage = .live []) ∨
      ∃ duties step, s.stage = .live duties ∧ s.Heard p now step ∧ s' = step.session ∧
        p' = step.progress := by
  have hsame : s'.stage = s.stage → s'.duties? = s.duties? ∧ ∀ m ∈ s'.requests, m ∈ s.requests := by
    intro hstage
    rw [duties?, duties?, requests, requests, hstage]
    exact ⟨rfl, fun _ h => h⟩
  cases h with
  | event e => exact .inl ⟨rfl, hsame rfl⟩
  | ready h =>
    obtain ⟨hstage, rfl⟩ := startup_ready h
    exact .inr (.inl ⟨rfl, hstage, rfl⟩)
  | going h =>
    obtain ⟨m, requests, outbox, hstage, ⟨-, rfl⟩ | ⟨-, rfl⟩⟩ := startup_going h
    · refine .inl ⟨rfl, ?_, fun m' hm' => ?_⟩
      · rw [duties?, duties?, hstage]
      · rw [Session.requests, hstage]
        exact List.mem_cons_of_mem m hm'
    · exact .inl ⟨rfl, hsame rfl⟩
  | wrote h => exact .inl ⟨rfl, hsame (written_of_write? h).stage⟩
  | read hheard =>
    cases hduties : s.duties? with
    | some duties =>
      exact .inr (.inr ⟨duties, _, (runs_of_duties? hduties).1, hheard, rfl, rfl⟩)
    | none =>
      obtain ⟨hprogress, hnone⟩ := hheard.of_duties?_eq_none hduties
      refine .inl ⟨hprogress, hnone, ?_⟩
      rw [hheard.requests]
      exact fun m hm => by cases hm
  | took h =>
    obtain ⟨items, -, rfl⟩ := takeEvent?_cases h
    exact .inl ⟨rfl, hsame rfl⟩
  | closing => exact .inl ⟨rfl, hsame rfl⟩
  | abandoned => exact .inl ⟨rfl, hsame rfl⟩
  | closed => exact .inl ⟨rfl, hsame rfl⟩
  | rest => exact .inl ⟨rfl, hsame rfl⟩

end Session

/-! ## Clients -/

namespace Client

/-- How the cursors that a client holds stand to those that are stored. -/
structure Balanced (c : Client) (loaded : Cursors) (n : Nat) : Prop where
  stores : c.progress.Stores loaded n
  due : ∀ i duties, dutiesOf? (c.phase? i) = some duties → c.progress.Due loaded n duties
  requests : ∀ i, ∀ m ∈ requestsOf (c.phase? i), ∃ scope key, m = Scope.request scope key
  quiet : (∀ i, dutiesOf? (c.phase? i) = none) →
    Agrees c.progress.engine (c.progress.stored loaded n)

section Moves
variable {c c' : Client} {loaded : Cursors} {n : Nat}

lemma Balanced.of_alike (h : c.Balanced loaded n)
    (hstore : c'.progress.store = c.progress.store)
    (hheld : ∀ scope, c'.progress.engine.held scope = c.progress.engine.held scope)
    (halike : ∀ i, Alike (c.phase? i) (c'.phase? i)) :
    c'.Balanced loaded n ∧ ∃ more, c'.progress.since n = c.progress.since n ++ more := by
  have hsince : c'.progress.since n = c.progress.since n := by
    rw [Progress.since, Progress.since, hstore]
  have hstored : c'.progress.stored loaded n = c.progress.stored loaded n := by
    rw [Progress.stored, Progress.stored, hsince]
  refine ⟨⟨h.stores.of_store hstore, ?_, ?_, ?_⟩, [], by rw [hsince, List.append_nil]⟩
  · intro i duties hduties
    rw [(halike i).duties] at hduties
    rw [Progress.Due, hsince, hstored]
    exact Due.congr (h.due i duties hduties) hheld
  · intro i m hm
    rcases (halike i).requests m hm with hm | hm
    · exact h.requests i m hm
    · exact hm
  · intro hnone
    rw [hstored]
    exact (h.quiet fun i => (halike i).duties ▸ hnone i).congr hheld

lemma Balanced.of_progress (h : c.Balanced loaded n) (hprogress : c'.progress = c.progress)
    (halike : ∀ i, Alike (c.phase? i) (c'.phase? i)) :
    c'.Balanced loaded n ∧ ∃ more, c'.progress.since n = c.progress.since n ++ more :=
  h.of_alike (by rw [hprogress]) (fun _ => by rw [hprogress]) halike

lemma alike_of_setPhase {d : Client} {i : Nat} {old new : Phase}
    (hphases : ∀ j, c'.phase? j = (d.setPhase i new).phase? j) (hold : c.phase? i = some old)
    (hd : ∀ j, d.phase? j = c.phase? j) (h : Alike (some old) (some new)) (j : Nat) :
    Alike (c.phase? j) (c'.phase? j) := by
  rcases phase?_of_setPhase hphases hold hd j with ⟨rfl, hold', hnew⟩ | ⟨-, hsame⟩
  · rw [hold', hnew]
    exact h
  · rw [hsame]
    exact .refl _

/-- Beside a session that runs no other one has duties. -/
lemma Apart.duties_eq_none (hapart : c.Apart) {i j : Nat} {s : Session} {holder : Holder}
    (hphase : c.phase? i = some (.established s holder)) (hruns : s.runs = true) (hj : i ≠ j) :
    dutiesOf? (c.phase? j) = none := by
  cases hsession : sessionOf? (c.phase? j) with
  | none => rw [dutiesOf?, hsession]; rfl
  | some s' =>
    rw [dutiesOf?, hsession]
    cases hduties : s'.duties? with
    | none => exact hduties
    | some duties =>
      obtain ⟨-, hruns'⟩ := Session.runs_of_duties? hduties
      exact absurd (hapart i j s s' (by rw [hphase]; rfl) hsession hruns hruns') hj

lemma Balanced.of_keeps (h : c.Balanced loaded n) (hapart : c.Apart) {i : Nat} {s s' : Session}
    {holder holder' : Holder} {p' : Progress}
    (hphase : c.phase? i = some (.established s holder))
    (hphase' : c'.phase? i = some (.established s' holder'))
    (hother : ∀ j, i ≠ j → c'.phase? j = c.phase? j) (hruns : s.runs = true)
    (hrequests : s'.requests = []) (hprogress : c'.progress = p')
    (hkeeps : s'.Keeps c.progress p' loaded n) :
    c'.Balanced loaded n ∧ ∃ more, c'.progress.since n = c.progress.since n ++ more := by
  subst hprogress
  have hduties : ∀ j, i ≠ j → dutiesOf? (c'.phase? j) = none := by
    intro j hj
    rw [hother j hj]
    exact hapart.duties_eq_none hphase hruns hj
  refine ⟨⟨hkeeps.stores, ?_, ?_, ?_⟩, hkeeps.since⟩
  · intro j duties hj
    by_cases hij : i = j
    · subst hij
      rw [hphase'] at hj
      exact hkeeps.due duties hj
    · rw [hduties j hij] at hj
      cases hj
  · intro j m hm
    by_cases hij : i = j
    · subst hij
      rw [hphase', requestsOf, sessionOf?, Option.map_some, Option.getD_some, hrequests] at hm
      cases hm
    · rw [hother j hij] at hm
      exact h.requests j m hm
  · intro hnone
    have hself := hnone i
    rw [hphase'] at hself
    exact hkeeps.agrees hself

/-- A step of a session keeps the balance. It leaves what is held and stored alone, or makes the
session ready, or does one of its duties. -/
lemma Balanced.session (h : c.Balanced loaded n) (hapart : c.Apart) {i : Nat} {s s' : Session}
    {holder holder' : Holder} {p' : Progress} {notes : List Note}
    (hphase : c.phase? i = some (.established s holder))
    (hmoved : s.Moved c.now c.progress s' p' notes)
    (hc : c'.core = ((({ c with progress := p' }.noteWrites i s.link s'.link).setPhase i
      (.established s' holder')).applyNotes notes).core) :
    c'.Balanced loaded n ∧ ∃ more, c'.progress.since n = c.progress.since n ++ more := by
  have hprogress : c'.progress = p' := by
    rw [progress_congr hc, progress_applyNotes]
    rfl
  have hphases : ∀ j, c'.phase? j = (({ c with progress := p' }.noteWrites i s.link
      s'.link).setPhase i (.established s' holder')).phase? j := fun j =>
    (phase?_congr hc j).trans (phase?_applyNotes _ notes j)
  have hphase' : c'.phase? i = some (.established s' holder') := by
    rw [hphases]
    exact phase?_setPhase_self _ hphase _
  have hother : ∀ j, i ≠ j → c'.phase? j = c.phase? j := fun j hj =>
    (hphases j).trans (phase?_setPhase_ne _ hj _)
  rcases hmoved.duties with ⟨rfl, hduties, hrequests⟩ | ⟨rfl, hstarting, hlive⟩ |
    ⟨duties, step, hstage, hheard, rfl, rfl⟩
  · exact h.of_progress hprogress
      (alike_of_setPhase hphases hphase (fun _ => rfl) (alike_established hduties hrequests))
  · have hruns : s.runs = true := by rw [Session.runs, hstarting]
    -- It starts without duties, and no other session has any, so that all is stored.
    have hquiet : ∀ j, dutiesOf? (c.phase? j) = none := by
      intro j
      by_cases hj : i = j
      · subst hj
        rw [hphase, dutiesOf?, sessionOf?, Option.bind_some, Session.duties?, hstarting]
      · exact hapart.duties_eq_none hphase hruns hj
    refine h.of_keeps hapart hphase hphase' hother hruns ?_ hprogress ?_
    · rw [Session.requests, hlive]
    · exact .of_due hlive h.stores ⟨[], by rw [List.append_nil]⟩
        (.none [] (h.quiet hquiet) (by simp))
  · have hruns : s.runs = true := by rw [Session.runs, hstage]
    have hduties : dutiesOf? (c.phase? i) = some duties := by
      rw [hphase, dutiesOf?, sessionOf?, Option.bind_some, Session.duties?, hstage]
    exact h.of_keeps hapart hphase hphase' hother hruns hheard.requests hprogress
      (hheard.keeps hstage h.stores (h.due i duties hduties))

/-- A move keeps the balance as long as sessions do not overlap, and what has been saved stays
saved. -/
theorem Balanced.moved (h : c.Balanced loaded n) (hapart : c.Apart) (hmoved : c.Moved c') :
    c'.Balanced loaded n ∧ ∃ more, c'.progress.since n = c.progress.since n ++ more := by
  cases hmoved with
  | still hc =>
    have hprogress := progress_congr hc
    refine h.of_progress hprogress fun i => ?_
    rw [phase?_congr hc]
    exact .refl _
  | joined id phase hphase hc =>
    have hprogress := progress_congr hc
    refine h.of_progress hprogress fun i => ?_
    rw [phase?_congr hc, phase?_append]
    split
    · rename_i hi
      rw [phase?_of_length_le c hi.ge]
      rcases hphase with rfl | ⟨token, rfl⟩
      · exact ⟨rfl, fun m hm => by cases hm⟩
      · exact ⟨rfl, fun m hm => by cases hm⟩
    · exact .refl _
  | called new engine hnew hengine hc =>
    have hprogress : c'.progress = { c.progress with engine } := progress_congr hc
    refine h.of_alike (by rw [hprogress]) (fun scope => ?_) fun i => ?_
    · rw [hprogress]
      rcases hengine with rfl | ⟨g, rfl⟩
      · rfl
      · exact c.progress.engine.held_trackGroup g scope
    · have hphase : c'.phase? i = c.phase? i := phase?_congr hc i
      rw [hphase]
      exact .refl _
  | greeted i g g' link link' hphase hstep hc =>
    have hprogress := progress_congr hc
    exact h.of_progress hprogress (alike_of_setPhase (phase?_congr hc) hphase (fun _ => rfl)
      ⟨rfl, fun m hm => by cases hm⟩)
  | befell i g link e hphase hc =>
    have hprogress := progress_congr hc
    exact h.of_progress hprogress (alike_of_setPhase (phase?_congr hc) hphase (fun _ => rfl)
      ⟨rfl, fun m hm => by cases hm⟩)
  | rejected i e link hphase hc =>
    have hprogress := progress_congr hc
    exact h.of_progress hprogress (alike_of_setPhase (phase?_congr hc) hphase (fun _ => rfl)
      ⟨rfl, fun m hm => by cases hm⟩)
  | began i link hphase hc =>
    have hprogress : c'.progress = { c.progress with engine := c.progress.engine.onReady.1 } :=
      progress_congr hc
    have hphases := phase?_congr hc
    refine h.of_alike (by rw [hprogress]) (fun scope => ?_)
      (alike_of_setPhase hphases hphase (fun _ => rfl) ⟨rfl, fun m hm => .inr ?_⟩)
    · rw [hprogress]
      exact c.progress.engine.held_onReady scope
    · obtain ⟨scope, -, rfl⟩ := Engine.mem_onReady.mp hm
      exact ⟨scope, _, rfl⟩
  | failed i s holder hphase hstartup hc =>
    have hprogress := progress_congr hc
    obtain ⟨-, requests, hstage⟩ := Session.startup_failed hstartup
    have hduties : s.duties? = none := by rw [Session.duties?, hstage]
    exact h.of_progress hprogress (alike_of_setPhase (phase?_congr hc) hphase (fun _ => rfl)
      ⟨hduties.symm, fun m hm => by cases hm⟩)
  | session i s s' holder holder' p' notes hphase hmoved hc =>
    exact h.session hapart hphase hmoved hc
  | offered k call item s holder outbox hcall hstage hphase hoffer hc =>
    have hprogress := progress_congr hc
    have hphases := phase?_congr hc
    exact h.of_progress hprogress
      (alike_of_setPhase hphases hphase (fun _ => rfl) (alike_established rfl fun _ h => h))
  | lined k call item s holder outbox hcall hstage hphase hoffer hc =>
    have hprogress := progress_congr hc
    have hphases := phase?_congr hc
    exact h.of_progress hprogress
      (alike_of_setPhase hphases hphase (fun _ => rfl) (alike_established rfl fun _ h => h))
  | settled k call stage hcall hstage hc =>
    have hprogress := progress_congr hc
    refine h.of_progress hprogress fun i => ?_
    have hphase : c'.phase? i = c.phase? i := phase?_congr hc i
    rw [hphase]
    exact .refl _
  | expired k call s holder seq deadline hcall hstage hreceipt hdue hphase hc =>
    have hprogress := progress_congr hc
    have hphases := phase?_congr hc
    exact h.of_progress hprogress
      (alike_of_setPhase hphases hphase (fun _ => rfl) (alike_established rfl fun _ h => h))

end Moves

/-! ## A new client -/

lemma held_foldl_trackGroup (groups : List Int64) (e : Engine) (scope : Scope) :
    (groups.foldl (fun e g => (e.trackGroup g).1) e).held scope = e.held scope := by
  induction groups generalizing e with
  | nil => rfl
  | cons g groups ih => rw [List.foldl_cons, ih, e.held_trackGroup]

section New
variable {config : Config} {store : CursorStore} {tokens : List (Except Error String)} {c : Client}
  {loaded : Cursors}

lemma new_of_load (hvalid : config.validate = .ok ()) (hload : store.load = .ok loaded)
    (tokens : List (Except Error String)) :
    ∃ c, new config store tokens = .ok c ∧ c.progress.store = store ∧
      Agrees c.progress.engine loaded := by
  refine ⟨_, by rw [new, hvalid, hload]; rfl, rfl, fun scope => ?_⟩
  rw [Engine.held_resetWindows, held_foldl_trackGroup, Engine.held_ofCursors]

lemma balanced_new (hnew : new config store tokens = .ok c) (hload : store.load = .ok loaded)
    (hsafe : store.FailsSafely) : c.Balanced loaded store.saves.length := by
  obtain ⟨hvalid, -⟩ := load_of_new hnew
  obtain ⟨c', hnew', hstore, hagrees⟩ := new_of_load hvalid hload tokens
  obtain rfl : c = c' := by
    rw [hnew] at hnew'
    exact Except.ok.inj hnew'
  obtain ⟨progress, rfl⟩ := eq_of_new hnew
  obtain rfl : progress.store = store := hstore
  have hsince : progress.since progress.store.saves.length = [] := List.drop_length
  have hstored : progress.stored loaded progress.store.saves.length = loaded := by
    rw [Progress.stored, hsince]
    rfl
  refine ⟨⟨Nat.le_refl _, ?_, hsafe, ?_⟩, ?_, ?_, fun _ => ?_⟩
  · rw [hstored]
    exact hload
  · rw [hsince]
    intro save hsave
    cases hsave
  · intro i duties hduties
    cases hduties
  · intro i m hm
    cases hm
  · rw [hstored]
    exact hagrees

end New

end Client

lemma Client.apart_of_length {c : Client} (h : c.connections.length ≤ 1) : c.Apart := by
  have hzero : ∀ i s, sessionOf? (c.phase? i) = some s → i = 0 := by
    intro i s hsession
    by_contra hi
    rw [Client.phase?_of_length_le c (by omega)] at hsession
    cases hsession
  intro i j s s' hi hj _ _
  rw [hzero i s hi, hzero j s' hj]

/-! ## Runs -/

/-- No session is between the end of a window and the commit of it. -/
def Client.Settled (c : Client) : Prop :=
  ∀ i duties, dutiesOf? (c.phase? i) = some duties →
    ∀ duty ∈ duties, Session.stores duty = false

lemma Client.Balanced.agrees {c : Client} {loaded : Cursors} {n : Nat} (h : c.Balanced loaded n)
    (hsettled : c.Settled) : Agrees c.progress.engine (c.progress.stored loaded n) := by
  by_cases hnone : ∀ i, dutiesOf? (c.phase? i) = none
  · exact h.quiet hnone
  · push Not at hnone
    obtain ⟨i, hi⟩ := hnone
    obtain ⟨duties, hduties⟩ := Option.ne_none_iff_exists'.mp hi
    exact (h.due i duties hduties).agrees fun duty hduty =>
      hsettled i duties hduties duty (List.mem_of_mem_head? hduty)

namespace Journal
variable {j : Journal} {loaded : Cursors} {n : Nat}

/-- What a session of the client has told the server is stored is. -/
structure Backed (j : Journal) (loaded : Cursors) (n : Nat) : Prop where
  balanced : j.client.Balanced loaded n
  covered : ∀ i, ∀ item ∈ j.queued i, item.caller = none →
    Covered (j.client.progress.since n) item.message

lemma Backed.covered_of_sends (h : j.Backed loaded n) {i : Nat} {s : Session} {holder : Holder}
    {item : Outgoing} (hphase : j.client.phase? i = some (.established s holder))
    (hsends : s.Sends item) : Covered (j.client.progress.since n) item.message := by
  rcases hsends.stage with ⟨rest, hstage⟩ | ⟨requests, hstage⟩
  · have hduties : dutiesOf? (j.client.phase? i) = some (.send item.message :: rest) := by
      rw [hphase, dutiesOf?, sessionOf?, Option.bind_some, Session.duties?, hstage]
    exact (h.balanced.due i _ hduties).covered
  · have hrequest : item.message ∈ requestsOf (j.client.phase? i) := by
      rw [hphase, requestsOf, sessionOf?, Option.map_some, Option.getD_some, Session.requests,
        hstage]
      exact List.mem_cons_self
    obtain ⟨scope, key, hrequest⟩ := h.balanced.requests i _ hrequest
    rw [hrequest]
    trivial

theorem Backed.play (h : j.Backed loaded n) (hsound : j.Sound) (hapart : j.client.Apart)
    (t : Client.Turn) : (j.play t).Backed loaded n := by
  obtain ⟨hbalanced, more, hsince⟩ := h.balanced.moved hapart (j.client.moved_play t)
  refine ⟨hbalanced, fun i item hitem hcaller => ?_⟩
  change Covered ((j.client.play t).progress.since n) item.message
  rw [hsince]
  refine Covered.append ?_ more
  rw [queued_play] at hitem
  rcases List.mem_append.mp hitem with hitem | hitem
  · exact h.covered i item hitem hcaller
  · rcases (j.client.moved_play t).origin_of_newly i hitem with ⟨s, holder, hphase, hsends⟩ |
      ⟨-, k, call, hcall, hstage, -⟩
    · exact h.covered_of_sends hphase hsends
    · obtain ⟨-, hcaller'⟩ := hsound.offering k call item hcall hstage
      rw [hcaller] at hcaller'
      cases hcaller'

/-- A run whose sessions do not overlap keeps what has been told to the server. -/
theorem Backed.ofTurns {c : Client} (h : Journal.Backed { client := c } loaded n)
    (hsound : Journal.Sound { client := c }) (ts : List Client.Turn)
    (hapart : ∀ front, front <+: ts → (ofTurns c front).client.Apart) :
    (ofTurns c ts).Backed loaded n := by
  -- From the last turn backwards, since sessions are apart after every front of the run.
  induction ts using List.reverseRecOn with
  | nil => exact h
  | append_singleton ts t ih =>
    rw [ofTurns_concat]
    have hbacked := ih fun front hfront => hapart front (hfront.trans (List.prefix_append _ _))
    exact hbacked.play (hsound.ofTurns ts) (hapart ts (List.prefix_append _ _)) t

/-- What a store holds, given what was loaded and how many saves had been tried before, and how a
client goes on from it. -/
structure Resumable (j : Journal) (loaded : Cursors) (n : Nat) : Prop where
  stored : j.client.progress.store.load = .ok (j.client.progress.stored loaded n)
  /-- What is held is what is stored, save between the end of a window and the commit of it. -/
  held : j.client.Settled →
    ∀ scope, j.client.progress.engine.held scope = (j.client.progress.stored loaded n).at scope
  /-- A key that a session has told the server has been saved, and is not above what is stored. -/
  confirmed : ∀ i item scope key, item ∈ j.queued i → item.caller = none →
    item.message = scope.confirm key → Saved (j.client.progress.since n) scope key ∧
      key ≤ (j.client.progress.stored loaded n).at scope
  /-- A new client over the store asks for every scope from the cursor that was held. -/
  resumes : j.client.Settled → ∀ config tokens, config.validate = .ok () →
    ∃ c, Client.new config j.client.progress.store tokens = .ok c ∧
      (∀ scope, c.progress.engine.held scope = j.client.progress.engine.held scope) ∧
      ∀ m, m ∈ c.progress.engine.onReady.2 ↔ ∃ scope, (c.progress.engine.get? scope).isSome ∧
        m = scope.request (j.client.progress.engine.held scope)

lemma Backed.resumable (h : j.Backed loaded n) : j.Resumable loaded n := by
  have hstored := h.balanced.stores.load
  refine ⟨hstored, h.balanced.agrees, ?_, ?_⟩
  · intro i item scope key hitem hcaller hmessage
    have hcovered := h.covered i item hitem hcaller
    rw [hmessage] at hcovered
    obtain ⟨save, hsave, hsaved, hkey⟩ := hcovered
    refine ⟨⟨save, hsave, hsaved, hkey⟩, ?_⟩
    have hle := h.balanced.stores.covers save hsave hsaved scope
    rwa [Cursors.at, hkey] at hle
  · intro hsettled config tokens hvalid
    obtain ⟨c, hnew, -, hagrees⟩ := Client.new_of_load hvalid hstored tokens
    have hheld : ∀ scope, c.progress.engine.held scope = j.client.progress.engine.held scope :=
      fun scope => (hagrees scope).trans (h.balanced.agrees hsettled scope).symm
    refine ⟨c, hnew, hheld, fun m => ?_⟩
    rw [Engine.mem_onReady]
    simp only [hheld]

/-- A client whose sessions do not overlap holds what is stored, save between the end of a window
and the commit of it; it tells the server no key that is not stored; and a new client over the same
store goes on where it has stopped. -/
theorem resumable_ofTurns {config : Config} {store : CursorStore}
    {tokens : List (Except Error String)} {c : Client}
    (hnew : Client.new config store tokens = .ok c) (hsafe : store.FailsSafely)
    (ts : List Client.Turn)
    (hapart : ∀ front, front <+: ts → (ofTurns c front).client.Apart) :
    ∃ loaded, store.load = .ok loaded ∧
      (ofTurns c ts).Resumable loaded store.saves.length := by
  obtain ⟨-, loaded, hload⟩ := Client.load_of_new hnew
  have hbacked : Journal.Backed { client := c } loaded store.saves.length :=
    ⟨Client.balanced_new hnew hload hsafe, fun i item hitem => by cases hitem⟩
  exact ⟨loaded, hload, (hbacked.ofTurns (sound_start hnew) ts hapart).resumable⟩

/-- A server closes a window of the direct inbox at the key 7, which is stored and then held. -/
theorem resumable_of_window : ∃ ts,
    Client.new .least (.memory .zero) [] = .ok .least ∧
      CursorStore.FailsSafely (.memory .zero) ∧
      (∀ front, front <+: ts → (ofTurns .least front).client.Apart) ∧
      (ofTurns .least ts).client.progress.engine.held .direct = 7 ∧
      ∃ loaded, (CursorStore.memory .zero).load = .ok loaded ∧
        (ofTurns .least ts).Resumable loaded (CursorStore.memory .zero).saves.length := by
  let ts : List Client.Turn := Client.firsts (Client.introducing ++
    [.happen 0 (.arrive [0, 0, 0, 8, 0, 0, 0, 5, 28, 2, 0, 0, 0, 0, 0, 0, 0, 0, 0, 7]),
      .act (.reading 0), .act (.reading 0), .act (.reading 0), .act (.reading 0)])
  have hlengths : ∀ front ∈ ts.inits,
      (ofTurns .least front).client.connections.length ≤ 1 := by decide +kernel
  have hapart : ∀ front, front <+: ts → (ofTurns .least front).client.Apart :=
    fun front hfront => Client.apart_of_length (hlengths front ((List.mem_inits _ _).mpr hfront))
  have hsafe := CursorStore.failsSafely_memory .zero
  exact ⟨ts, Client.new_least, hsafe, hapart, by decide +kernel,
    resumable_ofTurns Client.new_least hsafe ts hapart⟩

end Journal

end Parley
