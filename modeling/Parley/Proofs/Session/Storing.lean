import Parley.Proofs.Session.Steps
import Parley.Proofs.Store.Keeping
import Parley.Proofs.Sync.Held

/-!
# Storing the cursors of a session

The end of a window is taken in three steps, and `Due` says for each of them how the held cursors
and the stored ones stand to each other. A session whose duties are `Due` stays so by every step of
its reading side (`Session.Heard.keeps`), and ends only with held and stored cursors the same.
-/

namespace Parley

/-- The cursors of the last save that succeeded, or those that were there before. -/
def latest (loaded : Cursors) (saves : List Save) : Cursors :=
  saves.foldl (fun stored save => if save.saved then save.cursors else stored) loaded

/-- One of the saves has stored a key for a scope. -/
def Saved (saves : List Save) (scope : Scope) (key : Int64) : Prop :=
  ∃ save ∈ saves, save.saved = true ∧ save.cursors.get? scope = some key

def Agrees (e : Engine) (stored : Cursors) : Prop := ∀ scope, e.held scope = stored.at scope

def Covered (saves : List Save) : Message → Prop
  | .sync .confirm point => Saved saves point.scope point.key
  | _ => True

/-- A duty that is no step of storing cursors, and tells the server no key that is not stored. -/
def Harmless (saves : List Save) (duty : Duty) : Prop :=
  Session.stores duty = false ∧ ∀ m, duty = .send m → Covered saves m

/-- How the held cursors and the stored ones stand to each other with these duties ahead. -/
inductive Due (e : Engine) (saves : List Save) (stored : Cursors) : List Duty → Prop
  | none (duties : List Duty) (hagrees : Agrees e stored)
    (hduties : ∀ duty ∈ duties, Harmless saves duty) : Due e saves stored duties
  | persist (scope : Scope) (key : Int64) (cursors : Cursors) (hagrees : Agrees e stored)
    (hkey : e.held scope < key) (hscope : cursors.get? scope = some key)
    (hcursors : ∀ scope', cursors.at scope' = if scope' = scope then key else e.held scope') :
    Due e saves stored [.persist scope key cursors]
  | stored (scope : Scope) (key : Int64) (hkey : e.held scope < key)
    (hstored : ∀ scope', stored.at scope' = if scope' = scope then key else e.held scope')
    (hsaved : Saved saves scope key) : Due e saves stored [.commit scope key true]
  | unstored (scope : Scope) (key : Int64) (hagrees : Agrees e stored) :
    Due e saves stored [.commit scope key false]

section Latest
variable {loaded : Cursors} {saves : List Save} {scope : Scope} {key : Int64}

lemma latest_append (loaded : Cursors) (saves : List Save) (save : Save) :
    latest loaded (saves ++ [save]) = if save.saved then save.cursors else latest loaded saves := by
  rw [latest, List.foldl_append]
  rfl

lemma Saved.append (h : Saved saves scope key) (more : List Save) :
    Saved (saves ++ more) scope key := by
  obtain ⟨save, hsave, hsaved, hkey⟩ := h
  exact ⟨save, List.mem_append_left more hsave, hsaved, hkey⟩

lemma Covered.append {m : Message} (h : Covered saves m) (more : List Save) :
    Covered (saves ++ more) m := by
  cases m with
  | sync verb point =>
    cases verb with
    | confirm => exact Saved.append h more
    | _ => trivial
  | _ => trivial

end Latest

section Due
variable {e e' : Engine} {saves : List Save} {stored : Cursors} {duties : List Duty}

lemma Agrees.congr (h : Agrees e stored) (hheld : ∀ scope, e'.held scope = e.held scope) :
    Agrees e' stored := fun scope => (hheld scope).trans (h scope)

lemma Due.congr (h : Due e saves stored duties) (hheld : ∀ scope, e'.held scope = e.held scope) :
    Due e' saves stored duties := by
  cases h with
  | none _ hagrees hduties => exact .none duties (hagrees.congr hheld) hduties
  | persist scope key cursors hagrees hkey hscope hcursors =>
    refine .persist scope key cursors (hagrees.congr hheld) (by rwa [hheld]) hscope fun scope' => ?_
    rw [hcursors, hheld]
  | stored scope key hkey hstored hsaved =>
    refine .stored scope key (by rwa [hheld]) (fun scope' => ?_) hsaved
    rw [hstored, hheld]
  | unstored scope key hagrees => exact .unstored scope key (hagrees.congr hheld)

lemma Due.agrees (h : Due e saves stored duties)
    (hduty : ∀ duty ∈ duties.head?, Session.stores duty = false) : Agrees e stored := by
  cases h with
  | none _ hagrees hduties => exact hagrees
  | persist scope key cursors hagrees hkey hscope hcursors => exact hagrees
  | unstored scope key hagrees => exact hagrees
  | stored scope key hkey hstored hsaved =>
    have hstores := hduty (.commit scope key true) rfl
    cases hstores

lemma Due.rest {duty : Duty} (h : Due e saves stored (duty :: duties))
    (hduty : Session.stores duty = false) : Due e saves stored duties := by
  cases h with
  | none _ hagrees hduties => exact .none duties hagrees fun d hd => hduties d (by simp [hd])
  | _ => cases hduty

lemma Due.covered {m : Message} (h : Due e saves stored (.send m :: duties)) : Covered saves m := by
  cases h with
  | none _ hagrees hduties => exact (hduties (.send m) (by simp)).2 m rfl

lemma Due.rest_eq_nil {duty : Duty} (h : Due e saves stored (duty :: duties))
    (hduty : Session.stores duty = true) : duties = [] := by
  cases h with
  | none _ hagrees hduties =>
    obtain ⟨hstores, -⟩ := hduties duty (by simp)
    rw [hduty] at hstores
    cases hstores
  | _ => rfl

lemma harmless_request (saves : List Save) (scope : Scope) (key : Int64) :
    Harmless saves (.send (scope.request key)) := by
  refine ⟨rfl, fun m hm => ?_⟩
  obtain rfl := Duty.send.inj hm
  trivial

end Due

/-! ## Frames -/

section Dispatch
variable {p : Progress} {saves : List Save} {stored : Cursors}

lemma due_of_syncClosed (scope : Scope) (key : Int64) (h : Agrees p.engine stored) :
    Due (p.syncClosed scope key).1.engine saves stored (p.syncClosed scope key).2 := by
  have hagrees := h.congr (p.engine.held_handleEnd scope key)
  cases hend : (p.engine.handleEnd scope key).2 with
  | none =>
    have hduties : (p.syncClosed scope key).2 = [.commit scope key false] := by
      simp only [Progress.syncClosed, hend]
    rw [hduties]
    exact .unstored scope key hagrees
  | some cursors =>
    have hduties : (p.syncClosed scope key).2 = [.persist scope key cursors] := by
      simp only [Progress.syncClosed, hend]
    rw [hduties]
    obtain ⟨hkey, hscope, hcursors⟩ := Engine.snapshot_of_handleEnd hend
    refine .persist scope key cursors hagrees ?_ hscope fun scope' => ?_
    · have hheld := p.engine.held_handleEnd scope key scope
      exact hheld.symm ▸ hkey
    · have hheld := p.engine.held_handleEnd scope key scope'
      rw [hcursors, ← hheld]
      rfl

lemma due_of_sync {point : SyncPoint} {verb : SyncVerb} {p' : Progress} {duties : List Duty}
    (h : Agrees p.engine stored) (hsync : p.sync point verb = some (p', duties)) :
    p'.store = p.store ∧ Due p'.engine saves stored duties := by
  cases verb with
  | opened =>
    cases hsync
    refine ⟨rfl, .none _ (h.congr (p.engine.held_handleBegin point.scope)) ?_⟩
    simp [Harmless, Session.stores]
  | ended =>
    cases hsync
    exact ⟨rfl, due_of_syncClosed point.scope point.key h⟩
  | notify =>
    cases hsync
    refine ⟨rfl, .none _ (h.congr (p.engine.held_handleNotify point.scope point.key)) ?_⟩
    intro duty hduty
    obtain ⟨m, hm, rfl⟩ := List.mem_map.mp hduty
    obtain ⟨key, rfl⟩ := Engine.request_of_handleNotify (Option.mem_toList.mp hm)
    exact harmless_request saves _ key
  | request => cases hsync
  | confirm => cases hsync

lemma due_of_handOn (f : Frame) (h : Agrees p.engine stored) :
    Due p.engine saves stored (receiptDuty f ++ [.deliver f]) := by
  refine .none _ h fun duty hduty => ?_
  rcases List.mem_append.mp hduty with hduty | hduty
  · rw [receiptDuty] at hduty
    split at hduty
    · obtain rfl := List.mem_singleton.mp hduty
      exact ⟨rfl, fun m hm => by cases hm; trivial⟩
    · cases hduty
  · obtain rfl := List.mem_singleton.mp hduty
    exact ⟨rfl, fun m hm => by cases hm⟩

/-- A frame moves no held cursor and stores nothing; what follows from it is due. -/
theorem due_of_dispatch (saves : List Save) (t : Tracker Nat) (raw : RawFrame)
    (h : Agrees p.engine stored) :
    (dispatch p t raw).progress.store = p.store ∧
      Due (dispatch p t raw).progress.engine saves stored (dispatch p t raw).duties := by
  have hnothing : Due p.engine saves stored [] := .none [] h (by simp)
  rw [dispatch]
  cases raw.decode with
  | error e => exact ⟨rfl, hnothing⟩
  | ok f =>
    simp only [dispatchFrame]
    split
    · exact ⟨rfl, hnothing⟩
    · exact ⟨rfl, hnothing⟩
    · exact ⟨rfl, hnothing⟩
    · refine ⟨rfl, .none _ h fun duty hduty => ?_⟩
      obtain rfl := List.mem_singleton.mp hduty
      exact ⟨rfl, fun m hm => by cases hm; trivial⟩
    · split
      · rename_i hsync
        exact due_of_sync h hsync
      · exact ⟨rfl, due_of_handOn f h⟩
    · exact ⟨rfl, due_of_handOn f h⟩

/-- A window that is committed as its cursors are stored or not leaves nothing to be stored. -/
theorem due_of_syncEnd {scope : Scope} {key : Int64} {persisted : Bool}
    (h : Due p.engine saves stored [.commit scope key persisted]) :
    Due (p.syncEnd scope key persisted).1.engine saves stored
      (p.syncEnd scope key persisted).2 := by
  have hheld := p.engine.held_commitEnd scope key persisted
  have hagrees : Agrees (p.engine.commitEnd scope key persisted).1 stored := by
    intro scope'
    rw [hheld]
    cases h with
    | none _ hagrees hduties =>
      obtain ⟨hstores, -⟩ := hduties (.commit scope key persisted) (by simp)
      cases hstores
    | stored _ _ hkey hstored hsaved => rw [hstored]; simp [hkey]
    | unstored _ _ hagrees => simp [hagrees scope']
  have hsaved : persisted = true → Saved saves scope key := by
    rintro rfl
    cases h with
    | none _ hagrees hduties =>
      obtain ⟨hstores, -⟩ := hduties (.commit scope key true) (by simp)
      cases hstores
    | stored _ _ hkey hstored hsaved => exact hsaved
  refine .none _ hagrees fun duty hduty => ?_
  simp only [Progress.syncEnd, List.mem_append, List.mem_map, Option.mem_toList,
    List.mem_singleton] at hduty
  rcases hduty with (⟨m, hm, rfl⟩ | ⟨m, hm, rfl⟩) | rfl
  · obtain ⟨hpersisted, rfl⟩ := Engine.ack_commitEnd hm
    refine ⟨rfl, fun m' hm' => ?_⟩
    obtain rfl := Duty.send.inj hm'
    exact hsaved hpersisted
  · obtain ⟨key', rfl⟩ := Engine.followUp_commitEnd hm
    exact harmless_request saves scope key'
  · exact ⟨rfl, fun m hm => by cases hm⟩

end Dispatch

/-! ## What is stored -/

namespace Progress
variable {p : Progress} {loaded : Cursors} {n : Nat}

def since (p : Progress) (n : Nat) : List Save := p.store.saves.drop n

/-- The cursors of the last of these saves that succeeded, or those loaded. -/
def stored (p : Progress) (loaded : Cursors) (n : Nat) : Cursors := latest loaded (p.since n)

/-- A store holds what was saved last. -/
structure Stores (p : Progress) (loaded : Cursors) (n : Nat) : Prop where
  length_le : n ≤ p.store.saves.length
  load : p.store.load = .ok (p.stored loaded n)
  failsSafely : p.store.FailsSafely
  covers : ∀ save ∈ p.since n, save.saved = true →
    ∀ scope, save.cursors.at scope ≤ (p.stored loaded n).at scope

/-- How the held cursors and the stored ones stand to each other with these duties ahead. -/
def Due (p : Progress) (loaded : Cursors) (n : Nat) (duties : List Duty) : Prop :=
  Parley.Due p.engine (p.since n) (p.stored loaded n) duties

lemma Stores.of_store {p' : Progress} (h : p.Stores loaded n) (hstore : p'.store = p.store) :
    p'.Stores loaded n := by
  obtain ⟨hlength, hload, hsafe, hcovers⟩ := h
  simp only [stored, since] at hload hcovers
  rw [← hstore] at hlength hload hsafe hcovers
  exact ⟨hlength, hload, hsafe, hcovers⟩

theorem Stores.save (h : p.Stores loaded n) {scope : Scope} {key : Int64} {cursors : Cursors}
    (hdue : p.Due loaded n [.persist scope key cursors]) :
    Stores { p with store := (p.store.save cursors).2 } loaded n ∧
      Due { p with store := (p.store.save cursors).2 } loaded n
        [.commit scope key (p.store.save cursors).1] := by
  have hsince : since { p with store := (p.store.save cursors).2 } n =
      p.since n ++ [⟨cursors, (p.store.save cursors).1⟩] := by
    simp only [since, CursorStore.save, List.drop_append_of_le_length h.length_le]
  have hstored : stored { p with store := (p.store.save cursors).2 } loaded n =
      if (p.store.save cursors).1 then cursors else p.stored loaded n := by
    rw [stored, hsince, latest_append]
    rfl
  have hlength : n ≤ (p.store.save cursors).2.saves.length := by
    have hle := h.length_le
    simp only [CursorStore.save, List.length_append]
    omega
  have hfault := CursorStore.loadFault_of_load h.load
  obtain ⟨hagrees, hkey, hscope, hcursors⟩ : Agrees p.engine (p.stored loaded n) ∧
      p.engine.held scope < key ∧ cursors.get? scope = some key ∧
        ∀ scope', cursors.at scope' = if scope' = scope then key else p.engine.held scope' := by
    cases hdue with
    | none _ hagrees hduties =>
      obtain ⟨hstores, -⟩ := hduties (.persist scope key cursors) (by simp)
      cases hstores
    | persist _ _ _ hagrees hkey hscope hcursors => exact ⟨hagrees, hkey, hscope, hcursors⟩
  rw [Due, hstored, hsince]
  cases hsaved : (p.store.save cursors).1 with
  | false =>
    rw [hsaved, if_neg Bool.false_ne_true] at hstored
    rw [hsaved] at hsince
    refine ⟨⟨hlength, ?_, h.failsSafely.save cursors, ?_⟩, .unstored scope key hagrees⟩
    · rw [hstored, ← h.load]
      exact CursorStore.load_of_not_saved h.failsSafely hsaved
    · rw [hsince, hstored]
      intro save hsave hsaved'
      rcases List.mem_append.mp hsave with hsave | hsave
      · exact h.covers save hsave hsaved'
      · obtain rfl := List.mem_singleton.mp hsave
        cases hsaved'
  | true =>
    rw [hsaved, if_pos rfl] at hstored
    rw [hsaved] at hsince
    refine ⟨⟨hlength, ?_, h.failsSafely.save cursors, ?_⟩,
      .stored scope key hkey hcursors ⟨_, List.mem_append_right _ List.mem_cons_self, rfl, hscope⟩⟩
    · rw [hstored]
      exact CursorStore.load_of_saved hfault hsaved
    · rw [hsince, hstored]
      intro save hsave hsaved' scope'
      rcases List.mem_append.mp hsave with hsave | hsave
      · refine Int64.le_trans (h.covers save hsave hsaved' scope') ?_
        rw [hcursors, ← hagrees scope']
        split
        · rename_i heq
          subst heq
          exact Int64.le_of_lt hkey
        · exact Int64.le_refl _
      · obtain rfl := List.mem_singleton.mp hsave
        exact Int64.le_refl _

end Progress

/-! ## A step of the reading side -/

namespace Session
variable {s : Session} {p : Progress} {now : Nat} {loaded : Cursors} {n : Nat} {duties : List Duty}

def duties? (s : Session) : Option (List Duty) :=
  match s.stage with
  | .live duties => some duties
  | _ => none

/-- What is due for a session, and that held and stored cursors are the same when it has ended. -/
structure Keeps (s : Session) (p p' : Progress) (loaded : Cursors) (n : Nat) : Prop where
  stores : p'.Stores loaded n
  since : ∃ more, p'.since n = p.since n ++ more
  due : ∀ duties, s.duties? = some duties → p'.Due loaded n duties
  agrees : s.duties? = none → Agrees p'.engine (p'.stored loaded n)

lemma Keeps.of_due {p' : Progress} (hstage : s.stage = .live duties) (hstores : p'.Stores loaded n)
    (hsince : ∃ more, p'.since n = p.since n ++ more) (hdue : p'.Due loaded n duties) :
    s.Keeps p p' loaded n := by
  have hduties : s.duties? = some duties := by rw [duties?, hstage]
  refine ⟨hstores, hsince, fun duties' h => ?_, fun h => ?_⟩
  · rw [hduties] at h
    cases h
    exact hdue
  · rw [hduties] at h
    cases h

theorem Heard.keeps {step : Step} (h : s.Heard p now step) (hstage : s.stage = .live duties)
    (hstores : p.Stores loaded n) (hdue : p.Due loaded n duties) :
    step.session.Keeps p step.progress loaded n := by
  have hsame : ∃ more, p.since n = p.since n ++ more := ⟨[], by rw [List.append_nil]⟩
  cases h with
  | sent m rest outbox hstage' hoffer =>
    obtain rfl := Stage.live.inj (hstage.symm.trans hstage')
    exact .of_due rfl hstores hsame (hdue.rest rfl)
  | lined m rest outbox hstage' hoffer =>
    exact .of_due hstage hstores hsame hdue
  | persisted scope key cursors rest hstage' =>
    obtain rfl := Stage.live.inj (hstage.symm.trans hstage')
    obtain rfl := hdue.rest_eq_nil rfl
    obtain ⟨hstores', hdue'⟩ := hstores.save hdue
    refine .of_due rfl hstores' ?_ hdue'
    exact ⟨_, List.drop_append_of_le_length hstores.length_le⟩
  | committed scope key persisted rest hstage' =>
    obtain rfl := Stage.live.inj (hstage.symm.trans hstage')
    obtain rfl := hdue.rest_eq_nil rfl
    rw [List.append_nil]
    exact .of_due rfl (hstores.of_store rfl) hsame (due_of_syncEnd hdue)
  | handedOut duty ev rest backlog channel hstage' hduty hput =>
    obtain rfl := Stage.live.inj (hstage.symm.trans hstage')
    exact .of_due rfl hstores hsame (hdue.rest (stores_of_eventOf? hduty))
  | dispatched raw link hstage' hnext =>
    -- A frame is looked at when no duty is left, so that held and stored cursors agree.
    obtain rfl := Stage.live.inj (hstage.symm.trans hstage')
    have hagrees : Agrees p.engine (p.stored loaded n) := hdue.agrees (by simp)
    obtain ⟨hstore, hdue'⟩ := due_of_dispatch (p.since n) s.tracker raw hagrees
    have hsince : (dispatch p s.tracker raw).progress.since n = p.since n := by
      rw [Progress.since, Progress.since, hstore]
    refine .of_due rfl (hstores.of_store hstore) ⟨[], by rw [List.append_nil, hsince]⟩ ?_
    rw [Progress.Due, Progress.stored, hsince]
    exact hdue'
  | pinged hstage' hsilent =>
    obtain rfl := Stage.live.inj (hstage.symm.trans hstage')
    refine .of_due rfl hstores hsame (.none _ (hdue.agrees (by simp)) fun duty hduty => ?_)
    obtain rfl := List.mem_singleton.mp hduty
    exact ⟨rfl, fun m hm => by cases hm; trivial⟩
  | refilled ev backlog hstage' hbacklog hroom =>
    exact .of_due hstage hstores hsame hdue
  | left hstage' hbacklog =>
    rw [hstage] at hstage'
    cases hstage'
  | finished duties' link reason hstage' hduty hends =>
    -- No session ends with a store or a commit in front of it.
    obtain rfl := Stage.live.inj (hstage.symm.trans hstage')
    have hagrees : Agrees p.engine (p.stored loaded n) := hdue.agrees hduty
    refine ⟨hstores.of_store rfl, hsame, fun duties' h => ?_, fun h => ?_⟩
    · cases h
    · exact hagrees.congr p.engine.held_resetWindows

end Session

end Parley
