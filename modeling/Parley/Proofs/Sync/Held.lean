import Mathlib.Tactic
import Parley.Session.Dispatch

/-!
# Held cursors

What the operations of the engine do to the cursors that it holds. A group that is not tracked holds
zero, as does a group without a stored cursor, so that to begin to track a group moves no cursor.
Only the end of a window, committed as stored, moves one (`Engine.held_commitEnd`).
-/

namespace Parley

/-- The cursor of a scope, zero for a group that has none. -/
def Cursors.at (c : Cursors) (scope : Scope) : Int64 := (c.get? scope).getD 0

def Engine.held (e : Engine) (scope : Scope) : Int64 := (e.entry scope).key

/-! ## Maps over groups -/

lemma GroupMap.get?_map {α β : Type} (f : α → β) (m : GroupMap α) (g : Int64) :
    (m.map f).get? g = (m.get? g).map f := by
  simp only [get?, map, List.find?_map, Option.map_map, Function.comp_def]

lemma Cursors.get?_set (c : Cursors) (key : Int64) (scope scope' : Scope) :
    (c.set key scope).get? scope' = if scope' = scope then some key else c.get? scope' := by
  cases scope with
  | direct => cases scope' <;> simp [set, get?]
  | group g =>
    cases scope' with
    | direct => simp [set, get?]
    | group h => simp [set, get?, GroupMap.get?_set, eq_comm]

lemma Cursors.at_set (c : Cursors) (key : Int64) (scope scope' : Scope) :
    (c.set key scope).at scope' = if scope' = scope then key else c.at scope' := by
  rw [Cursors.at, get?_set]
  split <;> rfl

namespace ScopeState
variable (s : ScopeState) (key : Int64)

lemma key_reset : s.reset.key = s.key := rfl

lemma key_request : s.request.key = s.key := rfl

lemma key_opened : s.opened.key = s.key := rfl

lemma key_closed : s.closed.key = s.key := rfl

lemma key_notify : (s.notify key).1.key = s.key := by
  simp only [notify]
  split
  · rfl
  · split <;> rfl

lemma key_commit (persisted : Bool) : (s.commit key persisted).1.key =
    if persisted = true ∧ s.key < key then key else s.key := by
  simp [commit, advancesTo]

lemma advanced_commit (persisted : Bool) :
    (s.commit key persisted).2.1 = (persisted && decide (s.key < key)) := rfl

end ScopeState

namespace Engine

/-! ## Looking -/

lemma get?_put (e : Engine) (s : ScopeState) (scope scope' : Scope) :
    (e.put s scope).get? scope' = if scope' = scope then some s else e.get? scope' := by
  cases scope with
  | direct => cases scope' <;> simp [put, get?]
  | group g =>
    cases scope' with
    | direct => simp [put, get?]
    | group h => simp [put, get?, GroupMap.get?_set, eq_comm]

lemma get?_mapStates (e : Engine) (f : ScopeState → ScopeState) (scope : Scope) :
    (e.mapStates f).get? scope = (e.get? scope).map f := by
  cases scope with
  | direct => rfl
  | group g => exact GroupMap.get?_map f e.groups g

lemma held_put (e : Engine) (s : ScopeState) (scope scope' : Scope) :
    (e.put s scope).held scope' = if scope' = scope then s.key else e.held scope' := by
  rw [held, entry, get?_put]
  split <;> rfl

lemma held_put_of_key {e : Engine} {s : ScopeState} {scope : Scope} (h : s.key = e.held scope)
    (scope' : Scope) : (e.put s scope).held scope' = e.held scope' := by
  rw [held_put]
  split
  · rename_i heq
    rw [h, heq]
  · rfl

lemma held_mapStates {f : ScopeState → ScopeState} (hf : ∀ s, (f s).key = s.key) (e : Engine)
    (scope : Scope) : (e.mapStates f).held scope = e.held scope := by
  rw [held, held, entry, entry, get?_mapStates]
  cases e.get? scope with
  | none => rfl
  | some s => exact hf s

lemma get?_cursors (e : Engine) (scope : Scope) :
    e.cursors.get? scope = (e.get? scope).map (·.key) := by
  cases scope with
  | direct => rfl
  | group g => exact GroupMap.get?_map _ e.groups g

lemma at_cursors (e : Engine) (scope : Scope) : e.cursors.at scope = e.held scope := by
  rw [Cursors.at, get?_cursors, held, entry]
  cases e.get? scope <;> rfl

/-! ## Operations that move no cursor -/

lemma held_ofCursors (c : Cursors) (scope : Scope) : (ofCursors c).held scope = c.at scope := by
  cases scope with
  | direct => rfl
  | group g =>
    have hget : (ofCursors c).get? (.group g) = (c.groups.get? g).map fun key => { key } :=
      GroupMap.get?_map _ c.groups g
    rw [held, entry, hget, Cursors.at, Cursors.get?]
    cases c.groups.get? g <;> rfl

lemma held_resetWindows (e : Engine) (scope : Scope) : e.resetWindows.held scope = e.held scope :=
  held_mapStates ScopeState.key_reset e scope

lemma held_onReady (e : Engine) (scope : Scope) : e.onReady.1.held scope = e.held scope := by
  have hrequest := held_mapStates ScopeState.key_request e.resetWindows scope
  rw [held_resetWindows] at hrequest
  exact hrequest

lemma held_trackGroup (e : Engine) (g : Int64) (scope : Scope) :
    (e.trackGroup g).1.held scope = e.held scope := by
  rw [trackGroup]
  split
  · rfl
  · rename_i hcontains
    refine held_put_of_key ?_ scope
    have hnone : e.get? (.group g) = none := by
      simpa [GroupMap.contains, get?] using hcontains
    rw [held, entry, hnone]
    rfl

lemma held_handleNotify (e : Engine) (scope : Scope) (key : Int64) (scope' : Scope) :
    (e.handleNotify scope key).1.held scope' = e.held scope' :=
  held_put_of_key ((e.entry scope).key_notify key) scope'

lemma request_of_handleNotify {e : Engine} {scope : Scope} {key : Int64} {m : Message}
    (h : (e.handleNotify scope key).2 = some m) : ∃ key', m = scope.request key' := by
  simp only [handleNotify, Option.ite_none_right_eq_some, Option.some.injEq] at h
  exact ⟨_, h.2.symm⟩

lemma held_handleBegin (e : Engine) (scope scope' : Scope) :
    (e.handleBegin scope).held scope' = e.held scope' :=
  held_put_of_key (e.entry scope).key_opened scope'

/-! ## The end of a window -/

lemma held_handleEnd (e : Engine) (scope : Scope) (key : Int64) (scope' : Scope) :
    (e.handleEnd scope key).1.held scope' = e.held scope' :=
  held_put_of_key (e.entry scope).key_closed scope'

lemma snapshot_of_handleEnd {e : Engine} {scope : Scope} {key : Int64} {cursors : Cursors}
    (h : (e.handleEnd scope key).2 = some cursors) :
    e.held scope < key ∧ cursors.get? scope = some key ∧
      ∀ scope', cursors.at scope' = if scope' = scope then key else e.held scope' := by
  simp only [handleEnd, Option.ite_none_right_eq_some, Option.some.injEq] at h
  obtain ⟨hadvances, rfl⟩ := h
  refine ⟨by simpa [ScopeState.advancesTo, held] using hadvances, ?_, fun scope' => ?_⟩
  · rw [Cursors.get?_set, if_pos rfl]
  · rw [Cursors.at_set, at_cursors, ← held_handleEnd e scope key]
    rfl

theorem held_commitEnd (e : Engine) (scope : Scope) (key : Int64) (persisted : Bool)
    (scope' : Scope) :
    (e.commitEnd scope key persisted).1.held scope' =
      if scope' = scope ∧ persisted = true ∧ e.held scope < key then key else e.held scope' := by
  have hput := e.held_put ((e.entry scope).commit key persisted).1 scope scope'
  rw [ScopeState.key_commit] at hput
  refine hput.trans ?_
  by_cases hscope : scope' = scope
  · subst hscope
    simp [held]
  · simp [hscope]

lemma ack_commitEnd {e : Engine} {scope : Scope} {key : Int64} {persisted : Bool} {m : Message}
    (h : (e.commitEnd scope key persisted).2.ack = some m) :
    persisted = true ∧ m = scope.confirm key := by
  simp only [commitEnd, Option.ite_none_right_eq_some, Option.some.injEq] at h
  obtain ⟨hadvanced, rfl⟩ := h
  rw [ScopeState.advanced_commit, Bool.and_eq_true] at hadvanced
  exact ⟨hadvanced.1, rfl⟩

lemma followUp_commitEnd {e : Engine} {scope : Scope} {key : Int64} {persisted : Bool} {m : Message}
    (h : (e.commitEnd scope key persisted).2.followUp = some m) :
    ∃ key', m = scope.request key' := by
  simp only [commitEnd, Option.ite_none_right_eq_some, Option.some.injEq] at h
  exact ⟨_, h.2.symm⟩

/-! ## A new connection -/

lemma mem_scopes {e : Engine} {scope : Scope} : scope ∈ e.scopes ↔ (e.get? scope).isSome := by
  cases scope with
  | direct => simp [scopes, get?]
  | group g =>
    have hentry : g ∈ e.groups.groups ↔ ∃ x ∈ e.groups.entries, x.1 = g := by
      simp [GroupMap.groups]
    simp [scopes, get?, trackedGroups, hentry, GroupMap.get?, List.find?_isSome]

theorem mem_onReady {e : Engine} {m : Message} : m ∈ e.onReady.2 ↔
    ∃ scope, (e.get? scope).isSome ∧ m = scope.request (e.held scope) := by
  have htracked : ∀ scope, (e.resetWindows.get? scope).isSome = (e.get? scope).isSome := by
    intro scope
    rw [resetWindows, get?_mapStates, Option.isSome_map]
  have hkey : ∀ scope, (e.resetWindows.entry scope).key = e.held scope := e.held_resetWindows
  simp only [onReady, List.mem_map, mem_scopes, htracked, hkey, eq_comm]

end Engine

end Parley
