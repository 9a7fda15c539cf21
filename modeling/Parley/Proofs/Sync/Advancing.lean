import Parley.Proofs.Sync.Operations

/-!
# How cursors advance

Whatever the order of operations, the cursor that is held for a scope is the highest of the one that
the engine started from and of the keys that were committed as stored. Main statement:
`Engine.advances_run`.
-/

namespace Parley

lemma Cursors.ext_get? {c d : Cursors} (h : ∀ scope, c.get? scope = d.get? scope) : c = d := by
  have hdirect : c.direct = d.direct := Option.some.inj (h .direct)
  have hgroups : c.groups = d.groups := GroupMap.ext_get? fun g => h (.group g)
  cases c
  cases d
  exact congrArg₂ Cursors.mk hdirect hgroups

namespace Engine

def Op.stored? (scope : Scope) : Op → Option Int64
  | .commit other key persisted => if other = scope ∧ persisted = true then some key else none
  | _ => none

lemma max_eq_ite (a b : Int64) : max a b = if a < b then b else a := by
  have hmax : max a b = if a ≤ b then b else a := rfl
  rw [hmax]
  by_cases hlt : a < b
  · rw [if_pos hlt, if_pos (Int64.le_of_lt hlt)]
  · rw [if_neg hlt]
    by_cases hle : a ≤ b
    · rw [if_pos hle]
      exact Int64.le_antisymm (Int64.not_lt.mp hlt) hle
    · rw [if_neg hle]

/-! ## Held cursors -/

lemma held_after (e : Engine) (op : Op) (scope : Scope) :
    (e.after op).held scope = ((op.stored? scope).toList).foldl max (e.held scope) := by
  cases op with
  | ready => exact e.held_onReady scope
  | reset => exact e.held_resetWindows scope
  | track g => exact e.held_trackGroup g scope
  | notify other key => exact e.held_handleNotify other key scope
  | opened other => exact e.held_handleBegin other scope
  | closed other key => exact e.held_handleEnd other key scope
  | commit other key persisted =>
    refine (e.held_commitEnd other key persisted scope).trans ?_
    by_cases hstored : other = scope ∧ persisted = true
    · obtain ⟨rfl, rfl⟩ := hstored
      simp [Op.stored?, max_eq_ite]
    · have hnot : ¬ (scope = other ∧ persisted = true ∧ e.held other < key) :=
        fun h => hstored ⟨h.1.symm, h.2.1⟩
      simp only [Op.stored?, if_neg hstored, if_neg hnot, Option.toList_none, List.foldl_nil]

lemma held_run (e : Engine) (ops : List Op) (scope : Scope) :
    (e.run ops).held scope = (ops.filterMap (·.stored? scope)).foldl max (e.held scope) := by
  induction ops generalizing e with
  | nil => rfl
  | cons op ops ih =>
    have hstep := e.held_after op scope
    change ((e.after op).run ops).held scope = _
    rw [ih, hstep]
    cases hstored : op.stored? scope <;> simp [hstored]

/-! ## Tracked scopes -/

lemma isSome_get?_after (e : Engine) (op : Op) (scope : Scope) :
    ((e.after op).get? scope).isSome ↔ (e.get? scope).isSome ∨ op.scope? = some scope := by
  rw [get?_after]
  cases hop : op.scope? with
  | none =>
    rw [isSome_turn_of_scope?_eq_none hop]
    simp
  | some other =>
    by_cases hscope : scope = other
    · subst hscope
      simp [isSome_turn hop]
    · rw [(turn_of_scope?_ne hop hscope _).1]
      simp [Ne.symm hscope]

lemma isSome_get?_run (e : Engine) (ops : List Op) (scope : Scope) :
    ((e.run ops).get? scope).isSome ↔
      (e.get? scope).isSome ∨ ∃ op ∈ ops, op.scope? = some scope := by
  induction ops generalizing e with
  | nil => simp [run]
  | cons op ops ih =>
    change (((e.after op).run ops).get? scope).isSome ↔ _
    rw [ih, isSome_get?_after]
    simp [or_assoc]

lemma mem_trackedGroups {e : Engine} {g : Int64} :
    g ∈ e.trackedGroups ↔ (e.get? (.group g)).isSome := by
  rw [← mem_scopes]
  simp [scopes]

lemma trackedGroups_ofCursors (c : Cursors) : (ofCursors c).trackedGroups = c.groups.groups := by
  simp [ofCursors, trackedGroups, GroupMap.groups, GroupMap.map, Function.comp_def]

/-! ## The cursors to be stored -/

lemma cursors_commitEnd {e : Engine} {scope : Scope} {key : Int64} (h : e.held scope < key) :
    (e.commitEnd scope key true).1.cursors = e.cursors.set key scope := by
  refine Cursors.ext_get? fun scope' => ?_
  have hput : (e.commitEnd scope key true).1.get? scope' =
      if scope' = scope then some ((e.entry scope).commit key true).1 else e.get? scope' :=
    e.get?_put _ scope scope'
  have hkey : ((e.entry scope).commit key true).1.key = key := by
    rw [ScopeState.key_commit, if_pos ⟨rfl, h⟩]
  rw [get?_cursors, hput, Cursors.get?_set, get?_cursors]
  by_cases hscope : scope' = scope
  · rw [if_pos hscope, if_pos hscope, Option.map_some, hkey]
  · rw [if_neg hscope, if_neg hscope]

lemma handleEnd_snapshot (e : Engine) (scope : Scope) (key : Int64) :
    (e.handleEnd scope key).2 =
      if e.held scope < key then
        some ((e.handleEnd scope key).1.commitEnd scope key true).1.cursors
      else none := by
  have hadvances : (e.entry scope).advancesTo key = decide (e.held scope < key) := rfl
  by_cases hlt : e.held scope < key
  · have hheld : (e.handleEnd scope key).1.held scope < key := by rwa [held_handleEnd]
    rw [if_pos hlt, cursors_commitEnd hheld]
    simp only [handleEnd, hadvances, hlt, decide_true, if_true]
  · simp only [handleEnd, hadvances, hlt, decide_false, if_false, Bool.false_eq_true]

/-- What operations have made of an engine that was set up from cursors. -/
structure Advances (c : Cursors) (ops : List Op) (e : Engine) : Prop where
  held : ∀ scope, (e.get? scope).isSome →
    e.cursor? scope = (c.at scope :: ops.filterMap (·.stored? scope)).max?
  tracked : ∀ g, g ∈ e.trackedGroups ↔
    g ∈ c.groups.groups ∨ ∃ op ∈ ops, op.scope? = some (.group g)
  /-- The end of a window asks for cursors to be stored if its key is above the one held, and for
  just those that are held when they have been. -/
  snapshot : ∀ scope key, (e.handleEnd scope key).2 =
    if e.held scope < key then
      some ((e.handleEnd scope key).1.commitEnd scope key true).1.cursors
    else none

/-- The held cursors, the tracked groups and the cursors to be stored, after any operations in any
order. -/
theorem advances_run (c : Cursors) (ops : List Op) : Advances c ops ((ofCursors c).run ops) := by
  refine ⟨fun scope htracked => ?_, fun g => ?_, handleEnd_snapshot _⟩
  · obtain ⟨s, hs⟩ := Option.isSome_iff_exists.mp htracked
    have hheld : ((ofCursors c).run ops).cursor? scope =
        some (((ofCursors c).run ops).held scope) := by
      simp only [cursor?, held, entry, hs, Option.map_some, Option.getD_some]
    rw [hheld, held_run, held_ofCursors, List.max?_cons']
  · rw [mem_trackedGroups, isSome_get?_run, ← mem_trackedGroups, trackedGroups_ofCursors]

end Engine

end Parley
