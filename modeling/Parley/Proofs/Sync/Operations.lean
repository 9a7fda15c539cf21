import Parley.Proofs.Sync.Held

/-!
# Operations of the engine

`Engine.Op` lists the operations of the engine, and `Engine.run` carries out any sequence of them.
Scopes do not meet in the engine: what an operation makes of the state of a scope, what it asks for
and what it confirms follow from the state of that scope alone (`get?_after`, `asked_perform`,
`confirmed_perform`). What holds of a scope in every run is derived from these three.
-/

namespace Parley

def Message.keyOf? (verb : SyncVerb) (scope : Scope) : Message → Option Int64
  | .sync v point => if v = verb ∧ point.scope = scope then some point.key else none
  | _ => none

namespace Engine

/-- An operation of the engine. The end of a window takes two, `closed` and `commit`. -/
inductive Op
  | ready
  | reset
  | track (g : Int64)
  | notify (scope : Scope) (key : Int64)
  | opened (scope : Scope)
  | closed (scope : Scope) (key : Int64)
  | commit (scope : Scope) (key : Int64) (persisted : Bool)
deriving DecidableEq, Repr

/-- The scope that an operation is about; the others are about all tracked scopes. -/
def Op.scope? : Op → Option Scope
  | .ready | .reset => none
  | .track g => some (.group g)
  | .notify scope _ | .opened scope | .closed scope _ | .commit scope _ _ => some scope

def perform (e : Engine) : Op → Engine × List Message
  | .ready => e.onReady
  | .reset => (e.resetWindows, [])
  | .track g => ((e.trackGroup g).1, (e.trackGroup g).2.toList)
  | .notify scope key => ((e.handleNotify scope key).1, (e.handleNotify scope key).2.toList)
  | .opened scope => (e.handleBegin scope, [])
  | .closed scope key => ((e.handleEnd scope key).1, [])
  | .commit scope key persisted =>
    ((e.commitEnd scope key persisted).1, (e.commitEnd scope key persisted).2.ack.toList ++
      (e.commitEnd scope key persisted).2.followUp.toList)

def after (e : Engine) (op : Op) : Engine := (e.perform op).1

def run (e : Engine) (ops : List Op) : Engine := ops.foldl after e

def said (e : Engine) : List Op → List Message
  | [] => []
  | op :: ops => (e.perform op).2 ++ (e.after op).said ops

/-- What is done with the engine at one time. The end of a window is taken as a whole here. -/
inductive Input
  | ready
  | reset
  | track (g : Int64)
  | notify (scope : Scope) (key : Int64)
  | opened (scope : Scope)
  | ended (scope : Scope) (key : Int64) (persisted : Bool)
deriving DecidableEq, Repr

def Input.ops : Input → List Op
  | .ready => [.ready]
  | .reset => [.reset]
  | .track g => [.track g]
  | .notify scope key => [.notify scope key]
  | .opened scope => [.opened scope]
  | .ended scope key persisted => [.closed scope key, .commit scope key persisted]

def opsOf (xs : List Input) : List Op := xs.flatMap Input.ops

lemma run_append (e : Engine) (ops ops' : List Op) : e.run (ops ++ ops') = (e.run ops).run ops' :=
  List.foldl_append

lemma said_append (e : Engine) (ops ops' : List Op) :
    e.said (ops ++ ops') = e.said ops ++ (e.run ops).said ops' := by
  induction ops generalizing e with
  | nil => rfl
  | cons op ops ih =>
    change (e.perform op).2 ++ (e.after op).said (ops ++ ops') = _
    rw [ih, ← List.append_assoc]
    rfl

lemma opsOf_append (xs ys : List Input) : opsOf (xs ++ ys) = opsOf xs ++ opsOf ys :=
  List.flatMap_append

lemma opsOf_concat (xs : List Input) (x : Input) : opsOf (xs ++ [x]) = opsOf xs ++ x.ops := by
  simp [opsOf]

/-! ## One scope -/

/-- The state of a scope that has just come to be tracked by something other than a request. -/
def entered (s : Option ScopeState) : ScopeState := s.getD { key := 0 }

/-- What an operation makes of the state of a scope, which is `none` as long as the scope is not
tracked. -/
def Op.turn (scope : Scope) (s : Option ScopeState) : Op → Option ScopeState
  | .ready => s.map fun s => s.reset.request
  | .reset => s.map .reset
  | .track g => if scope = .group g then some (s.getD { key := 0, window := .requested }) else s
  | .notify other key => if scope = other then some ((entered s).notify key).1 else s
  | .opened other => if scope = other then some (entered s).opened else s
  | .closed other _ => if scope = other then some (entered s).closed else s
  | .commit other key persisted =>
    if scope = other then some ((entered s).commit key persisted).1 else s

def Op.asks? (scope : Scope) (s : Option ScopeState) : Op → Option Int64
  | .ready => s.map (·.key)
  | .track g => if scope = .group g ∧ s = none then some 0 else none
  | .notify other key =>
    if scope = other ∧ ((entered s).notify key).2 = true then some (entered s).key else none
  | .commit other key persisted =>
    if scope = other ∧ ((entered s).commit key persisted).2.2 = true then
      some ((entered s).commit key persisted).1.key
    else none
  | .reset | .opened _ | .closed .. => none

def Op.confirms? (scope : Scope) (s : Option ScopeState) : Op → Option Int64
  | .commit other key persisted =>
    if scope = other ∧ ((entered s).commit key persisted).2.1 = true then some key else none
  | _ => none

section Frame
variable {scope other : Scope} {op : Op}

lemma turn_of_scope?_ne (hop : op.scope? = some other) (hne : scope ≠ other)
    (s : Option ScopeState) : op.turn scope s = s ∧ op.asks? scope s = none := by
  cases op with
  | ready => cases hop
  | reset => cases hop
  | track g =>
    obtain rfl := Option.some.inj hop
    exact ⟨if_neg hne, if_neg fun h => hne h.1⟩
  | notify scope' key =>
    obtain rfl := Option.some.inj hop
    exact ⟨if_neg hne, if_neg fun h => hne h.1⟩
  | opened scope' =>
    obtain rfl := Option.some.inj hop
    exact ⟨if_neg hne, rfl⟩
  | closed scope' key =>
    obtain rfl := Option.some.inj hop
    exact ⟨if_neg hne, rfl⟩
  | commit scope' key persisted =>
    obtain rfl := Option.some.inj hop
    exact ⟨if_neg hne, if_neg fun h => hne h.1⟩

lemma isSome_turn (hop : op.scope? = some scope) (s : Option ScopeState) :
    (op.turn scope s).isSome = true := by
  cases op with
  | ready => cases hop
  | reset => cases hop
  | _ =>
    obtain rfl := Option.some.inj hop
    simp [Op.turn]

lemma isSome_turn_of_scope?_eq_none (hop : op.scope? = none) (s : Option ScopeState) :
    (op.turn scope s).isSome = s.isSome := by
  cases op with
  | ready => exact Option.isSome_map
  | reset => exact Option.isSome_map
  | _ => cases hop

end Frame

lemma entry_eq (e : Engine) (scope : Scope) : e.entry scope = entered (e.get? scope) := rfl

lemma get?_put_entry (e : Engine) (f : ScopeState → ScopeState) (other scope : Scope) :
    (e.put (f (e.entry other)) other).get? scope =
      if scope = other then some (f (entered (e.get? scope))) else e.get? scope := by
  rw [get?_put]
  by_cases hscope : scope = other
  · rw [if_pos hscope, if_pos hscope, hscope]
    rfl
  · rw [if_neg hscope, if_neg hscope]

/-- Scopes do not meet: an operation changes the state of a scope as it would on its own. -/
theorem get?_after (e : Engine) (op : Op) (scope : Scope) :
    (e.after op).get? scope = op.turn scope (e.get? scope) := by
  cases op with
  | ready =>
    change (e.resetWindows.mapStates .request).get? scope = _
    rw [get?_mapStates, resetWindows, get?_mapStates, Option.map_map]
    rfl
  | reset => exact get?_mapStates e _ scope
  | track g =>
    simp only [after, perform, trackGroup, Op.turn]
    by_cases hcontains : e.groups.contains g = true
    · obtain ⟨s, hs⟩ := Option.isSome_iff_exists.mp hcontains
      have hget : e.get? (.group g) = some s := hs
      rw [if_pos hcontains]
      by_cases hscope : scope = .group g
      · rw [if_pos hscope, hscope, hget]
        rfl
      · rw [if_neg hscope]
    · have hnone : e.get? (.group g) = none := by
        simpa [GroupMap.contains, get?] using hcontains
      rw [if_neg hcontains, get?_put]
      by_cases hscope : scope = .group g
      · rw [if_pos hscope, if_pos hscope, hscope, hnone]
        rfl
      · rw [if_neg hscope, if_neg hscope]
  | notify other key => exact get?_put_entry e (fun s => (s.notify key).1) other scope
  | opened other => exact get?_put_entry e .opened other scope
  | closed other key => exact get?_put_entry e .closed other scope
  | commit other key persisted =>
    exact get?_put_entry e (fun s => (s.commit key persisted).1) other scope

/-! ## What is given out -/

lemma nodup_groups {α : Type} (m : GroupMap α) : m.groups.Nodup := by
  refine List.pairwise_map.mpr (m.ascending.imp fun hlt heq => ?_)
  rw [heq] at hlt
  exact Int64.lt_irrefl hlt

lemma nodup_scopes (e : Engine) : e.scopes.Nodup := by
  refine List.nodup_cons.mpr ⟨by simp, ?_⟩
  exact (nodup_groups e.groups).map fun g h heq => Scope.group.inj heq

lemma filterMap_eq_of_nodup {α β : Type} [DecidableEq α] {l : List α} (hl : l.Nodup) (a : α)
    (f : α → β) :
    l.filterMap (fun x => if x = a then some (f x) else none) =
      if a ∈ l then [f a] else [] := by
  induction l with
  | nil => rfl
  | cons x l ih =>
    obtain ⟨hx, hl⟩ := List.nodup_cons.mp hl
    by_cases h : x = a
    · subst h
      simp [ih hl, hx]
    · simp [h, ih hl, Ne.symm h]

lemma keys_of_due (verb v : SyncVerb) (scope other : Scope) (key : Int64) (due : Prop)
    [Decidable due] :
    (if due then some (.sync v ⟨other, key⟩) else none : Option Message).toList.filterMap
        (·.keyOf? verb scope) =
      (if verb = v ∧ scope = other ∧ due then some key else none).toList := by
  by_cases hdue : due
  · by_cases hsame : v = verb ∧ other = scope
    · simp [hdue, hsame, Message.keyOf?]
    · have hsame' : ¬ (verb = v ∧ scope = other) := fun h => hsame ⟨h.1.symm, h.2.symm⟩
      rw [if_pos hdue, if_neg fun h => hsame' ⟨h.1, h.2.1⟩]
      simp [Message.keyOf?, hsame]
  · simp [hdue]

lemma keys_onReady (verb : SyncVerb) (e : Engine) (scope : Scope) :
    e.onReady.2.filterMap (·.keyOf? verb scope) =
      if verb = .request then ((e.get? scope).map (·.key)).toList else [] := by
  have hget : e.resetWindows.get? scope = (e.get? scope).map .reset := get?_mapStates e _ scope
  have hone := filterMap_eq_of_nodup e.resetWindows.nodup_scopes scope
    fun other => (e.resetWindows.entry other).key
  simp only [onReady, List.filterMap_map, Function.comp_def, Scope.request, Message.keyOf?]
  by_cases hverb : verb = .request
  · simp only [hverb, true_and, if_true]
    rw [hone]
    simp only [mem_scopes, entry_eq, hget]
    cases e.get? scope <;> rfl
  · simp [hverb, Ne.symm hverb]

lemma trackGroup_request (e : Engine) (g : Int64) : (e.trackGroup g).2 =
    if e.get? (.group g) = none then some ((Scope.group g).request 0) else none := by
  have hnone : e.groups.contains g = true ↔ ¬ e.get? (.group g) = none := by
    simp [GroupMap.contains, get?, Option.isSome_iff_ne_none]
  rw [trackGroup]
  by_cases hcontains : e.groups.contains g = true
  · rw [if_pos hcontains, if_neg (hnone.mp hcontains)]
  · rw [if_neg hcontains, if_pos (not_not.mp fun h => hcontains (hnone.mpr h))]

lemma commitEnd_ack (e : Engine) (scope : Scope) (key : Int64) (persisted : Bool) :
    (e.commitEnd scope key persisted).2.ack =
      if ((e.entry scope).commit key persisted).2.1 = true then some (scope.confirm key)
      else none := rfl

lemma commitEnd_followUp (e : Engine) (scope : Scope) (key : Int64) (persisted : Bool) :
    (e.commitEnd scope key persisted).2.followUp =
      if ((e.entry scope).commit key persisted).2.2 = true then
        some (scope.request ((e.entry scope).commit key persisted).1.key)
      else none := rfl

theorem asked_perform (e : Engine) (op : Op) (scope : Scope) :
    (e.perform op).2.filterMap (·.keyOf? .request scope) =
      (op.asks? scope (e.get? scope)).toList := by
  cases op with
  | ready => exact keys_onReady .request e scope
  | reset => rfl
  | track g =>
    simp only [perform, Op.asks?, trackGroup_request, Scope.request, keys_of_due, true_and]
    by_cases hscope : scope = .group g
    · rw [hscope]
    · simp [hscope]
  | notify other key =>
    simp only [perform, handleNotify, Op.asks?, Scope.request, keys_of_due, true_and,
      ScopeState.key_notify, entry_eq]
    by_cases hscope : scope = other
    · rw [hscope]
    · simp [hscope]
  | opened other => rfl
  | closed other key => rfl
  | commit other key persisted =>
    simp only [perform, Op.asks?, List.filterMap_append, commitEnd_ack, commitEnd_followUp,
      Scope.request, Scope.confirm]
    rw [keys_of_due, keys_of_due, entry_eq]
    by_cases hscope : scope = other
    · simp [hscope]
    · simp [hscope]

theorem confirmed_perform (e : Engine) (op : Op) (scope : Scope) :
    (e.perform op).2.filterMap (·.keyOf? .confirm scope) =
      (op.confirms? scope (e.get? scope)).toList := by
  cases op with
  | ready => exact keys_onReady .confirm e scope
  | reset => rfl
  | track g =>
    simp [perform, Op.confirms?, trackGroup_request, Scope.request, keys_of_due]
  | notify other key =>
    simp [perform, handleNotify, Op.confirms?, Scope.request, keys_of_due]
  | opened other => rfl
  | closed other key => rfl
  | commit other key persisted =>
    simp only [perform, Op.confirms?, List.filterMap_append, commitEnd_ack, commitEnd_followUp,
      Scope.request, Scope.confirm]
    rw [keys_of_due, keys_of_due, entry_eq]
    by_cases hscope : scope = other
    · simp [hscope]
    · simp [hscope]

end Engine

end Parley
