import Parley.Proofs.Sync.Operations

/-!
# Scopes are independent

Inputs about different scopes may come in any order among each other: what the engine makes of a
scope, and what it gives out for it, follow from the inputs about this scope alone. Main statement:
`Engine.independent_run`.
-/

namespace Parley

def Message.concerns (scope : Scope) : Message → Bool
  | .sync _ point => point.scope = scope
  | _ => false

namespace Engine

lemma ext_get? {e e' : Engine} (h : ∀ scope, e.get? scope = e'.get? scope) : e = e' := by
  have hdirect : e.direct = e'.direct := Option.some.inj (h .direct)
  have hgroups : e.groups = e'.groups := GroupMap.ext_get? fun g => h (.group g)
  cases e
  cases e'
  exact congrArg₂ Engine.mk hdirect hgroups

/-! ## One scope on its own -/

/-- Whether an operation has to do with a scope: it is about the scope, or about all of them. -/
def Op.concerns (scope : Scope) (op : Op) : Bool := op.scope?.all (· = scope)

def Op.gives (scope : Scope) (s : Option ScopeState) (op : Op) : List Message :=
  (op.confirms? scope s).toList.map scope.confirm ++ (op.asks? scope s).toList.map scope.request

def turnAll (scope : Scope) (s : Option ScopeState) (ops : List Op) : Option ScopeState :=
  ops.foldl (fun s op => op.turn scope s) s

def givesAll (scope : Scope) (s : Option ScopeState) : List Op → List Message
  | [] => []
  | op :: ops => op.gives scope s ++ givesAll scope (op.turn scope s) ops

section Frame
variable {scope : Scope} {op : Op}

lemma turn_of_not_concerns (h : op.concerns scope = false) (s : Option ScopeState) :
    op.turn scope s = s ∧ op.gives scope s = [] := by
  obtain ⟨other, hop, hne⟩ : ∃ other, op.scope? = some other ∧ scope ≠ other := by
    cases hop : op.scope? with
    | none => simp [Op.concerns, hop] at h
    | some other => exact ⟨other, rfl, fun heq => by simp [Op.concerns, hop, heq] at h⟩
  obtain ⟨hturn, hasks⟩ := turn_of_scope?_ne hop hne s
  have hconfirms : op.confirms? scope s = none := by
    cases op with
    | commit other' key persisted =>
      obtain rfl := Option.some.inj hop
      exact if_neg fun h => hne h.1
    | _ => rfl
  exact ⟨hturn, by simp [Op.gives, hasks, hconfirms]⟩

end Frame

lemma turnAll_filter (scope : Scope) (s : Option ScopeState) (ops : List Op) :
    turnAll scope s (ops.filter (·.concerns scope)) = turnAll scope s ops := by
  induction ops generalizing s with
  | nil => rfl
  | cons op ops ih =>
    cases hop : op.concerns scope with
    | true =>
      rw [List.filter_cons_of_pos hop]
      exact ih (op.turn scope s)
    | false =>
      rw [List.filter_cons_of_neg (by simp [hop]), ih]
      exact congrArg (turnAll scope · ops) (turn_of_not_concerns hop s).1.symm

lemma givesAll_filter (scope : Scope) (s : Option ScopeState) (ops : List Op) :
    givesAll scope s (ops.filter (·.concerns scope)) = givesAll scope s ops := by
  induction ops generalizing s with
  | nil => rfl
  | cons op ops ih =>
    cases hop : op.concerns scope with
    | true => rw [List.filter_cons_of_pos hop, givesAll, givesAll, ih]
    | false =>
      obtain ⟨hturn, hgives⟩ := turn_of_not_concerns hop s
      rw [List.filter_cons_of_neg (by simp [hop]), ih, givesAll, hturn, hgives, List.nil_append]

/-! ## The scopes of an engine -/

theorem get?_run (e : Engine) (ops : List Op) (scope : Scope) :
    (e.run ops).get? scope = turnAll scope (e.get? scope) ops := by
  induction ops generalizing e with
  | nil => rfl
  | cons op ops ih =>
    change ((e.after op).run ops).get? scope = _
    rw [ih, get?_after]
    rfl

lemma filter_of_due (verb : SyncVerb) (scope other : Scope) (key : Int64) (due : Prop)
    [Decidable due] :
    (if due then some (.sync verb ⟨other, key⟩) else none : Option Message).toList.filter
        (·.concerns scope) =
      (if scope = other ∧ due then some key else none).toList.map fun key =>
        .sync verb ⟨scope, key⟩ := by
  by_cases hdue : due
  · by_cases hscope : scope = other
    · simp [hdue, hscope, Message.concerns]
    · simp [hdue, hscope, Ne.symm hscope, Message.concerns]
  · simp [hdue]

lemma filter_onReady (e : Engine) (scope : Scope) :
    e.onReady.2.filter (·.concerns scope) =
      ((e.get? scope).map (·.key)).toList.map scope.request := by
  have hget : e.resetWindows.get? scope = (e.get? scope).map .reset := get?_mapStates e _ scope
  have hone : e.resetWindows.scopes.filter (· = scope) =
      if scope ∈ e.resetWindows.scopes then [scope] else [] := by
    rw [List.filter_eq, e.resetWindows.nodup_scopes.count]
    split <;> rfl
  have hfilter : (fun other : Scope => (other.request (e.resetWindows.entry other).key).concerns
      scope) = fun other => decide (other = scope) := rfl
  simp only [onReady, List.filter_map, Function.comp_def, hfilter, hone, mem_scopes, hget]
  cases hstate : e.get? scope with
  | none => simp
  | some s => simp [entry_eq, hget, hstate, entered, ScopeState.key_reset]

theorem filter_perform (e : Engine) (op : Op) (scope : Scope) :
    (e.perform op).2.filter (·.concerns scope) = op.gives scope (e.get? scope) := by
  cases op with
  | ready => exact filter_onReady e scope
  | reset => rfl
  | track g =>
    simp only [perform, Op.gives, Op.confirms?, Op.asks?, trackGroup_request, Scope.request,
      filter_of_due, Option.toList_none, List.map_nil, List.nil_append]
    by_cases hscope : scope = .group g
    · rw [hscope]
      rfl
    · simp [hscope]
  | notify other key =>
    simp only [perform, handleNotify, Op.gives, Op.confirms?, Op.asks?, Scope.request,
      filter_of_due, ScopeState.key_notify, entry_eq, Option.toList_none, List.map_nil,
      List.nil_append]
    by_cases hscope : scope = other
    · rw [hscope]
      rfl
    · simp [hscope]
  | opened other => rfl
  | closed other key => rfl
  | commit other key persisted =>
    simp only [perform, Op.gives, Op.confirms?, Op.asks?, List.filter_append, commitEnd_ack,
      commitEnd_followUp, Scope.request, Scope.confirm]
    rw [filter_of_due, filter_of_due, entry_eq]
    by_cases hscope : scope = other
    · rw [hscope]
      rfl
    · simp [hscope]

theorem filter_said (e : Engine) (ops : List Op) (scope : Scope) :
    (e.said ops).filter (·.concerns scope) = givesAll scope (e.get? scope) ops := by
  induction ops generalizing e with
  | nil => rfl
  | cons op ops ih =>
    change ((e.perform op).2 ++ (e.after op).said ops).filter _ = _
    rw [List.filter_append, filter_perform, ih, get?_after]
    rfl

/-! ## Inputs -/

/-- Whether an input has to do with a scope: it is about the scope, or about all of them. -/
def Input.concerns (scope : Scope) : Input → Bool
  | .ready | .reset => true
  | .track g => .group g = scope
  | .notify other _ | .opened other | .ended other _ _ => other = scope

/-- The inputs that have to do with a scope, each with what it gives out for the scope. -/
def exchanges (scope : Scope) (e : Engine) : List Input → List (Input × List Message)
  | [] => []
  | x :: xs =>
    let rest := (e.run x.ops).exchanges scope xs
    if x.concerns scope then (x, (e.said x.ops).filter (·.concerns scope)) :: rest else rest

def exchangesOf (scope : Scope) (s : Option ScopeState) : List Input → List (Input × List Message)
  | [] => []
  | x :: xs => (x, givesAll scope s x.ops) :: exchangesOf scope (turnAll scope s x.ops) xs

lemma Input.concerns_ops {scope : Scope} {x : Input} {op : Op} (h : op ∈ x.ops) :
    op.concerns scope = x.concerns scope := by
  cases x with
  | ended other key persisted =>
    rcases List.mem_cons.mp h with rfl | h
    · simp [Op.concerns, Op.scope?, Input.concerns]
    · obtain rfl := List.mem_singleton.mp h
      simp [Op.concerns, Op.scope?, Input.concerns]
  | _ =>
    obtain rfl := List.mem_singleton.mp h
    simp [Op.concerns, Op.scope?, Input.concerns]

lemma filter_opsOf (scope : Scope) (xs : List Input) :
    (opsOf xs).filter (·.concerns scope) = opsOf (xs.filter (·.concerns scope)) := by
  induction xs with
  | nil => rfl
  | cons x xs ih =>
    change (x.ops ++ opsOf xs).filter _ = _
    rw [List.filter_append, ih]
    cases hx : x.concerns scope with
    | true =>
      rw [List.filter_cons_of_pos hx, List.filter_eq_self.mpr fun op hop => by
        rw [Input.concerns_ops hop, hx]]
      rfl
    | false =>
      rw [List.filter_cons_of_neg (by simp [hx]), List.filter_eq_nil_iff.mpr fun op hop => by
        simp [Input.concerns_ops hop, hx], List.nil_append]

lemma exchanges_eq (scope : Scope) (e : Engine) (xs : List Input) :
    e.exchanges scope xs = exchangesOf scope (e.get? scope) (xs.filter (·.concerns scope)) := by
  induction xs generalizing e with
  | nil => rfl
  | cons x xs ih =>
    cases hx : x.concerns scope with
    | true => simp only [exchanges, hx, if_true, List.filter_cons_of_pos, exchangesOf, ih,
        filter_said, get?_run]
    | false =>
      have hkept : turnAll scope (e.get? scope) x.ops = e.get? scope := by
        rw [← turnAll_filter, List.filter_eq_nil_iff.mpr fun op hop => by
          simp [Input.concerns_ops hop, hx]]
        rfl
      rw [List.filter_cons_of_neg (by simp [hx])]
      simp only [exchanges, hx, Bool.false_eq_true, if_false, ih, get?_run, hkept]

/-- Scopes are independent. Two sequences of inputs that are the same for every scope, however the
scopes alternate in them, leave the engine in the same state; every input gets the same answer for
every scope, and for every scope the same messages are given out in the same order. -/
theorem independent_run (e : Engine) (xs ys : List Input)
    (h : ∀ scope, xs.filter (·.concerns scope) = ys.filter (·.concerns scope)) :
    e.run (opsOf xs) = e.run (opsOf ys) ∧
      ∀ scope, e.exchanges scope xs = e.exchanges scope ys ∧
        (e.said (opsOf xs)).filter (·.concerns scope) =
          (e.said (opsOf ys)).filter (·.concerns scope) := by
  have hops : ∀ scope, (opsOf xs).filter (·.concerns scope) =
      (opsOf ys).filter (·.concerns scope) := by
    intro scope
    rw [filter_opsOf, filter_opsOf, h]
  refine ⟨ext_get? fun scope => ?_, fun scope => ⟨?_, ?_⟩⟩
  · rw [get?_run, get?_run, ← turnAll_filter, hops, turnAll_filter]
  · rw [exchanges_eq, exchanges_eq, h]
  · rw [filter_said, filter_said, ← givesAll_filter, hops, givesAll_filter]

/-- The windows of the direct inbox and of a group, first one inside the other, then one after the
other. -/
theorem independent_of_windows : ∃ xs ys : List Input,
    xs ≠ ys ∧ (∀ scope, xs.filter (·.concerns scope) = ys.filter (·.concerns scope)) ∧
      new.run (opsOf xs) = new.run (opsOf ys) ∧
        new.exchanges (.group 7) xs =
          [(.notify (.group 7) 9, [(Scope.group 7).request 0]), (.opened (.group 7), []),
            (.notify (.group 7) 12, []), (.ended (.group 7) 9 true,
              [(Scope.group 7).confirm 9, (Scope.group 7).request 9])] ∧
        new.exchanges (.group 7) xs = new.exchanges (.group 7) ys := by
  let xs : List Input := [.notify (.group 7) 9, .opened .direct, .opened (.group 7),
    .notify (.group 7) 12, .ended .direct 5 true, .ended (.group 7) 9 true]
  let ys : List Input := [.opened .direct, .ended .direct 5 true, .notify (.group 7) 9,
    .opened (.group 7), .notify (.group 7) 12, .ended (.group 7) 9 true]
  have hsame : ∀ scope, xs.filter (·.concerns scope) = ys.filter (·.concerns scope) := by
    intro scope
    cases scope with
    | direct => decide
    | group g => by_cases hg : 7 = g <;> simp [xs, ys, Input.concerns, hg]
  obtain ⟨hrun, hscopes⟩ := independent_run new xs ys hsame
  exact ⟨xs, ys, by decide, hsame, hrun, by decide +kernel, (hscopes (.group 7)).1⟩

end Engine

end Parley
