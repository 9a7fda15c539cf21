import Parley.Proofs.Sync.Operations

/-!
# One request at a time

A scope that has been asked for is busy until its window ends or all windows are forgotten, and a
busy scope is not asked for. So no two requests of one scope are in flight at once, whatever happens
to the other scopes. Main statement: `Engine.spaced_run`.
-/

namespace Parley

lemma ScopeState.notify_cases (s : ScopeState) (key : Int64) :
    (key ≤ s.key ∧ s.notify key = (s, false)) ∨
    (s.key < key ∧ s.window = .idle ∧ s.notify key = (s.request, true)) ∨
    (s.key < key ∧ s.window ≠ .idle ∧ s.notify key =
      ({ s with deferred := some ((s.deferred.map fun d => max d key).getD key) }, false)) := by
  rw [notify]
  by_cases hkey : key ≤ s.key
  · rw [if_pos hkey]
    exact .inl ⟨hkey, rfl⟩
  · have hlt : s.key < key := Int64.not_le.mp hkey
    rw [if_neg hkey]
    by_cases hidle : s.window = .idle
    · rw [if_pos hidle]
      exact .inr (.inl ⟨hlt, hidle, rfl⟩)
    · rw [if_neg hidle]
      exact .inr (.inr ⟨hlt, hidle, rfl⟩)

lemma ScopeState.window_commit (s : ScopeState) (key : Int64) (persisted : Bool) :
    (s.commit key persisted).1.window =
      if (s.commit key persisted).2.2 = true then .requested else s.window := rfl

namespace Engine

def Busy (s : Option ScopeState) : Prop := ∃ t, s = some t ∧ t.window ≠ .idle

/-- Whether an operation may free a scope. -/
def Op.frees (scope : Scope) : Op → Bool
  | .ready | .reset => true
  | .closed other _ | .commit other _ _ => other = scope
  | _ => false

def Input.frees (scope : Scope) : Input → Bool
  | .ready | .reset => true
  | .ended other _ _ => other = scope
  | _ => false

lemma Input.frees_ops {x : Input} {scope : Scope} (h : x.frees scope = false) :
    ∀ op ∈ x.ops, op.frees scope = false := by
  intro op hop
  cases x with
  | ready => cases h
  | reset => cases h
  | ended other key persisted => rcases List.mem_pair.mp hop with rfl | rfl <;> exact h
  | track g => obtain rfl := List.mem_singleton.mp hop; rfl
  | notify other key => obtain rfl := List.mem_singleton.mp hop; rfl
  | opened other => obtain rfl := List.mem_singleton.mp hop; rfl

lemma frees_opsOf {xs : List Input} {scope : Scope} (h : ∀ x ∈ xs, x.frees scope = false) :
    ∀ op ∈ opsOf xs, op.frees scope = false := by
  intro op hop
  obtain ⟨x, hx, hop⟩ := List.mem_flatMap.mp hop
  exact Input.frees_ops (h x hx) op hop

/-! ## One operation -/

section Turn
variable {scope : Scope} {s : Option ScopeState} {op : Op} {key : Int64}

lemma turn_of_asks? (h : op.asks? scope s = some key) :
    ∃ t, op.turn scope s = some t ∧ t.window ≠ .idle ∧ t.key = key := by
  cases op with
  | ready =>
    obtain ⟨t, rfl, rfl⟩ := Option.map_eq_some_iff.mp h
    exact ⟨_, rfl, Window.noConfusion, rfl⟩
  | track g =>
    obtain ⟨⟨hscope, rfl⟩, hkey⟩ := Option.ite_none_right_eq_some.mp h
    refine ⟨_, if_pos hscope, Window.noConfusion, ?_⟩
    exact Option.some.inj hkey
  | notify other noticed =>
    obtain ⟨⟨hscope, hdue⟩, hkey⟩ := Option.ite_none_right_eq_some.mp h
    refine ⟨_, if_pos hscope, ?_, ?_⟩
    · rcases (entered s).notify_cases noticed with ⟨-, hnotify⟩ | ⟨-, -, hnotify⟩ | ⟨-, -, hnotify⟩
      · rw [hnotify] at hdue
        cases hdue
      · rw [hnotify]
        exact Window.noConfusion
      · rw [hnotify] at hdue
        cases hdue
    · rw [ScopeState.key_notify]
      exact Option.some.inj hkey
  | commit other ended persisted =>
    obtain ⟨⟨hscope, hdue⟩, hkey⟩ := Option.ite_none_right_eq_some.mp h
    refine ⟨_, if_pos hscope, ?_, Option.some.inj hkey⟩
    rw [ScopeState.window_commit, if_pos hdue]
    exact Window.noConfusion
  | reset => cases h
  | opened other => cases h
  | closed other ended => cases h

lemma busy_turn_notify (h : Busy s) (noticed : Int64) :
    Busy (Op.turn scope s (.notify scope noticed)) ∧
      Op.asks? scope s (.notify scope noticed) = none := by
  obtain ⟨t, rfl, hbusy⟩ := h
  rcases t.notify_cases noticed with ⟨-, hnotify⟩ | ⟨-, hidle, -⟩ | ⟨-, -, hnotify⟩
  · refine ⟨⟨t, ?_, hbusy⟩, ?_⟩
    · simp [Op.turn, entered, hnotify]
    · simp [Op.asks?, entered, hnotify]
  · exact absurd hidle hbusy
  · refine ⟨⟨_, if_pos rfl, ?_⟩, ?_⟩
    · simpa [entered, hnotify] using hbusy
    · simp [Op.asks?, entered, hnotify]

lemma busy_turn (hfrees : op.frees scope = false) (h : Busy s) :
    Busy (op.turn scope s) ∧ op.asks? scope s = none := by
  by_cases hop : op.scope? = some scope
  · cases op with
    | ready => cases hop
    | reset => cases hop
    | track g =>
      obtain rfl := Option.some.inj hop
      obtain ⟨t, rfl, hbusy⟩ := h
      exact ⟨⟨t, if_pos rfl, hbusy⟩, if_neg fun h => by cases h.2⟩
    | notify other noticed =>
      obtain rfl := Option.some.inj hop
      exact busy_turn_notify h noticed
    | opened other =>
      obtain rfl := Option.some.inj hop
      exact ⟨⟨_, if_pos rfl, Window.noConfusion⟩, rfl⟩
    | closed other ended =>
      obtain rfl := Option.some.inj hop
      simp [Op.frees] at hfrees
    | commit other ended persisted =>
      obtain rfl := Option.some.inj hop
      simp [Op.frees] at hfrees
  · cases hother : op.scope? with
    | none => cases op <;> cases hother <;> cases hfrees
    | some other =>
      have hne : scope ≠ other := fun heq => hop (heq ▸ hother)
      obtain ⟨hturn, hasks⟩ := turn_of_scope?_ne hother hne s
      rw [hturn]
      exact ⟨h, hasks⟩

lemma turn_of_confirms? (h : op.confirms? scope s = some key) :
    op = .commit scope key true ∧ (entered s).key < key ∧
      ∃ t, op.turn scope s = some t ∧ t.key = key := by
  cases op with
  | commit other ended persisted =>
    obtain ⟨⟨rfl, hadvanced⟩, hkey⟩ := Option.ite_none_right_eq_some.mp h
    obtain rfl : ended = key := Option.some.inj hkey
    rw [ScopeState.advanced_commit, Bool.and_eq_true, decide_eq_true_eq] at hadvanced
    obtain ⟨rfl, hlt⟩ := hadvanced
    refine ⟨rfl, hlt, _, if_pos rfl, ?_⟩
    rw [ScopeState.key_commit, if_pos ⟨rfl, hlt⟩]
  | _ => cases h

end Turn

/-! ## Runs -/

lemma busy_run {e : Engine} {ops : List Op} {scope : Scope}
    (hfrees : ∀ op ∈ ops, op.frees scope = false) (h : Busy (e.get? scope)) :
    (e.said ops).filterMap (·.keyOf? .request scope) = [] := by
  induction ops generalizing e with
  | nil => rfl
  | cons op ops ih =>
    obtain ⟨hbusy, hnone⟩ := busy_turn (hfrees op List.mem_cons_self) h
    rw [← get?_after] at hbusy
    change ((e.perform op).2 ++ (e.after op).said ops).filterMap _ = _
    rw [List.filterMap_append, asked_perform, hnone,
      ih (fun op hop => hfrees op (List.mem_cons_of_mem _ hop)) hbusy]
    rfl

lemma Input.exists_last (x : Input) (e : Engine) : ∃ front op, x.ops = front ++ [op] ∧
    e.said x.ops = ((e.run front).perform op).2 ∧ e.run x.ops = (e.run front).after op := by
  cases x with
  | ended scope key persisted =>
    refine ⟨[.closed scope key], .commit scope key persisted, rfl, ?_, rfl⟩
    simp [ops, said, run, after, perform]
  | _ => exact ⟨[], _, rfl, List.append_nil _, rfl⟩

lemma mem_keys {verb : SyncVerb} {scope : Scope} {key : Int64} {ms : List Message} :
    key ∈ ms.filterMap (·.keyOf? verb scope) ↔ .sync verb ⟨scope, key⟩ ∈ ms := by
  rw [List.mem_filterMap]
  constructor
  · rintro ⟨m, hm, hkey⟩
    cases m with
    | sync v point =>
      obtain ⟨⟨rfl, rfl⟩, hsame⟩ := Option.ite_none_right_eq_some.mp hkey
      rwa [← Option.some.inj hsame]
    | _ => cases hkey
  · intro hm
    exact ⟨_, hm, by simp [Message.keyOf?]⟩

section Input
variable {e : Engine} {x : Input} {scope : Scope} {key : Int64}

lemma length_asked_le (e : Engine) (x : Input) (scope : Scope) :
    ((e.said x.ops).filterMap (·.keyOf? .request scope)).length ≤ 1 := by
  obtain ⟨front, op, -, hsaid, -⟩ := x.exists_last e
  rw [hsaid, asked_perform]
  cases op.asks? scope ((e.run front).get? scope) <;> simp

lemma asked_said (h : scope.request key ∈ e.said x.ops) :
    Busy ((e.run x.ops).get? scope) ∧ (e.run x.ops).cursor? scope = some key := by
  obtain ⟨front, op, -, hsaid, hrun⟩ := x.exists_last e
  rw [hsaid, Scope.request, ← mem_keys, asked_perform, Option.mem_toList] at h
  obtain ⟨t, ht, hbusy, hkey⟩ := turn_of_asks? h
  rw [← get?_after, ← hrun] at ht
  refine ⟨⟨t, ht, hbusy⟩, ?_⟩
  rw [cursor?, ht, Option.map_some, hkey]

lemma lt_of_noticed {noticed : Int64}
    (h : scope.request key ∈ e.said (Input.notify scope noticed).ops) : key < noticed := by
  have hsaid : e.said (Input.notify scope noticed).ops = (e.perform (.notify scope noticed)).2 :=
    List.append_nil _
  rw [hsaid, Scope.request, ← mem_keys, asked_perform, Option.mem_toList] at h
  obtain ⟨⟨-, hdue⟩, hkey⟩ := Option.ite_none_right_eq_some.mp h
  rcases (entered (e.get? scope)).notify_cases noticed with
    ⟨-, hnotify⟩ | ⟨hlt, -, -⟩ | ⟨-, -, hnotify⟩
  · rw [hnotify] at hdue
    cases hdue
  · rwa [← Option.some.inj hkey]
  · rw [hnotify] at hdue
    cases hdue

lemma confirmed_said (h : scope.confirm key ∈ e.said x.ops) : x = .ended scope key true ∧
    e.held scope < key ∧ (e.run x.ops).cursor? scope = some key := by
  obtain ⟨front, op, hops, hsaid, hrun⟩ := x.exists_last e
  rw [hsaid, Scope.confirm, ← mem_keys, confirmed_perform, Option.mem_toList] at h
  obtain ⟨rfl, hlt, t, ht, hkey⟩ := turn_of_confirms? h
  rw [← get?_after, ← hrun] at ht
  cases x with
  | ended other ended persisted =>
    have hsplit : [.closed other ended] ++ [.commit other ended persisted] =
        front ++ [.commit scope key true] := hops
    obtain ⟨rfl, hlast⟩ := List.append_inj' hsplit rfl
    cases hlast
    have hheld : (e.run [.closed scope key]).held scope = e.held scope :=
      e.held_handleEnd scope key scope
    refine ⟨rfl, hheld ▸ hlt, ?_⟩
    rw [cursor?, ht, Option.map_some, hkey]
  | _ =>
    obtain ⟨-, hlast⟩ := List.append_inj' ((List.nil_append _).trans hops) rfl
    cases hlast

end Input

/-- What the inputs `before`, then `x`, and possibly more up to `y`, make an engine ask for and
confirm. -/
structure Spaced (e : Engine) : Prop where
  /-- Between two requests of one scope its window ends, or all windows are forgotten. The second
  request may be given out in doing so. -/
  apart : ∀ (before : List Input) (x : Input) (middle : List Input) (y : Input) scope key key',
    .sync .request ⟨scope, key⟩ ∈ (e.run (opsOf before)).said x.ops →
    .sync .request ⟨scope, key'⟩ ∈ (e.run (opsOf (before ++ x :: middle))).said y.ops →
    ∃ z ∈ middle ++ [y], z.frees scope = true
  once : ∀ (before : List Input) (x : Input) scope,
    (((e.run (opsOf before)).said x.ops).filterMap (·.keyOf? .request scope)).length ≤ 1
  held : ∀ (before : List Input) (x : Input) scope key,
    .sync .request ⟨scope, key⟩ ∈ (e.run (opsOf before)).said x.ops →
    (e.run (opsOf (before ++ [x]))).cursor? scope = some key ∧
      ∀ noticed, x = .notify scope noticed → key < noticed
  confirmed : ∀ (before : List Input) (x : Input) scope key,
    .sync .confirm ⟨scope, key⟩ ∈ (e.run (opsOf before)).said x.ops →
    x = .ended scope key true ∧ (e.run (opsOf before)).held scope < key ∧
      (e.run (opsOf (before ++ [x]))).cursor? scope = some key

/-- A scope has one request in flight at most, and that from its held cursor, whatever the order of
the inputs. -/
theorem spaced_run (e : Engine) : Spaced e := by
  have hrun : ∀ before x, e.run (opsOf (before ++ [x])) = (e.run (opsOf before)).run x.ops := by
    intro before x
    rw [opsOf_concat, run_append]
  refine ⟨?_, ?_, ?_, ?_⟩
  · intro before x middle y scope key key' hx hy
    by_contra hnone
    have hfrees : ∀ z ∈ middle ++ [y], z.frees scope = false := by
      intro z hz
      exact Bool.eq_false_of_not_eq_true fun h => hnone ⟨z, hz, h⟩
    have hsplit : before ++ x :: middle = before ++ [x] ++ middle := by simp
    have hsaid : scope.request key' ∈ (e.run (opsOf (before ++ [x]))).said
        (opsOf (middle ++ [y])) := by
      rw [opsOf_concat middle, said_append, ← run_append, ← opsOf_append, ← hsplit]
      exact List.mem_append_right _ hy
    have hnever := busy_run (frees_opsOf hfrees) (hrun before x ▸ (asked_said hx).1)
    have hkey := mem_keys.mpr hsaid
    rw [hnever] at hkey
    cases hkey
  · intro before x scope
    exact length_asked_le _ x scope
  · intro before x scope key hx
    rw [hrun]
    refine ⟨(asked_said hx).2, ?_⟩
    rintro noticed rfl
    exact lt_of_noticed hx
  · intro before x scope key hx
    rw [hrun]
    exact confirmed_said hx

end Engine

end Parley
