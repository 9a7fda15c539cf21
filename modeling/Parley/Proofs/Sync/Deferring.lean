import Parley.Proofs.Sync.Requesting

/-!
# Notices during a window

A key noticed while the window of a scope is not idle is kept until the window ends, and leads to a
request then if the cursor has not come that far. Nothing else leads to one. Main statement:
`Engine.defers_run`.
-/

namespace Parley

namespace Engine

/-- A new round of a scope begins: its window leaves idle, or all windows are forgotten. The end of
a window makes it idle first, so that the request it leads to begins a round too. -/
def Renews (e : Engine) (op : Op) (scope : Scope) : Prop :=
  op = .ready ∨ op = .reset ∨
    (e.entry scope).window = .idle ∧ ((e.after op).entry scope).window ≠ .idle

/-- A key has been noticed since the last round of a scope began. The notice that has begun a round
is not counted. -/
def Outstanding (e : Engine) (ops : List Op) (scope : Scope) (key : Int64) : Prop :=
  ∃ before after, ops = before ++ .notify scope key :: after ∧
    ∀ front op rest, .notify scope key :: after = front ++ op :: rest →
      ¬ (e.run (before ++ front)).Renews op scope

lemma not_outstanding_nil (e : Engine) (scope : Scope) (key : Int64) :
    ¬ Outstanding e [] scope key := by
  rintro ⟨before, after, hops, -⟩
  simp at hops

lemma outstanding_concat {e : Engine} {ops : List Op} {op : Op} {scope : Scope} {key : Int64} :
    Outstanding e (ops ++ [op]) scope key ↔
      ¬ (e.run ops).Renews op scope ∧ (op = .notify scope key ∨ Outstanding e ops scope key) := by
  constructor
  · rintro ⟨before, after, hops, hkept⟩
    -- the last operation is the notice itself, or lies behind it
    rcases List.eq_nil_or_concat after with rfl | ⟨after, last, rfl⟩
    · obtain ⟨rfl, hop⟩ := List.append_inj' hops rfl
      obtain rfl := (List.cons.inj hop).1
      refine ⟨?_, .inl rfl⟩
      simpa using hkept [] _ [] rfl
    · rw [List.concat_eq_append, ← List.cons_append, ← List.append_assoc] at hops
      obtain ⟨rfl, hop⟩ := List.append_inj' hops rfl
      obtain rfl := (List.cons.inj hop).1
      rw [List.concat_eq_append] at hkept
      refine ⟨hkept (.notify scope key :: after) op [] rfl, .inr ⟨before, after, rfl, ?_⟩⟩
      intro front op' rest hfront
      refine hkept front op' (rest ++ [op]) ?_
      rw [← List.cons_append, hfront, List.append_assoc, List.cons_append]
  · rintro ⟨hop, rfl | ⟨before, after, rfl, hkept⟩⟩
    · refine ⟨ops, [], rfl, ?_⟩
      intro front op' rest hfront
      rcases front with _ | ⟨x, front⟩
      · obtain rfl := (List.cons.inj hfront).1
        simpa using hop
      · simp at hfront
    · refine ⟨before, after ++ [op], by simp, ?_⟩
      intro front op' rest hfront
      rw [← List.cons_append] at hfront
      rcases List.eq_nil_or_concat rest with rfl | ⟨rest, last, rfl⟩
      · obtain ⟨rfl, hlast⟩ := List.append_inj' hfront rfl
        obtain rfl := (List.cons.inj hlast).1
        exact hop
      · rw [List.concat_eq_append, ← List.cons_append, ← List.append_assoc] at hfront
        exact hkept front op' rest (List.append_inj' hfront rfl).1

/-! ## One scope -/

/-- What a scope remembers of the keys that are outstanding: the highest, as long as its cursor has
not come there. -/
structure Remembers (outstanding : Int64 → Prop) (s : ScopeState) : Prop where
  covers : ∀ key, outstanding key → key ≤ s.deferred.getD s.key
  deferred : ∀ d, s.deferred = some d → s.window ≠ .idle ∧ s.key < d ∧ outstanding d

section Remembers
variable {P Q : Int64 → Prop} {s : ScopeState}

lemma Remembers.congr (h : Remembers P s) (hiff : ∀ key, Q key ↔ P key) : Remembers Q s := by
  obtain rfl : Q = P := funext fun key => propext (hiff key)
  exact h

lemma remembers_none (hnone : ∀ key, ¬ Q key) (hdeferred : s.deferred = none) : Remembers Q s where
  covers := fun key hkey => absurd hkey (hnone key)
  deferred := by simp [hdeferred]

lemma Remembers.deferred_of_idle (h : Remembers P s) (hidle : s.window = .idle) :
    s.deferred = none := by
  cases hd : s.deferred with
  | none => rfl
  | some d => exact absurd hidle (h.deferred d hd).1

lemma kept_key (deferred : Option Int64) (key : Int64) :
    key ≤ (deferred.map fun d => max d key).getD key ∧
    (∀ d, deferred = some d → d ≤ (deferred.map fun d => max d key).getD key) ∧
    ((deferred.map fun d => max d key).getD key = key ∨
      deferred = some ((deferred.map fun d => max d key).getD key)) := by
  cases deferred with
  | none => exact ⟨Int64.le_refl key, by simp, .inl rfl⟩
  | some d =>
    have hmax : max d key = if d ≤ key then key else d := rfl
    by_cases hle : d ≤ key
    · simp [hmax, hle]
    · simp [hmax, hle, Int64.le_of_lt (Int64.not_le.mp hle)]

lemma Remembers.notify (h : Remembers P s) (key : Int64)
    (hiff : ∀ k, Q k ↔ ¬ (s.window = .idle ∧ (s.notify key).1.window ≠ .idle) ∧ (key = k ∨ P k)) :
    Remembers Q (s.notify key).1 := by
  -- the cursor has come to the key already, or the key begins a round, or it is kept for later
  rcases s.notify_cases key with ⟨hle, hs⟩ | ⟨-, hidle, hs⟩ | ⟨hlt, hbusy, hs⟩
  · have hsame : ∀ k, Q k ↔ key = k ∨ P k := by
      simp [hiff, hs]
    rw [hs]
    refine ⟨fun k hk => ?_, fun d hd => ?_⟩
    · rcases (hsame k).mp hk with rfl | hk
      · cases hd : s.deferred with
        | none => exact hle
        | some d => exact Int64.le_of_lt (Int64.lt_of_le_of_lt hle (h.deferred d hd).2.1)
      · exact h.covers k hk
    · obtain ⟨hwindow, hkey, hd⟩ := h.deferred d hd
      exact ⟨hwindow, hkey, (hsame d).mpr (.inr hd)⟩
  · rw [hs] at hiff ⊢
    refine remembers_none ?_ (h.deferred_of_idle hidle)
    intro k hk
    exact ((hiff k).mp hk).1 ⟨hidle, Window.noConfusion⟩
  · obtain ⟨hnew, hold, hwhich⟩ := kept_key s.deferred key
    have hsame : ∀ k, Q k ↔ key = k ∨ P k := by
      simp [hiff, hbusy]
    rw [hs]
    refine ⟨fun k hk => ?_, fun d hd => ?_⟩
    · change k ≤ (s.deferred.map fun d => max d key).getD key
      rcases (hsame k).mp hk with rfl | hk
      · exact hnew
      · have hle := h.covers k hk
        cases hd : s.deferred with
        | none =>
          rw [hd] at hle
          exact Int64.le_of_lt (Int64.lt_of_le_of_lt hle hlt)
        | some d =>
          have hkept := hold d hd
          rw [hd] at hle hkept
          exact Int64.le_trans hle hkept
    · obtain rfl := Option.some.inj hd
      refine ⟨hbusy, Int64.lt_of_lt_of_le hlt hnew, (hsame _).mpr ?_⟩
      rcases hwhich with hkey | hold
      · exact .inl hkey.symm
      · exact .inr (h.deferred _ hold).2.2

lemma Remembers.opened (h : Remembers P s) (hiff : ∀ k, Q k ↔ s.window ≠ .idle ∧ P k) :
    Remembers Q s.opened := by
  by_cases hidle : s.window = .idle
  · exact remembers_none (fun k hk => ((hiff k).mp hk).1 hidle) (h.deferred_of_idle hidle)
  · refine ⟨fun k hk => h.covers k ((hiff k).mp hk).2, fun d hd => ?_⟩
    obtain ⟨-, hkey, hd⟩ := h.deferred d hd
    exact ⟨Window.noConfusion, hkey, (hiff d).mpr ⟨hidle, hd⟩⟩

lemma due_commit (s : ScopeState) (key : Int64) (persisted : Bool) :
    (s.commit key persisted).2.2 = true ↔
      ∃ d, s.deferred = some d ∧ (s.commit key persisted).1.key < d := by
  simp [ScopeState.commit, Option.any_eq_true]

lemma key_le_commit (s : ScopeState) (key : Int64) (persisted : Bool) :
    s.key ≤ (s.commit key persisted).1.key := by
  rw [ScopeState.key_commit]
  by_cases hmoves : persisted = true ∧ s.key < key
  · rw [if_pos hmoves]
    exact Int64.le_of_lt hmoves.2
  · rw [if_neg hmoves]
    exact Int64.le_refl s.key

/-- A request is due at the end of a window just when the cursor has not come to a key that is
outstanding. -/
lemma Remembers.due (h : Remembers P s) (key : Int64) (persisted : Bool) :
    (s.closed.commit key persisted).2.2 = true ↔
      ∃ k, P k ∧ (s.closed.commit key persisted).1.key < k := by
  have hmono := key_le_commit s.closed key persisted
  rw [due_commit]
  constructor
  · rintro ⟨d, hd, hlt⟩
    exact ⟨d, (h.deferred d hd).2.2, hlt⟩
  · rintro ⟨k, hk, hlt⟩
    have hle := h.covers k hk
    cases hd : s.deferred with
    | none =>
      rw [hd] at hle
      have hback := Int64.lt_of_lt_of_le hlt (Int64.le_trans hle hmono)
      exact absurd hback Int64.lt_irrefl
    | some d =>
      rw [hd] at hle
      exact ⟨d, hd, Int64.lt_of_lt_of_le hlt hle⟩

lemma Remembers.ended (h : Remembers P s) (key : Int64) (persisted : Bool)
    (hiff : ∀ k, Q k ↔ (s.closed.commit key persisted).1.window = .idle ∧ P k) :
    Remembers Q (s.closed.commit key persisted).1 := by
  refine ⟨fun k hk => ?_, fun d hd => by cases hd⟩
  obtain ⟨hidle, hk⟩ := (hiff k).mp hk
  apply Int64.not_lt.mp
  intro hlt
  rw [ScopeState.window_commit, if_pos ((h.due key persisted).mpr ⟨k, hk, hlt⟩)] at hidle
  cases hidle

end Remembers

/-! ## Runs -/

lemma entry_after (e : Engine) (op : Op) (scope : Scope) :
    (e.after op).entry scope = entered (op.turn scope (e.get? scope)) := by
  rw [entry_eq, get?_after]

lemma not_renews_of_turn {e : Engine} {op : Op} {scope : Scope} (hready : op ≠ .ready)
    (hreset : op ≠ .reset) (hturn : op.turn scope (e.get? scope) = e.get? scope) :
    ¬ e.Renews op scope := by
  rintro (hop | hop | ⟨hidle, hbusy⟩)
  · exact hready hop
  · exact hreset hop
  · rw [entry_after, hturn] at hbusy
    exact hbusy hidle

/-- What a scope remembers is what is outstanding after all operations so far. -/
def Kept (e : Engine) (ops : List Op) (scope : Scope) : Prop :=
  Remembers (Outstanding e ops scope) ((e.run ops).entry scope)

section Kept
variable {e : Engine} {ops : List Op} {op : Op} {scope : Scope}

lemma kept_concat : Kept e (ops ++ [op]) scope ↔
    Remembers (fun key => ¬ (e.run ops).Renews op scope ∧
        (op = .notify scope key ∨ Outstanding e ops scope key))
      (entered (op.turn scope ((e.run ops).get? scope))) := by
  have hout : Outstanding e (ops ++ [op]) scope = fun key => ¬ (e.run ops).Renews op scope ∧
      (op = .notify scope key ∨ Outstanding e ops scope key) :=
    funext fun key => propext outstanding_concat
  rw [Kept, hout, run_append, ← entry_after]
  rfl

lemma Kept.same (h : Kept e ops scope) (hready : op ≠ .ready) (hreset : op ≠ .reset)
    (hnotify : ∀ key, op ≠ .notify scope key)
    (hturn : op.turn scope ((e.run ops).get? scope) = (e.run ops).get? scope) :
    Kept e (ops ++ [op]) scope := by
  rw [kept_concat, hturn]
  refine h.congr fun key => ?_
  simp [not_renews_of_turn hready hreset hturn, hnotify key]

lemma Kept.other {other : Scope} (h : Kept e ops scope) (hop : op.scope? = some other)
    (hne : scope ≠ other) : Kept e (ops ++ [op]) scope := by
  refine h.same ?_ ?_ ?_ (turn_of_scope?_ne hop hne _).1
  · rintro rfl
    cases hop
  · rintro rfl
    cases hop
  · rintro key rfl
    exact hne (Option.some.inj hop)

lemma kept_of_all (hop : op = .ready ∨ op = .reset) : Kept e (ops ++ [op]) scope := by
  rw [kept_concat]
  refine remembers_none (fun key hkey => hkey.1 ?_) ?_
  · exact hop.imp_right .inl
  · rcases hop with rfl | rfl <;> cases (e.run ops).get? scope <;> rfl

lemma Kept.track (h : Kept e ops scope) (g : Int64) : Kept e (ops ++ [.track g]) scope := by
  by_cases hnew : scope = .group g ∧ (e.run ops).get? scope = none
  · have hturn : Op.turn scope ((e.run ops).get? scope) (.track g) =
        some { key := 0, window := .requested } := by
      rw [hnew.2]
      exact if_pos hnew.1
    rw [kept_concat, hturn]
    refine remembers_none (fun key hkey => hkey.1 (.inr (.inr ?_))) rfl
    rw [entry_after, hturn, entry_eq, hnew.2]
    exact ⟨rfl, Window.noConfusion⟩
  · by_cases hscope : scope = .group g
    · refine h.same Op.noConfusion Op.noConfusion (fun key => Op.noConfusion) ?_
      obtain ⟨s, hs⟩ := Option.ne_none_iff_exists'.mp fun hnone => hnew ⟨hscope, hnone⟩
      rw [hs]
      exact if_pos hscope
    · exact h.other rfl hscope

lemma Kept.notice (h : Kept e ops scope) (other : Scope) (key : Int64) :
    Kept e (ops ++ [.notify other key]) scope := by
  by_cases hscope : other = scope
  · subst hscope
    have hturn : Op.turn other ((e.run ops).get? other) (.notify other key) =
        some (((e.run ops).entry other).notify key).1 := if_pos rfl
    rw [kept_concat, hturn]
    refine Remembers.notify h key fun k => ?_
    simp [Renews, entry_after, hturn, entered]
  · exact h.other rfl (Ne.symm hscope)

lemma Kept.begun (h : Kept e ops scope) (other : Scope) :
    Kept e (ops ++ [.opened other]) scope := by
  by_cases hscope : other = scope
  · subst hscope
    have hturn : Op.turn other ((e.run ops).get? other) (.opened other) =
        some ((e.run ops).entry other).opened := if_pos rfl
    rw [kept_concat, hturn]
    refine Remembers.opened h fun k => ?_
    simp [Renews, entry_after, hturn, entered, ScopeState.opened]
  · exact h.other rfl (Ne.symm hscope)

lemma Kept.ended (h : Kept e ops scope) (other : Scope) (key : Int64) (persisted : Bool) :
    Kept e (ops ++ [.closed other key, .commit other key persisted]) scope := by
  have hsplit : ops ++ [.closed other key, .commit other key persisted] =
      ops ++ [.closed other key] ++ [.commit other key persisted] := by simp
  rw [hsplit]
  by_cases hscope : other = scope
  · subst hscope
    have hclosed : Op.turn other ((e.run ops).get? other) (.closed other key) =
        some ((e.run ops).entry other).closed := if_pos rfl
    have hget : (e.run (ops ++ [.closed other key])).get? other =
        some ((e.run ops).entry other).closed := by
      rw [run_append, ← hclosed]
      exact get?_after _ _ _
    have hturn : Op.turn other (some ((e.run ops).entry other).closed)
        (.commit other key persisted) =
        some (((e.run ops).entry other).closed.commit key persisted).1 := if_pos rfl
    have hstill : ¬ (e.run ops).Renews (.closed other key) other := by
      simp [Renews, entry_after, hclosed, entered, ScopeState.closed]
    have hrenews : (e.run (ops ++ [.closed other key])).Renews (.commit other key persisted) other ↔
        (((e.run ops).entry other).closed.commit key persisted).1.window ≠ .idle := by
      rw [Renews, entry_after, hget, hturn, entry_eq (e.run (ops ++ _)), hget]
      simp [entered, ScopeState.closed]
    rw [kept_concat, hget, hturn]
    refine Remembers.ended h key persisted fun k => ?_
    simp [outstanding_concat, hstill, hrenews]
  · have hclosed : Kept e (ops ++ [.closed other key]) scope := h.other rfl (Ne.symm hscope)
    exact hclosed.other rfl (Ne.symm hscope)

lemma Kept.input (h : Kept e ops scope) (x : Input) : Kept e (ops ++ x.ops) scope := by
  cases x with
  | ready => exact kept_of_all (.inl rfl)
  | reset => exact kept_of_all (.inr rfl)
  | track g => exact h.track g
  | notify other key => exact h.notice other key
  | opened other => exact h.begun other
  | ended other key persisted => exact h.ended other key persisted

end Kept

lemma deferred_ofCursors (c : Cursors) (scope : Scope) :
    ((ofCursors c).entry scope).deferred = none := by
  cases scope with
  | direct => rfl
  | group g =>
    have hget : (ofCursors c).get? (.group g) = (c.groups.get? g).map fun key => { key } :=
      GroupMap.get?_map _ c.groups g
    rw [entry_eq, hget]
    cases c.groups.get? g <;> rfl

/-- What a scope remembers is what is outstanding, after any inputs to an engine that has been set
up from cursors. -/
theorem kept_run (c : Cursors) (xs : List Input) (scope : Scope) :
    Kept (ofCursors c) (opsOf xs) scope := by
  induction xs using List.reverseRecOn with
  | nil => exact remembers_none (not_outstanding_nil _ scope) (deferred_ofCursors c scope)
  | append_singleton xs x ih =>
    rw [opsOf_concat]
    exact ih.input x

/-- The end of a window as a whole: it is closed, and its key committed as stored or not. -/
def endWindow (e : Engine) (scope : Scope) (key : Int64) (persisted : Bool) :
    Engine × EndOutcome :=
  (e.handleEnd scope key).1.commitEnd scope key persisted

section EndWindow
variable (e : Engine) (scope : Scope) (key : Int64) (persisted : Bool)

lemma get?_endWindow : (e.endWindow scope key persisted).1.get? scope =
    some ((e.entry scope).closed.commit key persisted).1 := by
  have hclosed : (e.handleEnd scope key).1.get? scope = some (e.entry scope).closed := by
    rw [handleEnd, get?_put, if_pos rfl]
  rw [endWindow, commitEnd, get?_put, if_pos rfl, entry_eq, hclosed]
  rfl

lemma held_endWindow : (e.endWindow scope key persisted).1.held scope =
    ((e.entry scope).closed.commit key persisted).1.key := by
  rw [held, entry_eq, get?_endWindow]
  rfl

lemma followUp_endWindow : (e.endWindow scope key persisted).2.followUp =
    if ((e.entry scope).closed.commit key persisted).2.2 = true then
      some (.sync .request ⟨scope, (e.endWindow scope key persisted).1.held scope⟩)
    else none := by
  have hclosed : (e.handleEnd scope key).1.entry scope = (e.entry scope).closed := by
    rw [entry_eq, handleEnd, get?_put, if_pos rfl]
    rfl
  rw [held_endWindow, endWindow, commitEnd_followUp, hclosed]
  rfl

lemma isSome_followUp_endWindow : (e.endWindow scope key persisted).2.followUp.isSome ↔
    ((e.entry scope).closed.commit key persisted).2.2 = true := by
  rw [followUp_endWindow]
  simp

end EndWindow

/-- What an engine does with the keys that are outstanding in its scopes. -/
structure Defers (e : Engine) (outstanding : Scope → Int64 → Prop) : Prop where
  /-- The end of a window leads to a request just when the cursor has not come to a key that is
  outstanding. -/
  followUp : ∀ scope key persisted,
    (e.endWindow scope key persisted).2.followUp.isSome ↔
      ∃ k, outstanding scope k ∧ (e.endWindow scope key persisted).1.held scope < k
  request : ∀ scope key persisted m, (e.endWindow scope key persisted).2.followUp = some m →
    m = .sync .request ⟨scope, (e.endWindow scope key persisted).1.held scope⟩
  window : ∀ scope key persisted,
    (e.endWindow scope key persisted).1.window? scope =
      if (e.endWindow scope key persisted).2.followUp.isSome then some .requested else some .idle
  deferred : ∀ scope s d, e.get? scope = some s → s.deferred = some d →
    s.window ≠ .idle ∧ s.key < d

/-- After any inputs to an engine that was set up from cursors, no notice during a window is lost,
and none leads to a request that is not needed. -/
theorem defers_run (c : Cursors) (xs : List Input) :
    Defers ((ofCursors c).run (opsOf xs)) (Outstanding (ofCursors c) (opsOf xs)) := by
  refine ⟨fun scope key persisted => ?_, fun scope key persisted m hm => ?_,
    fun scope key persisted => ?_, ?_⟩
  · rw [isSome_followUp_endWindow, held_endWindow]
    exact (kept_run c xs scope).due key persisted
  · rw [followUp_endWindow] at hm
    split at hm
    · exact (Option.some.inj hm).symm
    · cases hm
  · rw [window?, get?_endWindow, Option.map_some, ScopeState.window_commit]
    by_cases hdue : ((((ofCursors c).run (opsOf xs)).entry scope).closed.commit key
        persisted).2.2 = true
    · rw [if_pos hdue, if_pos ((isSome_followUp_endWindow _ scope key persisted).mpr hdue)]
    · rw [if_neg hdue,
        if_neg fun h => hdue ((isSome_followUp_endWindow _ scope key persisted).mp h)]
      rfl
  · intro scope s d hs hd
    have hkept := (kept_run c xs scope).deferred d
    rw [entry_eq, hs] at hkept
    obtain ⟨hwindow, hkey, -⟩ := hkept hd
    exact ⟨hwindow, hkey⟩

end Engine

end Parley
