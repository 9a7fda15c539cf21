import Parley.Proofs.Sync.Requesting

/-!
# Open windows of the engine

Which windows an operation of the engine opens and closes. The server opens a window and closes it;
a connection that is ready, or gone, has none open; no other operation opens or closes one.
-/

namespace Parley

lemma GroupMap.get?_of_mem {α : Type} {m : GroupMap α} {entry : Int64 × α}
    (h : entry ∈ m.entries) : m.get? entry.1 = some entry.2 := by
  have hfound : (m.entries.find? (·.1 = entry.1)).isSome = true :=
    List.find?_isSome.mpr ⟨_, h, by simp⟩
  obtain ⟨x, hx⟩ := Option.isSome_iff_exists.mp hfound
  have hkey : x.1 = entry.1 := by simpa using List.find?_some hx
  obtain rfl : x = entry := List.inj_on_of_nodup_map (Engine.nodup_groups m)
    (List.mem_of_find?_eq_some hx) h hkey
  rw [get?, hx]
  rfl

lemma GroupMap.mem_values {α : Type} {m : GroupMap α} {a : α} :
    a ∈ m.values ↔ ∃ g, m.get? g = some a := by
  constructor
  · intro ha
    obtain ⟨entry, hentry, rfl⟩ := List.mem_map.mp ha
    exact ⟨entry.1, get?_of_mem hentry⟩
  · rintro ⟨g, hg⟩
    obtain ⟨x, hx, rfl⟩ := Option.map_eq_some_iff.mp hg
    exact List.mem_map_of_mem (List.mem_of_find?_eq_some hx)

namespace Engine
variable {e : Engine} {scope other : Scope}

def IsOpen (e : Engine) (scope : Scope) : Prop := e.window? scope = some .inProgress

lemma isOpen_after (op : Op) : (e.after op).IsOpen scope ↔
    (op.turn scope (e.get? scope)).map (·.window) = some .inProgress := by
  rw [IsOpen, window?, get?_after]

lemma not_isOpen_of_ready : ¬ (e.after .ready).IsOpen scope := by
  rw [isOpen_after]
  cases h : e.get? scope <;> simp [Op.turn, ScopeState.request]

lemma isOpen_track (g : Int64) : (e.after (.track g)).IsOpen scope ↔ e.IsOpen scope := by
  rw [isOpen_after, IsOpen, window?]
  cases h : e.get? scope with
  | none => by_cases hscope : scope = .group g <;> simp [Op.turn, hscope]
  | some s => by_cases hscope : scope = .group g <;> simp [Op.turn, hscope]

lemma isOpen_notify (key : Int64) :
    (e.after (.notify other key)).IsOpen scope ↔ e.IsOpen scope := by
  rw [isOpen_after, IsOpen, window?]
  by_cases hscope : scope = other
  · have hwindow (s : ScopeState) :
        (s.notify key).1.window = .inProgress ↔ s.window = .inProgress := by
      unfold ScopeState.notify
      split
      · rfl
      · split
        · rename_i hidle
          simp [ScopeState.request, hidle]
        · rfl
    cases h : e.get? scope <;> simp [Op.turn, hscope, entered, hwindow]
  · simp [Op.turn, hscope]

lemma isOpen_opened :
    (e.after (.opened other)).IsOpen scope ↔ scope = other ∨ e.IsOpen scope := by
  rw [isOpen_after, IsOpen, window?]
  by_cases hscope : scope = other <;> simp [Op.turn, hscope, ScopeState.opened]

lemma isOpen_closed (key : Int64) :
    (e.after (.closed other key)).IsOpen scope ↔ scope ≠ other ∧ e.IsOpen scope := by
  rw [isOpen_after, IsOpen, window?]
  by_cases hscope : scope = other <;> simp [Op.turn, hscope, ScopeState.closed]

lemma isOpen_commit (h : ¬ e.IsOpen other) (key : Int64) (persisted : Bool) :
    (e.after (.commit other key persisted)).IsOpen scope ↔ e.IsOpen scope := by
  by_cases hscope : scope = other
  · subst hscope
    refine iff_of_false ?_ h
    rw [isOpen_after]
    rw [IsOpen, window?] at h
    cases hs : e.get? scope with
    | none => simp [Op.turn, entered, ScopeState.commit]
    | some s =>
      rw [hs] at h
      have hwindow : s.window ≠ .inProgress := fun heq => h (congrArg some heq)
      rw [Op.turn, if_pos rfl, Option.map_some, entered, Option.getD_some,
        ScopeState.window_commit]
      split
      · simp
      · exact fun heq => hwindow (Option.some.inj heq)
  · rw [isOpen_after, IsOpen, window?]
    simp [Op.turn, hscope]

lemma inProgress_iff : e.inProgress = true ↔ ∃ scope, e.IsOpen scope := by
  have hstates (s : ScopeState) : s ∈ e.states ↔ ∃ scope, e.get? scope = some s := by
    rw [states, List.mem_cons, GroupMap.mem_values]
    constructor
    · rintro (rfl | ⟨g, hg⟩)
      · exact ⟨.direct, rfl⟩
      · exact ⟨.group g, hg⟩
    · rintro ⟨scope, hscope⟩
      cases scope with
      | direct => exact .inl (Option.some.inj hscope).symm
      | group g => exact .inr ⟨g, hscope⟩
  simp only [inProgress, List.any_eq_true, hstates, decide_eq_true_eq, IsOpen, window?,
    Option.map_eq_some_iff]
  constructor
  · rintro ⟨s, ⟨scope, hs⟩, hwindow⟩
    exact ⟨scope, s, hs, hwindow⟩
  · rintro ⟨scope, s, hs, hwindow⟩
    exact ⟨s, ⟨scope, hs⟩, hwindow⟩

end Engine
end Parley
