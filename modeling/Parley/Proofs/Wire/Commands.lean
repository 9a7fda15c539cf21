import Mathlib.Tactic
import Parley.Wire.Frame

/-!
# The command of a frame

A body that can be read is one of the command in its header. Main statement:
`RawFrame.command?_of_decode`.
-/

namespace Parley

namespace Reading
variable {α β : Type} {r : Reading α} {k : α → Reading β} {body rest : Bytes} {b : β}

lemma run_bind_eq_ok (h : (r >>= k).run body = .ok (b, rest)) :
    ∃ a left, r.run body = .ok (a, left) ∧ (k a).run left = .ok (b, rest) := by
  rw [StateT.run_bind] at h
  cases hr : r.run body with
  | error e =>
    rw [hr] at h
    cases h
  | ok x =>
    rw [hr] at h
    exact ⟨x.1, x.2, rfl, h⟩

lemma run_pure_eq_ok {a : β} (h : (pure a : Reading β).run body = .ok (b, rest)) : b = a :=
  (Prod.mk.inj (Except.ok.inj h)).1.symm

lemma run_map_eq_ok {f : α → β} (h : (do return f (← r) : Reading β).run body = .ok (b, rest)) :
    ∃ a, b = f a := by
  obtain ⟨a, left, -, hpure⟩ := run_bind_eq_ok h
  exact ⟨a, run_pure_eq_ok hpure⟩

end Reading

lemma SyncPoint.scope_of_read {grouped : Bool} {body rest : Bytes} {point : SyncPoint}
    (h : (SyncPoint.read grouped).run body = .ok (point, rest)) :
    point.scope.group?.isSome = grouped := by
  cases grouped with
  | true =>
    obtain ⟨-, left, -, h⟩ := Reading.run_bind_eq_ok h
    obtain ⟨id, left, -, h⟩ := Reading.run_bind_eq_ok h
    obtain ⟨key, rfl⟩ := Reading.run_map_eq_ok h
    rfl
  | false =>
    obtain ⟨-, left, -, h⟩ := Reading.run_bind_eq_ok h
    obtain ⟨key, rfl⟩ := Reading.run_map_eq_ok h
    rfl

lemma Message.command?_of_read {version : UInt8} {flags : Flags} {command : Command}
    {body rest : Bytes} {m : Message}
    (h : (Message.read version flags command).run body = .ok (m, rest)) :
    m.command? = some command := by
  cases command with
  | signal kind => rw [Reading.run_pure_eq_ok h]; rfl
  | authStatus =>
    obtain ⟨-, left, -, h⟩ := Reading.run_bind_eq_ok h
    obtain ⟨status, rfl⟩ := Reading.run_map_eq_ok h
    rfl
  | room passage =>
    obtain ⟨-, left, -, h⟩ := Reading.run_bind_eq_ok h
    obtain ⟨id, rfl⟩ := Reading.run_map_eq_ok h
    rfl
  | unreadCount =>
    obtain ⟨-, left, -, h⟩ := Reading.run_bind_eq_ok h
    obtain ⟨count, rfl⟩ := Reading.run_map_eq_ok h
    rfl
  | sync verb grouped =>
    obtain ⟨point, left, hpoint, h⟩ := Reading.run_bind_eq_ok h
    rw [Reading.run_pure_eq_ok h, Message.command?, SyncPoint.scope_of_read hpoint]
  | _ =>
    obtain ⟨a, rfl⟩ := Reading.run_map_eq_ok h
    rfl

theorem RawFrame.command?_of_decode {raw : RawFrame} {f : Frame} (h : raw.decode = .ok f) :
    f.message.command? = Command.ofCode? raw.header.cmd ∧ f.seq = raw.header.seq := by
  unfold RawFrame.decode at h
  cases hdecode : Message.decode raw.header.cmd raw.header.version raw.header.flags raw.body with
  | error e =>
    simp only [hdecode] at h
    cases h
  | ok m =>
    simp only [hdecode] at h
    obtain rfl := Except.ok.inj h
    refine ⟨?_, rfl⟩
    unfold Message.decode at hdecode
    split at hdecode
    · rename_i hcode
      obtain rfl := Except.ok.inj hdecode
      exact hcode.symm
    · rename_i command hcode
      rw [hcode]
      unfold Reading.runOn at hdecode
      split at hdecode
      · rename_i hrun
        obtain rfl := Except.ok.inj hdecode
        exact Message.command?_of_read hrun
      · cases hdecode
      · cases hdecode

end Parley
