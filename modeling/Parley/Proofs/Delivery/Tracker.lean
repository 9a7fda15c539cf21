import Mathlib.Data.List.Basic
import Parley.Delivery.Tracker

/-!
# Who waits under which number

What each operation of a tracker leaves under every number.
-/

namespace Parley.Tracker
variable {ι : Type} (t : Tracker ι)

lemma lookup_cons_ite (seq seq' : Int32) (w : ι) (entries : List (Int32 × ι)) :
    ((seq, w) :: entries).lookup seq' = if seq' = seq then some w else entries.lookup seq' := by
  by_cases hseq : seq' = seq
  · rw [hseq, if_pos rfl, List.lookup_cons_self]
  · rw [if_neg hseq, List.lookup_cons, beq_false_of_ne hseq]

lemma lookup_filter_ne (entries : List (Int32 × ι)) (seq seq' : Int32) :
    (entries.filter (·.1 ≠ seq)).lookup seq' =
      if seq' = seq then none else entries.lookup seq' := by
  induction entries with
  | nil => simp
  | cons entry entries ih =>
    obtain ⟨key, w⟩ := entry
    rw [lookup_cons_ite]
    by_cases hkey : key = seq
    · rw [List.filter_cons_of_neg (by simpa using hkey), ih, hkey]
      split <;> rfl
    · rw [List.filter_cons_of_pos (by simpa using hkey), lookup_cons_ite, ih]
      by_cases hseq : seq' = key
      · rw [if_pos hseq, if_pos hseq, if_neg (hseq ▸ hkey)]
      · rw [if_neg hseq, if_neg hseq]

@[simp] lemma waiter?_erase (seq seq' : Int32) :
    (t.erase seq).waiter? seq' = if seq' = seq then none else t.waiter? seq' :=
  lookup_filter_ne t.entries seq seq'

@[simp] lemma waiter?_register (seq seq' : Int32) (w : ι) :
    (t.register seq w).1.waiter? seq' = if seq' = seq then some w else t.waiter? seq' := by
  have hcons := lookup_cons_ite seq seq' w (t.erase seq).entries
  have herase := t.waiter?_erase seq seq'
  unfold waiter? at herase
  rw [herase] at hcons
  refine hcons.trans ?_
  split <;> rfl

/-- Whoever waits in a tracker waits in the other one, and under the same number. -/
def Within (t t' : Tracker ι) : Prop :=
  ∀ seq w, t.waiter? seq = some w → t'.waiter? seq = some w

lemma Within.refl : t.Within t := fun _ _ h => h

lemma within_erase (seq : Int32) : (t.erase seq).Within t := by
  intro seq' w h
  rw [waiter?_erase] at h
  split at h
  · cases h
  · exact h

lemma empty_within : (empty : Tracker ι).Within t := fun _ _ h => nomatch h

end Parley.Tracker
