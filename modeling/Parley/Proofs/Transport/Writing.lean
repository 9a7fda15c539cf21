import Mathlib.Tactic.Lemma
import Parley.Transport.Handshake

/-!
# What goes out on a link

A write puts the front of what was to be written on the link, and what is left of it can be written
later. Nothing else that happens to a link puts anything on it.
-/

namespace Parley

lemma Outbound.count_of_ok (o : Outbound) {len : Nat} (h : (o.write len).1 = some (.ok ())) :
    (o.write len).2.1 = len := by
  unfold write at h ⊢
  split
  · rfl
  · split
    · rfl
    · rename_i hfree hslack
      rw [if_neg hfree, if_neg hslack] at h
      cases hfailure : o.failure <;> simp [stopped, hfailure] at h

lemma Outbound.fault_of_error (o : Outbound) {len : Nat} {e : Error}
    (h : (o.write len).1 = some (.error e)) : ∃ fault, e = .io fault := by
  unfold write at h
  split at h
  · cases h
  · split at h
    · cases h
    · obtain ⟨fault, -, hfault⟩ := Option.map_eq_some_iff.mp h
      cases hfault
      exact ⟨fault, rfl⟩

/-- What a write puts on a link is the front of what was to be written, all of it if it succeeds.
Only a fault of the stream makes it fail. -/
theorem Link.write_spec {l l' : Link} {bs left : Bytes} {answer : Poll Unit}
    (h : l.write bs = (answer, left, l')) :
    ∃ chunks : List Bytes, bs = chunks.flatten ++ left ∧ l'.written = l.written ++ chunks ∧
      l'.reader = l.reader ∧ (answer = some (.ok ()) → left = []) ∧
      ∀ e, answer = some (.error e) → ∃ fault, e = .io fault := by
  have hchunks : ∀ front : Bytes, ∃ chunks : List Bytes, chunks.flatten = front ∧
      (if front = [] then l.written else l.written ++ [front]) = l.written ++ chunks := by
    intro front
    by_cases hfront : front = []
    · exact ⟨[], by simp [hfront], by simp [hfront]⟩
    · exact ⟨[front], by simp, by simp [hfront]⟩
  simp only [write, Prod.mk.injEq] at h
  obtain ⟨rfl, rfl, rfl⟩ := h
  obtain ⟨chunks, hflatten, hwritten⟩ := hchunks (bs.take (l.outbound.write bs.length).2.1)
  refine ⟨chunks, ?_, hwritten, rfl, ?_, ?_⟩
  · rw [hflatten, List.take_append_drop]
  · intro hok
    rw [l.outbound.count_of_ok hok, List.drop_length]
  · intro e herror
    exact l.outbound.fault_of_error herror

@[simp] lemma Link.written_happen (l : Link) (e : LinkEvent) :
    (l.happen e).written = l.written := by
  cases e <;> rfl

lemma Link.nextRaw_written (l : Link) : l.nextRaw.2.written = l.written := rfl

/-- What a step of an introduction puts on its link. -/
inductive Handshake.Writes : Handshake → Bytes → Handshake → Prop
  | part (front left : Bytes) : Writes (.writing (front ++ left)) front (.writing left)
  | all (octets : Bytes) (deadline : Nat) : Writes (.writing octets) octets (.awaiting deadline)
  | broken (front left : Bytes) (e : Error) :
    Writes (.writing (front ++ left)) front (.done (.error e))
  | heard (deadline : Nat) (result : Except Error Unit) :
    Writes (.awaiting deadline) [] (.done result)

/-- The token frame is written, and then the reply is read. -/
theorem Handshake.writes_of_step? {timeout now : Nat} {g g' : Handshake} {link link' : Link}
    (h : g.step? timeout now link = some (g', link')) :
    ∃ chunks : List Bytes, link'.written = link.written ++ chunks ∧
      g.Writes chunks.flatten g' := by
  cases g with
  | writing octets =>
    rw [step?, write] at h
    split at h
    · rename_i left after hwrite
      obtain ⟨chunks, hoctets, hwritten, -⟩ := Link.write_spec hwrite
      split at h
      · simp only [Option.some.injEq, Prod.mk.injEq] at h
        obtain ⟨rfl, rfl⟩ := h
        rw [hoctets]
        exact ⟨chunks, hwritten, .part _ left⟩
      · cases h
    · rename_i e left after hwrite
      obtain ⟨chunks, hoctets, hwritten, -⟩ := Link.write_spec hwrite
      simp only [Option.some.injEq, Prod.mk.injEq] at h
      obtain ⟨rfl, rfl⟩ := h
      rw [hoctets]
      exact ⟨chunks, hwritten, .broken _ left e⟩
    · rename_i left after hwrite
      obtain ⟨chunks, hoctets, hwritten, -, hleft, -⟩ := Link.write_spec hwrite
      simp only [Option.some.injEq, Prod.mk.injEq] at h
      obtain ⟨rfl, rfl⟩ := h
      rw [hleft rfl, List.append_nil] at hoctets
      rw [hoctets]
      exact ⟨chunks, hwritten, .all _ _⟩
  | awaiting deadline =>
    have hreader : ∀ answer after, link.nextFrame = (answer, after) →
        after.written = link.written := by
      intro answer after hnext
      rw [Link.nextFrame] at hnext
      cases hnext
      rfl
    rw [step?, hear] at h
    split at h
    · rename_i reply after hnext
      simp only [Option.some.injEq, Prod.mk.injEq] at h
      obtain ⟨rfl, rfl⟩ := h
      exact ⟨[], by simp [hreader _ _ hnext], .heard deadline _⟩
    · rename_i e after hnext
      simp only [Option.some.injEq, Prod.mk.injEq] at h
      obtain ⟨rfl, rfl⟩ := h
      exact ⟨[], by simp [hreader _ _ hnext], .heard deadline _⟩
    · rename_i after hnext
      split at h
      · simp only [Option.some.injEq, Prod.mk.injEq] at h
        obtain ⟨rfl, rfl⟩ := h
        exact ⟨[], by simp, .heard deadline _⟩
      · cases h
  | done result => cases h

end Parley
