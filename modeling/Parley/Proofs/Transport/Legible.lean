import Parley.Proofs.Transport.Chunking
import Parley.Transport.Link

/-!
# Frames that can be read

A frame is legible if its body can be read. Two streams show alike if the same legible frames stand
in them in the same order, whatever other frames stand between: a reader that has passed over the
illegible frames in front gets the same answer from both (`FrameReader.nextRaw_congr`).
-/

namespace Parley

def RawFrame.isLegible (raw : RawFrame) : Bool := raw.decode.isOk

lemma RawFrame.exists_error_of_isLegible {raw : RawFrame} (h : raw.isLegible = false) :
    ∃ e, raw.decode = .error e := by
  cases hdecode : raw.decode with
  | error e => exact ⟨e, rfl⟩
  | ok f =>
    rw [isLegible, hdecode] at h
    cases h

def Drained.legible (d : Drained) : List RawFrame := d.frames.filter (·.isLegible)

/-- In two streams the same legible frames stand in front, and the same refusal comes behind them.
Once nothing more follows, they also leave the same octets. -/
structure ShowAlike (maxBody : Nat) (ended : Bool) (bs bs' : Bytes) : Prop where
  legible : (drain maxBody bs).legible = (drain maxBody bs').legible
  refusal : (drain maxBody bs).refusal = (drain maxBody bs').refusal
  rest : ended = true → (drain maxBody bs).rest = (drain maxBody bs').rest

namespace ShowAlike
variable {maxBody : Nat} {ended : Bool} {bs bs' : Bytes} {raw : RawFrame}

lemma refl (maxBody : Nat) (ended : Bool) (bs : Bytes) : ShowAlike maxBody ended bs bs :=
  ⟨rfl, rfl, fun _ => rfl⟩

lemma symm (h : ShowAlike maxBody ended bs bs') : ShowAlike maxBody ended bs' bs :=
  ⟨h.legible.symm, h.refusal.symm, fun hended => (h.rest hended).symm⟩

/-- Only the legible ones count of frames in front. -/
theorem behind {raws raws' : List RawFrame} (hfits : ∀ raw ∈ raws, raw.Fits maxBody)
    (hfits' : ∀ raw ∈ raws', raw.Fits maxBody)
    (h : raws.filter (·.isLegible) = raws'.filter (·.isLegible)) :
    ShowAlike maxBody ended (wireForm raws ++ bs) (wireForm raws' ++ bs') ↔
      ShowAlike maxBody ended bs bs' := by
  have hdrain := drain_wireForm_append hfits bs
  have hdrain' := drain_wireForm_append hfits' bs'
  constructor
  · rintro ⟨hlegible, hrefusal, hrest⟩
    rw [hdrain, hdrain'] at hlegible hrefusal hrest
    simp only [Drained.legible, Drained.behind, List.filter_append, h,
      List.append_cancel_left_eq] at hlegible
    exact ⟨hlegible, hrefusal, hrest⟩
  · rintro ⟨hlegible, hrefusal, hrest⟩
    refine ⟨?_, ?_, ?_⟩
    · rw [hdrain, hdrain']
      simp only [Drained.legible, Drained.behind, List.filter_append, h,
        List.append_cancel_left_eq]
      exact hlegible
    · rw [hdrain, hdrain']
      exact hrefusal
    · rw [hdrain, hdrain']
      exact hrest

/-- Illegible frames may be put between any two frames. -/
theorem of_inserted {front bad : List RawFrame} (hfront : ∀ raw ∈ front, raw.Fits maxBody)
    (hbad : ∀ raw ∈ bad, raw.Fits maxBody ∧ raw.isLegible = false) (ended : Bool) (bs : Bytes) :
    ShowAlike maxBody ended (wireForm front ++ wireForm bad ++ bs) (wireForm front ++ bs) := by
  rw [← wireForm_append]
  refine (behind ?_ hfront ?_).mpr (refl maxBody ended bs)
  · intro raw hraw
    rcases List.mem_append.mp hraw with hraw | hraw
    · exact hfront raw hraw
    · exact (hbad raw hraw).1
  · have hnone : bad.filter (·.isLegible) = [] := by
      simpa using fun raw hraw => (hbad raw hraw).2
    rw [List.filter_append, hnone, List.append_nil]

/-- A frame of which octets are still to come makes no difference while they may come. -/
theorem of_unfinished {part more : Bytes} (hfits : raw.Fits maxBody)
    (hpart : raw.encode = part ++ more) (hmore : more ≠ []) : ShowAlike maxBody false part [] := by
  have hcut : cut maxBody (part ++ more) = .frame raw [] :=
    cut_eq_frame_iff.mpr ⟨hfits, by rw [List.append_nil, hpart]⟩
  have hnone : (answerTo maxBody part).1 = none := by
    by_contra h
    have hwhole := answerTo_append more h
    rw [answerTo, hcut, Prod.mk.injEq] at hwhole
    exact hmore (List.append_eq_nil_iff.mp hwhole.2.symm).2
  have hdrain := (drain_of_no_frame (by rw [hnone]; rfl)).2
  have hempty := drain_of_needMore (show cut maxBody [] = .needMore by rfl)
  exact ⟨by rw [hdrain, hempty]; rfl, by rw [hdrain, hempty, hnone]; rfl, fun h => by cases h⟩

lemma skip (hfits : raw.Fits maxBody) (hlegible : raw.isLegible = false) :
    ShowAlike maxBody ended (raw.encode ++ bs) bs' ↔ ShowAlike maxBody ended bs bs' := by
  have h : ShowAlike maxBody ended (wireForm [raw] ++ bs) (wireForm [] ++ bs') ↔
      ShowAlike maxBody ended bs bs' :=
    behind (by simpa using hfits) (by simp) (by simp [hlegible])
  simpa using h

lemma skip_right (hfits : raw.Fits maxBody) (hlegible : raw.isLegible = false) :
    ShowAlike maxBody ended bs (raw.encode ++ bs') ↔ ShowAlike maxBody ended bs bs' :=
  ⟨fun h => ((skip hfits hlegible).mp h.symm).symm,
    fun h => ((skip hfits hlegible).mpr h.symm).symm⟩

lemma cons (hfits : raw.Fits maxBody) :
    ShowAlike maxBody ended (raw.encode ++ bs) (raw.encode ++ bs') ↔
      ShowAlike maxBody ended bs bs' := by
  have h : ShowAlike maxBody ended (wireForm [raw] ++ bs) (wireForm [raw] ++ bs') ↔
      ShowAlike maxBody ended bs bs' :=
    behind (by simpa using hfits) (by simpa using hfits) rfl
  simpa using h

end ShowAlike

namespace FrameReader
variable {r r' : FrameReader}

lemma nextRaw_cases (r : FrameReader) :
    (∃ raw, r.nextRaw.1 = some (.ok raw) ∧ raw.Fits r.maxBody ∧
      r.pending = raw.encode ++ r.nextRaw.2.pending) ∨
    ((∀ raw, r.nextRaw.1 ≠ some (.ok raw)) ∧ r.nextRaw.2.pending = r.pending ∧
      (drain r.maxBody r.pending).frames = [] ∧
      (drain r.maxBody r.pending).rest = r.pending ∧
      r.nextRaw.1 = ((drain r.maxBody r.pending).refusal.map .error).or
        (r.inbound.stalled r.refill.endError)) := by
  obtain ⟨hanswer, hrest, -⟩ := nextRaw_spec r
  cases hcut : cut r.maxBody r.pending with
  | frame raw rest =>
    obtain ⟨hfits, hpending⟩ := cut_eq_frame_iff.mp hcut
    refine .inl ⟨raw, ?_, hfits, ?_⟩
    · rw [hanswer, answerTo, hcut]
      rfl
    · rw [hrest, answerTo, hcut]
      exact hpending
  | tooLarge len max =>
    have hdrain := drain_of_tooLarge hcut
    refine .inr ⟨?_, ?_, ?_, ?_, ?_⟩
    · rw [hanswer, answerTo, hcut]
      simp
    · rw [hrest, answerTo, hcut]
    · rw [hdrain]
    · rw [hdrain]
    · rw [hanswer, answerTo, hcut, hdrain]
      rfl
  | needMore =>
    have hdrain := drain_of_needMore hcut
    refine .inr ⟨?_, ?_, ?_, ?_, ?_⟩
    · intro raw hraw
      have hstalled := ReaderRun.frameOf_stalled r.inbound r.refill.endError
      rw [hanswer, answerTo, hcut, Option.none_or] at hraw
      rw [hraw] at hstalled
      cases hstalled
    · rw [hrest, answerTo, hcut]
    · rw [hdrain]
    · rw [hdrain]
    · rw [hanswer, answerTo, hcut, hdrain]
      rfl

def IsClear (r : FrameReader) : Prop := ∀ raw, r.nextRaw.1 = some (.ok raw) → raw.isLegible = true

lemma endError_refill (h : r.pending = r'.pending) : r.refill.endError = r'.refill.endError := by
  have hbuffer : r.refill.buffer = r'.refill.buffer := h
  simp only [endError, hbuffer]

/-- Readers that stand before no illegible frame answer alike. -/
theorem nextRaw_congr (hbound : r'.maxBody = r.maxBody)
    (hended : r'.inbound.ended = r.inbound.ended)
    (hfailure : r'.inbound.failure = r.inbound.failure)
    (h : ShowAlike r.maxBody r.inbound.ended r.pending r'.pending) (hclear : r.IsClear)
    (hclear' : r'.IsClear) : r'.nextRaw.1 = r.nextRaw.1 := by
  have hframe {r : FrameReader} {raw : RawFrame} (hfits : raw.Fits r.maxBody)
      (hpending : r.pending = raw.encode ++ r.nextRaw.2.pending) (hlegible : raw.isLegible = true) :
      ∃ raws, (drain r.maxBody r.pending).legible = raw :: raws := by
    have hcut := cut_eq_frame_iff.mpr ⟨hfits, hpending⟩
    refine ⟨(drain r.maxBody r.nextRaw.2.pending).legible, ?_⟩
    rw [drain_of_frame hcut, Drained.legible, Drained.behind, List.singleton_append,
      List.filter_cons_of_pos hlegible]
    rfl
  have hlegible := h.legible
  rw [← hbound] at hlegible
  rcases nextRaw_cases r with ⟨raw, hraw, hfits, hpending⟩ | ⟨hnone, -, hframes, hrest, hanswer⟩
  · obtain ⟨raws, hraws⟩ := hframe hfits hpending (hclear raw hraw)
    rw [hbound, hraws] at hlegible
    rcases nextRaw_cases r' with ⟨raw', hraw', hfits', hpending'⟩ | ⟨-, -, hframes', -, -⟩
    · obtain ⟨raws', hraws'⟩ := hframe hfits' hpending' (hclear' raw' hraw')
      rw [← hbound, hraws'] at hlegible
      obtain ⟨rfl, -⟩ := List.cons.inj hlegible
      rw [hraw, hraw']
    · rw [← hbound, Drained.legible, hframes'] at hlegible
      cases hlegible
  · rw [hbound, Drained.legible, hframes] at hlegible
    rcases nextRaw_cases r' with ⟨raw', hraw', hfits', hpending'⟩ | ⟨-, -, -, hrest', hanswer'⟩
    · obtain ⟨raws', hraws'⟩ := hframe hfits' hpending' (hclear' raw' hraw')
      rw [← hbound, hraws'] at hlegible
      cases hlegible
    · rw [hanswer, hanswer', hbound, h.refusal, Inbound.stalled, Inbound.stalled, hfailure, hended]
      cases hend : r.inbound.ended with
      | false => rfl
      | true =>
        have hpending : r.pending = r'.pending := by
          rw [← hrest, ← hrest', hbound]
          exact h.rest hend
        rw [endError_refill hpending]

end FrameReader

def FrameReader.isGarbled (r : FrameReader) : Bool :=
  match r.nextRaw.1 with
  | some (.ok raw) => !raw.isLegible
  | _ => false

lemma FrameReader.isGarbled_eq_true {r : FrameReader} (h : r.isGarbled = true) :
    ∃ raw, r.nextRaw.1 = some (.ok raw) ∧ raw.isLegible = false := by
  unfold isGarbled at h
  split at h
  · exact ⟨_, ‹_›, by simpa using h⟩
  · cases h

lemma FrameReader.isClear_of_isGarbled {r : FrameReader} (h : r.isGarbled = false) : r.IsClear := by
  intro raw hraw
  simpa [isGarbled, hraw] using h

lemma FrameReader.pending_of_isGarbled {r : FrameReader} (h : r.isGarbled = true) :
    ∃ raw : RawFrame, raw.Fits r.maxBody ∧ raw.isLegible = false ∧
      r.pending = raw.encode ++ r.nextRaw.2.pending := by
  obtain ⟨raw, hnext, hlegible⟩ := isGarbled_eq_true h
  rcases r.nextRaw_cases with ⟨raw', hraw', hfits, hpending⟩ | ⟨hnone, -⟩
  · obtain rfl : raw = raw' := by simpa [hnext] using hraw'
    exact ⟨raw, hfits, hlegible, hpending⟩
  · exact absurd hnext (hnone raw)

/-- Readers that differ in nothing but the octets that are still to be read. -/
structure FrameReader.Alike (r r' : FrameReader) : Prop where
  bound : r'.maxBody = r.maxBody
  ended : r'.inbound.ended = r.inbound.ended
  failure : r'.inbound.failure = r.inbound.failure

lemma FrameReader.Alike.trans {r r' r'' : FrameReader} (h : r.Alike r') (h' : r'.Alike r'') :
    r.Alike r'' :=
  ⟨h'.bound.trans h.bound, h'.ended.trans h.ended, h'.failure.trans h.failure⟩

lemma FrameReader.Alike.symm {r r' : FrameReader} (h : r.Alike r') : r'.Alike r :=
  ⟨h.bound.symm, h.ended.symm, h.failure.symm⟩

lemma FrameReader.alike_nextRaw (r : FrameReader) : r.Alike r.nextRaw.2 := by
  obtain ⟨-, -, hbound, hended, hfailure⟩ := nextRaw_spec r
  exact ⟨hbound, hended, hfailure⟩

/-- The reader with other octets that it has taken and not cut, and that it has still to take. -/
def FrameReader.holding (r : FrameReader) (buffer waiting : Bytes) : FrameReader :=
  { r with buffer, inbound := { r.inbound with waiting } }

def FrameReader.happen (r : FrameReader) : LinkEvent → FrameReader
  | .arrive bs => r.arrive bs
  | .ended => { r with inbound := { r.inbound with ended := true } }
  | .readFails fault => { r with inbound := { r.inbound with failure := some fault } }
  | _ => r

def LinkEvent.octets : LinkEvent → Bytes
  | .arrive bs => bs
  | _ => []

def LinkEvent.emptied : LinkEvent → LinkEvent
  | .arrive _ => .arrive []
  | e => e

def LinkEvent.ends : LinkEvent → Bool
  | .ended => true
  | _ => false

namespace FrameReader
variable {r r' : FrameReader} {e e' : LinkEvent}

lemma pending_happen (r : FrameReader) (e : LinkEvent) :
    (r.happen e).pending = r.pending ++ e.octets := by
  cases e <;> simp [happen, pending, LinkEvent.octets, arrive, Inbound.arrive]

lemma maxBody_happen (r : FrameReader) (e : LinkEvent) : (r.happen e).maxBody = r.maxBody := by
  cases e <;> rfl

lemma ended_happen (r : FrameReader) (e : LinkEvent) :
    (r.happen e).inbound.ended = (r.inbound.ended || e.ends) := by
  cases e <;> simp [happen, LinkEvent.ends, arrive, Inbound.arrive]

lemma Alike.happen (h : r.Alike r') (he : e.emptied = e'.emptied) :
    (r.happen e).Alike (r'.happen e') := by
  refine ⟨?_, ?_, ?_⟩
  · rw [maxBody_happen, maxBody_happen, h.bound]
  · have hends : e'.ends = e.ends := by
      cases e <;> cases e' <;> first | rfl | cases he
    rw [ended_happen, ended_happen, h.ended, hends]
  · have hfailure := h.failure
    cases e <;> cases e' <;> cases he <;> first | exact hfailure | rfl

end FrameReader

end Parley
