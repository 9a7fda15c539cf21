import Mathlib.Data.List.Induction
import Parley.Proofs.Wire.Framing
import Parley.Transport.FrameReader

/-!
# Frames do not depend on how octets arrive

A reader may get the octets of a stream in any pieces, and may be asked for frames at any time. A
`ReaderRun` is one such course. What it has taken is always the front of what `drain` takes out of
all the octets at once, and asking long enough takes all of it.
-/

namespace Parley

/-- What can be done with a reader while its stream is open. -/
inductive ReaderMove
  | arrive (bs : Bytes)
  /-- One read of the stream brings at most so many octets into the buffer. -/
  | take (n : Nat)
  | cut
  /-- The next frame is asked for. An answer that is not there yet is given up. -/
  | poll

namespace FrameReader

/-- One read of the stream, which brings at most so many octets into the buffer. -/
def take (r : FrameReader) (n : Nat) : FrameReader :=
  { r with
    inbound := { r.inbound with waiting := r.inbound.waiting.drop n }
    buffer := r.buffer ++ r.inbound.waiting.take n }

/-- What has arrived and was not handed out in frames. -/
def pending (r : FrameReader) : Bytes := r.buffer ++ r.inbound.waiting

def IsOpen (r : FrameReader) : Prop := r.inbound.ended = false ∧ r.inbound.failure = none

end FrameReader

/-- A reader and what it has answered so far. -/
structure ReaderRun where
  reader : FrameReader
  frames : List RawFrame := []
  refusal : Option Error := none

def frameOf : Poll RawFrame → List RawFrame
  | some (.ok raw) => [raw]
  | _ => []

def refusalOf : Poll RawFrame → Option Error
  | some (.error e) => some e
  | _ => none

namespace ReaderRun

def note (run : ReaderRun) (answer : Poll RawFrame × FrameReader) : ReaderRun where
  reader := answer.2
  frames := run.frames ++ frameOf answer.1
  refusal := run.refusal.or (refusalOf answer.1)

def step (run : ReaderRun) : ReaderMove → ReaderRun
  | .arrive bs => { run with reader := run.reader.arrive bs }
  | .take n => { run with reader := run.reader.take n }
  | .cut => run.note run.reader.cutNext
  | .poll => run.note run.reader.nextRaw

def ofMoves (maxBody : Nat) (moves : List ReaderMove) : ReaderRun :=
  moves.foldl step { reader := { maxBody } }

end ReaderRun

def arrived (moves : List ReaderMove) : Bytes :=
  moves.flatMap fun
    | .arrive bs => bs
    | _ => []

/-- What a reader answers to someone who sees octets, and what is left of them. -/
def answerTo (maxBody : Nat) (bs : Bytes) : Poll RawFrame × Bytes :=
  match cut maxBody bs with
  | .frame raw rest => (some (.ok raw), rest)
  | .tooLarge len max => (some (.error (.frameTooLarge len max)), bs)
  | .needMore => (none, bs)

section Reader
variable {maxBody : Nat}

lemma cut_frame_append {bs rest : Bytes} {raw : RawFrame}
    (hcut : cut maxBody bs = .frame raw rest) (more : Bytes) :
    cut maxBody (bs ++ more) = .frame raw (rest ++ more) := by
  obtain ⟨hfits, rfl⟩ := cut_eq_frame_iff.mp hcut
  exact cut_eq_frame_iff.mpr ⟨hfits, List.append_assoc _ _ _⟩

lemma cutNext_eq (r : FrameReader) :
    r.cutNext = ((answerTo r.maxBody r.buffer).1,
      { r with buffer := (answerTo r.maxBody r.buffer).2 }) := by
  match hcut : cut r.maxBody r.buffer with
  | .frame raw rest | .tooLarge len max | .needMore =>
    simp [FrameReader.cutNext, answerTo, hcut]

lemma answerTo_append {bs : Bytes} (more : Bytes) (h : (answerTo maxBody bs).1 ≠ none) :
    answerTo maxBody (bs ++ more) = ((answerTo maxBody bs).1, (answerTo maxBody bs).2 ++ more) := by
  match hcut : cut maxBody bs with
  | .frame raw rest => simp [answerTo, hcut, cut_frame_append hcut more]
  | .tooLarge len max => simp [answerTo, hcut, cut_tooLarge_append hcut more]
  | .needMore => simp [answerTo, hcut] at h

lemma drain_of_no_frame {bs : Bytes} (h : frameOf (answerTo maxBody bs).1 = []) :
    (answerTo maxBody bs).2 = bs ∧
      drain maxBody bs = ⟨[], refusalOf (answerTo maxBody bs).1, bs⟩ := by
  match hcut : cut maxBody bs with
  | .frame raw rest => simp [answerTo, hcut, frameOf] at h
  | .tooLarge len max => simp [answerTo, hcut, refusalOf, drain_of_tooLarge hcut]
  | .needMore => simp [answerTo, hcut, refusalOf, drain_of_needMore hcut]

lemma answerTo_of_none {bs : Bytes} (h : (answerTo maxBody bs).1 = none) :
    (answerTo maxBody bs).2 = bs :=
  (drain_of_no_frame (by rw [h]; rfl)).1

/-- Asking looks at all that has arrived, whichever part of it is in the buffer already. Where that
gives no answer, the stream has one or there is none. -/
lemma nextRaw_spec (r : FrameReader) :
    r.nextRaw.1 =
        (answerTo r.maxBody r.pending).1.or (r.inbound.stalled r.refill.endError) ∧
      r.nextRaw.2.pending = (answerTo r.maxBody r.pending).2 ∧ r.nextRaw.2.maxBody = r.maxBody ∧
      r.nextRaw.2.inbound.ended = r.inbound.ended ∧
      r.nextRaw.2.inbound.failure = r.inbound.failure := by
  cases hfirst : (answerTo r.maxBody r.buffer).1 with
  | some answer =>
    have happend := answerTo_append r.inbound.waiting (by rw [hfirst]; simp)
    simp [FrameReader.nextRaw, cutNext_eq, hfirst, FrameReader.pending, happend]
  | none =>
    have hbuffer := answerTo_of_none hfirst
    cases hall : (answerTo r.maxBody (r.buffer ++ r.inbound.waiting)).1 with
    | some answer =>
      simp [FrameReader.nextRaw, cutNext_eq, hfirst, hbuffer, FrameReader.refill, hall,
        FrameReader.pending]
    | none =>
      simp [FrameReader.nextRaw, cutNext_eq, hfirst, hbuffer, FrameReader.refill, hall,
        FrameReader.pending, answerTo_of_none hall, Inbound.stalled]

lemma nextRaw_eq (r : FrameReader) (hopen : r.IsOpen) :
    r.nextRaw.1 = (answerTo r.maxBody r.pending).1 ∧
      r.nextRaw.2.pending = (answerTo r.maxBody r.pending).2 ∧
      r.nextRaw.2.maxBody = r.maxBody ∧ r.nextRaw.2.IsOpen := by
  obtain ⟨hended, hfailure⟩ := hopen
  obtain ⟨hanswer, hrest, hbound, hended', hfailure'⟩ := nextRaw_spec r
  refine ⟨?_, hrest, hbound, hended'.trans hended, hfailure'.trans hfailure⟩
  rw [hanswer, Inbound.stalled, hfailure, hended]
  simp

end Reader

namespace ReaderRun

/-- What holds throughout a run: the frames taken fit, no octet is lost, and what was refused once
is refused for good. -/
structure Sound (maxBody : Nat) (fed : Bytes) (run : ReaderRun) : Prop where
  bound : run.reader.maxBody = maxBody
  isOpen : run.reader.IsOpen
  fits : ∀ raw ∈ run.frames, raw.Fits maxBody
  conserved : wireForm run.frames ++ run.reader.pending = fed
  refused : ∀ e, run.refusal = some e →
    answerTo maxBody run.reader.pending = (some (.error e), run.reader.pending)

section Run
variable {maxBody : Nat} {fed : Bytes} {run : ReaderRun}

lemma Sound.drain_fed (h : run.Sound maxBody fed) :
    drain maxBody fed = (drain maxBody run.reader.pending).behind run.frames := by
  rw [← h.conserved, drain_wireForm_append h.fits]

lemma Sound.note (h : run.Sound maxBody fed) {answer : Poll RawFrame × FrameReader}
    (hbound : answer.2.maxBody = maxBody) (hopen : answer.2.IsOpen)
    (hanswer : (answer.1, answer.2.pending) = answerTo maxBody run.reader.pending) :
    (run.note answer).Sound maxBody fed := by
  obtain ⟨-, -, hfits, hconserved, hrefused⟩ := h
  obtain ⟨answer, reader⟩ := answer
  simp only at hanswer
  match hcut : Parley.cut maxBody run.reader.pending with
  | .frame raw rest =>
    obtain ⟨hraw, hpending⟩ := cut_eq_frame_iff.mp hcut
    simp only [answerTo, hcut, Prod.mk.injEq] at hanswer hrefused
    obtain ⟨rfl, hrest⟩ := hanswer
    refine ⟨hbound, hopen, ?_, ?_, ?_⟩
    · intro r hr
      rcases List.mem_append.mp hr with hr | hr
      · exact hfits r hr
      · exact List.mem_singleton.mp hr ▸ hraw
    · rw [← hconserved, hpending]
      simp [ReaderRun.note, frameOf, hrest]
    · intro e he
      have hfirst : run.refusal = some e := by simpa [ReaderRun.note, refusalOf] using he
      have habsurd := (hrefused e hfirst).1
      simp at habsurd
  | .tooLarge len max =>
    simp only [answerTo, hcut, Prod.mk.injEq] at hanswer hrefused
    obtain ⟨rfl, hrest⟩ := hanswer
    refine ⟨hbound, hopen, by simpa [ReaderRun.note, frameOf] using hfits, ?_, ?_⟩
    · simpa [ReaderRun.note, frameOf, hrest] using hconserved
    · intro e he
      have hlarge : e = .frameTooLarge len max := by
        cases hfirst : run.refusal with
        | none => simpa [ReaderRun.note, refusalOf, hfirst, eq_comm] using he
        | some e' =>
          have he' : e' = e := by simpa [ReaderRun.note, refusalOf, hfirst] using he
          simpa [he', eq_comm] using (hrefused e' hfirst).1
      simp [ReaderRun.note, hrest, answerTo, hcut, hlarge]
  | .needMore =>
    simp only [answerTo, hcut, Prod.mk.injEq] at hanswer hrefused
    obtain ⟨rfl, hrest⟩ := hanswer
    refine ⟨hbound, hopen, by simpa [ReaderRun.note, frameOf] using hfits, ?_, ?_⟩
    · simpa [ReaderRun.note, frameOf, hrest] using hconserved
    · intro e he
      have hfirst : run.refusal = some e := by simpa [ReaderRun.note, refusalOf] using he
      have habsurd := (hrefused e hfirst).1
      simp at habsurd

theorem Sound.step (h : run.Sound maxBody fed) (m : ReaderMove) :
    (run.step m).Sound maxBody (fed ++ arrived [m]) := by
  cases m with
  | arrive bs =>
    refine ⟨h.bound, h.isOpen, h.fits, ?_, ?_⟩
    · rw [← h.conserved]
      simp [ReaderRun.step, FrameReader.arrive, Inbound.arrive, FrameReader.pending, arrived]
    · intro e he
      have hkept := h.refused e he
      have happend := answerTo_append bs (by rw [hkept]; simp)
      rw [hkept] at happend
      simpa [ReaderRun.step, FrameReader.arrive, Inbound.arrive, FrameReader.pending] using happend
  | take n =>
    have hpending : (run.reader.take n).pending = run.reader.pending := by
      simp [FrameReader.take, FrameReader.pending]
    refine ⟨h.bound, h.isOpen, h.fits, ?_, ?_⟩
    · simpa [ReaderRun.step, hpending, arrived] using h.conserved
    · simpa [ReaderRun.step, hpending] using h.refused
  | cut =>
    have hfed : fed ++ arrived [.cut] = fed := by simp [arrived]
    obtain rfl := h.bound
    rw [hfed, ReaderRun.step, cutNext_eq]
    cases hfirst : (answerTo run.reader.maxBody run.reader.buffer).1 with
    | some answer =>
      have happend := answerTo_append run.reader.inbound.waiting (by rw [hfirst]; simp)
      refine h.note rfl h.isOpen ?_
      rw [FrameReader.pending, FrameReader.pending, happend, hfirst]
    | none =>
      rw [answerTo_of_none hfirst]
      simpa [ReaderRun.note, frameOf, refusalOf] using h
  | poll =>
    have hfed : fed ++ arrived [.poll] = fed := by simp [arrived]
    obtain ⟨hanswer, hrest, hbound, hopen⟩ := nextRaw_eq run.reader h.isOpen
    rw [hfed, ReaderRun.step]
    refine h.note (hbound.trans h.bound) hopen ?_
    rw [hanswer, hrest, h.bound]

theorem Sound.steps (h : run.Sound maxBody fed) (moves : List ReaderMove) :
    (moves.foldl ReaderRun.step run).Sound maxBody (fed ++ arrived moves) := by
  induction moves using List.reverseRecOn with
  | nil => simpa [arrived] using h
  | append_singleton moves m ih => simpa [arrived] using ih.step m

theorem sound_ofMoves (maxBody : Nat) (moves : List ReaderMove) :
    (ofMoves maxBody moves).Sound maxBody (arrived moves) := by
  have hfresh : ReaderRun.Sound maxBody [] { reader := { maxBody } } :=
    ⟨rfl, ⟨rfl, rfl⟩, by simp, rfl, by simp⟩
  exact hfresh.steps moves

lemma ofMoves_append (maxBody : Nat) (moves more : List ReaderMove) :
    ofMoves maxBody (moves ++ more) = more.foldl ReaderRun.step (ofMoves maxBody moves) :=
  List.foldl_append

/-- The run has handed out all that octets hold. -/
def Complete (maxBody : Nat) (fed : Bytes) (run : ReaderRun) : Prop :=
  run.frames = (drain maxBody fed).frames ∧ run.refusal = (drain maxBody fed).refusal ∧
    run.reader.pending = (drain maxBody fed).rest

lemma Sound.refusal_or (h : run.Sound maxBody fed) :
    run.refusal.or (refusalOf (answerTo maxBody run.reader.pending).1) =
      refusalOf (answerTo maxBody run.reader.pending).1 := by
  cases hfirst : run.refusal with
  | none => rfl
  | some e => simp [h.refused e hfirst, refusalOf]

lemma Sound.poll_progress (h : run.Sound maxBody fed) :
    (run.step .poll).reader.pending.length < run.reader.pending.length ∨
      (run.step .poll).Complete maxBody fed := by
  obtain ⟨hanswer, hrest, -, -⟩ := nextRaw_eq run.reader h.isOpen
  rw [h.bound] at hanswer hrest
  rcases Decidable.em (frameOf (answerTo maxBody run.reader.pending).1 = []) with hnone | hframe
  · right
    obtain ⟨hkept, hdrain⟩ := drain_of_no_frame hnone
    rw [Complete, h.drain_fed, hdrain]
    refine ⟨?_, ?_, ?_⟩
    · simp [ReaderRun.step, ReaderRun.note, hanswer, hnone, Drained.behind]
    · rw [ReaderRun.step, ReaderRun.note, hanswer, h.refusal_or, Drained.behind]
    · rw [ReaderRun.step, ReaderRun.note, hrest, hkept, Drained.behind]
  · left
    cases hcut : Parley.cut maxBody run.reader.pending with
    | frame raw rest =>
      have hlt := length_lt_of_cut hcut
      simpa [ReaderRun.step, ReaderRun.note, hrest, answerTo, hcut] using hlt
    | tooLarge len max => simp [answerTo, hcut, frameOf] at hframe
    | needMore => simp [answerTo, hcut, frameOf] at hframe

lemma Sound.poll_of_complete (h : run.Sound maxBody fed) (hall : run.Complete maxBody fed) :
    (run.step .poll).Complete maxBody fed := by
  rcases h.poll_progress with hlt | hdone
  · exfalso
    have hsound : (run.step .poll).Sound maxBody fed := by simpa [arrived] using h.step .poll
    have hmore := hsound.drain_fed
    have hrest : (drain maxBody fed).rest.length ≤ (run.step .poll).reader.pending.length := by
      have hconserves := (drain_conserves maxBody (run.step .poll).reader.pending).2
      rw [hmore, Drained.behind]
      conv_rhs => rw [← hconserves]
      simp
    rw [← hall.2.2] at hrest
    omega
  · exact hdone

theorem Sound.polls_complete (h : run.Sound maxBody fed) (n : Nat)
    (hn : run.Complete maxBody fed ∨ run.reader.pending.length < n) :
    ((List.replicate n ReaderMove.poll).foldl ReaderRun.step run).Complete maxBody fed := by
  induction n generalizing run with
  | zero =>
    rcases hn with hall | hlt
    · exact hall
    · omega
  | succ n ih =>
    have hsound : (run.step .poll).Sound maxBody fed := by simpa [arrived] using h.step .poll
    rw [List.replicate_succ, List.foldl_cons]
    refine ih hsound ?_
    rcases hn with hall | hlt
    · exact .inl (h.poll_of_complete hall)
    · rcases h.poll_progress with hless | hall
      · right
        omega
      · exact .inl hall

end Run

/-- Readings of streams that may differ in what follows the octets. -/
structure Like (run run' : ReaderRun) : Prop where
  frames : run.frames = run'.frames
  bound : run.reader.maxBody = run'.reader.maxBody
  buffer : run.reader.buffer = run'.reader.buffer
  waiting : run.reader.inbound.waiting = run'.reader.inbound.waiting

lemma frameOf_stalled (i : Inbound) (atEnd : Error) : frameOf (i.stalled atEnd) = [] := by
  rw [Inbound.stalled]
  split
  · rfl
  · split <;> rfl

lemma Like.step {run run' : ReaderRun} (h : run.Like run') (m : ReaderMove) :
    (run.step m).Like (run'.step m) := by
  obtain ⟨⟨maxBody, inbound, buffer⟩, frames, refusal⟩ := run
  obtain ⟨⟨maxBody', inbound', buffer'⟩, frames', refusal'⟩ := run'
  obtain ⟨hframes, hbound, hbuffer, hwaiting⟩ := h
  simp only at hframes hbound hbuffer hwaiting
  subst hframes hbound hbuffer
  cases m with
  | arrive bs =>
    exact ⟨rfl, rfl, rfl, by simp [ReaderRun.step, FrameReader.arrive, Inbound.arrive, hwaiting]⟩
  | take n =>
    exact ⟨rfl, rfl, by simp [ReaderRun.step, FrameReader.take, hwaiting],
      by simp [ReaderRun.step, FrameReader.take, hwaiting]⟩
  | cut =>
    simp only [ReaderRun.step, cutNext_eq]
    exact ⟨rfl, rfl, rfl, hwaiting⟩
  | poll =>
    cases hfirst : (answerTo maxBody buffer).1 with
    | some answer =>
      constructor <;>
        simp [ReaderRun.step, ReaderRun.note, FrameReader.nextRaw, cutNext_eq, hfirst, hwaiting]
    | none =>
      have hkept := answerTo_of_none hfirst
      cases hall : (answerTo maxBody (buffer ++ inbound'.waiting)).1 with
      | some answer =>
        constructor <;>
          simp [ReaderRun.step, ReaderRun.note, FrameReader.nextRaw, cutNext_eq, hfirst, hkept,
            FrameReader.refill, hwaiting, hall]
      | none =>
        constructor <;>
          simp [ReaderRun.step, ReaderRun.note, FrameReader.nextRaw, cutNext_eq, hfirst, hkept,
            FrameReader.refill, hwaiting, hall, frameOf_stalled]

lemma Like.steps {run run' : ReaderRun} (h : run.Like run') (moves : List ReaderMove) :
    (moves.foldl ReaderRun.step run).Like (moves.foldl ReaderRun.step run') := by
  induction moves generalizing run run' with
  | nil => exact h
  | cons m moves ih => exact ih (h.step m)

end ReaderRun

/-- A reader from which the frames of given octets and of what arrives later can be read on: those
handed out are the first of them, and asking often enough hands out all. -/
def FrameReader.Yields (r : FrameReader) (bs : Bytes) : Prop :=
  ∀ moves n,
    let run := moves.foldl ReaderRun.step { reader := r }
    let whole := drain r.maxBody (bs ++ arrived moves)
    run.frames <+: whole.frames ∧
      ((bs ++ arrived moves).length < n →
        ((List.replicate n ReaderMove.poll).foldl ReaderRun.step run).frames = whole.frames)

/-- Whatever follows the octets that a reader has not handed out, their frames can be read on. -/
theorem FrameReader.yields_pending (r : FrameReader) : r.Yields r.pending := by
  intro moves n run whole
  let r' : FrameReader := { r with inbound := { waiting := r.inbound.waiting } }
  have hlike : ReaderRun.Like { reader := r } { reader := r' } := ⟨rfl, rfl, rfl, rfl⟩
  have hfresh : ReaderRun.Sound r.maxBody r.pending { reader := r' } :=
    ⟨rfl, ⟨rfl, rfl⟩, by simp, rfl, by simp⟩
  have hsound := hfresh.steps moves
  refine ⟨?_, fun hn => ?_⟩
  · rw [(hlike.steps moves).frames]
    have hwhole : whole = _ := hsound.drain_fed
    rw [hwhole]
    exact List.prefix_append _ _
  · have hlen : (moves.foldl ReaderRun.step { reader := r' }).reader.pending.length < n := by
      rw [← hsound.conserved, List.length_append] at hn
      omega
    rw [((hlike.steps moves).steps _).frames]
    exact (hsound.polls_complete n (.inr hlen)).1

/-- Framing does not depend on chunking. However the octets of a stream arrive, are read into the
buffer and are asked for, the frames handed out are the first of those that the same octets give
when they are drained at once; a refusal is the one that ends the draining, and comes behind all its
frames; and whoever has read all that arrived and then finds no frame, or asks often enough, has had
all of them. No octet is lost on the way, and a call that gives no frame leaves the octets as they
are. Frames that state the lengths of their bodies are thus cut back out of their wire forms. -/
theorem framing_independent_of_chunking (maxBody : Nat) (moves : List ReaderMove) :
    let run := ReaderRun.ofMoves maxBody moves
    let whole := drain maxBody (arrived moves)
    wireForm run.frames ++ run.reader.pending = arrived moves ∧
    run.frames <+: whole.frames ∧
    (∀ e, run.refusal = some e → run.frames = whole.frames ∧ whole.refusal = some e) ∧
    (run.reader.inbound.waiting = [] → frameOf run.reader.cutNext.1 = [] →
      run.frames = whole.frames ∧ run.reader.buffer = whole.rest ∧
        refusalOf run.reader.cutNext.1 = whole.refusal) ∧
    (∀ n, (arrived moves).length < n →
      let polled := ReaderRun.ofMoves maxBody (moves ++ List.replicate n .poll)
      polled.frames = whole.frames ∧ polled.refusal = whole.refusal ∧
        polled.reader.pending = whole.rest) ∧
    (frameOf run.reader.cutNext.1 = [] → run.reader.cutNext.2 = run.reader) ∧
    (frameOf run.reader.nextRaw.1 = [] → run.reader.nextRaw.2.pending = run.reader.pending) ∧
    (∀ raws, (∀ raw ∈ raws, raw.Fits maxBody) → arrived moves = wireForm raws →
      whole.frames = raws ∧ whole.refusal = none ∧ whole.rest = []) := by
  intro run whole
  have hsound : run.Sound maxBody (arrived moves) := ReaderRun.sound_ofMoves maxBody moves
  have hwhole : whole = (drain maxBody run.reader.pending).behind run.frames := hsound.drain_fed
  have hcutNext : frameOf run.reader.cutNext.1 = [] →
      run.reader.cutNext.2 = run.reader ∧
        drain maxBody run.reader.buffer =
          ⟨[], refusalOf run.reader.cutNext.1, run.reader.buffer⟩ := by
    rw [cutNext_eq, hsound.bound]
    intro hnone
    obtain ⟨hkept, hdrain⟩ := drain_of_no_frame hnone
    exact ⟨by rw [hkept, ← hsound.bound], hdrain⟩
  refine ⟨hsound.conserved, ?_, ?_, ?_, ?_, fun h => (hcutNext h).1, ?_, ?_⟩
  · rw [hwhole]
    exact List.prefix_append _ _
  · intro e he
    have hnone : frameOf (answerTo maxBody run.reader.pending).1 = [] := by
      rw [hsound.refused e he]
      rfl
    rw [hwhole, (drain_of_no_frame hnone).2, hsound.refused e he]
    exact ⟨(List.append_nil _).symm, rfl⟩
  · intro hread hnone
    have hpending : run.reader.pending = run.reader.buffer := by
      rw [FrameReader.pending, hread, List.append_nil]
    rw [hwhole, hpending, (hcutNext hnone).2]
    exact ⟨(List.append_nil _).symm, rfl, rfl⟩
  · intro n hn
    have hlen : run.reader.pending.length < n := by
      rw [← hsound.conserved, List.length_append] at hn
      omega
    have hpolled := hsound.polls_complete n (.inr hlen)
    rwa [← ReaderRun.ofMoves_append] at hpolled
  · intro hnone
    obtain ⟨hanswer, hrest, -, -⟩ := nextRaw_eq run.reader hsound.isOpen
    rw [hanswer] at hnone
    rw [hrest, (drain_of_no_frame hnone).1]
  · intro raws hfits harrived
    have hdrain : whole = ⟨raws, none, []⟩ := by
      rw [← drain_wireForm hfits, ← harrived]
    rw [hdrain]
    exact ⟨rfl, rfl, rfl⟩

end Parley
