import Parley.Proofs.Transport.Verdict

/-!
# What the end of a stream means

A reader is asked for frames while octets arrive on its stream, and when the stream has ended. The
octets and the end decide what the calls answer, one after another: the frames in front of the
octets, and then always the same refusal. Main statement: `FrameReader.answers_up_to_end`.
-/

namespace Parley

/-- How a stream ends. -/
inductive StreamEnd
  | regular
  | fault (f : IoFault)

/-- Why nothing more comes of octets in front of which no frame stands: they announce too long a
body, or else the stream has failed, or it has ended between two frames or within one. -/
inductive Closing (maxBody : Nat) (e : StreamEnd) : Bytes → Error → Prop
  | tooLarge (h : Header) (part : Bytes) (hmax : maxBody < h.bodyLen.toNat) :
    Closing maxBody e (h.encode ++ part) (.frameTooLarge h.bodyLen.toNat maxBody)
  | faulty (f : IoFault) (needed : Nat) (rest : Bytes) (he : e = .fault f)
    (hshort : ShortOf maxBody needed rest) : Closing maxBody e rest (.io f)
  | closed (he : e = .regular) : Closing maxBody e [] .connectionClosed
  | short (needed : Nat) (rest : Bytes) (he : e = .regular) (hne : rest ≠ [])
    (hshort : ShortOf maxBody needed rest) :
    Closing maxBody e rest (.shortRead needed rest.length)

/-- Octets are frames and a rest, of which nothing more comes. -/
structure Splits (maxBody : Nat) (e : StreamEnd) (bs : Bytes) (fs : List RawFrame) (rest : Bytes)
    (final : Error) : Prop where
  split : bs = wireForm fs ++ rest
  fits : ∀ raw ∈ fs, raw.Fits maxBody
  closing : Closing maxBody e rest final

section Octets
variable {maxBody : Nat} {e : StreamEnd} {bs rest : Bytes} {fs : List RawFrame} {final : Error}

lemma ShortOf.length_lt {needed : Nat} (h : ShortOf maxBody needed bs) : bs.length < needed := by
  cases h with
  | header _ hshort => exact hshort
  | body h part _ hshort =>
    rw [List.length_append, Header.length_encode]
    omega

lemma ShortOf.unique {needed needed' : Nat} (h : ShortOf maxBody needed bs)
    (h' : ShortOf maxBody needed' bs) : needed = needed' := by
  have hheader (h : Header) (part : Bytes) : ¬ (h.encode ++ part).length < Header.size := by
    rw [List.length_append, Header.length_encode]
    omega
  cases h with
  | header _ hshort =>
    cases h' with
    | header => rfl
    | body h part _ _ => exact absurd hshort (hheader h part)
  | body h part hmax hshort =>
    generalize hbs : h.encode ++ part = bs at h'
    cases h' with
    | header _ hshort' => exact absurd hshort' (hbs ▸ hheader h part)
    | body h' part' _ _ =>
      have hdecode := Header.decode_encode_append h part
      rw [hbs, Header.decode_encode_append] at hdecode
      cases hdecode
      rfl

lemma Closing.lt_needed {needed got : Nat}
    (h : Closing maxBody e rest (.shortRead needed got)) : got < needed := by
  cases h with
  | short _ _ _ _ hshort => exact hshort.length_lt

lemma Closing.closed_iff (h : Closing maxBody .regular rest final) :
    final = .connectionClosed ↔ rest = [] := by
  cases h with
  | tooLarge h part _ =>
    have hlen := h.length_encode
    simp only [reduceCtorEq, List.append_eq_nil_iff, false_iff, not_and]
    intro hnil
    rw [hnil] at hlen
    simp [Header.size] at hlen
  | faulty _ _ _ he _ => cases he
  | closed _ => simp
  | short _ _ _ hne _ => simpa using hne

lemma exists_closing {needed : Nat} (h : ShortOf maxBody needed bs) (e : StreamEnd) :
    ∃ final, Closing maxBody e bs final := by
  cases e with
  | fault f => exact ⟨_, .faulty f needed bs rfl h⟩
  | regular =>
    by_cases hnil : bs = []
    · subst hnil
      exact ⟨_, .closed rfl⟩
    · exact ⟨_, .short needed bs rfl hnil h⟩

theorem exists_splits (maxBody : Nat) (e : StreamEnd) (bs : Bytes) :
    ∃ fs rest final, Splits maxBody e bs fs rest final := by
  induction hlen : bs.length using Nat.strong_induction_on generalizing bs with
  | _ n ih =>
    rcases front_cases maxBody bs with
      ⟨raw, behind, hfits, rfl⟩ | ⟨h, part, hmax, rfl⟩ | ⟨needed, hshort⟩
    · have hlt : behind.length < n := by
        rw [← hlen, List.length_append, RawFrame.length_encode, Header.size]
        omega
      obtain ⟨fs, rest, final, hsplit, hall, hclosing⟩ := ih _ hlt behind rfl
      refine ⟨raw :: fs, rest, final, ?_, ?_, hclosing⟩
      · rw [hsplit, wireForm_cons, List.append_assoc]
      · simpa using ⟨hfits, hall⟩
    · exact ⟨[], _, _, rfl, by simp, .tooLarge h part hmax⟩
    · obtain ⟨final, hclosing⟩ := exists_closing hshort e
      exact ⟨[], bs, final, rfl, by simp, hclosing⟩

/-- What is answered for the time so many frames have been answered already. -/
def answerAt (fs : List RawFrame) (final : Error) (k : Nat) : Except Error RawFrame :=
  match fs[k]? with
  | some raw => .ok raw
  | none => .error final

lemma answerAt_succ (fs : List RawFrame) (final : Error) (k : Nat) :
    answerAt fs final (k + 1) = answerAt fs.tail final k := by
  simp [answerAt, List.getElem?_tail]

lemma Splits.tail (h : Splits maxBody e bs fs rest final) {bs' : Bytes}
    (hsplit : bs' = wireForm fs.tail ++ rest) : Splits maxBody e bs' fs.tail rest final :=
  ⟨hsplit, fun raw hraw => h.fits raw (List.mem_of_mem_tail hraw), h.closing⟩

/-- All octets at once give the first answer, unless they stop short of a frame. -/
lemma Splits.answerTo_cases (h : Splits maxBody e bs fs rest final) :
    answerTo maxBody bs = (some (answerAt fs final 0), wireForm fs.tail ++ rest) ∨
      fs = [] ∧ ∃ needed, ShortOf maxBody needed rest := by
  obtain ⟨rfl, hfits, hclosing⟩ := h
  cases fs with
  | cons raw fs =>
    have hcut : cut maxBody (wireForm (raw :: fs) ++ rest) = .frame raw (wireForm fs ++ rest) :=
      cut_eq_frame_iff.mpr ⟨hfits raw (by simp), by rw [wireForm_cons, List.append_assoc]⟩
    left
    rw [answerTo, hcut]
    rfl
  | nil =>
    cases hclosing with
    | tooLarge h part hmax =>
      left
      rw [wireForm_nil, List.nil_append, answerTo, cut_of_tooLarge part hmax]
      rfl
    | faulty f needed _ _ hshort => exact .inr ⟨rfl, needed, hshort⟩
    | closed _ => exact .inr ⟨rfl, _, .header [] (by simp [Header.size])⟩
    | short needed _ _ _ hshort => exact .inr ⟨rfl, needed, hshort⟩

end Octets

/-! ## Calls -/

namespace FrameReader

/-- What is done with a reader. -/
inductive Access
  | take (n : Nat)
  /-- The next frame is asked for, its body as octets. An answer that is not there yet is given
  up. -/
  | raw
  | frame

/-- What is done with a reader while its stream is open. -/
inductive Feed
  | arrive (bs : Bytes)
  | access (a : Access)

/-- What a call answers. -/
inductive Answer
  | raw (answer : Poll RawFrame)
  | frame (answer : Poll Frame)

namespace Answer

def isGiven : Answer → Bool
  | raw answer => answer.isSome
  | frame answer => answer.isSome

/-- The answer is this one; where a body was to be read, it has been read. -/
inductive Gives (result : Except Error RawFrame) : Answer → Prop
  | raw : Gives result (.raw (some result))
  | frame : Gives result (.frame (some (result.bind RawFrame.decode)))

lemma Gives.isGiven {result : Except Error RawFrame} {a : Answer} (h : a.Gives result) :
    a.isGiven = true := by
  cases h <;> rfl

end Answer

/-- The answers that are given are the frames, one after another, and then always the same error. -/
def Tells (fs : List RawFrame) (final : Error) (answers : List Answer) : Prop :=
  ∀ (k : Nat) (a : Answer), (answers.filter Answer.isGiven)[k]? = some a →
    a.Gives (answerAt fs final k)

section Tells
variable {fs : List RawFrame} {final : Error} {a : Answer} {answers : List Answer}

lemma Tells.nil (fs : List RawFrame) (final : Error) : Tells fs final [] := by
  simp [Tells]

lemma Tells.waiting (hwaits : a.isGiven = false) (h : Tells fs final answers) :
    Tells fs final (a :: answers) := by
  rw [Tells, List.filter_cons_of_neg (by simp [hwaits])]
  exact h

lemma Tells.given (hgives : a.Gives (answerAt fs final 0)) (h : Tells fs.tail final answers) :
    Tells fs final (a :: answers) := by
  rw [Tells, List.filter_cons_of_pos hgives.isGiven]
  intro k b hb
  cases k with
  | zero =>
    obtain rfl : a = b := by simpa using hb
    exact hgives
  | succ k =>
    rw [answerAt_succ]
    exact h k b (by simpa using hb)

end Tells

def endBy (r : FrameReader) : StreamEnd → FrameReader
  | .regular => { r with inbound := { r.inbound with ended := true } }
  | .fault f => { r with inbound := { r.inbound with failure := some f } }

/-- The answers of a reader to what is done with it. -/
def access (r : FrameReader) : Access → List Answer × FrameReader
  | .take n => ([], r.take n)
  | .raw => ([.raw r.nextRaw.1], r.nextRaw.2)
  | .frame => ([.frame r.nextFrame.1], r.nextFrame.2)

def accessAll (r : FrameReader) : List Access → List Answer
  | [] => []
  | a :: as => (r.access a).1 ++ (r.access a).2.accessAll as

def feed (r : FrameReader) : Feed → List Answer × FrameReader
  | .arrive bs => ([], r.arrive bs)
  | .access a => r.access a

def feedAll (r : FrameReader) : List Feed → List Answer × FrameReader
  | [] => ([], r)
  | m :: ms => ((r.feed m).1 ++ ((r.feed m).2.feedAll ms).1, ((r.feed m).2.feedAll ms).2)

def octets : List Feed → Bytes
  | [] => []
  | .arrive bs :: ms => bs ++ octets ms
  | .access _ :: ms => octets ms

def EndsBy (r : FrameReader) : StreamEnd → Prop
  | .regular => r.inbound.ended = true ∧ r.inbound.failure = none
  | .fault f => r.inbound.failure = some f

section Steps
variable {maxBody : Nat} {e : StreamEnd} {later rest : Bytes} {fs : List RawFrame} {final : Error}
variable {r : FrameReader}

lemma IsOpen.endsBy (h : r.IsOpen) (e : StreamEnd) : (r.endBy e).EndsBy e := by
  cases e with
  | regular => exact ⟨rfl, h.2⟩
  | fault f => rfl

lemma pending_take (r : FrameReader) (n : Nat) : (r.take n).pending = r.pending := by
  simp [take, pending]

lemma pending_arrive (r : FrameReader) (bs : Bytes) : (r.arrive bs).pending = r.pending ++ bs := by
  simp [arrive, Inbound.arrive, pending]

lemma pending_endBy (r : FrameReader) (e : StreamEnd) : (r.endBy e).pending = r.pending := by
  cases e <;> rfl

lemma maxBody_endBy (r : FrameReader) (e : StreamEnd) : (r.endBy e).maxBody = r.maxBody := by
  cases e <;> rfl

lemma EndsBy.nextRaw (h : r.EndsBy e) : r.nextRaw.2.EndsBy e := by
  obtain ⟨-, -, -, hended, hfailure⟩ := nextRaw_spec r
  cases e with
  | regular => exact ⟨hended.trans h.1, hfailure.trans h.2⟩
  | fault f => exact hfailure.trans h

lemma nextRaw_of_open (hopen : r.IsOpen) (hbound : r.maxBody = maxBody)
    (h : Splits maxBody e (r.pending ++ later) fs rest final) :
    (r.nextRaw.1 = none ∧ r.nextRaw.2.pending = r.pending) ∨
      (r.nextRaw.1 = some (answerAt fs final 0) ∧
        r.nextRaw.2.pending ++ later = wireForm fs.tail ++ rest) := by
  subst hbound
  obtain ⟨hanswer, hrest, -, -⟩ := nextRaw_eq r hopen
  cases hfirst : (answerTo r.maxBody r.pending).1 with
  | none => exact .inl ⟨hanswer.trans hfirst, hrest.trans (answerTo_of_none hfirst)⟩
  | some answer =>
    have happend := answerTo_append later (by rw [hfirst]; simp)
    rcases h.answerTo_cases with hfront | ⟨rfl, needed, hshort⟩
    · rw [happend, Prod.mk.injEq] at hfront
      right
      rw [hanswer, hrest]
      exact hfront
    · -- octets that stop short of a frame do not give an answer
      rw [h.split, wireForm_nil, List.nil_append, answerTo, hshort.cut_eq, hfirst] at happend
      cases happend

lemma nextRaw_of_closing {needed : Nat} (hend : r.EndsBy e) (hbound : r.maxBody = maxBody)
    (hshort : ShortOf maxBody needed r.pending) (h : Closing maxBody e r.pending final) :
    r.nextRaw.1 = some (.error final) ∧ r.nextRaw.2.pending = r.pending := by
  subst hbound
  obtain ⟨hanswer, hwhole⟩ := nextRaw_of_shortOf hshort
  refine ⟨?_, congrArg Inbound.waiting hwhole⟩
  have hfailure : r.whole.failure = r.inbound.failure := rfl
  have hended : r.whole.ended = r.inbound.ended := rfl
  rw [hanswer, Inbound.stalled, hfailure, hended]
  generalize r.pending = bs at hshort h
  cases h with
  | tooLarge h part hmax =>
    have hcut := cut_of_tooLarge part hmax
    rw [hshort.cut_eq] at hcut
    cases hcut
  | faulty f needed' _ he _ =>
    subst he
    rw [show r.inbound.failure = some f from hend]
  | closed he =>
    subst he
    rw [hend.2, hend.1, if_pos rfl, if_pos rfl]
  | short needed' _ he hne hshort' =>
    subst he
    rw [hend.2, hend.1, if_pos rfl, if_neg hne, hshort.unique hshort']

lemma nextRaw_of_ended (hend : r.EndsBy e) (hbound : r.maxBody = maxBody)
    (h : Splits maxBody e r.pending fs rest final) :
    r.nextRaw.1 = some (answerAt fs final 0) ∧
      r.nextRaw.2.pending = wireForm fs.tail ++ rest := by
  obtain ⟨hanswer, hrest, -⟩ := nextRaw_spec r
  rcases h.answerTo_cases with hfront | ⟨rfl, needed, hshort⟩
  · rw [hbound, hfront] at hanswer hrest
    exact ⟨hanswer, hrest⟩
  · have hpending : r.pending = rest := h.split
    rw [← hpending] at hshort
    have hclosing := h.closing
    rw [← hpending] at hclosing
    obtain ⟨hfinal, hkept⟩ := nextRaw_of_closing hend hbound hshort hclosing
    exact ⟨hfinal, hkept.trans hpending⟩

/-- A call answers what the reader does, or else it waits. -/
structure Hears (r : FrameReader) (a : Answer) : Prop where
  waits : r.nextRaw.1 = none → a.isGiven = false
  gives : ∀ result, r.nextRaw.1 = some result → a.Gives result

lemma hears_raw (r : FrameReader) : r.Hears (.raw r.nextRaw.1) := by
  constructor
  · intro h
    rw [h]
    rfl
  · intro result h
    rw [h]
    exact .raw

lemma hears_frame (r : FrameReader) : r.Hears (.frame r.nextFrame.1) := by
  constructor
  · intro h
    simp [nextFrame, h, Answer.isGiven]
  · intro result h
    have hframe : r.nextFrame.1 = some (result.bind RawFrame.decode) := by simp [nextFrame, h]
    rw [hframe]
    exact .frame

/-- The octets split behind what has been answered, and the frames in front have been answered. -/
structure Goes (maxBody : Nat) (e : StreamEnd) (later rest : Bytes) (final : Error)
    (fs : List RawFrame) (done : List Answer) (r : FrameReader) : Prop where
  bound : r.maxBody = maxBody
  told : ∃ fs', Splits maxBody e (r.pending ++ later) fs' rest final ∧
    ∀ answers, Tells fs' final answers → Tells fs final (done ++ answers)

lemma Goes.of_pending {r' : FrameReader} (h : Splits maxBody e (r.pending ++ later) fs rest final)
    (hbound : r'.maxBody = maxBody) (hpending : r'.pending = r.pending) :
    Goes maxBody e later rest final fs [] r' :=
  ⟨hbound, fs, hpending ▸ h, fun _ hanswers => hanswers⟩

lemma goes_of_open (hopen : r.IsOpen) (hbound : r.maxBody = maxBody)
    (h : Splits maxBody e (r.pending ++ later) fs rest final) {a : Answer} (ha : r.Hears a) :
    Goes maxBody e later rest final fs [a] r.nextRaw.2 := by
  have hbound' : r.nextRaw.2.maxBody = maxBody := (nextRaw_spec r).2.2.1.trans hbound
  rcases nextRaw_of_open hopen hbound h with ⟨hnone, hpending⟩ | ⟨hanswer, hpending⟩
  · refine ⟨hbound', fs, hpending ▸ h, fun answers hanswers => ?_⟩
    exact hanswers.waiting (ha.waits hnone)
  · refine ⟨hbound', fs.tail, h.tail hpending, fun answers hanswers => ?_⟩
    exact hanswers.given (ha.gives _ hanswer)

lemma goes_of_ended (hend : r.EndsBy e) (hbound : r.maxBody = maxBody)
    (h : Splits maxBody e (r.pending ++ []) fs rest final) {a : Answer} (ha : r.Hears a) :
    a.isGiven = true ∧ Goes maxBody e [] rest final fs [a] r.nextRaw.2 := by
  have hbound' : r.nextRaw.2.maxBody = maxBody := (nextRaw_spec r).2.2.1.trans hbound
  obtain ⟨hanswer, hpending⟩ := nextRaw_of_ended hend hbound (List.append_nil r.pending ▸ h)
  have hgives := ha.gives _ hanswer
  refine ⟨hgives.isGiven, hbound', fs.tail, h.tail ?_,
    fun answers hanswers => hanswers.given hgives⟩
  rw [List.append_nil, hpending]

lemma access_of_open (hopen : r.IsOpen) (hbound : r.maxBody = maxBody)
    (h : Splits maxBody e (r.pending ++ later) fs rest final) (a : Access) :
    (r.access a).2.IsOpen ∧ Goes maxBody e later rest final fs (r.access a).1 (r.access a).2 := by
  have hopen' := (nextRaw_eq r hopen).2.2.2
  cases a with
  | take n => exact ⟨hopen, .of_pending h hbound (r.pending_take n)⟩
  | raw => exact ⟨hopen', goes_of_open hopen hbound h r.hears_raw⟩
  | frame => exact ⟨hopen', goes_of_open hopen hbound h r.hears_frame⟩

lemma access_of_ended (hend : r.EndsBy e) (hbound : r.maxBody = maxBody)
    (h : Splits maxBody e (r.pending ++ []) fs rest final) (a : Access) :
    (∀ b ∈ (r.access a).1, b.isGiven = true) ∧ (r.access a).2.EndsBy e ∧
      Goes maxBody e [] rest final fs (r.access a).1 (r.access a).2 := by
  cases a with
  | take n =>
    refine ⟨by simp [access], ?_, .of_pending h hbound (r.pending_take n)⟩
    cases e <;> exact hend
  | raw =>
    obtain ⟨hgiven, hgoes⟩ := goes_of_ended hend hbound h r.hears_raw
    exact ⟨by simpa [access] using hgiven, hend.nextRaw, hgoes⟩
  | frame =>
    obtain ⟨hgiven, hgoes⟩ := goes_of_ended hend hbound h r.hears_frame
    exact ⟨by simpa [access] using hgiven, hend.nextRaw, hgoes⟩

theorem tells_accessAll (accesses : List Access) (hend : r.EndsBy e) (hbound : r.maxBody = maxBody)
    (h : Splits maxBody e (r.pending ++ []) fs rest final) :
    Tells fs final (r.accessAll accesses) ∧ ∀ a ∈ r.accessAll accesses, a.isGiven = true := by
  induction accesses generalizing r fs with
  | nil => exact ⟨Tells.nil fs final, by simp [accessAll]⟩
  | cons a accesses ih =>
    obtain ⟨hgiven, hend', hbound', fs', h', htold⟩ := access_of_ended hend hbound h a
    obtain ⟨htells, hall⟩ := ih hend' hbound' h'
    refine ⟨htold _ htells, ?_⟩
    intro b hb
    rcases List.mem_append.mp hb with hb | hb
    · exact hgiven b hb
    · exact hall b hb

/-- While the stream is open calls are answered in their turn or wait, and those behind the end take
their turns behind them. -/
theorem tells_feedAll (feeds : List Feed) (accesses : List Access) (hopen : r.IsOpen)
    (hbound : r.maxBody = maxBody)
    (h : Splits maxBody e (r.pending ++ octets feeds) fs rest final) :
    Tells fs final ((r.feedAll feeds).1 ++ ((r.feedAll feeds).2.endBy e).accessAll accesses) ∧
      ∀ a ∈ ((r.feedAll feeds).2.endBy e).accessAll accesses, a.isGiven = true := by
  induction feeds generalizing r fs with
  | nil =>
    rw [octets, ← r.pending_endBy e] at h
    exact tells_accessAll accesses (hopen.endsBy e) ((r.maxBody_endBy e).trans hbound) h
  | cons m feeds ih =>
    cases m with
    | arrive bs =>
      rw [octets, ← List.append_assoc, ← r.pending_arrive] at h
      exact ih (r := r.arrive bs) hopen hbound h
    | access a =>
      obtain ⟨hopen', hbound', fs', h', htold⟩ := access_of_open hopen hbound h a
      obtain ⟨htells, hall⟩ := ih hopen' hbound' h'
      rw [feedAll, List.append_assoc]
      exact ⟨htold _ htells, hall⟩

end Steps

/-- However octets arrive and are asked for, they are frames and a rest, of which nothing more
comes, and those calls that are answered give the frames in order and then always the same error:
that of a header in front of the rest that announces too long a body, or else the fault of the
stream, or else what its end means in this place. A call for a frame whose body is refused has taken
just that frame. When the stream has ended no call has to wait. The end is regular where the frames
are all that has arrived; where it is not, there is less than is needed. -/
theorem answers_up_to_end (maxBody : Nat) (feeds : List Feed) (e : StreamEnd)
    (accesses : List Access) :
    let before := FrameReader.feedAll { maxBody } feeds
    let after := (before.2.endBy e).accessAll accesses
    ∃ fs rest final, Splits maxBody e (octets feeds) fs rest final ∧
      Tells fs final (before.1 ++ after) ∧ (∀ a ∈ after, a.isGiven = true) ∧
      (e = .regular → (final = .connectionClosed ↔ rest = [])) ∧
      ∀ needed got, final = .shortRead needed got → got < needed := by
  intro before after
  obtain ⟨fs, rest, final, hsplits⟩ := exists_splits maxBody e (octets feeds)
  obtain ⟨htells, hall⟩ := tells_feedAll (r := { maxBody }) feeds accesses ⟨rfl, rfl⟩ rfl hsplits
  refine ⟨fs, rest, final, hsplits, htells, hall, ?_, ?_⟩
  · rintro rfl
    exact hsplits.closing.closed_iff
  · rintro needed got rfl
    exact hsplits.closing.lt_needed

end FrameReader

end Parley
