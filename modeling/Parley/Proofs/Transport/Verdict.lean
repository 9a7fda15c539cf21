import Mathlib.Tactic
import Parley.Proofs.Transport.Chunking
import Parley.Proofs.Wire.Layouts
import Parley.Transport.Handshake

/-!
# What a reply means

A `Verdict` says without a reader what an introduction makes of the octets that a stream has
brought, and which of them it leaves. `Handshake.hear_of_verdict` and `Handshake.verdict_or_silent`
say that the introduction hears each verdict, and waits where there is none.
-/

namespace Parley

/-! ## The octets in front of a stream -/

/-- Octets that stop short of the frame in front of them, which takes so many. -/
inductive ShortOf (maxBody : Nat) : Nat → Bytes → Prop
  | header (bs : Bytes) (hshort : bs.length < Header.size) : ShortOf maxBody Header.size bs
  | body (h : Header) (part : Bytes) (hmax : h.bodyLen.toNat ≤ maxBody)
    (hshort : part.length < h.bodyLen.toNat) :
    ShortOf maxBody (Header.size + h.bodyLen.toNat) (h.encode ++ part)

lemma Header.append_of_decode {bs : Bytes} {h : Header} (hd : Header.decode bs = .ok h) :
    bs = h.encode ++ bs.drop Header.size := by
  rw [(Header.encode_of_decode hd).2, List.take_append_drop]

lemma front_cases (maxBody : Nat) (bs : Bytes) :
    (∃ (raw : RawFrame) (rest : Bytes), raw.Fits maxBody ∧ bs = raw.encode ++ rest) ∨
      (∃ (h : Header) (part : Bytes), maxBody < h.bodyLen.toNat ∧ bs = h.encode ++ part) ∨
      ∃ needed, ShortOf maxBody needed bs := by
  by_cases hlen : bs.length < Header.size
  · exact .inr (.inr ⟨_, .header bs hlen⟩)
  · cases hd : Header.decode bs with
    | error e =>
      rw [Header.decode, if_neg hlen] at hd
      cases hd
    | ok h =>
      have hbs := Header.append_of_decode hd
      by_cases hmax : maxBody < h.bodyLen.toNat
      · exact .inr (.inl ⟨h, _, hmax, hbs⟩)
      · by_cases hshort : (bs.drop Header.size).length < h.bodyLen.toNat
        · have hbody : ShortOf maxBody _ (h.encode ++ bs.drop Header.size) :=
            .body h _ (Nat.le_of_not_lt hmax) hshort
          rw [← hbs] at hbody
          exact .inr (.inr ⟨_, hbody⟩)
        · have hbody : ((bs.drop Header.size).take h.bodyLen.toNat).length = h.bodyLen.toNat := by
            rw [List.length_take, Nat.min_eq_left (Nat.le_of_not_lt hshort)]
          refine .inl ⟨⟨h, (bs.drop Header.size).take h.bodyLen.toNat⟩,
            (bs.drop Header.size).drop h.bodyLen.toNat,
            ⟨hbody.symm, hbody.le.trans (Nat.le_of_not_lt hmax)⟩, ?_⟩
          rw [RawFrame.encode, List.append_assoc, List.take_append_drop]
          exact hbs

lemma cut_of_tooLarge {maxBody : Nat} {h : Header} (part : Bytes)
    (hmax : maxBody < h.bodyLen.toNat) :
    cut maxBody (h.encode ++ part) = .tooLarge h.bodyLen.toNat maxBody :=
  cut_eq_tooLarge_iff.mpr ⟨rfl, hmax, h, Header.decode_encode_append h part, rfl⟩

lemma ShortOf.cut_eq {maxBody needed : Nat} {bs : Bytes} (h : ShortOf maxBody needed bs) :
    cut maxBody bs = .needMore := by
  cases h with
  | header _ hshort => rw [cut, Header.decode, if_pos hshort]
  | body h part hmax hshort =>
    have hdrop : (h.encode ++ part).drop Header.size = part := List.drop_left' h.length_encode
    have htake : (part.take h.bodyLen.toNat).length < h.bodyLen.toNat := by
      rw [List.length_take]
      omega
    simp only [cut, Header.decode_encode_append, hdrop, if_neg (Nat.not_lt.mpr hmax), if_pos htake]

namespace FrameReader
variable {r : FrameReader}

/-- What the stream has brought and no frame has taken. -/
def whole (r : FrameReader) : Inbound := { r.inbound with waiting := r.pending }

lemma whole_nextRaw (r : FrameReader) :
    r.nextRaw.2.whole = { r.whole with waiting := (answerTo r.maxBody r.pending).2 } := by
  obtain ⟨-, hrest, -, hended, hfailure⟩ := nextRaw_spec r
  simp only [whole, hrest, hended, hfailure]

lemma endError_of_shortOf {needed : Nat} (h : ShortOf r.maxBody needed r.buffer) :
    r.endError =
      if r.buffer = [] then .connectionClosed else .shortRead needed r.buffer.length := by
  rw [endError]
  simp only [List.isEmpty_iff]
  split
  · rfl
  · generalize r.buffer = bs at h
    cases h with
    | header _ hshort => rw [Header.decode, if_pos hshort]
    | body h part hmax hshort => rw [Header.decode_encode_append]

lemma nextRaw_of_shortOf {needed : Nat} (h : ShortOf r.maxBody needed r.pending) :
    r.nextRaw.1 = r.whole.stalled
        (if r.pending = [] then .connectionClosed else .shortRead needed r.pending.length) ∧
      r.nextRaw.2.whole = r.whole := by
  obtain ⟨hanswer, -⟩ := nextRaw_spec r
  have hwhole := r.whole_nextRaw
  have hend : r.refill.endError = _ := endError_of_shortOf (r := r.refill) h
  rw [answerTo, h.cut_eq] at hanswer hwhole
  rw [hend] at hanswer
  exact ⟨hanswer, hwhole⟩

end FrameReader

/-! ## Verdicts -/

/-- What a reply means. -/
inductive Judged (raw : RawFrame) : Except Error Unit → Prop
  | welcome (f : Frame) (hdecode : raw.decode = .ok f) (hmessage : f.message = .authStatus 0) :
    Judged raw (.ok ())
  | rejected (f : Frame) (status : Int32) (hdecode : raw.decode = .ok f)
    (hmessage : f.message = .authStatus status) (hstatus : status ≠ 0) :
    Judged raw (.error (.authFailed status))
  | unexpected (f : Frame) (hdecode : raw.decode = .ok f)
    (hmessage : ∀ status, f.message ≠ .authStatus status) :
    Judged raw (.error (.unexpectedCommand "auth_status" f.message.name))
  | malformed (c : Command) (fault : BodyFault) (hcommand : Command.ofCode? raw.header.cmd = some c)
    (hbody : ¬ c.Accepts raw.header.version raw.body)
    (hdecode : raw.decode = .error (.malformed c.name fault)) :
    Judged raw (.error (.malformed c.name fault))

lemma RawFrame.decode_cases (raw : RawFrame) :
    (∃ f, raw.decode = .ok f) ∨ ∃ c fault, Command.ofCode? raw.header.cmd = some c ∧
      ¬ c.Accepts raw.header.version raw.body ∧ raw.decode = .error (.malformed c.name fault) := by
  rcases Message.decode_cases raw.header.cmd raw.header.version raw.header.flags raw.body with
    ⟨-, m, hdecode⟩ | ⟨c, fault, hcommand, hbody, hdecode⟩
  · left
    rw [decode, hdecode]
    exact ⟨_, rfl⟩
  · right
    refine ⟨c, fault, hcommand, hbody, ?_⟩
    rw [decode, hdecode]
    rfl

/-- The reply as the introduction takes it. -/
def RawFrame.judge (raw : RawFrame) : Except Error Unit :=
  raw.decode.bind fun f => Handshake.judge f.message

lemma judged_iff (raw : RawFrame) (result : Except Error Unit) :
    Judged raw result ↔ raw.judge = result := by
  rw [RawFrame.judge]
  constructor
  · intro h
    cases h with
    | welcome f hdecode hmessage =>
      rw [hdecode]
      simp [Except.bind, Handshake.judge, hmessage]
    | rejected f status hdecode hmessage hstatus =>
      rw [hdecode]
      simp [Except.bind, Handshake.judge, hmessage, hstatus]
    | unexpected f hdecode hmessage =>
      rw [hdecode, Except.bind]
      cases hm : f.message with
      | authStatus status => exact absurd hm (hmessage status)
      | _ => rfl
    | malformed c fault hcommand hbody hdecode =>
      rw [hdecode]
      rfl
  · rintro rfl
    rcases raw.decode_cases with ⟨f, hdecode⟩ | ⟨c, fault, hcommand, hbody, hdecode⟩
    · rw [hdecode, Except.bind]
      cases hm : f.message with
      | authStatus status =>
        by_cases hstatus : status = 0
        · rw [Handshake.judge, if_pos hstatus]
          exact .welcome f hdecode (by rw [hm, hstatus])
        · rw [Handshake.judge, if_neg hstatus]
          exact .rejected f status hdecode hm hstatus
      | _ =>
        rw [← hm]
        have hunexpected := Judged.unexpected f hdecode (by simp [hm])
        rw [hm] at hunexpected ⊢
        exact hunexpected
    · rw [hdecode]
      exact .malformed c fault hcommand hbody hdecode

/-- What a stream means that stops short of the first frame, which takes so many octets. -/
inductive Stopped (i : Inbound) (needed : Nat) (late : Prop) : Error → Prop
  | faulty (fault : IoFault) (hfailure : i.failure = some fault) : Stopped i needed late (.io fault)
  | closed (hfailure : i.failure = none) (hended : i.ended = true) (hwaiting : i.waiting = []) :
    Stopped i needed late .connectionClosed
  | short (hfailure : i.failure = none) (hended : i.ended = true) (hwaiting : i.waiting ≠ []) :
    Stopped i needed late (.shortRead needed i.waiting.length)
  | silent (hfailure : i.failure = none) (hended : i.ended = false) (hlate : late) :
    Stopped i needed late (.timeout "auth_status")

/-- What an introduction makes of what a stream has brought, and the octets that it leaves. -/
inductive Verdict (maxBody : Nat) (i : Inbound) (late : Prop) : Except Error Unit → Bytes → Prop
  | reply (raw : RawFrame) (rest : Bytes) (result : Except Error Unit) (hfits : raw.Fits maxBody)
    (hwaiting : i.waiting = raw.encode ++ rest) (hjudged : Judged raw result) :
    Verdict maxBody i late result rest
  | tooLarge (h : Header) (part : Bytes) (hmax : maxBody < h.bodyLen.toNat)
    (hwaiting : i.waiting = h.encode ++ part) :
    Verdict maxBody i late (.error (.frameTooLarge h.bodyLen.toNat maxBody)) i.waiting
  | stopped (needed : Nat) (e : Error) (hshort : ShortOf maxBody needed i.waiting)
    (hstopped : Stopped i needed late e) : Verdict maxBody i late (.error e) i.waiting

lemma Verdict.exists_taken {maxBody : Nat} {i : Inbound} {late : Prop}
    {result : Except Error Unit} {rest : Bytes} (h : Verdict maxBody i late result rest) :
    ∃ taken, i.waiting = taken ++ rest := by
  cases h with
  | reply raw _ _ hfits hwaiting hjudged => exact ⟨raw.encode, hwaiting⟩
  | tooLarge h part hmax hwaiting => exact ⟨[], rfl⟩
  | stopped needed e hshort hstopped => exact ⟨[], rfl⟩

lemma Verdict.of_frame {maxBody : Nat} {i : Inbound} {late : Prop} {result : Except Error Unit}
    {rest rest' : Bytes} {raw : RawFrame} (h : Verdict maxBody i late result rest)
    (hfits : raw.Fits maxBody) (hwaiting : i.waiting = raw.encode ++ rest') :
    Judged raw result := by
  have hcut := cut_eq_frame_iff.mpr ⟨hfits, hwaiting⟩
  cases h with
  | reply raw' _ _ hfits' hwaiting' hjudged =>
    have hcut' := cut_eq_frame_iff.mpr ⟨hfits', hwaiting'⟩
    rw [hcut] at hcut'
    cases hcut'
    exact hjudged
  | tooLarge h part hmax hwaiting' =>
    have hcut' := cut_of_tooLarge part hmax
    rw [← hwaiting', hcut] at hcut'
    cases hcut'
  | stopped needed e hshort hstopped =>
    rw [hshort.cut_eq] at hcut
    cases hcut

/-- A stream in front of which stands a frame that fits and that welcomes the client. -/
def Inbound.Welcomes (maxBody : Nat) (i : Inbound) : Prop :=
  ∃ (raw : RawFrame) (f : Frame) (rest : Bytes), raw.Fits maxBody ∧
    i.waiting = raw.encode ++ rest ∧ raw.decode = .ok f ∧ f.message = .authStatus 0

lemma Verdict.ok_of_welcomes {maxBody : Nat} {i : Inbound} {late : Prop}
    {result : Except Error Unit} {rest : Bytes} (h : Verdict maxBody i late result rest)
    (hwelcomes : i.Welcomes maxBody) : result = .ok () := by
  obtain ⟨raw, f, rest', hfits, hwaiting, hdecode, hmessage⟩ := hwelcomes
  have hjudged := (judged_iff raw result).mp (h.of_frame hfits hwaiting)
  rw [← hjudged]
  exact (judged_iff raw _).mp (.welcome f hdecode hmessage)

lemma Verdict.welcomes {maxBody : Nat} {i : Inbound} {late : Prop} {rest : Bytes}
    (h : Verdict maxBody i late (.ok ()) rest) : i.Welcomes maxBody := by
  cases h with
  | reply raw _ _ hfits hwaiting hjudged =>
    cases hjudged with
    | welcome f hdecode hmessage => exact ⟨raw, f, rest, hfits, hwaiting, hdecode, hmessage⟩

lemma Inbound.Welcomes.mono {maxBody : Nat} {i i' : Inbound} (h : i.Welcomes maxBody)
    (hwaiting : i.waiting <+: i'.waiting) : i'.Welcomes maxBody := by
  obtain ⟨raw, f, rest, hfits, hfront, hdecode, hmessage⟩ := h
  obtain ⟨more, hmore⟩ := hwaiting
  exact ⟨raw, f, rest ++ more, hfits, by rw [← hmore, hfront, List.append_assoc], hdecode, hmessage⟩

def Inbound.IsOver (i : Inbound) : Prop := i.ended = true ∨ i.failure ≠ none

/-- Octets that make a welcome complete come in time, unless the stream was over before. -/
lemma Verdict.ok_of_welcomes_later {maxBody : Nat} {i i' : Inbound} {late : Prop}
    {result : Except Error Unit} {rest : Bytes} (h : Verdict maxBody i late result rest)
    (hwaiting : i.waiting <+: i'.waiting) (hwelcomes : i'.Welcomes maxBody) (hlate : ¬ late)
    (hover : i.IsOver → i'.waiting = i.waiting) : result = .ok () := by
  obtain ⟨more, hmore⟩ := hwaiting
  cases h with
  | reply raw _ _ hfits hfront hjudged =>
    have hlater : Verdict maxBody i' late result (rest ++ more) :=
      .reply raw _ _ hfits (by rw [← hmore, hfront, List.append_assoc]) hjudged
    exact hlater.ok_of_welcomes hwelcomes
  | tooLarge h part hmax hfront =>
    have hlater : Verdict maxBody i' late _ i'.waiting :=
      .tooLarge h (part ++ more) hmax (by rw [← hmore, hfront, List.append_assoc])
    exact hlater.ok_of_welcomes hwelcomes
  | stopped needed e hshort hstopped =>
    -- On a stream that is over nothing can follow, so that only a timeout is left, and it is early.
    have hsilent : ¬ i.IsOver := by
      intro hiover
      obtain ⟨raw, f, rest, hfits, hfront, -, -⟩ := hwelcomes
      have hcut := cut_eq_frame_iff.mpr ⟨hfits, hfront⟩
      rw [hover hiover, hshort.cut_eq] at hcut
      cases hcut
    cases hstopped with
    | faulty fault hfailure => exact absurd (.inr (by simp [hfailure])) hsilent
    | closed hfailure hended hwaiting => exact absurd (.inl hended) hsilent
    | short hfailure hended hwaiting => exact absurd (.inl hended) hsilent
    | silent hfailure hended hnow => exact absurd hnow hlate

/-- A stream that has still to bring the first frame, and may. -/
structure Inbound.Silent (maxBody : Nat) (i : Inbound) : Prop where
  short : ∃ needed, ShortOf maxBody needed i.waiting
  ended : i.ended = false
  failure : i.failure = none

lemma Inbound.Silent.not_welcomes {maxBody : Nat} {i : Inbound} (h : i.Silent maxBody) :
    ¬ i.Welcomes maxBody := by
  rintro ⟨raw, f, rest, hfits, hwaiting, -, -⟩
  obtain ⟨needed, hshort⟩ := h.short
  have hcut := cut_eq_frame_iff.mpr ⟨hfits, hwaiting⟩
  rw [hshort.cut_eq] at hcut
  cases hcut

namespace Handshake
variable {now deadline : Nat} {link : Link}

lemma hear_of_some {answer : Except Error RawFrame} (h : link.reader.nextRaw.1 = some answer) :
    hear now deadline link = some (.done (answer.bind RawFrame.judge),
      { link with reader := link.reader.nextRaw.2 }) := by
  cases answer with
  | error e => simp [hear, Link.nextFrame, FrameReader.nextFrame, h, Except.bind]
  | ok raw =>
    cases hdecode : raw.decode <;>
      simp [hear, Link.nextFrame, FrameReader.nextFrame, h, Except.bind, RawFrame.judge, hdecode]

lemma hear_of_none (h : link.reader.nextRaw.1 = none) :
    hear now deadline link =
      if deadline ≤ now then some (done (.error (.timeout "auth_status")), link) else none := by
  simp only [hear, Link.nextFrame, FrameReader.nextFrame, h, Option.map_none]
  rfl

/-- The reply, or what takes its place, is heard as the verdict says. -/
theorem hear_of_verdict {maxBody : Nat} {i : Inbound} {result : Except Error Unit} {rest : Bytes}
    (hbound : link.reader.maxBody = maxBody) (hwhole : link.reader.whole = i)
    (h : Verdict maxBody i (deadline ≤ now) result rest) :
    ∃ reader : FrameReader, hear now deadline link = some (.done result, { link with reader }) ∧
      reader.whole = { i with waiting := rest } ∧ reader.maxBody = maxBody := by
  subst hbound hwhole
  -- The reader answers from all octets at once, those included that it has not fetched yet.
  obtain ⟨hanswer, -, hbound, -, -⟩ := nextRaw_spec link.reader
  have hwhole := link.reader.whole_nextRaw
  cases h with
  | reply raw _ _ hfits hwaiting hjudged =>
    have hcut := cut_eq_frame_iff.mpr ⟨hfits, hwaiting⟩
    change cut _ link.reader.pending = _ at hcut
    simp only [answerTo, hcut, Option.some_or] at hanswer hwhole
    refine ⟨_, ?_, hwhole, hbound⟩
    rw [hear_of_some hanswer, Except.bind, (judged_iff raw _).mp hjudged]
  | tooLarge h part hmax hwaiting =>
    have hcut := cut_of_tooLarge part hmax
    rw [← hwaiting] at hcut
    change cut _ link.reader.pending = _ at hcut
    simp only [answerTo, hcut, Option.some_or] at hanswer hwhole
    exact ⟨_, hear_of_some hanswer, hwhole, hbound⟩
  | stopped needed e hshort hstopped =>
    obtain ⟨hanswer, hwhole⟩ := FrameReader.nextRaw_of_shortOf hshort
    cases hstopped with
    | faulty fault hfailure =>
      rw [Inbound.stalled, hfailure] at hanswer
      exact ⟨_, hear_of_some hanswer, hwhole, hbound⟩
    | closed hfailure hended hwaiting =>
      change link.reader.pending = [] at hwaiting
      rw [Inbound.stalled, hfailure, hended, if_pos hwaiting] at hanswer
      exact ⟨_, hear_of_some hanswer, hwhole, hbound⟩
    | short hfailure hended hwaiting =>
      change link.reader.pending ≠ [] at hwaiting
      rw [Inbound.stalled, hfailure, hended, if_neg hwaiting] at hanswer
      exact ⟨_, hear_of_some hanswer, hwhole, hbound⟩
    | silent hfailure hended hlate =>
      rw [Inbound.stalled, hfailure, hended] at hanswer
      exact ⟨link.reader, by rw [hear_of_none hanswer, if_pos hlate], rfl, rfl⟩

theorem verdict_or_silent (now deadline : Nat) (link : Link) :
    (∃ result rest,
        Verdict link.reader.maxBody link.reader.whole (deadline ≤ now) result rest) ∨
      (hear now deadline link = none ∧ now < deadline ∧
        link.reader.whole.Silent link.reader.maxBody) := by
  rcases front_cases link.reader.maxBody link.reader.pending with
    ⟨raw, rest, hfits, hpending⟩ | ⟨h, part, hmax, hpending⟩ | ⟨needed, hshort⟩
  · exact .inl ⟨_, _, .reply raw rest _ hfits hpending ((judged_iff raw _).mpr rfl)⟩
  · exact .inl ⟨_, _, .tooLarge h part hmax hpending⟩
  · cases hfailure : link.reader.whole.failure with
    | some fault => exact .inl ⟨_, _, .stopped needed _ hshort (.faulty fault hfailure)⟩
    | none =>
      cases hended : link.reader.whole.ended with
      | true =>
        left
        by_cases hwaiting : link.reader.whole.waiting = []
        · exact ⟨_, _, .stopped needed _ hshort (.closed hfailure hended hwaiting)⟩
        · exact ⟨_, _, .stopped needed _ hshort (.short hfailure hended hwaiting)⟩
      | false =>
        by_cases hlate : deadline ≤ now
        · exact .inl ⟨_, _, .stopped needed _ hshort (.silent hfailure hended hlate)⟩
        · obtain ⟨hanswer, -⟩ := FrameReader.nextRaw_of_shortOf hshort
          rw [Inbound.stalled, hfailure, hended] at hanswer
          refine .inr ⟨?_, Nat.lt_of_not_le hlate, ⟨needed, hshort⟩, hended, hfailure⟩
          rw [hear_of_none hanswer, if_neg hlate]

end Handshake

end Parley
