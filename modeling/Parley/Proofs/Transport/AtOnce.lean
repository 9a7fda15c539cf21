import Parley.Proofs.Transport.Chunking

/-!
# Decoding at once and cutting

A frame is read in two ways: `Frame.decode` reads the one in front of given octets, and a reader
cuts it off its buffer with `cut` and reads its body later. The two are told apart only by what they
do where the octets end too early: the first fails with a short read, the second asks for more and
leaves its buffer alone. Main statement: `Frame.decode_agrees_with_cut`.
-/

namespace Parley

section Bodies

lemma Reading.runOn_ne_shortRead {α : Type} (command : String) (body : Bytes) (r : Reading α)
    (needed got : Nat) : r.runOn command body ≠ .error (.shortRead needed got) := by
  intro hshort
  rw [Reading.runOn] at hshort
  split at hshort <;> cases hshort

lemma Message.decode_ne_shortRead (cmd version : UInt8) (flags : Flags) (body : Bytes)
    (needed got : Nat) :
    Message.decode cmd version flags body ≠ .error (.shortRead needed got) := by
  intro hshort
  rw [Message.decode] at hshort
  split at hshort
  · cases hshort
  · exact Reading.runOn_ne_shortRead _ _ _ _ _ hshort

lemma RawFrame.decode_ne_shortRead (raw : RawFrame) (needed got : Nat) :
    raw.decode ≠ .error (.shortRead needed got) := by
  intro hshort
  have hmessage := Message.decode_ne_shortRead raw.header.cmd raw.header.version raw.header.flags
    raw.body needed got
  cases hbody : Message.decode raw.header.cmd raw.header.version raw.header.flags raw.body with
  | ok message =>
    simp only [RawFrame.decode, hbody] at hshort
    cases hshort
  | error e =>
    simp only [RawFrame.decode, hbody] at hshort
    cases hshort
    exact hmessage hbody

end Bodies

section Octets
variable {maxBody : Nat} {bs : Bytes} {header : Header} {e : Error}

lemma Header.eq_shortRead_of_decode (h : Header.decode bs = .error e) :
    e = .shortRead Header.size bs.length := by
  rw [Header.decode] at h
  split at h
  · cases h
    rfl
  · cases h

lemma length_take_lt_iff {n : Nat} : (bs.take n).length < n ↔ bs.length < n := by
  rw [List.length_take]
  omega

lemma Frame.decode_of_header (h : Header.decode bs = .ok header) :
    Frame.decode bs =
      if (bs.drop Header.size).length < header.bodyLen.toNat then
        .error (.shortRead header.bodyLen.toNat (bs.drop Header.size).length)
      else
        RawFrame.decode { header, body := (bs.drop Header.size).take header.bodyLen.toNat } := by
  rw [Frame.decode, h]
  simp only [bind, Except.bind, length_take_lt_iff]
  split <;> rfl

lemma cut_of_header (h : Header.decode bs = .ok header) (hbound : header.bodyLen.toNat ≤ maxBody) :
    cut maxBody bs =
      if (bs.drop Header.size).length < header.bodyLen.toNat then
        .needMore
      else
        .frame { header, body := (bs.drop Header.size).take header.bodyLen.toNat }
          ((bs.drop Header.size).drop header.bodyLen.toNat) := by
  rw [cut, h]
  simp only [if_neg (Nat.not_lt.mpr hbound), length_take_lt_iff]

/-- What the two ways to read a frame find in front of some octets. -/
inductive Frame.Front (maxBody : Nat) (bs : Bytes) : Prop
  | short (needed got : Nat) (hdecode : Frame.decode bs = .error (.shortRead needed got))
      (hcut : cut maxBody bs = .needMore)
  | whole (raw : RawFrame) (rest : Bytes) (hdecode : Frame.decode bs = raw.decode)
      (hcut : cut maxBody bs = .frame raw rest)

/-- The two ways find the same as long as the bound admits the body that is announced. -/
lemma Frame.front (hbound : ∀ header, Header.decode bs = .ok header →
    header.bodyLen.toNat ≤ maxBody) : Frame.Front maxBody bs := by
  cases hheader : Header.decode bs with
  | error e =>
    obtain rfl := Header.eq_shortRead_of_decode hheader
    refine .short Header.size bs.length ?_ ?_
    · rw [Frame.decode, hheader]
      rfl
    · rw [cut, hheader]
  | ok header =>
    have hdecode := Frame.decode_of_header hheader
    have hcut := cut_of_header hheader (hbound header hheader)
    by_cases hshort : (bs.drop Header.size).length < header.bodyLen.toNat
    · rw [if_pos hshort] at hdecode hcut
      exact .short _ _ hdecode hcut
    · rw [if_neg hshort] at hdecode hcut
      exact .whole _ _ hdecode hcut

lemma cut_takes {raw : RawFrame} {rest : Bytes} (h : cut maxBody bs = .frame raw rest) :
    Header.decode bs = .ok raw.header ∧
      bs.length = Header.size + raw.header.bodyLen.toNat + rest.length ∧
      rest = bs.drop (Header.size + raw.header.bodyLen.toNat) := by
  obtain ⟨⟨hlen, -⟩, rfl⟩ := cut_eq_frame_iff.mp h
  have hsize : Header.size + raw.header.bodyLen.toNat = raw.encode.length := by
    rw [RawFrame.length_encode, hlen]
  refine ⟨?_, ?_, ?_⟩
  · rw [RawFrame.encode, List.append_assoc, Header.decode_encode_append]
  · rw [List.length_append, hsize]
  · rw [hsize, List.drop_left]

end Octets

/-- Decoding at once and cutting agree on all octets, whatever stands in them, as long as the bound
of the reader admits the body that a whole header announces. There is a frame to cut off exactly
when decoding does not fail with a short read. Decoding then gives what the frame that is cut off
gives when it is read, a frame or an error; the reader is left with the octets behind the header and
its body. Otherwise the reader asks for more and stays as it is. -/
theorem Frame.decode_agrees_with_cut (maxBody : Nat) (bs : Bytes)
    (hbound : ∀ header, Header.decode bs = .ok header → header.bodyLen.toNat ≤ maxBody) :
    ((∃ raw rest, cut maxBody bs = .frame raw rest) ↔
      ∀ needed got, Frame.decode bs ≠ .error (.shortRead needed got)) ∧
    (∀ raw rest, cut maxBody bs = .frame raw rest →
      Frame.decode bs = raw.decode ∧ Header.decode bs = .ok raw.header ∧
      bs.length = Header.size + raw.header.bodyLen.toNat + rest.length ∧
      rest = bs.drop (Header.size + raw.header.bodyLen.toNat) ∧
      ∀ r : FrameReader, r.maxBody = maxBody → r.buffer = bs →
        r.cutNext = (some (.ok raw), { r with buffer := rest })) ∧
    ((∃ needed got, Frame.decode bs = .error (.shortRead needed got)) →
      cut maxBody bs = .needMore ∧
      ∀ r : FrameReader, r.maxBody = maxBody → r.buffer = bs → r.cutNext = (none, r)) := by
  cases Frame.front hbound with
  | short needed got hdecode hcut =>
    refine ⟨⟨?_, ?_⟩, ?_, ?_⟩
    · rintro ⟨raw, rest, hframe⟩
      cases hcut.symm.trans hframe
    · intro hnever
      exact absurd hdecode (hnever needed got)
    · intro raw rest hframe
      cases hcut.symm.trans hframe
    · rintro -
      refine ⟨hcut, ?_⟩
      rintro r rfl rfl
      rw [FrameReader.cutNext, hcut]
  | whole raw rest hdecode hcut =>
    have hnever : ∀ needed got, Frame.decode bs ≠ .error (.shortRead needed got) := by
      intro needed got
      rw [hdecode]
      exact raw.decode_ne_shortRead needed got
    refine ⟨⟨fun _ => hnever, fun _ => ⟨raw, rest, hcut⟩⟩, ?_, ?_⟩
    · intro raw' rest' hframe
      cases hcut.symm.trans hframe
      obtain ⟨hheader, hlength, hrest⟩ := cut_takes hcut
      refine ⟨hdecode, hheader, hlength, hrest, ?_⟩
      rintro r rfl rfl
      rw [FrameReader.cutNext, hcut]
    · rintro ⟨needed, got, hshort⟩
      exact absurd hshort (hnever needed got)

/-- Octets in front of which stands a receipt with too short a body, and behind it the beginning of
another frame. -/
def cutReceipt : Bytes := [0, 0, 0, 1, 0, 0, 0, 5, Command.ack.code, 2, 0, 0, 9, 0, 0]

theorem Frame.decode_agrees_with_cut_of_cutReceipt :
    (∀ header, Header.decode cutReceipt = .ok header → header.bodyLen.toNat ≤ 1) ∧
      Frame.decode cutReceipt = .error (.malformed "ack" (.tooShort 4 1)) ∧
      ∃ raw, cut 1 cutReceipt = .frame raw [0, 0] ∧ Frame.decode cutReceipt = raw.decode := by
  have hheader : Header.decode cutReceipt = .ok ⟨1, 5, Command.ack.code, 2, 0, 0⟩ := by decide
  have hbound : ∀ header, Header.decode cutReceipt = .ok header → header.bodyLen.toNat ≤ 1 := by
    intro header h
    cases hheader.symm.trans h
    decide
  have hdecode : Frame.decode cutReceipt = .error (.malformed "ack" (.tooShort 4 1)) := by
    decide
  obtain ⟨hwhole, hframe, -⟩ := Frame.decode_agrees_with_cut 1 cutReceipt hbound
  obtain ⟨raw, rest, hcut⟩ := hwhole.mpr (by simp [hdecode])
  obtain ⟨hraw, hfront, -, hrest, -⟩ := hframe raw rest hcut
  obtain rfl : rest = [0, 0] := by
    rw [hrest, ← Except.ok.inj (hheader.symm.trans hfront)]
    rfl
  exact ⟨hbound, hdecode, raw, hcut, hraw⟩

end Parley
