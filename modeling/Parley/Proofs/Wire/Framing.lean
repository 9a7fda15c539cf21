import Mathlib.Tactic.Lemma
import Parley.Wire.Frame

/-!
# Cutting frames off octets

A header and its twelve octets determine each other, so `cut` finds a frame exactly where the wire
form of one stands in front (`cut_eq_frame_iff`). `drain` cuts until nothing more can be cut; what
it takes and what it leaves are together the octets it was given.
-/

namespace Parley

lemma ofNat_toNat_ofUInt32 (n : UInt32) : UInt32.ofNat (Bytes.toNat (Bytes.ofUInt32 n)) = n := by
  have hlt : n.toNat < Bytes.bound 4 := n.toNat_lt
  rw [Bytes.ofUInt32, Bytes.toNat_ofNat, Nat.mod_eq_of_lt hlt, UInt32.ofNat_toNat]

lemma ofUInt32_ofNat_toNat {bs : Bytes} (h : bs.length = 4) :
    Bytes.ofUInt32 (UInt32.ofNat (Bytes.toNat bs)) = bs := by
  have hlt := Bytes.toNat_lt bs
  rw [h] at hlt
  rw [Bytes.ofUInt32, UInt32.toNat_ofNat_of_lt' hlt, ← h, Bytes.ofNat_toNat]

lemma four_octets {bs : Bytes} (h : bs.length = 4) : ∃ a b c d, bs = [a, b, c, d] := by
  match bs, h with
  | [a, b, c, d], _ => exact ⟨a, b, c, d, rfl⟩

@[simp] lemma Bytes.length_ofUInt32 (n : UInt32) : (Bytes.ofUInt32 n).length = 4 :=
  Bytes.length_ofNat 4 n.toNat

@[simp] lemma Bytes.length_ofInt32 (n : Int32) : (Bytes.ofInt32 n).length = 4 :=
  Bytes.length_ofUInt32 n.toUInt32

namespace Header

@[simp] lemma length_encode (h : Header) : h.encode.length = size := by
  simp [encode, size]

theorem decode_encode_append (h : Header) (bs : Bytes) : decode (h.encode ++ bs) = .ok h := by
  obtain ⟨bodyLen, seq, cmd, version, flags, reserved⟩ := h
  have hbodyLen := ofNat_toNat_ofUInt32 bodyLen
  have hseq := ofNat_toNat_ofUInt32 seq.toUInt32
  obtain ⟨a, b, c, d, hfirst⟩ := four_octets (Bytes.length_ofUInt32 bodyLen)
  obtain ⟨a', b', c', d', hsecond⟩ := four_octets (Bytes.length_ofUInt32 seq.toUInt32)
  have hlen : ¬ (a :: b :: c :: d :: a' :: b' :: c' :: d' :: cmd :: version :: flags ::
      reserved :: bs).length < size := by simp [size]
  simp only [encode, Bytes.ofInt32, hfirst, hsecond, List.cons_append, List.nil_append, decode,
    if_neg hlen]
  rw [hfirst] at hbodyLen
  rw [hsecond] at hseq
  simp [hbodyLen, hseq]

/-- Octets that read as a header start with that header's octets. -/
theorem encode_of_decode {bs : Bytes} {h : Header} (hd : decode bs = .ok h) :
    size ≤ bs.length ∧ h.encode = bs.take size := by
  rw [decode] at hd
  split at hd
  · cases hd
  · rename_i hlen
    have hlen : 12 ≤ bs.length := by simpa [size] using hlen
    refine ⟨hlen, ?_⟩
    cases hd
    obtain ⟨b0, b1, b2, b3, b4, b5, b6, b7, b8, b9, b10, b11, rest, rfl⟩ :
        ∃ b0 b1 b2 b3 b4 b5 b6 b7 b8 b9 b10 b11 rest,
          bs = b0 :: b1 :: b2 :: b3 :: b4 :: b5 :: b6 :: b7 :: b8 :: b9 :: b10 :: b11 :: rest := by
      match bs, hlen with
      | b0 :: b1 :: b2 :: b3 :: b4 :: b5 :: b6 :: b7 :: b8 :: b9 :: b10 :: b11 :: rest, _ =>
        exact ⟨b0, b1, b2, b3, b4, b5, b6, b7, b8, b9, b10, b11, rest, rfl⟩
    simp [encode, size, Bytes.ofInt32, ofUInt32_ofNat_toNat]

end Header

/-- A frame whose header states the length of its body, within the bound of a reader. -/
def RawFrame.Fits (maxBody : Nat) (raw : RawFrame) : Prop :=
  raw.header.bodyLen.toNat = raw.body.length ∧ raw.body.length ≤ maxBody

def wireForm (raws : List RawFrame) : Bytes := raws.flatMap RawFrame.encode

@[simp] lemma wireForm_nil : wireForm [] = [] := rfl

@[simp] lemma wireForm_cons (raw : RawFrame) (raws : List RawFrame) :
    wireForm (raw :: raws) = raw.encode ++ wireForm raws := rfl

@[simp] lemma wireForm_append (raws raws' : List RawFrame) :
    wireForm (raws ++ raws') = wireForm raws ++ wireForm raws' := by
  simp [wireForm]

lemma RawFrame.length_encode (raw : RawFrame) :
    raw.encode.length = Header.size + raw.body.length := by
  simp [RawFrame.encode]

section Cut
variable {maxBody : Nat} {bs : Bytes} {raw : RawFrame} {rest : Bytes}

/-- A frame is cut off exactly where its wire form stands in front. -/
theorem cut_eq_frame_iff :
    cut maxBody bs = .frame raw rest ↔ raw.Fits maxBody ∧ bs = raw.encode ++ rest := by
  constructor
  · intro hcut
    rw [cut] at hcut
    split at hcut
    · cases hcut
    · rename_i header hheader
      obtain ⟨hlen, hencode⟩ := Header.encode_of_decode hheader
      simp only at hcut
      split at hcut
      · cases hcut
      · rename_i hmax
        split at hcut
        · cases hcut
        · rename_i hbody
          cases hcut
          rw [List.length_take] at hbody
          refine ⟨⟨?_, ?_⟩, ?_⟩
          · simp only [List.length_take]
            omega
          · simp only [List.length_take]
            omega
          · rw [RawFrame.encode, hencode, List.append_assoc, List.take_append_drop,
              List.take_append_drop]
  · rintro ⟨⟨hlen, hmax⟩, rfl⟩
    have hdrop : (raw.header.encode ++ (raw.body ++ rest)).drop Header.size = raw.body ++ rest := by
      rw [List.drop_append_of_le_length (by simp), List.drop_eq_nil_of_le (by simp),
        List.nil_append]
    rw [RawFrame.encode, List.append_assoc, cut, Header.decode_encode_append]
    simp only [hdrop, hlen, List.take_left, List.drop_left]
    rw [if_neg (by omega), if_neg (by omega)]

/-- A buffer is refused exactly when its header states too long a body. -/
theorem cut_eq_tooLarge_iff {len max : Nat} :
    cut maxBody bs = .tooLarge len max ↔
      max = maxBody ∧ maxBody < len ∧ ∃ h, Header.decode bs = .ok h ∧ h.bodyLen.toNat = len := by
  rw [cut]
  constructor
  · intro hcut
    split at hcut
    · cases hcut
    · rename_i header hheader
      simp only at hcut
      split at hcut
      · rename_i hmax
        cases hcut
        exact ⟨rfl, hmax, header, hheader, rfl⟩
      · split at hcut <;> cases hcut
  · rintro ⟨rfl, hmax, header, hheader, rfl⟩
    simp only [hheader]
    rw [if_pos hmax]

lemma Header.decode_append {h : Header} (hd : Header.decode bs = .ok h) (more : Bytes) :
    Header.decode (bs ++ more) = .ok h := by
  obtain ⟨-, hencode⟩ := Header.encode_of_decode hd
  rw [← List.take_append_drop Header.size bs, ← hencode, List.append_assoc,
    Header.decode_encode_append]

lemma cut_tooLarge_append {len max : Nat} (hcut : cut maxBody bs = .tooLarge len max)
    (more : Bytes) : cut maxBody (bs ++ more) = .tooLarge len max := by
  obtain ⟨hmax, hlen, h, hd, hbody⟩ := cut_eq_tooLarge_iff.mp hcut
  exact cut_eq_tooLarge_iff.mpr ⟨hmax, hlen, h, Header.decode_append hd more, hbody⟩

lemma length_lt_of_cut (hcut : cut maxBody bs = .frame raw rest) : rest.length < bs.length := by
  obtain ⟨-, rfl⟩ := cut_eq_frame_iff.mp hcut
  simp only [List.length_append, RawFrame.length_encode, Header.size]
  omega

end Cut

/-- What cutting takes off the front of a buffer: frames in order, the refusal that ends the
cutting, if one does, and the octets left. -/
structure Drained where
  frames : List RawFrame
  refusal : Option Error
  rest : Bytes

def Drained.behind (d : Drained) (raws : List RawFrame) : Drained :=
  { d with frames := raws ++ d.frames }

/-- Cuts frames off the front of a buffer until nothing more can be cut. -/
def drain (maxBody : Nat) (bs : Bytes) : Drained :=
  match _h : cut maxBody bs with
  | .frame raw rest => (drain maxBody rest).behind [raw]
  | .tooLarge len max => ⟨[], some (.frameTooLarge len max), bs⟩
  | .needMore => ⟨[], none, bs⟩
termination_by bs.length
decreasing_by exact length_lt_of_cut _h

section Drain
variable {maxBody : Nat} {bs : Bytes}

lemma drain_of_frame {raw : RawFrame} {rest : Bytes} (hcut : cut maxBody bs = .frame raw rest) :
    drain maxBody bs = (drain maxBody rest).behind [raw] := by
  rw [drain]
  split <;> simp_all

lemma drain_of_tooLarge {len max : Nat} (hcut : cut maxBody bs = .tooLarge len max) :
    drain maxBody bs = ⟨[], some (.frameTooLarge len max), bs⟩ := by
  rw [drain]
  split <;> simp_all

lemma drain_of_needMore (hcut : cut maxBody bs = .needMore) :
    drain maxBody bs = ⟨[], none, bs⟩ := by
  rw [drain]
  split <;> simp_all

/-- Frames that fit are cut off one by one, and cutting goes on behind them. -/
theorem drain_wireForm_append {raws : List RawFrame} (hfits : ∀ raw ∈ raws, raw.Fits maxBody)
    (rest : Bytes) :
    drain maxBody (wireForm raws ++ rest) = (drain maxBody rest).behind raws := by
  induction raws with
  | nil => rfl
  | cons raw raws ih =>
    have hraw := hfits raw (by simp)
    have hcut : cut maxBody (wireForm (raw :: raws) ++ rest) =
        .frame raw (wireForm raws ++ rest) :=
      cut_eq_frame_iff.mpr ⟨hraw, by rw [wireForm_cons, List.append_assoc]⟩
    rw [drain_of_frame hcut, ih (fun r hr => hfits r (List.mem_cons_of_mem _ hr))]
    simp [Drained.behind]

theorem drain_wireForm {raws : List RawFrame} (hfits : ∀ raw ∈ raws, raw.Fits maxBody) :
    drain maxBody (wireForm raws) = ⟨raws, none, []⟩ := by
  have hdrain := drain_wireForm_append hfits []
  rw [List.append_nil] at hdrain
  rw [hdrain, drain_of_needMore rfl, Drained.behind, List.append_nil]

/-- The frames taken fit, and with the octets left they are what was given. -/
theorem drain_conserves (maxBody : Nat) (bs : Bytes) :
    (∀ raw ∈ (drain maxBody bs).frames, raw.Fits maxBody) ∧
      wireForm (drain maxBody bs).frames ++ (drain maxBody bs).rest = bs := by
  fun_induction drain maxBody bs with
  | case1 bs raw rest hcut ih =>
    obtain ⟨hraw, rfl⟩ := cut_eq_frame_iff.mp hcut
    obtain ⟨hfits, hrest⟩ := ih
    refine ⟨?_, ?_⟩
    · intro r hr
      rcases List.mem_cons.mp hr with rfl | hr
      · exact hraw
      · exact hfits r hr
    · rw [Drained.behind, wireForm_append, List.append_assoc, hrest]
      simp
  | case2 bs len max hcut => simp
  | case3 bs hcut => simp

/-- More octets only add to the frames. -/
theorem drain_frames_prefix (maxBody : Nat) (bs more : Bytes) :
    (drain maxBody bs).frames <+: (drain maxBody (bs ++ more)).frames := by
  obtain ⟨hfits, hbs⟩ := drain_conserves maxBody bs
  have hmore : drain maxBody (bs ++ more) =
      (drain maxBody ((drain maxBody bs).rest ++ more)).behind (drain maxBody bs).frames := by
    rw [← drain_wireForm_append hfits, ← List.append_assoc, hbs]
  rw [hmore]
  exact List.prefix_append _ _

end Drain

end Parley
