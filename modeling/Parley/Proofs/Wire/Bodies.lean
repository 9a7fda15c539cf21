import Mathlib.Tactic.Lemma
import Parley.Proofs.Wire.Framing

/-!
# Bodies read back from their octets

Each reading primitive takes exactly the octets that its counterpart writes, so the reading of a
body, run on the octets of a value, finds that value. What a layout leaves alone behind its fields
stays there.
-/

namespace Parley

@[simp] lemma Bytes.length_ofInt64 (i : Int64) : (Bytes.ofInt64 i).length = 8 :=
  Bytes.length_ofNat 8 _

lemma ofNat_toNat_ofInt64 (i : Int64) :
    (UInt64.ofNat (Bytes.toNat (Bytes.ofInt64 i))).toInt64 = i := by
  have hlt : i.toUInt64.toNat < Bytes.bound 8 := i.toUInt64.toNat_lt
  rw [Bytes.ofInt64, Bytes.toNat_ofNat, Nat.mod_eq_of_lt hlt, UInt64.ofNat_toNat,
    Int64.toInt64_toUInt64]

lemma ofNat_toNat_ofInt32 (i : Int32) :
    (UInt32.ofNat (Bytes.toNat (Bytes.ofInt32 i))).toInt32 = i := by
  rw [Bytes.ofInt32, ofNat_toNat_ofUInt32, Int32.toInt32_toUInt32]

lemma decode_ofString (s : String) : Utf8.decode (Bytes.ofString s) = .ok s := by
  have hbytes : (⟨(Bytes.ofString s).toArray⟩ : ByteArray) = s.toByteArray := by
    simp [Bytes.ofString]
  rw [Utf8.decode, hbytes, String.fromUTF8?, dif_pos s.isValidUTF8]
  rfl

@[simp] lemma ok_bind {ε α β : Type} (a : α) (f : α → Except ε β) :
    (Except.ok a >>= f) = f a := rfl

@[simp] lemma ok_map {ε α β : Type} (f : α → β) (a : α) :
    f <$> (Except.ok a : Except ε α) = .ok (f a) := rfl

namespace Reading

section
variable (bs : Bytes)

@[simp] lemma run_pure {α : Type} (a : α) : (pure a : Reading α).run bs = .ok (a, bs) := rfl

@[simp] lemma run_remaining : remaining.run bs = .ok (bs.length, bs) := rfl

@[simp] lemma run_rest : rest.run bs = .ok (bs, []) := rfl

@[simp] lemma run_octet (b : UInt8) : octet.run (b :: bs) = .ok (b, bs) := rfl

@[simp] lemma run_int8 (b : UInt8) : int8.run (b :: bs) = .ok (b.toInt8, bs) := rfl

lemma run_need {n : Nat} (h : n ≤ bs.length) : (need n).run bs = .ok ((), bs) := by
  have hlt : ¬ bs.length < n := by omega
  simp only [need, StateT.run_bind, run_remaining, ok_bind, if_neg hlt]
  rfl

lemma run_need_bind {α : Type} {n : Nat} {read : Unit → Reading α} (h : n ≤ bs.length) :
    (need n >>= read).run bs = (read ()).run bs := by
  rw [StateT.run_bind, run_need bs h, ok_bind]

lemma run_take {n : Nat} {front : Bytes} (h : front.length = n) :
    (take n).run (front ++ bs) = .ok (front, bs) := by
  subst h
  simp [take, StateT.run_bind]
  rfl

@[simp] lemma run_int32 (i : Int32) : int32.run (Bytes.ofInt32 i ++ bs) = .ok (i, bs) := by
  rw [int32, StateT.run_bind, run_take bs (Bytes.length_ofInt32 i), ok_bind, ofNat_toNat_ofInt32]
  rfl

@[simp] lemma run_int64 (i : Int64) : int64.run (Bytes.ofInt64 i ++ bs) = .ok (i, bs) := by
  rw [int64, StateT.run_bind, run_take bs (Bytes.length_ofInt64 i), ok_bind, ofNat_toNat_ofInt64]
  rfl

@[simp] lemma run_text (field s : String) :
    (text field (Bytes.ofString s)).run bs = .ok (s, bs) := by
  rw [text, decode_ofString]
  rfl

lemma run_int64s (is : List Int64) :
    (int64s is.length).run (is.flatMap Bytes.ofInt64 ++ bs) = .ok (is, bs) := by
  induction is with
  | nil => rfl
  | cons i is ih =>
    rw [List.flatMap_cons, List.append_assoc, List.length_cons, int64s, StateT.run_bind, run_int64,
      ok_bind, StateT.run_bind, ih]
    rfl

end

end Reading

section Bodies
variable (rest : Bytes)

theorem ChatMessage.run_read (version : UInt8) (m : ChatMessage) :
    (read version).run (m.encode version) =
      .ok ({ m with timestamp := if version = 0 then 0 else m.timestamp }, []) := by
  rcases Decidable.em (version = 0) with hv | hv
  · rw [read, encode, Reading.run_need_bind _ (by simp [hv]; omega)]
    simp [hv]
  · rw [read, encode, Reading.run_need_bind _ (by simp [hv]; omega)]
    simp [hv]

/-- The status of a receipt travels from version 2 on. -/
theorem Ack.run_read (version : UInt8) (a : Ack) :
    (read version).run (a.encode version) =
      .ok ({ a with status := if version ≤ 1 then 0 else a.status }, []) := by
  rcases Decidable.em (version > 1) with hv | hv
  · have hv' : ¬ version ≤ 1 := UInt8.not_le.mpr hv
    rw [read, encode, Reading.run_need_bind _ (by simp)]
    simp [hv, hv']
  · have hv' : version ≤ 1 := UInt8.not_lt.mp hv
    have hread := Reading.run_int32 [] a.seq
    rw [List.append_nil] at hread
    rw [read, encode, Reading.run_need_bind _ (by simp [hv])]
    simp [hv, hv', hread]

theorem PeerAck.run_read (p : PeerAck) : read.run (p.encode ++ rest) = .ok (p, rest) := by
  rw [read, encode, Reading.run_need_bind _ (by simp; omega)]
  simp

theorem Typing.run_read (t : Typing) : read.run (t.encode ++ rest) = .ok (t, rest) := by
  rw [read, encode, Reading.run_need_bind _ (by simp; omega)]
  simp

theorem Presence.run_read (p : Presence) : read.run (p.encode ++ rest) = .ok (p, rest) := by
  rw [read, encode, Reading.run_need_bind _ (by simp; omega)]
  simp

theorem LoginPoint.run_read (l : LoginPoint) : read.run l.encode = .ok (l, []) := by
  rw [read, encode, Reading.run_need_bind _ (by simp; omega)]
  simp

theorem TransientMessage.run_read (m : TransientMessage) : read.run m.encode = .ok (m, []) := by
  rw [read, encode, Reading.run_need_bind _ (by simp; omega)]
  simp

/-- Whether a message is persistent is not read from its octets. -/
theorem CustomerMessage.run_read (persistent : Bool) (m : CustomerMessage) :
    (read persistent).run m.encode = .ok ({ m with persistent }, []) := by
  rw [read, encode, Reading.run_need_bind _ (by simp; omega)]
  simp

theorem SyncPoint.run_read (p : SyncPoint) :
    (read p.scope.group?.isSome).run (p.encode ++ rest) = .ok (p, rest) := by
  obtain ⟨scope, key⟩ := p
  cases scope with
  | direct =>
    simp only [read, encode, Scope.group?, Option.isSome_none, Bool.false_eq_true, if_false]
    rw [Reading.run_need_bind _ (by simp)]
    simp
  | group id =>
    simp only [read, encode, Scope.group?, Option.isSome_some, if_true]
    rw [Reading.run_need_bind _ (by simp; omega)]
    simp

/-- The padding is left alone, like what follows it. -/
theorem Metadata.run_read (m : Metadata) :
    read.run (m.encode ++ rest) = .ok (m, List.replicate padding 0 ++ rest) := by
  rw [read, encode, Reading.run_need_bind _ (by simp; omega)]
  simp

theorem Subscription.run_read (s : Subscription) (h : s.uids.length ≤ maxUids) :
    read.run (Bytes.ofInt32 (Int32.ofNat s.uids.length) ++ s.uids.flatMap Bytes.ofInt64 ++ rest) =
      .ok (s, rest) := by
  have hcount : (Int32.ofNat s.uids.length).toInt = s.uids.length :=
    Int32.toInt_ofNat_of_lt (by rw [maxUids] at h; omega)
  have hsign : ¬ Int32.ofNat s.uids.length < 0 := by
    rw [Int32.lt_iff_toInt_lt, hcount]
    simp
  have hlen : s.uids.length * 8 ≤ (s.uids.flatMap Bytes.ofInt64 ++ rest).length := by
    simp [List.length_flatMap, List.map_const']
  rw [read, List.append_assoc, Reading.run_need_bind _ (by simp),
    StateT.run_bind, Reading.run_int32, ok_bind]
  simp only [if_neg hsign, hcount, Int.toNat_natCast]
  rw [Reading.run_need_bind _ hlen, StateT.run_bind, Reading.run_int64s]
  rfl

theorem AuthToken.run_readField (field s : String) (h : (Bytes.ofString s).length ≤ maxField) :
    (readField field).run
      (UInt8.ofNat (Bytes.ofString s).length :: Bytes.ofString s ++ rest) = .ok (s, rest) := by
  have hlen : (UInt8.ofNat (Bytes.ofString s).length).toNat = (Bytes.ofString s).length := by
    rw [maxField] at h
    exact UInt8.toNat_ofNat_of_lt' (by simpa [UInt8.size] using Nat.lt_succ_of_le h)
  have hleft : ¬ (Bytes.ofString s ++ rest).length < (Bytes.ofString s).length := by simp
  rw [readField, StateT.run_bind, Reading.run_remaining, ok_bind]
  simp only [List.cons_append, List.length_cons, Nat.add_one_ne_zero, beq_iff_eq, if_false]
  rw [StateT.run_bind, Reading.run_octet, ok_bind, StateT.run_bind, Reading.run_remaining, ok_bind]
  simp only [hlen, if_neg hleft]
  rw [StateT.run_bind, Reading.run_take _ rfl, ok_bind, Reading.run_text]

theorem AuthToken.run_read (a : AuthToken) (htoken : (Bytes.ofString a.token).length ≤ maxField)
    (hdevice : (Bytes.ofString a.deviceId).length ≤ maxField) :
    read.run (a.platformId ::
      (UInt8.ofNat (Bytes.ofString a.token).length :: Bytes.ofString a.token ++
        (UInt8.ofNat (Bytes.ofString a.deviceId).length :: Bytes.ofString a.deviceId ++ rest))) =
      .ok (a, rest) := by
  have hlen : ¬ (a.platformId ::
      (UInt8.ofNat (Bytes.ofString a.token).length :: Bytes.ofString a.token ++
        (UInt8.ofNat (Bytes.ofString a.deviceId).length :: Bytes.ofString a.deviceId ++
          rest))).length < 3 := by
    simp
    omega
  rw [read, StateT.run_bind, Reading.run_remaining, ok_bind]
  simp only [if_neg hlen]
  rw [StateT.run_bind, Reading.run_octet, ok_bind, StateT.run_bind, run_readField _ _ _ htoken,
    ok_bind, StateT.run_bind, run_readField _ _ _ hdevice]
  rfl

end Bodies

end Parley
