import Mathlib.Tactic.Lemma
import Parley.Proofs.Wire.Bodies

/-!
# Decoding undoes encoding

A frame is encoded to a header that states the length of the body, and the body (`encode_cases`).
What is read back is the frame as far as its version lets it travel: `Frame.norm`.
-/

namespace Parley

namespace Writing

/-- A writing that succeeds and appends the same octets to every buffer. -/
def Writes (w : Writing Unit) (bs : Bytes) : Prop :=
  ∀ buffer, w.runOn buffer = (.ok (), buffer ++ bs)

/-- A writing that fails on every buffer, and keeps what the buffer held. -/
def Refuses (w : Writing Unit) (e : Error) : Prop :=
  ∀ buffer, ∃ more, w.runOn buffer = (.error e, buffer ++ more)

lemma writes_append (bs : Bytes) : (append bs).Writes bs := fun _ => rfl

lemma refuses_throw (e : Error) : (throw e : Writing Unit).Refuses e :=
  fun buffer => ⟨[], by rw [List.append_nil]; rfl⟩

lemma Writes.unique {w : Writing Unit} {bs bs' : Bytes} (h : w.Writes bs) (h' : w.Writes bs') :
    bs = bs' := by
  have heq := (h []).symm.trans (h' [])
  simpa using heq

lemma Writes.not_refuses {w : Writing Unit} {bs : Bytes} {e : Error} (h : w.Writes bs) :
    ¬ w.Refuses e := by
  intro h'
  obtain ⟨more, heq⟩ := h' []
  rw [h []] at heq
  cases heq

lemma runOn_bind (w : Writing Unit) (k : Unit → Writing Unit) (buffer : Bytes) :
    (w >>= k).runOn buffer = match w.runOn buffer with
      | (.ok (), written) => (k ()).runOn written
      | (.error e, written) => (.error e, written) := by
  simp only [runOn, ExceptT.run_bind, StateT.run_bind]
  generalize (w.run).run buffer = result
  obtain ⟨result, written⟩ := result
  cases result <;> rfl

lemma Writes.bind {w : Writing Unit} {k : Unit → Writing Unit} {bs bs' : Bytes}
    (h : w.Writes bs) (h' : (k ()).Writes bs') : (w >>= k).Writes (bs ++ bs') := by
  intro buffer
  rw [runOn_bind, h buffer]
  simp only [h' (buffer ++ bs), List.append_assoc]

lemma Writes.bind_refuses {w : Writing Unit} {k : Unit → Writing Unit} {bs : Bytes} {e : Error}
    (h : w.Writes bs) (h' : (k ()).Refuses e) : (w >>= k).Refuses e := by
  intro buffer
  obtain ⟨more, hmore⟩ := h' (buffer ++ bs)
  exact ⟨bs ++ more, by rw [runOn_bind, h buffer]; simp only [hmore, List.append_assoc]⟩

lemma Refuses.bind {w : Writing Unit} {k : Unit → Writing Unit} {e : Error}
    (h : w.Refuses e) : (w >>= k).Refuses e := by
  intro buffer
  obtain ⟨more, hmore⟩ := h buffer
  exact ⟨more, by rw [runOn_bind, hmore]⟩

end Writing

open Writing

namespace AuthToken

def field (s : String) : Bytes := UInt8.ofNat (Bytes.ofString s).length :: Bytes.ofString s

lemma writeField_cases (name s : String) :
    ((Bytes.ofString s).length ≤ maxField ∧ (writeField name s).Writes (field s)) ∨
      (maxField < (Bytes.ofString s).length ∧
        (writeField name s).Refuses (.authFieldTooLong name (Bytes.ofString s).length)) := by
  rcases Nat.lt_or_ge maxField (Bytes.ofString s).length with h | h
  · right
    rw [writeField, if_neg (by omega)]
    exact ⟨h, refuses_throw _⟩
  · left
    rw [writeField, if_pos h]
    exact ⟨h, writes_append _⟩

lemma write_cases (a : AuthToken) :
    ((Bytes.ofString a.token).length ≤ maxField ∧ (Bytes.ofString a.deviceId).length ≤ maxField ∧
      a.write.Writes (a.platformId :: (field a.token ++ field a.deviceId))) ∨
      ∃ name s, (name = "token" ∧ s = a.token ∨ name = "device_id" ∧ s = a.deviceId) ∧
        maxField < (Bytes.ofString s).length ∧
        a.write.Refuses (.authFieldTooLong name (Bytes.ofString s).length) := by
  have hplatform : (append [a.platformId]).Writes [a.platformId] := writes_append _
  rcases writeField_cases "token" a.token with ⟨htoken, hw⟩ | ⟨hlong, hw⟩
  · rcases writeField_cases "device_id" a.deviceId with ⟨hdevice, hw'⟩ | ⟨hlong, hw'⟩
    · exact .inl ⟨htoken, hdevice, hplatform.bind (hw.bind hw')⟩
    · exact .inr ⟨_, _, .inr ⟨rfl, rfl⟩, hlong, hplatform.bind_refuses (hw.bind_refuses hw')⟩
  · exact .inr ⟨_, _, .inl ⟨rfl, rfl⟩, hlong, hplatform.bind_refuses hw.bind⟩

end AuthToken

def Subscription.octets (s : Subscription) : Bytes :=
  Bytes.ofInt32 (Int32.ofNat s.uids.length) ++ s.uids.flatMap Bytes.ofInt64

lemma Subscription.write_cases (s : Subscription) :
    (s.uids.length ≤ maxUids ∧ s.write.Writes s.octets) ∨
      (maxUids < s.uids.length ∧
        s.write.Refuses (.malformed "subscribe_presence" .tooManyUids)) := by
  rcases Nat.lt_or_ge maxUids s.uids.length with h | h
  · right
    rw [write, if_neg (by omega)]
    exact ⟨h, refuses_throw _⟩
  · left
    rw [write, if_pos h]
    exact ⟨h, writes_append _⟩

namespace Message

/-- A body is written in whole, or refused for a cause that is not the transport's. -/
theorem write_cases (version : UInt8) (m : Message) :
    (∃ body, (m.write version).Writes body) ∨
      ∃ e, e.isTransport = false ∧ (m.write version).Refuses e := by
  cases m with
  | authToken auth =>
    rcases auth.write_cases with ⟨-, -, h⟩ | ⟨name, field, -, -, h⟩
    · exact .inl ⟨_, h⟩
    · exact .inr ⟨_, rfl, h⟩
  | subscribePresence s =>
    rcases s.write_cases with ⟨-, h⟩ | ⟨-, h⟩
    · exact .inl ⟨_, h⟩
    · exact .inr ⟨_, rfl, h⟩
  | signal kind => exact .inl ⟨[], fun buffer => by rw [List.append_nil]; rfl⟩
  | _ => exact .inl ⟨_, writes_append _⟩

end Message

namespace Frame

/-- What becomes of a frame that is appended to a buffer: it goes in whole behind a header that
states the length of its body; or its body is too long for a header; or its body is refused, and the
buffer is left as it was. -/
theorem encodeInto_cases (f : Frame) :
    (∃ body, (f.message.write f.version).Writes body ∧ body.length ≤ maxBodyLen ∧
      ∀ buffer, f.encodeInto buffer = (.ok (), buffer ++ ((f.header body.length).encode ++ body))) ∨
    (∃ body, (f.message.write f.version).Writes body ∧ maxBodyLen < body.length ∧
      ∀ buffer, f.encodeInto buffer = (.error (.frameTooLarge body.length maxBodyLen),
        buffer ++ (List.replicate Header.size 0 ++ body))) ∨
    (∃ e, e.isTransport = false ∧ (f.message.write f.version).Refuses e ∧
      ∀ buffer, f.encodeInto buffer = (.error e, buffer)) := by
  rcases f.message.write_cases f.version with ⟨body, hbody⟩ | ⟨e, htransport, he⟩
  · have hdrop : ∀ buffer : Bytes, (buffer ++ List.replicate Header.size 0 ++ body).drop
        (buffer.length + Header.size) = body :=
      fun buffer => List.drop_left' (by simp)
    have htake : ∀ buffer : Bytes, (buffer ++ List.replicate Header.size 0 ++ body).take
        buffer.length = buffer := by
      intro buffer
      rw [List.append_assoc, List.take_left]
    rcases Nat.lt_or_ge maxBodyLen body.length with hlong | hfits
    · refine .inr (.inl ⟨body, hbody, hlong, fun buffer => ?_⟩)
      simp only [encodeInto, hbody _, hdrop, if_pos hlong]
      rw [List.append_assoc]
    · refine .inl ⟨body, hbody, hfits, fun buffer => ?_⟩
      have hfits' : ¬ maxBodyLen < body.length := by omega
      simp only [encodeInto, hbody _, hdrop, htake, if_neg hfits']
      rw [List.append_assoc]
  · refine .inr (.inr ⟨e, htransport, he, fun buffer => ?_⟩)
    obtain ⟨more, hmore⟩ := he (buffer ++ List.replicate Header.size 0)
    simp only [encodeInto, hmore]
    rw [List.append_assoc, List.take_left]

/-- The octets of a frame are its header, which states the length of the body, and the body. -/
theorem encode_eq_ok_iff {f : Frame} {bs : Bytes} :
    f.encode = .ok bs ↔ ∃ body, (f.message.write f.version).Writes body ∧
      body.length ≤ maxBodyLen ∧ bs = (f.header body.length).encode ++ body := by
  rcases f.encodeInto_cases with ⟨body, hbody, hfits, hinto⟩ | ⟨body, hbody, hlong, hinto⟩ |
    ⟨e, -, he, hinto⟩
  · simp only [encode, hinto, List.nil_append, Except.ok.injEq]
    constructor
    · rintro rfl
      exact ⟨body, hbody, hfits, rfl⟩
    · rintro ⟨body', hbody', -, rfl⟩
      rw [hbody.unique hbody']
  · simp only [encode, hinto, reduceCtorEq, false_iff]
    rintro ⟨body', hbody', hfits, -⟩
    rw [hbody.unique hbody'] at hlong
    omega
  · simp only [encode, hinto, reduceCtorEq, false_iff]
    rintro ⟨body', hbody', -, -⟩
    exact hbody'.not_refuses he

lemma encode_of_refuses {f : Frame} {e : Error} (h : (f.message.write f.version).Refuses e) :
    f.encode = .error e := by
  obtain ⟨more, hmore⟩ := h ([] ++ List.replicate Header.size 0)
  simp only [encode, encodeInto, hmore]

lemma ne_connectionClosed_of_encode {f : Frame} {e : Error} (h : f.encode = .error e) :
    e ≠ .connectionClosed := by
  rintro rfl
  rcases f.encodeInto_cases with ⟨body, hbody, hfits, hinto⟩ | ⟨body, hbody, hlong, hinto⟩ |
    ⟨e, htransport, he, hinto⟩
  · simp [encode, hinto] at h
  · simp [encode, hinto] at h
  · simp only [encode, hinto, Except.error.injEq] at h
    subst h
    cases htransport

end Frame

/-- A message as it reads behind a header with a version, sent with given flags: what the version
does not carry reads as zero, and a customer's message is persistent when neither it nor the flags
say otherwise. -/
def Message.norm (version : UInt8) (flags : Flags) : Message → Message
  | .chat audience m =>
    .chat audience { m with timestamp := if version = 0 then 0 else m.timestamp }
  | .ack a => .ack { a with status := if version ≤ 1 then 0 else a.status }
  | .customer desk m =>
    .customer desk { m with persistent := m.persistent && !flags.has Flags.unpersistent }
  | m => m

def Frame.norm (f : Frame) : Frame :=
  { f with
    flags := f.flags ||| f.message.impliedFlags
    message := f.message.norm f.version f.flags }

lemma Flags.has_or_self (flags bits : Flags) (h : bits ≠ 0) :
    Flags.has (flags ||| bits) bits = true := by
  have habsorb : (flags ||| bits) &&& bits = bits := by
    apply UInt8.toBitVec_inj.mp
    ext i hi
    simp only [UInt8.toBitVec_and, UInt8.toBitVec_or, BitVec.getElem_and, BitVec.getElem_or]
    exact Bool.and_eq_right_iff_imp.mpr fun hbit => by rw [hbit, Bool.or_true]
  simp [Flags.has, habsorb, h]

lemma Flags.persistent_eq (flags : Flags) (persistent : Bool) :
    (!Flags.has (flags ||| if persistent then 0 else Flags.unpersistent) Flags.unpersistent) =
      (persistent && !flags.has Flags.unpersistent) := by
  cases persistent with
  | true => simp
  | false => simp [Flags.has_or_self _ _ (by decide : Flags.unpersistent ≠ 0)]

namespace Message

lemma runOn_of_run {α : Type} {r : Reading α} {command : String} {body rest : Bytes} {a : α}
    (h : r.run body = .ok (a, rest)) : r.runOn command body = .ok a := by
  rw [Reading.runOn, h]

lemma run_return {α β : Type} {r : Reading α} {body rest : Bytes} {a : α} (f : α → β)
    (h : r.run body = .ok (a, rest)) :
    (do return f (← r) : Reading β).run body = .ok (f a, rest) := by
  rw [StateT.run_bind, h]
  rfl

lemma read_of_writes {version : UInt8} {m : Message} {body : Bytes} {c : Command} (flags : Flags)
    (hbody : (m.write version).Writes body) (hc : m.command? = some c) :
    ∃ rest, (read version (flags ||| m.impliedFlags) c).run body =
      .ok (m.norm version flags, rest) := by
  cases m with
  | unknown cmd bs => cases hc
  | signal kind =>
    obtain rfl := Option.some.inj hc
    exact ⟨body, rfl⟩
  | authToken auth =>
    obtain rfl := Option.some.inj hc
    rcases auth.write_cases with ⟨htoken, hdevice, h⟩ | ⟨name, field, -, -, h⟩
    · have hread := AuthToken.run_read [] auth htoken hdevice
      rw [List.append_nil] at hread
      rw [hbody.unique h]
      exact ⟨_, run_return authToken hread⟩
    · exact absurd h hbody.not_refuses
  | subscribePresence s =>
    obtain rfl := Option.some.inj hc
    rcases s.write_cases with ⟨hlen, h⟩ | ⟨-, h⟩
    · have hread := Subscription.run_read [] s hlen
      rw [List.append_nil] at hread
      rw [hbody.unique h]
      exact ⟨_, run_return subscribePresence hread⟩
    · exact absurd h hbody.not_refuses
  | authStatus status =>
    obtain rfl := Option.some.inj hc
    rw [hbody.unique (writes_append _), ← List.append_nil (Bytes.ofInt32 status)]
    refine ⟨[], ?_⟩
    rw [read, Reading.run_need_bind _ (by simp)]
    exact run_return authStatus (Reading.run_int32 [] status)
  | unreadCount count =>
    obtain rfl := Option.some.inj hc
    rw [hbody.unique (writes_append _), ← List.append_nil (Bytes.ofInt32 count)]
    refine ⟨[], ?_⟩
    rw [read, Reading.run_need_bind _ (by simp)]
    exact run_return unreadCount (Reading.run_int32 [] count)
  | room passage id =>
    obtain rfl := Option.some.inj hc
    rw [hbody.unique (writes_append _), ← List.append_nil (Bytes.ofInt64 id)]
    refine ⟨[], ?_⟩
    rw [read, Reading.run_need_bind _ (by simp)]
    exact run_return (room passage) (Reading.run_int64 [] id)
  | chat audience m =>
    obtain rfl := Option.some.inj hc
    rw [hbody.unique (writes_append _)]
    exact ⟨_, run_return (chat audience) (ChatMessage.run_read version m)⟩
  | ack a =>
    obtain rfl := Option.some.inj hc
    rw [hbody.unique (writes_append _)]
    exact ⟨_, run_return ack (Ack.run_read version a)⟩
  | notice kind bs =>
    obtain rfl := Option.some.inj hc
    rw [hbody.unique (writes_append _)]
    exact ⟨_, run_return (notice kind) (Reading.run_rest bs)⟩
  | peerAck p =>
    obtain rfl := Option.some.inj hc
    rw [hbody.unique (writes_append _), ← List.append_nil p.encode]
    exact ⟨_, run_return peerAck (PeerAck.run_read [] p)⟩
  | typing t =>
    obtain rfl := Option.some.inj hc
    rw [hbody.unique (writes_append _), ← List.append_nil t.encode]
    exact ⟨_, run_return typing (Typing.run_read [] t)⟩
  | presenceUpdate p =>
    obtain rfl := Option.some.inj hc
    rw [hbody.unique (writes_append _), ← List.append_nil p.encode]
    exact ⟨_, run_return presenceUpdate (Presence.run_read [] p)⟩
  | loginPoint l =>
    obtain rfl := Option.some.inj hc
    rw [hbody.unique (writes_append _)]
    exact ⟨_, run_return loginPoint (LoginPoint.run_read l)⟩
  | transient venue m =>
    obtain rfl := Option.some.inj hc
    rw [hbody.unique (writes_append _)]
    exact ⟨_, run_return (transient venue) (TransientMessage.run_read m)⟩
  | customer desk m =>
    obtain rfl := Option.some.inj hc
    have hnorm : (customer desk m).norm version flags = customer desk { m with
        persistent :=
          !Flags.has (flags ||| (customer desk m).impliedFlags) Flags.unpersistent } := by
      rw [norm, impliedFlags, Flags.persistent_eq]
    rw [hbody.unique (writes_append _), hnorm]
    exact ⟨_, run_return (customer desk) (CustomerMessage.run_read _ m)⟩
  | sync verb point =>
    obtain rfl := Option.some.inj hc
    rw [hbody.unique (writes_append _), ← List.append_nil point.encode]
    exact ⟨_, run_return (sync verb) (SyncPoint.run_read [] point)⟩
  | metadata m =>
    obtain rfl := Option.some.inj hc
    rw [hbody.unique (writes_append _), ← List.append_nil m.encode]
    exact ⟨_, run_return metadata (Metadata.run_read [] m)⟩

lemma cmd_of_command? {m : Message} {c : Command} (h : m.command? = some c) : m.cmd = c.code := by
  unfold cmd
  split
  · cases h
  · rename_i hc
    rw [h] at hc
    rw [Option.some.inj hc]
  · rename_i hc
    rw [h] at hc
    cases hc

/-- A message is decoded from what was written, under the flags that it adds itself. -/
theorem decode_of_writes {version : UInt8} {m : Message} {body : Bytes} (flags : Flags)
    (hbody : (m.write version).Writes body)
    (hunknown : ∀ cmd bs, m = .unknown cmd bs → Command.ofCode? cmd = none) :
    Message.decode m.cmd version (flags ||| m.impliedFlags) body = .ok (m.norm version flags) := by
  cases hc : m.command? with
  | some c =>
    obtain ⟨rest, hread⟩ := read_of_writes flags hbody hc
    rw [Message.decode, cmd_of_command? hc, Command.ofCode?_code]
    exact runOn_of_run hread
  | none =>
    cases m with
    | unknown cmd bs =>
      rw [hbody.unique (writes_append bs), Message.decode, Message.cmd, hunknown cmd bs rfl]
      rfl
    | _ => cases hc

end Message

namespace Frame

lemma toNat_bodyLen_header (f : Frame) {n : Nat} (h : n ≤ maxBodyLen) :
    (f.header n).bodyLen.toNat = n := by
  have hlt : n < UInt32.size := by
    rw [maxBodyLen] at h
    simpa [UInt32.size] using Nat.lt_succ_of_le h
  exact UInt32.toNat_ofNat_of_lt' hlt

/-- Decoding undoes encoding, whatever follows the frame: a frame that can be encoded is read back
as its version and flags let it travel, and its header states how many octets follow it. An unknown
command must not be one of the table. -/
theorem decode_of_encode_append (f : Frame) (bs rest : Bytes) (hencode : f.encode = .ok bs)
    (hunknown : ∀ cmd body, f.message = .unknown cmd body → Command.ofCode? cmd = none) :
    Frame.decode (bs ++ rest) = .ok f.norm ∧
      ∃ header body, bs = header.encode ++ body ∧ Header.decode bs = .ok header ∧
        header.bodyLen.toNat = body.length := by
  obtain ⟨body, hbody, hfits, rfl⟩ := encode_eq_ok_iff.mp hencode
  have hlen := f.toNat_bodyLen_header hfits
  constructor
  · have hdrop : ((f.header body.length).encode ++ (body ++ rest)).drop Header.size =
        body ++ rest := List.drop_left' (Header.length_encode _)
    have hread : Message.decode f.message.cmd f.version (f.flags ||| f.message.impliedFlags) body =
        .ok (f.message.norm f.version f.flags) := Message.decode_of_writes f.flags hbody hunknown
    rw [List.append_assoc, Frame.decode, Header.decode_encode_append, ok_bind, hdrop]
    simp only [hlen, List.take_left, if_neg (Nat.lt_irrefl _), RawFrame.decode]
    simp only [header, hread, ok_bind]
    rfl
  · exact ⟨_, body, rfl, Header.decode_encode_append _ body, hlen⟩

/-- A frame of a command that the table lacks, with an octet behind it. -/
theorem decode_of_encode_append_unknown :
    Frame.encode { seq := -1, flags := 0x10, message := .unknown 0xee [7] } =
        .ok [0, 0, 0, 1, 255, 255, 255, 255, 0xee, 2, 0x10, 0, 7] ∧
      Frame.decode ([0, 0, 0, 1, 255, 255, 255, 255, 0xee, 2, 0x10, 0, 7] ++ [9]) =
        .ok { seq := -1, flags := 0x10, message := .unknown 0xee [7] } := by
  have hencode : Frame.encode { seq := -1, flags := 0x10, message := .unknown 0xee [7] } =
      .ok [0, 0, 0, 1, 255, 255, 255, 255, 0xee, 2, 0x10, 0, 7] := rfl
  refine ⟨hencode, (decode_of_encode_append _ _ [9] hencode ?_).1⟩
  rintro cmd body hcmd
  cases hcmd
  decide

end Frame

end Parley
