import Mathlib.Tactic
import Parley.Proofs.Wire.Bodies
import Parley.Wire.Message

/-!
# Which bodies can be read

`Command.Accepts` says without a reader which bodies have the layout of a command. A reading
`Decides` a set of bodies when it reads those and refuses all others: no read goes past the end of a
body, whatever it holds. Main statement: `Message.decode_ok_iff_accepts`.
-/

namespace Parley

/-- Octets that spell characters, one after another. -/
def Utf8.IsText (bs : Bytes) : Prop := ∃ cs : List Char, bs = cs.flatMap String.utf8EncodeChar

/-- The bodies that have the layout of a command in a version of the protocol. -/
def Command.Accepts (version : UInt8) (body : Bytes) : Command → Prop
  | signal _ | notice _ => True
  | authStatus | unreadCount | ack => 4 ≤ body.length
  | chat _ => (if version = 0 then 20 else 24) ≤ body.length
  | peerAck => 20 ≤ body.length
  | typing | transient _ | sync _ true => 16 ≤ body.length
  | presenceUpdate => 12 ≤ body.length
  | room _ | sync _ false => 8 ≤ body.length
  | customer _ => 36 ≤ body.length
  | metadata => 32 ≤ body.length
  | loginPoint => ∃ front text, body = front ++ text ∧ front.length = 5 ∧ Utf8.IsText text
  | subscribePresence => ∃ (count : Int32) (uids : Bytes), body = Bytes.ofInt32 count ++ uids ∧
      0 ≤ count.toInt ∧ 8 * count.toInt ≤ uids.length
  | authToken => ∃ platform length length' token device rest,
      body = platform :: length :: (token ++ length' :: (device ++ rest)) ∧
        length.toNat = token.length ∧ length'.toNat = device.length ∧
          Utf8.IsText token ∧ Utf8.IsText device

lemma Utf8.isText_iff (bs : Bytes) : IsText bs ↔ (⟨bs.toArray⟩ : ByteArray).IsValidUTF8 := by
  constructor
  · rintro ⟨cs, rfl⟩
    exact ⟨cs, ByteArray.ext List.data_toByteArray.symm⟩
  · rintro ⟨cs, hcs⟩
    refine ⟨cs, ?_⟩
    have hlist := congrArg (fun b : ByteArray => b.data.toList) hcs
    simpa [List.utf8Encode] using hlist

lemma Utf8.decode_cases (bs : Bytes) :
    (IsText bs ∧ ∃ s, decode bs = .ok s) ∨ (¬ IsText bs ∧ ∃ fault, decode bs = .error fault) := by
  rw [isText_iff, decode, String.fromUTF8?]
  by_cases hvalid : (⟨bs.toArray⟩ : ByteArray).IsValidUTF8
  · left
    rw [dif_pos hvalid]
    exact ⟨hvalid, _, rfl⟩
  · right
    rw [dif_neg hvalid]
    exact ⟨hvalid, _, rfl⟩

namespace Reading

/-- A reading that takes so many octets off every body that has them. -/
def Takes {α : Type} (n : Nat) (r : Reading α) : Prop :=
  ∀ bs : Bytes, n ≤ bs.length → ∃ a, r.run bs = .ok (a, bs.drop n)

/-- A reading that reads every body of so many octets or more. -/
def Reads {α : Type} (n : Nat) (r : Reading α) : Prop :=
  ∀ bs : Bytes, n ≤ bs.length → ∃ a rest, r.run bs = .ok (a, rest)

/-- A reading that reads the bodies of a set and refuses all others. -/
def Decides {α : Type} (ok : Bytes → Prop) (r : Reading α) : Prop :=
  ∀ bs, (ok bs ∧ ∃ a rest, r.run bs = .ok (a, rest)) ∨
    (¬ ok bs ∧ ∃ fault, r.run bs = .error (.refused fault))

section
variable {α β : Type} {r : Reading α} {k : α → Reading β} {n m : Nat} {ok : Bytes → Prop}

lemma run_bind_error {bs : Bytes} {e : ReadFault} (h : r.run bs = .error e) :
    (r >>= k).run bs = .error e := by
  rw [StateT.run_bind, h]
  rfl

lemma run_bind_ok {bs left : Bytes} {a : α} (h : r.run bs = .ok (a, left)) :
    (r >>= k).run bs = (k a).run left := by
  rw [StateT.run_bind, h]
  rfl

lemma run_refuse (fault : BodyFault) (bs : Bytes) :
    (refuse fault : Reading α).run bs = .error (.refused fault) := rfl

lemma takes_take (n : Nat) : (take n).Takes n := by
  intro bs hlen
  refine ⟨bs.take n, ?_⟩
  have hfront : (bs.take n).length = n := by rw [List.length_take, Nat.min_eq_left hlen]
  have hrun := run_take (bs.drop n) hfront
  rwa [List.take_append_drop] at hrun

lemma takes_octet : octet.Takes 1 := by
  intro bs hlen
  obtain ⟨b, left, rfl⟩ := List.exists_cons_of_length_pos hlen
  exact ⟨b, rfl⟩

lemma Takes.reads (h : r.Takes n) : r.Reads n := by
  intro bs hlen
  obtain ⟨a, hrun⟩ := h bs hlen
  exact ⟨a, _, hrun⟩

lemma Takes.bind_pure (h : r.Takes n) (f : α → β) : (do return f (← r) : Reading β).Takes n := by
  intro bs hlen
  obtain ⟨a, hrun⟩ := h bs hlen
  exact ⟨f a, run_bind_ok hrun⟩

lemma Takes.bind (h : r.Takes n) (hk : ∀ a, (k a).Reads m) : (r >>= k).Reads (n + m) := by
  intro bs hlen
  obtain ⟨a, hrun⟩ := h bs (by omega)
  obtain ⟨b, rest, hrest⟩ := hk a (bs.drop n) (by rw [List.length_drop]; omega)
  exact ⟨b, rest, (run_bind_ok hrun).trans hrest⟩

lemma takes_int32 : int32.Takes 4 := (takes_take 4).bind_pure _

lemma takes_int64 : int64.Takes 8 := (takes_take 8).bind_pure _

lemma takes_int64s (n : Nat) : (int64s n).Takes (n * 8) := by
  induction n with
  | zero => exact fun bs _ => ⟨[], rfl⟩
  | succ n ih =>
    intro bs hlen
    obtain ⟨i, hi⟩ := takes_int64 bs (by omega)
    obtain ⟨is, his⟩ := ih (bs.drop 8) (by rw [List.length_drop]; omega)
    refine ⟨i :: is, ?_⟩
    rw [int64s, run_bind_ok hi, run_bind_ok his, List.drop_drop, Nat.succ_mul, Nat.add_comm]
    rfl

lemma reads_rest (f : Bytes → α) : (do return f (← rest) : Reading α).Reads 0 :=
  fun bs _ => ⟨f bs, [], rfl⟩

lemma run_need_of_lt {bs : Bytes} (h : bs.length < n) :
    (need n).run bs = .error (.refused (.tooShort n bs.length)) := by
  simp only [need, StateT.run_bind, run_remaining, ok_bind, if_pos h, run_refuse]

lemma decides_need {read : Unit → Reading α} (h : (read ()).Reads n) :
    (need n >>= read).Decides (n ≤ ·.length) := by
  intro bs
  by_cases hlen : n ≤ bs.length
  · left
    refine ⟨hlen, ?_⟩
    rw [run_need_bind bs hlen]
    exact h bs hlen
  · exact .inr ⟨hlen, _, run_bind_error (run_need_of_lt (Nat.lt_of_not_le hlen))⟩

lemma run_text_cases (field : String) (bs left : Bytes) :
    (Utf8.IsText bs ∧ ∃ s, (text field bs).run left = .ok (s, left)) ∨
      (¬ Utf8.IsText bs ∧ ∃ fault, (text field bs).run left = .error (.refused fault)) := by
  rw [text]
  rcases Utf8.decode_cases bs with ⟨htext, s, hs⟩ | ⟨htext, fault, hfault⟩
  · rw [hs]
    exact .inl ⟨htext, s, rfl⟩
  · rw [hfault]
    exact .inr ⟨htext, _, rfl⟩

lemma Decides.map (h : r.Decides ok) (f : α → β) : (do return f (← r) : Reading β).Decides ok := by
  intro bs
  rcases h bs with ⟨hok, a, rest, hrun⟩ | ⟨hok, fault, hrun⟩
  · exact .inl ⟨hok, f a, rest, run_bind_ok hrun⟩
  · exact .inr ⟨hok, fault, run_bind_error hrun⟩

lemma decides_of_reads (h : r.Reads 0) : r.Decides fun _ => True :=
  fun bs => .inl ⟨trivial, h bs (Nat.zero_le _)⟩

end

end Reading

open Reading

/-! ## Layouts of fixed width -/

lemma ChatMessage.decides_read (version : UInt8) :
    (read version).Decides ((if version = 0 then 20 else 24) ≤ ·.length) := by
  refine decides_need ?_
  by_cases hv : version = 0
  · simp only [hv, if_true]
    exact takes_int64.bind fun _ => takes_int64.bind fun _ =>
      (takes_int32.bind fun _ => reads_rest _ : Reads (4 + 0) _)
  · simp only [hv, if_false]
    exact takes_int64.bind fun _ => takes_int64.bind fun _ =>
      takes_int32.bind fun _ => takes_int32.bind fun _ => reads_rest _

lemma Ack.decides_read (version : UInt8) : (read version).Decides (4 ≤ ·.length) := by
  refine decides_need (takes_int32.bind fun seq => ?_ : Reads (4 + 0) _)
  intro bs _
  rw [run_bind_ok (run_remaining bs)]
  by_cases hstatus : version > 1 ∧ bs.length ≠ 0
  · obtain ⟨status, hrun⟩ := takes_octet.bind_pure UInt8.toInt8 bs (Nat.pos_of_ne_zero hstatus.2)
    refine ⟨⟨seq, status⟩, bs.drop 1, ?_⟩
    rw [if_pos hstatus]
    exact run_bind_ok hrun
  · refine ⟨⟨seq, 0⟩, bs, ?_⟩
    rw [if_neg hstatus]
    rfl

lemma PeerAck.decides_read : read.Decides (20 ≤ ·.length) :=
  decides_need (takes_int64.bind fun _ => takes_int64.bind fun _ =>
    (takes_int32.bind_pure _).reads)

lemma Typing.decides_read : read.Decides (16 ≤ ·.length) :=
  decides_need (takes_int64.bind fun _ => (takes_int64.bind_pure _).reads)

lemma Presence.decides_read : read.Decides (12 ≤ ·.length) :=
  decides_need (takes_int64.bind fun _ => (takes_int32.bind_pure _).reads)

lemma TransientMessage.decides_read : read.Decides (16 ≤ ·.length) :=
  decides_need (takes_int64.bind fun _ => takes_int64.bind fun _ => (reads_rest _ : Reads 0 _))

lemma CustomerMessage.decides_read (persistent : Bool) :
    (read persistent).Decides (36 ≤ ·.length) :=
  decides_need (takes_int64.bind fun _ => takes_int64.bind fun _ =>
    takes_int64.bind fun _ => takes_int64.bind fun _ =>
      (takes_int32.bind fun _ => reads_rest _ : Reads (4 + 0) _))

lemma SyncPoint.decides_read (grouped : Bool) :
    (read grouped).Decides ((if grouped then 16 else 8) ≤ ·.length) := by
  cases grouped with
  | true => exact decides_need (takes_int64.bind fun _ => (takes_int64.bind_pure _).reads)
  | false => exact decides_need (takes_int64.bind_pure _).reads

lemma Metadata.decides_read : read.Decides (32 ≤ ·.length) := by
  refine decides_need fun bs hlen => ?_
  have hkeys : Reads (8 + 8) (do
      let syncKey ← int64
      let prevSyncKey ← int64
      return ({ syncKey, prevSyncKey } : Metadata)) :=
    takes_int64.bind fun _ => (takes_int64.bind_pure _).reads
  exact hkeys bs (by omega)

/-! ## Layouts with texts and counters -/

lemma LoginPoint.decides_read : read.Decides fun body =>
    ∃ front text, body = front ++ text ∧ front.length = 5 ∧ Utf8.IsText text := by
  intro body
  by_cases hlen : 5 ≤ body.length
  · obtain ⟨upTimestamp, htimestamp⟩ := takes_int32 body (by omega)
    obtain ⟨platformId, hplatform⟩ := takes_octet (body.drop 4) (by rw [List.length_drop]; omega)
    rw [List.drop_drop] at hplatform
    have hread : read.run body = (do
        let deviceId ← text "device id" (body.drop 5)
        return { upTimestamp, platformId, deviceId } : Reading LoginPoint).run [] := by
      rw [read, run_need_bind body hlen, run_bind_ok htimestamp, run_bind_ok hplatform,
        run_bind_ok (run_rest _)]
    rw [hread]
    rcases run_text_cases "device id" (body.drop 5) [] with ⟨htext, s, hs⟩ | ⟨htext, _, hfault⟩
    · exact .inl ⟨⟨body.take 5, body.drop 5, (List.take_append_drop 5 body).symm,
        by rw [List.length_take]; omega, htext⟩, _, _, run_bind_ok hs⟩
    · refine .inr ⟨?_, _, run_bind_error hfault⟩
      rintro ⟨front, text, rfl, hfront, hspells⟩
      rw [List.drop_left' hfront] at htext
      exact htext hspells
  · refine .inr ⟨?_, _, run_bind_error (run_need_of_lt (Nat.lt_of_not_le hlen))⟩
    rintro ⟨front, text, rfl, hfront, -⟩
    rw [List.length_append] at hlen
    omega

lemma Subscription.decides_read : read.Decides fun body =>
    ∃ (count : Int32) (uids : Bytes), body = Bytes.ofInt32 count ++ uids ∧
      0 ≤ count.toInt ∧ 8 * count.toInt ≤ uids.length := by
  intro body
  by_cases hlen : 4 ≤ body.length
  · obtain ⟨count, uids, rfl⟩ : ∃ (count : Int32) (uids : Bytes),
        body = Bytes.ofInt32 count ++ uids := by
      have hfour : (body.take 4).length = 4 := by rw [List.length_take]; omega
      refine ⟨(UInt32.ofNat (Bytes.toNat (body.take 4))).toInt32, body.drop 4, ?_⟩
      rw [Bytes.ofInt32, UInt32.toUInt32_toInt32, ofUInt32_ofNat_toNat hfour,
        List.take_append_drop]
    have honly : ∀ (count' : Int32) (uids' : Bytes),
        Bytes.ofInt32 count ++ uids = Bytes.ofInt32 count' ++ uids' →
          count = count' ∧ uids = uids' := by
      intro count' uids' h
      have hleft := Reading.run_int32 uids count
      rw [h, Reading.run_int32] at hleft
      simpa [eq_comm] using hleft
    rw [read, run_need_bind _ hlen, run_bind_ok (run_int32 uids count)]
    by_cases hsign : count < 0
    · simp only [if_pos hsign]
      refine .inr ⟨?_, _, run_bind_error (run_refuse .negativeCount uids)⟩
      rintro ⟨count', uids', h, hnonneg, -⟩
      obtain ⟨rfl, rfl⟩ := honly count' uids' h
      rw [Int32.lt_iff_toInt_lt, Int32.toInt_zero] at hsign
      omega
    · simp only [if_neg hsign]
      have hnonneg : 0 ≤ count.toInt := by
        rw [Int32.lt_iff_toInt_lt, Int32.toInt_zero] at hsign
        omega
      have hdecides : Decides (count.toInt.toNat * 8 ≤ ·.length) (do
          need (count.toInt.toNat * 8)
          return ({ uids := ← int64s count.toInt.toNat } : Subscription)) :=
        decides_need ((takes_int64s count.toInt.toNat).bind_pure _).reads
      rcases hdecides uids with ⟨henough, hok⟩ | ⟨hshort, hfault⟩
      · exact .inl ⟨⟨count, uids, rfl, hnonneg, by omega⟩, hok⟩
      · refine .inr ⟨?_, hfault⟩
        rintro ⟨count', uids', h, -, henough⟩
        obtain ⟨rfl, rfl⟩ := honly count' uids' h
        omega
  · refine .inr ⟨?_, _, run_bind_error (run_need_of_lt (Nat.lt_of_not_le hlen))⟩
    rintro ⟨count, uids, rfl, -, -⟩
    rw [List.length_append, Bytes.length_ofInt32] at hlen
    omega

namespace AuthToken

/-- A length and a text of so many octets, followed by what is left. -/
def Counted (bs text left : Bytes) : Prop :=
  ∃ length : UInt8, bs = length :: (text ++ left) ∧ length.toNat = text.length ∧ Utf8.IsText text

variable {bs text left : Bytes}

lemma Counted.unique {text' left' : Bytes} (h : Counted bs text left)
    (h' : Counted bs text' left') : text = text' ∧ left = left' := by
  obtain ⟨length, rfl, hlength, -⟩ := h
  obtain ⟨length', hbs, hlength', -⟩ := h'
  obtain ⟨rfl, happend⟩ := List.cons.inj hbs
  exact List.append_inj happend (hlength.symm.trans hlength')

/-- A field is read with all its octets, or refused; the length is held against what is left. -/
lemma readField_cases (field : String) (bs : Bytes) :
    (∃ text left s, Counted bs text left ∧ (readField field).run bs = .ok (s, left)) ∨
      ((∀ text left, ¬ Counted bs text left) ∧
        ∃ fault, (readField field).run bs = .error (.refused fault)) := by
  match bs with
  | [] =>
    refine .inr ⟨?_, _, rfl⟩
    rintro text left ⟨length, hbs, -, -⟩
    exact List.cons_ne_nil _ _ hbs.symm
  | length :: bs =>
    have hread : (readField field).run (length :: bs) = (do
        if bs.length < length.toNat then refuse (.lengthBeyondEnd field length.toNat bs.length)
        Reading.text field (← take length.toNat) : Reading String).run bs := rfl
    rw [hread]
    by_cases hshort : bs.length < length.toNat
    · rw [if_pos hshort]
      refine .inr ⟨?_, _, run_bind_error (run_refuse _ bs)⟩
      rintro text left ⟨length', hbs, hlength, -⟩
      obtain ⟨rfl, rfl⟩ := List.cons.inj hbs
      rw [List.length_append] at hshort
      omega
    · have hlen : length.toNat ≤ bs.length := Nat.le_of_not_lt hshort
      have hfront : (bs.take length.toNat).length = length.toNat := by
        rw [List.length_take, Nat.min_eq_left hlen]
      have htake := run_take (bs.drop length.toNat) hfront
      rw [List.take_append_drop] at htake
      simp only [if_neg hshort, run_bind_ok htake]
      rcases run_text_cases field (bs.take length.toNat) (bs.drop length.toNat) with
        ⟨htext, s, hs⟩ | ⟨htext, hfault⟩
      · refine .inl ⟨_, _, s, ⟨length, ?_, hfront.symm, htext⟩, hs⟩
        rw [List.take_append_drop]
      · refine .inr ⟨?_, hfault⟩
        rintro text left ⟨length', hbs, hlength, hspells⟩
        obtain ⟨rfl, rfl⟩ := List.cons.inj hbs
        rw [List.take_left' hlength.symm] at htext
        exact htext hspells

lemma exists_counted_iff (platform : UInt8) (bs : Bytes) :
    (∃ platform' length length' token device rest,
      platform :: bs = platform' :: length :: (token ++ length' :: (device ++ rest)) ∧
        length.toNat = token.length ∧ length'.toNat = device.length ∧
          Utf8.IsText token ∧ Utf8.IsText device) ↔
      ∃ token left device rest, Counted bs token left ∧ Counted left device rest := by
  constructor
  · rintro ⟨_, length, length', token, device, rest, hbody, htoken, hdevice, hspells, hspells'⟩
    obtain ⟨rfl, rfl⟩ := List.cons.inj hbody
    exact ⟨token, _, device, rest, ⟨length, rfl, htoken, hspells⟩,
      ⟨length', rfl, hdevice, hspells'⟩⟩
  · rintro ⟨token, _, device, rest, ⟨length, rfl, htoken, hspells⟩,
      ⟨length', rfl, hdevice, hspells'⟩⟩
    exact ⟨platform, length, length', token, device, rest, rfl, htoken, hdevice, hspells, hspells'⟩

lemma decides_read : read.Decides fun body =>
    ∃ platform length length' token device rest,
      body = platform :: length :: (token ++ length' :: (device ++ rest)) ∧
        length.toNat = token.length ∧ length'.toNat = device.length ∧
          Utf8.IsText token ∧ Utf8.IsText device := by
  intro body
  by_cases hlen : body.length < 3
  -- A platform and two lengths are three octets.
  · refine .inr ⟨?_, .noRoomForToken, ?_⟩
    · rintro ⟨platform, length, length', token, device, rest, rfl, -⟩
      simp only [List.length_cons, List.length_append] at hlen
      omega
    · simp only [read, run_bind_ok (run_remaining body), if_pos hlen,
        run_bind_error (run_refuse .noRoomForToken body)]
  · obtain ⟨platform, bs, rfl⟩ : ∃ platform bs, body = platform :: bs :=
      List.exists_cons_of_length_pos (by omega)
    have hread : read.run (platform :: bs) = (do
        let token ← readField "token"
        let deviceId ← readField "device_id"
        return { platformId := platform, token, deviceId } : Reading AuthToken).run bs := by
      simp only [read, run_bind_ok (run_remaining _), if_neg hlen,
        run_bind_ok (run_octet bs platform)]
    simp only [hread, exists_counted_iff]
    rcases readField_cases "token" bs with
      ⟨token, left, tokenText, htoken, hrun⟩ | ⟨hnone, fault, hfault⟩
    · rw [run_bind_ok hrun]
      rcases readField_cases "device_id" left with
        ⟨device, rest, deviceText, hdevice, hrun'⟩ | ⟨hnone, fault, hfault⟩
      · exact .inl ⟨⟨token, left, device, rest, htoken, hdevice⟩, _, _, run_bind_ok hrun'⟩
      · refine .inr ⟨?_, _, run_bind_error hfault⟩
        rintro ⟨token', left', device, rest, htoken', hdevice⟩
        obtain ⟨-, rfl⟩ := htoken.unique htoken'
        exact hnone device rest hdevice
    · refine .inr ⟨?_, _, run_bind_error hfault⟩
      rintro ⟨token, left, _, _, htoken, -⟩
      exact hnone token left htoken

end AuthToken

/-! ## All commands -/

lemma Message.decides_read (version : UInt8) (flags : Flags) (c : Command) :
    (read version flags c).Decides fun body => c.Accepts version body := by
  cases c with
  | signal kind => exact decides_of_reads fun bs _ => ⟨_, bs, rfl⟩
  | notice kind => exact decides_of_reads (reads_rest _)
  | authToken => exact AuthToken.decides_read.map _
  | authStatus => exact decides_need (takes_int32.bind_pure _).reads
  | unreadCount => exact decides_need (takes_int32.bind_pure _).reads
  | room passage => exact decides_need (takes_int64.bind_pure _).reads
  | chat audience => exact (ChatMessage.decides_read version).map _
  | ack => exact (Ack.decides_read version).map _
  | peerAck => exact PeerAck.decides_read.map _
  | typing => exact Typing.decides_read.map _
  | subscribePresence => exact Subscription.decides_read.map _
  | presenceUpdate => exact Presence.decides_read.map _
  | loginPoint => exact LoginPoint.decides_read.map _
  | transient venue => exact TransientMessage.decides_read.map _
  | customer desk => exact (CustomerMessage.decides_read _).map _
  | metadata => exact Metadata.decides_read.map _
  | sync verb grouped =>
    cases grouped with
    | true => exact (SyncPoint.decides_read true).map _
    | false => exact (SyncPoint.decides_read false).map _

namespace Message

lemma decode_cases (cmd version : UInt8) (flags : Flags) (body : Bytes) :
    ((∀ c, Command.ofCode? cmd = some c → c.Accepts version body) ∧
        ∃ m, decode cmd version flags body = .ok m) ∨
      ∃ c fault, Command.ofCode? cmd = some c ∧ ¬ c.Accepts version body ∧
        decode cmd version flags body = .error (.malformed c.name fault) := by
  rw [decode]
  cases hcode : Command.ofCode? cmd with
  | none =>
    refine .inl ⟨?_, _, rfl⟩
    rintro _ ⟨⟩
  | some c =>
    rcases decides_read version flags c body with ⟨haccepts, m, rest, hrun⟩ | ⟨hnot, fault, hrun⟩
    · refine .inl ⟨?_, m, ?_⟩
      · rintro _ ⟨⟩
        exact haccepts
      · simp only [runOn, hrun]
    · refine .inr ⟨c, fault, rfl, hnot, ?_⟩
      simp only [runOn, hrun]

/-- A body is decoded exactly when it has the layout of its command, if the table has the command.
Every other body is malformed, and no read goes past the end of any body. -/
theorem decode_ok_iff_accepts (cmd version : UInt8) (flags : Flags) (body : Bytes) :
    ((∃ m, decode cmd version flags body = .ok m) ↔
        ∀ c, Command.ofCode? cmd = some c → c.Accepts version body) ∧
      (∀ e, decode cmd version flags body = .error e →
        (∃ c fault, Command.ofCode? cmd = some c ∧ e = .malformed c.name fault) ∧
          e.isTransport = false) ∧
      ∀ c, (read version flags c).run body ≠ .error .overrun := by
  refine ⟨?_, ?_, ?_⟩
  · rcases decode_cases cmd version flags body with ⟨hall, hok⟩ | ⟨c, fault, hcode, hnot, herror⟩
    · exact iff_of_true hok hall
    · refine iff_of_false ?_ fun hall => hnot (hall c hcode)
      rintro ⟨m, hm⟩
      rw [hm] at herror
      cases herror
  · intro e he
    rcases decode_cases cmd version flags body with ⟨-, m, hok⟩ | ⟨c, fault, hcode, -, herror⟩
    · rw [he] at hok
      cases hok
    · obtain rfl : e = .malformed c.name fault := by
        rw [he] at herror
        exact Except.error.inj herror
      exact ⟨⟨c, fault, hcode, rfl⟩, rfl⟩
  · intro c hoverrun
    rcases decides_read version flags c body with ⟨-, m, rest, hrun⟩ | ⟨-, fault, hrun⟩
    · rw [hrun] at hoverrun
      cases hoverrun
    · rw [hrun] at hoverrun
      cases hoverrun

end Message

end Parley
