import Mathlib.Tactic
import Parley.Proofs.Wire.Commands
import Parley.Proofs.Wire.Layouts
import Parley.Proofs.Wire.RoundTrip

/-!
# Encoding undoes decoding

What a reading finds, it finds at the front of a body, so a value that was read is written to the
octets it was read from (`Reading.Finds`). What reading passes over is lost: octets behind a layout,
padding, a receipt without its status. `Command.Canonical` says which bodies have nothing of that
kind. Main statement: `Frame.reencode_of_decode`.
-/

namespace Parley

/-- The bodies that have nothing beside what the layout of a command reads from them. -/
def Command.Canonical (version : UInt8) (body : Bytes) : Command → Prop
  | signal _ => body = []
  | authStatus | unreadCount => body.length = 4
  | ack => body.length = if version > 1 then 5 else 4
  | peerAck => body.length = 20
  | typing | sync _ true => body.length = 16
  | presenceUpdate => body.length = 12
  | room _ | sync _ false => body.length = 8
  | metadata => body.drop 16 = List.replicate Metadata.padding 0
  | authToken => ∃ platform length length' token device,
      body = platform :: length :: (token ++ length' :: device) ∧
        length.toNat = token.length ∧ length'.toNat = device.length
  | subscribePresence => ∃ (count : Int32) (uids : Bytes), body = Bytes.ofInt32 count ++ uids ∧
      uids.length = 8 * count.toInt
  | chat _ | notice _ | loginPoint | transient _ | customer _ => True

lemma ofInt32_ofNat_toNat {bs : Bytes} (h : bs.length = 4) :
    Bytes.ofInt32 (UInt32.ofNat (Bytes.toNat bs)).toInt32 = bs := by
  rw [Bytes.ofInt32, UInt32.toUInt32_toInt32, ofUInt32_ofNat_toNat h]

lemma ofInt64_ofNat_toNat {bs : Bytes} (h : bs.length = 8) :
    Bytes.ofInt64 (UInt64.ofNat (Bytes.toNat bs)).toInt64 = bs := by
  have hlt := Bytes.toNat_lt bs
  rw [h] at hlt
  rw [Bytes.ofInt64, UInt64.toUInt64_toInt64, UInt64.toNat_ofNat_of_lt' hlt, ← h,
    Bytes.ofNat_toNat]

lemma Utf8.ofString_of_decode {bs : Bytes} {s : String} (h : decode bs = .ok s) :
    Bytes.ofString s = bs := by
  unfold decode String.fromUTF8? at h
  split at h
  · rename_i s' hs
    split at hs
    · obtain rfl := Option.some.inj hs
      obtain rfl := Except.ok.inj h
      rfl
    · cases hs
  · cases h

namespace Reading
variable {α β : Type} {r : Reading α} {k : α → Reading β} {body left front : Bytes}

lemma run_need_eq_ok {n : Nat} {u : Unit} (h : (need n).run body = .ok (u, left)) :
    left = body := by
  by_cases hlen : n ≤ body.length
  · rw [run_need body hlen] at h
    cases h
    rfl
  · rw [run_need_of_lt (Nat.lt_of_not_le hlen)] at h
    cases h

lemma run_take_eq_ok {n : Nat} {bs : Bytes} (h : (take n).run body = .ok (bs, left)) :
    body = bs ++ left ∧ bs.length = n := by
  by_cases hlen : n ≤ body.length
  · have hfront : (body.take n).length = n := by rw [List.length_take, Nat.min_eq_left hlen]
    have hrun := run_take (body.drop n) hfront
    rw [List.take_append_drop, h] at hrun
    cases hrun
    exact ⟨(List.take_append_drop n body).symm, hfront⟩
  · have hshort : (body.take n).length < n := by rw [List.length_take]; omega
    have hrun : (take n).run body = .error .overrun := by
      simp only [take, StateT.run_bind, StateT.run_get, pure_bind, if_pos hshort]
      rfl
    rw [hrun] at h
    cases h

lemma run_text_eq_ok {field s : String} {bs : Bytes}
    (h : (text field bs).run body = .ok (s, left)) : Bytes.ofString s = bs ∧ left = body := by
  unfold text at h
  cases hdecode : Utf8.decode bs with
  | error fault =>
    rw [hdecode] at h
    cases h
  | ok s' =>
    rw [hdecode] at h
    cases h
    exact ⟨Utf8.ofString_of_decode hdecode, rfl⟩

lemma run_return_eq_ok {f : α → β} {b : β}
    (h : (do return f (← r) : Reading β).run body = .ok (b, left)) :
    ∃ a, r.run body = .ok (a, left) ∧ b = f a := by
  obtain ⟨a, behind, hr, hpure⟩ := run_bind_eq_ok h
  cases hpure
  exact ⟨a, hr, rfl⟩

lemma run_need_return_eq_ok {n : Nat} {f : α → β} {b : β}
    (h : (do need n; return f (← r) : Reading β).run body = .ok (b, left)) :
    ∃ a, r.run body = .ok (a, left) ∧ b = f a := by
  obtain ⟨_, behind, hneed, hreturn⟩ := run_bind_eq_ok h
  obtain rfl := run_need_eq_ok hneed
  exact run_return_eq_ok hreturn

/-- Behind octets that were read already, a reading finds a value; those octets and its body are
the whole that belongs to the value and to what is left. -/
def Finds (front : Bytes) (r : Reading α) (whole : α → Bytes → Bytes) : Prop :=
  ∀ body a left, r.run body = .ok (a, left) → front ++ body = whole a left

section
variable {whole : β → Bytes → Bytes}

lemma Finds.bind {octets : α → Bytes} (h : r.Finds [] fun a left => octets a ++ left)
    (hk : ∀ a, (k a).Finds (front ++ octets a) whole) : (r >>= k).Finds front whole := by
  intro body b left hrun
  obtain ⟨a, behind, hr, hrest⟩ := run_bind_eq_ok hrun
  obtain rfl := h body a behind hr
  rw [← List.append_assoc]
  exact hk a behind b left hrest

lemma Finds.need {read : Unit → Reading β} {n : Nat} (h : (read ()).Finds front whole) :
    (need n >>= read).Finds front whole := by
  intro body b left hrun
  obtain ⟨u, behind, hneed, hrest⟩ := run_bind_eq_ok hrun
  obtain rfl := run_need_eq_ok hneed
  exact h behind b left hrest

lemma finds_pure {b : β} (h : ∀ left, front ++ left = whole b left) :
    (pure b : Reading β).Finds front whole := by
  rintro body _ left ⟨⟩
  exact h body

lemma finds_rest {f : Bytes → β} (h : ∀ bs, front ++ bs = whole (f bs) []) :
    (do return f (← rest) : Reading β).Finds front whole := by
  rintro body _ left ⟨⟩
  exact h body

end

lemma finds_octet : octet.Finds [] fun b left => [b] ++ left := by
  intro body b left h
  cases body with
  | nil => cases h
  | cons b' body =>
    cases h
    rfl

lemma finds_int32 : int32.Finds [] fun i left => Bytes.ofInt32 i ++ left := by
  intro body i left h
  obtain ⟨bs, behind, htake, hpure⟩ := run_bind_eq_ok h
  obtain ⟨rfl, hlen⟩ := run_take_eq_ok htake
  cases hpure
  exact congrArg (· ++ left) (ofInt32_ofNat_toNat hlen).symm

lemma finds_int64 : int64.Finds [] fun i left => Bytes.ofInt64 i ++ left := by
  intro body i left h
  obtain ⟨bs, behind, htake, hpure⟩ := run_bind_eq_ok h
  obtain ⟨rfl, hlen⟩ := run_take_eq_ok htake
  cases hpure
  exact congrArg (· ++ left) (ofInt64_ofNat_toNat hlen).symm

lemma finds_int64s (n : Nat) :
    (int64s n).Finds [] fun is left => is.flatMap Bytes.ofInt64 ++ left := by
  induction n with
  | zero => exact finds_pure fun left => rfl
  | succ n ih =>
    exact finds_int64.bind fun i => ih.bind fun is => finds_pure fun left => by simp

lemma length_of_int64s {n : Nat} {is : List Int64} (h : (int64s n).run body = .ok (is, left)) :
    is.length = n := by
  induction n generalizing body is with
  | zero =>
    cases h
    rfl
  | succ n ih =>
    obtain ⟨i, behind, -, hrest⟩ := run_bind_eq_ok h
    obtain ⟨is, behind', his, hpure⟩ := run_bind_eq_ok hrest
    cases hpure
    rw [List.length_cons, ih his]

end Reading

open Reading Writing

/-! ## Layouts -/

lemma ChatMessage.finds_read (version : UInt8) :
    (read version).Finds [] fun m _ => m.encode version := by
  refine Finds.need ?_
  by_cases hv : version = 0
  · simp only [hv, if_true]
    exact finds_int64.bind fun sender => finds_int64.bind fun receiver =>
      finds_int32.bind fun msgid => finds_rest fun content => by simp [encode]
  · simp only [hv, if_false]
    exact finds_int64.bind fun sender => finds_int64.bind fun receiver =>
      finds_int32.bind fun timestamp => finds_int32.bind fun msgid =>
        finds_rest fun content => by simp [encode, hv]

lemma PeerAck.finds_read : read.Finds [] fun p left => p.encode ++ left :=
  .need (finds_int64.bind fun sender => finds_int64.bind fun receiver =>
    finds_int32.bind fun msgid => finds_pure fun left => by simp [encode])

lemma Typing.finds_read : read.Finds [] fun t left => t.encode ++ left :=
  .need (finds_int64.bind fun sender => finds_int64.bind fun receiver =>
    finds_pure fun left => by simp [encode])

lemma Presence.finds_read : read.Finds [] fun p left => p.encode ++ left :=
  .need (finds_int64.bind fun uid => finds_int32.bind fun online =>
    finds_pure fun left => by simp [encode])

lemma TransientMessage.finds_read : read.Finds [] fun m _ => m.encode :=
  .need (finds_int64.bind fun sender => finds_int64.bind fun receiver =>
    finds_rest fun content => by simp [encode])

lemma CustomerMessage.finds_read (persistent : Bool) :
    (read persistent).Finds [] fun m _ => m.encode :=
  .need (finds_int64.bind fun appId => finds_int64.bind fun customerId =>
    finds_int64.bind fun storeId => finds_int64.bind fun sellerId =>
      finds_int32.bind fun timestamp => finds_rest fun content => by simp [encode])

lemma SyncPoint.finds_read (grouped : Bool) :
    (read grouped).Finds [] fun p left => p.encode ++ left := by
  cases grouped with
  | true =>
    exact .need (finds_int64.bind fun id => finds_int64.bind fun key =>
      finds_pure fun left => by simp [encode])
  | false => exact .need (finds_int64.bind fun key => finds_pure fun left => by simp [encode])

lemma Metadata.finds_read : read.Finds [] fun m left =>
    Bytes.ofInt64 m.syncKey ++ Bytes.ofInt64 m.prevSyncKey ++ left :=
  .need (finds_int64.bind fun syncKey => finds_int64.bind fun prevSyncKey =>
    finds_pure fun left => by simp)

lemma LoginPoint.finds_read : read.Finds [] fun l _ => l.encode := by
  refine .need (finds_int32.bind fun upTimestamp => finds_octet.bind fun platformId => ?_)
  intro body l left hrun
  obtain ⟨bs, behind, hrest, hrun⟩ := run_bind_eq_ok hrun
  cases hrest
  obtain ⟨deviceId, behind, htext, hpure⟩ := run_bind_eq_ok hrun
  obtain ⟨rfl, -⟩ := run_text_eq_ok htext
  cases hpure
  simp [encode]

lemma Ack.cases_of_read {version : UInt8} {body left : Bytes} {a : Ack}
    (h : (read version).run body = .ok (a, left)) :
    (version > 1 ∧ body = Bytes.ofInt32 a.seq ∧ a.status = 0) ∨
      (body = a.encode version ++ left ∧ (version ≤ 1 → a.status = 0)) := by
  obtain ⟨_, body, hneed, hfields⟩ := run_bind_eq_ok h
  obtain rfl := run_need_eq_ok hneed
  obtain ⟨seq, behind, hseq, hstatus⟩ := run_bind_eq_ok hfields
  obtain rfl : body = Bytes.ofInt32 seq ++ behind := finds_int32 _ _ _ hseq
  rw [run_bind_ok (run_remaining behind)] at hstatus
  by_cases hversion : version > 1
  · cases behind with
    | nil =>
      simp only [hversion, List.length_nil, ne_eq, not_true_eq_false, and_false, if_false]
        at hstatus
      cases hstatus
      exact .inl ⟨hversion, List.append_nil _, rfl⟩
    | cons b bs =>
      simp only [hversion, List.length_cons, ne_eq, Nat.add_one_ne_zero, not_false_eq_true,
        and_self, if_true] at hstatus
      cases hstatus
      exact .inr ⟨by simp [encode, hversion], fun hle => absurd hversion (UInt8.not_lt.mpr hle)⟩
  · simp only [hversion, false_and, if_false] at hstatus
    cases hstatus
    exact .inr ⟨by simp [encode, hversion], fun _ => rfl⟩

lemma ChatMessage.timestamp_of_read {body left : Bytes} {m : ChatMessage}
    (h : (read 0).run body = .ok (m, left)) : m.timestamp = 0 := by
  obtain ⟨_, behind, -, hread⟩ := run_bind_eq_ok h
  obtain ⟨sender, behind, -, hread⟩ := run_bind_eq_ok hread
  obtain ⟨receiver, behind, -, hread⟩ := run_bind_eq_ok hread
  obtain ⟨timestamp, behind, htimestamp, hread⟩ := run_bind_eq_ok hread
  obtain ⟨msgid, behind, -, hread⟩ := run_bind_eq_ok hread
  obtain ⟨content, -, rfl⟩ := run_return_eq_ok hread
  exact run_pure_eq_ok htimestamp

lemma CustomerMessage.persistent_of_read {persistent : Bool} {body left : Bytes}
    {m : CustomerMessage} (h : (read persistent).run body = .ok (m, left)) :
    m.persistent = persistent := by
  obtain ⟨_, behind, -, hread⟩ := run_bind_eq_ok h
  obtain ⟨appId, behind, -, hread⟩ := run_bind_eq_ok hread
  obtain ⟨customerId, behind, -, hread⟩ := run_bind_eq_ok hread
  obtain ⟨storeId, behind, -, hread⟩ := run_bind_eq_ok hread
  obtain ⟨sellerId, behind, -, hread⟩ := run_bind_eq_ok hread
  obtain ⟨timestamp, behind, -, hread⟩ := run_bind_eq_ok hread
  obtain ⟨content, -, rfl⟩ := run_return_eq_ok hread
  rfl

lemma Int32.ofNat_toNat_toInt {i : Int32} (h : ¬ i < 0) :
    i.toInt.toNat ≤ Subscription.maxUids ∧ Int32.ofNat i.toInt.toNat = i := by
  have hnonneg : 0 ≤ i.toInt := by
    rw [Int32.lt_iff_toInt_lt, Int32.toInt_zero] at h
    omega
  have hlt := i.toInt_lt
  rw [Subscription.maxUids]
  refine ⟨by omega, Int32.toInt_inj.mp ?_⟩
  rw [Int32.toInt_ofNat_of_lt (by omega)]
  omega

lemma Subscription.octets_of_read {body left : Bytes} {s : Subscription}
    (h : read.run body = .ok (s, left)) :
    body = s.octets ++ left ∧ s.uids.length ≤ maxUids := by
  obtain ⟨_, body, hneed, hfields⟩ := run_bind_eq_ok h
  obtain rfl := run_need_eq_ok hneed
  obtain ⟨count, behind, hcount, huids⟩ := run_bind_eq_ok hfields
  obtain rfl : body = Bytes.ofInt32 count ++ behind := finds_int32 _ _ _ hcount
  by_cases hsign : count < 0
  · simp only [if_pos hsign] at huids
    cases huids
  · simp only [if_neg hsign] at huids
    obtain ⟨_, behind', hneed', hlist⟩ := run_bind_eq_ok huids
    obtain rfl := run_need_eq_ok hneed'
    obtain ⟨uids, left, hrun, hpure⟩ := run_bind_eq_ok hlist
    cases hpure
    obtain ⟨hmax, hcount⟩ := Int32.ofNat_toNat_toInt hsign
    have hlen := length_of_int64s hrun
    have hbehind : behind' = uids.flatMap Bytes.ofInt64 ++ left := finds_int64s _ _ _ _ hrun
    rw [octets, hlen, hcount, hbehind, List.append_assoc]
    exact ⟨rfl, hmax⟩

namespace AuthToken

lemma field_of_readField {name s : String} {bs left : Bytes}
    (h : (readField name).run bs = .ok (s, left)) :
    bs = field s ++ left ∧ (Bytes.ofString s).length ≤ maxField := by
  cases bs with
  | nil => cases h
  | cons length bs =>
    have hread : (readField name).run (length :: bs) = (do
        if bs.length < length.toNat then refuse (.lengthBeyondEnd name length.toNat bs.length)
        Reading.text name (← take length.toNat) : Reading String).run bs := rfl
    rw [hread] at h
    by_cases hshort : bs.length < length.toNat
    · rw [if_pos hshort] at h
      cases h
    · rw [if_neg hshort] at h
      obtain ⟨text, behind, htake, hspells⟩ := run_bind_eq_ok h
      obtain ⟨hbs, hlen⟩ := run_take_eq_ok htake
      obtain ⟨htext, rfl⟩ := run_text_eq_ok hspells
      rw [field, htext, hlen, UInt8.ofNat_toNat, hbs]
      exact ⟨rfl, Nat.le_of_lt_succ length.toNat_lt⟩

lemma octets_of_read {body left : Bytes} {a : AuthToken}
    (h : read.run body = .ok (a, left)) :
    body = a.platformId :: (field a.token ++ field a.deviceId) ++ left ∧
      (Bytes.ofString a.token).length ≤ maxField ∧
      (Bytes.ofString a.deviceId).length ≤ maxField := by
  unfold read at h
  rw [run_bind_ok (run_remaining body)] at h
  by_cases hshort : body.length < 3
  · rw [if_pos hshort] at h
    cases h
  · rw [if_neg hshort] at h
    obtain ⟨platform, behind, hplatform, hfields⟩ := run_bind_eq_ok h
    obtain ⟨token, behind', htoken, hdevice⟩ := run_bind_eq_ok hfields
    obtain ⟨device, left', hdevice, hpure⟩ := run_bind_eq_ok hdevice
    cases hpure
    obtain ⟨rfl, hdeviceLen⟩ := field_of_readField hdevice
    obtain ⟨rfl, htokenLen⟩ := field_of_readField htoken
    have hbody := finds_octet _ _ _ hplatform
    exact ⟨by simpa using hbody, htokenLen, hdeviceLen⟩

end AuthToken

lemma Flags.or_unpersistent (flags : Flags) :
    (flags ||| if !flags.has Flags.unpersistent then 0 else Flags.unpersistent) = flags := by
  have hbit : ∀ b : BitVec 8, b &&& 2 ≠ 0 → b ||| 2 = b := by decide +kernel
  cases hhas : flags.has Flags.unpersistent with
  | false => simp
  | true =>
    refine UInt8.toBitVec_inj.mp (hbit flags.toBitVec fun hzero => ?_)
    simp only [has, bne_iff_ne] at hhas
    exact hhas (UInt8.toBitVec_inj.mp hzero)

/-! ## All commands -/

namespace Message
variable {version : UInt8} {flags : Flags} {c : Command} {body left : Bytes} {m : Message}

/-- How the octets that a message is written to compare with the body it was read from. -/
def Fit (body octets : Bytes) (canonical : Prop) : Prop :=
  octets.length ≤ max body.length 5 ∧ (octets = body ↔ canonical)

lemma fit_of_eq {octets : Bytes} (h : body = octets) : Fit body octets True := by
  subst h
  exact ⟨Nat.le_max_left _ _, iff_of_true rfl trivial⟩

lemma fit_of_append {octets : Bytes} (h : body = octets ++ left) :
    Fit body octets (left = []) := by
  subst h
  rw [Fit, List.length_append, List.self_eq_append_right]
  exact ⟨by omega, Iff.rfl⟩

lemma fit_of_length {octets : Bytes} {n : Nat} (h : body = octets ++ left)
    (hlen : octets.length = n) : Fit body octets (body.length = n) := by
  have hcanonical : left = [] ↔ body.length = n := by
    rw [h, List.length_append, hlen, Nat.add_eq_left, List.length_eq_zero_iff]
  rw [← hcanonical]
  exact fit_of_append h

lemma fit_ack {a : Ack} (h : (Ack.read version).run body = .ok (a, left)) :
    Fit body (a.encode version) (body.length = if version > 1 then 5 else 4) := by
  have hlen : (a.encode version).length = if version > 1 then 5 else 4 := by
    by_cases hversion : version > 1 <;> simp [Ack.encode, hversion]
  rcases Ack.cases_of_read h with ⟨hversion, rfl, -⟩ | ⟨hbody, -⟩
  -- The status is missing, and is written.
  · rw [if_pos hversion] at hlen ⊢
    refine ⟨by rw [hlen]; exact Nat.le_max_right _ _, iff_of_false (fun heq => ?_) (by simp)⟩
    rw [heq, Bytes.length_ofInt32] at hlen
    omega
  · exact fit_of_length hbody hlen

lemma fit_metadata {p : Metadata} (h : Metadata.read.run body = .ok (p, left)) :
    Fit body p.encode (Command.metadata.Canonical version body) := by
  have hbody : body = Bytes.ofInt64 p.syncKey ++ Bytes.ofInt64 p.prevSyncKey ++ left :=
    Metadata.finds_read _ _ _ h
  have hkeys : (Bytes.ofInt64 p.syncKey ++ Bytes.ofInt64 p.prevSyncKey).length = 16 := by simp
  rcases Metadata.decides_read body with ⟨hlen, -⟩ | ⟨-, fault, hfault⟩
  · rw [Fit, Command.Canonical, Metadata.encode]
    refine ⟨?_, ?_⟩
    · rw [List.length_append, hkeys, List.length_replicate, Metadata.padding]
      omega
    · rw [hbody, List.drop_left' hkeys, List.append_right_inj, eq_comm]
  · rw [h] at hfault
    cases hfault

lemma fit_authToken {a : AuthToken} (h : AuthToken.read.run body = .ok (a, left)) :
    Fit body (a.platformId :: (AuthToken.field a.token ++ AuthToken.field a.deviceId))
      (Command.authToken.Canonical version body) := by
  obtain ⟨hbody, htoken, hdevice⟩ := AuthToken.octets_of_read h
  have hlength : ∀ {s : String}, (Bytes.ofString s).length ≤ AuthToken.maxField →
      (UInt8.ofNat (Bytes.ofString s).length).toNat = (Bytes.ofString s).length := fun hmax =>
    UInt8.toNat_ofNat_of_lt' (Nat.lt_succ_of_le hmax)
  have hcanonical : left = [] ↔ Command.authToken.Canonical version body := by
    constructor
    · rintro rfl
      rw [List.append_nil] at hbody
      exact ⟨_, _, _, _, _, hbody, hlength htoken, hlength hdevice⟩
    · rintro ⟨platform, length, length', token, device, hbody', hlen, hlen'⟩
      simp only [hbody, AuthToken.field, List.cons_append, List.append_assoc, List.cons.injEq]
        at hbody'
      obtain ⟨-, rfl, hrest⟩ := hbody'
      rw [hlength htoken] at hlen
      obtain ⟨-, hfield⟩ := List.append_inj hrest hlen
      obtain ⟨rfl, rfl⟩ := List.cons.inj hfield
      rw [hlength hdevice, List.length_append] at hlen'
      exact List.length_eq_zero_iff.mp (by omega)
  rw [← hcanonical]
  exact fit_of_append hbody

lemma fit_subscription {s : Subscription} (h : Subscription.read.run body = .ok (s, left)) :
    Fit body s.octets (Command.subscribePresence.Canonical version body) := by
  obtain ⟨hbody, hmax⟩ := Subscription.octets_of_read h
  have hlength : (s.uids.flatMap Bytes.ofInt64).length = 8 * s.uids.length := by
    simp [List.length_flatMap, List.map_const', Nat.mul_comm]
  have hcount : (Int32.ofNat s.uids.length).toInt = s.uids.length :=
    Int32.toInt_ofNat_of_lt (by rw [Subscription.maxUids] at hmax; omega)
  rw [Subscription.octets, List.append_assoc] at hbody
  have hcanonical : left = [] ↔ Command.subscribePresence.Canonical version body := by
    constructor
    · rintro rfl
      rw [List.append_nil] at hbody
      exact ⟨_, _, hbody, by rw [hlength, hcount]; push_cast; rfl⟩
    · rintro ⟨count, uids, hbody', hlen⟩
      have hread := run_int32 uids count
      rw [← hbody', hbody, run_int32] at hread
      cases hread
      rw [hcount, List.length_append, hlength] at hlen
      exact List.length_eq_zero_iff.mp (by omega)
  rw [← List.append_assoc] at hbody
  rw [← hcanonical]
  exact fit_of_append hbody

/-- A message that was read is written in whole, and to the octets it was read from exactly when
these are canonical. -/
lemma writes_of_read (h : (read version flags c).run body = .ok (m, left)) :
    ∃ octets, (m.write version).Writes octets ∧ Fit body octets (c.Canonical version body) := by
  cases c with
  | signal kind =>
    cases h
    exact ⟨[], fun buffer => by rw [List.append_nil]; rfl, fit_of_append rfl⟩
  | notice kind =>
    cases h
    exact ⟨body, writes_append _, fit_of_eq rfl⟩
  | authStatus =>
    obtain ⟨status, hread, rfl⟩ := run_need_return_eq_ok h
    exact ⟨_, writes_append _, fit_of_length (finds_int32 _ _ _ hread) (Bytes.length_ofInt32 _)⟩
  | unreadCount =>
    obtain ⟨count, hread, rfl⟩ := run_need_return_eq_ok h
    exact ⟨_, writes_append _, fit_of_length (finds_int32 _ _ _ hread) (Bytes.length_ofInt32 _)⟩
  | room passage =>
    obtain ⟨id, hread, rfl⟩ := run_need_return_eq_ok h
    exact ⟨_, writes_append _, fit_of_length (finds_int64 _ _ _ hread) (Bytes.length_ofInt64 _)⟩
  | chat audience =>
    obtain ⟨message, hread, rfl⟩ := run_return_eq_ok h
    exact ⟨_, writes_append _, fit_of_eq (ChatMessage.finds_read version _ _ _ hread)⟩
  | loginPoint =>
    obtain ⟨login, hread, rfl⟩ := run_return_eq_ok h
    exact ⟨_, writes_append _, fit_of_eq (LoginPoint.finds_read _ _ _ hread)⟩
  | transient venue =>
    obtain ⟨message, hread, rfl⟩ := run_return_eq_ok h
    exact ⟨_, writes_append _, fit_of_eq (TransientMessage.finds_read _ _ _ hread)⟩
  | customer desk =>
    obtain ⟨message, hread, rfl⟩ := run_return_eq_ok h
    exact ⟨_, writes_append _, fit_of_eq (CustomerMessage.finds_read _ _ _ _ hread)⟩
  | peerAck =>
    obtain ⟨p, hread, rfl⟩ := run_return_eq_ok h
    have hlen : p.encode.length = 20 := by simp [PeerAck.encode]
    exact ⟨_, writes_append _, fit_of_length (PeerAck.finds_read _ _ _ hread) hlen⟩
  | typing =>
    obtain ⟨t, hread, rfl⟩ := run_return_eq_ok h
    have hlen : t.encode.length = 16 := by simp [Typing.encode]
    exact ⟨_, writes_append _, fit_of_length (Typing.finds_read _ _ _ hread) hlen⟩
  | presenceUpdate =>
    obtain ⟨p, hread, rfl⟩ := run_return_eq_ok h
    have hlen : p.encode.length = 12 := by simp [Presence.encode]
    exact ⟨_, writes_append _, fit_of_length (Presence.finds_read _ _ _ hread) hlen⟩
  | sync verb grouped =>
    obtain ⟨point, hread, rfl⟩ := run_return_eq_ok h
    have hbody := SyncPoint.finds_read grouped _ _ _ hread
    have hscope := SyncPoint.scope_of_read hread
    obtain ⟨scope, key⟩ := point
    refine ⟨_, writes_append _, ?_⟩
    cases scope with
    | direct =>
      obtain rfl : false = grouped := hscope
      exact fit_of_length hbody (Bytes.length_ofInt64 key)
    | group id =>
      obtain rfl : true = grouped := hscope
      exact fit_of_length hbody (by simp [SyncPoint.encode])
  | ack =>
    obtain ⟨a, hread, rfl⟩ := run_return_eq_ok h
    exact ⟨_, writes_append _, fit_ack hread⟩
  | metadata =>
    obtain ⟨p, hread, rfl⟩ := run_return_eq_ok h
    exact ⟨_, writes_append _, fit_metadata hread⟩
  | authToken =>
    obtain ⟨a, hread, rfl⟩ := run_return_eq_ok h
    obtain ⟨-, htoken, hdevice⟩ := AuthToken.octets_of_read hread
    rcases a.write_cases with ⟨-, -, hwrites⟩ | ⟨name, s, ⟨-, rfl⟩ | ⟨-, rfl⟩, hlong, -⟩
    · exact ⟨_, hwrites, fit_authToken hread⟩
    · omega
    · omega
  | subscribePresence =>
    obtain ⟨s, hread, rfl⟩ := run_return_eq_ok h
    obtain ⟨-, hmax⟩ := Subscription.octets_of_read hread
    rcases s.write_cases with ⟨-, hwrites⟩ | ⟨hlong, -⟩
    · exact ⟨_, hwrites, fit_subscription hread⟩
    · omega

lemma norm_of_read (h : (read version flags c).run body = .ok (m, left)) :
    m.norm version flags = m ∧ flags ||| m.impliedFlags = flags := by
  cases c with
  | signal kind =>
    cases h
    exact ⟨rfl, UInt8.or_zero⟩
  | notice kind =>
    cases h
    exact ⟨rfl, UInt8.or_zero⟩
  | authStatus =>
    obtain ⟨status, -, rfl⟩ := run_need_return_eq_ok h
    exact ⟨rfl, UInt8.or_zero⟩
  | unreadCount =>
    obtain ⟨count, -, rfl⟩ := run_need_return_eq_ok h
    exact ⟨rfl, UInt8.or_zero⟩
  | room passage =>
    obtain ⟨id, -, rfl⟩ := run_need_return_eq_ok h
    exact ⟨rfl, UInt8.or_zero⟩
  | chat audience =>
    obtain ⟨message, hread, rfl⟩ := run_return_eq_ok h
    refine ⟨?_, UInt8.or_zero⟩
    by_cases hversion : version = 0
    · rw [norm, if_pos hversion, ← ChatMessage.timestamp_of_read (hversion ▸ hread)]
    · rw [norm, if_neg hversion]
  | ack =>
    obtain ⟨a, hread, rfl⟩ := run_return_eq_ok h
    refine ⟨?_, UInt8.or_zero⟩
    by_cases hversion : version ≤ 1
    · have hstatus : a.status = 0 := by
        rcases Ack.cases_of_read hread with ⟨-, -, hstatus⟩ | ⟨-, hstatus⟩
        · exact hstatus
        · exact hstatus hversion
      rw [norm, if_pos hversion, ← hstatus]
    · rw [norm, if_neg hversion]
  | customer desk =>
    obtain ⟨message, hread, rfl⟩ := run_return_eq_ok h
    have hpersistent := CustomerMessage.persistent_of_read hread
    refine ⟨?_, ?_⟩
    · rw [norm, hpersistent, Bool.and_self, ← hpersistent]
    · rw [impliedFlags, hpersistent]
      exact Flags.or_unpersistent flags
  | _ =>
    obtain ⟨a, -, rfl⟩ := run_return_eq_ok h
    exact ⟨rfl, UInt8.or_zero⟩

lemma writes_of_decode {cmd : UInt8} (h : decode cmd version flags body = .ok m) :
    (∃ octets, (m.write version).Writes octets ∧
      Fit body octets (∀ c, Command.ofCode? cmd = some c → c.Canonical version body)) ∧
      m.norm version flags = m ∧ flags ||| m.impliedFlags = flags ∧ m.cmd = cmd ∧
      ∀ cmd' bs, m = .unknown cmd' bs → Command.ofCode? cmd' = none := by
  unfold decode at h
  cases hcode : Command.ofCode? cmd with
  | none =>
    rw [hcode] at h
    cases h
    refine ⟨⟨body, writes_append _, ?_⟩, rfl, UInt8.or_zero, rfl, ?_⟩
    · refine ⟨Nat.le_max_left _ _, iff_of_true rfl ?_⟩
      rintro _ ⟨⟩
    · rintro _ _ ⟨⟩
      exact hcode
  | some c =>
    rw [hcode] at h
    cases hrun : (read version flags c).run body with
    | error fault =>
      simp only [Reading.runOn, hrun] at h
      cases fault <;> cases h
    | ok found =>
      simp only [Reading.runOn, hrun] at h
      cases h
      have hcommand := command?_of_read hrun
      obtain ⟨octets, hwrites, hlen, hfit⟩ := writes_of_read hrun
      obtain ⟨hnorm, hflags⟩ := norm_of_read hrun
      refine ⟨⟨octets, hwrites, hlen, ?_⟩, hnorm, hflags, ?_, ?_⟩
      · rw [hfit]
        constructor
        · rintro hcanonical _ ⟨⟩
          exact hcanonical
        · exact fun hcanonical => hcanonical c rfl
      · rw [cmd_of_command? hcommand, Command.code_of_ofCode? hcode]
      · intro cmd' bs hm
        rw [hm] at hcommand
        cases hcommand

end Message

lemma RawFrame.message_of_decode {raw : RawFrame} {f : Frame} (h : raw.decode = .ok f) :
    ∃ m, Message.decode raw.header.cmd raw.header.version raw.header.flags raw.body = .ok m ∧
      f = ⟨raw.header.seq, raw.header.version, raw.header.flags, m⟩ := by
  unfold RawFrame.decode at h
  cases hdecode : Message.decode raw.header.cmd raw.header.version raw.header.flags raw.body with
  | error e =>
    simp only [hdecode] at h
    cases h
  | ok m =>
    simp only [hdecode] at h
    cases h
    exact ⟨m, rfl, rfl⟩

def RawFrame.Canonical (raw : RawFrame) : Prop :=
  raw.header.reserved = 0 ∧
    ∀ c, Command.ofCode? raw.header.cmd = some c → c.Canonical raw.header.version raw.body

namespace Frame

lemma append_of_decode {bs : Bytes} {f : Frame} (h : Frame.decode bs = .ok f) :
    ∃ header body rest, bs = header.encode ++ (body ++ rest) ∧
      header.bodyLen.toNat = body.length ∧ RawFrame.decode ⟨header, body⟩ = .ok f := by
  unfold Frame.decode at h
  cases hheader : Header.decode bs with
  | error e =>
    rw [hheader] at h
    cases h
  | ok header =>
    rw [hheader, ok_bind] at h
    by_cases hshort : ((bs.drop Header.size).take header.bodyLen.toNat).length <
        header.bodyLen.toNat
    · simp only [if_pos hshort] at h
      cases h
    · simp only [if_neg hshort] at h
      refine ⟨header, _, (bs.drop Header.size).drop header.bodyLen.toNat, ?_, ?_, h⟩
      · rw [List.take_append_drop, (Header.encode_of_decode hheader).2, List.take_append_drop]
      · exact Nat.le_antisymm (Nat.le_of_not_lt hshort) (List.length_take_le _ _)

lemma encode_append_inj {header header' : Header} {body body' : Bytes} :
    header.encode ++ body = header'.encode ++ body' ↔ header = header' ∧ body = body' := by
  constructor
  · intro h
    have hdecode := header.decode_encode_append body
    rw [h, Header.decode_encode_append] at hdecode
    cases hdecode
    exact ⟨rfl, List.append_cancel_left h⟩
  · rintro ⟨rfl, rfl⟩
    rfl

/-- Encoding undoes decoding. A frame that was decoded is encoded, and the octets decode to it
again; they are the octets it was decoded from exactly when these were canonical. -/
theorem reencode_of_decode {bs : Bytes} {f : Frame} (h : Frame.decode bs = .ok f) :
    ∃ bs' header, f.encode = .ok bs' ∧ Frame.decode bs' = .ok f ∧
      Header.decode bs = .ok header ∧
      (bs' = bs.take (Header.size + header.bodyLen.toNat) ↔
        RawFrame.Canonical ⟨header, (bs.drop Header.size).take header.bodyLen.toNat⟩) := by
  obtain ⟨header, body, rest, rfl, hlen, hdecode⟩ := append_of_decode h
  obtain ⟨m, hmessage, hf⟩ := RawFrame.message_of_decode hdecode
  obtain ⟨⟨octets, hwrites, hmax, hfit⟩, hnorm, hflags, hcmd, hunknown⟩ :=
    Message.writes_of_decode hmessage
  dsimp only at hwrites hmax hfit hnorm hflags hcmd hf
  have hfits : octets.length ≤ maxBodyLen := by
    have := header.bodyLen.toNat_lt
    rw [maxBodyLen]
    omega
  have hencode : f.encode = .ok ((f.header octets.length).encode ++ octets) := by
    rw [hf]
    exact Frame.encode_eq_ok_iff.mpr ⟨octets, hwrites, hfits, rfl⟩
  refine ⟨_, header, hencode, ?_, Header.decode_encode_append header _, ?_⟩
  · have hread := (decode_of_encode_append _ _ [] hencode (hf ▸ hunknown)).1
    rw [List.append_nil] at hread
    rw [hread, norm, hf]
    simp only [hflags, hnorm]
  · have htake : (header.encode ++ (body ++ rest)).take (Header.size + header.bodyLen.toNat) =
        header.encode ++ body := by
      rw [← List.append_assoc]
      exact List.take_left' (by rw [List.length_append, Header.length_encode, hlen])
    have hbody : ((header.encode ++ (body ++ rest)).drop Header.size).take header.bodyLen.toNat =
        body := by
      rw [List.drop_left' (Header.length_encode _), hlen, List.take_left]
    rw [htake, hbody, encode_append_inj, RawFrame.Canonical, ← hfit]
    constructor
    · rintro ⟨hheader, rfl⟩
      exact ⟨congrArg Header.reserved hheader.symm, rfl⟩
    · rintro ⟨hreserved, rfl⟩
      refine ⟨?_, rfl⟩
      rw [hf, Frame.header]
      simp only [hcmd, hflags, ← hlen, UInt32.ofNat_toNat, ← hreserved]

/-- A receipt without its status is written with one. -/
theorem reencode_of_decode_short_receipt :
    Frame.decode [0, 0, 0, 4, 0, 0, 0, 9, 5, 2, 0, 0, 0, 0, 0, 7] =
        .ok { seq := 9, message := .ack (.success 7) } ∧
      ∃ bs, Frame.encode { seq := 9, message := .ack (.success 7) } = .ok bs ∧
        Frame.decode bs = .ok { seq := 9, message := .ack (.success 7) } ∧
        bs ≠ [0, 0, 0, 4, 0, 0, 0, 9, 5, 2, 0, 0, 0, 0, 0, 7] := by
  have hdecode : Frame.decode [0, 0, 0, 4, 0, 0, 0, 9, 5, 2, 0, 0, 0, 0, 0, 7] =
      .ok { seq := 9, message := .ack (.success 7) } := rfl
  obtain ⟨bs, header, hencode, hagain, hheader, hcanonical⟩ := reencode_of_decode hdecode
  obtain rfl : header = ⟨4, 9, 5, 2, 0, 0⟩ := Except.ok.inj (hheader.symm.trans rfl)
  refine ⟨hdecode, bs, hencode, hagain, fun hsame => ?_⟩
  have hlen : 4 = 5 := (hcanonical.mp hsame).2 .ack rfl
  omega

end Frame

end Parley
