import Parley.Proofs.Delivery.Tracker
import Parley.Proofs.Session.Sending
import Parley.Proofs.Wire.Appending

/-!
# Items that cannot be encoded

What the writing side of a session does with an item that cannot be encoded. It tells faults of the
transport from all others by the class of the error; of the errors of an encoding there is one that
counts among the former, that of a body that is too long (`Outgoing.isTransport_iff`).
-/

namespace Parley

namespace Outgoing
variable {item : Outgoing} {version : UInt8} {e : Error}

/-- The body of an item is too long for a header to announce. -/
def IsOverlong (item : Outgoing) (version : UInt8) : Prop :=
  ∃ body, (item.message.write version).Writes body ∧ Frame.maxBodyLen < body.length

lemma IsOverlong.encode (h : item.IsOverlong version) (seq : Int32) :
    ∃ len, (item.frame version seq).encode = .error (.frameTooLarge len Frame.maxBodyLen) := by
  obtain ⟨body, hbody, hlong⟩ := h
  have hinto := Frame.encodeInto_of_overlong (f := item.frame version seq) hbody hlong []
  exact ⟨body.length, by rw [Frame.encode, hinto]⟩

/-- The only error of an encoding that counts as one of the transport is that of a body that is too
long. -/
lemma isTransport_iff {seq : Int32} (h : (item.frame version seq).encode = .error e) :
    e.isTransport = true ↔ item.IsOverlong version := by
  constructor
  · intro htransport
    rcases (item.frame version seq).encodeInto_cases with ⟨body, hbody, hfits, -⟩ |
      ⟨body, hbody, hlong, -⟩ | ⟨e', htransport', hrefuses, -⟩
    · rw [Frame.encode_eq_ok_iff.mpr ⟨body, hbody, hfits, rfl⟩] at h
      cases h
    · exact ⟨body, hbody, hlong⟩
    · rw [Frame.encode_of_refuses hrefuses] at h
      cases h
      rw [htransport'] at htransport
      cases htransport
  · intro hlong
    obtain ⟨len, hencode⟩ := hlong.encode seq
    rw [hencode] at h
    cases h
    rfl

end Outgoing

/-! ## Steps of the writer -/

lemma Tracker.erase_register {ι : Type} (t : Tracker ι) (seq : Int32) (w : ι) :
    (t.register seq w).1.erase seq = t.erase seq := by
  simp [register, erase, List.filter_filter]

namespace Session
variable {s : Session} {item : Outgoing} {items : List Outgoing} {e : Error} {octets : Bytes}

/-- Those who wait under the next number when an item has come up under it: who did before, and the
caller of the item. -/
def waitersAt (s : Session) (item : Outgoing) : List Nat :=
  (s.tracker.waiter? s.nextSeq).toList ++ if item.tracked then item.caller.toList else []

/-- The session without its first item, and without those who wait under the next number. -/
def letGo (s : Session) (items : List Outgoing) : Session :=
  { s with outbox := { s.outbox with items }, tracker := s.tracker.erase s.nextSeq }

lemma registerWaiter_forget (s : Session) (item : Outgoing) :
    ∃ tracker notes, s.registerWaiter item s.nextSeq = ({ s with tracker }, notes) ∧
      tracker.erase s.nextSeq = s.tracker.erase s.nextSeq ∧
      notes ++ (tracker.waiter? s.nextSeq).toList.map .unreceipted =
        (s.waitersAt item).map .unreceipted := by
  rw [registerWaiter, waitersAt]
  split
  · rename_i call hcaller htracked
    refine ⟨(s.tracker.register s.nextSeq call).1, _, rfl, Tracker.erase_register _ _ call, ?_⟩
    rw [Tracker.waiter?_register, if_pos rfl, if_pos htracked, hcaller, List.map_append]
  · rename_i hnone
    refine ⟨s.tracker, [], rfl, rfl, ?_⟩
    cases hcaller : item.caller with
    | none => simp
    | some call =>
      have htracked : item.tracked = false := by simpa using hnone call hcaller
      simp [htracked]

lemma ahead_eq_items (hflight : s.flight = none) : s.sending.ahead = s.outbox.items := by
  simp [Sending.ahead, sending, hflight]

lemma write?_of_items (hflight : s.flight = none) (hitems : s.outbox.items = item :: items) :
    s.write? = some (s.takeItem item { s.outbox with items }) := by
  rw [write?, hflight, Outbox.pop?, hitems]

lemma takeItem_of_error (hencode : (item.frame s.version s.nextSeq).encode = .error e)
    (items : List Outgoing) : s.takeItem item { s.outbox with items } =
      if e.isTransport then
        ((s.letGo items).stopWriting (some e), (s.waitersAt item).map .unreceipted ++
          (numberedNote item (.error .connectionClosed) ++
            items.filterMap fun item => item.caller.map .lost))
      else
        (s.letGo items, (s.waitersAt item).map .unreceipted ++ numberedNote item (.error e)) := by
  obtain ⟨tracker, notes, hregister, herase, hnotes⟩ := s.registerWaiter_forget item
  have hframe : { s with outbox := { s.outbox with items }, tracker }.frameOf item s.nextSeq =
      item.frame s.version s.nextSeq := rfl
  simp only [takeItem, registerWaiter_outbox hregister, hframe, hencode]
  cases htransport : e.isTransport with
  | true =>
    rw [writeFailed_of_transport _ _ _ htransport, if_pos rfl, ← hnotes, letGo, ← herase]
    simp only [Tracker.forget, List.append_assoc]
    rfl
  | false =>
    rw [writeFailed_of_not_transport _ _ _ htransport, if_neg (by simp), ← hnotes, letGo, ← herase]
    simp only [Tracker.forget, List.append_assoc]

/-- An item that cannot be encoded is skipped, unless its body is too long. -/
lemma write?_of_refused (hflight : s.flight = none) (hitems : s.outbox.items = item :: items)
    (hencode : (item.frame s.version s.nextSeq).encode = .error e)
    (hshort : ¬ item.IsOverlong s.version) : s.write? = some (s.letGo items,
      (s.waitersAt item).map .unreceipted ++ numberedNote item (.error e)) := by
  have htransport : ¬ e.isTransport = true := (Outgoing.isTransport_iff hencode).not.mpr hshort
  rw [write?_of_items hflight hitems, takeItem_of_error hencode, if_neg htransport]

lemma write?_of_overlong (hflight : s.flight = none) (hitems : s.outbox.items = item :: items)
    (hlong : item.IsOverlong s.version) : ∃ len, s.write? = some
      ((s.letGo items).stopWriting (some (.frameTooLarge len Frame.maxBodyLen)),
        (s.waitersAt item).map .unreceipted ++
          (numberedNote item (.error .connectionClosed) ++
            items.filterMap fun item => item.caller.map .lost)) := by
  obtain ⟨len, hencode⟩ := hlong.encode s.nextSeq
  have htransport := (Outgoing.isTransport_iff hencode).mpr hlong
  exact ⟨len, by rw [write?_of_items hflight hitems, takeItem_of_error hencode, if_pos htransport]⟩

lemma takeItem_of_ok (hencode : (item.frame s.version s.nextSeq).encode = .ok octets)
    (outbox : Outbox) : ∃ tracker replaced, s.takeItem item outbox =
      ({ s with outbox, tracker, flight := some ⟨item, s.nextSeq, octets⟩ },
        (replaced : Option Nat).toList.map .unreceipted) := by
  obtain ⟨tracker, replaced, hregister⟩ := s.registerWaiter_eq item s.nextSeq
  have hframe : { s with outbox, tracker }.frameOf item s.nextSeq =
      item.frame s.version s.nextSeq := rfl
  refine ⟨tracker, replaced, ?_⟩
  simp only [takeItem, registerWaiter_outbox hregister, hframe, hencode]

end Session

end Parley
