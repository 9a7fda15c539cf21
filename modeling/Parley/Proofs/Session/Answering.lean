import Parley.Proofs.Session.Feeding
import Parley.Proofs.Sync.Held
import Parley.Proofs.Wire.Commands

/-!
# What a session answers

A frame that has been read may be receipted, and may be answered by one message or two. Some answers
depend on the sync engine and on whether cursors could be stored, at moments that come after the
frame was taken. An `Exchange` is a frame with what its answers depend on. Main statements:
`begins_dispatch`, which says that the duties of a frame lead to its answers, and
`Exchange.receipts_answers`.
-/

namespace Parley

/-- The names of the commands whose frames are receipted. -/
def receiptedNames : List String :=
  ["im", "group_im", "peer_ack", "group_notification", "system", "customer", "customer_support"]

def RawFrame.isReceipted (raw : RawFrame) : Bool :=
  (Command.ofCode? raw.header.cmd).any (·.name ∈ receiptedNames)

lemma Command.requiresReceipt_eq (c : Command) :
    c.requiresReceipt = decide (c.name ∈ receiptedNames) := by
  have hall : ∀ c ∈ Command.all, c.requiresReceipt = decide (c.name ∈ receiptedNames) := by decide
  exact hall c c.mem_all

lemma requiresReceipt_of_decode {raw : RawFrame} {f : Frame} (h : raw.decode = .ok f) :
    f.message.requiresReceipt = raw.isReceipted := by
  rw [Message.requiresReceipt, (RawFrame.command?_of_decode h).1, RawFrame.isReceipted]
  congr 1
  funext c
  exact c.requiresReceipt_eq

/-- A frame that the reading side has taken, with what its answers depend on. -/
structure Exchange where
  raw : RawFrame
  engine : Engine
  stored : Option Bool := none
  closing : Option Engine := none

namespace Exchange

def ending? (x : Exchange) : Option SyncPoint :=
  match x.raw.decode with
  | .ok ⟨_, _, _, .sync .ended point⟩ => some point
  | _ => none

/-- What follows from the end of a window, as soon as the engine has been told of it. -/
def outcome (x : Exchange) (point : SyncPoint) : List Message :=
  match x.closing with
  | none => []
  | some engine =>
    let outcome := (engine.commitEnd point.scope point.key (x.stored.getD false)).2
    outcome.ack.toList ++ outcome.followUp.toList

/-- How a message is answered besides its receipt. -/
def reaction (x : Exchange) : Message → List Message
  | .signal .ping => [.signal .pong]
  | .sync .notify point => (x.engine.handleNotify point.scope point.key).2.toList
  | .sync .ended point => x.outcome point
  | _ => []

/-- The messages that answer a frame: none if its body cannot be read. -/
def answers (x : Exchange) : List Message :=
  match x.raw.decode with
  | .error _ => []
  | .ok f =>
    (if x.raw.isReceipted then [.ack ⟨x.raw.header.seq, 0⟩] else []) ++ x.reaction f.message

/-- Nothing that the answers depend on is still to come. Cursors were stored or not just when the
end of a window asked for it. -/
def IsComplete (x : Exchange) : Prop :=
  ∀ point, x.ending? = some point →
    x.closing.isSome ∧ x.stored.isSome = (x.engine.handleEnd point.scope point.key).2.isSome

/-- The reading side does the first of the duties left over from the frame. -/
def did (x : Exchange) (p : Progress) : Stage → Exchange
  | .live (.persist _ _ cursors :: _) => { x with stored := some (p.store.save cursors).1 }
  | .live (.commit .. :: _) => { x with closing := some p.engine }
  | _ => x

section
variable {x : Exchange} {point : SyncPoint}

lemma ending?_eq_some (h : x.ending? = some point) :
    ∃ f, x.raw.decode = .ok f ∧ f.message = .sync .ended point := by
  unfold ending? at h
  split at h
  · rename_i hdecode
    obtain rfl := Option.some.inj h
    exact ⟨_, hdecode, rfl⟩
  · cases h

lemma ending?_of_decode {f : Frame} (h : x.raw.decode = .ok f) :
    x.ending? = match f.message with
      | .sync .ended point => some point
      | _ => none := by
  obtain ⟨seq, version, flags, message⟩ := f
  simp only [ending?, h]
  cases message with
  | sync verb point => cases verb <;> rfl
  | _ => rfl

lemma isComplete_of_ending?_eq_none (h : x.ending? = none) : x.IsComplete := by
  intro point hpoint
  rw [h] at hpoint
  cases hpoint

lemma answers_of_ending? (h : x.ending? = some point) : x.answers = x.outcome point := by
  obtain ⟨f, hdecode, hmessage⟩ := ending?_eq_some h
  have hreceipt : x.raw.isReceipted = false := by
    rw [← requiresReceipt_of_decode hdecode, hmessage]
    rfl
  simp only [answers, hdecode, hreceipt, hmessage, reaction]
  rfl

lemma mem_reaction {m answer : Message} (h : answer ∈ x.reaction m) :
    answer = .signal .pong ∨ ∃ verb point, answer = .sync verb point := by
  cases m with
  | signal kind =>
    cases kind with
    | ping => exact .inl (List.mem_singleton.mp h)
    | _ => cases h
  | sync verb point =>
    cases verb with
    | notify =>
      obtain ⟨key, rfl⟩ := Engine.request_of_handleNotify (Option.mem_toList.mp h)
      exact .inr ⟨_, _, rfl⟩
    | ended =>
      simp only [reaction, outcome] at h
      split at h
      · cases h
      · rcases List.mem_append.mp h with hack | hfollowUp
        · obtain ⟨-, rfl⟩ := Engine.ack_commitEnd (Option.mem_toList.mp hack)
          exact .inr ⟨_, _, rfl⟩
        · obtain ⟨key, rfl⟩ := Engine.followUp_commitEnd (Option.mem_toList.mp hfollowUp)
          exact .inr ⟨_, _, rfl⟩
    | _ => cases h
  | _ => cases h

end

end Exchange

/-! ## Duties -/

def Duty.message? : Duty → Option Message
  | .send m => some m
  | _ => none

/-- The duties that store the cursors with which a frame has closed a window. -/
inductive Exchange.Stores (x : Exchange) : List Duty → Prop
  | persist (point : SyncPoint) (cursors : Cursors) (hend : x.ending? = some point)
    (hsnapshot : (x.engine.handleEnd point.scope point.key).2 = some cursors)
    (hclosing : x.closing = none) : Stores x [.persist point.scope point.key cursors]
  | commit (point : SyncPoint) (hend : x.ending? = some point)
    (hstored : x.stored.isSome = (x.engine.handleEnd point.scope point.key).2.isSome)
    (hclosing : x.closing = none) :
    Stores x [.commit point.scope point.key (x.stored.getD false)]

/-- Duties lead to what a frame is answered by, as far as that is known by then. -/
structure Exchange.Begins (x : Exchange) (duties : List Duty) : Prop where
  sends : duties.filterMap Duty.message? = x.answers
  stores : (∀ duty ∈ duties, Session.stores duty = false) ∧ x.IsComplete ∨ x.Stores duties

lemma filterMap_message?_send (ms : List Message) :
    (ms.map Duty.send).filterMap Duty.message? = ms := by
  induction ms with
  | nil => rfl
  | cons m ms ih => exact congrArg (m :: ·) ih

section Dispatch
variable {x : Exchange} {f : Frame}

lemma answers_of_decode (h : x.raw.decode = .ok f) :
    x.answers = (if f.message.requiresReceipt then [.ack (.success f.seq)] else []) ++
      x.reaction f.message := by
  simp only [Exchange.answers, h, requiresReceipt_of_decode h, (RawFrame.command?_of_decode h).2]
  rfl

lemma begins_of_sends (h : x.raw.decode = .ok f) (hend : x.ending? = none)
    (hreceipt : f.message.requiresReceipt = false) :
    x.Begins ((x.reaction f.message).map .send) where
  sends := by
    rw [filterMap_message?_send, answers_of_decode h, hreceipt]
    rfl
  stores := by
    refine .inl ⟨fun duty hduty => ?_, Exchange.isComplete_of_ending?_eq_none hend⟩
    obtain ⟨m, -, rfl⟩ := List.mem_map.mp hduty
    rfl

lemma begins_of_handOn (h : x.raw.decode = .ok f) (hend : x.ending? = none)
    (hreaction : x.reaction f.message = []) : x.Begins (receiptDuty f ++ [.deliver f]) := by
  rw [receiptDuty]
  by_cases hreceipt : f.message.requiresReceipt = true
  · rw [if_pos hreceipt]
    refine ⟨?_, .inl ⟨by simp [Session.stores], Exchange.isComplete_of_ending?_eq_none hend⟩⟩
    rw [answers_of_decode h, if_pos hreceipt, hreaction]
    rfl
  · rw [if_neg hreceipt]
    refine ⟨?_, .inl ⟨by simp [Session.stores], Exchange.isComplete_of_ending?_eq_none hend⟩⟩
    rw [answers_of_decode h, if_neg hreceipt, hreaction]
    rfl

lemma begins_of_syncClosed {p : Progress} {point : SyncPoint} (hend : x.ending? = some point)
    (hengine : x.engine = p.engine) (hstored : x.stored = none) (hclosing : x.closing = none) :
    x.Begins (p.syncClosed point.scope point.key).2 := by
  have hanswers : x.answers = [] := by
    rw [Exchange.answers_of_ending? hend, Exchange.outcome, hclosing]
  simp only [Progress.syncClosed]
  split
  · rename_i cursors hsnapshot
    rw [← hengine] at hsnapshot
    exact ⟨hanswers.symm, .inr (.persist point cursors hend hsnapshot hclosing)⟩
  · rename_i hsnapshot
    rw [← hengine] at hsnapshot
    have hcommit := Exchange.Stores.commit point hend (by simp [hstored, hsnapshot]) hclosing
    rw [hstored] at hcommit
    exact ⟨hanswers.symm, .inr hcommit⟩

lemma begins_of_syncEnd {p : Progress} {point : SyncPoint} (hend : x.ending? = some point)
    (hstored : x.stored.isSome = (x.engine.handleEnd point.scope point.key).2.isSome) :
    ({ x with closing := some p.engine } : Exchange).Begins
      (p.syncEnd point.scope point.key (x.stored.getD false)).2 where
  sends := by
    rw [Exchange.answers_of_ending? (x := { x with closing := some p.engine }) hend]
    simp only [Progress.syncEnd, List.filterMap_append, filterMap_message?_send, Exchange.outcome]
    exact List.append_nil _
  stores := by
    refine .inl ⟨?_, fun point' hpoint => ?_⟩
    · intro duty hduty
      simp only [Progress.syncEnd, List.mem_append, List.mem_map, List.mem_singleton] at hduty
      rcases hduty with (⟨m, -, rfl⟩ | ⟨m, -, rfl⟩) | rfl <;> rfl
    · obtain rfl : point = point' := Option.some.inj (hend.symm.trans hpoint)
      exact ⟨rfl, hstored⟩

end Dispatch

/-- A frame begins with the duties that lead to its answers. -/
theorem begins_dispatch (p : Progress) (t : Tracker Nat) (raw : RawFrame) :
    ({ raw, engine := p.engine } : Exchange).Begins (dispatch p t raw).duties := by
  unfold dispatch
  split
  · rename_i f hdecode
    have hending := Exchange.ending?_of_decode (x := { raw, engine := p.engine }) hdecode
    have hanswers := answers_of_decode (x := { raw, engine := p.engine }) hdecode
    obtain ⟨seq, version, flags, message⟩ := f
    cases message with
    | ack a => exact begins_of_sends hdecode hending rfl
    | signal kind =>
      cases kind with
      | reset => exact begins_of_handOn hdecode hending rfl
      | _ => exact begins_of_sends hdecode hending rfl
    | sync verb point =>
      cases verb with
      | opened =>
        have hquiet : ∀ duty ∈ [Duty.announce (.syncBegin point.scope)],
            Session.stores duty = false := by simp [Session.stores]
        exact ⟨hanswers.symm, .inl ⟨hquiet, Exchange.isComplete_of_ending?_eq_none hending⟩⟩
      | ended => exact begins_of_syncClosed hending rfl rfl rfl
      | notify => exact begins_of_sends hdecode hending rfl
      | _ => exact begins_of_handOn hdecode hending rfl
    | _ => exact begins_of_handOn hdecode hending rfl
  · rename_i e hdecode
    refine ⟨?_, .inl ⟨by simp, Exchange.isComplete_of_ending?_eq_none ?_⟩⟩
    · simp only [Exchange.answers, hdecode]
      rfl
    · simp only [Exchange.ending?, hdecode]

/-! ## Receipts -/

/-- What a message receipts. -/
def Message.receipt? : Message → Option Ack
  | .ack a => some a
  | _ => none

/-- Whether a frame is to be receipted: one of the commands that are, with a body that can be
read. -/
def RawFrame.isDue (raw : RawFrame) : Bool := raw.isReceipted && raw.decode.isOk

/-- A frame is receipted once if it is to be, under its own number, and not at all otherwise. -/
theorem Exchange.receipts_answers (x : Exchange) : x.answers.filterMap Message.receipt? =
    if x.raw.isDue then [⟨x.raw.header.seq, 0⟩] else [] := by
  have hreaction (m : Message) : (x.reaction m).filterMap Message.receipt? = [] := by
    refine List.filterMap_eq_nil_iff.mpr fun answer hanswer => ?_
    rcases mem_reaction hanswer with rfl | ⟨verb, point, rfl⟩ <;> rfl
  unfold answers RawFrame.isDue
  cases hdecode : x.raw.decode with
  | error e => simp [Except.isOk, Except.toBool]
  | ok f =>
    rw [List.filterMap_append, hreaction, List.append_nil]
    cases x.raw.isReceipted <;> simp [Except.isOk, Except.toBool, Message.receipt?]

end Parley
