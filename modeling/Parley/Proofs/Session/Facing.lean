import Parley.Proofs.Session.Choices
import Parley.Proofs.Session.Feeding

/-!
# A session on another reader

`Session.facing` puts another reader and another keepalive under a session. Nothing that a session
does looks at them, except where it reads a frame, is due for a ping, or has just become ready: all
else is done alike, and leaves them as they are.
-/

namespace Parley

namespace Session
variable {s : Session} {p : Progress} {now : Nat}

def facing (r : FrameReader) (k : Keepalive) (s : Session) : Session :=
  { s with link := { s.link with reader := r }, keepalive := k }

section Facing
variable (r : FrameReader) (k : Keepalive) (s : Session) (p : Progress)

lemma facing_facing (r' : FrameReader) (k' : Keepalive) :
    (s.facing r k).facing r' k' = s.facing r' k' := rfl

lemma facing_self : s.facing s.link.reader s.keepalive = s := rfl

/-! ## The writing side -/

lemma writeFailed_facing (item : Outgoing) (seq : Int32) (e : Error) :
    (s.facing r k).writeFailed item seq e = (s.writeFailed item seq e).map (facing r k) id := by
  unfold writeFailed
  cases e.isTransport <;> rfl

lemma registerWaiter_facing (item : Outgoing) (seq : Int32) :
    (s.facing r k).registerWaiter item seq = (s.registerWaiter item seq).map (facing r k) id := by
  unfold registerWaiter
  cases item.caller <;> cases item.tracked <;> rfl

lemma takeItem_facing (item : Outgoing) (outbox : Outbox) :
    (s.facing r k).takeItem item outbox = (s.takeItem item outbox).map (facing r k) id := by
  have hregister := registerWaiter_facing r k { s with outbox } item s.nextSeq
  have hfacing : ({ s.facing r k with outbox } : Session) = facing r k { s with outbox } := rfl
  have hseq : (s.facing r k).nextSeq = s.nextSeq := rfl
  unfold takeItem
  rw [hfacing, hseq]
  dsimp only
  rw [hregister]
  generalize ({ s with outbox } : Session).registerWaiter item s.nextSeq = registered
  obtain ⟨s', notes⟩ := registered
  have hframe : (s'.facing r k).frameOf item s.nextSeq = s'.frameOf item s.nextSeq := rfl
  simp only [Prod.map_apply, id_eq, hframe]
  cases (s'.frameOf item s.nextSeq).encode with
  | ok octets => rfl
  | error e =>
    simp only [writeFailed_facing]
    rfl

lemma writeFlight_facing (flight : Flight) :
    (s.facing r k).writeFlight flight =
      (s.writeFlight flight).map (Prod.map (facing r k) id) := by
  have hwrite : (s.facing r k).link.write flight.octets =
      (s.link.write flight.octets).map id (Prod.map id fun l => { l with reader := r }) := rfl
  unfold writeFlight
  rw [hwrite]
  obtain ⟨answer, octets, link⟩ := s.link.write flight.octets
  cases answer with
  | none =>
    simp only [Prod.map_apply, id_eq]
    split_ifs <;> rfl
  | some result =>
    cases result with
    | ok _ => rfl
    | error e => exact congrArg some (writeFailed_facing r k { s with link } _ _ _)

lemma write?_facing : (s.facing r k).write? = s.write?.map (Prod.map (facing r k) id) := by
  unfold write?
  have hflight : (s.facing r k).flight = s.flight := rfl
  have houtbox : (s.facing r k).outbox = s.outbox := rfl
  rw [hflight, houtbox]
  cases s.flight with
  | some flight => exact writeFlight_facing r k s flight
  | none =>
    cases s.outbox.pop? with
    | none => rfl
    | some popped => exact congrArg some (takeItem_facing r k s popped.1 popped.2)

/-! ## The reading side -/

def Step.facing (step : Step) : Step := { step with session := step.session.facing r k }

lemma emit_facing (ev : Event) : (s.facing r k).emit p ev = (s.emit p ev).facing r k := by
  simp only [emit, apply_ite (Step.facing r k)]
  rfl

lemma perform_facing (duty : Duty) (rest : List Duty) :
    (s.facing r k).perform p duty rest = (s.perform p duty rest).map (Step.facing r k) := by
  cases duty with
  | send m =>
    simp only [perform, facing]
    cases s.outbox.offer .reading { message := m } <;> rfl
  | deliver f => exact congrArg some (emit_facing r k { s with stage := .live rest } p _)
  | announce ev => exact congrArg some (emit_facing r k { s with stage := .live rest } p _)
  | persist scope key cursors => rfl
  | commit scope key persisted => rfl

lemma refill_facing : (s.facing r k).refill p = (s.refill p).map (Step.facing r k) := by
  have hbacklog : (s.facing r k).backlog = s.backlog := rfl
  unfold refill
  rw [hbacklog]
  cases s.backlog with
  | nil => rfl
  | cons ev backlog =>
    simp only [apply_ite (Option.map (Step.facing r k))]
    rfl

lemma leave_facing : (s.facing r k).leave p = (s.leave p).map (Step.facing r k) := by
  have hbacklog : (s.facing r k).backlog = s.backlog := rfl
  unfold leave
  rw [hbacklog]
  cases s.backlog with
  | nil => rfl
  | cons ev backlog =>
    simp only [apply_ite (Option.map (Step.facing r k))]
    rfl

/-- What the reading side can do besides reading a frame and sending a ping. -/
def asides (s : Session) (p : Progress) : List Step :=
  (s.writeFault.map fun e => s.finish p (.failed e)).toList ++ (s.refill p).toList ++
    if s.closing then [s.finish p .closedByClient] else []

lemma asides_facing : (s.facing r k).asides p = (s.asides p).map (Step.facing r k) := by
  have hfault : (s.facing r k).writeFault = s.writeFault := rfl
  have hclosing : (s.facing r k).closing = s.closing := rfl
  unfold asides
  rw [refill_facing, hfault, hclosing]
  simp only [List.map_append, Option.toList_map, List.map_map]
  cases s.closing <;> rfl

end Facing

lemma choices_of_live (hstage : s.stage = .live []) :
    s.choices p now = (s.readFrame p now).toList ++ (s.keepAlive p now).toList ++ s.asides p := by
  unfold choices asides
  rw [hstage]
  simp only [List.append_assoc]

lemma choices_facing (r : FrameReader) (k : Keepalive) (hstage : s.stage ≠ .live []) :
    (s.facing r k).choices p now = (s.choices p now).map (Step.facing r k) := by
  have hread : (s.facing r k).read? p now = (s.read? p now).map (Step.facing r k) := by
    have hstage' : (s.facing r k).stage = s.stage := rfl
    unfold read?
    rw [hstage']
    cases h : s.stage with
    | starting _ | gone => rfl
    | leaving => exact leave_facing r k s p
    | live duties =>
      cases duties with
      | nil => exact absurd h hstage
      | cons duty rest => exact perform_facing r k s p duty rest
  have htoList {s : Session} (hstage : s.stage ≠ .live []) :
      s.choices p now = (s.read? p now).toList := by
    unfold choices
    split
    · exact absurd ‹_› hstage
    · rfl
  rw [htoList hstage, htoList (show (s.facing r k).stage ≠ .live [] from hstage), hread,
    Option.toList_map]

/-! ## Reading and pinging -/

section Live
variable (r : FrameReader) (k : Keepalive) (s : Session) (p : Progress) (now : Nat)

/-- What a frame does to a session that is ready for one. -/
def hearing (raw : RawFrame) : Step :=
  let d := dispatch p s.tracker raw
  { session := { s with tracker := d.tracker, stage := .live d.duties }
    progress := d.progress
    notes := d.receipt.toList.map fun (call, a) => .receipted call a }

def pinging : Step :=
  { session := { s with stage := .live [.send (.signal .ping)] }, progress := p }

lemma readFrame_facing :
    (s.facing r k).readFrame p now =
      match r.nextRaw.1 with
      | none => none
      | some (.ok raw) => some ((s.hearing p raw).facing r.nextRaw.2 (k.onFrame now))
      | some (.error e) => some ((s.finish p (.failed e)).facing r.nextRaw.2 k) := by
  have hnext : (s.facing r k).link.nextRaw =
      (r.nextRaw.1, { s.link with reader := r.nextRaw.2 }) := rfl
  unfold readFrame
  rw [hnext]
  cases r.nextRaw.1 with
  | none => rfl
  | some answer => cases answer <;> rfl

lemma keepAlive_facing :
    (s.facing r k).keepAlive p now =
      if now < k.deadline then none else some ((s.pinging p).facing r (k.onIdle now).1) := by
  unfold keepAlive Keepalive.onIdle
  by_cases h : now < k.deadline
  · simp [facing, h]
  · simp [facing, h, pinging, Step.facing]

/-- The answer of the reader comes before a ping, and a ping before the rest. -/
lemma choices_facing_of_live (hstage : s.stage = .live []) :
    (s.facing r k).choices p now =
      ((s.facing r k).readFrame p now).toList ++
        (if now < k.deadline then [] else [(s.pinging p).facing r (k.onIdle now).1]) ++
        (s.asides p).map (Step.facing r k) := by
  rw [choices_of_live (show (s.facing r k).stage = .live [] from hstage), keepAlive_facing,
    asides_facing]
  split <;> rfl

lemma choice_of_live {r : FrameReader} {k : Keepalive} {s : Session} {p : Progress} {now n : Nat}
    {step : Step} (hstage : s.stage = .live [])
    (h : ((s.facing r k).choices p now)[n]? = some step) :
    (n = 0 ∧ ∃ answer, r.nextRaw.1 = some answer) ∨
      (k.deadline ≤ now ∧ step = (s.pinging p).facing r (k.onIdle now).1) ∨
      ∃ aside : Step, aside ∈ s.asides p ∧ step = aside.facing r k := by
  rw [choices_facing_of_live r k s p now hstage, List.append_assoc] at h
  by_cases hn : n < ((s.facing r k).readFrame p now).toList.length
  · rw [readFrame_facing] at hn
    cases hnext : r.nextRaw.1 with
    | none => simp [hnext] at hn
    | some answer =>
      refine .inl ⟨?_, answer, rfl⟩
      rw [hnext] at hn
      cases answer <;> simpa using hn
  · refine .inr ?_
    rw [List.getElem?_append_right (Nat.le_of_not_lt hn)] at h
    rcases List.mem_append.mp (List.mem_of_getElem? h) with hping | hmem
    · split at hping
      · cases hping
      · rename_i hdue
        exact .inl ⟨Nat.le_of_not_lt hdue, List.mem_singleton.mp hping⟩
    · obtain ⟨aside, haside, rfl⟩ := List.mem_map.mp hmem
      exact .inr ⟨aside, haside, rfl⟩

lemma exists_choice_of_live {r : FrameReader} {k : Keepalive} {s : Session} {p : Progress}
    {now : Nat} {step : Step} (hstage : s.stage = .live [])
    (h : (k.deadline ≤ now ∧ step = (s.pinging p).facing r (k.onIdle now).1) ∨
      ∃ aside : Step, aside ∈ s.asides p ∧ step = aside.facing r k) :
    ∃ n, ((s.facing r k).readFrame p now).toList.length ≤ n ∧
      ((s.facing r k).choices p now)[n]? = some step := by
  rw [choices_facing_of_live r k s p now hstage, List.append_assoc]
  have hmem : step ∈ (if now < k.deadline then []
      else [(s.pinging p).facing r (k.onIdle now).1]) ++ (s.asides p).map (Step.facing r k) := by
    rcases h with ⟨hdue, rfl⟩ | ⟨aside, haside, rfl⟩
    · simp [Nat.not_lt.mpr hdue]
    · exact List.mem_append_right _ (List.mem_map_of_mem haside)
  obtain ⟨m, hm⟩ := List.mem_iff_getElem?.mp hmem
  refine ⟨((s.facing r k).readFrame p now).toList.length + m, Nat.le_add_right _ _, ?_⟩
  rw [List.getElem?_append_right (Nat.le_add_right _ _), Nat.add_sub_cancel_left, hm]

lemma hearing_of_illegible {raw : RawFrame} {e : Error} (hstage : s.stage = .live [])
    (h : raw.decode = .error e) : s.hearing p raw = { session := s, progress := p } := by
  have hlive : { s with stage := .live [] } = s := by rw [← hstage]
  simp only [hearing, dispatch, h]
  exact congrArg (fun session : Session => ({ session, progress := p } : Step)) hlive

end Live

end Session

end Parley
