import Parley.Proofs.Client.Run
import Parley.Proofs.Session.Sending

/-!
# What goes out on a connection

On every connection the token frame goes out first and the script of the queued items behind it, as
far as the writer has come. A lane says so for one connection, given the items that have been queued
on it and those of them that the writer is done with; every move of the client keeps the lanes
(`Client.Moved.passes`, `Lane.passes`).
-/

namespace Parley

/-- The octets of a token frame of a client. -/
def Config.Opens (config : Config) (auth : Bytes) : Prop :=
  ∃ token, (Handshake.frame config.connection.protocolVersion
    { platformId := config.device.platformId, token, deviceId := config.device.deviceId }).encode =
      .ok auth

def firstSeq : Int32 := Handshake.seq + 1

/-! ## Phases -/

def aheadOf : Option Phase → List Outgoing
  | some (.established s _) => s.sending.ahead
  | _ => []

def writesOf : Option Phase → Bool
  | some (.established s _) => s.outbox.isOpen
  | _ => false

/-- What a move does to a connection, and which octets go out on it. -/
inductive Passes (c : Client) : Option Phase → Bytes → Option Phase → Prop
  | same (phase : Option Phase) : Passes c phase [] phase
  | joined (token : String) (link : Link) :
    Passes c none [] (some (.greeting (c.introduce token) link))
  | refused : Passes c none [] (some .failed)
  | greeted (g g' : Handshake) (link link' : Link) (out : Bytes) (h : g.Writes out g') :
    Passes c (some (.greeting g link)) out (some (.greeting g' link'))
  | befell (g : Handshake) (link link' : Link) :
    Passes c (some (.greeting g link)) [] (some (.greeting g link'))
  | rejected (e : Error) (link : Link) :
    Passes c (some (.greeting (.done (.error e)) link)) [] (some .failed)
  | began (link : Link) (s : Session) (holder : Holder)
    (h : s.sending = ⟨c.config.connection.protocolVersion, none, [], true, firstSeq⟩) :
    Passes c (some (.greeting (.done (.ok ())) link)) [] (some (.established s holder))
  | failed (s : Session) (holder : Holder) (hopen : s.outbox.isOpen = false) :
    Passes c (some (.established s holder)) [] (some .failed)
  | session (s s' : Session) (holder holder' : Holder) (out : Bytes) (notes : List Note)
    (origin : Outgoing → Prop) (h : Conveys origin s.sending s'.sending out notes) :
    Passes c (some (.established s holder)) out (some (.established s' holder'))

lemma passes_of_setPhase {c c' d : Client} {i : Nat} {old new : Phase} (chunks : List Bytes)
    (hphases : ∀ j, c'.phase? j = (d.setPhase i new).phase? j)
    (hwires : ∀ j, c'.wireOf j = (d.setPhase i new).wireOf j) (hold : c.phase? i = some old)
    (hd : ∀ j, d.phase? j = c.phase? j) (hself : d.wireOf i = c.wireOf i ++ chunks.flatten)
    (hother : ∀ j, i ≠ j → d.wireOf j = c.wireOf j)
    (h : Passes c (some old) chunks.flatten (some new)) (j : Nat) :
    ∃ out, c'.wireOf j = c.wireOf j ++ out ∧ Passes c (c.phase? j) out (c'.phase? j) := by
  rw [hwires, Client.wireOf_setPhase]
  rcases Client.phase?_of_setPhase hphases hold hd j with ⟨rfl, hold', hnew⟩ | ⟨hj, hsame⟩
  · rw [hold', hnew]
    exact ⟨_, hself, h⟩
  · rw [hsame, hother j hj]
    exact ⟨[], (List.append_nil _).symm, .same _⟩

lemma passes_quietly {c c' : Client} {i : Nat} {old new : Phase}
    (hphases : ∀ j, c'.phase? j = (c.setPhase i new).phase? j)
    (hwires : ∀ j, c'.wireOf j = (c.setPhase i new).wireOf j) (hold : c.phase? i = some old)
    (h : Passes c (some old) [] (some new)) (j : Nat) :
    ∃ out, c'.wireOf j = c.wireOf j ++ out ∧ Passes c (c.phase? j) out (c'.phase? j) :=
  passes_of_setPhase [] hphases hwires hold (fun _ => rfl) (by simp) (fun _ _ => rfl) h j

theorem Client.Moved.passes {c c' : Client} (h : c.Moved c') (j : Nat) :
    ∃ out, c'.wireOf j = c.wireOf j ++ out ∧ Passes c (c.phase? j) out (c'.phase? j) := by
  cases h with
  | still h =>
    rw [wireOf_congr h, phase?_congr h]
    exact ⟨[], by simp, .same _⟩
  | joined id phase hphase h =>
    rw [wireOf_congr h, phase?_congr h, phase?_append]
    refine ⟨[], by rw [List.append_nil]; rfl, ?_⟩
    by_cases hj : j = c.connections.length
    · rw [if_pos hj, phase?_of_length_le c hj.ge]
      rcases hphase with rfl | ⟨token, rfl⟩
      · exact .refused
      · exact .joined token _
    · rw [if_neg hj]
      exact .same _
  | called new engine hnew hengine h =>
    rw [wireOf_congr h, phase?_congr h]
    exact ⟨[], by rw [List.append_nil]; rfl, .same _⟩
  | greeted i g g' link link' hphase hstep h =>
    obtain ⟨chunks, hwritten, hwrites⟩ := Handshake.writes_of_step? hstep
    exact passes_of_setPhase chunks (phase?_congr h) (wireOf_congr h) hphase (fun _ => rfl)
      (c.wireOf_noteWrites_self hwritten) (fun j hj => c.wireOf_noteWrites_ne hj _ _)
      (.greeted g g' link link' _ hwrites) j
  | befell i g link e hphase h =>
    exact passes_quietly (phase?_congr h) (wireOf_congr h) hphase (.befell g link _) j
  | rejected i e link hphase h =>
    exact passes_quietly (phase?_congr h) (wireOf_congr h) hphase (.rejected e link) j
  | began i link hphase h =>
    have hphases := phase?_congr h
    have hwires := wireOf_congr h
    refine passes_of_setPhase [] hphases hwires hphase (fun _ => rfl) (by simp [wireOf])
      (fun _ _ => rfl) ?_ j
    exact .began link _ _ rfl
  | failed i s holder hphase hstartup h =>
    exact passes_quietly (phase?_congr h) (wireOf_congr h) hphase
      (.failed s holder (Session.startup_failed hstartup).1) j
  | session i s s' holder holder' p' notes hphase hmoved h =>
    obtain ⟨chunks, hwritten, hconveys⟩ := hmoved.conveys
    refine passes_of_setPhase chunks (fun j => (phase?_congr h j).trans (phase?_applyNotes _ _ j))
      (fun j => (wireOf_congr h j).trans (wireOf_applyNotes _ _ j)) hphase (fun _ => rfl)
      (wireOf_noteWrites_self { c with progress := p' } hwritten)
      (fun j hj => wireOf_noteWrites_ne { c with progress := p' } hj _ _)
      (.session s s' holder holder' _ notes _ hconveys) j
  | offered k call item s holder outbox hcall hstage hphase hoffer h =>
    obtain ⟨hopen, rfl⟩ := Outbox.offer_taken hoffer
    have hphases := phase?_congr h
    have hwires := wireOf_congr h
    refine passes_quietly hphases hwires hphase ?_ j
    exact .session s _ holder holder [] [] (· = item) (.queued item hopen rfl)
  | lined k call item s holder outbox hcall hstage hphase hoffer h =>
    obtain ⟨hopen, rfl⟩ := Outbox.offer_lined hoffer
    have hphases := phase?_congr h
    have hwires := wireOf_congr h
    refine passes_quietly hphases hwires hphase ?_ j
    exact .session s _ holder holder [] [] (fun _ => False) (.nothing [] (by simp))
  | settled k call stage hcall hstage h =>
    rw [wireOf_congr h, phase?_congr h]
    exact ⟨[], by rw [List.append_nil]; rfl, .same _⟩
  | expired k call s holder seq deadline hcall hstage hreceipt hdue hphase h =>
    have hphases := phase?_congr h
    have hwires := wireOf_congr h
    refine passes_quietly hphases hwires hphase ?_ j
    exact .session s _ holder holder [] [] (fun _ => False) (.nothing [] (by simp))

/-! ## Lanes -/

section Lane
variable (config : Config) (queued behind : List Outgoing) (wire : Bytes)

/-- Nothing has been queued, and no more than a token frame has gone out. -/
def Silent : Prop :=
  queued = [] ∧ behind = [] ∧ (wire = [] ∨ ∃ rest, config.Opens (wire ++ rest))

/-- A token frame has gone out and behind it the script of the queued items, at least of those that
the writer is done with. -/
def Follows : Prop :=
  ∃ auth, config.Opens auth ∧ behind <+: queued ∧
    auth ++ script config.connection.protocolVersion firstSeq behind <+: wire ∧
    wire <+: auth ++ script config.connection.protocolVersion firstSeq queued

/-- What has gone out of an introduction. -/
def Greets : Handshake → Prop
  | .writing octets => config.Opens (wire ++ octets)
  | .awaiting _ | .done (.ok ()) => config.Opens wire
  | .done (.error _) => wire = [] ∨ ∃ rest, config.Opens (wire ++ rest)

/-- The writer has written what it is done with, and of the frame in its hands a front. -/
structure OnCourse (a : Sending) : Prop where
  version : a.version = config.connection.protocolVersion
  isOpen : a.isOpen = true
  queued : queued = behind ++ a.ahead
  nextSeq : a.nextSeq = numberBehind config.connection.protocolVersion firstSeq behind
  wire : ∃ auth part, config.Opens auth ∧
    wire = auth ++ script config.connection.protocolVersion firstSeq behind ++ part ∧
    (a.flight = none → part = []) ∧
    ∀ flight, a.flight = some flight → flight.seq = a.nextSeq ∧
      (flight.item.frame config.connection.protocolVersion flight.seq).encode =
        .ok (part ++ flight.octets)

/-- What has gone out on a connection, by the phase that it is in. -/
inductive Lane : Option Phase → Prop
  | absent (hsilent : Silent config queued behind wire) (hwire : wire = []) : Lane none
  | greeting (g : Handshake) (link : Link) (hqueued : queued = []) (hbehind : behind = [])
    (h : Greets config wire g) : Lane (some (.greeting g link))
  | failed (h : Silent config queued behind wire ∨ Follows config queued behind wire) :
    Lane (some .failed)
  | writing (s : Session) (holder : Holder) (h : OnCourse config queued behind wire s.sending) :
    Lane (some (.established s holder))
  | stopped (s : Session) (holder : Holder) (hopen : s.sending.isOpen = false)
    (hahead : s.sending.ahead = []) (h : Follows config queued behind wire) :
    Lane (some (.established s holder))

end Lane

section Step
variable {config : Config} {queued behind : List Outgoing} {wire : Bytes} {a a' : Sending}
  {origin : Outgoing → Prop} {out : Bytes} {notes : List Note}

lemma OnCourse.follows (h : OnCourse config queued behind wire a) :
    Follows config queued behind wire := by
  obtain ⟨auth, part, hauth, hwire, hnone, hsome⟩ := h.wire
  refine ⟨auth, hauth, ?_, ?_, ?_⟩
  · rw [h.queued]
    exact List.prefix_append _ _
  · rw [hwire]
    exact List.prefix_append _ _
  · rw [hwire, h.queued, script_append, ← h.nextSeq, List.append_assoc]
    apply List.prefix_append_right_inj _ |>.mpr
    apply List.prefix_append_right_inj _ |>.mpr
    cases hflight : a.flight with
    | none =>
      rw [hnone hflight]
      exact List.nil_prefix
    | some flight =>
      obtain ⟨hseq, hencode⟩ := hsome flight hflight
      have hahead : a.ahead = flight.item :: a.items := by simp [Sending.ahead, hflight]
      rw [hahead, ← hseq, script_of_ok _ _ hencode, List.append_assoc]
      exact List.prefix_append _ _

/-- The writer stays on course as long as it goes on. -/
theorem OnCourse.conveys (h : OnCourse config queued behind wire a)
    (hconveys : Conveys origin a a' out notes) (hopen : a'.isOpen = true) :
    OnCourse config (queued ++ a'.ahead.drop a.ahead.length)
      (behind ++ a.ahead.take (a.ahead.length - a'.ahead.length)) (wire ++ out) a' := by
  obtain ⟨auth, part, hauth, hwire, hnone, hsome⟩ := h.wire
  have hversion := h.version
  cases hconveys with
  | nothing notes hnotes => simpa using h
  | queued item hopen' horigin =>
    have hahead : Sending.ahead { a with items := a.items ++ [item] } = a.ahead ++ [item] := by
      simp [Sending.ahead]
    have hqueued : queued ++ [item] = behind ++ (a.ahead ++ [item]) := by simp [h.queued]
    rw [hahead, List.drop_left, List.length_append, List.length_singleton,
      Nat.sub_eq_zero_of_le (Nat.le_succ _), List.take_zero, List.append_nil, List.append_nil]
    exact ⟨hversion, h.isOpen, by rw [hahead]; exact hqueued, h.nextSeq, auth, part, hauth, hwire,
      hnone, hsome⟩
  | numbered item items octets notes hflight hitems hencode hnotes =>
    have hahead : Sending.ahead { a with items, flight := some ⟨item, a.nextSeq, octets⟩ } =
        a.ahead := by
      simp [Sending.ahead, hflight, hitems]
    rw [hahead, List.drop_length, Nat.sub_self, List.take_zero, List.append_nil, List.append_nil,
      List.append_nil]
    refine ⟨hversion, h.isOpen, by rw [hahead]; exact h.queued, h.nextSeq, auth, part, hauth,
      hwire, by simp, ?_⟩
    rintro flight' hflight'
    obtain rfl := Option.some.inj hflight'
    rw [hnone hflight, ← hversion]
    exact ⟨rfl, hencode⟩
  | skipped item items e notes hflight hitems hencode htransport hnotes =>
    have hahead : a.ahead = item :: items := by simp [Sending.ahead, hflight, hitems]
    have hahead' : Sending.ahead { a with items } = items := by simp [Sending.ahead, hflight]
    rw [hversion, h.nextSeq] at hencode
    rw [hahead, hahead', List.length_cons, List.drop_eq_nil_of_le (Nat.le_succ _),
      Nat.add_sub_cancel_left, List.take_succ_cons, List.take_zero, List.append_nil,
      List.append_nil]
    refine ⟨hversion, h.isOpen, ?_, ?_, auth, part, hauth, ?_, hnone, hsome⟩
    · rw [hahead', h.queued, hahead, List.append_assoc]
      rfl
    · rw [numberBehind_append, numberBehind_of_error _ _ hencode]
      exact h.nextSeq
    · rw [script_append, script_of_error _ _ hencode, script, List.append_nil, hwire]
  | advanced flight _ left hflight hoctets =>
    have hahead : Sending.ahead { a with flight := some { flight with octets := left } } =
        a.ahead := by
      simp [Sending.ahead, hflight]
    obtain ⟨hseq, hencode⟩ := hsome flight hflight
    rw [hahead, List.drop_length, Nat.sub_self, List.take_zero, List.append_nil, List.append_nil]
    refine ⟨hversion, h.isOpen, by rw [hahead]; exact h.queued, h.nextSeq, auth, part ++ out, hauth,
      by rw [hwire, List.append_assoc], by simp, ?_⟩
    rintro flight' hflight'
    obtain rfl := Option.some.inj hflight'
    rw [List.append_assoc, ← hoctets]
    exact ⟨hseq, hencode⟩
  | completed flight hflight =>
    have hahead : a.ahead = flight.item :: a.items := by simp [Sending.ahead, hflight]
    have hahead' : Sending.ahead { a with flight := none, nextSeq := a.nextSeq + 1 } = a.items := by
      simp [Sending.ahead]
    obtain ⟨hseq, hencode⟩ := hsome flight hflight
    rw [hseq, h.nextSeq] at hencode
    rw [hahead, hahead', List.length_cons, List.drop_eq_nil_of_le (Nat.le_succ _),
      Nat.add_sub_cancel_left, List.take_succ_cons, List.take_zero, List.append_nil]
    refine ⟨hversion, h.isOpen, ?_, ?_, auth, [], hauth, ?_, by simp, by simp⟩
    · rw [hahead', h.queued, hahead, List.append_assoc]
      rfl
    · rw [numberBehind_append, numberBehind_of_ok _ _ hencode, numberBehind, ← h.nextSeq]
    · rw [script_append, script_of_ok _ _ hencode, script, hwire]
      simp
  | stopped _ _ hfront hnotes => cases hopen

/-- A writer that ends leaves what it has written of the script. -/
theorem OnCourse.stops (h : OnCourse config queued behind wire a)
    (hconveys : Conveys origin a a' out notes) (hopen : a'.isOpen = false) :
    a'.ahead = [] ∧ Follows config queued behind (wire ++ out) := by
  have hopen' := h.isOpen
  cases hconveys with
  | stopped _ _ hfront hnotes =>
    refine ⟨rfl, ?_⟩
    rcases hfront with rfl | ⟨flight, left, hflight, hoctets⟩
    · rw [List.append_nil]
      exact h.follows
    · -- A writer that stops inside a frame has first written a front of it.
      have hpart : Conveys origin a _ out [] := .advanced flight out left hflight hoctets
      have hadvanced := h.conveys hpart hopen'
      have hahead : Sending.ahead { a with flight := some { flight with octets := left } } =
          a.ahead := by
        simp [Sending.ahead, hflight]
      rw [hahead, List.drop_length, Nat.sub_self, List.take_zero, List.append_nil,
        List.append_nil] at hadvanced
      exact hadvanced.follows
  | _ => simp_all

lemma Conveys.of_stopped (h : Conveys origin a a' out notes) (hopen : a.isOpen = false)
    (hahead : a.ahead = []) : a'.isOpen = false ∧ a'.ahead = [] ∧ out = [] := by
  have hflight : a.flight = none := by
    simpa [Sending.ahead] using (List.append_eq_nil_iff.mp hahead).1
  cases h with
  | nothing notes hnotes => exact ⟨hopen, hahead, rfl⟩
  | stopped _ _ hfront hnotes =>
    rcases hfront with rfl | ⟨flight, left, hflight', -⟩
    · exact ⟨rfl, rfl, rfl⟩
    · simp [hflight] at hflight'
  | numbered item items octets notes hflight' hitems hencode hnotes =>
    simp [Sending.ahead, hitems] at hahead
  | skipped item items e notes hflight' hitems hencode htransport hnotes =>
    simp [Sending.ahead, hitems] at hahead
  | _ => simp_all

end Step

def newly (phase phase' : Option Phase) : List Outgoing :=
  (aheadOf phase').drop (aheadOf phase).length

def passed (phase phase' : Option Phase) : List Outgoing :=
  if writesOf phase' then
    (aheadOf phase).take ((aheadOf phase).length - (aheadOf phase').length)
  else []

@[simp] lemma newly_self (phase : Option Phase) : newly phase phase = [] := by
  simp [newly]

@[simp] lemma passed_self (phase : Option Phase) : passed phase phase = [] := by
  simp [passed]

lemma newly_of_ahead_nil {phase phase' : Option Phase} (h : aheadOf phase' = []) :
    newly phase phase' = [] := by
  simp [newly, h]

lemma passed_of_ahead_nil {phase phase' : Option Phase} (h : aheadOf phase = []) :
    passed phase phase' = [] := by
  simp [passed, h]

section Passing
variable {c : Client} {queued behind : List Outgoing} {wire out : Bytes}
  {phase phase' : Option Phase}

lemma Greets.writes {config : Config} {g g' : Handshake} (h : Greets config wire g)
    (hwrites : g.Writes out g') : Greets config (wire ++ out) g' := by
  cases hwrites with
  | part front left =>
    rw [Greets, ← List.append_assoc] at h
    exact h
  | all octets deadline => exact h
  | broken front left e =>
    rw [Greets, ← List.append_assoc] at h
    exact .inr ⟨left, h⟩
  | heard deadline result =>
    rw [List.append_nil]
    cases result with
    | ok u => exact h
    | error e => exact .inr ⟨[], by rw [List.append_nil]; exact h⟩

lemma greets_introduce (c : Client) (token : String) : Greets c.config [] (c.introduce token) := by
  rw [Client.introduce, Handshake.start]
  split
  · rename_i octets hencode
    exact ⟨token, hencode⟩
  · exact .inl rfl

theorem Lane.passes (h : Lane c.config queued behind wire phase)
    (hpasses : Passes c phase out phase') :
    Lane c.config (queued ++ newly phase phase') (behind ++ passed phase phase') (wire ++ out)
      phase' := by
  cases hpasses with
  | same phase => simpa using h
  | joined token link =>
    cases h with
    | absent hsilent hwire =>
      obtain ⟨rfl, rfl, -⟩ := hsilent
      subst hwire
      exact .greeting _ link rfl rfl (greets_introduce c token)
  | refused =>
    cases h with
    | absent hsilent hwire =>
      obtain ⟨rfl, rfl, -⟩ := hsilent
      subst hwire
      exact .failed (.inl ⟨rfl, rfl, .inl rfl⟩)
  | greeted g g' link link' out hwrites =>
    cases h with
    | greeting g link hqueued hbehind h =>
      subst hqueued hbehind
      exact .greeting g' link' rfl rfl (h.writes hwrites)
  | befell g link link' =>
    cases h with
    | greeting g link hqueued hbehind h =>
      subst hqueued hbehind
      exact .greeting g link' rfl rfl (by rw [List.append_nil]; exact h)
  | rejected e link =>
    cases h with
    | greeting g link hqueued hbehind h =>
      subst hqueued hbehind
      refine .failed (.inl ⟨rfl, rfl, ?_⟩)
      rw [List.append_nil]
      exact h
  | began link s holder hs =>
    cases h with
    | greeting g link hqueued hbehind h =>
      subst hqueued hbehind
      have hahead : aheadOf (some (.established s holder)) = [] := by
        simp [aheadOf, hs, Sending.ahead]
      rw [newly_of_ahead_nil hahead, passed_of_ahead_nil rfl, List.append_nil, List.append_nil]
      refine .writing s holder ⟨by rw [hs], by rw [hs], hahead.symm, by rw [hs]; rfl, ?_⟩
      exact ⟨wire, [], h, by simp [script], by simp [hs], by simp [hs]⟩
  | failed s holder hopen =>
    have hpassed : passed (some (.established s holder)) (some .failed) = [] := rfl
    rw [newly_of_ahead_nil rfl, hpassed, List.append_nil, List.append_nil, List.append_nil]
    cases h with
    | writing s holder h => exact .failed (.inr h.follows)
    | stopped s holder hopen' hahead h => exact .failed (.inr h)
  | session s s' holder holder' out notes origin hconveys =>
    cases h with
    | writing s holder h =>
      cases hopen : s'.sending.isOpen with
      | true =>
        have hpassed : passed (some (.established s holder)) (some (.established s' holder')) =
            s.sending.ahead.take (s.sending.ahead.length - s'.sending.ahead.length) := if_pos hopen
        rw [hpassed]
        exact .writing s' holder' (h.conveys hconveys hopen)
      | false =>
        -- What was still ahead of the writer is lost: it does not count as done with.
        obtain ⟨hahead, hfollows⟩ := h.stops hconveys hopen
        have hahead' : aheadOf (some (.established s' holder')) = [] := hahead
        have hpassed :
            passed (some (.established s holder)) (some (.established s' holder')) = [] :=
          if_neg (by rw [Bool.not_eq_true]; exact hopen)
        rw [hpassed, newly_of_ahead_nil hahead', List.append_nil, List.append_nil]
        exact .stopped s' holder' hopen hahead hfollows
    | stopped s holder hopen hahead h =>
      obtain ⟨hopen', hahead', rfl⟩ := hconveys.of_stopped hopen hahead
      have hbefore : aheadOf (some (.established s holder)) = [] := hahead
      have hafter : aheadOf (some (.established s' holder')) = [] := hahead'
      rw [passed_of_ahead_nil hbefore, newly_of_ahead_nil hafter, List.append_nil,
        List.append_nil, List.append_nil]
      exact .stopped s' holder' hopen' hahead' h

end Passing

/-! ## What becomes of an item -/

/-- What a report says about the number of a call's frame, and to which call. -/
def Note.slot? : Note → Option (Nat × Slot (Except Error Int32))
  | .numbered k result => some (k, .full result)
  | .lost k => some (k, .broken)
  | _ => none

def overOf : Option Phase → Bool
  | some .failed => true
  | some (.established s _) => !s.outbox.isOpen
  | _ => false

/-- What becomes of a queued item, as its call is told: its frame is written under the number that
follows those before it; or it cannot be encoded; or the writer has ended before it was done with
it. -/
inductive Fate (version : UInt8) (queued behind : List Outgoing) (ended : Bool)
    (item : Outgoing) : Slot (Except Error Int32) → Prop
  | written (before after : List Outgoing) (octets : Bytes)
    (hbehind : behind = before ++ item :: after)
    (hencode : (item.frame version (numberBehind version firstSeq before)).encode = .ok octets) :
    Fate version queued behind ended item (.full (.ok (numberBehind version firstSeq before)))
  | skipped (before after : List Outgoing) (e : Error) (hbehind : behind = before ++ item :: after)
    (hencode : (item.frame version (numberBehind version firstSeq before)).encode = .error e)
    (htransport : e.isTransport = false) :
    Fate version queued behind ended item (.full (.error e))
  | refused (before after : List Outgoing) (hover : ended = true)
    (hqueued : queued = behind ++ (before ++ item :: after)) :
    Fate version queued behind ended item (.full (.error .connectionClosed))
  | lost (before after : List Outgoing) (hover : ended = true)
    (hqueued : queued = behind ++ (before ++ item :: after)) :
    Fate version queued behind ended item .broken

lemma Fate.mono {version : UInt8} {queued queued' behind behind' : List Outgoing}
    {ended ended' : Bool} {item : Outgoing} {slot : Slot (Except Error Int32)}
    (h : Fate version queued behind ended item slot) (hbehind : behind <+: behind')
    (hover : ended = true → ended' = true ∧ queued' = queued ∧ behind' = behind) :
    Fate version queued' behind' ended' item slot := by
  cases h with
  | written before after octets hitem hencode =>
    obtain ⟨more, rfl⟩ := hbehind
    exact .written before (after ++ more) octets (by simp [hitem]) hencode
  | skipped before after e hitem hencode htransport =>
    obtain ⟨more, rfl⟩ := hbehind
    exact .skipped before (after ++ more) e (by simp [hitem]) hencode htransport
  | refused before after hover' hqueued =>
    obtain ⟨hended, rfl, rfl⟩ := hover hover'
    exact .refused before after hended hqueued
  | lost before after hover' hqueued =>
    obtain ⟨hended, rfl, rfl⟩ := hover hover'
    exact .lost before after hended hqueued

lemma Note.slot?_of_isReceipt {n : Note} (h : n.isReceipt = true) : n.slot? = none := by
  cases n with
  | receipted k a => rfl
  | unreceipted k => rfl
  | numbered k result => cases h
  | lost k => cases h

lemma Note.ends_nil {n : Note} (h : n.Ends []) : n.slot? = none := by
  cases n with
  | receipted k a => rfl
  | unreceipted k => rfl
  | numbered k result =>
    cases result with
    | ok seq => cases h
    | error e =>
      cases e with
      | connectionClosed =>
        obtain ⟨item, hitem, -⟩ := h
        cases hitem
      | _ => cases h
  | lost k =>
    obtain ⟨item, hitem, -⟩ := h
    cases hitem

lemma Note.ends_slot {items : List Outgoing} {n : Note} {k : Nat}
    {slot : Slot (Except Error Int32)} (h : n.Ends items) (hslot : n.slot? = some (k, slot)) :
    ∃ item ∈ items, item.caller = some k ∧
      (slot = .full (.error .connectionClosed) ∨ slot = .broken) := by
  cases n with
  | receipted k a => cases hslot
  | unreceipted k => cases hslot
  | numbered k result =>
    cases result with
    | ok seq => cases h
    | error e =>
      cases hslot
      cases e with
      | connectionClosed =>
        obtain ⟨item, hitem, hcaller⟩ := h
        exact ⟨item, hitem, hcaller, .inl rfl⟩
      | _ => cases h
  | lost k =>
    obtain ⟨item, hitem, hcaller⟩ := h
    cases hslot
    exact ⟨item, hitem, hcaller, .inr rfl⟩

lemma Conveys.slot?_of_stopped {a a' : Sending} {origin : Outgoing → Prop} {out : Bytes}
    {notes : List Note} {n : Note} (h : Conveys origin a a' out notes) (hahead : a.ahead = [])
    (hn : n ∈ notes) : n.slot? = none := by
  have hflight : a.flight = none := by
    simpa [Sending.ahead] using (List.append_eq_nil_iff.mp hahead).1
  cases h with
  | nothing _ hnotes => exact Note.slot?_of_isReceipt (hnotes n hn)
  | queued item hopen' horigin => cases hn
  | numbered item items octets _ hflight' hitems hencode hnotes =>
    exact Note.slot?_of_isReceipt (hnotes n hn)
  | skipped item items e _ hflight' hitems hencode htransport hnotes =>
    simp [Sending.ahead, hitems] at hahead
  | advanced flight _ left hflight' hoctets => cases hn
  | completed flight hflight' =>
    rw [hflight] at hflight'
    cases hflight'
  | stopped _ _ hfront hnotes =>
    have hends := hnotes n hn
    rw [hahead] at hends
    exact Note.ends_nil hends

/-- A writer on course tells a call what has become of its item. -/
theorem OnCourse.told {config : Config} {queued behind : List Outgoing} {wire out : Bytes}
    {a a' : Sending} {origin : Outgoing → Prop} {notes : List Note} {n : Note} {k : Nat}
    {slot : Slot (Except Error Int32)} (h : OnCourse config queued behind wire a)
    (hconveys : Conveys origin a a' out notes) (hn : n ∈ notes) (hslot : n.slot? = some (k, slot)) :
    ∃ item ∈ queued, item.caller = some k ∧
      Fate config.connection.protocolVersion (queued ++ a'.ahead.drop a.ahead.length)
        (behind ++ if a'.isOpen then a.ahead.take (a.ahead.length - a'.ahead.length) else [])
        (!a'.isOpen) item slot := by
  obtain ⟨auth, part, hauth, hwire, hnone, hsome⟩ := h.wire
  have hversion := h.version
  have hopen := h.isOpen
  cases hconveys with
  | nothing _ hnotes =>
    rw [Note.slot?_of_isReceipt (hnotes n hn)] at hslot
    cases hslot
  | queued item hopen horigin => cases hn
  | numbered item items octets _ hflight hitems hencode hnotes =>
    rw [Note.slot?_of_isReceipt (hnotes n hn)] at hslot
    cases hslot
  | skipped item items e _ hflight hitems hencode htransport hnotes =>
    rcases hnotes n hn with hreceipt | ⟨k', hcaller, rfl⟩
    · rw [Note.slot?_of_isReceipt hreceipt] at hslot
      cases hslot
    · cases hslot
      have hahead : a.ahead = item :: items := by simp [Sending.ahead, hflight, hitems]
      have hahead' : Sending.ahead { a with items } = items := by simp [Sending.ahead, hflight]
      have htake : (item :: items).take ((item :: items).length - items.length) = [item] := by
        simp
      rw [hversion, h.nextSeq] at hencode
      refine ⟨item, by simp [h.queued, hahead], hcaller, ?_⟩
      rw [hahead, hahead', htake, if_pos hopen]
      exact .skipped behind [] e rfl hencode htransport
  | advanced flight _ left hflight hoctets => cases hn
  | completed flight hflight =>
    obtain ⟨k', hcaller, rfl⟩ := mem_numberedNote.mp hn
    cases hslot
    have hahead : a.ahead = flight.item :: a.items := by simp [Sending.ahead, hflight]
    have hahead' : Sending.ahead { a with flight := none, nextSeq := a.nextSeq + 1 } = a.items := by
      simp [Sending.ahead]
    have htake : (flight.item :: a.items).take
        ((flight.item :: a.items).length - a.items.length) = [flight.item] := by
      simp
    obtain ⟨hseq, hencode⟩ := hsome flight hflight
    rw [h.nextSeq] at hseq
    rw [hseq] at hencode ⊢
    refine ⟨flight.item, by simp [h.queued, hahead], hcaller, ?_⟩
    rw [hahead, hahead', htake, if_pos hopen]
    exact .written behind [] _ rfl hencode
  | stopped _ _ hfront hnotes =>
    obtain ⟨item, hitem, hcaller, hslot'⟩ := Note.ends_slot (hnotes n hn) hslot
    obtain ⟨before, after, hahead⟩ := List.append_of_mem hitem
    have hahead' : Sending.ahead { a with flight := none, items := [], isOpen := false } = [] := rfl
    refine ⟨item, by rw [h.queued]; exact List.mem_append_right _ hitem, hcaller, ?_⟩
    rw [hahead', List.drop_nil, List.append_nil, if_neg (by simp), List.append_nil]
    rcases hslot' with rfl | rfl
    · exact .refused before after rfl (by rw [h.queued, hahead])
    · exact .lost before after rfl (by rw [h.queued, hahead])

end Parley
