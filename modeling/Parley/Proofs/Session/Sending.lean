import Mathlib.Data.List.Infix
import Parley.Proofs.Session.Steps
import Parley.Proofs.Wire.RoundTrip

/-!
# What a session sends

The frames of queued items, numbered one after another, make up a script (`script`); an item that
cannot be encoded is left out and takes no number. `Session.Conveys` says what a step of a session
does to its sending side and which octets go out by it.
-/

namespace Parley

/-! ## Scripts -/

def Outgoing.frame (item : Outgoing) (version : UInt8) (seq : Int32) : Frame :=
  { seq, version, flags := item.flags, message := item.message }

/-- The octets of items that are numbered from a number on. -/
def script (version : UInt8) : Int32 → List Outgoing → Bytes
  | _, [] => []
  | seq, item :: items =>
    match (item.frame version seq).encode with
    | .ok octets => octets ++ script version (seq + 1) items
    | .error _ => script version seq items

/-- The number behind those of items that are numbered from a number on. -/
def numberBehind (version : UInt8) : Int32 → List Outgoing → Int32
  | seq, [] => seq
  | seq, item :: items =>
    match (item.frame version seq).encode with
    | .ok _ => numberBehind version (seq + 1) items
    | .error _ => numberBehind version seq items

def frameCount (version : UInt8) : Int32 → List Outgoing → Nat
  | _, [] => 0
  | seq, item :: items =>
    match (item.frame version seq).encode with
    | .ok _ => frameCount version (seq + 1) items + 1
    | .error _ => frameCount version seq items

section Script
variable (version : UInt8) (seq : Int32) {item : Outgoing} {octets : Bytes} {e : Error}

lemma script_of_ok (h : (item.frame version seq).encode = .ok octets) (items : List Outgoing) :
    script version seq (item :: items) = octets ++ script version (seq + 1) items := by
  rw [script, h]

lemma script_of_error (h : (item.frame version seq).encode = .error e) (items : List Outgoing) :
    script version seq (item :: items) = script version seq items := by
  rw [script, h]

lemma numberBehind_of_ok (h : (item.frame version seq).encode = .ok octets)
    (items : List Outgoing) :
    numberBehind version seq (item :: items) = numberBehind version (seq + 1) items := by
  rw [numberBehind, h]

lemma numberBehind_of_error (h : (item.frame version seq).encode = .error e)
    (items : List Outgoing) :
    numberBehind version seq (item :: items) = numberBehind version seq items := by
  rw [numberBehind, h]

lemma script_append (items items' : List Outgoing) :
    script version seq (items ++ items') =
      script version seq items ++ script version (numberBehind version seq items) items' := by
  induction items generalizing seq with
  | nil => rfl
  | cons item items ih =>
    cases hencode : (item.frame version seq).encode with
    | ok octets =>
      rw [List.cons_append, script_of_ok _ _ hencode, script_of_ok _ _ hencode,
        numberBehind_of_ok _ _ hencode, ih, List.append_assoc]
    | error e =>
      rw [List.cons_append, script_of_error _ _ hencode, script_of_error _ _ hencode,
        numberBehind_of_error _ _ hencode, ih]

lemma numberBehind_append (items items' : List Outgoing) :
    numberBehind version seq (items ++ items') =
      numberBehind version (numberBehind version seq items) items' := by
  induction items generalizing seq with
  | nil => rfl
  | cons item items ih =>
    cases hencode : (item.frame version seq).encode with
    | ok octets =>
      rw [List.cons_append, numberBehind_of_ok _ _ hencode, numberBehind_of_ok _ _ hencode, ih]
    | error e =>
      rw [List.cons_append, numberBehind_of_error _ _ hencode, numberBehind_of_error _ _ hencode,
        ih]

lemma frameCount_of_ok (h : (item.frame version seq).encode = .ok octets) (items : List Outgoing) :
    frameCount version seq (item :: items) = frameCount version (seq + 1) items + 1 := by
  rw [frameCount, h]

lemma frameCount_of_error (h : (item.frame version seq).encode = .error e)
    (items : List Outgoing) :
    frameCount version seq (item :: items) = frameCount version seq items := by
  rw [frameCount, h]

lemma frameCount_append (items items' : List Outgoing) :
    frameCount version seq (items ++ items') = frameCount version seq items +
      frameCount version (numberBehind version seq items) items' := by
  induction items generalizing seq with
  | nil => exact (Nat.zero_add _).symm
  | cons item items ih =>
    cases hencode : (item.frame version seq).encode with
    | ok octets =>
      rw [List.cons_append, frameCount_of_ok _ _ hencode, frameCount_of_ok _ _ hencode,
        numberBehind_of_ok _ _ hencode, ih]
      omega
    | error e =>
      rw [List.cons_append, frameCount_of_error _ _ hencode, frameCount_of_error _ _ hencode,
        numberBehind_of_error _ _ hencode, ih]

lemma numberBehind_eq (items : List Outgoing) :
    numberBehind version seq items = seq + Int32.ofNat (frameCount version seq items) := by
  induction items generalizing seq with
  | nil => exact (Int32.add_zero seq).symm
  | cons item items ih =>
    cases hencode : (item.frame version seq).encode with
    | ok octets =>
      rw [numberBehind_of_ok _ _ hencode, frameCount_of_ok _ _ hencode, ih, Int32.ofNat_add,
        Int32.add_assoc, Int32.add_comm 1]
      rfl
    | error e => rw [numberBehind_of_error _ _ hencode, frameCount_of_error _ _ hencode, ih]

end Script

lemma Frame.raw_of_encode {f : Frame} {octets : Bytes} (h : f.encode = .ok octets) :
    ∃ raw : RawFrame, raw.Fits Frame.maxBodyLen ∧ octets = raw.encode ∧
      raw.header.seq = f.seq := by
  obtain ⟨body, -, hfits, rfl⟩ := Frame.encode_eq_ok_iff.mp h
  exact ⟨⟨f.header body.length, body⟩, ⟨f.toNat_bodyLen_header hfits, hfits⟩, rfl, rfl⟩

/-- The frames of a script are numbered one after another. -/
theorem script_eq_wireForm (version : UInt8) (seq : Int32) (items : List Outgoing) :
    ∃ raws, script version seq items = wireForm raws ∧
      (∀ raw ∈ raws, raw.Fits Frame.maxBodyLen) ∧
      (∀ n raw, raws[n]? = some raw → raw.header.seq = seq + Int32.ofNat n) ∧
      raws.length = frameCount version seq items := by
  induction items generalizing seq with
  | nil => exact ⟨[], rfl, by simp, by simp, rfl⟩
  | cons item items ih =>
    cases hencode : (item.frame version seq).encode with
    | ok octets =>
      obtain ⟨raw, hfits, hoctets, hseq⟩ := Frame.raw_of_encode hencode
      obtain ⟨raws, hscript, hraws, hseqs, hlength⟩ := ih (seq + 1)
      refine ⟨raw :: raws, ?_, ?_, ?_, ?_⟩
      · rw [script_of_ok _ _ hencode, hscript, hoctets, wireForm_cons]
      · simpa [hfits] using hraws
      · rintro (_ | n) raw' hraw'
        · obtain rfl : raw = raw' := by simpa using hraw'
          rw [hseq]
          simp [Outgoing.frame]
        · rw [hseqs n raw' (by simpa using hraw'), Int32.ofNat_add, Int32.add_assoc,
            Int32.add_comm 1]
          rfl
      · rw [frameCount_of_ok _ _ hencode, List.length_cons, hlength]
    | error e =>
      rw [script_of_error _ _ hencode, frameCount_of_error _ _ hencode]
      exact ih seq

/-! ## Steps of the sending side -/

/-- The part of a session that sending depends on. -/
structure Sending where
  version : UInt8
  flight : Option Flight
  items : List Outgoing
  isOpen : Bool
  nextSeq : Int32

def Session.sending (s : Session) : Sending :=
  ⟨s.version, s.flight, s.outbox.items, s.outbox.isOpen, s.nextSeq⟩

/-- The items that are still ahead of the writer, the one in its hands first. -/
def Sending.ahead (a : Sending) : List Outgoing := (a.flight.map (·.item)).toList ++ a.items

/-- A report to a call that says nothing about its number. -/
def Note.isReceipt : Note → Bool
  | .receipted .. | .unreceipted _ => true
  | _ => false

/-- A report that ends a call whose item is among the given ones and will not be written. -/
def Note.Ends (items : List Outgoing) : Note → Prop
  | .lost k | .numbered k (.error .connectionClosed) => ∃ item ∈ items, item.caller = some k
  | n => n.isReceipt = true

/-- What a step does to the sending side, which octets go out, and what is reported. An item that is
queued has the given origin. -/
inductive Conveys (origin : Outgoing → Prop) (a : Sending) : Sending → Bytes → List Note → Prop
  | nothing (notes : List Note) (hnotes : ∀ n ∈ notes, n.isReceipt = true) :
    Conveys origin a a [] notes
  | queued (item : Outgoing) (hopen : a.isOpen = true) (horigin : origin item) :
    Conveys origin a { a with items := a.items ++ [item] } [] []
  | numbered (item : Outgoing) (items : List Outgoing) (octets : Bytes) (notes : List Note)
    (hflight : a.flight = none) (hitems : a.items = item :: items)
    (hencode : (item.frame a.version a.nextSeq).encode = .ok octets)
    (hnotes : ∀ n ∈ notes, n.isReceipt = true) :
    Conveys origin a { a with items, flight := some ⟨item, a.nextSeq, octets⟩ } [] notes
  | skipped (item : Outgoing) (items : List Outgoing) (e : Error) (notes : List Note)
    (hflight : a.flight = none) (hitems : a.items = item :: items)
    (hencode : (item.frame a.version a.nextSeq).encode = .error e)
    (htransport : e.isTransport = false)
    (hnotes : ∀ n ∈ notes, n.isReceipt = true ∨
      ∃ k, item.caller = some k ∧ n = .numbered k (.error e)) :
    Conveys origin a { a with items } [] notes
  | advanced (flight : Flight) (front left : Bytes) (hflight : a.flight = some flight)
    (hoctets : flight.octets = front ++ left) :
    Conveys origin a { a with flight := some { flight with octets := left } } front []
  | completed (flight : Flight) (hflight : a.flight = some flight) :
    Conveys origin a { a with flight := none, nextSeq := a.nextSeq + 1 } flight.octets
      (Session.numberedNote flight.item (.ok flight.seq))
  | stopped (front : Bytes) (notes : List Note)
    (hfront : front = [] ∨ ∃ flight left, a.flight = some flight ∧ flight.octets = front ++ left)
    (hnotes : ∀ n ∈ notes, n.Ends a.ahead) :
    Conveys origin a { a with flight := none, items := [], isOpen := false } front notes

lemma Conveys.origin_of_ahead {origin : Outgoing → Prop} {a a' : Sending} {out : Bytes}
    {notes : List Note} (h : Conveys origin a a' out notes) {item : Outgoing}
    (hitem : item ∈ a'.ahead.drop a.ahead.length) : origin item := by
  have hnil : ∀ {items items' : List Outgoing}, items'.length ≤ items.length →
      item ∉ items'.drop items.length := by
    intro items items' hle
    rw [List.drop_eq_nil_of_le hle]
    exact List.not_mem_nil
  cases h with
  | queued item' hopen horigin =>
    have hahead : Sending.ahead { a with items := a.items ++ [item'] } = a.ahead ++ [item'] := by
      simp [Sending.ahead]
    rw [hahead, List.drop_left, List.mem_singleton] at hitem
    rw [hitem]
    exact horigin
  | nothing _ hnotes => exact absurd hitem (hnil (Nat.le_refl _))
  | numbered item' items octets _ hflight hitems hencode hnotes =>
    exact absurd hitem (hnil (by simp [Sending.ahead, hflight, hitems]))
  | skipped item' items e _ hflight hitems hencode htransport hnotes =>
    exact absurd hitem (hnil (by simp [Sending.ahead, hflight, hitems]))
  | advanced flight _ left hflight hoctets =>
    exact absurd hitem (hnil (by simp [Sending.ahead, hflight]))
  | completed flight hflight => exact absurd hitem (hnil (by simp [Sending.ahead, hflight]))
  | stopped _ _ hfront hnotes => exact absurd hitem (hnil (by simp [Sending.ahead]))

lemma isReceipt_unreceipted {waiters : List Nat} :
    ∀ n ∈ waiters.map Note.unreceipted, n.isReceipt = true := by
  intro n hn
  obtain ⟨k, -, rfl⟩ := List.mem_map.mp hn
  rfl

lemma Note.ends_of_isReceipt {items : List Outgoing} {n : Note} (h : n.isReceipt = true) :
    n.Ends items := by
  cases n with
  | receipted k a => rfl
  | unreceipted k => rfl
  | numbered k result => cases h
  | lost k => cases h

lemma mem_numberedNote {item : Outgoing} {result : Except Error Int32} {n : Note} :
    n ∈ Session.numberedNote item result ↔ ∃ k, item.caller = some k ∧ n = .numbered k result := by
  simp [Session.numberedNote, eq_comm]

lemma ends_lost {items items' : List Outgoing} (hsub : ∀ item ∈ items, item ∈ items') :
    ∀ n ∈ items.filterMap fun item => item.caller.map Note.lost, n.Ends items' := by
  intro n hn
  obtain ⟨item, hitem, hcaller⟩ := List.mem_filterMap.mp hn
  obtain ⟨k, hk, rfl⟩ := Option.map_eq_some_iff.mp hcaller
  exact ⟨item, hsub item hitem, hk⟩

namespace Session
variable {s s' : Session} {p p' : Progress} {now : Nat} {notes : List Note}

/-- An item that a session sends of its own accord: to answer a frame, or to ask for a scope before
it is ready. -/
structure Sends (s : Session) (item : Outgoing) : Prop where
  caller : item.caller = none
  stage : (∃ rest, s.stage = .live (.send item.message :: rest)) ∨
    ∃ requests, s.stage = .starting (item.message :: requests)

/-- A step of the writing side takes the items one by one and writes their frames. -/
theorem Written.conveys {origin : Outgoing → Prop} (h : s.Written s' notes) :
    ∃ chunks : List Bytes, s'.link.written = s.link.written ++ chunks ∧
      Conveys origin s.sending s'.sending chunks.flatten notes := by
  cases h with
  | numbered item items tracker replaced octets hflight hitems hregister hencode =>
    exact ⟨[], by simp, .numbered item items octets _ hflight hitems hencode
      isReceipt_unreceipted⟩
  | skipped item items tracker replaced e hflight hitems hregister hencode htransport =>
    refine ⟨[], by simp, .skipped item items e _ hflight hitems hencode htransport ?_⟩
    intro n hn
    rcases List.mem_append.mp hn with hn | hn
    · exact .inl (isReceipt_unreceipted n hn)
    · rcases List.mem_append.mp hn with hn | hn
      · exact .inl (isReceipt_unreceipted n hn)
      · exact .inr (mem_numberedNote.mp hn)
  | refused item items tracker replaced e hflight hitems hregister hencode htransport =>
    have hahead : s.sending.ahead = item :: items := by
      simp [Sending.ahead, sending, hflight, hitems]
    refine ⟨[], by simp [stopWriting], .stopped [] _ (.inl rfl) ?_⟩
    rw [hahead]
    intro n hn
    rcases List.mem_append.mp hn with hn | hn
    · exact Note.ends_of_isReceipt (isReceipt_unreceipted n hn)
    · rcases List.mem_append.mp hn with hn | hn
      · rcases List.mem_append.mp hn with hn | hn
        · exact Note.ends_of_isReceipt (isReceipt_unreceipted n hn)
        · obtain ⟨k, hk, rfl⟩ := mem_numberedNote.mp hn
          exact ⟨item, by simp, hk⟩
      · exact ends_lost (by simp +contextual) n hn
  | advanced flight octets link hflight hwrite =>
    obtain ⟨chunks, hoctets, hwritten, -⟩ := Link.write_spec hwrite
    exact ⟨chunks, hwritten, .advanced flight _ octets hflight hoctets⟩
  | completed flight link hflight hwrite =>
    obtain ⟨chunks, hoctets, hwritten, -⟩ := Link.write_spec hwrite
    rw [List.append_nil] at hoctets
    refine ⟨chunks, hwritten, ?_⟩
    rw [← hoctets]
    exact .completed flight hflight
  | broken flight left link e hflight hwrite =>
    obtain ⟨chunks, hoctets, hwritten, -⟩ := Link.write_spec hwrite
    have hahead : s.sending.ahead = flight.item :: s.outbox.items := by
      simp [Sending.ahead, sending, hflight]
    refine ⟨chunks, hwritten, .stopped _ _ (.inr ⟨flight, left, hflight, hoctets⟩) ?_⟩
    rw [hahead]
    intro n hn
    rcases List.mem_append.mp hn with hn | hn
    · rcases List.mem_append.mp hn with hn | hn
      · exact Note.ends_of_isReceipt (isReceipt_unreceipted n hn)
      · obtain ⟨k, hk, rfl⟩ := mem_numberedNote.mp hn
        exact ⟨flight.item, by simp, hk⟩
    · exact ends_lost (by simp +contextual) n hn

/-- A step of the reading side queues an item of its own, or ends the writing side, or leaves it
alone. -/
theorem Heard.conveys {step : Step} (h : s.Heard p now step) :
    Conveys s.Sends s.sending step.session.sending [] step.notes := by
  cases h with
  | sent m rest outbox hstage hoffer =>
    obtain ⟨hopen, rfl⟩ := Outbox.offer_taken hoffer
    exact .queued _ hopen ⟨rfl, .inl ⟨rest, hstage⟩⟩
  | lined m rest outbox hstage hoffer =>
    obtain ⟨hopen, rfl⟩ := Outbox.offer_lined hoffer
    exact .nothing [] (by simp)
  | dispatched raw link hstage hnext =>
    refine .nothing _ ?_
    intro n hn
    obtain ⟨⟨k, a⟩, -, rfl⟩ := List.mem_map.mp hn
    rfl
  | finished duties link reason hstage hduty hends =>
    refine .stopped [] _ (.inl rfl) ?_
    intro n hn
    rcases List.mem_append.mp hn with hn | hn
    · exact ends_lost (by simp [Sending.ahead, sending]) n hn
    · exact Note.ends_of_isReceipt (isReceipt_unreceipted n hn)
  | _ => exact .nothing [] (by simp)

theorem Moved.conveys (h : s.Moved now p s' p' notes) :
    ∃ chunks : List Bytes, s'.link.written = s.link.written ++ chunks ∧
      Conveys s.Sends s.sending s'.sending chunks.flatten notes := by
  cases h with
  | event e => exact ⟨[], by simp, .nothing [] (by simp)⟩
  | ready h =>
    obtain ⟨-, rfl⟩ := startup_ready h
    exact ⟨[], by simp, .nothing [] (by simp)⟩
  | going h =>
    obtain ⟨m, requests, outbox, hstage, ⟨hoffer, rfl⟩ | ⟨hoffer, rfl⟩⟩ := startup_going h
    · obtain ⟨hopen, rfl⟩ := Outbox.offer_taken hoffer
      exact ⟨[], by simp, .queued _ hopen ⟨rfl, .inr ⟨requests, hstage⟩⟩⟩
    · obtain ⟨hopen, rfl⟩ := Outbox.offer_lined hoffer
      exact ⟨[], by simp, .nothing [] (by simp)⟩
  | wrote h => exact (written_of_write? h).conveys
  | read h => exact ⟨[], by simp [h.written], h.conveys⟩
  | took h =>
    obtain ⟨items, -, rfl⟩ := takeEvent?_cases h
    exact ⟨[], by simp, .nothing [] (by simp)⟩
  | closing => exact ⟨[], by simp, .nothing [] (by simp)⟩
  | abandoned => exact ⟨[], by simp, .nothing [] (by simp)⟩
  | closed => exact ⟨[], by simp, .nothing [] (by simp)⟩
  | rest => exact ⟨[], by simp, .nothing [] (by simp)⟩

end Session

end Parley
