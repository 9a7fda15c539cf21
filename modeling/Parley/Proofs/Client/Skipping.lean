import Parley.Proofs.Client.Teardown
import Parley.Proofs.Session.Skipping

/-!
# Letting an item go

An item that cannot be encoded is let go (`Client.LetsGo`): its caller learns why, and nothing else
comes of it. Only a body that is too long for a header makes the writer end, as a fault of the
transport does (`Client.Halts`).
-/

namespace Parley

namespace Client
variable {c c' : Client} {i k : Nat} {s s' : Session} {holder : Holder} {item : Outgoing}
  {items : List Outgoing} {e : Error} {notes : List Note}

/-- The callers of items on a connection wait to learn what becomes of the items. -/
def Waits (c : Client) (i : Nat) (items : List Outgoing) : Prop :=
  ∀ item ∈ items, ∀ k, item.caller = some k →
    ∃ call, c.calls[k]? = some call ∧ call.connection = i ∧ call.stage = .queued

/-- In every run the callers of the items ahead of a writer wait, each for one item. -/
lemma waits_playAll {config : Config} {store : CursorStore} {tokens : List (Except Error String)}
    (hnew : new config store tokens = .ok c) (ts : List Turn)
    (hphase : (c.playAll ts).phase? i = some (.established s holder)) :
    (c.playAll ts).Waits i s.sending.ahead ∧ (s.sending.ahead.filterMap (·.caller)).Nodup := by
  have hsound := (Journal.sound_start hnew).ofTurns ts
  have hcalls : c.calls = [] := by
    obtain ⟨progress, rfl⟩ := eq_of_new hnew
    rfl
  rw [← Journal.client_ofTurns] at hphase ⊢
  refine ⟨fun item hitem k hcaller => ?_, ?_⟩
  · obtain ⟨hasked, call, hcall, hconnection, hoffering⟩ :=
      hsound.owned i k item (hsound.mem_queued_of_ahead hphase hitem) hcaller
    refine ⟨call, hcall, hconnection, ?_⟩
    have hfate {item' : Outgoing} {slot : Slot (Except Error Int32)}
        (hasked' : (Journal.ofTurns c ts).asked[k]? = some (some item')) :
        ¬ (Journal.ofTurns c ts).Fate call.connection item' slot := by
      obtain rfl := Journal.asked_unique hasked hasked'
      rw [hconnection]
      exact (hsound.not_fate_of_ahead (hphase ▸ hitem) hcaller slot).2
    cases hstage : call.stage with
    | offering item' => exact absurd hstage (hoffering item')
    | queued => rfl
    | awaiting seq deadline =>
      obtain ⟨-, item', hasked', h⟩ := hsound.awaiting k call seq deadline hcall hstage
      exact absurd h (hfate hasked')
    | untilStopped =>
      have hnone := hsound.stopping k call hcall hstage
      cases hasked.symm.trans hnone
    | finished =>
      obtain ⟨outcome, hanswered⟩ := Journal.answered_of_finished c hcalls ts hcall hstage
      obtain ⟨call', hcall', hsettles⟩ := hsound.answered k outcome hanswered
      obtain rfl : call = call' := Option.some.inj (hcall.symm.trans hcall')
      cases hsettles with
      | numbered item' seq hasked' hwants h => exact absurd h (hfate hasked')
      | done item' seq hasked' hwants h => exact absurd h (hfate hasked')
      | failed item' e hasked' h => exact absurd h (hfate hasked')
      | lost item' hasked' h => exact absurd h (hfate hasked')
      | awaited item' seq _ hasked' hwants h houtcome => exact absurd h (hfate hasked')
      | stopped hnone => cases hasked.symm.trans hnone
      | refused item' hasked' hqueued hfinished =>
        exact absurd hcaller (hqueued i item (hsound.mem_queued_of_ahead hphase hitem))
  · by_cases hahead : s.sending.ahead = []
    · rw [hahead]
      exact .nil
    · have hcourse := onCourse_of_ahead (hphase ▸ hsound.lanes i) hahead
      have honce := hsound.once i
      rw [hcourse.queued, List.filterMap_append] at honce
      exact honce.of_append_right

/-! ## What a call learns -/

/-- What a call does that has learned what has become of its frame. -/
def learn (c : Client) (k : Nat) (call : Call) : Except Error Int32 → Client
  | .ok seq => c.callNumbered k call seq
  | .error e => c.finishCall k call (.failed e)

/-- A call has learned what has become of its frame: its next step goes by that. -/
def Learned (c : Client) (k : Nat) (result : Except Error Int32) : Prop :=
  ∃ call, c.calls[k]? = some call ∧ c.move (.act (.calling k)) = c.learn k call result

lemma learned_of_number {call : Call} {result : Except Error Int32}
    (hcall : c.calls[k]? = some call)
    (hphase : c.phase? call.connection = some (.established s holder))
    (hstage : call.stage = .queued) (hnumber : call.number = .full result) :
    c.Learned k result := by
  refine ⟨call, hcall, ?_⟩
  cases result <;> simp [move, act?, hcall, hphase, callOn?, hstage, hnumber, learn]

lemma learned_of_broken {call : Call} (hcall : c.calls[k]? = some call)
    (hphase : c.phase? call.connection = some (.established s holder))
    (hstage : call.stage = .queued) (hnumber : call.number = .broken) :
    c.Learned k (.error .connectionClosed) := by
  refine ⟨call, hcall, ?_⟩
  simp [move, act?, hcall, hphase, callOn?, hstage, hnumber, learn]

/-! ## A step of the writer -/

/-- A client with its connections, its calls and what has gone out left out of account. -/
def aside (c : Client) : Client := { c with connections := [], calls := [], wire := [] }

lemma aside_applyNotes (c : Client) (notes : List Note) : (c.applyNotes notes).aside = c.aside := by
  induction notes generalizing c with
  | nil => rfl
  | cons n notes ih => cases n <;> exact ih _

lemma move_writing (hphase : c.phase? i = some (.established s holder))
    (h : s.write? = some (s', notes)) :
    c.move (.act (.writing i)) =
      ((c.noteWrites i s.link s'.link).setPhase i (.established s' holder)).applyNotes notes := by
  simp only [move, act?, hphase, write?, h, Option.map_some, Option.getD_some]

lemma aside_writing (hphase : c.phase? i = some (.established s holder))
    (h : s.write? = some (s', notes)) : (c.move (.act (.writing i))).aside = c.aside := by
  rw [move_writing hphase h]
  exact aside_applyNotes _ notes

lemma phase?_writing (hphase : c.phase? i = some (.established s holder))
    (h : s.write? = some (s', notes)) (j : Nat) : (c.move (.act (.writing i))).phase? j =
      if j = i then some (.established s' holder) else c.phase? j := by
  rw [move_writing hphase h, phase?_applyNotes]
  split
  · rename_i hj
    subst hj
    exact phase?_setPhase_self _ hphase _
  · rename_i hj
    exact phase?_setPhase_ne _ (Ne.symm hj) _

lemma wireOf_writing {chunks : List Bytes} (hphase : c.phase? i = some (.established s holder))
    (h : s.write? = some (s', notes)) (hwritten : s'.link.written = s.link.written ++ chunks)
    (j : Nat) : (c.move (.act (.writing i))).wireOf j =
      if j = i then c.wireOf i ++ chunks.flatten else c.wireOf j := by
  rw [move_writing hphase h, wireOf_applyNotes, wireOf_setPhase]
  split
  · rename_i hj
    subst hj
    exact c.wireOf_noteWrites_self hwritten
  · rename_i hj
    exact c.wireOf_noteWrites_ne (Ne.symm hj) _ _

lemma wire_writing (hphase : c.phase? i = some (.established s holder))
    (h : s.write? = some (s', notes)) (hlink : s'.link = s.link) :
    (c.move (.act (.writing i))).wire = c.wire := by
  have hstill := c.noteWrites_of_written i (congrArg Link.written hlink)
  rw [move_writing hphase h, wire_applyNotes]
  exact (congrArg Client.wire hstill :)

lemma hears_writing {call : Call} (hphase : c.phase? i = some (.established s holder))
    (h : s.write? = some (s', notes)) (hcall : c.calls[k]? = some call) :
    ∃ call', (c.move (.act (.writing i))).calls[k]? = some call' ∧ call.Hears k notes call' := by
  rw [move_writing hphase h]
  refine exists_hears_applyNotes ?_ notes
  exact hcall

/-! ## An item is let go -/

/-- An item that cannot be encoded is let go. Nothing goes out, and nothing but the session and its
calls is different: the item is gone, with the waiter of its caller, and the next number is still to
be used; its caller is told the error. -/
structure LetsGo (c : Client) (i : Nat) (s : Session) (holder : Holder) (item : Outgoing)
    (items : List Outgoing) (e : Error) (c' : Client) : Prop where
  aside : c'.aside = c.aside
  wire : c'.wire = c.wire
  phase? : ∀ j, c'.phase? j =
    if j = i then some (.established (s.letGo items) holder) else c.phase? j
  calls : ∀ k : Nat, c'.calls[k]? = c.calls[k]?.map fun call : Call =>
    { call with
      number := if item.caller = some k then .full (.error e) else call.number
      receipt := if k ∈ s.waitersAt item then .broken else call.receipt }
  told : ∀ k, item.caller = some k → c'.Learned k (.error e)

lemma hears_of_letGo {call call' : Call} (h : call.Hears k ((s.waitersAt item).map .unreceipted ++
      Session.numberedNote item (.error e)) call') :
    call' = { call with
      number := if item.caller = some k then .full (.error e) else call.number
      receipt := if k ∈ s.waitersAt item then .broken else call.receipt } := by
  obtain ⟨number, receipt, rfl⟩ := h.kept
  have hnumber : number = if item.caller = some k then .full (.error e) else call.number := by
    rcases h.number with ⟨hsame, hnone⟩ | ⟨n, hn, hslot⟩
    · rw [if_neg, ← hsame]
      intro hcaller
      refine hnone (.numbered k (.error e)) (List.mem_append_right _ ?_) _ rfl
      exact mem_numberedNote.mpr ⟨k, hcaller, rfl⟩
    · rcases List.mem_append.mp hn with hn | hn
      · obtain ⟨k', -, rfl⟩ := List.mem_map.mp hn
        cases hslot
      · obtain ⟨k', hcaller, rfl⟩ := mem_numberedNote.mp hn
        cases hslot
        rw [if_pos hcaller]
  have hreceipt : receipt = if k ∈ s.waitersAt item then .broken else call.receipt := by
    rcases h.receipt with ⟨hsame, hnone⟩ | ⟨n, hn, hslot⟩
    · rw [if_neg, ← hsame]
      intro hk
      exact hnone (.unreceipted k) (List.mem_append_left _ (List.mem_map_of_mem hk)) _ rfl
    · rcases List.mem_append.mp hn with hn | hn
      · obtain ⟨k', hk', rfl⟩ := List.mem_map.mp hn
        cases hslot
        rw [if_pos hk']
      · obtain ⟨k', hcaller, rfl⟩ := mem_numberedNote.mp hn
        cases hslot
  rw [hnumber, hreceipt]

theorem letsGo_of_error (hphase : c.phase? i = some (.established s holder))
    (hflight : s.flight = none) (hitems : s.outbox.items = item :: items)
    (hencode : (item.frame s.version s.nextSeq).encode = .error e)
    (hshort : ¬ item.IsOverlong s.version) (hwaits : c.Waits i [item]) :
    c.LetsGo i s holder item items e (c.move (.act (.writing i))) := by
  have hwrite := Session.write?_of_refused hflight hitems hencode hshort
  have hphases := phase?_writing hphase hwrite
  have hcalls (k : Nat) : (c.move (.act (.writing i))).calls[k]? =
      c.calls[k]?.map fun call : Call => { call with
        number := if item.caller = some k then .full (.error e) else call.number
        receipt := if k ∈ s.waitersAt item then .broken else call.receipt } := by
    cases hcall : c.calls[k]? with
    | none =>
      rw [move_writing hphase hwrite, Option.map_none, List.getElem?_eq_none_iff,
        length_calls_applyNotes]
      exact List.getElem?_eq_none_iff.mp hcall
    | some call =>
      obtain ⟨call', hcall', hhears⟩ := hears_writing hphase hwrite hcall
      rw [hcall', hears_of_letGo hhears]
      rfl
  refine ⟨aside_writing hphase hwrite, wire_writing hphase hwrite rfl, hphases, hcalls,
    fun k hcaller => ?_⟩
  obtain ⟨call, hcall, rfl, hstage⟩ := hwaits item (List.mem_singleton_self item) k hcaller
  have hcall' := hcalls k
  rw [hcall, Option.map_some] at hcall'
  have hhere := hphases call.connection
  rw [if_pos rfl] at hhere
  exact learned_of_number hcall' hhere hstage (if_pos hcaller)

/-! ## The writer ends -/

/-- An item whose body is too long ends the writer, as a fault of the transport does. Nothing goes
out; its caller and those of the items behind it learn that the connection is closed, and the
reading side ends the session as soon as there is nothing else for it to do. -/
structure Halts (c : Client) (i : Nat) (s : Session) (holder : Holder) (item : Outgoing)
    (items : List Outgoing) (e : Error) (c' : Client) : Prop where
  aside : c'.aside = c.aside
  wire : c'.wire = c.wire
  phase? : ∀ j, c'.phase? j =
    if j = i then some (.established ((s.letGo items).stopWriting (some e)) holder) else c.phase? j
  told : ∀ item' ∈ item :: items, ∀ k, item'.caller = some k →
    c'.Learned k (.error .connectionClosed)
  ended : s.stage = .live [] → s.link.nextRaw.1 = none → (s.keepalive.onIdle c.now).2 = false →
    (c'.move (.act (.reading i))).state = .disconnected

lemma state_reading_of_writeFault (hphase : c.phase? i = some (.established s holder))
    (hstage : s.stage = .live []) (hread : s.link.nextRaw.1 = none)
    (hidle : (s.keepalive.onIdle c.now).2 = false) (hfault : s.writeFault = some e) :
    (c.move (.act (.reading i))).state = .disconnected := by
  have hframe : s.readFrame c.progress c.now = none := by
    rw [Session.readFrame]
    split
    · rfl
    · rename_i hnext
      rw [hnext] at hread
      cases hread
    · rename_i hnext
      rw [hnext] at hread
      cases hread
  have hping : s.keepAlive c.progress c.now = none := by simp [Session.keepAlive, hidle]
  have hstep : s.read? c.progress c.now = some (s.finish c.progress (.failed e)) := by
    rw [Session.read?, hstage]
    simp [hframe, hping, hfault]
  simp only [move, act?, hphase, read?, hstep, Option.map_some, Option.getD_some]
  exact (congrArg Client.state (aside_applyNotes _ _) :)

/-- Whoever waits to learn what becomes of an item learns that the connection is closed, be it the
caller of the item at which the writer ends or of one behind it. -/
lemma learned_of_closed {call call' : Call} {waiters : List Nat}
    (hcall' : c'.calls[k]? = some call')
    (hphase' : c'.phase? call.connection = some (.established s' holder))
    (hhears : call.Hears k (waiters.map .unreceipted ++
      (Session.numberedNote item (.error .connectionClosed) ++
        items.filterMap fun item => item.caller.map .lost)) call')
    (hstage : call.stage = .queued) (hcaller : ∃ item' ∈ item :: items, item'.caller = some k) :
    c'.Learned k (.error .connectionClosed) := by
  rw [← hhears.connection] at hphase'
  rw [← hhears.stage] at hstage
  rcases hhears.number with ⟨-, hnone⟩ | ⟨n, hn, hslot⟩
  · obtain ⟨item', hitem, hcaller⟩ := hcaller
    rcases List.mem_cons.mp hitem with rfl | hitem
    · refine absurd rfl (hnone (.numbered k (.error .connectionClosed)) ?_ _)
      refine List.mem_append_right _ (List.mem_append_left _ ?_)
      exact mem_numberedNote.mpr ⟨k, hcaller, rfl⟩
    · refine absurd rfl (hnone (.lost k) ?_ _)
      exact List.mem_append_right _ (List.mem_append_right _ (Session.mem_lost hitem hcaller))
  · rcases List.mem_append.mp hn with hn | hn
    · obtain ⟨k', -, rfl⟩ := List.mem_map.mp hn
      cases hslot
    · rcases List.mem_append.mp hn with hn | hn
      · obtain ⟨k', -, rfl⟩ := mem_numberedNote.mp hn
        have hnumber : Slot.full (.error .connectionClosed) = call'.number :=
          congrArg Prod.snd (Option.some.inj hslot)
        exact learned_of_number hcall' hphase' hstage hnumber.symm
      · obtain ⟨item', -, hlost⟩ := List.mem_filterMap.mp hn
        obtain ⟨k', -, rfl⟩ := Option.map_eq_some_iff.mp hlost
        have hnumber : Slot.broken = call'.number := congrArg Prod.snd (Option.some.inj hslot)
        exact learned_of_broken hcall' hphase' hstage hnumber.symm

theorem halts_of_overlong (hphase : c.phase? i = some (.established s holder))
    (hflight : s.flight = none) (hitems : s.outbox.items = item :: items)
    (hlong : item.IsOverlong s.version) (hwaits : c.Waits i (item :: items)) :
    ∃ len, c.Halts i s holder item items (.frameTooLarge len Frame.maxBodyLen)
      (c.move (.act (.writing i))) := by
  obtain ⟨len, hwrite⟩ := Session.write?_of_overlong hflight hitems hlong
  have hphases := phase?_writing hphase hwrite
  have hhere := hphases i
  rw [if_pos rfl] at hhere
  refine ⟨len, aside_writing hphase hwrite, wire_writing hphase hwrite rfl, hphases,
    fun item' hitem k hcaller => ?_, fun hstage hread hidle => ?_⟩
  · obtain ⟨call, hcall, rfl, hstage⟩ := hwaits item' hitem k hcaller
    obtain ⟨call', hcall', hhears⟩ := hears_writing hphase hwrite hcall
    exact learned_of_closed hcall' hhere hhears hstage ⟨item', hitem, hcaller⟩
  · have hnow : (c.move (.act (.writing i))).now = c.now :=
      (congrArg Client.now (aside_writing hphase hwrite) :)
    exact state_reading_of_writeFault hhere hstage hread (hnow ▸ hidle) rfl

end Client

end Parley
