import Parley.Proofs.Client.Asking
import Parley.Proofs.Client.Correlation
import Parley.Proofs.Client.Draining
import Parley.Proofs.Client.Tracking

/-!
# Catching up

The first that a client writes on a connection that has accepted it are the requests for all scopes,
each from the cursor held, whatever has happened to the client before. Main statement:
`Client.recovers_run`.
-/

namespace Parley

/-! ## What goes out -/

/-- The frames of messages that are numbered from a number on. -/
def Frame.series (version : UInt8) : Int32 → List Message → List Frame
  | _, [] => []
  | seq, m :: messages => { seq, version, message := m } :: series version (seq + 1) messages

lemma Frame.eq_of_encode_append {f g : Frame} {bs bs' rest rest' : Bytes} (hf : f.encode = .ok bs)
    (hg : g.encode = .ok bs') (h : bs ++ rest = bs' ++ rest') : bs = bs' ∧ rest = rest' := by
  obtain ⟨raw, hraw, rfl, -⟩ := Frame.raw_of_encode hf
  obtain ⟨raw', hraw', rfl, -⟩ := Frame.raw_of_encode hg
  have hcut := cut_eq_frame_iff.mpr ⟨hraw, h.symm⟩
  rw [cut_eq_frame_iff.mpr ⟨hraw', rfl⟩] at hcut
  cases hcut
  exact ⟨rfl, rfl⟩

lemma Frame.ne_nil_of_encode {f : Frame} {bs : Bytes} (h : f.encode = .ok bs) : bs ≠ [] := by
  obtain ⟨raw, -, rfl, -⟩ := Frame.raw_of_encode h
  refine List.ne_nil_of_length_pos ?_
  rw [RawFrame.length_encode, Header.size]
  omega

lemma Scope.encode_request (scope : Scope) (key : Int64) (version : UInt8) (seq : Int32) :
    ∃ octets, Frame.encode { seq, version, message := scope.request key } = .ok octets := by
  refine ⟨_, Frame.encode_eq_ok_iff.mpr ⟨_, Writing.writes_append _, ?_, rfl⟩⟩
  cases scope <;> simp [SyncPoint.encode, Frame.maxBodyLen]

lemma Cursors.exists_of_mem_requests {c : Cursors} {m : Message} (h : m ∈ c.requests) :
    ∃ scope key, m = Scope.request scope key := by
  rcases List.mem_cons.mp h with rfl | h
  · exact ⟨_, _, rfl⟩
  · obtain ⟨entry, -, rfl⟩ := List.mem_map.mp h
    exact ⟨_, _, rfl⟩

/-- The script of requests is the frames of them, none left out. -/
lemma script_eq_series (version : UInt8) (seq : Int32) {messages : List Message}
    (h : ∀ m ∈ messages, ∃ scope key, m = Scope.request scope key) :
    ∃ octets, (Frame.series version seq messages).mapM Frame.encode = .ok octets ∧
      script version seq (messages.map .own) = octets.flatten := by
  induction messages generalizing seq with
  | nil => exact ⟨[], rfl, rfl⟩
  | cons m messages ih =>
    obtain ⟨scope, key, rfl⟩ := h m List.mem_cons_self
    obtain ⟨front, hfront⟩ := scope.encode_request key version seq
    obtain ⟨octets, hoctets, hscript⟩ := ih (seq + 1) fun m hm => h m (List.mem_cons_of_mem _ hm)
    refine ⟨front :: octets, ?_, ?_⟩
    · rw [Frame.series, List.mapM_cons, hfront, hoctets]
      rfl
    · have hitem : ((Outgoing.own (scope.request key)).frame version seq).encode = .ok front :=
        hfront
      rw [List.map_cons, script_of_ok version seq hitem, hscript, List.flatten_cons]

namespace Client
variable {c : Client} {i : Nat}

lemma wireOf_prefix (c : Client) (i : Nat) (ts : List Turn) :
    c.wireOf i <+: (c.playAll ts).wireOf i := by
  induction ts using List.reverseRecOn with
  | nil => exact List.prefix_refl _
  | append_singleton ts t ih =>
    obtain ⟨out, hwire, -⟩ := ((c.playAll ts).moved_play t).passes i
    rw [playAll_concat, hwire]
    exact ih.trans (List.prefix_append _ _)

/-- A session is up, its writer has nothing in hand, and neither the writer nor whoever queues the
first requests can go on. -/
def AtRest (c : Client) (i : Nat) : Prop :=
  ∃ s holder, c.phase? i = some (.established s holder) ∧ s.outbox.isOpen = true ∧
    s.flight = none ∧ c.act? (.connecting i) = none ∧ c.act? (.writing i) = none

lemma act?_connecting_of_established {s : Session} {holder : Holder}
    (hphase : c.phase? i = some (.established s holder)) (h : c.act? (.connecting i) = none) :
    s.startup c.now = .stuck := by
  obtain ⟨⟨id, phase⟩, hconnection, rfl⟩ := Option.map_eq_some_iff.mp hphase
  simp only [act?, hconnection, startup?] at h
  split at h
  · cases h
  · cases h
  · assumption
  · cases h

lemma items_of_act?_writing {s : Session} {holder : Holder}
    (hphase : c.phase? i = some (.established s holder)) (h : c.act? (.writing i) = none)
    (hflight : s.flight = none) : s.outbox.items = [] := by
  simp only [act?, hphase, write?, Option.map_eq_none_iff, Session.write?, hflight,
    Outbox.pop?] at h
  cases hitems : s.outbox.items with
  | nil => rfl
  | cons item items => simp [hitems] at h

/-! ## The whole run -/

/-- How a client comes back to the server: on a connection that is accepted after some turns, in a
run that goes on from there. -/
structure Recovers (config : Config) (loaded : Cursors) (c : Client) (i : Nat)
    (before run : List Turn) : Prop where
  /-- Behind the token frame go the requests for all cursors held, numbered from two, before any
  other frame, as far as the connection can write; a writer that nothing holds up writes all. -/
  wire : ∃ auth octets out, config.Opens auth ∧ (c.playAll before).wireOf i = auth ∧
    (Frame.series config.connection.protocolVersion 2
      (c.playAll before).cursors.requests).mapM Frame.encode = .ok octets ∧
    (c.playAll run).wireOf i = auth ++ out ∧
    (out <+: octets.flatten ∨ octets.flatten <+: out) ∧
    ((c.playAll run).AtRest i → octets.flatten <+: out)
  tracked : ∀ g, ((c.playAll before).cursors.get? (.group g)).isSome ↔
    (loaded.get? (.group g)).isSome ∨ g ∈ config.sync.groups ∨ c.Named before g
  held : ∀ scope key, (c.playAll before).cursors.get? scope = some key →
    (loaded.at scope :: (c.opsOf before).filterMap (·.stored? scope)).max? = some key
  kept : ∀ scope key, loaded.get? scope = some key → c.cursors.get? scope = some key
  still : ∀ front t after, run = front ++ t :: after → ∀ j standing,
    (j, standing) ∈ (c.playAll front).arrivals t →
      (c.playAll (front ++ [t])).cursors = (c.playAll front).cursors

section New
variable {config : Config} {store : CursorStore} {tokens : List (Except Error String)}
  {loaded : Cursors} {before : List Turn} {link : Link}

lemma config_of_new (hnew : new config store tokens = .ok c) (ts : List Turn) :
    (c.playAll ts).config = config := by
  obtain ⟨progress, rfl⟩ := eq_of_new hnew
  exact config_playAll _ ts

lemma greeted_run (hnew : new config store tokens = .ok c)
    (hgreeted : (c.playAll before).phase? i = some (.greeting (.done (.ok ())) link)) :
    config.Opens ((c.playAll before).wireOf i) ∧ (Journal.ofTurns c before).queued i = [] := by
  have hlane := ((Journal.sound_start hnew).ofTurns before).lanes i
  rw [Journal.client_ofTurns, hgreeted, config_of_new hnew] at hlane
  cases hlane with
  | greeting g link hqueued hbehind h => exact ⟨h, hqueued⟩

lemma callsReady_run (hnew : new config store tokens = .ok c) (ts : List Turn) :
    (c.playAll ts).CallsReady := by
  obtain ⟨progress, rfl⟩ := eq_of_new hnew
  refine CallsReady.playAll (fun i hi => ?_) ts
  cases hi

lemma catchesUp_run (hnew : new config store tokens = .ok c)
    (hgreeted : (c.playAll before).phase? i = some (.greeting (.done (.ok ())) link)) (n : Nat)
    (after : List Turn) :
    CatchesUp ((c.playAll before).cursors.requests.map .own)
      ((Journal.ofTurns c (before ++ ⟨.act (.connecting i), n⟩ :: after)).queued i)
      ((c.playAll (before ++ ⟨.act (.connecting i), n⟩ :: after)).phase? i) := by
  induction after using List.reverseRecOn with
  | nil =>
    obtain ⟨hbegan, -⟩ := play_began hgreeted n
    obtain ⟨-, hqueued⟩ := greeted_run hnew hgreeted
    have hroom := (Feed.queues_pos_of_new hnew).1
    rw [Journal.ofTurns_concat, Journal.queued_play, Journal.client_ofTurns, hqueued,
      playAll_concat, hbegan, newly_of_ahead_nil rfl, List.append_nil]
    refine .asking _ _ _ ⟨rfl, by simp [Session.start], ?_⟩ ?_
    · rw [config_playAll]
      exact hroom
    · rw [List.nil_append, Engine.requests_onReady]
      rfl
  | append_singleton after t ih =>
    rw [← List.cons_append, ← List.append_assoc, Journal.ofTurns_concat, Journal.queued_play,
      Journal.client_ofTurns, playAll_concat]
    exact ih.moved ((c.playAll _).moved_play t) (callsReady_run hnew _)

/-- What has gone out behind the token frame is a front of the script of the queued items, and a
writer that nothing holds up has written all of it. -/
lemma laid_run (hnew : new config store tokens = .ok c)
    (hgreeted : (c.playAll before).phase? i = some (.greeting (.done (.ok ())) link))
    (rest : List Turn) : ∃ out,
      (c.playAll (before ++ rest)).wireOf i = (c.playAll before).wireOf i ++ out ∧
        out <+: script config.connection.protocolVersion firstSeq
          ((Journal.ofTurns c (before ++ rest)).queued i) ∧
        ((c.playAll (before ++ rest)).AtRest i →
          out = script config.connection.protocolVersion firstSeq
            ((Journal.ofTurns c (before ++ rest)).queued i)) := by
  obtain ⟨hauth, -⟩ := greeted_run hnew hgreeted
  generalize hwire : (c.playAll before).wireOf i = auth at hauth
  obtain ⟨token, hencode⟩ := hauth
  obtain ⟨out, hout⟩ : auth <+: (c.playAll (before ++ rest)).wireOf i := by
    rw [← hwire, playAll_append]
    exact wireOf_prefix _ i rest
  have hsound := (Journal.sound_start hnew).ofTurns (before ++ rest)
  obtain ⟨hbehind, hlaid⟩ := hsound.laid i
  rw [Journal.version, Journal.client_ofTurns, config_of_new hnew, ← hout] at hlaid
  refine ⟨out, hout.symm, ?_⟩
  rcases hlaid with ⟨-, hnil⟩ | ⟨auth', ⟨token', hencode'⟩, ⟨more, hmore⟩, hdone⟩
  · exact absurd (List.append_eq_nil_iff.mp hnil).1 (Frame.ne_nil_of_encode hencode)
  rw [List.append_assoc] at hmore
  obtain ⟨rfl, hscript⟩ := Frame.eq_of_encode_append hencode hencode' hmore
  refine ⟨⟨more, hscript⟩, fun hrest => ?_⟩
  obtain ⟨s, holder, hphase, hopen, hflight, -, hwriting⟩ := hrest
  have hahead : s.sending.ahead = [] := by
    simp [Sending.ahead, Session.sending, hflight, items_of_act?_writing hphase hwriting hflight]
  have hqueued := hsound.waiting (i := i) (by rw [Journal.client_ofTurns, hphase]; exact hopen)
  rw [Journal.client_ofTurns, hphase, aheadOf, hahead, List.append_nil] at hqueued
  have hall : script config.connection.protocolVersion firstSeq
      ((Journal.ofTurns c (before ++ rest)).queued i) <+: out := by
    rcases hdone with hnil | hdone
    · rw [hnil]
      exact List.nil_prefix
    · rw [hqueued]
      exact (List.prefix_append_right_inj _).mp hdone
  exact List.IsPrefix.eq_of_length_le ⟨more, hscript⟩ hall.length_le

/-- A client comes back to the server where it has stopped. Whatever has happened before a
connection is accepted, and whatever happens then, the frames behind its token frame are first of
all the request for the direct inbox, numbered two, and those for all tracked groups in ascending
order, each from the cursor held. -/
theorem recovers_run (hnew : new config store tokens = .ok c) (hload : store.load = .ok loaded)
    (hgreeted : (c.playAll before).phase? i = some (.greeting (.done (.ok ())) link)) (n : Nat)
    (after : List Turn) :
    Recovers config loaded c i before (before ++ ⟨.act (.connecting i), n⟩ :: after) where
  wire := by
    obtain ⟨hauth, -⟩ := greeted_run hnew hgreeted
    obtain ⟨octets, hoctets, hscript⟩ := script_eq_series config.connection.protocolVersion
      firstSeq fun m hm => Cursors.exists_of_mem_requests (c := (c.playAll before).cursors) hm
    obtain ⟨out, hout, hlaid, hwhole⟩ :=
      laid_run hnew hgreeted (⟨.act (.connecting i), n⟩ :: after)
    have hcatches := catchesUp_run hnew hgreeted n after
    refine ⟨_, octets, out, hauth, rfl, hoctets, hout, ?_⟩
    rw [← hscript]
    generalize hqueued :
      (Journal.ofTurns c (before ++ ⟨.act (.connecting i), n⟩ :: after)).queued i = queued at *
    have hgrows {items items' : List Outgoing} (h : items <+: items') :
        script config.connection.protocolVersion firstSeq items <+:
          script config.connection.protocolVersion firstSeq items' := by
      obtain ⟨more, rfl⟩ := h
      rw [script_append]
      exact List.prefix_append _ _
    generalize hphase : (c.playAll _).phase? i = phase at hcatches
    cases hcatches with
    | asking s holder requests h hitems =>
      have hfront : queued <+: (c.playAll before).cursors.requests.map .own :=
        hitems ▸ List.prefix_append _ _
      refine ⟨.inl (hlaid.trans (hgrows hfront)), ?_⟩
      rintro ⟨s', holder', hphase', hopen, hflight, hconnecting, hwriting⟩
      obtain ⟨rfl, rfl⟩ : s = s' ∧ holder = holder' := by simpa using hphase.symm.trans hphase'
      exact absurd (act?_connecting_of_established hphase hconnecting)
        (h.startup_ne_stuck hopen (items_of_act?_writing hphase hwriting hflight) _)
    | asked _ h =>
      refine ⟨List.prefix_or_prefix_of_prefix hlaid (hgrows h), fun hrest => ?_⟩
      rw [hwhole hrest]
      exact hgrows h
    | failed h =>
      refine ⟨.inl (hlaid.trans (hgrows h)), ?_⟩
      rintro ⟨s, holder, hphase', -⟩
      cases hphase.symm.trans hphase'
  tracked g := tracked_run hnew hload before
  held scope key hkey := held_run hnew hload before hkey
  kept scope key hkey := cursors_of_new hnew hload hkey
  still front t after' hrun j standing harrives := by
    rw [playAll_concat]
    exact cursors_of_arrival harrives

end New

/-- The link of a connection that has been accepted and has not begun yet. -/
def acceptedOn? : Option Phase → Option Link
  | some (.greeting (.done (.ok _)) link) => some link
  | _ => none

lemma exists_of_acceptedOn? {phase : Option Phase} (h : (acceptedOn? phase).isSome = true) :
    ∃ link, phase = some (.greeting (.done (.ok ())) link) := by
  unfold acceptedOn? at h
  split at h
  · rename_i u link
    exact ⟨link, rfl⟩
  · cases h

/-- A client that sends one message at a time and follows two groups, one of them twice. -/
def followed : Config :=
  { Config.least with delivery := { outboundQueue := 1 }, sync := { groups := [7, 3, 7] } }

/-- Cursors of the direct inbox and of two groups. -/
def stock : Cursors := ⟨5, .ofList [(7, 9), (-1, 4)]⟩

def stocked : Client where
  config := followed
  tokens := []
  progress := {
    engine := (Engine.ofCursors stock).run [.track 7, .track 3, .track 7, .reset]
    store := .memory stock }

lemma new_stocked : new followed (.memory stock) [] = .ok stocked := by rfl

def accepting (i : Nat) : List Move :=
  [.connect "a", .act (.connecting i),
    .happen i (.arrive [0, 0, 0, 4, 0, 0, 0, 1, 3, 2, 0, 0, 0, 0, 0, 0]), .act (.connecting i)]

/-- All sides of a connection have their turns so often. -/
def talking (i n : Nat) : List Move :=
  (List.replicate n [.act (.connecting i), .act (.writing i), .act (.writing i),
    .act (.reading i)]).flatten

/-- On the first connection the server closes a window of a group and has something for another one;
then it ends, and the next one is accepted. -/
def returning : List Turn :=
  firsts (accepting 0 ++ talking 0 6 ++
    [.happen 0 (.arrive
      [0, 0, 0, 16, 0, 0, 0, 2, 32, 2, 0, 0, 0, 0, 0, 0, 0, 0, 0, 7, 0, 0, 0, 0, 0, 0, 0, 20,
        0, 0, 0, 16, 0, 0, 0, 3, 33, 2, 0, 0, 0, 0, 0, 0, 0, 0, 0, 12, 0, 0, 0, 0, 0, 0, 0, 1]),
      .happen 0 .ended] ++ talking 0 8 ++ accepting 1)

/-- The second connection asks for the direct inbox and for four groups, from where the first one
has left them. -/
theorem recovers_run_returning :
    new followed (.memory stock) [] = .ok stocked ∧
      CursorStore.load (.memory stock) = .ok stock ∧
      (∃ link, (stocked.playAll returning).phase? 1 = some (.greeting (.done (.ok ())) link)) ∧
      (stocked.playAll returning).cursors.requests =
        [.sync .request ⟨.direct, 5⟩, .sync .request ⟨.group (-1), 4⟩,
          .sync .request ⟨.group 3, 0⟩, .sync .request ⟨.group 7, 20⟩,
          .sync .request ⟨.group 12, 0⟩] ∧
      Recovers followed stock stocked 1 returning
        (returning ++ ⟨.act (.connecting 1), 0⟩ :: firsts (talking 1 6)) := by
  have haccepted : ∃ link,
      (stocked.playAll returning).phase? 1 = some (.greeting (.done (.ok ())) link) :=
    exists_of_acceptedOn? (by decide +kernel)
  refine ⟨new_stocked, rfl, haccepted, by decide +kernel, ?_⟩
  obtain ⟨link, hlink⟩ := haccepted
  exact recovers_run new_stocked rfl hlink 0 _

end Client

end Parley
