import Mathlib.Data.List.Induction
import Parley.Proofs.Client.Phases
import Parley.Proofs.Session.Feeding

/-!
# Events from the frames to the application

A `Feed` is a run of a client with what becomes of the events of one connection: the frames its
reading side has taken, the events they have told, and the events that the application has taken.
-/

namespace Parley

namespace Client

def hears? (c : Client) (i : Nat) (t : Turn) : Option (Session × Session.Step) :=
  match t.move, c.phase? i with
  | .act (.reading j), some (.established s _) =>
    if j = i then (s.choices c.progress c.now)[t.choice]?.map (s, ·) else none
  | _, _ => none

def returned? (c : Client) (i : Nat) : Move → Option Event
  | .recv j =>
    match c.inbox? j with
    | some (s, b) =>
      match (c.recv j s b).1 with
      | .event ev => if j = i then some ev else none
      | _ => none
    | none => none
  | _ => none

lemma play_of_hears? {c : Client} {i : Nat} {t : Turn} {s : Session} {step : Session.Step}
    (h : c.hears? i t = some (s, step)) :
    ∃ holder, t.move = .act (.reading i) ∧ c.phase? i = some (.established s holder) ∧
      step ∈ s.choices c.progress c.now ∧ c.play t = c.hear i holder step := by
  unfold hears? at h
  split at h
  · rename_i j s' holder hmove hphase
    split at h
    · rename_i hj
      subst hj
      obtain ⟨step', hstep, heq⟩ := Option.map_eq_some_iff.mp h
      obtain ⟨rfl, rfl⟩ := Prod.mk.inj heq
      refine ⟨holder, hmove, hphase, List.mem_of_getElem? hstep, ?_⟩
      unfold play
      rw [hmove]
      simp only [choose, hphase, hstep, Option.map_some, Option.getD_some]
    · cases h
  · cases h

lemma hears?_eq_some {c : Client} {i : Nat} {t : Turn} {s : Session} {step : Session.Step}
    (h : c.hears? i t = some (s, step)) :
    ∃ holder, t.move = .act (.reading i) ∧ c.phase? i = some (.established s holder) ∧
      step ∈ s.choices c.progress c.now ∧
      (c.play t).phase? i = some (.established step.session holder) := by
  obtain ⟨holder, hmove, hphase, hstep, hplay⟩ := play_of_hears? h
  refine ⟨holder, hmove, hphase, hstep, ?_⟩
  rw [hplay, phase?_hear]
  exact phase?_setPhase_self _ hphase _

lemma phase?_of_hears?_none {c : Client} {i : Nat} {t : Turn} (h : c.hears? i t = none)
    (hmove : t.move = .act (.reading i)) : (c.play t).phase? i = c.phase? i := by
  unfold play
  rw [hmove]
  simp only [choose]
  split
  · rename_i s holder hphase
    simp only [hears?, hmove, hphase, if_true, Option.map_eq_none_iff] at h
    rw [h, Option.map_none, Option.getD_none]
  · rfl

end Client

/-- A run of a client, and the events of one of its connections. -/
structure Feed where
  client : Client
  frames : List RawFrame := []
  told : List Event := []
  taken : List Event := []
  returned : List Event := []

namespace Feed

def note (i : Nat) (j : Feed) (t : Client.Turn) : Feed where
  client := j.client.play t
  frames := j.frames ++ ((j.client.hears? i t).bind fun (s, step) => s.reads? step).toList
  told := j.told ++
    ((j.client.hears? i t).bind fun (s, step) => s.emits? j.client.progress step).toList
  taken := j.taken ++ (j.client.taken? i t.move).toList
  returned := j.returned ++ (j.client.returned? i t.move).toList

def ofTurns (i : Nat) (c : Client) (ts : List Client.Turn) : Feed :=
  ts.foldl (note i) { client := c }

def holds : Holder → Bool
  | .free _ | .waiting .. => true
  | _ => false

/-- A connection's events are where they should be. -/
inductive Agrees (j : Feed) : Option Phase → Prop
  | before (phase : Option Phase) (hphase : ∀ s holder, phase ≠ some (.established s holder))
    (hframes : j.frames = []) (htold : j.told = []) (htaken : j.taken = []) : Agrees j phase
  | established (s : Session) (holder : Holder) (hfeeds : s.Feeds j.frames j.told j.taken)
    (hcapacity : s.channel.capacity = j.client.config.delivery.eventQueue)
    (hheld : s.channel.isTaken = holds holder) : Agrees j (some (.established s holder))

variable {j j' : Feed} {i : Nat}

lemma Agrees.congr {phase : Option Phase} (h : j.Agrees phase) (hframes : j'.frames = j.frames)
    (htold : j'.told = j.told) (htaken : j'.taken = j.taken)
    (hconfig : j'.client.config = j.client.config) : j'.Agrees phase := by
  cases h with
  | before phase hphase hf ht hk =>
    exact .before phase hphase (hframes.trans hf) (htold.trans ht) (htaken.trans hk)
  | established s holder hfeeds hcapacity hheld =>
    refine .established s holder ?_ ?_ hheld
    · rwa [hframes, htold, htaken]
    · rwa [hconfig]

lemma Agrees.session {s s' : Session} {holder holder' : Holder}
    (h : j.Agrees (some (.established s holder))) (hstage : s'.stage = s.stage)
    (hchannel : s'.channel = s.channel) (hbacklog : s'.backlog = s.backlog)
    (hholds : holds holder' = holds holder) : j.Agrees (some (.established s' holder')) := by
  cases h with
  | before phase hphase => exact absurd rfl (hphase s holder)
  | established s holder hfeeds hcapacity hheld =>
    refine .established s' holder' (hfeeds.congr hstage ?_ hbacklog ?_) ?_ ?_
    · rw [hchannel]
    · rw [hchannel]
      exact id
    · rwa [hchannel]
    · rw [hchannel, hholds, hheld]

lemma Agrees.feeds {s : Session} {holder : Holder} (h : j.Agrees (some (.established s holder))) :
    s.Feeds j.frames j.told j.taken ∧
      s.channel.capacity = j.client.config.delivery.eventQueue ∧
      s.channel.isTaken = holds holder := by
  cases h with
  | before phase hphase => exact absurd rfl (hphase s holder)
  | established s holder hfeeds hcapacity hheld => exact ⟨hfeeds, hcapacity, hheld⟩

lemma Agrees.before_of_ne {phase : Phase} {new : Option Phase} (h : j.Agrees (some phase))
    (hphase : ∀ s holder, phase ≠ .established s holder)
    (hnew : ∀ s holder, new ≠ some (.established s holder)) : j.Agrees new := by
  cases h with
  | before phase' hphase' hf ht hk => exact .before new hnew hf ht hk
  | established s holder => exact absurd rfl (hphase s holder)

lemma Agrees.take {s s' : Session} {holder holder' : Holder} {ev : Event}
    (h : j.Agrees (some (.established s holder))) (htake : s.takeEvent? = some (ev, s'))
    (hholds : holds holder' = holds holder) :
    Agrees { j with taken := j.taken ++ [ev] } (some (.established s' holder')) := by
  obtain ⟨hfeeds, hcapacity, hheld⟩ := h.feeds
  have hfeeds' := hfeeds.take htake
  obtain ⟨items, hitems, rfl⟩ := Session.takeEvent?_cases htake
  exact .established _ holder' hfeeds' hcapacity (hheld.trans hholds.symm)

lemma agrees_start {g : Handshake} {link : Link} {now : Nat} {requests : List Message}
    (h : j.Agrees (some (.greeting g link))) (seq : Int32) (b : Inbox) :
    j.Agrees (some (.established (Session.start j.client.config link seq now requests)
      (.free b))) := by
  cases h with
  | before phase hphase hf ht hk =>
    exact .established _ _ (.starting requests rfl hf ht hk rfl) rfl rfl

lemma Agrees.startup {s : Session} {holder : Holder} {requests : List Message}
    (h : j.Agrees (some (.established s holder))) (hstage : s.stage = .starting requests) :
    j.frames = [] ∧ j.told = [] ∧ j.taken = [] ∧ s.pending = [] := by
  obtain ⟨hfeeds, -, -⟩ := h.feeds
  cases hfeeds with
  | starting requests' hs hf ht hk hp => exact ⟨hf, ht, hk, hp⟩
  | live duties hs => cases hs.symm.trans hstage
  | finished reason hs => simp [hstage] at hs
  | lost reason hs => cases hs.symm.trans hstage

lemma Agrees.ready {s s' : Session} {holder : Holder} {now : Nat}
    (h : j.Agrees (some (.established s holder))) (hready : s.startup now = .ready s') :
    j.Agrees (some (.established s' holder)) := by
  obtain ⟨-, hcapacity, hheld⟩ := h.feeds
  obtain ⟨hstage, rfl⟩ := Session.startup_ready hready
  obtain ⟨hf, ht, hk, hp⟩ := h.startup hstage
  refine .established _ holder (.live [] rfl (.told [] ?_) ?_) hcapacity hheld
  · rw [hf, ht]
    exact .nil
  · rw [hk, ht]
    exact hp

lemma Agrees.going {s s' : Session} {holder : Holder} {now : Nat}
    (h : j.Agrees (some (.established s holder))) (hgoing : s.startup now = .going s') :
    j.Agrees (some (.established s' holder)) := by
  obtain ⟨-, hcapacity, hheld⟩ := h.feeds
  obtain ⟨m, requests, outbox, hstage, ⟨-, rfl⟩ | ⟨-, rfl⟩⟩ := Session.startup_going hgoing
  · obtain ⟨hf, ht, hk, hp⟩ := h.startup hstage
    exact .established _ holder (.starting requests rfl hf ht hk hp) hcapacity hheld
  · exact h.session rfl rfl rfl rfl

lemma Agrees.abandon {s : Session} {holder holder' : Holder} (closing : Bool)
    (h : j.Agrees (some (.established s holder))) (hholds : holds holder' = false) :
    j.Agrees (some (.established { Client.abandon s with closing } holder')) := by
  obtain ⟨hfeeds, hcapacity, -⟩ := h.feeds
  exact .established _ holder' (hfeeds.congr rfl rfl rfl fun _ => rfl) hcapacity hholds.symm

lemma Agrees.moved {m : Client.Move} {taken : Option Event} {old new : Option Phase}
    (h : j.Agrees old) (hmoved : j.client.PhaseMoved i m taken old new)
    (hm : m ≠ .act (.reading i)) : Agrees { j with taken := j.taken ++ taken.toList } new := by
  have hkeep {phase : Option Phase} (h : j.Agrees phase) :
      Agrees { j with taken := j.taken ++ (none : Option Event).toList } phase :=
    h.congr rfl rfl (List.append_nil _) rfl
  cases hmoved with
  | same => exact hkeep h
  | joined _ phase hjoins hphase =>
    cases h with
    | before phase' hnone hf ht hk =>
      refine hkeep (.before (some phase) ?_ hf ht hk)
      rintro s holder ⟨⟩
      simp at hphase
  | befell e g link => exact hkeep (h.before_of_ne (by simp) (by simp))
  | greeted g => exact hkeep (h.before_of_ne (by simp) (by simp))
  | rejected => exact hkeep (h.before_of_ne (by simp) (by simp))
  | began link => exact hkeep (agrees_start h _ _)
  | failed s holder hfailed =>
    obtain ⟨-, requests, hstage⟩ := Session.startup_failed hfailed
    obtain ⟨hf, ht, hk, -⟩ := h.startup hstage
    exact hkeep (.before _ (by simp) hf ht hk)
  | ready s s' holder hready => exact hkeep (h.ready hready)
  | going s s' holder hgoing => exact hkeep (h.going hgoing)
  | wrote s s' holder notes hwrite =>
    have hwritten := Session.written_of_write? hwrite
    obtain ⟨hfeeds, hcapacity, hheld⟩ := h.feeds
    refine hkeep (.established s' holder (hfeeds.written hwritten) ?_ ?_)
    · rwa [hwritten.channel]
    · rwa [hwritten.channel]
  | read => exact absurd rfl hm
  | event e s holder => exact hkeep (h.session rfl rfl rfl rfl)
  | offered k item s holder outbox => exact hkeep (h.session rfl rfl rfl rfl)
  | expired k call seq deadline s holder => exact hkeep (h.session rfl rfl rfl rfl)
  | closing s holder => exact hkeep (h.session rfl rfl rfl rfl)
  | took s s' b ev hstash htake => exact h.take htake rfl
  | unstashed s => exact hkeep (h.session rfl rfl rfl rfl)
  | waited id pred s => exact hkeep (h.session rfl rfl rfl rfl)
  | answered id pred s => exact hkeep (h.session rfl rfl rfl rfl)
  | passed id s s' b b' w w' ev htake => exact h.take htake rfl
  | found id s s' b b' w ev result tried htake => exact h.take htake rfl
  | starved id s => exact hkeep (h.session rfl rfl rfl rfl)
  | cancelled id s => exact hkeep (h.session rfl rfl rfl rfl)
  | dropped s b => exact hkeep (h.abandon s.closing rfl)
  | closed id s b => exact hkeep (h.abandon true rfl)
  | left id s => exact hkeep (h.session rfl rfl rfl rfl)

theorem Agrees.note (h : j.Agrees (j.client.phase? i)) (t : Client.Turn) :
    (j.note i t).Agrees ((j.note i t).client.phase? i) := by
  have hconfig : (j.note i t).client.config = j.client.config := j.client.config_play t
  cases hhears : j.client.hears? i t with
  | none =>
    have hframes : (j.note i t).frames = j.frames := by simp [Feed.note, hhears]
    have htold : (j.note i t).told = j.told := by simp [Feed.note, hhears]
    by_cases hmove : t.move = .act (.reading i)
    · have hphase := Client.phase?_of_hears?_none hhears hmove
      have htaken : (j.note i t).taken = j.taken := by
        simp [Feed.note, hmove, Client.taken?]
      change (j.note i t).Agrees ((j.client.play t).phase? i)
      rw [hphase]
      exact h.congr hframes htold htaken hconfig
    · exact (h.moved (j.client.phaseMoved_play t i) hmove).congr hframes htold rfl hconfig
  | some heard =>
    obtain ⟨s, step⟩ := heard
    obtain ⟨holder, hmove, hphase, hstep, hafter⟩ := Client.hears?_eq_some hhears
    rw [hphase] at h
    obtain ⟨hfeeds, hcapacity, hheld⟩ := h.feeds
    have hheard := Session.heard_of_mem_choices hstep
    obtain ⟨hcapacity', htaken'⟩ := hheard.channel
    change (j.note i t).Agrees ((j.client.play t).phase? i)
    rw [hafter]
    refine .established _ holder ?_ ?_ (htaken'.trans hheld)
    · have htaken : (j.note i t).taken = j.taken := by
        simp [Feed.note, hmove, Client.taken?]
      rw [htaken]
      simp only [Feed.note, hhears]
      exact hfeeds.heard hheard
    · rw [hcapacity', hcapacity, hconfig]

lemma ofTurns_concat (i : Nat) (c : Client) (ts : List Client.Turn) (t : Client.Turn) :
    ofTurns i c (ts ++ [t]) = (ofTurns i c ts).note i t :=
  List.foldl_append

lemma client_ofTurns (i : Nat) (c : Client) (ts : List Client.Turn) :
    (ofTurns i c ts).client = c.playAll ts := by
  induction ts using List.reverseRecOn with
  | nil => rfl
  | append_singleton ts t ih =>
    rw [ofTurns_concat, Client.playAll_append]
    exact congrArg (Client.play · t) ih

theorem agrees_ofTurns {c : Client} (hnew : c.phase? i = none) (ts : List Client.Turn) :
    (ofTurns i c ts).Agrees ((ofTurns i c ts).client.phase? i) := by
  induction ts using List.reverseRecOn with
  | nil => exact .before _ (by simp [hnew, ofTurns]) rfl rfl rfl
  | append_singleton ts t ih =>
    rw [ofTurns_concat]
    exact ih.note t

end Feed

end Parley
