import Parley.Proofs.Client.Feed

/-!
# The end of a session reaches the application

A session that has ended still hands out what is in its backlog. An application that keeps reading
gets all of it: every round in which the session and the application have their turns takes one
thing away of what is left, until nothing is.
-/

namespace Parley

lemma Inbox.stash_pop? {b b' : Inbox} {ev : Event} (h : b.pop? = some (ev, b')) :
    b.stash = ev :: b'.stash := by
  unfold pop? at h
  split at h
  · cases h
  · rename_i ev' stash hstash
    cases h
    exact hstash

lemma Inbox.stash_observe (b : Inbox) (ev : Event) : (b.observe ev).stash = b.stash := by
  cases ev <;> rfl

namespace Client

/-- Whether the application does something else with the events of a connection than to receive
them one by one. -/
def Move.turnsAway (i : Nat) : Move → Bool
  | .waitFor j _ _ | .dropSession j | .closeSession j _ => j = i
  | _ => false

/-- The session of a connection has ended, and the application takes its events. -/
structure Ending (c : Client) (i : Nat) (s : Session) (b : Inbox) : Prop where
  phase : c.phase? i = some (.established s (.free b))
  stage : s.stage = .leaving ∨ s.stage = .gone ∧ s.backlog = []
  taken : s.channel.isTaken = true
  room : 0 < s.channel.capacity

/-- What is left of an ended session: events passed over, events in the channel and in the backlog,
and whether it has still to leave. -/
structure Leftover where
  stash : List Event
  items : List Event
  backlog : List Event
  stays : Bool

def leftover (s : Session) (b : Inbox) : Leftover :=
  ⟨b.stash, s.channel.items, s.backlog, s.stage = .leaving⟩

/-- An event in the backlog has two ways to go, and leaving is one more step. -/
def Leftover.size (l : Leftover) : Nat :=
  l.stash.length + l.items.length + 2 * l.backlog.length + l.stays.toNat

def Leftover.Shrinks (l l' : Leftover) : Prop := l' = l ∨ l'.size < l.size

variable {c : Client} {i n : Nat} {s s' : Session} {b b' : Inbox}

lemma Leftover.Shrinks.trans {l l' l'' : Leftover} (h : l.Shrinks l') (h' : l'.Shrinks l'') :
    l.Shrinks l'' := by
  unfold Leftover.Shrinks at h h' ⊢
  rcases h with rfl | h
  · exact h'
  · rcases h' with rfl | h'
    · exact .inr h
    · exact .inr (Nat.lt_trans h' h)

lemma Leftover.Shrinks.size_le {l l' : Leftover} (h : l.Shrinks l') : l'.size ≤ l.size := by
  rcases h with rfl | h
  · exact Nat.le_refl _
  · exact Nat.le_of_lt h

lemma Ending.heard {step : Session.Step} (h : Ending c i s b)
    (hstep : step ∈ s.choices c.progress c.now) :
    (step.session.stage = .leaving ∨ step.session.stage = .gone ∧ step.session.backlog = []) ∧
      (leftover step.session b).size < (leftover s b).size := by
  have hnot {duties : List Duty} : s.stage ≠ .live duties := by
    intro hlive
    rcases h.stage with hs | ⟨hs, -⟩ <;> cases hs.symm.trans hlive
  cases Session.heard_of_mem_choices hstep with
  | refilled ev backlog hstage hbacklog hroom =>
    have hleaving := hstage.resolve_left hnot
    refine ⟨.inl hleaving, ?_⟩
    simp only [leftover, Leftover.size, hbacklog, List.length_append, List.length_cons,
      List.length_nil]
    omega
  | left hstage hempty =>
    refine ⟨.inr ⟨rfl, rfl⟩, ?_⟩
    simp only [leftover, Leftover.size, hstage, reduceCtorEq, decide_true, decide_false,
      Bool.toNat_true, Bool.toNat_false, List.length_nil]
    omega
  | sent m rest outbox hstage => exact absurd hstage hnot
  | lined m rest outbox hstage => exact absurd hstage hnot
  | persisted scope key cursors rest hstage => exact absurd hstage hnot
  | committed scope key persisted rest hstage => exact absurd hstage hnot
  | handedOut duty ev rest backlog channel hstage => exact absurd hstage hnot
  | dispatched raw link hstage => exact absurd hstage hnot
  | pinged hstage => exact absurd hstage hnot
  | finished duties link reason hstage => exact absurd hstage hnot

lemma Ending.congr {c' : Client} (h : Ending c i s b)
    (hphase : c'.phase? i = some (.established s' (.free b'))) (hstage : s'.stage = s.stage)
    (hchannel : s'.channel = s.channel) (hbacklog : s'.backlog = s.backlog)
    (hstash : b'.stash = b.stash) :
    ∃ s' b', Ending c' i s' b' ∧ (leftover s b).Shrinks (leftover s' b') := by
  refine ⟨s', b', ⟨hphase, ?_, ?_, ?_⟩, .inl ?_⟩
  · rw [hstage, hbacklog]
    exact h.stage
  · rw [hchannel]
    exact h.taken
  · rw [hchannel]
    exact h.room
  · unfold leftover
    rw [hstage, hchannel, hbacklog, hstash]

/-- A turn leaves an ended session as it is, or takes something away of what is left. -/
lemma Ending.play (h : Ending c i s b) {t : Turn} (ht : t.move.turnsAway i = false) :
    ∃ s' b', Ending (c.play t) i s' b' ∧ (leftover s b).Shrinks (leftover s' b') := by
  have hphase := h.phase
  cases hhears : c.hears? i t with
  | some heard =>
    obtain ⟨s₁, step⟩ := heard
    obtain ⟨holder, hmove, hphase', hstep, hafter⟩ := hears?_eq_some hhears
    cases hphase.symm.trans hphase'
    obtain ⟨hstage, hsize⟩ := h.heard hstep
    obtain ⟨hcapacity, htaken⟩ := (Session.heard_of_mem_choices hstep).channel
    exact ⟨step.session, b, ⟨hafter, hstage, htaken.trans h.taken, hcapacity.symm ▸ h.room⟩,
      .inr hsize⟩
  | none =>
    by_cases hmove : t.move = .act (.reading i)
    · exact h.congr ((phase?_of_hears?_none hhears hmove).trans hphase) rfl rfl rfl rfl
    · have hmoved := c.phaseMoved_play t i
      obtain ⟨m, n⟩ := t
      rw [hphase] at hmoved
      generalize hnew : (c.play ⟨m, n⟩).phase? i = new at hmoved
      generalize c.taken? i _ = taken at hmoved
      have hstarted {requests : List Message} : s.stage ≠ .starting requests := by
        intro hstarting
        rcases h.stage with hs | ⟨hs, -⟩ <;> cases hs.symm.trans hstarting
      cases hmoved with
      | same => exact h.congr hnew rfl rfl rfl rfl
      | failed s holder hfailed =>
        obtain ⟨-, requests, hs⟩ := Session.startup_failed hfailed
        exact absurd hs hstarted
      | ready s s' holder hready => exact absurd (Session.startup_ready hready).1 hstarted
      | going s s' holder hgoing =>
        obtain ⟨m, requests, outbox, hs, -⟩ := Session.startup_going hgoing
        exact absurd hs hstarted
      | wrote s s' holder notes hwrite =>
        have hwritten := Session.written_of_write? hwrite
        exact h.congr hnew hwritten.stage hwritten.channel hwritten.backlog rfl
      | read => exact absurd rfl hmove
      | event => exact h.congr hnew rfl rfl rfl rfl
      | offered => exact h.congr hnew rfl rfl rfl rfl
      | expired => exact h.congr hnew rfl rfl rfl rfl
      | closing => exact h.congr hnew rfl rfl rfl rfl
      | took s s' b ev hstash htake =>
        obtain ⟨items, hitems, rfl⟩ := Session.takeEvent?_cases htake
        refine ⟨_, _, ⟨hnew, h.stage, h.taken, h.room⟩, .inr ?_⟩
        simp only [leftover, Leftover.size, hitems, Inbox.stash_observe, List.length_cons]
        omega
      | unstashed s b b' ev hpop =>
        refine ⟨s, b', ⟨hnew, h.stage, h.taken, h.room⟩, .inr ?_⟩
        simp only [leftover, Leftover.size, Inbox.stash_pop? hpop, List.length_cons]
        omega
      | waited id pred => simp [Move.turnsAway] at ht
      | answered id pred => simp [Move.turnsAway] at ht
      | dropped => simp [Move.turnsAway] at ht
      | closed => simp [Move.turnsAway] at ht

lemma Ending.playAll (h : Ending c i s b) (ts : List Turn)
    (hts : ∀ t ∈ ts, t.move.turnsAway i = false) :
    ∃ s' b', Ending (c.playAll ts) i s' b' ∧ (leftover s b).Shrinks (leftover s' b') := by
  induction ts generalizing c s b with
  | nil => exact ⟨s, b, h, .inl rfl⟩
  | cons t ts ih =>
    obtain ⟨s', b', h', hshrinks⟩ := h.play (hts t List.mem_cons_self)
    obtain ⟨s'', b'', h'', hshrinks'⟩ := ih h' fun t ht => hts t (List.mem_cons_of_mem _ ht)
    exact ⟨s'', b'', h'', hshrinks.trans hshrinks'⟩

lemma Ending.leave (h : Ending c i s b) (hitems : s.channel.items = []) :
    ∃ step, s.leave c.progress = some step := by
  unfold Session.leave
  split
  · exact ⟨_, rfl⟩
  · rw [h.taken, if_neg (by decide), hitems, List.length_nil, if_pos h.room]
    exact ⟨_, rfl⟩

lemma Ending.reading (h : Ending c i s b) :
    ∃ s' b', Ending (c.play (.first (.act (.reading i)))) i s' b' ∧
      ((leftover s' b').size < (leftover s b).size ∨
        leftover s' b' = leftover s b ∧ (s.stage = .gone ∨ s.channel.items ≠ [])) := by
  by_cases hready : s.stage = .leaving ∧ s.channel.items = []
  · obtain ⟨hstage, hitems⟩ := hready
    obtain ⟨step, hstep⟩ := h.leave hitems
    have hchoices : s.choices c.progress c.now = [step] := by
      simp only [Session.choices, hstage, Session.read?, hstep, Option.toList_some]
    have hhears : c.hears? i (.first (.act (.reading i))) = some (s, step) := by
      simp only [hears?, Turn.first, h.phase, hchoices, if_true]
      rfl
    obtain ⟨holder, -, hphase, hmem, hafter⟩ := hears?_eq_some hhears
    cases h.phase.symm.trans hphase
    obtain ⟨hstage', hsize⟩ := h.heard hmem
    obtain ⟨hcapacity, htaken⟩ := (Session.heard_of_mem_choices hmem).channel
    exact ⟨step.session, b, ⟨hafter, hstage', htaken.trans h.taken, hcapacity.symm ▸ h.room⟩,
      .inl hsize⟩
  · obtain ⟨s', b', h', hshrinks⟩ := h.play (t := .first (.act (.reading i))) rfl
    refine ⟨s', b', h', ?_⟩
    rcases hshrinks with hsame | hsize
    · refine .inr ⟨hsame, ?_⟩
      rcases h.stage with hstage | ⟨hstage, -⟩
      · exact .inr fun hitems => hready ⟨hstage, hitems⟩
      · exact .inl hstage
    · exact .inl hsize

lemma Ending.isOver (h : Ending c i s b) : s.isOver = true := by
  unfold Session.isOver
  rcases h.stage with hstage | ⟨hstage, -⟩ <;> rw [hstage]

lemma Ending.inbox (h : Ending c i s b) : c.inbox? i = some (s, b) := by
  simp only [inbox?, handle?, h.phase]
  rcases h.stage with hstage | ⟨hstage, -⟩ <;> rw [hstage]

lemma Ending.receiving (h : Ending c i s b) (n : Nat) :
    ∃ s' b', Ending (c.play ⟨.recv i, n⟩) i s' b' ∧
      ((leftover s' b').size < (leftover s b).size ∨
        leftover s' b' = leftover s b ∧ b.stash = [] ∧ s.channel.items = []) := by
  have hplay : c.play ⟨.recv i, n⟩ = (c.recv i s b).2 := by simp only [Client.play, move, h.inbox]
  rw [hplay]
  unfold Client.recv
  split
  · rename_i ev b' hpop
    refine ⟨s, b', ⟨phase?_setPhase_self c h.phase _, h.stage, h.taken, h.room⟩, .inl ?_⟩
    simp only [leftover, Leftover.size, Inbox.stash_pop? hpop, List.length_cons]
    omega
  · rename_i hpop
    split
    · rename_i ev s' htake
      obtain ⟨items, hitems, rfl⟩ := Session.takeEvent?_cases htake
      refine ⟨_, _, ⟨phase?_setPhase_self c h.phase _, h.stage, h.taken, h.room⟩, .inl ?_⟩
      simp only [leftover, Leftover.size, hitems, Inbox.stash_observe, List.length_cons]
      omega
    · rename_i htake
      refine ⟨s, b, h, .inr ⟨rfl, ?_, ?_⟩⟩
      · unfold Inbox.pop? at hpop
        split at hpop
        · assumption
        · cases hpop
      · unfold Session.takeEvent? at htake
        split at htake
        · assumption
        · cases htake

/-- The session of a connection has a turn, and later the application has one. -/
def IsRound (i : Nat) (ts : List Turn) : Prop :=
  ∃ front middle back n,
    ts = front ++ [.first (.act (.reading i))] ++ middle ++ [⟨.recv i, n⟩] ++ back

lemma Ending.round (h : Ending c i s b) {ts : List Turn} (hround : IsRound i ts)
    (hts : ∀ t ∈ ts, t.move.turnsAway i = false) :
    ∃ s' b', Ending (c.playAll ts) i s' b' ∧
      (leftover s' b').size ≤ (leftover s b).size - 1 := by
  obtain ⟨front, middle, back, n, rfl⟩ := hround
  obtain ⟨s₁, b₁, h₁, hfront⟩ := h.playAll front fun t ht => hts t (by simp [ht])
  obtain ⟨s₂, b₂, h₂, hreading⟩ := h₁.reading
  obtain ⟨s₃, b₃, h₃, hmiddle⟩ := h₂.playAll middle fun t ht => hts t (by simp [ht])
  obtain ⟨s₄, b₄, h₄, hreceiving⟩ := h₃.receiving n
  obtain ⟨s₅, b₅, h₅, hback⟩ := h₄.playAll back fun t ht => hts t (by simp [ht])
  refine ⟨s₅, b₅, ?_, ?_⟩
  · rw [playAll_append, playAll_append, playAll_append, playAll_append]
    exact h₅
  · have hle := hfront.size_le
    have hle' := hmiddle.size_le
    have hle'' := hback.size_le
    rcases hreading with hlt | ⟨hsame, hblocked⟩
    · have hlast : (leftover s₄ b₄).size ≤ (leftover s₃ b₃).size := by
        rcases hreceiving with hlt | ⟨hsame, -⟩
        · exact Nat.le_of_lt hlt
        · exact Nat.le_of_eq (congrArg Leftover.size hsame)
      omega
    · rw [hsame] at hmiddle hle'
      rcases hreceiving with hlt | ⟨hsame', hstash, hitems⟩
      · omega
      · rw [hsame'] at hle''
        rcases hmiddle with hkept | hlt
        · -- neither of the two had anything to do, so nothing was left
          have hitems₁ : s₁.channel.items = [] := (congrArg Leftover.items hkept).symm.trans hitems
          have hstash₁ : b₁.stash = [] := (congrArg Leftover.stash hkept).symm.trans hstash
          have hgone : s₁.stage = .gone := hblocked.resolve_right fun hne => hne hitems₁
          have hbacklog : s₁.backlog = [] := by
            rcases h₁.stage with hstage | ⟨-, hbacklog⟩
            · cases hgone.symm.trans hstage
            · exact hbacklog
          have hzero : (leftover s₁ b₁).size = 0 := by
            simp [leftover, Leftover.size, hitems₁, hstash₁, hgone, hbacklog]
          omega
        · omega

lemma Ending.rounds (h : Ending c i s b) {rounds : List (List Turn)}
    (hrounds : ∀ ts ∈ rounds, IsRound i ts ∧ ∀ t ∈ ts, t.move.turnsAway i = false) :
    ∃ s' b', Ending (c.playAll rounds.flatten) i s' b' ∧
      (leftover s' b').size ≤ (leftover s b).size - rounds.length := by
  induction rounds generalizing c s b with
  | nil => exact ⟨s, b, h, Nat.le_refl _⟩
  | cons ts rounds ih =>
    obtain ⟨hround, hts⟩ := hrounds ts List.mem_cons_self
    obtain ⟨s', b', h', hsize⟩ := h.round hround hts
    obtain ⟨s'', b'', h'', hsize'⟩ := ih h' fun ts hin => hrounds ts (List.mem_cons_of_mem _ hin)
    refine ⟨s'', b'', ?_, ?_⟩
    · rw [List.flatten_cons, playAll_append]
      exact h''
    · rw [List.length_cons]
      omega

lemma Ending.recv_eq_ended (h : Ending c i s b) (hsize : (leftover s b).size = 0) :
    s.pending = [] ∧ (c.recv i s b).1 = .ended := by
  simp only [leftover, Leftover.size] at hsize
  have hstash : b.stash = [] := List.length_eq_zero_iff.mp (by omega)
  have hitems : s.channel.items = [] := List.length_eq_zero_iff.mp (by omega)
  have hbacklog : s.backlog = [] := List.length_eq_zero_iff.mp (by omega)
  have hgone : s.stage = .gone := by
    rcases h.stage with hstage | ⟨hstage, -⟩
    · rw [hstage] at hsize
      simp at hsize
    · exact hstage
  constructor
  · rw [Session.pending, hitems, hbacklog]
    rfl
  · simp [recv, Inbox.pop?, hstash, Session.takeEvent?, hitems, Session.isSilent, hgone]

/-- Whoever only receives the events of a connection one by one passes none over. -/
def Receives : Option Phase → Prop
  | some (.established _ holder) => ∃ b : Inbox, holder = .free b ∧ b.stash = []
  | _ => True

lemma Receives.play {t : Turn} (h : Receives (c.phase? i)) (ht : t.move.turnsAway i = false) :
    Receives ((c.play t).phase? i) := by
  have hmoved := c.phaseMoved_play t i
  obtain ⟨m, n⟩ := t
  generalize c.taken? i _ = taken at hmoved
  generalize c.phase? i = old at h hmoved
  generalize (c.play ⟨m, n⟩).phase? i = new at hmoved
  cases hmoved with
  | joined _ phase hjoins hphase =>
    rcases hphase with rfl | ⟨token, rfl⟩ <;> trivial
  | began => exact ⟨{}, rfl, rfl⟩
  | failed => trivial
  | took s s' b ev hstash htake =>
    obtain ⟨_, ⟨⟩, hempty⟩ := h
    exact ⟨_, rfl, by cases ev <;> exact hempty⟩
  | unstashed s b b' ev hpop =>
    obtain ⟨_, ⟨⟩, hempty⟩ := h
    rw [Inbox.stash_pop? hpop] at hempty
    cases hempty
  | waited => simp [Move.turnsAway] at ht
  | answered => simp [Move.turnsAway] at ht
  | passed | found | starved | cancelled =>
    obtain ⟨_, ⟨⟩, -⟩ := h
  | dropped => simp [Move.turnsAway] at ht
  | closed => simp [Move.turnsAway] at ht
  | left =>
    obtain ⟨_, ⟨⟩, -⟩ := h
  | _ => exact h

lemma returned?_eq_taken? (h : Receives (c.phase? i)) (m : Move) :
    c.returned? i m = c.taken? i m := by
  cases m with
  | recv j =>
    simp only [returned?, taken?]
    cases hinbox : c.inbox? j with
    | none => rfl
    | some inbox =>
      obtain ⟨s, b⟩ := inbox
      by_cases hj : j = i
      · subst hj
        rw [inbox?_eq_some hinbox] at h
        obtain ⟨_, ⟨⟩, hstash⟩ := h
        cases htake : s.takeEvent? with
        | none => cases hsilent : s.isSilent <;> simp [recv, Inbox.pop?, hstash, htake, hsilent]
        | some taken => simp [recv, Inbox.pop?, hstash, htake]
      · simp only [hj, false_and, if_false]
        cases (c.recv j s b).1 <;> rfl
  | act a =>
    cases a with
    | holding j =>
      simp only [returned?, taken?]
      split
      · rename_i s id b w hphase
        split
        · rename_i hj
          subst hj
          rw [hphase] at h
          obtain ⟨_, ⟨⟩, -⟩ := h
        · rfl
      · rfl
    | _ => rfl
  | _ => rfl

end Client

namespace Feed

variable {c : Client} {i : Nat} {j : Feed} {s : Session}

lemma ofTurns_append (i : Nat) (c : Client) (ts ts' : List Client.Turn) :
    ofTurns i c (ts ++ ts') = ts'.foldl (note i) (ofTurns i c ts) :=
  List.foldl_append

lemma returned_eq_taken (hnew : c.phase? i = none) {ts : List Client.Turn}
    (hts : ∀ t ∈ ts, t.move.turnsAway i = false) :
    Client.Receives ((c.playAll ts).phase? i) ∧
      (ofTurns i c ts).returned = (ofTurns i c ts).taken := by
  induction ts using List.reverseRecOn with
  | nil =>
    refine ⟨?_, rfl⟩
    change Client.Receives (c.phase? i)
    rw [hnew]
    trivial
  | append_singleton ts t ih =>
    obtain ⟨hreceives, hsame⟩ := ih fun t ht => hts t (List.mem_append_left _ ht)
    constructor
    · rw [Client.playAll_append]
      exact hreceives.play (hts t (by simp))
    · rw [ofTurns_concat]
      simp only [note, client_ofTurns, hsame, Client.returned?_eq_taken? hreceives]

lemma told_note_of_ending {b : Inbox} (h : j.client.Ending i s b) (t : Client.Turn) :
    (j.note i t).told = j.told := by
  cases hhears : j.client.hears? i t with
  | none =>
    simp only [note, hhears]
    exact List.append_nil _
  | some heard =>
    obtain ⟨s₁, step⟩ := heard
    obtain ⟨holder, -, hphase, -⟩ := Client.hears?_eq_some hhears
    cases h.phase.symm.trans hphase
    have hnone : s.emits? j.client.progress step = none := by
      refine Session.emits?_of_stage fun duty rest hlive => ?_
      rcases h.stage with hstage | ⟨hstage, -⟩ <;> cases hstage.symm.trans hlive
    simp only [note, hhears, Option.bind_some, hnone]
    exact List.append_nil _

lemma told_of_ending {b : Inbox} (h : j.client.Ending i s b) {ts : List Client.Turn}
    (hts : ∀ t ∈ ts, t.move.turnsAway i = false) : (ts.foldl (note i) j).told = j.told := by
  induction ts generalizing j s b with
  | nil => rfl
  | cons t ts ih =>
    obtain ⟨s', b', h', -⟩ := h.play (hts t List.mem_cons_self)
    have hrest := ih (j := j.note i t) h' fun t ht => hts t (List.mem_cons_of_mem _ ht)
    exact hrest.trans (told_note_of_ending h t)

/-- In a run, what the application has of the events of a connection and has still to get. -/
structure Delivers (c : Client) (i : Nat) (ts : List Client.Turn) : Prop where
  told : TellsMost (ofTurns i c ts).frames (ofTurns i c ts).told
  quiet : ∀ reason, .disconnected reason ∉ (ofTurns i c ts).told
  front : (ofTurns i c ts).taken <+: (ofTurns i c ts).told ∨
    ∃ reason, (ofTurns i c ts).taken = (ofTurns i c ts).told ++ [.disconnected reason]
  running : ∀ s holder, (c.playAll ts).phase? i = some (.established s holder) →
    s.isOver = false →
    (ofTurns i c ts).taken ++ s.channel.items ++ s.backlog = (ofTurns i c ts).told
  ended : ∀ s holder, (c.playAll ts).phase? i = some (.established s holder) →
    s.isOver = true → s.channel.isTaken = true → ∃ reason,
    (ofTurns i c ts).taken ++ s.channel.items ++ s.backlog =
      (ofTurns i c ts).told ++ [.disconnected reason]
  returned : (∀ t ∈ ts, t.move.turnsAway i = false) →
    (ofTurns i c ts).returned = (ofTurns i c ts).taken
  /-- One that keeps receiving until nothing can be left gets everything, then the end, and is then
  told that there is no more. -/
  drains : ∀ s b, (c.playAll ts).phase? i = some (.established s (.free b)) → s.isOver = true →
    ∀ rounds : List (List Client.Turn),
    (∀ r ∈ rounds, Client.IsRound i r ∧ ∀ t ∈ r, t.move.turnsAway i = false) →
    (Client.leftover s b).size ≤ rounds.length →
    (ofTurns i c (ts ++ rounds.flatten)).told = (ofTurns i c ts).told ∧
      (∃ reason, (ofTurns i c (ts ++ rounds.flatten)).taken =
        (ofTurns i c ts).told ++ [.disconnected reason]) ∧
      ∃ s' b', (c.playAll (ts ++ rounds.flatten)).inbox? i = some (s', b') ∧
        ((c.playAll (ts ++ rounds.flatten)).recv i s' b').1 = .ended

lemma fault?_of_validate {config : Config} (h : config.validate = .ok ()) :
    config.fault? = none := by
  unfold Config.validate at h
  split at h
  · cases h
  · split at h
    · cases h
    · assumption

lemma queues_pos_of_new {config : Config} {store : CursorStore}
    {tokens : List (Except Error String)} (hnew : Client.new config store tokens = .ok c) :
    0 < c.config.delivery.outboundQueue ∧ 0 < c.config.delivery.eventQueue := by
  obtain ⟨progress, rfl⟩ := Client.eq_of_new hnew
  have hfault := fault?_of_validate (Client.load_of_new hnew).1
  have hdelivery : config.delivery.fault? = none := by
    simp only [Config.fault?, Option.orElse_eq_orElse, Option.orElse_eq_or,
      Option.or_eq_none_iff] at hfault
    exact hfault.2.2.2
  simp only [Config.Delivery.fault?, Option.orElse_eq_orElse, Option.orElse_eq_or,
    Option.or_eq_none_iff] at hdelivery
  simp only [ite_eq_right_iff, reduceCtorEq, imp_false, not_or] at hdelivery
  exact ⟨Nat.pos_of_ne_zero hdelivery.2.1, Nat.pos_of_ne_zero hdelivery.2.2⟩

lemma Agrees.ending {b : Inbox} (h : j.Agrees (j.client.phase? i))
    (hroom : 0 < j.client.config.delivery.eventQueue)
    (hphase : j.client.phase? i = some (.established s (.free b))) (hover : s.isOver = true) :
    j.client.Ending i s b := by
  rw [hphase] at h
  obtain ⟨hfeeds, hcapacity, htaken⟩ := h.feeds
  exact ⟨hphase, (hfeeds.ended hover htaken).1, htaken, hcapacity.symm ▸ hroom⟩

lemma Agrees.most {phase : Option Phase} (h : j.Agrees phase) :
    TellsMost j.frames j.told ∧
      (j.taken <+: j.told ∨ ∃ reason, j.taken = j.told ++ [.disconnected reason]) := by
  cases h with
  | before phase hphase hframes htold htaken =>
    rw [hframes, htold, htaken]
    exact ⟨Tells.nil.most, .inl List.nil_prefix⟩
  | established s holder hfeeds => exact ⟨hfeeds.most, hfeeds.front⟩

/-- In every run, with every choice of the reading sides, the events of a connection reach the
application in the order of the frames that tell them, none lost and none twice, and the end of the
session comes behind all of them. -/
theorem delivers_ofTurns {config : Config} {store : CursorStore}
    {tokens : List (Except Error String)} (hnew : Client.new config store tokens = .ok c) (i : Nat)
    (ts : List Client.Turn) : Delivers c i ts := by
  have hfresh : c.phase? i = none := by
    obtain ⟨progress, rfl⟩ := Client.eq_of_new hnew
    rfl
  have hagrees := agrees_ofTurns (i := i) hfresh ts
  have hroom : 0 < (ofTurns i c ts).client.config.delivery.eventQueue := by
    rw [client_ofTurns, Client.config_playAll]
    exact (queues_pos_of_new hnew).2
  obtain ⟨hmost, hfront⟩ := hagrees.most
  refine ⟨hmost, hmost.not_mem_disconnected, hfront, ?_, ?_, ?_, ?_⟩
  · intro s holder hphase hrunning
    rw [← client_ofTurns] at hphase
    rw [hphase] at hagrees
    rw [List.append_assoc]
    exact hagrees.feeds.1.running hrunning
  · intro s holder hphase hover htaken
    rw [← client_ofTurns] at hphase
    rw [hphase] at hagrees
    obtain ⟨-, hall⟩ := hagrees.feeds.1.ended hover htaken
    simpa only [Session.pending, List.append_assoc] using hall
  · exact fun hts => (returned_eq_taken hfresh hts).2
  · intro s b hphase hover rounds hrounds hsize
    rw [← client_ofTurns] at hphase
    have hending := hagrees.ending hroom hphase hover
    have htold : (ofTurns i c (ts ++ rounds.flatten)).told = (ofTurns i c ts).told := by
      rw [ofTurns_append]
      refine told_of_ending hending fun t ht => ?_
      obtain ⟨r, hr, htr⟩ := List.mem_flatten.mp ht
      exact (hrounds r hr).2 t htr
    obtain ⟨s', b', hending', hsize'⟩ := hending.rounds hrounds
    rw [client_ofTurns, ← Client.playAll_append] at hending'
    obtain ⟨hpending, hended⟩ := hending'.recv_eq_ended (by omega)
    refine ⟨htold, ?_, s', b', hending'.inbox, hended⟩
    have hagrees' := agrees_ofTurns (i := i) hfresh (ts ++ rounds.flatten)
    rw [client_ofTurns, hending'.phase] at hagrees'
    obtain ⟨-, reason, hall⟩ := hagrees'.feeds.1.ended hending'.isOver hending'.taken
    rw [hpending, List.append_nil, htold] at hall
    exact ⟨reason, hall⟩

/-- A client whose channel holds one event reads two frames and the end of its stream. The second
event goes through the backlog, out of which it is taken before the end is read. -/
theorem delivers_of_narrow : ∃ config c ts,
    Client.new config (.memory .zero) [] = .ok c ∧ config.delivery.eventQueue = 1 ∧
      (ofTurns 0 c ts).frames.length = 2 ∧ (ofTurns 0 c ts).told.length = 2 ∧
      (ofTurns 0 c ts).taken =
        (ofTurns 0 c ts).told ++ [.disconnected (.failed .connectionClosed)] ∧
      Delivers c 0 ts := by
  have hnew : Client.new { Config.least with delivery := { eventQueue := 1 } }
      (.memory .zero) [] =
    .ok { Client.least with config := { Config.least with delivery := { eventQueue := 1 } } } := rfl
  refine ⟨_, _, Client.firsts (Client.introducing ++ [.happen 0 (.arrive
      [0, 0, 0, 0, 0, 0, 0, 3, 200, 2, 0, 0, 0, 0, 0, 0, 0, 0, 0, 4, 200, 2, 0, 0]),
      .happen 0 .ended, .act (.reading 0), .act (.reading 0), .act (.reading 0),
      .act (.reading 0), .recv 0]) ++
    ⟨.act (.reading 0), 1⟩ ::
      Client.firsts [.act (.reading 0), .recv 0, .act (.reading 0), .recv 0],
    hnew, rfl, ?_, ?_, ?_, delivers_ofTurns hnew 0 _⟩
  · decide +kernel
  · decide +kernel
  · decide +kernel

end Feed

end Parley
