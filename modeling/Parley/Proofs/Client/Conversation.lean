import Parley.Proofs.Client.Feed
import Parley.Proofs.Session.Dialogue

/-!
# Answers to the frames of a connection

A `Conversation` is a run of a client with the dialogue of one of its connections. Main statement:
`Conversation.answers_ofTurns`.
-/

namespace Parley

/-- A run of a client, and what one of its connections has been prompted by and has queued. -/
structure Conversation where
  client : Client
  dialogue : Dialogue := {}

namespace Conversation

def note (i : Nat) (j : Conversation) (t : Client.Turn) : Conversation where
  client := j.client.play t
  dialogue := (j.client.hears? i t).elim j.dialogue fun heard =>
    j.dialogue.heard heard.1 j.client.progress heard.2

def ofTurns (i : Nat) (c : Client) (ts : List Client.Turn) : Conversation :=
  ts.foldl (note i) { client := c }

/-- What a connection has queued agrees with how far it has come. -/
inductive Agrees (d : Dialogue) : Option Phase → Prop
  | before (phase : Option Phase) (hphase : ∀ s holder, phase ≠ some (.established s holder))
    (h : d = {}) : Agrees d phase
  | established (s : Session) (holder : Holder) (h : d.Agrees s.stage) :
    Agrees d (some (.established s holder))

variable {d : Dialogue} {c : Client} {i : Nat}

lemma Agrees.dialogue {s : Session} {holder : Holder}
    (h : Agrees d (some (.established s holder))) : d.Agrees s.stage := by
  cases h with
  | before phase hphase => exact absurd rfl (hphase s holder)
  | established s holder h => exact h

lemma Agrees.before_of_ne {phase : Phase} {new : Option Phase} (h : Agrees d (some phase))
    (hphase : ∀ s holder, phase ≠ .established s holder)
    (hnew : ∀ s holder, new ≠ some (.established s holder)) : Agrees d new := by
  cases h with
  | before phase' hphase' hd => exact .before new hnew hd
  | established s holder => exact absurd rfl (hphase s holder)

lemma Agrees.bounds {phase : Option Phase} (h : Agrees d phase) :
    (∀ x ∈ d.past, x.IsComplete) ∧ d.past.flatMap Prompt.answers <+: d.queued ∧
      d.queued <+: d.prompts.flatMap Prompt.answers := by
  cases h with
  | before phase hphase hd =>
    rw [hd]
    exact ⟨by simp, List.nil_prefix, List.nil_prefix⟩
  | established s holder h => exact h.bounds

lemma Agrees.session {s s' : Session} {holder holder' : Holder}
    (h : Agrees d (some (.established s holder))) (hstage : s'.stage = s.stage) :
    Agrees d (some (.established s' holder')) :=
  .established s' holder' (hstage ▸ h.dialogue)

lemma Agrees.startup {s : Session} {holder : Holder} {requests : List Message}
    (h : Agrees d (some (.established s holder))) (hstage : s.stage = .starting requests) :
    d = {} := by
  have hagrees := h.dialogue
  rw [hstage] at hagrees
  cases hagrees with
  | starting requests h => exact h
  | finished stage hstage => rcases hstage with hstage | hstage <;> cases hstage

lemma Agrees.moved {m : Client.Move} {taken : Option Event} {old new : Option Phase}
    (h : Agrees d old) (hmoved : c.PhaseMoved i m taken old new) (hm : m ≠ .act (.reading i)) :
    Agrees d new := by
  cases hmoved with
  | same => exact h
  | joined _ phase hjoins hphase =>
    cases h with
    | before phase' hnone hd =>
      refine .before (some phase) ?_ hd
      rintro s holder ⟨⟩
      simp at hphase
  | befell e g link => exact h.before_of_ne (by simp) (by simp)
  | greeted g => exact h.before_of_ne (by simp) (by simp)
  | rejected => exact h.before_of_ne (by simp) (by simp)
  | began link =>
    cases h with
    | before phase hnone hd => exact .established _ _ (.starting _ hd)
  | failed s holder hfailed =>
    obtain ⟨-, requests, hstage⟩ := Session.startup_failed hfailed
    exact .before _ (by simp) (h.startup hstage)
  | ready s s' holder hready =>
    obtain ⟨hstage, rfl⟩ := Session.startup_ready hready
    obtain rfl := h.startup hstage
    exact .established _ _ (.live [] [] (by simp) (.inl ⟨by simp, by simp⟩) rfl rfl)
  | going s s' holder hgoing =>
    obtain ⟨m, requests, outbox, hstage, ⟨-, rfl⟩ | ⟨-, rfl⟩⟩ := Session.startup_going hgoing
    · exact .established _ _ (.starting _ (h.startup hstage))
    · exact h.session rfl
  | wrote s s' holder notes hwrite => exact h.session (Session.written_of_write? hwrite).stage
  | read => exact absurd rfl hm
  | took s s' b ev hstash htake =>
    obtain ⟨items, -, rfl⟩ := Session.takeEvent?_cases htake
    exact h.session rfl
  | passed id s s' b b' w w' ev htake =>
    obtain ⟨items, -, rfl⟩ := Session.takeEvent?_cases htake
    exact h.session rfl
  | found id s s' b b' w ev result tried htake =>
    obtain ⟨items, -, rfl⟩ := Session.takeEvent?_cases htake
    exact h.session rfl
  | _ => exact h.session rfl

theorem Agrees.note {j : Conversation} (h : Agrees j.dialogue (j.client.phase? i))
    (t : Client.Turn) : Agrees (j.note i t).dialogue ((j.note i t).client.phase? i) := by
  cases hhears : j.client.hears? i t with
  | none =>
    have hdialogue : (j.note i t).dialogue = j.dialogue := by simp [Conversation.note, hhears]
    change Agrees (j.note i t).dialogue ((j.client.play t).phase? i)
    rw [hdialogue]
    by_cases hmove : t.move = .act (.reading i)
    · rw [Client.phase?_of_hears?_none hhears hmove]
      exact h
    · exact h.moved (j.client.phaseMoved_play t i) hmove
  | some heard =>
    obtain ⟨s, step⟩ := heard
    obtain ⟨holder, -, hphase, hstep, hafter⟩ := Client.hears?_eq_some hhears
    have hdialogue : (j.note i t).dialogue = j.dialogue.heard s j.client.progress step := by
      simp [Conversation.note, hhears]
    rw [hphase] at h
    change Agrees (j.note i t).dialogue ((j.client.play t).phase? i)
    rw [hafter, hdialogue]
    exact .established _ holder (h.dialogue.heard (Session.heard_of_mem_choices hstep))

lemma ofTurns_concat (i : Nat) (c : Client) (ts : List Client.Turn) (t : Client.Turn) :
    ofTurns i c (ts ++ [t]) = (ofTurns i c ts).note i t :=
  List.foldl_append

lemma client_ofTurns (i : Nat) (c : Client) (ts : List Client.Turn) :
    (ofTurns i c ts).client = c.playAll ts := by
  induction ts using List.reverseRecOn with
  | nil => rfl
  | append_singleton ts t ih =>
    rw [ofTurns_concat, Client.playAll_append]
    exact congrArg (Client.play · t) ih

theorem agrees_ofTurns (hnew : c.phase? i = none) (ts : List Client.Turn) :
    Agrees (ofTurns i c ts).dialogue ((ofTurns i c ts).client.phase? i) := by
  induction ts using List.reverseRecOn with
  | nil => exact .before _ (by simp [hnew, ofTurns]) rfl
  | append_singleton ts t ih =>
    rw [ofTurns_concat]
    exact ih.note t

lemma frames_ofTurns (i : Nat) (c : Client) (ts : List Client.Turn) :
    (ofTurns i c ts).dialogue.frames = (Feed.ofTurns i c ts).frames := by
  induction ts using List.reverseRecOn with
  | nil => rfl
  | append_singleton ts t ih =>
    have hclient : (ofTurns i c ts).client = (Feed.ofTurns i c ts).client := by
      rw [client_ofTurns, Feed.client_ofTurns]
    rw [ofTurns_concat, Feed.ofTurns_concat, note, Feed.note, ← hclient, ← ih]
    cases hhears : (ofTurns i c ts).client.hears? i t with
    | none => exact (List.append_nil _).symm
    | some heard => exact Dialogue.frames_heard _ heard.1 _ heard.2

/-- What a connection has queued besides the requests that it starts with, and the frames that it
has taken. -/
structure Answers (c : Client) (i : Nat) (raws : List RawFrame) (d : Dialogue) : Prop where
  frames : d.frames = raws
  front : d.queued <+: d.prompts.flatMap Prompt.answers
  earlier : d.past.flatMap Prompt.answers <+: d.queued ∧ ∀ x ∈ d.past, x.IsComplete
  whole : ∀ s holder, c.phase? i = some (.established s holder) → s.stage = .live [] →
    d.queued = d.prompts.flatMap Prompt.answers ∧ ∀ x ∈ d.prompts, x.IsComplete
  receipts : d.queued.filterMap Message.receipt? <+:
      ((raws.filter (·.isDue)).map fun raw => ⟨raw.header.seq, 0⟩) ∧
    ∀ s holder, c.phase? i = some (.established s holder) → s.stage = .live [] →
      d.queued.filterMap Message.receipt? =
        (raws.filter (·.isDue)).map fun raw => ⟨raw.header.seq, 0⟩
  /-- What is left to be done for a frame gets less with every step, if there is room for what the
  step queues. -/
  advances : ∀ s holder duty rest, c.phase? i = some (.established s holder) →
    s.stage = .live (duty :: rest) → s.outbox.isOpen = true → s.channel.isTaken = true →
    (∀ m, duty = .send m → s.outbox.place .reading < s.outbox.room) →
    ∃ step duties, s.read? c.progress c.now = some step ∧ step.session.stage = .live duties ∧
      Session.efforts duties < Session.efforts (duty :: rest)

/-- In every run, with every choice of the reading sides, a connection answers the frames that it
takes one after another. -/
theorem answers_ofTurns (hnew : c.phase? i = none) (ts : List Client.Turn) :
    Answers (c.playAll ts) i (Feed.ofTurns i c ts).frames (ofTurns i c ts).dialogue := by
  have hframes := frames_ofTurns i c ts
  have hagrees := agrees_ofTurns hnew ts
  rw [client_ofTurns] at hagrees
  obtain ⟨hcomplete, hearlier, hfront⟩ := hagrees.bounds
  have hwhole : ∀ s holder, (c.playAll ts).phase? i = some (.established s holder) →
      s.stage = .live [] →
      (ofTurns i c ts).dialogue.queued =
          (ofTurns i c ts).dialogue.prompts.flatMap Prompt.answers ∧
        ∀ x ∈ (ofTurns i c ts).dialogue.prompts, x.IsComplete := by
    intro s holder hphase hstage
    rw [hphase] at hagrees
    have hlive := hagrees.dialogue
    rw [hstage] at hlive
    exact hlive.whole
  refine ⟨hframes, hfront, ⟨hearlier, hcomplete⟩, hwhole, ⟨?_, ?_⟩, ?_⟩
  · have hreceipts := hfront.filterMap Message.receipt?
    rw [Dialogue.receipts_prompts] at hreceipts
    exact hframes ▸ hreceipts
  · intro s holder hphase hstage
    rw [(hwhole s holder hphase hstage).1, Dialogue.receipts_prompts, ← hframes]
    rfl
  · intro s holder duty rest _ hstage hopen htaken hroom
    exact Session.exists_read?_of_live _ hstage hopen htaken hroom

/-- A notice that a message has arrived, the end of a window, a receipt without a body, which is
dropped, and a ping. -/
def questioning : List Client.Move :=
  Client.introducing ++ .happen 0 (.arrive
      ([0, 0, 0, 20, 0, 0, 0, 7, 9, 2, 0, 0] ++ List.replicate 20 0 ++
        [0, 0, 0, 8, 0, 0, 0, 8, 28, 2, 0, 0, 0, 0, 0, 0, 0, 0, 0, 5] ++
        [0, 0, 0, 0, 0, 0, 0, 9, 5, 2, 0, 0] ++ [0, 0, 0, 0, 0, 0, 0, 10, 13, 2, 0, 0])) ::
    List.replicate 11 (.act (.reading 0))

theorem answers_of_questioning : Client.least.phase? 0 = none ∧
    (ofTurns 0 .least (Client.firsts questioning)).dialogue.frames.length = 4 ∧
    (ofTurns 0 .least (Client.firsts questioning)).dialogue.queued =
      [.ack ⟨7, 0⟩, Scope.direct.confirm 5, .signal .pong] ∧
    Answers (Client.least.playAll (Client.firsts questioning)) 0
      (Feed.ofTurns 0 .least (Client.firsts questioning)).frames
      (ofTurns 0 .least (Client.firsts questioning)).dialogue :=
  ⟨rfl, by decide +kernel, by decide +kernel, answers_ofTurns rfl _⟩

end Conversation

end Parley
