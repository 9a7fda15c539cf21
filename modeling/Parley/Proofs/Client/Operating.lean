import Parley.Proofs.Client.Standing
import Parley.Proofs.Sync.Operations

/-!
# What turns do with the engine

All that connections do with the engine of a client are operations of it. `Client.ops` lists those
of a turn, so that what holds of every sequence of operations holds of the engine in every run.
Main statement: `Client.engine_playAll`.
-/

namespace Parley

/-- What a frame does with the engine when it is dispatched. -/
def Frame.ops (f : Frame) : List Engine.Op :=
  match f.message with
  | .sync .opened point => [.opened point.scope]
  | .sync .ended point => [.closed point.scope point.key]
  | .sync .notify point => [.notify point.scope point.key]
  | _ => []

def RawFrame.ops (raw : RawFrame) : List Engine.Op :=
  match raw.decode with
  | .ok f => f.ops
  | .error _ => []

/-- A frame does with the engine what its message says, and a body that cannot be read nothing. -/
lemma engine_dispatch (p : Progress) (t : Tracker Nat) (raw : RawFrame) :
    (dispatch p t raw).progress.engine = p.engine.run raw.ops := by
  unfold dispatch RawFrame.ops
  cases raw.decode with
  | error e => rfl
  | ok f =>
    obtain ⟨seq, version, flags, message⟩ := f
    cases message with
    | signal kind => cases kind <;> rfl
    | sync verb point => cases verb <;> rfl
    | _ => rfl

namespace Session

def ops (s : Session) (step : Step) : List Engine.Op :=
  if step.ended then [.reset]
  else
    match s.stage with
    | .live (.commit scope key persisted :: _) => [.commit scope key persisted]
    | _ => ((s.reads? step).map RawFrame.ops).getD []

lemma Heard.engine {s : Session} {p : Progress} {now : Nat} {step : Step}
    (h : s.Heard p now step) : step.progress.engine = p.engine.run (s.ops step) := by
  -- a step that neither commits nor reads a frame
  have hquiet {step : Step} (hended : step.ended = false) (hlink : step.session.link = s.link)
      (hstage : ∀ scope key persisted rest,
        s.stage ≠ .live (.commit scope key persisted :: rest)) : s.ops step = [] := by
    rw [ops, hended, if_neg Bool.false_ne_true]
    split
    · rename_i scope key persisted rest hcommit
      exact absurd hcommit (hstage _ _ _ _)
    · rw [reads?_of_link hlink]
      rfl
  cases h with
  | committed scope key persisted rest hstage =>
    simp only [ops, hstage, Bool.false_eq_true, if_false]
    rfl
  | dispatched raw link hstage hnext =>
    have hops : ∀ step : Step, step.session.link = link → step.ended = false →
        s.ops step = raw.ops := by
      intro step hlink hended
      simp only [ops, hended, hstage, Bool.false_eq_true, if_false, reads?_of_nextRaw hnext hlink,
        Option.map_some, Option.getD_some]
    rw [hops _ rfl rfl]
    exact engine_dispatch p s.tracker raw
  | finished duties link reason hstage hduty hends => rfl
  | refilled ev backlog hstage hbacklog hroom =>
    rw [hquiet rfl rfl (by rcases hstage with hs | hs <;> simp [hs])]
    rfl
  | left hstage h =>
    rw [hquiet rfl rfl (by simp [hstage])]
    rfl
  | sent m rest outbox hstage hoffer =>
    rw [hquiet rfl rfl (by simp [hstage])]
    rfl
  | lined m rest outbox hstage hoffer =>
    rw [hquiet rfl rfl (by simp [hstage])]
    rfl
  | persisted scope key cursors rest hstage =>
    rw [hquiet rfl rfl (by simp [hstage])]
    rfl
  | handedOut duty ev rest backlog channel hstage hduty hput =>
    rw [hquiet rfl rfl ?_]
    · rfl
    · rintro scope key persisted rest' hcommit
      rw [hcommit] at hstage
      cases hstage
      cases hduty
  | pinged hstage hdue =>
    rw [hquiet rfl rfl (by simp [hstage])]
    rfl

end Session

namespace Client

def ops (c : Client) (t : Turn) : List Engine.Op :=
  match t.move with
  | .act (.connecting i) =>
    match c.phase? i with
    | some (.greeting (.done (.ok _)) _) => [.ready]
    | _ => []
  | .act (.reading i) => ((c.hears? i t).map fun heard => heard.1.ops heard.2).getD []
  | .trackGroup i _ g => if (c.handle? i).isSome then [.track g] else []
  | _ => []

def opsOf : Client → List Turn → List Engine.Op
  | _, [] => []
  | c, t :: ts => c.ops t ++ opsOf (c.play t) ts

variable {c : Client} {i : Nat} {t : Turn}

lemma progress_of_hears? {s : Session} {step : Session.Step} (h : c.hears? i t = some (s, step)) :
    (c.play t).progress = step.progress := by
  obtain ⟨holder, -, -, -, hplay⟩ := play_of_hears? h
  rw [hplay]
  exact congrArg Prod.snd (common_hear c i holder step)

lemma play_of_hears?_none (hmove : t.move = .act (.reading i)) (h : c.hears? i t = none) :
    c.play t = c := by
  unfold play
  rw [hmove]
  simp only [choose]
  split
  · rename_i s holder hphase
    simp only [hears?, hmove, hphase, if_true, Option.map_eq_none_iff] at h
    rw [h, Option.map_none, Option.getD_none]
  · rfl

lemma play_began {link : Link} (hphase : c.phase? i = some (.greeting (.done (.ok ())) link))
    (n : Nat) :
    (c.play ⟨.act (.connecting i), n⟩).phase? i =
        some (.established (Session.start c.config link (Handshake.seq + 1) c.now
          c.progress.engine.onReady.2) (.free {})) ∧
      (c.play ⟨.act (.connecting i), n⟩).progress.engine = c.progress.engine.onReady.1 := by
  obtain ⟨⟨id, phase⟩, hconnection, rfl⟩ := Option.map_eq_some_iff.mp hphase
  have hmove : c.play ⟨.act (.connecting i), n⟩ = c.greeted i id (.ok ()) link := by
    simp only [play, move, act?, hconnection, greet?, Option.getD_some]
  rw [hmove]
  exact ⟨phase?_setPhase_self _ hphase _, rfl⟩

lemma engine_connecting (c : Client) (i n : Nat) :
    (c.move (.act (.connecting i))).progress.engine =
      c.progress.engine.run (c.ops ⟨.act (.connecting i), n⟩) := by
  simp only [move, act?, ops, phase?]
  cases c.connections[i]? with
  | none => rfl
  | some k =>
    obtain ⟨id, phase⟩ := k
    cases phase with
    | greeting g link =>
      cases g with
      | done result => cases result <;> rfl
      | writing octets =>
        simp only [greet?]
        cases (Handshake.writing octets).step? c.config.connection.authTimeout c.now link <;> rfl
      | awaiting deadline =>
        simp only [greet?]
        cases (Handshake.awaiting deadline).step? c.config.connection.authTimeout c.now link <;> rfl
    | established s holder =>
      simp only [startup?]
      cases s.startup c.now <;> rfl
    | failed => rfl

lemma engine_trackGroup (c : Client) (i n : Nat) (id : String) (g : Int64) :
    (c.move (.trackGroup i id g)).progress.engine =
      c.progress.engine.run (c.ops ⟨.trackGroup i id g, n⟩) := by
  simp only [move, ops]
  cases c.handle? i with
  | none => rfl
  | some found =>
    simp only [trackGroup]
    split
    · exact congrArg (·.2.engine) (common_send _ i found.1 id .nothing _ 0)
    · rfl

lemma progress_connect (c : Client) (id : String) : (c.connect id).progress = c.progress := by
  obtain ⟨token, tokens, hnext⟩ := nextToken_eq { c with state := .authenticating }
  simp only [connect, hnext]
  cases token <;> rfl

lemma ops_of_isOwn {m : Move} (hown : m.isOwn = true) (n : Nat) : c.ops ⟨m, n⟩ = [] := by
  cases m with
  | act a =>
    cases a with
    | connecting i => cases hown
    | reading i => cases hown
    | _ => rfl
  | trackGroup i id g => cases hown
  | _ => rfl

theorem engine_play (c : Client) (t : Turn) :
    (c.play t).progress.engine = c.progress.engine.run (c.ops t) := by
  obtain ⟨m, n⟩ := t
  by_cases hown : m.isOwn = true
  · rw [play_of_ne, ops_of_isOwn hown]
    · exact congrArg (·.2.engine) (c.common_move hown)
    · rintro i rfl
      cases hown
  · cases m with
    | act a =>
      cases a with
      | connecting i => exact c.engine_connecting i n
      | reading i =>
        simp only [ops]
        cases hhears : c.hears? i ⟨.act (.reading i), n⟩ with
        | none =>
          rw [play_of_hears?_none rfl hhears]
          rfl
        | some heard =>
          obtain ⟨s, step⟩ := heard
          obtain ⟨holder, -, -, hstep, -⟩ := hears?_eq_some hhears
          rw [progress_of_hears? hhears]
          exact (Session.heard_of_mem_choices hstep).engine
      | _ => exact absurd rfl hown
    | connect id => exact congrArg Progress.engine (c.progress_connect id)
    | connectTcp id => rfl
    | trackGroup i id g => exact c.engine_trackGroup i n id g
    | _ => exact absurd rfl hown

theorem engine_playAll (c : Client) (ts : List Turn) :
    (c.playAll ts).progress.engine = c.progress.engine.run (c.opsOf ts) := by
  induction ts generalizing c with
  | nil => rfl
  | cons t ts ih =>
    change ((c.play t).playAll ts).progress.engine = _
    rw [ih, opsOf, Engine.run_append, engine_play]

end Client

end Parley
