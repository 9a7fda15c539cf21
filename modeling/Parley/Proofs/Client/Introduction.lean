import Parley.Proofs.Client.Lanes
import Parley.Proofs.Client.Phases
import Parley.Proofs.Transport.Introduction

/-!
# Attempts to connect

An attempt to connect goes as its introduction goes, whatever else is done with the client: the
moves of the one are those turns of the client that concern the other. Main statement:
`Client.attempted`.
-/

namespace Parley

namespace Client

/-! ## The clock -/

section Clock
variable {c c' : Client} {i : Nat} {s : Session} {holder : Holder}

lemma now_applyNotes (c : Client) (notes : List Note) : (c.applyNotes notes).now = c.now := by
  induction notes generalizing c with
  | nil => rfl
  | cons n notes ih => cases n <;> exact ih _

lemma now_greet? {id : String} {g : Handshake} {link : Link} (h : c.greet? i id g link = some c') :
    c'.now = c.now := by
  cases g with
  | done result =>
    obtain rfl := Option.some.inj h
    cases result <;> rfl
  | writing octets =>
    obtain ⟨next, -, rfl⟩ := Option.map_eq_some_iff.mp h
    rfl
  | awaiting deadline =>
    obtain ⟨next, -, rfl⟩ := Option.map_eq_some_iff.mp h
    rfl

lemma now_callOn? {k : Nat} {call : Call} (h : c.callOn? k call s holder = some c') :
    c'.now = c.now := by
  grind [callOn?, callNumbered, finishCall, finish, setStage, setPhase]

lemma now_wait? {id : String} {b : Inbox} {w : Wait} (h : c.wait? i s id b w = some c') :
    c'.now = c.now := by
  grind [wait?, finish, setPhase]

lemma now_act? {a : Actor} (h : c.act? a = some c') : c'.now = c.now := by
  cases a with
  | connecting j =>
    simp only [act?] at h
    split at h
    · exact now_greet? h
    · grind [startup?, connectFailed, finish, setPhase]
    · cases h
  | writing j =>
    simp only [act?] at h
    split at h
    · obtain ⟨⟨s', notes⟩, hwrite, rfl⟩ := Option.map_eq_some_iff.mp h
      exact now_applyNotes _ notes
    · cases h
  | reading j =>
    simp only [act?] at h
    split at h
    · obtain ⟨step, hread, rfl⟩ := Option.map_eq_some_iff.mp h
      exact now_applyNotes _ step.notes
    · cases h
  | calling k => grind [act?, now_callOn?]
  | holding j => grind [act?, now_wait?, close?, finish, setPhase]

lemma now_move {m : Move} (hm : ∀ n, m ≠ .pass n) : (c.move m).now = c.now := by
  cases m with
  | act a =>
    rw [move]
    cases hact : c.act? a with
    | none => rfl
    | some c' => exact now_act? hact
  | connect id =>
    obtain ⟨token, tokens, hnext⟩ := nextToken_eq { c with state := .authenticating }
    simp only [move, connect, hnext]
    cases token <;> rfl
  | trackGroup j id g => grind [move, trackGroup, send, finish, addCall]
  | pass n => exact absurd rfl (hm n)
  | _ =>
    grind [move, connectTcp, addFailed, connectFailed, happen, send, awaitStopped, close, recv,
      waitFor, cancelWait, dropSession, closeSession, finish, setPhase, addCall]

lemma now_play {t : Turn} (ht : ∀ n, t.move ≠ .pass n) : (c.play t).now = c.now := by
  unfold play
  split
  · rename_i j hmove
    unfold choose
    split
    · rename_i s holder hphase
      cases hstep : (s.choices c.progress c.now)[t.choice]? with
      | none => rfl
      | some step => exact now_applyNotes _ step.notes
    · rfl
  · exact now_move ht

end Clock

/-! ## The name of an attempt -/

section Name
variable {c c' : Client} {i : Nat}

def attempt? (c : Client) (i : Nat) : Option String := (c.connections[i]?).map (·.attempt)

lemma attempt?_congr (h : c'.core = c.core) (i : Nat) : c'.attempt? i = c.attempt? i := by
  have hconnections : c'.connections = c.connections := congrArg Core.connections h
  rw [attempt?, attempt?, hconnections]

lemma attempt?_setPhase (c : Client) (j : Nat) (phase : Phase) (i : Nat) :
    (c.setPhase j phase).attempt? i = c.attempt? i := by
  rw [attempt?, attempt?, setPhase, List.getElem?_modify]
  cases c.connections[i]? with
  | none => simp
  | some k =>
    by_cases hj : j = i
    · simp [hj]
    · simp [hj]

lemma Moved.attempt?_eq {id : String} (h : Moved c c') (hid : c.attempt? i = some id) :
    c'.attempt? i = some id := by
  rw [← hid]
  cases h with
  | still h => exact attempt?_congr h i
  | joined id phase hphase h =>
    rw [attempt?_congr h i, attempt?, attempt?, List.getElem?_append_left]
    by_contra hi
    rw [attempt?, List.getElem?_eq_none (Nat.le_of_not_lt hi)] at hid
    cases hid
  | called new engine hnew hengine h => exact attempt?_congr h i
  | greeted j g g' link link' hphase hstep h =>
    exact (attempt?_congr h i).trans (attempt?_setPhase _ j _ i)
  | befell j g link e hphase h => exact (attempt?_congr h i).trans (attempt?_setPhase _ j _ i)
  | rejected j e link hphase h => exact (attempt?_congr h i).trans (attempt?_setPhase _ j _ i)
  | began j link hphase h => exact (attempt?_congr h i).trans (attempt?_setPhase _ j _ i)
  | failed j s holder hphase hstartup h =>
    exact (attempt?_congr h i).trans (attempt?_setPhase _ j _ i)
  | session j s s' holder holder' p' notes hphase hmoved h =>
    rw [attempt?_congr h i, attempt?, connections_applyNotes]
    exact attempt?_setPhase _ j _ i
  | offered k call item s holder outbox hcall hstage hphase hoffer h =>
    exact (attempt?_congr h i).trans (attempt?_setPhase _ _ _ i)
  | lined k call item s holder outbox hcall hstage hphase hoffer h =>
    exact (attempt?_congr h i).trans (attempt?_setPhase _ _ _ i)
  | settled k call stage hcall hstage h => exact attempt?_congr h i
  | expired k call s holder seq deadline hcall hstage hreceipt hdue hphase h =>
    exact (attempt?_congr h i).trans (attempt?_setPhase _ _ _ i)

end Name

/-! ## Attempts -/

/-- What a turn is to the introduction of a connection. -/
def greetingMove? (i : Nat) (t : Turn) : Option Greeting.Move :=
  match t.move with
  | .happen j e => if j = i then some (.happen e) else none
  | .pass n => some (.pass n)
  | .act (.connecting j) => if j = i then some .goOn else none
  | _ => none

def greetingMoves (i : Nat) (ts : List Turn) : List Greeting.Move :=
  ts.filterMap (greetingMove? i)

/-- How far an attempt has come when its introduction has come so far. -/
inductive Attempt (i : Nat) (wire : Bytes) (h : Greeting) (d : Client) : Prop
  | greeting (hphase : d.phase? i = some (.greeting h.stage h.link))
    (hwire : d.wireOf i = wire ++ h.link.written.flatten)
  | failed (e : Error) (hstage : h.stage = .done (.error e)) (hphase : d.phase? i = some .failed)
    (hwire : d.wireOf i = wire ++ h.link.written.flatten)
  | begun (hstage : h.stage = .done (.ok ())) (hphase : ∃ phase, d.phase? i = some phase ∧
      ∀ g link, phase ≠ .greeting g link)

section Attempts
variable {d : Client} {i : Nat} {id : String} {wire : Bytes} {g : Handshake} {link : Link}
  {h : Greeting} {t : Turn}

lemma greetingMove?_cases (i : Nat) (t : Turn) :
    (∃ e, t.move = .happen i e ∧ greetingMove? i t = some (.happen e)) ∨
      (∃ n, t.move = .pass n ∧ greetingMove? i t = some (.pass n)) ∨
      (t.move = .act (.connecting i) ∧ greetingMove? i t = some .goOn) ∨
      ((∀ e, t.move ≠ .happen i e) ∧ (∀ n, t.move ≠ .pass n) ∧ t.move ≠ .act (.connecting i) ∧
        greetingMove? i t = none) := by
  obtain ⟨m, n⟩ := t
  cases m with
  | happen j e =>
    by_cases hj : j = i
    · simp [greetingMove?, hj]
    · simp [greetingMove?, hj]
  | act a =>
    cases a with
    | connecting j =>
      by_cases hj : j = i
      · simp [greetingMove?, hj]
      · simp [greetingMove?, hj]
    | _ => simp [greetingMove?]
  | _ => simp [greetingMove?]

lemma connection_of_phase? (hid : d.attempt? i = some id)
    (hphase : d.phase? i = some (.greeting g link)) :
    d.connections[i]? = some ⟨id, .greeting g link⟩ := by
  obtain ⟨k, hk, rfl⟩ := Option.map_eq_some_iff.mp hid
  rw [phase?, hk, Option.map_some, Option.some.injEq] at hphase
  rw [hk, ← hphase]

lemma play_connecting (hid : d.attempt? i = some id)
    (hphase : d.phase? i = some (.greeting g link)) (ht : t.move = .act (.connecting i)) :
    d.play t = (d.greet? i id g link).getD d := by
  rw [play_of_ne (by simp [ht]), ht, move, act?, connection_of_phase? hid hphase]

lemma act?_of_failed (hphase : d.phase? i = some .failed) : d.act? (.connecting i) = none := by
  obtain ⟨⟨attempt, phase⟩, hk, hphase⟩ := Option.map_eq_some_iff.mp hphase
  simp only at hphase
  rw [act?, hk, hphase]

lemma greet?_of_ne_done (hg : ∀ result, g ≠ .done result) :
    d.greet? i id g link = (g.step? d.config.connection.authTimeout d.now link).map fun next =>
      (d.noteWrites i link next.2).setPhase i (.greeting next.1 next.2) := by
  cases g with
  | done result => exact absurd rfl (hg result)
  | writing octets => rfl
  | awaiting deadline => rfl

lemma left_play {phase : Phase} (hphase : d.phase? i = some phase)
    (hleft : ∀ g link, phase ≠ .greeting g link) (t : Turn) :
    ∃ phase', (d.play t).phase? i = some phase' ∧ ∀ g link, phase' ≠ .greeting g link := by
  have hmoved := d.phaseMoved_play t i
  rw [hphase] at hmoved
  generalize d.taken? i t.move = taken at hmoved
  generalize t.move = m at hmoved
  generalize (d.play t).phase? i = next at hmoved ⊢
  -- Only a greeting is followed by a greeting.
  cases hmoved with
  | same _ _ => exact ⟨phase, rfl, hleft⟩
  | befell e g link => exact absurd rfl (hleft g link)
  | greeted g g' link link' hstep => exact absurd rfl (hleft g link)
  | rejected e link => exact absurd rfl (hleft _ link)
  | began link => exact absurd rfl (hleft _ link)
  | _ => exact ⟨_, rfl, by rintro g link ⟨⟩⟩

lemma Attempt.happen (hattempt : Attempt i wire h d) {e : LinkEvent}
    (ht : t.move = .happen i e) :
    Attempt i wire { h with link := h.link.happen e } (d.play t) := by
  have hwritten := h.link.written_happen e
  have hplay : d.play t = d.happen i e := by rw [play_of_ne (by simp [ht]), ht, move]
  cases hattempt with
  | greeting hphase hwire =>
    rw [hplay, Client.happen, hphase]
    exact .greeting (phase?_setPhase_self d hphase _) (by rw [wireOf_setPhase, hwritten, hwire])
  | failed e' hstage hphase hwire =>
    rw [hplay, Client.happen, hphase]
    exact .failed e' hstage hphase (by rw [hwritten, hwire])
  | begun hstage hphase =>
    obtain ⟨phase, hphase, hleft⟩ := hphase
    exact .begun hstage (left_play hphase hleft t)

lemma Attempt.pass (hattempt : Attempt i wire h d) {n : Nat} (ht : t.move = .pass n) :
    Attempt i wire { h with now := h.now + n } (d.play t) := by
  have hplay : d.play t = { d with now := d.now + n } := by
    rw [play_of_ne (by simp [ht]), ht, move]
  rw [hplay]
  cases hattempt with
  | greeting hphase hwire => exact .greeting hphase hwire
  | failed e hstage hphase hwire => exact .failed e hstage hphase hwire
  | begun hstage hphase => exact .begun hstage hphase

lemma Attempt.goOn (hattempt : Attempt i wire h d) (hid : d.attempt? i = some id)
    (hnow : d.now = h.now) (ht : t.move = .act (.connecting i)) :
    Attempt i wire (h.move d.config.connection.authTimeout .goOn) (d.play t) := by
  have hstuck : h.stage.step? d.config.connection.authTimeout h.now h.link = none →
      h.move d.config.connection.authTimeout .goOn = h := by
    intro hnone
    rw [Greeting.move, hnone]
  cases hattempt with
  | greeting hphase hwire =>
    rw [play_connecting hid hphase ht]
    -- An introduction that is over makes no move; with this turn the client acts on its result.
    by_cases hdone : ∃ result, h.stage = .done result
    · obtain ⟨result, hdone⟩ := hdone
      rw [hstuck (by rw [hdone]; rfl), hdone, greet?, Option.getD_some]
      cases result with
      | error e => exact .failed e hdone (phase?_setPhase_self d hphase _) hwire
      | ok u =>
        refine .begun hdone ⟨_, phase?_setPhase_self d hphase _, ?_⟩
        rintro g link ⟨⟩
    · rw [greet?_of_ne_done (by simpa using hdone), hnow]
      cases hstep : h.stage.step? d.config.connection.authTimeout h.now h.link with
      | none =>
        rw [hstuck hstep]
        exact .greeting hphase hwire
      | some next =>
        obtain ⟨chunks, hwritten, -⟩ := Handshake.writes_of_step? hstep
        have hmove : h.move d.config.connection.authTimeout .goOn =
            { h with stage := next.1, link := next.2 } := by
          rw [Greeting.move, hstep]
        rw [hmove, Option.map_some, Option.getD_some]
        refine .greeting (phase?_setPhase_self (d.noteWrites i h.link next.2) hphase _) ?_
        rw [wireOf_setPhase, d.wireOf_noteWrites_self hwritten, hwire, hwritten,
          List.flatten_append, List.append_assoc]
  | failed e hstage hphase hwire =>
    rw [hstuck (by rw [hstage]; rfl), play_of_ne (by simp [ht]), ht, move,
      act?_of_failed hphase, Option.getD_none]
    exact .failed e hstage hphase hwire
  | begun hstage hphase =>
    obtain ⟨phase, hphase, hleft⟩ := hphase
    exact .begun ((Greeting.moved _ h .goOn).done hstage) (left_play hphase hleft t)

lemma eq_nil_of_writes {out : Bytes} {g' : Handshake} (hwrites : g.Writes out g') (hg : g' = g) :
    out = [] := by
  cases hwrites with
  | part front left => simpa using hg
  | all octets deadline => cases hg
  | broken front left e => cases hg
  | heard deadline result => rfl

lemma Attempt.other (hattempt : Attempt i wire h d) (hhappen : ∀ e, t.move ≠ .happen i e)
    (hconnecting : t.move ≠ .act (.connecting i)) : Attempt i wire h (d.play t) := by
  have hmoved := d.phaseMoved_play t i
  obtain ⟨out, hout, hpasses⟩ := (d.moved_play t).passes i
  generalize d.taken? i t.move = taken at hmoved
  generalize hm : t.move = m at hmoved
  cases hattempt with
  | greeting hphase hwire =>
    have hsame : (d.play t).phase? i = some (.greeting h.stage h.link) := by
      rw [hphase] at hmoved
      generalize (d.play t).phase? i = next, h.stage = stage at hmoved ⊢
      cases hmoved with
      | same _ _ => rfl
      | befell e _ _ => exact absurd hm (hhappen e)
      | greeted _ _ _ _ _ => exact absurd hm hconnecting
      | rejected _ _ => exact absurd hm hconnecting
      | began _ => exact absurd hm hconnecting
    have hnothing : out = [] := by
      rw [hphase, hsame] at hpasses
      generalize h.stage = stage at hpasses
      cases hpasses with
      | same _ => rfl
      | greeted _ _ _ _ _ hwrites => exact eq_nil_of_writes hwrites rfl
      | befell _ _ _ => rfl
    exact .greeting hsame (by rw [hout, hnothing, List.append_nil, hwire])
  | failed e hstage hphase hwire =>
    have hsame : (d.play t).phase? i = some .failed := by
      rw [hphase] at hmoved
      generalize (d.play t).phase? i = next at hmoved ⊢
      cases hmoved with
      | same _ _ => rfl
    have hnothing : out = [] := by
      rw [hphase, hsame] at hpasses
      cases hpasses with
      | same _ => rfl
    exact .failed e hstage hsame (by rw [hout, hnothing, List.append_nil, hwire])
  | begun hstage hphase =>
    obtain ⟨phase, hphase, hleft⟩ := hphase
    exact .begun hstage (left_play hphase hleft t)

/-- An attempt that has not succeeded leaves alone what connections share. -/
lemma Attempt.progress (hattempt : Attempt i wire h d) (hid : d.attempt? i = some id)
    (hstage : h.stage ≠ .done (.ok ())) (ht : greetingMove? i t ≠ none) :
    (d.play t).progress = d.progress := by
  rcases greetingMove?_cases i t with ⟨e, hmove, -⟩ | ⟨n, hmove, -⟩ | ⟨hmove, -⟩ | ⟨-, -, -, hnone⟩
  · rw [play_of_ne (by simp [hmove]), hmove, move, Client.happen]
    split <;> rfl
  · rw [play_of_ne (by simp [hmove]), hmove, move]
  · cases hattempt with
    | greeting hphase hwire =>
      rw [play_connecting hid hphase hmove]
      by_cases hdone : ∃ result, h.stage = .done result
      · obtain ⟨result, hdone⟩ := hdone
        rw [hdone, greet?, Option.getD_some]
        cases result with
        | error e => rfl
        | ok u => exact absurd hdone hstage
      · rw [greet?_of_ne_done (by simpa using hdone)]
        cases h.stage.step? d.config.connection.authTimeout d.now h.link with
        | none => rfl
        | some next => rfl
    | failed e _ hphase hwire =>
      rw [play_of_ne (by simp [hmove]), hmove, move, act?_of_failed hphase, Option.getD_none]
    | begun hok _ => exact absurd hok hstage
  · exact absurd hnone ht

end Attempts

/-! ## Runs of an attempt -/

def auth (c : Client) (token : String) : AuthToken :=
  { platformId := c.config.device.platformId, token, deviceId := c.config.device.deviceId }

def greeting (c : Client) (token : String) : Greeting :=
  .fresh c.config.connection.maxBody c.now
    (.start c.config.connection.protocolVersion (c.auth token))

/-- A client behind some turns of an attempt to connect and of its other parts. -/
def trying (c : Client) (id : String) (ts : List Turn) : Client := (c.connect id).playAll ts

/-- How far the introduction of the attempt has come then. -/
def introduction (c : Client) (token : String) (ts : List Turn) : Greeting :=
  (c.greeting token).run c.config.connection.authTimeout (greetingMoves c.connections.length ts)

section Runs
variable {c : Client} {id token : String} {ts : List Turn}

lemma trying_concat (c : Client) (id : String) (ts : List Turn) (t : Turn) :
    c.trying id (ts ++ [t]) = (c.trying id ts).play t := by
  rw [trying, playAll_append]
  rfl

lemma introduction_concat (c : Client) (token : String) (ts : List Turn) (t : Turn) :
    c.introduction token (ts ++ [t]) =
      (c.introduction token ts).run c.config.connection.authTimeout
        (greetingMove? c.connections.length t).toList := by
  rw [introduction, greetingMoves, List.filterMap_append, Greeting.run_append,
    List.filterMap_cons]
  cases greetingMove? c.connections.length t <;> rfl

lemma connect_eq (htoken : c.nextToken.1 = .ok token) (id : String) :
    ∃ tokens, c.connect id = { c with
      state := .authenticating, tokens
      connections := c.connections ++ [(⟨id, .greeting (c.greeting token).stage
        (c.greeting token).link⟩ : Connection)] } := by
  obtain ⟨token', tokens, hnext⟩ := nextToken_eq { c with state := .authenticating }
  have hsame : ({ c with state := .authenticating } : Client).nextToken.1 = c.nextToken.1 := by
    unfold nextToken
    simp only
    cases c.tokens with
    | nil => rfl
    | cons token tokens => cases tokens <;> rfl
  rw [hnext, htoken] at hsame
  obtain rfl : token' = .ok token := hsame
  refine ⟨tokens, ?_⟩
  simp only [connect, hnext]
  rfl

/-- How an attempt and its introduction go along with each other. -/
structure Along (c : Client) (id token : String) (ts : List Turn) : Prop where
  config : (c.trying id ts).config = c.config
  clock : (c.trying id ts).now = (c.introduction token ts).now
  name : (c.trying id ts).attempt? c.connections.length = some id
  attempt : Attempt c.connections.length (c.wireOf c.connections.length) (c.introduction token ts)
    (c.trying id ts)

lemma along_connect (htoken : c.nextToken.1 = .ok token) (id : String) : Along c id token [] := by
  obtain ⟨tokens, hconnect⟩ := connect_eq htoken id
  have htrying : c.trying id [] = _ := hconnect
  have hintroduction : c.introduction token [] = c.greeting token := rfl
  refine ⟨by rw [htrying], by rw [htrying]; rfl, ?_, .greeting ?_ ?_⟩
  · rw [htrying, attempt?]
    simp
  · rw [htrying, phase?, hintroduction]
    simp
  · rw [htrying, hintroduction]
    exact (List.append_nil _).symm

lemma Along.play (h : Along c id token ts) (t : Turn) : Along c id token (ts ++ [t]) := by
  obtain ⟨hconfig, hclock, hname, hattempt⟩ := h
  have hconfig' : (c.trying id (ts ++ [t])).config = c.config := by
    rw [trying_concat, config_play, hconfig]
  have hname' : (c.trying id (ts ++ [t])).attempt? c.connections.length = some id := by
    rw [trying_concat]
    exact (moved_play _ t).attempt?_eq hname
  -- A turn is a move of the introduction, or it leaves the attempt and the introduction alone.
  rcases greetingMove?_cases c.connections.length t with
    ⟨e, hmove, hsome⟩ | ⟨n, hmove, hsome⟩ | ⟨hmove, hsome⟩ | ⟨hhappen, hpass, hconnecting, hnone⟩
  · have hnext : c.introduction token (ts ++ [t]) =
        { c.introduction token ts with link := (c.introduction token ts).link.happen e } := by
      rw [introduction_concat, hsome]
      rfl
    refine ⟨hconfig', ?_, hname', ?_⟩
    · rw [trying_concat, now_play (by simp [hmove]), hclock, hnext]
    · rw [trying_concat, hnext]
      exact hattempt.happen hmove
  · have hnext : c.introduction token (ts ++ [t]) =
        { c.introduction token ts with now := (c.introduction token ts).now + n } := by
      rw [introduction_concat, hsome]
      rfl
    refine ⟨hconfig', ?_, hname', ?_⟩
    · rw [trying_concat, hnext, play_of_ne (by simp [hmove]), hmove, move, hclock]
    · rw [trying_concat, hnext]
      exact hattempt.pass hmove
  · have hnext : c.introduction token (ts ++ [t]) =
        (c.introduction token ts).move c.config.connection.authTimeout .goOn := by
      rw [introduction_concat, hsome]
      rfl
    refine ⟨hconfig', ?_, hname', ?_⟩
    · rw [trying_concat, now_play (by simp [hmove]), hclock, hnext, Greeting.move]
      split <;> rfl
    · rw [trying_concat, hnext, ← hconfig]
      exact hattempt.goOn hname hclock hmove
  · have hnext : c.introduction token (ts ++ [t]) = c.introduction token ts := by
      rw [introduction_concat, hnone]
      rfl
    refine ⟨hconfig', ?_, hname', ?_⟩
    · rw [trying_concat, now_play hpass, hclock, hnext]
    · rw [trying_concat, hnext]
      exact hattempt.other hhappen hconnecting

theorem along (htoken : c.nextToken.1 = .ok token) (id : String) (ts : List Turn) :
    Along c id token ts := by
  induction ts using List.reverseRecOn with
  | nil => exact along_connect htoken id
  | append_singleton ts t ih => exact ih.play t

end Runs

/-- The turn in which an attempt fails. -/
structure Fails (d d' : Client) (i : Nat) (id : String) (e : Error) : Prop where
  phase : d'.phase? i = some .failed
  state : d'.state = .disconnected
  results : d'.results = d.results ++ [⟨id, .failed e, d.now⟩]
  progress : d'.progress = d.progress
  wire : d'.wire = d.wire

/-- What an attempt to connect does in a run of the client. -/
structure Attempted (c : Client) (id token : String) (ts : List Turn) : Prop where
  introduces : (c.greeting token).Introduces c.config.connection.authTimeout
    c.config.connection.maxBody c.config.connection.protocolVersion (c.auth token)
    (greetingMoves c.connections.length ts)
  clock : (c.trying id ts).now = (c.introduction token ts).now
  stands : Attempt c.connections.length (c.wireOf c.connections.length) (c.introduction token ts)
    (c.trying id ts)
  fails : ∀ (e : Error) (link : Link) (t : Turn),
    t.move = .act (.connecting c.connections.length) →
    (c.trying id ts).phase? c.connections.length = some (.greeting (.done (.error e)) link) →
      Fails (c.trying id ts) ((c.trying id ts).play t) c.connections.length id e
  begins : ∀ (link : Link) (t : Turn), t.move = .act (.connecting c.connections.length) →
    (c.trying id ts).phase? c.connections.length = some (.greeting (.done (.ok ())) link) →
      link = (c.introduction token ts).link ∧ ∃ s holder, s.link = link ∧
        ((c.trying id ts).play t).phase? c.connections.length = some (.established s holder)
  untouched : (c.introduction token ts).stage ≠ .done (.ok ()) →
    (c.connect id).progress = c.progress ∧ ∀ front t back, ts = front ++ t :: back →
      greetingMove? c.connections.length t ≠ none →
        (c.trying id (front ++ [t])).progress = (c.trying id front).progress

/-- An attempt to connect for which there is a token goes as its introduction goes, whatever else is
done with the client meanwhile. The introduction writes the token frame and nothing else, succeeds
when the first frame that the stream brings is a welcome and is there in time, and leaves what
stands behind it; otherwise it fails as its verdict says, and the attempt with it. -/
theorem attempted (c : Client) (id token : String) (ts : List Turn)
    (htoken : c.nextToken.1 = .ok token) : c.Attempted id token ts where
  introduces := Greeting.introduces _ _ _ _ _ _
  clock := (along htoken id ts).clock
  stands := (along htoken id ts).attempt
  fails := by
    intro e link t hmove hphase
    have hplay := play_connecting (along htoken id ts).name hphase hmove
    rw [greet?, Option.getD_some] at hplay
    rw [hplay]
    exact ⟨phase?_setPhase_self _ hphase _, rfl, rfl, rfl, rfl⟩
  begins := by
    intro link t hmove hphase
    have hplay := play_connecting (along htoken id ts).name hphase hmove
    rw [greet?, Option.getD_some] at hplay
    rw [hplay]
    refine ⟨?_, _, _, rfl, phase?_setPhase_self _ hphase _⟩
    cases (along htoken id ts).attempt with
    | greeting hphase' hwire =>
      rw [hphase, Option.some.injEq, Phase.greeting.injEq] at hphase'
      exact hphase'.2
    | failed e hstage hphase' hwire => cases hphase.symm.trans hphase'
    | begun hstage hphase' =>
      obtain ⟨phase, hphase', hleft⟩ := hphase'
      obtain rfl := Option.some.inj (hphase.symm.trans hphase')
      exact absurd rfl (hleft _ link)
  untouched := by
    intro hstage
    obtain ⟨tokens, hconnect⟩ := connect_eq htoken id
    refine ⟨by rw [hconnect], ?_⟩
    rintro front t back rfl hmove
    have halong := along htoken id front
    rw [trying_concat]
    apply halong.attempt.progress halong.name
    · intro hok
      rw [introduction, greetingMoves, List.filterMap_append, Greeting.run_append] at hstage
      exact hstage (Greeting.run_of_done hok _)
    · exact hmove

/-- The server welcomes a client, and sends a pong in the same breath. -/
def welcoming : List Turn :=
  firsts [.act (.connecting 0),
    .happen 0 (.arrive ([0, 0, 0, 4, 0, 0, 0, 1, 3, 2, 0, 0, 0, 0, 0, 0] ++
      [0, 0, 0, 0, 0, 0, 0, 7, 14, 2, 0, 0])), .act (.connecting 0)]

theorem attempted_of_welcoming :
    least.nextToken.1 = .ok "" ∧ (least.introduction "" welcoming).stage = .done (.ok ()) ∧
      (least.introduction "" welcoming).link.reader.pending =
        [0, 0, 0, 0, 0, 0, 0, 7, 14, 2, 0, 0] ∧
      least.Attempted "a" "" welcoming :=
  ⟨rfl, by rfl, by decide +kernel, attempted least "a" "" welcoming rfl⟩

end Client

end Parley
