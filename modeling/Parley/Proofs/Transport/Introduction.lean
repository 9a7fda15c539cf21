import Mathlib.Tactic
import Parley.Proofs.Transport.Verdict
import Parley.Proofs.Transport.Writing
import Parley.Proofs.Wire.RoundTrip

/-!
# Introductions

A `Greeting` is an introduction on its link, while things happen to the link and time passes in any
order. `Greeting.Course` says how far one has come in a run, and what the stream has brought of
which it has taken the reply. Main statement: `Greeting.introduces`.
-/

namespace Parley

/-! ## The token frame -/

/-- A token frame whose fields are short enough to be sent. -/
def AuthToken.Encodable (auth : AuthToken) : Prop :=
  (Bytes.ofString auth.token).length ≤ 255 ∧ (Bytes.ofString auth.deviceId).length ≤ 255

lemma Handshake.start_cases (version : UInt8) (auth : AuthToken) :
    (auth.Encodable ∧ ∃ octets, (frame version auth).encode = .ok octets ∧
        start version auth = .writing octets) ∨
      (¬ auth.Encodable ∧ ∃ field s,
        (field = "token" ∧ s = auth.token ∨ field = "device_id" ∧ s = auth.deviceId) ∧
        255 < (Bytes.ofString s).length ∧
        start version auth =
          .done (.error (.authFieldTooLong field (Bytes.ofString s).length))) := by
  rcases auth.write_cases with ⟨htoken, hdevice, hwrites⟩ | ⟨field, s, hfield, hlong, hrefuses⟩
  · left
    have hlen : (auth.platformId :: (AuthToken.field auth.token ++
        AuthToken.field auth.deviceId)).length ≤ Frame.maxBodyLen := by
      simp only [AuthToken.maxField] at htoken hdevice
      simp only [List.length_cons, List.length_append, AuthToken.field, Frame.maxBodyLen]
      omega
    have hencode : (frame version auth).encode = .ok _ :=
      Frame.encode_eq_ok_iff.mpr ⟨_, hwrites, hlen, rfl⟩
    exact ⟨⟨htoken, hdevice⟩, _, hencode, by rw [start, hencode]⟩
  · right
    have hencode : (frame version auth).encode = _ := Frame.encode_of_refuses hrefuses
    refine ⟨?_, field, s, hfield, hlong, by rw [start, hencode]⟩
    rintro ⟨htoken, hdevice⟩
    rcases hfield with ⟨-, rfl⟩ | ⟨-, rfl⟩
    · exact Nat.not_lt.mpr htoken hlong
    · exact Nat.not_lt.mpr hdevice hlong

lemma Handshake.step?_of_writing {timeout now : Nat} {octets : Bytes} {g' : Handshake}
    {link link' : Link}
    (h : (writing octets).step? timeout now link = some (g', link')) :
    ∃ (chunks : List Bytes) (left : Bytes), octets = chunks.flatten ++ left ∧
      link'.written = link.written ++ chunks ∧ link'.reader = link.reader ∧
      (g' = .writing left ∨ (g' = .awaiting (now + timeout) ∧ left = []) ∨
        ∃ fault, g' = .done (.error (.io fault)) ∧
          (link.write octets).1 = some (.error (.io fault))) := by
  rw [step?, write] at h
  split at h
  · rename_i left after hwrite
    obtain ⟨chunks, hoctets, hwritten, hreader, -⟩ := Link.write_spec hwrite
    split at h
    · cases h
      exact ⟨chunks, left, hoctets, hwritten, hreader, .inl rfl⟩
    · cases h
  · rename_i e left after hwrite
    obtain ⟨chunks, hoctets, hwritten, hreader, -, hfault⟩ := Link.write_spec hwrite
    obtain ⟨fault, rfl⟩ := hfault e rfl
    cases h
    exact ⟨chunks, left, hoctets, hwritten, hreader, .inr (.inr ⟨fault, rfl, by rw [hwrite]⟩)⟩
  · rename_i left after hwrite
    obtain ⟨chunks, hoctets, hwritten, hreader, hleft, -⟩ := Link.write_spec hwrite
    cases h
    exact ⟨chunks, left, hoctets, hwritten, hreader, .inr (.inl ⟨rfl, hleft rfl⟩)⟩

/-! ## Introductions in time -/

def Inbound.happen (i : Inbound) : LinkEvent → Inbound
  | .arrive bs => i.arrive bs
  | .ended => { i with ended := true }
  | .readFails fault => { i with failure := some fault }
  | _ => i

def Inbound.behind (i : Inbound) (bs : Bytes) : Inbound := { i with waiting := bs ++ i.waiting }

lemma Inbound.happen_behind (i : Inbound) (bs : Bytes) (e : LinkEvent) :
    (i.behind bs).happen e = (i.happen e).behind bs := by
  cases e <;> simp [Inbound.happen, Inbound.behind, Inbound.arrive]

lemma Link.whole_happen (l : Link) (e : LinkEvent) :
    (l.happen e).reader.whole = l.reader.whole.happen e := by
  cases e <;>
    simp [Link.happen, Link.mapInbound, Inbound.happen, FrameReader.whole, FrameReader.pending,
      Inbound.arrive]

lemma Link.maxBody_happen (l : Link) (e : LinkEvent) :
    (l.happen e).reader.maxBody = l.reader.maxBody := by
  cases e <;> rfl

/-- An introduction on its link, and the time. -/
structure Greeting where
  stage : Handshake
  link : Link
  now : Nat

namespace Greeting

/-- What can happen to an introduction. -/
inductive Move
  | happen (e : LinkEvent)
  | pass (ms : Nat)
  | goOn

def move (timeout : Nat) (g : Greeting) : Move → Greeting
  | .happen e => { g with link := g.link.happen e }
  | .pass ms => { g with now := g.now + ms }
  | .goOn =>
    match g.stage.step? timeout g.now g.link with
    | some (stage, link) => { g with stage, link }
    | none => g

def run (timeout : Nat) (g : Greeting) (ms : List Move) : Greeting := ms.foldl (move timeout) g

/-- What a stream has brought in a run, whatever the introduction has taken of it. -/
def brought (ms : List Move) : Inbound :=
  ms.foldl (fun i m => match m with
    | .happen e => i.happen e
    | _ => i) {}

section Moving
variable {timeout : Nat} {g : Greeting} {ms : List Move}

lemma run_concat (timeout : Nat) (g : Greeting) (ms : List Move) (m : Move) :
    g.run timeout (ms ++ [m]) = (g.run timeout ms).move timeout m := by
  simp [run]

lemma run_append (timeout : Nat) (g : Greeting) (ms ms' : List Move) :
    g.run timeout (ms ++ ms') = (g.run timeout ms).run timeout ms' :=
  List.foldl_append

lemma brought_happen (ms : List Move) (e : LinkEvent) :
    brought (ms ++ [.happen e]) = (brought ms).happen e := by
  simp [brought]

lemma brought_pass (ms : List Move) (n : Nat) : brought (ms ++ [.pass n]) = brought ms := by
  simp [brought]

lemma brought_goOn (ms : List Move) : brought (ms ++ [.goOn]) = brought ms := by
  simp [brought]

/-- What a move makes of an introduction. -/
inductive Moved (timeout : Nat) (g : Greeting) : Move → Greeting → Prop
  | happened (e : LinkEvent) : Moved timeout g (.happen e) { g with link := g.link.happen e }
  | passed (ms : Nat) : Moved timeout g (.pass ms) { g with now := g.now + ms }
  | stuck (h : g.stage.step? timeout g.now g.link = none) : Moved timeout g .goOn g
  | wrote (chunks : List Bytes) (octets left : Bytes) (stage : Handshake) (link : Link)
    (hstage : g.stage = .writing octets) (hoctets : octets = chunks.flatten ++ left)
    (hwritten : link.written = g.link.written ++ chunks) (hreader : link.reader = g.link.reader)
    (hnext : stage = .writing left ∨ (stage = .awaiting (g.now + timeout) ∧ left = []) ∨
      ∃ fault, stage = .done (.error (.io fault)) ∧
        (g.link.write octets).1 = some (.error (.io fault))) :
    Moved timeout g .goOn { g with stage, link }
  | heard (deadline : Nat) (result : Except Error Unit) (rest : Bytes) (reader : FrameReader)
    (hstage : g.stage = .awaiting deadline)
    (hverdict : Verdict g.link.reader.maxBody g.link.reader.whole (deadline ≤ g.now) result rest)
    (hwhole : reader.whole = { g.link.reader.whole with waiting := rest })
    (hbound : reader.maxBody = g.link.reader.maxBody) :
    Moved timeout g .goOn { g with stage := .done result, link := { g.link with reader } }

theorem moved (timeout : Nat) (g : Greeting) (m : Move) : Moved timeout g m (g.move timeout m) := by
  cases m with
  | happen e => exact .happened e
  | pass ms => exact .passed ms
  | goOn =>
    cases hstep : g.stage.step? timeout g.now g.link with
    | none =>
      rw [move, hstep]
      exact .stuck hstep
    | some next =>
      obtain ⟨stage, link⟩ := next
      have hmove : g.move timeout .goOn = { g with stage, link } := by rw [move, hstep]
      cases hstage : g.stage with
      | writing octets =>
        rw [hstage] at hstep
        obtain ⟨chunks, left, hoctets, hwritten, hreader, hnext⟩ :=
          Handshake.step?_of_writing hstep
        rw [hmove]
        exact .wrote chunks octets left stage link hstage hoctets hwritten hreader hnext
      | awaiting deadline =>
        rw [hstage, Handshake.step?] at hstep
        rcases Handshake.verdict_or_silent g.now deadline g.link with
          ⟨result, rest, hverdict⟩ | ⟨hnone, -⟩
        · obtain ⟨reader, hhear, hwhole, hbound⟩ := Handshake.hear_of_verdict rfl rfl hverdict
          rw [hstep, Option.some.injEq, Prod.mk.injEq] at hhear
          obtain ⟨rfl, rfl⟩ := hhear
          rw [hmove]
          exact .heard deadline result rest reader hstage hverdict hwhole hbound
        · rw [hstep] at hnone
          cases hnone
      | done result =>
        rw [hstage] at hstep
        cases hstep

lemma Moved.maxBody {g' : Greeting} {m : Move} (h : Moved timeout g m g') :
    g'.link.reader.maxBody = g.link.reader.maxBody := by
  cases h with
  | happened e => exact g.link.maxBody_happen e
  | passed ms => rfl
  | stuck h => rfl
  | wrote chunks octets left stage link hstage hoctets hwritten hreader hnext => rw [hreader]
  | heard deadline result rest reader hstage hverdict hwhole hbound => exact hbound

end Moving

section Course
variable (timeout maxBody : Nat) (octets : Bytes) (g : Greeting) (ms : List Move)

/-- All of the token frame has been written, and the time for the reply runs from then. -/
def Sends (deadline : Nat) : Prop :=
  ∃ front back left, ms = front ++ .goOn :: back ∧ (g.run timeout front).stage = .writing left ∧
    (g.run timeout (front ++ [.goOn])).stage = .awaiting deadline ∧
    deadline = (g.run timeout front).now + timeout

/-- The token frame could not be written. -/
def Breaks (fault : IoFault) : Prop :=
  ∃ front back left, ms = front ++ .goOn :: back ∧ (g.run timeout front).stage = .writing left ∧
    ((g.run timeout front).link.write left).1 = some (.error (.io fault))

/-- The introduction goes on at a moment at which what the stream has brought gives a verdict. -/
def Hears (result : Except Error Unit) : Prop :=
  ∃ front back deadline rest, ms = front ++ .goOn :: back ∧
    (g.run timeout front).stage = .awaiting deadline ∧
    Verdict maxBody (brought front) (deadline ≤ (g.run timeout front).now) result rest

def Settled : Prop := g.stage.step? timeout g.now g.link = none

/-- Time passes only where nothing can be done, and not beyond a deadline. -/
def Prompt : Prop :=
  ∀ front n back, ms = front ++ .pass n :: back → (g.run timeout front).Settled timeout ∧
    ∀ deadline, (g.run timeout front).stage = .awaiting deadline →
      (g.run timeout front).now + n ≤ deadline

/-- Nothing arrives on a stream that is over. -/
def Orderly : Prop :=
  ∀ front bs back, ms = front ++ .happen (.arrive bs) :: back → ¬ (brought front).IsOver

/-- How far an introduction has come in a run. -/
inductive Course (h : Greeting) : Prop
  | writing (left : Bytes) (hstage : h.stage = .writing left)
    (hwritten : octets = h.link.written.flatten ++ left) (hwhole : h.link.reader.whole = brought ms)
  | broken (fault : IoFault) (hstage : h.stage = .done (.error (.io fault)))
    (hwritten : h.link.written.flatten <+: octets) (hbreaks : g.Breaks timeout ms fault)
  | awaiting (deadline : Nat) (hstage : h.stage = .awaiting deadline)
    (hwritten : h.link.written.flatten = octets) (hwhole : h.link.reader.whole = brought ms)
    (hsends : g.Sends timeout ms deadline)
  | decided (front back : List Move) (deadline : Nat) (result : Except Error Unit)
    (rest taken : Bytes) (hms : ms = front ++ .goOn :: back)
    (hawaiting : (g.run timeout front).stage = .awaiting deadline)
    (hverdict : Verdict maxBody (brought front) (deadline ≤ (g.run timeout front).now) result rest)
    (hstage : h.stage = .done result) (hwritten : h.link.written.flatten = octets)
    (htaken : (brought front).waiting = taken ++ rest)
    (hwhole : brought ms = h.link.reader.whole.behind taken)

end Course

section Run
variable {timeout maxBody : Nat} {octets : Bytes} {g : Greeting} {ms : List Move}

lemma Sends.concat {deadline : Nat} (h : g.Sends timeout ms deadline) (m : Move) :
    g.Sends timeout (ms ++ [m]) deadline := by
  obtain ⟨front, back, left, rfl, h⟩ := h
  exact ⟨front, back ++ [m], left, by simp, h⟩

lemma Breaks.concat {fault : IoFault} (h : g.Breaks timeout ms fault) (m : Move) :
    g.Breaks timeout (ms ++ [m]) fault := by
  obtain ⟨front, back, left, rfl, h⟩ := h
  exact ⟨front, back ++ [m], left, by simp, h⟩

lemma Course.carried {h h' : Greeting} {m : Move} (hcourse : Course timeout maxBody octets g ms h)
    (f : Inbound → Inbound) (hf : ∀ i bs, f (i.behind bs) = (f i).behind bs)
    (hbrought : brought (ms ++ [m]) = f (brought ms)) (hstage : h'.stage = h.stage)
    (hwritten : h'.link.written = h.link.written)
    (hwhole : h'.link.reader.whole = f h.link.reader.whole) :
    Course timeout maxBody octets g (ms ++ [m]) h' := by
  cases hcourse with
  | writing left hwriting hoctets hkept =>
    refine .writing left (hstage.trans hwriting) (by rw [hwritten, hoctets]) ?_
    rw [hwhole, hkept, hbrought]
  | broken fault hbroken hoctets hbreaks =>
    exact .broken fault (hstage.trans hbroken) (by rwa [hwritten]) (hbreaks.concat m)
  | awaiting deadline hawaiting hoctets hkept hsends =>
    refine .awaiting deadline (hstage.trans hawaiting) (by rw [hwritten, hoctets]) ?_
      (hsends.concat m)
    rw [hwhole, hkept, hbrought]
  | decided front back deadline result rest taken hms hawaiting hverdict hdone hoctets htaken
      hkept =>
    refine .decided front (back ++ [m]) deadline result rest taken (by simp [hms]) hawaiting
      hverdict (hstage.trans hdone) (by rw [hwritten, hoctets]) htaken ?_
    rw [hbrought, hkept, hf, hwhole]

lemma Course.step {m : Move} (h : Course timeout maxBody octets g ms (g.run timeout ms))
    (hbound : (g.run timeout ms).link.reader.maxBody = maxBody) :
    Course timeout maxBody octets g (ms ++ [m]) (g.run timeout (ms ++ [m])) := by
  have hmoved := moved timeout (g.run timeout ms) m
  rw [← run_concat] at hmoved
  generalize hnow : g.run timeout (ms ++ [m]) = next at hmoved ⊢
  cases hmoved with
  | happened e =>
    exact h.carried (·.happen e) (fun i bs => i.happen_behind bs e) (brought_happen ms e) rfl
      (Link.written_happen _ e) (Link.whole_happen _ e)
  | passed n => exact h.carried id (fun _ _ => rfl) (brought_pass ms n) rfl rfl rfl
  | stuck _ => exact h.carried id (fun _ _ => rfl) (brought_goOn ms) rfl rfl rfl
  | wrote chunks all left stage link hstage hoctets hwritten hreader hnext =>
    cases h with
    | writing left' hwriting hleft hkept =>
      obtain rfl : left' = all := by
        rw [hwriting] at hstage
        exact Handshake.writing.inj hstage
      -- However the write ends, what is written and what is left make up the token frame.
      have hfront : octets = link.written.flatten ++ left := by
        rw [hleft, hoctets, hwritten, List.flatten_append, List.append_assoc]
      have hwhole : link.reader.whole = brought (ms ++ [.goOn]) := by
        rw [hreader, hkept, brought_goOn]
      rcases hnext with rfl | ⟨rfl, rfl⟩ | ⟨fault, rfl, hfault⟩
      · exact .writing left rfl hfront hwhole
      · rw [List.append_nil] at hfront
        refine .awaiting _ rfl hfront.symm hwhole ⟨ms, [], _, rfl, hwriting, ?_, rfl⟩
        rw [hnow]
      · refine .broken fault rfl ?_ ⟨ms, [], _, rfl, hwriting, hfault⟩
        rw [hfront]
        exact List.prefix_append _ _
    | _ => simp_all
  | heard deadline result rest reader hstage hverdict hwhole hbound' =>
    cases h with
    | awaiting deadline' hawaiting hoctets hkept hsends =>
      obtain rfl : deadline' = deadline := by
        rw [hawaiting] at hstage
        exact Handshake.awaiting.inj hstage
      -- Nothing has been taken before, so that the verdict is about all that was brought.
      rw [hbound, hkept] at hverdict
      obtain ⟨taken, htaken⟩ := hverdict.exists_taken
      refine .decided ms [] _ result rest taken rfl hawaiting hverdict rfl hoctets htaken ?_
      rw [brought_goOn, hwhole, hkept]
      simp only [Inbound.behind, ← htaken]
    | _ => simp_all

lemma Moved.done {g' : Greeting} {m : Move} {result : Except Error Unit}
    (h : Moved timeout g m g') (hdone : g.stage = .done result) : g'.stage = .done result := by
  cases h with
  | happened e => exact hdone
  | passed n => exact hdone
  | stuck _ => exact hdone
  | wrote chunks all left stage link hstage hoctets hwritten hreader hnext =>
    cases hstage.symm.trans hdone
  | heard deadline result rest reader hstage hverdict hwhole hbound =>
    cases hstage.symm.trans hdone

theorem run_of_done {result : Except Error Unit} (h : g.stage = .done result) (ms : List Move) :
    (g.run timeout ms).stage = .done result := by
  induction ms using List.reverseRecOn with
  | nil => exact h
  | append_singleton ms m ih =>
    rw [run_concat]
    exact (moved timeout (g.run timeout ms) m).done ih

lemma Moved.written {g' : Greeting} {m : Move} (h : Moved timeout g m g')
    (hpast : ∀ left, g.stage ≠ .writing left) :
    (∀ left, g'.stage ≠ .writing left) ∧ g'.link.written = g.link.written := by
  cases h with
  | happened e => exact ⟨hpast, g.link.written_happen e⟩
  | passed n => exact ⟨hpast, rfl⟩
  | stuck _ => exact ⟨hpast, rfl⟩
  | wrote chunks all left stage link hstage hoctets hwritten hreader hnext =>
    exact absurd hstage (hpast all)
  | heard deadline result rest reader hstage hverdict hwhole hbound =>
    refine ⟨?_, rfl⟩
    rintro left ⟨⟩

/-- Nothing goes out any more when the write of the token frame is over. -/
theorem written_run (hpast : ∀ left, g.stage ≠ .writing left) (ms : List Move) :
    (∀ left, (g.run timeout ms).stage ≠ .writing left) ∧
      (g.run timeout ms).link.written = g.link.written := by
  induction ms using List.reverseRecOn with
  | nil => exact ⟨hpast, rfl⟩
  | append_singleton ms m ih =>
    obtain ⟨hpast', hwritten⟩ := (moved timeout (g.run timeout ms) m).written ih.1
    rw [run_concat]
    exact ⟨hpast', hwritten.trans ih.2⟩

lemma stage_of_breaks {fault : IoFault} (h : g.Breaks timeout ms fault) :
    (g.run timeout ms).stage = .done (.error (.io fault)) := by
  obtain ⟨front, back, left, rfl, hwriting, hfault⟩ := h
  have hstep : ((g.run timeout front).move timeout .goOn).stage = .done (.error (.io fault)) := by
    have hwrite : (g.run timeout front).stage.step? timeout (g.run timeout front).now
        (g.run timeout front).link = some (.done (.error (.io fault)),
          ((g.run timeout front).link.write left).2.2) := by
      rw [hwriting, Handshake.step?, Handshake.write]
      generalize (g.run timeout front).link.write left = written at hfault ⊢
      obtain ⟨answer, left', link⟩ := written
      simp only at hfault
      rw [hfault]
    rw [move, hwrite]
  rw [← run_concat] at hstep
  rw [List.append_cons, run_append]
  exact run_of_done hstep back

end Run

section Results
variable {timeout maxBody : Nat} {octets : Bytes} {g : Greeting} {ms : List Move}

lemma now_le_of_moved {g g' : Greeting} {m : Move} (h : Moved timeout g m g') : g.now ≤ g'.now := by
  cases h with
  | passed n => exact Nat.le_add_right _ _
  | _ => exact Nat.le_refl _

lemma now_le_run (timeout : Nat) (g : Greeting) (ms : List Move) :
    g.now ≤ (g.run timeout ms).now := by
  induction ms using List.reverseRecOn with
  | nil => exact Nat.le_refl _
  | append_singleton ms m ih =>
    rw [run_concat]
    exact ih.trans (now_le_of_moved (moved timeout _ m))

lemma waiting_grows (ms ms' : List Move) :
    (brought ms).waiting <+: (brought (ms ++ ms')).waiting := by
  induction ms' using List.reverseRecOn with
  | nil => rw [List.append_nil]
  | append_singleton ms' m ih =>
    rw [← List.append_assoc]
    cases m with
    | happen e =>
      rw [brought_happen]
      cases e with
      | arrive bs => exact ih.trans (List.prefix_append _ _)
      | _ => exact ih
    | pass n => rwa [brought_pass]
    | goOn => rwa [brought_goOn]

lemma now_le_of_prompt {g : Greeting} (hstart : ∀ deadline, g.stage ≠ .awaiting deadline)
    (hprompt : g.Prompt timeout ms) {deadline : Nat}
    (h : (g.run timeout ms).stage = .awaiting deadline) : (g.run timeout ms).now ≤ deadline := by
  induction ms using List.reverseRecOn with
  | nil => exact absurd h (hstart deadline)
  | append_singleton ms m ih =>
    have hfront : g.Prompt timeout ms := by
      rintro front n back rfl
      exact hprompt front n (back ++ [m]) (by simp)
    have hmoved := moved timeout (g.run timeout ms) m
    rw [← run_concat] at hmoved
    generalize g.run timeout (ms ++ [m]) = next at h hmoved ⊢
    cases hmoved with
    | happened e => exact ih hfront h
    | passed n => exact (hprompt ms n [] rfl).2 deadline h
    | stuck _ => exact ih hfront h
    | wrote chunks all left stage link hstage hoctets hwritten hreader hnext =>
      rcases hnext with rfl | ⟨rfl, -⟩ | ⟨fault, rfl, -⟩
      · cases h
      · obtain rfl := Handshake.awaiting.inj h
        exact Nat.le_add_right _ _
      · cases h
    | heard _ result rest reader hstage hverdict hwhole hbound => cases h

lemma Orderly.front {ms' : List Move} (h : Orderly (ms ++ ms')) : Orderly ms := by
  rintro front bs back rfl
  exact h front bs (back ++ ms') (by simp)

lemma Orderly.waiting_eq {ms' : List Move} (h : Orderly (ms ++ ms')) (hover : (brought ms).IsOver) :
    (brought (ms ++ ms')).waiting = (brought ms).waiting ∧ (brought (ms ++ ms')).IsOver := by
  induction ms' using List.reverseRecOn with
  | nil =>
    rw [List.append_nil]
    exact ⟨rfl, hover⟩
  | append_singleton ms' m ih =>
    rw [← List.append_assoc] at h ⊢
    obtain ⟨hwaiting, hover'⟩ := ih h.front
    cases m with
    | happen e =>
      rw [brought_happen]
      cases e with
      | arrive bs => exact absurd hover' (h (ms ++ ms') bs [] rfl)
      | ended => exact ⟨hwaiting, .inl rfl⟩
      | readFails fault => exact ⟨hwaiting, .inr (Option.some_ne_none fault)⟩
      | _ => exact ⟨hwaiting, hover'⟩
    | pass n =>
      rw [brought_pass]
      exact ⟨hwaiting, hover'⟩
    | goOn =>
      rw [brought_goOn]
      exact ⟨hwaiting, hover'⟩

/-- An introduction on a fresh link that has its token frame to write. -/
structure Starts (maxBody : Nat) (octets : Bytes) (g : Greeting) : Prop where
  stage : g.stage = .writing octets
  link : g.link = Link.fresh maxBody

variable (hg : g.Starts maxBody octets)
include hg

/-- Where the token frame can be encoded, an introduction comes so far in a run. -/
theorem course_run (timeout : Nat) (ms : List Move) :
    Course timeout maxBody octets g ms (g.run timeout ms) ∧
      (g.run timeout ms).link.reader.maxBody = maxBody := by
  induction ms using List.reverseRecOn with
  | nil =>
    obtain ⟨hstage, hlink⟩ := hg
    refine ⟨.writing octets hstage ?_ ?_, ?_⟩
    · rw [run, List.foldl_nil, hlink]
      rfl
    · rw [run, List.foldl_nil, hlink]
      rfl
    · rw [run, List.foldl_nil, hlink]
      rfl
  | append_singleton ms m ih =>
    obtain ⟨hcourse, hbound⟩ := ih
    refine ⟨hcourse.step hbound, ?_⟩
    rw [run_concat, (moved timeout _ m).maxBody, hbound]

lemma course_of_awaiting {deadline : Nat} (h : (g.run timeout ms).stage = .awaiting deadline) :
    (g.run timeout ms).link.written.flatten = octets ∧
      (g.run timeout ms).link.reader.whole = brought ms ∧ g.Sends timeout ms deadline := by
  obtain ⟨hcourse, -⟩ := course_run hg timeout ms
  cases hcourse with
  | awaiting deadline' hawaiting hwritten hwhole hsends =>
    obtain rfl : deadline' = deadline := Handshake.awaiting.inj (hawaiting.symm.trans h)
    exact ⟨hwritten, hwhole, hsends⟩
  | writing left hwriting hwritten hwhole => cases hwriting.symm.trans h
  | broken fault hbroken hwritten hbreaks => cases hbroken.symm.trans h
  | decided front back _ result rest taken hms hawaiting hverdict hdone hwritten htaken hwhole =>
    cases hdone.symm.trans h

lemma course_of_done {result : Except Error Unit} (h : (g.run timeout ms).stage = .done result) :
    (∃ fault, result = .error (.io fault) ∧ g.Breaks timeout ms fault) ∨
      ∃ front back deadline rest taken, ms = front ++ .goOn :: back ∧
        (g.run timeout front).stage = .awaiting deadline ∧
        Verdict maxBody (brought front) (deadline ≤ (g.run timeout front).now) result rest ∧
        (brought front).waiting = taken ++ rest ∧
        brought ms = (g.run timeout ms).link.reader.whole.behind taken := by
  obtain ⟨hcourse, -⟩ := course_run hg timeout ms
  cases hcourse with
  | broken fault hbroken hwritten hbreaks =>
    left
    exact ⟨fault, Handshake.done.inj (h.symm.trans hbroken), hbreaks⟩
  | decided front back deadline result' rest taken hms hawaiting hverdict hdone hwritten htaken
      hwhole =>
    right
    obtain rfl : result' = result := Handshake.done.inj (hdone.symm.trans h)
    exact ⟨front, back, deadline, rest, taken, hms, hawaiting, hverdict, htaken, hwhole⟩
  | writing left hwriting hwritten hwhole => cases hwriting.symm.trans h
  | awaiting deadline hawaiting hwritten hwhole hsends => cases hawaiting.symm.trans h

lemma stage_of_hears {result : Except Error Unit} (h : g.Hears timeout maxBody ms result) :
    (g.run timeout ms).stage = .done result := by
  obtain ⟨front, back, deadline, rest, rfl, hawaiting, hverdict⟩ := h
  obtain ⟨-, hwhole, -⟩ := course_of_awaiting hg hawaiting
  have hbound := (course_run hg timeout front).2
  obtain ⟨reader, hhear, -⟩ := Handshake.hear_of_verdict hbound hwhole hverdict
  rw [List.append_cons, run_append]
  refine run_of_done ?_ back
  rw [run_concat, move, hawaiting, Handshake.step?, hhear]

/-- An introduction is over when the token frame could not be written, or when it has heard a
verdict. -/
theorem done_iff (result : Except Error Unit) :
    (g.run timeout ms).stage = .done result ↔
      (∃ fault, result = .error (.io fault) ∧ g.Breaks timeout ms fault) ∨
        g.Hears timeout maxBody ms result := by
  constructor
  · intro h
    rcases course_of_done hg h with hbreaks |
      ⟨front, back, deadline, rest, -, hms, hawaiting, hverdict, -⟩
    · exact .inl hbreaks
    · exact .inr ⟨front, back, deadline, rest, hms, hawaiting, hverdict⟩
  · rintro (⟨fault, rfl, hbreaks⟩ | hhears)
    · exact stage_of_breaks hbreaks
    · exact stage_of_hears hg hhears

/-- An introduction that waits for the reply and cannot go on has time left, and the stream may
still bring the reply. -/
lemma silent_of_settled {deadline : Nat} (h : (g.run timeout ms).stage = .awaiting deadline)
    (hsettled : (g.run timeout ms).Settled timeout) :
    (g.run timeout ms).now < deadline ∧ (brought ms).Silent maxBody := by
  have hbound := (course_run hg timeout ms).2
  obtain ⟨-, hwhole, -⟩ := course_of_awaiting hg h
  rw [Settled, h, Handshake.step?] at hsettled
  rcases Handshake.verdict_or_silent _ _ _ with ⟨result, rest, hverdict⟩ | ⟨-, hnow, hsilent⟩
  · obtain ⟨reader, hhear, -⟩ := Handshake.hear_of_verdict rfl rfl hverdict
    rw [hsettled] at hhear
    cases hhear
  · rw [hwhole, hbound] at hsilent
    exact ⟨hnow, hsilent⟩

lemma next_of_awaiting {deadline : Nat} (h : (g.run timeout ms).stage = .awaiting deadline)
    (m : Move) : (g.run timeout (ms ++ [m])).stage = .awaiting deadline ∨
      ∃ result rest, Verdict maxBody (brought ms) (deadline ≤ (g.run timeout ms).now) result rest ∧
        (g.run timeout (ms ++ [m])).stage = .done result := by
  have hbound := (course_run hg timeout ms).2
  obtain ⟨-, hwhole, -⟩ := course_of_awaiting hg h
  have hmoved := moved timeout (g.run timeout ms) m
  rw [← run_concat] at hmoved
  generalize g.run timeout (ms ++ [m]) = next at hmoved ⊢
  cases hmoved with
  | happened e => exact .inl h
  | passed n => exact .inl h
  | stuck _ => exact .inl h
  | wrote chunks all left stage link hstage hoctets hwritten hreader hnext =>
    cases hstage.symm.trans h
  | heard deadline' result rest reader hstage hverdict _ _ =>
    obtain rfl : deadline' = deadline := Handshake.awaiting.inj (hstage.symm.trans h)
    rw [hwhole, hbound] at hverdict
    exact .inr ⟨result, rest, hverdict, rfl⟩

lemma stage_of_welcomes {deadline : Nat}
    (h : (g.run timeout ms).stage = .awaiting deadline)
    (hwelcomes : (brought ms).Welcomes maxBody) (ms' : List Move) :
    (g.run timeout (ms ++ ms')).stage = .awaiting deadline ∨
      (g.run timeout (ms ++ ms')).stage = .done (.ok ()) := by
  induction ms' using List.reverseRecOn with
  | nil =>
    rw [List.append_nil]
    exact .inl h
  | append_singleton ms' m ih =>
    rw [← List.append_assoc]
    rcases ih with hawaiting | hdone
    · rcases next_of_awaiting hg hawaiting m with hnext | ⟨result, rest, hverdict, hnext⟩
      · exact .inl hnext
      · obtain rfl := hverdict.ok_of_welcomes (hwelcomes.mono (waiting_grows ms ms'))
        exact .inr hnext
    · right
      rw [run_append]
      exact run_of_done hdone [m]

/-- Before the deadline an introduction hears nothing else, if a welcome comes then. -/
lemma stage_before_welcomes {deadline : Nat} {mid back : List Move}
    (h : (g.run timeout ms).stage = .awaiting deadline)
    (horderly : Orderly (ms ++ (mid ++ back)))
    (hnow : (g.run timeout (ms ++ (mid ++ back))).now < deadline)
    (hwelcomes : (brought (ms ++ (mid ++ back))).Welcomes maxBody) :
    (g.run timeout (ms ++ mid)).stage = .awaiting deadline ∨
      (g.run timeout (ms ++ mid)).stage = .done (.ok ()) := by
  -- The last move of `mid` becomes the first of `back`, so that the whole run stays the same.
  induction mid using List.reverseRecOn generalizing back with
  | nil =>
    rw [List.append_nil]
    exact .inl h
  | append_singleton mid m ih =>
    rw [List.append_assoc] at horderly hnow hwelcomes
    rw [← List.append_assoc]
    rcases ih horderly hnow hwelcomes with hawaiting | hdone
    · rcases next_of_awaiting hg hawaiting m with hnext | ⟨result, rest, hverdict, hnext⟩
      · exact .inl hnext
      · right
        rw [← List.append_assoc] at horderly hnow hwelcomes
        have hlate : ¬ deadline ≤
            (g.run timeout (ms ++ mid)).now := by
          have hle := now_le_run timeout
            (g.run timeout (ms ++ mid)) ([m] ++ back)
          rw [← run_append] at hle
          omega
        obtain rfl := hverdict.ok_of_welcomes_later (waiting_grows _ _) hwelcomes hlate
          fun hover => (horderly.waiting_eq hover).1
        exact hnext
    · right
      rw [run_append]
      exact run_of_done hdone [m]

theorem stage_of_welcomes_in_time {deadline : Nat} {front back : List Move}
    (hsends : g.Sends timeout (front ++ back) deadline)
    (horderly : Orderly front)
    (hnow : (g.run timeout front).now < deadline)
    (hwelcomes : (brought front).Welcomes maxBody) :
    (g.run timeout (front ++ back)).stage =
        .awaiting deadline ∨
      (g.run timeout (front ++ back)).stage =
        .done (.ok ()) := by
  obtain ⟨w, w', -, hsplit, -, hawaiting, -⟩ := hsends
  rw [List.append_cons] at hsplit
  rcases List.append_eq_append_iff.mp hsplit with ⟨mid, hw, hback⟩ | ⟨mid, hfront, hw'⟩
  · -- The welcome is there when the write ends.
    rw [hw] at hawaiting
    rw [hback, ← List.append_assoc]
    exact stage_of_welcomes hg hawaiting (hwelcomes.mono (waiting_grows front mid)) w'
  · have hmid : front = (w ++ [.goOn]) ++ (mid ++ []) := by rw [List.append_nil, hfront]
    rw [hmid] at horderly hnow hwelcomes
    rcases stage_before_welcomes hg hawaiting horderly hnow hwelcomes with hwaits | hdone
    · rw [← hfront] at hwaits
      rw [← hmid] at hwelcomes
      rcases stage_of_welcomes hg hwaits hwelcomes back with hwaits | hdone
      · exact .inl hwaits
      · exact .inr hdone
    · rw [← hfront] at hdone
      right
      rw [run_append]
      exact run_of_done hdone back

lemma written_of_sends {deadline : Nat} (h : g.Sends timeout ms deadline) :
    (g.run timeout ms).link.written.flatten = octets := by
  obtain ⟨front, back, -, rfl, -, hawaiting, -⟩ := h
  have hpast : ∀ left, (g.run timeout (front ++ [.goOn])).stage ≠ .writing left := by
    intro left hwriting
    cases hwriting.symm.trans hawaiting
  rw [List.append_cons, run_append, (written_run hpast back).2]
  exact (course_of_awaiting hg hawaiting).1

lemma welcomes_of_stage (h : (g.run timeout ms).stage = .done (.ok ())) :
    ∃ front back deadline, ms = front ++ back ∧
      (g.run timeout front).stage = .awaiting deadline ∧ (brought front).Welcomes maxBody := by
  rcases (done_iff hg (.ok ())).mp h with ⟨fault, hfault, -⟩ | hhears
  · cases hfault
  · obtain ⟨front, back, deadline, rest, hms, hawaiting, hverdict⟩ := hhears
    exact ⟨front, _, deadline, hms, hawaiting, hverdict.welcomes⟩

lemma waiting_of_welcome (h : (g.run timeout ms).stage = .done (.ok ())) :
    ∃ (raw : RawFrame) (f : Frame), raw.Fits maxBody ∧ raw.decode = .ok f ∧
      f.message = .authStatus 0 ∧
      (brought ms).waiting = raw.encode ++ (g.run timeout ms).link.reader.pending := by
  rcases course_of_done hg h with ⟨fault, hfault, -⟩ |
    ⟨front, back, deadline, rest, taken, -, -, hverdict, htaken, hwhole⟩
  · cases hfault
  · cases hverdict with
    | reply raw _ _ hfits hwaiting hjudged =>
      cases hjudged with
      | welcome f hdecode hmessage =>
        obtain rfl : raw.encode = taken := List.append_cancel_right (hwaiting.symm.trans htaken)
        refine ⟨raw, f, hfits, hdecode, hmessage, ?_⟩
        rw [hwhole]
        rfl

lemma written_front : (g.run timeout ms).link.written.flatten <+: octets := by
  obtain ⟨hcourse, -⟩ := course_run hg timeout ms
  cases hcourse with
  | writing left hwriting hwritten hwhole => exact ⟨left, hwritten.symm⟩
  | broken fault hbroken hwritten hbreaks => exact hwritten
  | awaiting deadline hawaiting hwritten hwhole hsends => rw [hwritten]
  | decided front back deadline result rest taken hms hawaiting hverdict hdone hwritten htaken
      hwhole => rw [hwritten]

end Results

/-! ## The whole introduction -/

def fresh (maxBody start : Nat) (stage : Handshake) : Greeting :=
  ⟨stage, Link.fresh maxBody, start⟩

/-- What an introduction of a client does in a run. -/
structure Introduces (timeout maxBody : Nat) (version : UInt8) (auth : AuthToken) (g : Greeting)
    (ms : List Move) : Prop where
  refused : ¬ auth.Encodable → (g.run timeout ms).link.written = [] ∧ ∃ field s,
    (field = "token" ∧ s = auth.token ∨ field = "device_id" ∧ s = auth.deviceId) ∧
      255 < (Bytes.ofString s).length ∧ (g.run timeout ms).stage =
        .done (.error (.authFieldTooLong field (Bytes.ofString s).length))
  written : auth.Encodable → ∃ octets,
    ({ seq := 1, version, message := .authToken auth } : Frame).encode = .ok octets ∧
    (g.run timeout ms).link.written.flatten <+: octets ∧
      ∀ deadline, g.Sends timeout ms deadline → (g.run timeout ms).link.written.flatten = octets
  done_iff : auth.Encodable → ∀ result, (g.run timeout ms).stage = .done result ↔
    (∃ fault, result = .error (.io fault) ∧ g.Breaks timeout ms fault) ∨
      g.Hears timeout maxBody ms result
  /-- The time for the reply runs from the end of the write. It is up when it has passed, and before
  that the introduction only waits where the stream may still bring the reply. -/
  awaited : ∀ front back deadline, ms = front ++ back →
    (g.run timeout front).stage = .awaiting deadline →
      g.Sends timeout front deadline ∧
      (g.Prompt timeout ms → (g.run timeout front).now ≤ deadline) ∧
      ((g.run timeout front).Settled timeout →
        (g.run timeout front).now < deadline ∧ (brought front).Silent maxBody)
  welcome_iff : (g.run timeout ms).Settled timeout →
    ((g.run timeout ms).stage = .done (.ok ()) ↔
      ∃ front back deadline, ms = front ++ back ∧
        (g.run timeout front).stage = .awaiting deadline ∧ (brought front).Welcomes maxBody)
  in_time : (g.run timeout ms).Settled timeout → ∀ front back deadline, ms = front ++ back →
    g.Sends timeout ms deadline → Orderly front → (g.run timeout front).now < deadline →
      (brought front).Welcomes maxBody → (g.run timeout ms).stage = .done (.ok ())
  kept : (g.run timeout ms).stage = .done (.ok ()) →
    ∃ (raw : RawFrame) (f : Frame) (rest : Bytes), raw.Fits maxBody ∧ raw.decode = .ok f ∧
      f.message = .authStatus 0 ∧ (brought ms).waiting = raw.encode ++ rest ∧
      (g.run timeout ms).link.reader.maxBody = maxBody ∧
      (g.run timeout ms).link.reader.Yields rest

section Whole
variable {timeout maxBody : Nat} {version : UInt8} {auth : AuthToken} {g : Greeting}
  {ms : List Move}

lemma introduces_of_refused {field s : String} (start : Nat) (hauth : ¬ auth.Encodable)
    (hfield : field = "token" ∧ s = auth.token ∨ field = "device_id" ∧ s = auth.deviceId)
    (hlong : 255 < (Bytes.ofString s).length) :
    Introduces timeout maxBody version auth
      (fresh maxBody start (.done (.error (.authFieldTooLong field (Bytes.ofString s).length))))
      ms := by
  have hdone : ∀ ms, ((fresh maxBody start (.done (.error (.authFieldTooLong field
      (Bytes.ofString s).length)))).run timeout ms).stage =
        .done (.error (.authFieldTooLong field (Bytes.ofString s).length)) :=
    fun ms => run_of_done rfl ms
  refine ⟨fun _ => ⟨?_, field, s, hfield, hlong, hdone ms⟩, fun h => absurd h hauth,
    fun h => absurd h hauth, ?_, ?_, ?_, ?_⟩
  · exact (written_run (by rintro left ⟨⟩) ms).2
  · intro front back deadline hms hawaiting
    cases (hdone front).symm.trans hawaiting
  · intro hsettled
    constructor
    · intro hok
      cases (hdone ms).symm.trans hok
    · rintro ⟨front, back, deadline, hms, hawaiting, -⟩
      cases (hdone front).symm.trans hawaiting
  · rintro - front back deadline hms ⟨front', back', left, -, hwriting, -⟩
    cases (hdone front').symm.trans hwriting
  · intro hok
    cases (hdone ms).symm.trans hok

lemma introduces_of_encodable {octets : Bytes} (hg : g.Starts maxBody octets)
    (hauth : auth.Encodable) (hencode : (Handshake.frame version auth).encode = .ok octets) :
    Introduces timeout maxBody version auth g ms where
  refused hnot := absurd hauth hnot
  written _ := ⟨octets, hencode, written_front hg, fun _ hsends => written_of_sends hg hsends⟩
  done_iff _ := done_iff hg
  awaited := by
    rintro front back deadline rfl hawaiting
    obtain ⟨-, -, hsends⟩ := course_of_awaiting hg hawaiting
    refine ⟨hsends, fun hprompt => ?_, silent_of_settled hg hawaiting⟩
    apply now_le_of_prompt
    · intro deadline hstage
      cases hg.stage.symm.trans hstage
    · rintro front' n back' rfl
      exact hprompt front' n (back' ++ back) (by simp)
    · exact hawaiting
  welcome_iff hsettled := by
    constructor
    · exact welcomes_of_stage hg
    · rintro ⟨front, back, deadline, rfl, hawaiting, hwelcomes⟩
      rcases stage_of_welcomes hg hawaiting hwelcomes back with hwaits | hdone
      · exact absurd (hwelcomes.mono (waiting_grows front back))
          (silent_of_settled hg hwaits hsettled).2.not_welcomes
      · exact hdone
  in_time hsettled := by
    rintro front back deadline rfl hsends horderly hnow hwelcomes
    rcases stage_of_welcomes_in_time hg hsends horderly hnow hwelcomes with hwaits | hdone
    · exact absurd (hwelcomes.mono (waiting_grows front back))
        (silent_of_settled hg hwaits hsettled).2.not_welcomes
    · exact hdone
  kept hok := by
    obtain ⟨raw, f, hfits, hdecode, hmessage, hwaiting⟩ := waiting_of_welcome hg hok
    exact ⟨raw, f, _, hfits, hdecode, hmessage, hwaiting, (course_run hg timeout ms).2,
      FrameReader.yields_pending _⟩

/-- Every introduction of a client does in every run what `Introduces` says. -/
theorem introduces (timeout maxBody start : Nat) (version : UInt8) (auth : AuthToken)
    (ms : List Move) :
    Introduces timeout maxBody version auth (fresh maxBody start (.start version auth)) ms := by
  rcases Handshake.start_cases version auth with
    ⟨hauth, octets, hencode, hstart⟩ | ⟨hauth, field, s, hfield, hlong, hstart⟩
  · rw [hstart]
    exact introduces_of_encodable ⟨rfl, rfl⟩ hauth hencode
  · rw [hstart]
    exact introduces_of_refused start hauth hfield hlong

end Whole

end Greeting

end Parley
