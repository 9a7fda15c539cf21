import Mathlib.Data.List.Induction
import Mathlib.Tactic.Lemma
import Parley.Keepalive

/-!
# The course of a keepalive

A keepalive is told when frames arrive, and asked from time to time whether a ping is due. A
`Course` notes what was done with it and what it answered. Its deadline is always one interval
behind the latest of what restarts it: its start, a frame, or a ping that was due
(`Course.Sound.deadline`). All that is said about the times of pings follows from that.
-/

namespace Parley.Keepalive

/-- What is done with a keepalive. -/
inductive Op
  | frame
  | idle
deriving DecidableEq, Repr

/-- What becomes of a keepalive, and whether a ping is due. -/
def act (k : Keepalive) (now : Nat) : Op → Keepalive × Bool
  | .frame => (k.onFrame now, false)
  | .idle => k.onIdle now

lemma deadline_le_of_onIdle {k : Keepalive} {now : Nat} (h : (k.onIdle now).2 = true) :
    k.deadline ≤ now := by
  by_contra hearly
  rw [onIdle, if_pos (Nat.lt_of_not_le hearly)] at h
  cases h

/-- What was done with a keepalive at a time, and whether a ping was due then. -/
structure Beat where
  time : Nat
  op : Op
  due : Bool
deriving DecidableEq, Repr

def Beat.restarts (b : Beat) : Bool := b.op = .frame || b.due

/-- The latest time at which the time in which the link may be silent has begun to run. -/
def latest (start : Nat) (beats : List Beat) : Nat :=
  ((beats.filter (·.restarts)).map (·.time)).foldl max start

/-- Times that do not go back behind a start. -/
def Ordered (start : Nat) (calls : List (Nat × Op)) : Prop :=
  (start :: calls.map (·.1)).Pairwise (· ≤ ·)

/-- A keepalive and what was done with it so far. -/
structure Course where
  keepalive : Keepalive
  beats : List Beat := []

namespace Course

def note (c : Course) (call : Nat × Op) : Course where
  keepalive := (c.keepalive.act call.1 call.2).1
  beats := c.beats ++ [⟨call.1, call.2, (c.keepalive.act call.1 call.2).2⟩]

def ofCalls (interval start : Nat) (calls : List (Nat × Op)) : Course :=
  calls.foldl note { keepalive := .start interval start }

lemma ofCalls_concat (interval start : Nat) (calls : List (Nat × Op)) (call : Nat × Op) :
    ofCalls interval start (calls ++ [call]) = (ofCalls interval start calls).note call :=
  List.foldl_append

end Course

section Latest
variable {start t : Nat} {beats : List Beat} {b : Beat}

lemma latest_concat (start : Nat) (beats : List Beat) (b : Beat) :
    latest start (beats ++ [b]) =
      if b.restarts then max (latest start beats) b.time else latest start beats := by
  rw [latest, List.filter_append]
  cases hb : b.restarts <;> simp [latest, hb]

lemma latest_le (hstart : start ≤ t) (hbeats : ∀ b ∈ beats, b.time ≤ t) :
    latest start beats ≤ t := by
  induction beats using List.reverseRecOn with
  | nil => exact hstart
  | append_singleton beats b ih =>
    have hle := ih fun b' hb' => hbeats b' (List.mem_append_left _ hb')
    have hb := hbeats b (by simp)
    rw [latest_concat]
    split <;> omega

lemma le_latest (hb : b ∈ beats) (hrestarts : b.restarts = true) : b.time ≤ latest start beats := by
  induction beats using List.reverseRecOn with
  | nil => cases hb
  | append_singleton beats b' ih =>
    rw [latest_concat]
    rcases List.mem_append.mp hb with hb | hb
    · have hle := ih hb
      split <;> omega
    · obtain rfl := List.mem_singleton.mp hb
      rw [if_pos hrestarts]
      omega

lemma ordered_concat {calls : List (Nat × Op)} {op : Op} :
    Ordered start (calls ++ [(t, op)]) ↔
      Ordered start calls ∧ start ≤ t ∧ ∀ call ∈ calls, call.1 ≤ t := by
  rw [Ordered, Ordered, List.map_append, ← List.cons_append, List.pairwise_append]
  simp

end Latest

namespace Course

/-- What holds of a keepalive that was started at a time with an interval. -/
structure Sound (interval start : Nat) (c : Course) : Prop where
  kept : c.keepalive.interval = interval
  deadline : c.keepalive.deadline = latest start c.beats + interval
  pings : c.keepalive.pingsSent = (c.beats.filter (·.due)).length
  due : ∀ before b after, c.beats = before ++ b :: after → b.op = .idle →
    (b.due = true ↔ latest start before + interval ≤ b.time)
  spaced : c.beats.Pairwise fun b b' =>
    b.restarts = true → b'.due = true → b.time + interval ≤ b'.time

section Sound
variable {interval start : Nat} {c : Course}

lemma sound_start (interval start : Nat) :
    Sound interval start { keepalive := .start interval start } :=
  ⟨rfl, rfl, rfl, by simp, .nil⟩

lemma Sound.act_due (h : c.Sound interval start) (t : Nat) :
    (c.keepalive.act t .idle).2 = true ↔ latest start c.beats + interval ≤ t := by
  rw [act, onIdle, h.deadline]
  split <;> simp <;> omega

lemma Sound.note (h : c.Sound interval start) {t : Nat} (hstart : start ≤ t)
    (hbeats : ∀ b ∈ c.beats, b.time ≤ t) (op : Op) : (c.note (t, op)).Sound interval start := by
  have hle := latest_le hstart hbeats
  have hdue : ∀ b : Beat, b = ⟨t, op, (c.keepalive.act t op).2⟩ → b.due = true →
      latest start c.beats + interval ≤ t := by
    rintro b rfl hb
    cases op with
    | frame => cases hb
    | idle => exact (h.act_due t).mp hb
  refine ⟨?_, ?_, ?_, ?_, ?_⟩
  · cases op with
    | frame => exact h.kept
    | idle =>
      rw [← h.kept]
      simp only [Course.note, act, onIdle]
      split <;> rfl
  · -- A call that restarts puts the deadline behind its own time, which is the latest.
    simp only [Course.note, latest_concat, Beat.restarts]
    cases op with
    | frame => simp [act, onFrame, h.kept, Nat.max_eq_right hle]
    | idle =>
      simp only [act, onIdle]
      split <;> simp [h.kept, h.deadline, Nat.max_eq_right hle]
  · simp only [Course.note, List.filter_append, List.length_append, ← h.pings]
    cases op with
    | frame => simp [act, onFrame]
    | idle =>
      simp only [act, onIdle]
      split <;> simp
  · intro before b after hsplit hidle
    rcases List.eq_nil_or_concat after with rfl | ⟨after, last, rfl⟩
    · obtain ⟨rfl, hb⟩ := List.append_inj' hsplit rfl
      obtain rfl := List.singleton_inj.mp hb
      obtain rfl : op = .idle := hidle
      exact h.act_due t
    · have hinit : c.beats = before ++ b :: after := by
        rw [List.concat_eq_append, ← List.cons_append, ← List.append_assoc] at hsplit
        exact (List.append_inj' hsplit rfl).1
      exact h.due before b after hinit hidle
  · refine List.pairwise_append.mpr ⟨h.spaced, List.pairwise_singleton _ _, ?_⟩
    intro b hb b' hb' hrestarts hb'due
    obtain rfl := List.mem_singleton.mp hb'
    have hlatest : b.time ≤ latest start c.beats := le_latest hb hrestarts
    have hlate := hdue _ rfl hb'due
    change b.time + interval ≤ t
    omega

lemma calls_note (c : Course) (call : Nat × Op) :
    (c.note call).beats.map (fun b => (b.time, b.op)) =
      c.beats.map (fun b => (b.time, b.op)) ++ [call] := by
  rw [Course.note, List.map_append]
  rfl

lemma calls_ofCalls (interval start : Nat) (calls : List (Nat × Op)) :
    (ofCalls interval start calls).beats.map (fun b => (b.time, b.op)) = calls := by
  induction calls using List.reverseRecOn with
  | nil => rfl
  | append_singleton calls call ih => rw [ofCalls_concat, calls_note, ih]

lemma time_le_of_mem {calls : List (Nat × Op)} {t : Nat} (hcalls : ∀ call ∈ calls, call.1 ≤ t) :
    ∀ b ∈ (ofCalls interval start calls).beats, b.time ≤ t := by
  intro b hb
  have hcall : (b.time, b.op) ∈ calls := by
    rw [← calls_ofCalls interval start calls]
    exact List.mem_map_of_mem hb
  exact hcalls _ hcall

/-- What holds of a keepalive holds after any calls whose times do not go back. -/
theorem sound_ofCalls (interval start : Nat) (calls : List (Nat × Op))
    (hordered : Ordered start calls) : (ofCalls interval start calls).Sound interval start := by
  induction calls using List.reverseRecOn with
  | nil => exact sound_start interval start
  | append_singleton calls call ih =>
    obtain ⟨t, op⟩ := call
    obtain ⟨hbefore, hstart, hcalls⟩ := ordered_concat.mp hordered
    rw [ofCalls_concat]
    exact (ih hbefore).note hstart (time_le_of_mem hcalls) op

end Sound

end Course

/-! ## Silence -/

/-- A keepalive is asked at each of its deadlines, so many times in a row. -/
def ticks (since interval n : Nat) : List (Nat × Op) :=
  (List.range n).map fun k => (since + (k + 1) * interval, .idle)

lemma ticks_succ (since interval n : Nat) : ticks since interval (n + 1) =
    ticks since interval n ++ [(since + (n + 1) * interval, .idle)] := by
  rw [ticks, List.range_succ, List.map_append]
  rfl

lemma Course.keepalive_ticks {interval start : Nat} {calls : List (Nat × Op)}
    (hordered : Ordered start calls) (n : Nat) :
    (ofCalls interval start
        (calls ++ ticks (latest start (ofCalls interval start calls).beats) interval n)).keepalive =
      { interval
        deadline := latest start (ofCalls interval start calls).beats + (n + 1) * interval
        pingsSent := (ofCalls interval start calls).keepalive.pingsSent + n } := by
  obtain ⟨hkept, hdeadline, -, -, -⟩ := sound_ofCalls interval start calls hordered
  induction n with
  | zero =>
    rw [ticks, List.range_zero, List.map_nil, List.append_nil, Nat.zero_add, Nat.one_mul,
      ← hdeadline]
    generalize (ofCalls interval start calls).keepalive = k at hkept
    rw [← hkept, Nat.add_zero]
  | succ n ih =>
    rw [ticks_succ, ← List.append_assoc, ofCalls_concat, Course.note, ih]
    simp only [act, onIdle, Nat.lt_irrefl, if_false, Keepalive.mk.injEq, true_and]
    exact ⟨by rw [Nat.add_assoc, ← Nat.succ_mul], Nat.add_assoc _ _ _⟩

/-- How many intervals have passed is told by the deadline that comes next. -/
lemma eq_div_of_deadline {since interval n now : Nat} (hfrom : since + n * interval ≤ now)
    (huntil : now < since + (n + 1) * interval) : n = (now - since) / interval :=
  (Nat.div_eq_of_lt_le (by omega) (by omega)).symm

end Parley.Keepalive
