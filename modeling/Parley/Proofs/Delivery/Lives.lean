import Mathlib.Tactic
import Parley.Delivery.Waiting
import Parley.Proofs.Delivery.Tracker

/-!
# What becomes of a registration

A tracker removes entries by their sequences, and a sequence may be used again. Here each
registration is followed for itself: a `Life` says when a wait was begun on it, whether its waiter
has gone away, and why and when its entry was removed. `Life.Explained` tells this from what was
done since.
-/

namespace Parley.Waiting

/-- What can be done with a tracker and those who wait on it. Waiters go by the number of their
registration. -/
inductive Op
  | register (seq : Int32) (timeout : Option Nat)
  | await (id timeout : Nat)
  | complete (a : Ack)
  | forget (seq : Int32)
  | failAll
  | abandon (id : Nat)
  | cancel (id : Nat)
  | advance (ms : Nat)

/-! ## The life of a registration -/

/-- Why an entry has left the tracker. -/
inductive Removal
  | completed (a : Ack)
  | forgotten
  | replaced
  | failed
  | timedOut
deriving DecidableEq

def Removal.outcome : Removal → WaitOutcome
  | .completed a => .acked a
  | .forgotten | .replaced | .failed => .dropped
  | .timedOut => .timedOut

/-- A wait that has been begun. -/
structure Await where
  began : Nat
  timeout : Nat
deriving DecidableEq

def Await.deadline (wait : Await) : Nat := wait.began + wait.timeout

/-- What has become of one registration. -/
structure Life where
  id : Nat
  seq : Int32
  wait : Option Await := none
  attended : Bool := true
  removal : Option (Removal × Nat) := none
deriving DecidableEq

namespace Life

def standing (l : Life) : Bool := l.removal.isNone

def isOpen (l : Life) : Bool := l.standing && l.attended

def removeIf (l : Life) (c : Bool) (why : Removal) (time : Nat) : Life :=
  if l.standing && c then { l with removal := some (why, time) } else l

def leaveIf (l : Life) (c : Bool) : Life :=
  if l.standing && c then { l with attended := false } else l

/-- A wait is begun, if somebody is there who has not begun one and this is the case. -/
def beginIf (l : Life) (c : Bool) (wait : Await) : Life :=
  if l.isOpen && c && l.wait.isNone then { l with wait := some wait } else l

/-- What an operation does to a registration. -/
def turn (now : Nat) (l : Life) : Op → Life
  | .register seq _ => l.removeIf (l.seq = seq) .replaced now
  | .await id timeout => l.beginIf (l.id = id) ⟨now, timeout⟩
  | .complete a => l.removeIf (l.seq = a.seq) (.completed a) now
  | .forget seq => l.removeIf (l.seq = seq) .forgotten now
  | .failAll => l.removeIf true .failed now
  | .abandon id => l.leaveIf (l.id = id && l.wait.isNone)
  | .cancel id => l.leaveIf (l.id = id && l.wait.isSome)
  | .advance _ => l

def deadline (l : Life) : Option Nat := l.wait.map Await.deadline

def isDue (now : Nat) (l : Life) : Bool := l.attended && l.deadline.any (· ≤ now)

/-- A wait runs out at its deadline, when this has been reached. -/
def expire (now : Nat) (l : Life) : Life :=
  l.removeIf (l.isDue now) .timedOut (l.deadline.getD now)

def waiter (l : Life) : Waiter Nat := ⟨l.id, l.seq, l.deadline⟩

def settled? (l : Life) : Option (Settled Nat) :=
  if l.attended then l.removal.map fun removal => ⟨l.waiter, removal.1.outcome, removal.2⟩ else none

end Life

/-- The registrations so far, and the time. -/
structure History where
  lives : List Life := []
  now : Nat := 0

namespace History

def elapsed : Op → Nat
  | .advance ms => ms
  | _ => 0

def born (h : History) : Op → List Life
  | .register seq timeout => [{ id := h.lives.length, seq, wait := timeout.map (⟨h.now, ·⟩) }]
  | _ => []

/-- An operation turns the registrations, and then those waits run out whose deadline is there. -/
def step (h : History) (op : Op) : History where
  lives := (h.lives.map (Life.turn h.now · op) ++ h.born op).map (Life.expire (h.now + elapsed op))
  now := h.now + elapsed op

def ofOps (ops : List Op) : History := ops.foldl step {}

lemma step_lives (h : History) (op : Op) (hborn : h.born op = []) :
    (h.step op).lives =
      (h.lives.map (Life.turn h.now · op)).map (Life.expire (h.now + elapsed op)) := by
  rw [step, hborn, List.append_nil]

end History

namespace Life

def entry (l : Life) : Int32 × Nat := (l.seq, l.id)

section
variable (l : Life) (c : Bool) (why : Removal) (time : Nat)

@[simp] lemma seq_removeIf : (l.removeIf c why time).seq = l.seq := by
  rw [removeIf]
  split <;> rfl

@[simp] lemma id_removeIf : (l.removeIf c why time).id = l.id := by
  rw [removeIf]
  split <;> rfl

@[simp] lemma entry_removeIf : (l.removeIf c why time).entry = l.entry := by
  simp [entry]

@[simp] lemma waiter_removeIf : (l.removeIf c why time).waiter = l.waiter := by
  rw [removeIf]
  split <;> rfl

@[simp] lemma standing_removeIf : (l.removeIf c why time).standing = (l.standing && !c) := by
  rw [removeIf]
  cases hstanding : l.standing <;> cases c <;> simp [hstanding]
  simp [standing]

@[simp] lemma isOpen_removeIf : (l.removeIf c why time).isOpen = (l.isOpen && !c) := by
  have hattended : (l.removeIf c why time).attended = l.attended := by
    rw [removeIf]
    split <;> rfl
  rw [isOpen, isOpen, standing_removeIf, hattended]
  cases l.standing <;> cases c <;> simp

@[simp] lemma isDue_removeIf (now : Nat) : (l.removeIf c why time).isDue now = l.isDue now := by
  rw [removeIf]
  split <;> rfl

@[simp] lemma id_beginIf (wait : Await) : (l.beginIf c wait).id = l.id := by
  rw [beginIf]
  split <;> rfl

@[simp] lemma seq_beginIf (wait : Await) : (l.beginIf c wait).seq = l.seq := by
  rw [beginIf]
  split <;> rfl

@[simp] lemma standing_beginIf (wait : Await) : (l.beginIf c wait).standing = l.standing := by
  rw [beginIf]
  split <;> rfl

@[simp] lemma isOpen_beginIf (wait : Await) : (l.beginIf c wait).isOpen = l.isOpen := by
  rw [beginIf]
  split <;> rfl

@[simp] lemma id_leaveIf : (l.leaveIf c).id = l.id := by
  rw [leaveIf]
  split <;> rfl

@[simp] lemma seq_leaveIf : (l.leaveIf c).seq = l.seq := by
  rw [leaveIf]
  split <;> rfl

@[simp] lemma waiter_leaveIf : (l.leaveIf c).waiter = l.waiter := by
  rw [leaveIf]
  split <;> rfl

@[simp] lemma standing_leaveIf : (l.leaveIf c).standing = l.standing := by
  rw [leaveIf]
  split <;> rfl

@[simp] lemma isOpen_leaveIf : (l.leaveIf c).isOpen = (l.isOpen && !c) := by
  rw [leaveIf]
  cases hstanding : l.standing with
  | false => simp [isOpen, hstanding]
  | true =>
    cases c with
    | false => simp
    | true => simp [isOpen]

lemma settled?_of_standing (h : l.standing = true) : l.settled? = none := by
  have hnone : l.removal = none := by simpa [standing] using h
  simp [settled?, hnone]

lemma standing_of_isOpen (h : l.isOpen = true) : l.standing = true :=
  (Bool.and_eq_true_iff.mp h).1

lemma settled?_of_standing_eq {l l' : Life} (hstanding : l'.standing = l.standing)
    (hsame : l.standing = false → l' = l) : l'.settled? = l.settled? := by
  cases hl : l.standing with
  | false => rw [hsame hl]
  | true => rw [l.settled?_of_standing hl, l'.settled?_of_standing (hstanding.trans hl)]

@[simp] lemma settled?_beginIf (wait : Await) : (l.beginIf c wait).settled? = l.settled? :=
  settled?_of_standing_eq (l.standing_beginIf c wait) fun h => by simp [beginIf, isOpen, h]

@[simp] lemma settled?_leaveIf : (l.leaveIf c).settled? = l.settled? :=
  settled?_of_standing_eq (l.standing_leaveIf c) fun h => by simp [leaveIf, h]

lemma settled?_removeIf : (l.removeIf c why time).settled? =
    if l.isOpen && c then some ⟨l.waiter, why.outcome, time⟩ else l.settled? := by
  rw [removeIf]
  cases hstanding : l.standing with
  | false => simp [isOpen, hstanding]
  | true =>
    have hnone := l.settled?_of_standing hstanding
    cases c with
    | false => simp
    | true =>
      cases hattended : l.attended <;>
        simp [isOpen, hstanding, hattended, settled?, waiter, deadline]

end

end Life

/-! ## What was done since -/

def Op.removal? (seq : Int32) : Op → Option Removal
  | .register seq' _ => if seq = seq' then some .replaced else none
  | .complete a => if seq = a.seq then some (.completed a) else none
  | .forget seq' => if seq = seq' then some .forgotten else none
  | .failAll => some .failed
  | _ => none

def clock (ops : List Op) : Nat := (ops.map History.elapsed).sum

lemma clock_concat (ops : List Op) (op : Op) :
    clock (ops ++ [op]) = clock ops + History.elapsed op := by
  simp [clock]

lemma History.ofOps_concat (ops : List Op) (op : Op) :
    ofOps (ops ++ [op]) = (ofOps ops).step op := by
  simp [ofOps]

lemma History.now_ofOps (ops : List Op) : (ofOps ops).now = clock ops := by
  induction ops using List.reverseRecOn with
  | nil => rfl
  | append_singleton ops op ih =>
    rw [ofOps_concat, clock_concat, ← ih]
    rfl

namespace Life

/-- A registration stands as long as nothing is done that removes it. It is removed when that is
done, or at the deadline of the wait that has been begun on it. -/
inductive Explained (start : Nat) (since : List Op) (l : Life) : Prop
  | standing (hremoval : l.removal = none) (hkept : ∀ op ∈ since, op.removal? l.seq = none)
  | removed (why : Removal) (before : List Op) (op : Op) (after : List Op)
    (hsince : since = before ++ op :: after) (hkept : ∀ op ∈ before, op.removal? l.seq = none)
    (hop : op.removal? l.seq = some why) (hremoval : l.removal = some (why, start + clock before))
  | ranOut (wait : Await) (before after : List Op) (hsince : since = before ++ after)
    (hkept : ∀ op ∈ before, op.removal? l.seq = none) (hwait : l.wait = some wait)
    (hreached : wait.began + wait.timeout ≤ start + clock before)
    (hremoval : l.removal = some (.timedOut, wait.began + wait.timeout))

/-- A wait is begun with the registration, or later, once. -/
inductive Begun (start : Nat) (timeout : Option Nat) (since : List Op) (l : Life) : Prop
  | never (hwait : l.wait = none)
  | atOnce (ms : Nat) (htimeout : timeout = some ms) (hwait : l.wait = some ⟨start, ms⟩)
  | later (ms : Nat) (before after : List Op) (hsince : since = before ++ .await l.id ms :: after)
    (hwait : l.wait = some ⟨start + clock before, ms⟩)

section
variable {l : Life} {now start : Nat} {timeout : Option Nat} {since : List Op} {op : Op}

lemma turn_of_not_standing (h : l.standing = false) (now : Nat) (op : Op) : l.turn now op = l := by
  cases op <;> simp [turn, removeIf, beginIf, leaveIf, isOpen, h]

lemma turn_of_removal? {why : Removal} (h : l.standing = true) (hop : op.removal? l.seq = some why)
    (now : Nat) : l.turn now op = { l with removal := some (why, now) } := by
  cases op <;> simp_all [Op.removal?, turn, removeIf]

lemma removal_turn (hop : op.removal? l.seq = none) (now : Nat) :
    (l.turn now op).removal = l.removal := by
  cases op with
  | register seq timeout | complete a | forget seq => simp_all [Op.removal?, turn, removeIf]
  | failAll => cases hop
  | await id timeout =>
    rw [turn, beginIf]
    split <;> rfl
  | abandon id | cancel id =>
    rw [turn, leaveIf]
    split <;> rfl
  | advance ms => rfl

@[simp] lemma seq_turn (l : Life) (now : Nat) (op : Op) : (l.turn now op).seq = l.seq := by
  cases op <;> simp [turn]

@[simp] lemma id_turn (l : Life) (now : Nat) (op : Op) : (l.turn now op).id = l.id := by
  cases op <;> simp [turn]

lemma wait_turn (l : Life) (now : Nat) (op : Op) : (l.turn now op).wait = l.wait ∨
    ∃ ms, op = .await l.id ms ∧ (l.turn now op).wait = some ⟨now, ms⟩ := by
  cases op with
  | await id timeout =>
    rw [turn, beginIf]
    split
    · rename_i hopen
      simp only [Bool.and_eq_true, decide_eq_true_eq] at hopen
      obtain ⟨⟨-, rfl⟩, -⟩ := hopen
      exact .inr ⟨timeout, rfl, rfl⟩
    · exact .inl rfl
  | register seq timeout | complete a | forget seq | failAll =>
    rw [turn, removeIf]
    split <;> exact .inl rfl
  | abandon id | cancel id =>
    rw [turn, leaveIf]
    split <;> exact .inl rfl
  | advance ms => exact .inl rfl

lemma attended_turn (l : Life) (now : Nat) (op : Op) : (l.turn now op).attended = l.attended ∨
    op = .abandon l.id ∨ op = .cancel l.id := by
  cases op with
  | await id timeout =>
    rw [turn, beginIf]
    split <;> exact .inl rfl
  | register seq timeout | complete a | forget seq | failAll =>
    rw [turn, removeIf]
    split <;> exact .inl rfl
  | abandon id | cancel id =>
    rw [turn, leaveIf]
    split
    · rename_i hgone
      simp only [Bool.and_eq_true, decide_eq_true_eq] at hgone
      obtain ⟨-, rfl, -⟩ := hgone
      simp
    · exact .inl rfl
  | advance ms => exact .inl rfl

lemma Explained.turn (h : l.Explained start since) (op : Op) :
    (l.turn (start + clock since) op).Explained start (since ++ [op]) := by
  cases h with
  | standing hremoval hkept =>
    cases hop : op.removal? l.seq with
    | none =>
      refine .standing ((removal_turn hop _).trans hremoval) ?_
      simpa [or_imp, forall_and, hop] using hkept
    | some why =>
      have hstanding : l.standing = true := by simp [Life.standing, hremoval]
      rw [turn_of_removal? hstanding hop]
      exact .removed why since op [] rfl hkept hop rfl
  | removed why before op' after hsince hkept hop hremoval =>
    have hstanding : l.standing = false := by simp [Life.standing, hremoval]
    rw [turn_of_not_standing hstanding]
    exact .removed why before op' (after ++ [op]) (by simp [hsince]) hkept hop hremoval
  | ranOut wait before after hsince hkept hwait hreached hremoval =>
    have hstanding : l.standing = false := by simp [Life.standing, hremoval]
    rw [turn_of_not_standing hstanding]
    exact .ranOut wait before (after ++ [op]) (by simp [hsince]) hkept hwait hreached hremoval

lemma Explained.expire (h : l.Explained start since) :
    (l.expire (start + clock since)).Explained start since := by
  rw [Life.expire, removeIf]
  split
  · rename_i hdue
    rw [Bool.and_eq_true, isDue, Bool.and_eq_true] at hdue
    obtain ⟨hstanding, -, hdue⟩ := hdue
    cases h with
    | standing hremoval hkept =>
      cases hwait : l.wait with
      | none => simp [deadline, hwait] at hdue
      | some wait =>
        refine .ranOut wait since [] (by simp) hkept rfl ?_ ?_
        · simpa [deadline, hwait, Await.deadline] using hdue
        · simp [deadline, hwait, Await.deadline]
    | removed why before op' after hsince hkept hop hremoval =>
      simp [Life.standing, hremoval] at hstanding
    | ranOut wait before after hsince hkept hwait hreached hremoval =>
      simp [Life.standing, hremoval] at hstanding
  · exact h

/-- A registration can be traced to what was done before it, with it and since. -/
structure Traced (before : List Op) (timeout : Option Nat) (since : List Op) (l : Life) :
    Prop where
  id : l.id = (History.ofOps before).lives.length
  begun : l.Begun (clock before) timeout since
  left : l.attended = false → .abandon l.id ∈ since ∨ .cancel l.id ∈ since
  explained : l.Explained (clock before) since

lemma Traced.expire {before : List Op} (h : Traced before timeout since l) :
    Traced before timeout since (l.expire (clock before + clock since)) := by
  have hwait : (l.expire (clock before + clock since)).wait = l.wait := by
    rw [Life.expire, removeIf]
    split <;> rfl
  have hattended : (l.expire (clock before + clock since)).attended = l.attended := by
    rw [Life.expire, removeIf]
    split <;> rfl
  have hid : (l.expire (clock before + clock since)).id = l.id := l.id_removeIf _ _ _
  refine ⟨hid.trans h.id, ?_, by rw [hattended, hid]; exact h.left, h.explained.expire⟩
  cases h.begun with
  | never hnone => exact .never (hwait.trans hnone)
  | atOnce ms htimeout hbegan => exact .atOnce ms htimeout (hwait.trans hbegan)
  | later ms before' after hsince hbegan =>
    exact .later ms before' after (by rw [hid, hsince]) (hwait.trans hbegan)

lemma Traced.turn {before : List Op} (h : Traced before timeout since l) (op : Op) :
    Traced before timeout (since ++ [op]) (l.turn (clock before + clock since) op) := by
  refine ⟨(l.id_turn _ _).trans h.id, ?_, ?_, h.explained.turn op⟩
  · rcases l.wait_turn (clock before + clock since) op with hwait | ⟨ms, rfl, hwait⟩
    · cases h.begun with
      | never hnone => exact .never (hwait.trans hnone)
      | atOnce ms htimeout hbegan => exact .atOnce ms htimeout (hwait.trans hbegan)
      | later ms before' after hsince hbegan =>
        exact .later ms before' (after ++ [op]) (by simp [hsince]) (hwait.trans hbegan)
    · exact .later ms since [] (by simp) hwait
  · rw [id_turn]
    rcases l.attended_turn (clock before + clock since) op with hattended | hleft
    · rw [hattended]
      intro hgone
      rcases h.left hgone with hmem | hmem
      · exact .inl (List.mem_append_left _ hmem)
      · exact .inr (List.mem_append_left _ hmem)
    · intro _
      rcases hleft with rfl | rfl <;> simp

end

end Life

/-- Every registration has been made by an operation, and what was done since explains what has
become of it, whatever else has been registered. -/
theorem traced_of_mem (ops : List Op) : ∀ l ∈ (History.ofOps ops).lives,
    ∃ before timeout since, ops = before ++ .register l.seq timeout :: since ∧
      l.Traced before timeout since := by
  induction ops using List.reverseRecOn with
  | nil => simp [History.ofOps]
  | append_singleton ops op ih =>
    rw [History.ofOps_concat]
    intro l hl
    obtain ⟨l, hmem, rfl⟩ := List.mem_map.mp hl
    have hseq : (l.expire ((History.ofOps ops).now + History.elapsed op)).seq = l.seq :=
      l.seq_removeIf _ _ _
    rw [hseq]
    rcases List.mem_append.mp hmem with hmem | hmem
    · obtain ⟨l, hlive, rfl⟩ := List.mem_map.mp hmem
      obtain ⟨before, timeout, since, hops, htraced⟩ := ih l hlive
      have hclock : (History.ofOps ops).now = clock before + clock since := by
        rw [History.now_ofOps, hops]
        simp [clock, History.elapsed]
      refine ⟨before, timeout, since ++ [op], by simp [hops], ?_⟩
      have hnext := (htraced.turn op).expire
      rwa [clock_concat, ← Nat.add_assoc, ← hclock] at hnext
    · cases op with
      | register seq timeout =>
        obtain rfl := List.mem_singleton.mp hmem
        refine ⟨ops, timeout, [], rfl, ?_⟩
        rw [History.now_ofOps]
        refine Life.Traced.expire ⟨rfl, ?_, nofun, .standing rfl (by simp)⟩
        cases timeout with
        | none => exact .never rfl
        | some ms => exact .atOnce ms rfl rfl
      | _ => cases hmem

end Parley.Waiting
