import Parley.Proofs.Delivery.Lives

/-!
# The law of trackers

Whatever is done with a tracker and those who wait on it, what it holds and what they learn is what
has become of each registration by itself (`Fits`): a tracker that removes entries by their
sequences removes those that it should. Main statement: `Waiting.lawful_ofOps`.
-/

namespace Parley.Waiting

/-! ## A tracker and the registrations that have been made with it -/

/-- A tracker holds the registrations whose entries stand, the latest first, and those wait who have
not gone away. What has been learned is what has become of the registrations. -/
structure Fits (w : Waiting Nat) (log : List (Settled Nat)) (lives : List Life) (now : Nat) :
    Prop where
  now : w.now = now
  ids : lives.map Life.id = List.range lives.length
  apart : (lives.filter Life.standing).Pairwise (·.seq ≠ ·.seq)
  entries : w.tracker.entries = ((lives.filter Life.standing).map Life.entry).reverse
  waiters : w.waiters = (lives.filter Life.isOpen).map Life.waiter
  log : log.Perm (lives.filterMap Life.settled?)

section
variable {ι : Type} [DecidableEq ι]

lemma settle_eq (w : Waiting ι) (ids : List ι) (outcome : WaitOutcome) :
    w.settle ids outcome = ({ w with waiters := w.waiters.filter (!ids.contains ·.id) },
      (w.waiters.filter (ids.contains ·.id)).map (⟨·, outcome, w.now⟩)) := by
  simp [Waiting.settle, List.partition_eq_filter_filter, Function.comp_def]

end

section
variable {w w' : Waiting Nat} {log settled : List (Settled Nat)} {lives : List Life}
  {now now' : Nat}

lemma perm_filterMap_settled (c : Life → Bool) (g : Life → Settled Nat) (lives : List Life) :
    (lives.filterMap fun l => if l.isOpen && c l then some (g l) else l.settled?).Perm
      (lives.filterMap Life.settled? ++ ((lives.filter Life.isOpen).filter c).map g) := by
  induction lives with
  | nil => simp
  | cons l lives ih =>
    cases hopen : l.isOpen with
    | false =>
      cases hsettled : l.settled? with
      | none => simpa [hopen, hsettled] using ih
      | some x => simpa [hopen, hsettled] using ih
    | true =>
      have hnone := l.settled?_of_standing (l.standing_of_isOpen hopen)
      cases hc : c l with
      | false => simpa [hopen, hc, hnone] using ih
      | true =>
        have hcons := (ih.cons (g l)).trans List.perm_middle.symm
        simpa [hopen, hc, hnone] using hcons

lemma Fits.remove (h : Fits w log lives now) (c : Life → Bool) (why : Life → Removal)
    (time : Life → Nat) (hnow : w'.now = now')
    (hentries : w'.tracker.entries =
      (((lives.filter Life.standing).filter (!c ·)).map Life.entry).reverse)
    (hwaiters : w'.waiters = ((lives.filter Life.isOpen).filter (!c ·)).map Life.waiter)
    (hsettled : settled = ((lives.filter Life.isOpen).filter c).map
      fun l => ⟨l.waiter, (why l).outcome, time l⟩) :
    Fits w' (log ++ settled) (lives.map fun l => l.removeIf (c l) (why l) (time l)) now' := by
  have hstanding : (lives.map fun l => l.removeIf (c l) (why l) (time l)).filter Life.standing =
      ((lives.filter Life.standing).filter (!c ·)).map
        fun l => l.removeIf (c l) (why l) (time l) := by
    rw [List.filter_map, List.filter_filter]
    congr 1
    exact List.filter_congr fun l _ => by simp [Bool.and_comm]
  refine ⟨hnow, ?_, ?_, ?_, ?_, ?_⟩
  · simpa [Function.comp_def] using h.ids
  · rw [hstanding, List.pairwise_map]
    simpa using h.apart.filter _
  · rw [hentries, hstanding]
    simp [Function.comp_def]
  · rw [hwaiters, List.filter_map, List.filter_filter]
    simp [Function.comp_def, Bool.and_comm]
  · rw [hsettled, List.filterMap_map]
    refine (h.log.append_right _).trans ?_
    simpa [Function.comp_def, Life.settled?_removeIf] using
      (perm_filterMap_settled c (fun l => ⟨l.waiter, (why l).outcome, time l⟩) lives).symm

lemma Fits.mem_entries (h : Fits w log lives now) (seq : Int32) (id : Nat) :
    (seq, id) ∈ w.tracker.entries ↔
      ∃ l ∈ lives, l.standing = true ∧ l.seq = seq ∧ l.id = id := by
  rw [h.entries]
  simp [Life.entry, and_assoc]

lemma Fits.eq_of_id (h : Fits w log lives now) {l l' : Life} (hl : l ∈ lives) (hl' : l' ∈ lives)
    (hid : l.id = l'.id) : l = l' := by
  have hnodup : (lives.map Life.id).Nodup := h.ids ▸ List.nodup_range
  exact List.inj_on_of_nodup_map hnodup hl hl' hid

lemma Fits.eq_of_seq (h : Fits w log lives now) {l l' : Life} (hl : l ∈ lives) (hl' : l' ∈ lives)
    (hstanding : l.standing = true) (hstanding' : l'.standing = true) (hseq : l.seq = l'.seq) :
    l = l' := by
  by_contra hne
  have hsymm : Std.Symm fun x y : Life => x.seq ≠ y.seq := ⟨fun _ _ hxy => hxy.symm⟩
  exact h.apart.forall (List.mem_filter.mpr ⟨hl, hstanding⟩)
    (List.mem_filter.mpr ⟨hl', hstanding'⟩) hne hseq

lemma Fits.filter_waiters (h : Fits w log lives now) {p : Waiter Nat → Bool} {c : Life → Bool}
    (hp : ∀ l ∈ lives, l.isOpen = true → p l.waiter = c l) :
    w.waiters.filter p = ((lives.filter Life.isOpen).filter c).map Life.waiter := by
  rw [h.waiters, List.filter_map]
  refine congrArg _ (List.filter_congr fun l hl => ?_)
  obtain ⟨hmem, hopen⟩ := List.mem_filter.mp hl
  exact hp l hmem hopen

/-- Entries are removed by their sequences, and those who wait under their names: together these are
the registrations whose entries are removed. -/
lemma Fits.settle (h : Fits w log lives now) (q : Int32 → Bool) (why : Removal) {found : List Nat}
    {tracker : Tracker Nat} (htracker : tracker.entries = w.tracker.entries.filter (!q ·.1))
    (hfound : ∀ id, id ∈ found ↔ ∃ seq, q seq = true ∧ (seq, id) ∈ w.tracker.entries) :
    Fits (Waiting.settle { w with tracker } found why.outcome).1
      (log ++ (Waiting.settle { w with tracker } found why.outcome).2)
      (lives.map fun l => l.removeIf (q l.seq) why now) now := by
  have hcontains : ∀ l ∈ lives, l.isOpen = true → found.contains l.id = q l.seq := by
    intro l hl hopen
    rw [Bool.eq_iff_iff, List.contains_iff_mem, hfound]
    constructor
    · rintro ⟨seq, hq, hentry⟩
      obtain ⟨l', hl', -, rfl, hid⟩ := (h.mem_entries seq l.id).mp hentry
      rwa [← h.eq_of_id hl' hl hid]
    · intro hq
      exact ⟨l.seq, hq, (h.mem_entries _ _).mpr ⟨l, hl, l.standing_of_isOpen hopen, rfl, rfl⟩⟩
  refine h.remove (q ·.seq) (fun _ => why) (fun _ => now) h.now ?_ ?_ ?_
  · change tracker.entries = _
    rw [htracker, h.entries, List.filter_reverse, List.filter_map]
    rfl
  · rw [settle_eq]
    exact h.filter_waiters fun l hl hopen => by rw [Life.waiter, hcontains l hl hopen]
  · rw [settle_eq]
    have hsettled := h.filter_waiters (p := (found.contains ·.id)) (c := (q ·.seq)) hcontains
    simp only [hsettled, List.map_map, h.now]
    rfl

lemma lookup_eq_some_iff {entries : List (Int32 × Nat)} (h : entries.Pairwise (·.1 ≠ ·.1))
    (seq : Int32) (id : Nat) : entries.lookup seq = some id ↔ (seq, id) ∈ entries := by
  induction entries with
  | nil => simp
  | cons entry entries ih =>
    obtain ⟨key, i⟩ := entry
    obtain ⟨hkey, hrest⟩ := List.pairwise_cons.mp h
    rw [Tracker.lookup_cons_ite, List.mem_cons, Prod.mk.injEq]
    by_cases hseq : seq = key
    · subst hseq
      have hnot : (seq, id) ∉ entries := fun hmem => hkey _ hmem rfl
      simp [hnot, eq_comm]
    · rw [if_neg hseq, ih hrest]
      simp [hseq]

lemma Fits.apart_entries (h : Fits w log lives now) :
    w.tracker.entries.Pairwise (·.1 ≠ ·.1) := by
  rw [h.entries, List.pairwise_reverse, List.pairwise_map]
  exact h.apart.imp fun hne => hne.symm

lemma Fits.settle_one (h : Fits w log lives now) (seq : Int32) (why : Removal) :
    Fits (Waiting.settle { w with tracker := w.tracker.erase seq }
        (w.tracker.waiter? seq).toList why.outcome).1
      (log ++ (Waiting.settle { w with tracker := w.tracker.erase seq }
        (w.tracker.waiter? seq).toList why.outcome).2)
      (lives.map fun l => l.removeIf (l.seq = seq) why now) now := by
  refine h.settle (decide <| · = seq) why ?_ ?_
  · simp [Tracker.erase]
  · intro id
    rw [Option.mem_toList, Tracker.waiter?, lookup_eq_some_iff h.apart_entries]
    simp

lemma Fits.settle_all (h : Fits w log lives now) (why : Removal) :
    Fits (Waiting.settle { w with tracker := .empty } (w.tracker.entries.map (·.2)) why.outcome).1
      (log ++ (Waiting.settle { w with tracker := .empty } (w.tracker.entries.map (·.2))
        why.outcome).2)
      (lives.map fun l => l.removeIf true why now) now := by
  refine h.settle (fun _ => true) why (by simp [Tracker.empty]) ?_
  simp

lemma Fits.add (h : Fits w log lives now) {l : Life} (hid : l.id = lives.length)
    (hopen : l.isOpen = true) (hfree : ∀ x ∈ lives, x.standing = true → x.seq ≠ l.seq) :
    Fits { w with
        tracker := ⟨l.entry :: w.tracker.entries⟩
        waiters := w.waiters ++ [l.waiter] } log (lives ++ [l]) now := by
  have hstanding := l.standing_of_isOpen hopen
  refine ⟨h.now, ?_, ?_, ?_, ?_, ?_⟩
  · simp [h.ids, hid, List.range_succ]
  · simp only [List.filter_append, List.filter_cons_of_pos hstanding, List.filter_nil]
    refine List.pairwise_append.mpr ⟨h.apart, by simp, ?_⟩
    intro x hx y hy
    obtain ⟨hmem, hx'⟩ := List.mem_filter.mp hx
    obtain rfl := List.mem_singleton.mp hy
    exact hfree x hmem hx'
  · simp [h.entries, List.filter_append, hstanding]
  · simp [h.waiters, List.filter_append, hopen]
  · simpa [List.filterMap_append, l.settled?_of_standing hstanding] using h.log

lemma Fits.change (h : Fits w log lives now) {waiters : List (Waiter Nat)} (f : Life → Life)
    (hid : ∀ l, (f l).id = l.id) (hseq : ∀ l, (f l).seq = l.seq)
    (hstanding : ∀ l, (f l).standing = l.standing) (hsettled : ∀ l, (f l).settled? = l.settled?)
    (hwaiters : waiters = ((lives.map f).filter Life.isOpen).map Life.waiter) :
    Fits { w with waiters } log (lives.map f) now := by
  have hfilter : (lives.map f).filter Life.standing = (lives.filter Life.standing).map f := by
    rw [List.filter_map]
    simp [Function.comp_def, hstanding]
  refine ⟨h.now, ?_, ?_, ?_, hwaiters, ?_⟩
  · simpa [Function.comp_def, hid] using h.ids
  · rw [hfilter, List.pairwise_map]
    simpa [hseq] using h.apart
  · have hentry : Life.entry ∘ f = Life.entry := by
      funext l
      simp [Life.entry, hid, hseq]
    rw [hfilter, List.map_map, hentry]
    exact h.entries
  · rw [List.filterMap_map]
    simpa [Function.comp_def, hsettled] using h.log

/-! ## Time -/

lemma advance_eq (w : Waiting Nat) (ms : Nat) :
    w.advance ms = ({
        tracker := (w.waiters.filter (·.deadline.any (· ≤ w.now + ms))).foldl
          (fun t x => (t.forget x.seq).1) w.tracker
        waiters := w.waiters.filter (!·.deadline.any (· ≤ w.now + ms))
        now := w.now + ms },
      (w.waiters.filter (·.deadline.any (· ≤ w.now + ms))).map
        fun x => ⟨x, .timedOut, x.deadline.getD (w.now + ms)⟩) := by
  simp [Waiting.advance, List.partition_eq_filter_filter, Function.comp_def]

lemma entries_foldl_forget (waiters : List (Waiter Nat)) (t : Tracker Nat) :
    (waiters.foldl (fun t x => (t.forget x.seq).1) t).entries =
      t.entries.filter fun entry => !waiters.any (·.seq = entry.1) := by
  induction waiters generalizing t with
  | nil => simp
  | cons x waiters ih =>
    rw [List.foldl_cons, ih, Tracker.forget, Tracker.erase, List.filter_filter]
    refine List.filter_congr fun entry _ => ?_
    simp [eq_comm, Bool.and_comm]

lemma Life.isDue_of_isOpen {l : Life} (h : l.isOpen = true) (now : Nat) :
    l.isDue now = l.deadline.any (· ≤ now) := by
  have hattended : l.attended = true := (Bool.and_eq_true_iff.mp h).2
  rw [isDue, hattended, Bool.true_and]

lemma Fits.any_due (h : Fits w log lives now) (time : Nat) {l : Life} (hl : l ∈ lives)
    (hstanding : l.standing = true) :
    (((lives.filter Life.isOpen).filter (Life.isDue time)).map Life.waiter).any (·.seq = l.seq) =
      l.isDue time := by
  rw [Bool.eq_iff_iff, List.any_map, List.any_eq_true]
  constructor
  · rintro ⟨l', hl', hseq⟩
    obtain ⟨⟨hmem, hopen⟩, hdue⟩ := by simpa only [List.mem_filter] using hl'
    have heq := h.eq_of_seq hmem hl (l'.standing_of_isOpen hopen) hstanding (of_decide_eq_true hseq)
    rwa [← heq]
  · intro hdue
    have hopen : l.isOpen = true := by
      rw [Life.isOpen, hstanding, Bool.true_and]
      exact (Bool.and_eq_true_iff.mp hdue).1
    exact ⟨l, List.mem_filter.mpr ⟨List.mem_filter.mpr ⟨hl, hopen⟩, hdue⟩, decide_eq_true rfl⟩

lemma Fits.advance (h : Fits w log lives now) (ms : Nat) :
    Fits (w.advance ms).1 (log ++ (w.advance ms).2) (lives.map (Life.expire (now + ms)))
      (now + ms) := by
  have hdue : w.waiters.filter (·.deadline.any (· ≤ now + ms)) =
      ((lives.filter Life.isOpen).filter (Life.isDue (now + ms))).map Life.waiter :=
    h.filter_waiters fun l _ hopen => (l.isDue_of_isOpen hopen _).symm
  rw [advance_eq, h.now]
  refine h.remove (Life.isDue (now + ms)) (fun _ => .timedOut) (·.deadline.getD (now + ms)) rfl
    ?_ ?_ ?_
  · simp only [hdue, entries_foldl_forget, h.entries, List.filter_reverse, List.filter_map]
    congr 2
    refine List.filter_congr fun l hl => ?_
    obtain ⟨hmem, hstanding⟩ := List.mem_filter.mp hl
    exact congrArg _ (h.any_due (now + ms) hmem hstanding)
  · exact h.filter_waiters fun l _ hopen => congrArg _ (l.isDue_of_isOpen hopen _).symm
  · simp only [hdue, List.map_map]
    rfl

def Early (lives : List Life) (now : Nat) : Prop :=
  ∀ l ∈ lives, l.isOpen = true → l.isDue now = false

lemma early_expire (lives : List Life) (now : Nat) : Early (lives.map (Life.expire now)) now := by
  intro l hl hopen
  obtain ⟨l, -, rfl⟩ := List.mem_map.mp hl
  rw [Life.expire, Life.isOpen_removeIf, Bool.and_eq_true, Bool.not_eq_true'] at hopen
  rw [Life.expire, Life.isDue_removeIf]
  exact hopen.2

lemma Early.expire (h : Early lives now) : lives.map (Life.expire now) = lives := by
  refine (List.map_congr_left fun l hl => ?_).trans (List.map_id lives)
  rw [Life.expire, Life.removeIf, if_neg, id_eq]
  rw [Bool.and_eq_true]
  rintro ⟨hstanding, hdue⟩
  have hopen : l.isOpen = true := by
    rw [Life.isOpen, hstanding]
    exact (Bool.and_eq_true_iff.mp hdue).1
  rw [h l hl hopen] at hdue
  cases hdue

lemma Early.map (h : Early lives now) {f : Life → Life}
    (hf : ∀ l, (f l).isOpen = true → l.isOpen = true ∧ (f l).isDue now = l.isDue now) :
    Early (lives.map f) now := by
  intro l hl hopen
  obtain ⟨l, hmem, rfl⟩ := List.mem_map.mp hl
  obtain ⟨hopen', hdue⟩ := hf l hopen
  exact hdue.trans (h l hmem hopen')

lemma Early.removeIf (h : Early lives now) (c : Life → Bool) (why : Removal) (time : Nat) :
    Early (lives.map fun l => l.removeIf (c l) why time) now := by
  refine h.map fun l hopen => ⟨?_, l.isDue_removeIf _ _ _ now⟩
  rw [Life.isOpen_removeIf, Bool.and_eq_true] at hopen
  exact hopen.1

lemma Early.leaveIf (h : Early lives now) (c : Life → Bool) :
    Early (lives.map fun l => l.leaveIf (c l)) now := by
  refine h.map fun l hopen => ?_
  rw [Life.isOpen_leaveIf, Bool.and_eq_true, Bool.not_eq_true'] at hopen
  rw [Life.leaveIf, hopen.2, Bool.and_false]
  exact ⟨hopen.1, rfl⟩

/-- Where nothing comes due, an operation that takes no time turns the registrations, and that is
all. -/
lemma History.step_of_early (op : Op) (h : Early (lives.map (Life.turn now · op)) now)
    (hborn : History.born ⟨lives, now⟩ op = []) (helapsed : History.elapsed op = 0) :
    History.step ⟨lives, now⟩ op = ⟨lives.map (Life.turn now · op), now⟩ := by
  rw [step, hborn, helapsed, List.append_nil, Nat.add_zero, h.expire]

/-! ## Operations -/

lemma register_eq (w : Waiting Nat) (seq : Int32) (id : Nat) (timeout : Option Nat) :
    w.register seq id timeout =
      let removed := Waiting.settle { w with tracker := w.tracker.erase seq }
        (w.tracker.waiter? seq).toList .dropped
      let added : Waiting Nat := { removed.1 with
        tracker := ⟨(seq, id) :: removed.1.tracker.entries⟩
        waiters := removed.1.waiters ++ [⟨id, seq, timeout.map (w.now + ·)⟩] }
      ((added.advance 0).1, removed.2 ++ (added.advance 0).2) := rfl

lemma Fits.register (h : Fits w log lives now) (seq : Int32) (timeout : Option Nat) :
    Fits (w.register seq lives.length timeout).1
      (log ++ (w.register seq lives.length timeout).2)
      (History.step ⟨lives, now⟩ (.register seq timeout)).lives now := by
  obtain rfl := h.now
  have hremoved := h.settle_one seq .replaced
  have hlength : (lives.map fun l => l.removeIf (l.seq = seq) .replaced w.now).length =
      lives.length := List.length_map _
  have hadded := hremoved.add
    (l := { id := lives.length, seq, wait := timeout.map (⟨w.now, ·⟩) }) hlength.symm rfl ?_
  · have hdone := hadded.advance 0
    rw [register_eq, ← List.append_assoc]
    have hwaiter : timeout.map (w.now + ·) =
        (timeout.map (⟨w.now, ·⟩ : Nat → Await)).map Await.deadline := by
      cases timeout <;> rfl
    simp only [hwaiter]
    exact hdone
  · intro l hl hstanding
    obtain ⟨l, -, rfl⟩ := List.mem_map.mp hl
    rw [Life.standing_removeIf, Bool.and_eq_true, Bool.not_eq_true', decide_eq_false_iff_not]
      at hstanding
    rw [Life.seq_removeIf]
    exact hstanding.2

lemma Fits.await (h : Fits w log lives now) (id timeout : Nat) :
    Fits (w.await id timeout).1 (log ++ (w.await id timeout).2)
      (History.step ⟨lives, now⟩ (.await id timeout)).lives now := by
  obtain rfl := h.now
  have hwaiter : ∀ l ∈ lives.filter Life.isOpen,
      (l.beginIf (l.id = id) ⟨w.now, timeout⟩).waiter =
        if l.waiter.id = id ∧ l.waiter.deadline = none then
          { l.waiter with deadline := some (w.now + timeout) }
        else l.waiter := by
    intro l hl
    have hopen := (List.mem_filter.mp hl).2
    by_cases hid : l.id = id <;> cases hwait : l.wait <;>
      simp [Life.beginIf, Life.waiter, Life.deadline, Await.deadline, hopen, hid, hwait]
  have hbegun : Fits { w with waiters := w.waiters.map fun x =>
      if x.id = id ∧ x.deadline = none then { x with deadline := some (w.now + timeout) } else x }
      log (lives.map fun l => l.beginIf (l.id = id) ⟨w.now, timeout⟩) w.now := by
    refine h.change (fun l => l.beginIf (l.id = id) ⟨w.now, timeout⟩) (fun l => l.id_beginIf _ _)
      (fun l => l.seq_beginIf _ _) (fun l => l.standing_beginIf _ _)
      (fun l => l.settled?_beginIf _ _) ?_
    rw [h.waiters, List.map_map, List.filter_map, List.map_map]
    have hopen : (Life.isOpen ∘ fun l => l.beginIf (l.id = id) ⟨w.now, timeout⟩) = Life.isOpen := by
      funext l
      exact l.isOpen_beginIf _ _
    rw [hopen]
    exact List.map_congr_left fun l hl => (hwaiter l hl).symm
  rw [History.step_lives _ _ rfl]
  exact hbegun.advance 0

lemma Fits.leave (h : Fits w log lives now) (c : Life → Bool) {p : Waiter Nat → Bool}
    (hp : ∀ l, p l.waiter = !c l) :
    Fits { w with waiters := w.waiters.filter p } log (lives.map fun l => l.leaveIf (c l)) now := by
  refine h.change (fun l => l.leaveIf (c l)) (fun l => l.id_leaveIf _) (fun l => l.seq_leaveIf _)
    (fun l => l.standing_leaveIf _) (fun l => l.settled?_leaveIf _) ?_
  rw [h.filter_waiters (c := (!c ·)) fun l _ _ => hp l, List.filter_map, List.map_map,
    List.filter_filter]
  have hopen : (Life.isOpen ∘ fun l => l.leaveIf (c l)) = fun l => !c l && l.isOpen := by
    funext l
    exact (l.isOpen_leaveIf _).trans (Bool.and_comm _ _)
  rw [hopen]
  exact List.map_congr_left fun l _ => (l.waiter_leaveIf _).symm

end

/-- One operation, and what is learned by it. A registration gets its number as its name. -/
def perform (w : Waiting Nat) (count : Nat) : Op → Waiting Nat × List (Settled Nat)
  | .register seq timeout => w.register seq count timeout
  | .await id timeout => w.await id timeout
  | .complete a => ((w.complete a).1, (w.complete a).2.2)
  | .forget seq => w.forget seq
  | .failAll => (w.failAll.1, w.failAll.2.2)
  | .abandon id => ((w.abandon id).1, [])
  | .cancel id => (w.cancel id, [])
  | .advance ms => w.advance ms

section
variable {w : Waiting Nat} {log : List (Settled Nat)} {lives : List Life} {now : Nat}

/-- Every operation does to a tracker, and to those who wait, what it does to the registrations. -/
theorem Fits.perform (h : Fits w log lives now) (hearly : Early lives now) (op : Op) :
    Fits (w.perform lives.length op).1 (log ++ (w.perform lives.length op).2)
      (History.step ⟨lives, now⟩ op).lives (History.step ⟨lives, now⟩ op).now := by
  cases op with
  | register seq timeout => exact h.register seq timeout
  | await id timeout => exact h.await id timeout
  | complete a =>
    have hturned := hearly.removeIf (·.seq = a.seq) (.completed a) now
    rw [History.step_of_early (.complete a) hturned rfl rfl]
    exact h.settle_one a.seq (.completed a)
  | forget seq =>
    have hturned := hearly.removeIf (·.seq = seq) .forgotten now
    rw [History.step_of_early (.forget seq) hturned rfl rfl]
    exact h.settle_one seq .forgotten
  | failAll =>
    have hturned := hearly.removeIf (fun _ => true) .failed now
    rw [History.step_of_early .failAll hturned rfl rfl]
    exact h.settle_all .failed
  | abandon id =>
    have hturned := hearly.leaveIf fun l => l.id = id && l.wait.isNone
    rw [History.step_of_early (.abandon id) hturned rfl rfl, Waiting.perform,
      List.append_nil]
    exact h.leave _ fun ⟨_, _, wait, _, _⟩ => by cases wait <;> rfl
  | cancel id =>
    have hturned := hearly.leaveIf fun l => l.id = id && l.wait.isSome
    rw [History.step_of_early (.cancel id) hturned rfl rfl, Waiting.perform,
      List.append_nil]
    exact h.leave _ fun ⟨_, _, wait, _, _⟩ => by cases wait <;> rfl
  | advance ms =>
    have hturned : lives.map (Life.turn now · (.advance ms)) = lives := List.map_id lives
    rw [History.step_lives _ _ rfl, hturned]
    exact h.advance ms

end

/-- A tracker that has been used for some time: how many have registered, and what has been
learned. -/
structure Course where
  waiting : Waiting Nat := {}
  count : Nat := 0
  log : List (Settled Nat) := []

namespace Course

def registers : Op → Nat
  | .register _ _ => 1
  | _ => 0

def step (c : Course) (op : Op) : Course where
  waiting := (c.waiting.perform c.count op).1
  count := c.count + registers op
  log := c.log ++ (c.waiting.perform c.count op).2

def ofOps (ops : List Op) : Course := ops.foldl step {}

end Course

lemma History.length_step (h : History) (op : Op) :
    (h.step op).lives.length = h.lives.length + Course.registers op := by
  rw [step, List.length_map, List.length_append, List.length_map]
  cases op <;> rfl

lemma History.early_step (h : History) (op : Op) : Early (h.step op).lives (h.step op).now :=
  early_expire _ _

/-- Whatever has been done, a tracker and those who wait are as the registrations say. -/
theorem fits_ofOps (ops : List Op) :
    Fits (Course.ofOps ops).waiting (Course.ofOps ops).log (History.ofOps ops).lives
        (History.ofOps ops).now ∧
      Early (History.ofOps ops).lives (History.ofOps ops).now ∧
      (History.ofOps ops).lives.length = (Course.ofOps ops).count := by
  induction ops using List.reverseRecOn with
  | nil => exact ⟨⟨rfl, rfl, .nil, rfl, rfl, .refl _⟩, by simp [Early, History.ofOps], rfl⟩
  | append_singleton ops op ih =>
    obtain ⟨hfits, hearly, hcount⟩ := ih
    have hcourse : Course.ofOps (ops ++ [op]) = (Course.ofOps ops).step op := by
      simp [Course.ofOps]
    have hnext := hfits.perform hearly op
    rw [hcount] at hnext
    rw [hcourse, History.ofOps_concat, History.length_step, hcount]
    exact ⟨hnext, History.early_step _ op, rfl⟩

section
variable {w : Waiting Nat} {log : List (Settled Nat)} {lives : List Life} {now : Nat}

lemma Fits.waiter?_iff (h : Fits w log lives now) (seq : Int32) (id : Nat) :
    w.tracker.waiter? seq = some id ↔
      ∃ l ∈ lives, l.standing = true ∧ l.seq = seq ∧ l.id = id := by
  rw [Tracker.waiter?, lookup_eq_some_iff h.apart_entries, h.mem_entries]

lemma Fits.filter_id (h : Fits w log lives now) {l : Life} (hl : l ∈ lives) :
    lives.filter (·.id = l.id) = [l] := by
  have hnodup : lives.Nodup := (h.ids ▸ List.nodup_range : (lives.map Life.id).Nodup).of_map
  have hsame : ∀ x ∈ lives, decide (x.id = l.id) = decide (x = l) := by
    intro x hx
    exact decide_eq_decide.mpr ⟨h.eq_of_id hx hl, congrArg Life.id⟩
  rw [List.filter_congr hsame, List.filter_eq, List.count_eq_one_of_mem hnodup hl]
  rfl

lemma Fits.complete (h : Fits w log lives now) {a : Ack} {l : Life} (hl : l ∈ lives)
    (hstanding : l.standing = true) (hseq : l.seq = a.seq) :
    (w.complete a).1.waiters = w.waiters.filter (·.id ≠ l.id) ∧
      (w.complete a).1.tracker.entries = w.tracker.entries.filter (·.2 ≠ l.id) ∧
      (w.complete a).2.2 = if l.attended then [⟨l.waiter, .acked a, now⟩] else [] := by
  have hwaiter : w.tracker.waiter? a.seq = some l.id :=
    (h.waiter?_iff _ _).mpr ⟨l, hl, hstanding, hseq, rfl⟩
  have hfound : w.waiters.filter (fun x => [l.id].contains x.id) =
      if l.attended then [l.waiter] else [] := by
    rw [h.filter_waiters (c := (·.id = l.id)) fun x _ _ => by simp [Life.waiter],
      List.filter_comm, h.filter_id hl]
    cases hattended : l.attended <;> simp [Life.isOpen, hstanding, hattended]
  have hkey : ∀ entry ∈ w.tracker.entries, entry.1 = a.seq ↔ entry.2 = l.id := by
    rintro ⟨seq, id⟩ hentry
    obtain ⟨x, hx, hxstanding, rfl, rfl⟩ := (h.mem_entries _ _).mp hentry
    rw [← hseq]
    exact ⟨fun heq => congrArg Life.id (h.eq_of_seq hx hl hxstanding hstanding heq),
      fun heq => congrArg Life.seq (h.eq_of_id hx hl heq)⟩
  simp only [Waiting.complete, Tracker.complete, hwaiter, Option.toList_some, settle_eq]
  refine ⟨?_, ?_, ?_⟩
  · exact List.filter_congr fun x _ => by simp
  · exact List.filter_congr fun entry hentry => decide_eq_decide.mpr (hkey entry hentry).not
  · rw [hfound, h.now]
    cases l.attended <;> rfl

lemma Fits.complete_of_none (h : Fits w log lives now) {a : Ack}
    (hnone : ∀ l ∈ lives, l.standing = true → l.seq ≠ a.seq) :
    w.complete a = (w, false, []) := by
  have hwaiter : w.tracker.waiter? a.seq = none := by
    rw [Option.eq_none_iff_forall_ne_some]
    intro id hid
    obtain ⟨l, hl, hstanding, hseq, -⟩ := (h.waiter?_iff _ _).mp hid
    exact hnone l hl hstanding hseq
  have herase : w.tracker.erase a.seq = w.tracker := by
    refine congrArg Tracker.mk (List.filter_eq_self.mpr ?_)
    rintro ⟨seq, id⟩ hentry
    obtain ⟨x, hx, hxstanding, rfl, -⟩ := (h.mem_entries _ _).mp hentry
    exact decide_eq_true (hnone x hx hxstanding)
  simp only [Waiting.complete, Tracker.complete, hwaiter, herase, settle_eq]
  simp

end

/-- The law of trackers. -/
structure Lawful (ops : List Op) (c : Course) (h : History) : Prop where
  ids : h.lives.map Life.id = List.range c.count
  traced : ∀ l ∈ h.lives, ∃ before timeout since,
    ops = before ++ .register l.seq timeout :: since ∧ l.Traced before timeout since
  apart : (h.lives.filter Life.standing).Pairwise (·.seq ≠ ·.seq)
  entries : c.waiting.tracker.entries = ((h.lives.filter Life.standing).map Life.entry).reverse
  pending : c.waiting.tracker.pending = (h.lives.filter Life.standing).length
  failAll : c.waiting.failAll.2.1 = (h.lives.filter Life.standing).length
  expected : ∀ a, (c.waiting.complete a).2.1 = true ↔
    ∃ l ∈ h.lives, l.standing = true ∧ l.seq = a.seq
  received : ∀ a, ∀ l ∈ h.lives, l.standing = true → l.seq = a.seq →
    (c.waiting.complete a).1.waiters = c.waiting.waiters.filter (·.id ≠ l.id) ∧
      (c.waiting.complete a).1.tracker.entries =
        c.waiting.tracker.entries.filter (·.2 ≠ l.id) ∧
      (c.waiting.complete a).2.2 = if l.attended then [⟨l.waiter, .acked a, h.now⟩] else []
  ignored : ∀ a, (∀ l ∈ h.lives, l.standing = true → l.seq ≠ a.seq) →
    c.waiting.complete a = (c.waiting, false, [])
  /-- Each waiter that has learned what has become of its registration has learned it once, when it
  came about. -/
  log : c.log.Perm (h.lives.filterMap Life.settled?)
  early : ∀ l ∈ h.lives, l.isOpen = true → ∀ wait, l.wait = some wait →
    h.now < wait.began + wait.timeout

/-- Whatever is done with a tracker and those who wait on it, sequences being used again: it holds
the registrations that have not been removed, and their waiters learn what becomes of them, each by
itself. -/
theorem lawful_ofOps (ops : List Op) : Lawful ops (Course.ofOps ops) (History.ofOps ops) := by
  obtain ⟨hfits, hearly, hcount⟩ := fits_ofOps ops
  have hpending : (Course.ofOps ops).waiting.tracker.pending =
      ((History.ofOps ops).lives.filter Life.standing).length := by
    rw [Tracker.pending, hfits.entries, List.length_reverse, List.length_map]
  refine
    { ids := hcount ▸ hfits.ids
      traced := traced_of_mem ops
      apart := hfits.apart
      entries := hfits.entries
      pending := hpending
      failAll := hpending
      expected := ?_
      received := fun a l hl hstanding hseq => hfits.complete hl hstanding hseq
      ignored := fun a hnone => hfits.complete_of_none hnone
      log := hfits.log
      early := ?_ }
  · intro a
    change ((Course.ofOps ops).waiting.tracker.waiter? a.seq).isSome = true ↔ _
    rw [Option.isSome_iff_exists]
    constructor
    · rintro ⟨id, hid⟩
      obtain ⟨l, hl, hstanding, hseq, -⟩ := (hfits.waiter?_iff _ _).mp hid
      exact ⟨l, hl, hstanding, hseq⟩
    · rintro ⟨l, hl, hstanding, hseq⟩
      exact ⟨l.id, (hfits.waiter?_iff _ _).mpr ⟨l, hl, hstanding, hseq, rfl⟩⟩
  · intro l hl hopen wait hwait
    have hdue := hearly l hl hopen
    rw [Life.isDue_of_isOpen hopen, Life.deadline, hwait] at hdue
    simpa [Await.deadline] using hdue

end Parley.Waiting
