import Parley.Proofs.Client.Asking
import Parley.Proofs.Client.Tracking
import Parley.Proofs.Sync.Requesting

/-!
# Following a group

To follow a group is to track it and to send the request for it. The engine is told first: a group
that is not tracked gets there a requested window before the session is asked whether it can send,
and keeps it when the session cannot. From then on the group passes for tracked, so that no further
attempt sends the request either, on whatever connection it is made.
-/

namespace Parley

/-- The request for a group from zero, as a call asks for it to be sent. -/
def Outgoing.asking (g : Int64) (k : Nat) : Outgoing :=
  { message := .sync .request ⟨.group g, 0⟩, caller := some k }

namespace Engine

lemma get?_after_track {e : Engine} {g : Int64} (h : e.get? (.group g) = none) (scope : Scope) :
    (e.after (.track g)).get? scope =
      if scope = .group g then some { key := 0, window := .requested } else e.get? scope := by
  rw [get?_after, Op.turn]
  by_cases hscope : scope = .group g
  · rw [if_pos hscope, if_pos hscope, hscope, h]
    rfl
  · rw [if_neg hscope, if_neg hscope]

lemma busy_get?_run {e : Engine} {ops : List Op} {scope : Scope}
    (hfrees : ∀ op ∈ ops, op.frees scope = false) (h : Busy (e.get? scope)) :
    Busy ((e.run ops).get? scope) := by
  induction ops generalizing e with
  | nil => exact h
  | cons op ops ih =>
    have hbusy := (busy_turn (hfrees op List.mem_cons_self) h).1
    rw [← get?_after] at hbusy
    exact ih (fun op' hop' => hfrees op' (List.mem_cons_of_mem _ hop')) hbusy

end Engine

namespace Client
variable {c : Client} {i n : Nat} {s : Session} {holder : Holder} {id : String} {g : Int64}
  {after : List Turn}

def tracking (c : Client) (g : Int64) : Client :=
  { c with progress := { c.progress with engine := c.progress.engine.after (.track g) } }

/-- What an attempt to follow a group on a session makes of a client. -/
inductive Follow (c : Client) (i : Nat) (s : Session) (id : String) (g : Int64) : Client → Prop
  | known (htracked : (c.progress.engine.get? (.group g)).isSome) :
    Follow c i s id g (c.finish id .done)
  | refused (huntracked : c.progress.engine.get? (.group g) = none)
    (hready : c.handleState s ≠ .ready) :
    Follow c i s id g ((c.tracking g).finish id (.failed .notReady))
  | started (huntracked : c.progress.engine.get? (.group g) = none)
    (hready : c.handleState s = .ready) :
    Follow c i s id g
      ((c.tracking g).addCall i id .nothing (.offering (.asking g c.calls.length)))

lemma follow_trackGroup (hhandle : c.handle? i = some (s, holder)) (id : String) (g : Int64)
    (n : Nat) : c.Follow i s id g (c.play ⟨.trackGroup i id g, n⟩) := by
  have hplay : c.play ⟨.trackGroup i id g, n⟩ = c.trackGroup i s id g := by
    simp only [play, move, hhandle]
  have hafter : c.progress.engine.after (.track g) = (c.progress.engine.trackGroup g).1 := rfl
  have htracked : c.progress.engine.groups.contains g =
      (c.progress.engine.get? (.group g)).isSome := rfl
  rw [hplay, trackGroup]
  cases hget : c.progress.engine.get? (.group g) with
  | some state =>
    have hknown : c.progress.engine.trackGroup g = (c.progress.engine, none) := by
      rw [Engine.trackGroup, htracked, hget]
      rfl
    rw [hknown]
    exact .known (by rw [hget]; rfl)
  | none =>
    have hasks : c.progress.engine.trackGroup g =
        (c.progress.engine.after (.track g), some ((Scope.group g).request 0)) := by
      rw [hafter, Engine.trackGroup, htracked, hget]
      rfl
    rw [hasks]
    change c.Follow i s id g ((c.tracking g).send i s id .nothing _ 0)
    rw [send]
    split
    · rename_i hready
      exact .started hget hready
    · rename_i hready
      exact .refused hget hready

/-- A call that starts in a turn comes to its end: at once, or in the turns after it as the next of
the calls that run in the background. -/
inductive Returns (c : Client) (t : Turn) (after : List Turn) (outcome : Outcome) : Prop
  | atOnce (name : String) (time : Nat)
    (hresults : (c.play t).results = c.results ++ [⟨name, outcome, time⟩])
  | later (hcalls : (c.play t).calls.length = c.calls.length + 1)
    (hanswer : (c.calls.length, outcome) ∈ (Journal.ofTurns c (t :: after)).answers)

/-- What an attempt to follow a group leaves behind when it fails. -/
structure Lingers (c : Client) (t : Turn) (g : Int64) : Prop where
  untracked : c.progress.engine.get? (.group g) = none
  tracked : ∀ scope, (c.play t).progress.engine.get? scope =
    if scope = .group g then some { key := 0, window := .requested }
    else c.progress.engine.get? scope
  unqueued : ∀ j, (Journal.ofTurns c [t]).queued j = []
  uncalled : ∀ i id s holder, t.move = .trackGroup i id g → c.handle? i = some (s, holder) →
    c.handleState s ≠ .ready → (c.play t).calls = c.calls
  /-- Until all windows are forgotten or the server ends one of the group, the group stays one that
  has been asked for, and the engine does not ask for it. -/
  unasked : ∀ later, (∀ op ∈ (c.play t).opsOf later, op.frees (.group g) = false) →
    Engine.Busy (((c.play t).playAll later).progress.engine.get? (.group g)) ∧
      ((c.play t).progress.engine.said ((c.play t).opsOf later)).filterMap
        (·.keyOf? .request (.group g)) = []
  /-- Whenever and on whatever connection the application tries again, it is told that all is done,
  and nothing else happens. -/
  retried : ∀ later j id n, (((c.play t).playAll later).handle? j).isSome →
    ((c.play t).playAll later).play ⟨.trackGroup j id g, n⟩ =
      ((c.play t).playAll later).finish id .done

/-- An attempt fails only for a group that was not tracked, and the engine has been told of the
group when it does. -/
lemma play_of_failed {e : Error} (h : c.Returns ⟨.trackGroup i id g, n⟩ after (.failed e)) :
    ∃ s holder, c.handle? i = some (s, holder) ∧ c.progress.engine.get? (.group g) = none ∧
      (c.play ⟨.trackGroup i id g, n⟩).progress = (c.tracking g).progress ∧
      (c.play ⟨.trackGroup i id g, n⟩).connections = c.connections ∧
      (c.handleState s ≠ .ready → (c.play ⟨.trackGroup i id g, n⟩).calls = c.calls) := by
  have hends : (∃ name time, (c.play ⟨.trackGroup i id g, n⟩).results =
      c.results ++ [⟨name, .failed e, time⟩]) ∨
      (c.play ⟨.trackGroup i id g, n⟩).calls.length = c.calls.length + 1 := by
    cases h with
    | atOnce name time hresults => exact .inl ⟨name, time, hresults⟩
    | later hcalls hanswer => exact .inr hcalls
  cases hhandle : c.handle? i with
  | none =>
    have hsame : c.play ⟨.trackGroup i id g, n⟩ = c := by simp only [play, move, hhandle]
    simp [hsame] at hends
  | some found =>
    obtain ⟨s, holder⟩ := found
    have hfollow := follow_trackGroup hhandle id g n
    generalize c.play ⟨.trackGroup i id g, n⟩ = c' at hfollow hends
    cases hfollow with
    | known htracked => simp [finish] at hends
    | refused huntracked hready =>
      exact ⟨s, holder, rfl, huntracked, rfl, rfl, fun _ => rfl⟩
    | started huntracked hready =>
      exact ⟨s, holder, rfl, huntracked, rfl, rfl, fun hnot => absurd hready hnot⟩

lemma play_trackGroup_of_isSome (htracked : (c.progress.engine.get? (.group g)).isSome)
    (hhandle : (c.handle? i).isSome) (id : String) (n : Nat) :
    c.play ⟨.trackGroup i id g, n⟩ = c.finish id .done := by
  obtain ⟨⟨s, holder⟩, hhandle⟩ := Option.isSome_iff_exists.mp hhandle
  have hfollow := follow_trackGroup hhandle id g n
  generalize c.play ⟨.trackGroup i id g, n⟩ = c' at hfollow
  cases hfollow with
  | known htracked' => rfl
  | refused huntracked =>
    rw [huntracked] at htracked
    cases htracked
  | started huntracked =>
    rw [huntracked] at htracked
    cases htracked

/-- An attempt to follow a group that fails is not without effect: the group that was not tracked is
tracked from then on as one that has been asked for, without a request for it, and no later attempt
sends one. -/
theorem lingers_of_failed {e : Error} (h : c.Returns ⟨.trackGroup i id g, n⟩ after (.failed e)) :
    c.Lingers ⟨.trackGroup i id g, n⟩ g := by
  obtain ⟨s, holder, hhandle, huntracked, hprogress, hconnections, hcalls⟩ := play_of_failed h
  have hget (scope : Scope) : (c.play ⟨.trackGroup i id g, n⟩).progress.engine.get? scope =
      if scope = .group g then some { key := 0, window := .requested }
      else c.progress.engine.get? scope := by
    rw [hprogress]
    exact Engine.get?_after_track huntracked scope
  have hgroup := (hget (.group g)).trans (if_pos rfl)
  have hbusy : Engine.Busy ((c.play ⟨.trackGroup i id g, n⟩).progress.engine.get? (.group g)) :=
    ⟨_, hgroup, Window.noConfusion⟩
  refine ⟨huntracked, hget, fun j => ?_, ?_, fun later hfrees => ⟨?_, ?_⟩,
    fun later j id n hj => ?_⟩
  · have hphase : (c.play ⟨.trackGroup i id g, n⟩).phase? j = c.phase? j := by
      rw [phase?, phase?, hconnections]
    change [] ++ newly (c.phase? j) ((c.play ⟨.trackGroup i id g, n⟩).phase? j) = []
    rw [hphase, newly_self, List.append_nil]
  · rintro i' id' s' holder' ⟨⟩ hhandle' hready
    obtain ⟨rfl, rfl⟩ : s = s' ∧ holder = holder' := by simpa using hhandle.symm.trans hhandle'
    exact hcalls hready
  · rw [engine_playAll]
    exact Engine.busy_get?_run hfrees hbusy
  · exact Engine.busy_run hfrees hbusy
  · refine play_trackGroup_of_isSome ?_ hj id n
    rw [engine_playAll, Engine.isSome_get?_run, hgroup]
    exact .inl rfl

/-- One connection is over, and the next one is ready. -/
def superseded : Client := least.playAll (firsts Chronicle.succeeding)

/-- The connection that is over refuses the request for a group. -/
theorem lingers_of_superseded :
    superseded.Returns (.first (.trackGroup 0 "t" 7)) [] (.failed .notReady) ∧
      superseded.Lingers (.first (.trackGroup 0 "t" 7)) 7 :=
  have hreturns : superseded.Returns (.first (.trackGroup 0 "t" 7)) [] (.failed .notReady) :=
    .atOnce "t" 0 (by decide +kernel)
  ⟨hreturns, lingers_of_failed hreturns⟩

/-- A group is asked for on a connection that is over, which is refused, and then on the one that is
ready, which is said to be done. The group is left as one that has been asked for, and the request
for the direct inbox is the only one that was ever queued. -/
theorem unasked_of_superseded :
    let c := superseded.play (.first (.trackGroup 0 "t" 7))
    superseded.progress.engine.get? (.group 7) = none ∧
      c.results = superseded.results ++ [⟨"t", .failed .notReady, 0⟩] ∧
      c.progress.engine.get? (.group 7) = some { key := 0, window := .requested } ∧
      c.play (.first (.trackGroup 1 "u" 7)) = c.finish "u" .done ∧
      (Journal.ofTurns least (firsts (Chronicle.succeeding ++
        [.trackGroup 0 "t" 7, .trackGroup 1 "u" 7]))).queued 1 =
          [.own (Scope.direct.request 0)] := by
  refine ⟨by decide +kernel, by decide +kernel, by decide +kernel, ?_, by decide +kernel⟩
  exact play_trackGroup_of_isSome (by decide +kernel) (by decide +kernel) "u" 0

end Client

end Parley
