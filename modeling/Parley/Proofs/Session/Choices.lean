import Parley.Proofs.Session.Steps

/-!
# What the reading side can choose from

A reading side without duties waits for several things at once. When more than one of them has come,
it may take any; `Session.read?` takes the first in a fixed order. `Session.choices` lists all.
-/

namespace Parley.Session

def choices (s : Session) (p : Progress) (now : Nat) : List Step :=
  match s.stage with
  | .live [] =>
    (s.readFrame p now).toList ++ (s.keepAlive p now).toList ++
      (s.writeFault.map fun e => s.finish p (.failed e)).toList ++ (s.refill p).toList ++
      if s.closing then [s.finish p .closedByClient] else []
  | _ => (s.read? p now).toList

variable {s : Session} {p : Progress} {now : Nat} {step : Step}

theorem read?_eq_head? (s : Session) (p : Progress) (now : Nat) :
    s.read? p now = (s.choices p now).head? := by
  unfold choices
  split
  · rename_i hstage
    unfold read?
    rw [hstage]
    simp only [List.head?_append, Option.head?_toList, Option.orElse_eq_orElse,
      Option.orElse_eq_or, Option.or_assoc]
    cases s.closing <;> rfl
  · exact Option.head?_toList.symm

lemma mem_choices_of_read? (h : s.read? p now = some step) : step ∈ s.choices p now := by
  apply List.mem_of_mem_head?
  rw [← read?_eq_head?, h]
  rfl

/-- Whatever the reading side chooses, it does one of the things that it can do. -/
theorem heard_of_mem_choices (h : step ∈ s.choices p now) : s.Heard p now step := by
  unfold choices at h
  split at h
  · rename_i hstage
    simp only [List.mem_append, Option.mem_toList] at h
    rcases h with (((h | h) | h) | h) | h
    · exact heard_of_readFrame hstage h
    · exact heard_of_keepAlive hstage h
    · obtain ⟨e, hfault, rfl⟩ := Option.map_eq_some_iff.mp h
      exact .finished _ s.link _ hstage (by simp) (.writing e hfault)
    · exact heard_of_refill hstage h
    · split at h
      · rename_i hclosing
        obtain rfl := List.mem_singleton.mp h
        exact .finished _ s.link _ hstage (by simp) (.asked hclosing)
      · cases h
  · exact heard_of_read? (Option.mem_toList.mp h)

/-- The reading side of a session that has ended only hands out what is left of its events. -/
theorem Heard.of_ended (h : s.Heard p now step)
    (hstage : s.stage = .leaving ∨ s.stage = .gone) :
    step.progress = p ∧ step.ended = false ∧
      ∃ stage backlog channel, step.session = { s with stage, backlog, channel } ∧
        (stage = .leaving ∨ stage = .gone) := by
  have hlive (duties : List Duty) : s.stage ≠ .live duties := by
    rcases hstage with h | h <;> simp [h]
  cases h with
  | refilled ev backlog h hbacklog hroom =>
    exact ⟨rfl, rfl, s.stage, _, _, rfl, hstage⟩
  | left h hgone => exact ⟨rfl, rfl, _, _, s.channel, rfl, .inr rfl⟩
  | sent m rest outbox h hoffer => exact absurd h (hlive _)
  | lined m rest outbox h hoffer => exact absurd h (hlive _)
  | persisted scope key cursors rest h => exact absurd h (hlive _)
  | committed scope key persisted rest h => exact absurd h (hlive _)
  | handedOut duty ev rest backlog channel h hduty hput => exact absurd h (hlive _)
  | dispatched raw link h hnext => exact absurd h (hlive _)
  | pinged h hdue => exact absurd h (hlive _)
  | finished duties link reason h hduty hends => exact absurd h (hlive _)

end Parley.Session
