import SchedulerLearning.Proofs.RewardVisits
import SchedulerLearning.Proofs.SchedulerVisits

/-!
# The first writer wins

Workers race for the scheduler and for the rewards. Whatever the interleaving, an entry is made by
one of them, and none is changed or removed by the others, but for what is added to the rewards. A
visit that would make an entry without room for it panics instead, and changes nothing.
-/

namespace SchedulerLearning

/-- However any visits to a scheduler and to rewards interleave, with reads in between: an entry is
made by one visit, of as many choices as that visit asked for, and none is ever changed or removed,
but for the additions, which are all in the counters. Whoever has initialised a state finds its
entry, all visits can end, and one that ends without having initialised its state had no room for a
new entry, or made an addition out of range. -/
theorem first_writer_wins {α : Type} [Scalar α] {p : Scheduler α}
    {calls : List (State × Scheduler.Call α)}
    {now : Visits (Scheduler α) (Mixture α) (Scheduler.Call α) (Option Nat)}
    (steps : Scheduler.onDemand.LeadsTo (.start p calls) now)
    {r : Rewards} {additions : List (State × Rewards.Call)}
    {rewarded : Visits Rewards Tallies Rewards.Call Unit}
    (adds : Rewards.onDemand.LeadsTo (.start r additions) rewarded) :
    (p.FirstWins now ∧
      (∀ later, Scheduler.onDemand.LeadsTo now later → now.store.KeptIn later.store) ∧
      ∃ ended, Scheduler.onDemand.LeadsTo now ended ∧ ended.Over) ∧
    r.FirstWins rewarded ∧
      (∀ later, Rewards.onDemand.LeadsTo rewarded later → rewarded.store.SizedIn later.store ∧
        ∃ added, (Rewards.made later).Perm (Rewards.made rewarded ++ added) ∧
          rewarded.store.RaisedBy added later.store) ∧
      ∃ ended, Rewards.onDemand.LeadsTo rewarded ended ∧ ended.Over := by
  obtain ⟨-, -, -, kept⟩ := Scheduler.onDemand_stable.from_start Scheduler.onDemand_lawful steps
  obtain ⟨counted, -, -, sized⟩ := Rewards.onDemand_stable.from_start Rewards.onDemand_lawful adds
  refine ⟨⟨Scheduler.firstWins steps, kept, OnDemand.ends now⟩, Rewards.firstWins adds, ?_,
    OnDemand.ends rewarded⟩
  exact fun later further => ⟨sized later further, Rewards.raisedBy_of_leadsTo counted further⟩

-- Two workers that both find a state unknown before either enters it.
namespace Encounter

def state : State := .ofVars []

def choosing : Scheduler.Call Float := .choose 3 0.5

def adding : Rewards.Call := .add 3 1 true 5

theorem chosen : ∃ choice, Scheduler.onDemand.LeadsTo
    (.start .empty [(state, .initialise 2), (state, choosing)])
    ⟨⟨(Scheduler.empty : Scheduler Float).states.insert state (.uniform 2)⟩,
      [⟨state, .initialise 2, .returned true none⟩, ⟨state, choosing, .returned false choice⟩], []⟩ := by
  have absent : (Scheduler.empty : Scheduler Float).get? state = none := Std.HashMap.getElem?_empty
  have unknown : (Scheduler.empty : Scheduler Float).contains state = false := by
    rw [Scheduler.contains_eq, absent, Option.isSome_none]
  have entered := Scheduler.initialise_of_unknown absent 2
  rw [if_neg (by decide)] at entered
  exact ⟨_, Scheduler.onDemand_lawful.leadsTo_of_tie unknown entered rfl rfl⟩

theorem added : ∃ r, Rewards.onDemand.LeadsTo (.start .empty [(state, adding), (state, .initialise 2)])
    ⟨r, [⟨state, adding, .returned true ()⟩, ⟨state, .initialise 2, .returned false ()⟩], []⟩ := by
  have absent : Rewards.empty.states[state]? = none := Std.HashMap.getElem?_empty
  have unknown : Rewards.empty.contains state = false := Rewards.contains_eq_false.mpr absent
  have entered := Rewards.initialise_of_unknown absent 3
  rw [if_neg (by decide)] at entered
  have credited := Rewards.credit_of_known (r := ⟨Rewards.empty.states.insert state (.ofCount 3)⟩)
    (c := ⟨state, 3, 1, true, 5⟩) Std.HashMap.getElem?_insert_self
  rw [if_pos (by decide)] at credited
  exact ⟨_, Rewards.onDemand_lawful.leadsTo_of_tie unknown entered credited rfl⟩

end Encounter

/-- The choice is the one of the entry that was made, of two choices, and the late initialisation
leaves the counters alone. -/
theorem first_writer_wins_of_encounter :
    (∃ now, Scheduler.onDemand.LeadsTo
        (.start .empty [(Encounter.state, .initialise 2), (Encounter.state, Encounter.choosing)]) now ∧
      ⟨Encounter.state, Encounter.choosing, .returned false (some ((Mixture.uniform 2).sample 0.5))⟩ ∈
        now.visits) ∧
    ∃ rewarded, Rewards.onDemand.LeadsTo
        (.start .empty [(Encounter.state, Encounter.adding), (Encounter.state, .initialise 2)]) rewarded ∧
      rewarded.Over ∧ (∃ ts, rewarded.store.states[Encounter.state]? = some ts ∧ ts.length = 3) ∧
      rewarded.store.counter Encounter.state 1 true = 5 := by
  obtain ⟨choice, steps⟩ := Encounter.chosen
  obtain ⟨r, adds⟩ := Encounter.added
  obtain ⟨⟨scheduled, -⟩, rewarded, -⟩ := first_writer_wins steps adds
  constructor
  · have first := (scheduled.visits _ (.head _)).created rfl
    obtain ⟨mixture, known, rfl⟩ := (scheduled.visits _ (.tail _ (.head _))).chosen _ _ _ _ rfl rfl
    cases first.symm.trans known
    exact ⟨_, steps, .tail _ (.head _)⟩
  · refine ⟨_, adds, by simp [Visits.Over, Standing.cost], (rewarded.visits _ (.head _)).created rfl, ?_⟩
    have raised := rewarded.counters Encounter.state 1 true
    rw [Rewards.counter_of_unknown (r := .empty) Std.HashMap.getElem?_empty] at raised
    exact raised

/-- So many choices that their probabilities, or their counters, cannot be addressed together: the
only call for a state is over, it has not entered the state, and the state is unknown. -/
theorem nobody_wins_without_room :
    (∃ now, Scheduler.onDemand.LeadsTo
        (.start (.empty : Scheduler Float) [(Encounter.state, .initialise (2 ^ 60))]) now ∧
      now.Over ∧ now.creators Encounter.state = [] ∧ now.store.contains Encounter.state = false) ∧
    ∃ rewarded, Rewards.onDemand.LeadsTo
        (.start .empty [(Encounter.state, .initialise (2 ^ 59))]) rewarded ∧
      rewarded.Over ∧ rewarded.creators Encounter.state = [] ∧
      rewarded.store.contains Encounter.state = false := by
  constructor
  · have absent : (Scheduler.empty : Scheduler Float).get? Encounter.state = none :=
      Std.HashMap.getElem?_empty
    have unknown : (Scheduler.empty : Scheduler Float).contains Encounter.state = false := by
      rw [Scheduler.contains_eq, absent, Option.isSome_none]
    have refused := Scheduler.initialise_of_unknown absent (2 ^ 60)
    rw [if_pos (by decide)] at refused
    exact ⟨_, OnDemand.leadsTo_of_refusal unknown refused, by simp [Visits.Over, Standing.cost],
      by simp [Visits.creators, Visit.entered, Standing.created], unknown⟩
  · have absent : Rewards.empty.states[Encounter.state]? = none := Std.HashMap.getElem?_empty
    have unknown : Rewards.empty.contains Encounter.state = false := Rewards.contains_eq_false.mpr absent
    have refused := Rewards.initialise_of_unknown absent (2 ^ 59)
    rw [if_pos (by decide)] at refused
    exact ⟨_, OnDemand.leadsTo_of_refusal unknown refused, by simp [Visits.Over, Standing.cost],
      by simp [Visits.creators, Visit.entered, Standing.created], unknown⟩

end SchedulerLearning
