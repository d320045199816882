import SchedulerLearning.Proofs.BlockDelivery
import SchedulerLearning.Proofs.RewardTotals
import SchedulerLearning.Proofs.UpdateOrder

/-!
# Workers race for the rewards

Several workers add to the rewards, each addition cut into the look-up of a state and, where that
misses, the entry. Whatever the interleaving, the rewards are the totals of all additions, and an
update makes the same of them in every order.
-/

namespace SchedulerLearning

-- ---------------------------------------------------------------------------
-- Results
-- ---------------------------------------------------------------------------

def Attribution.owed (a : Attribution) (r : Result) : List Credit :=
  a.credits r.trace.steps.toList r.verdict

/-- Whether states have one number of choices in all results, and every choice is among them. -/
structure Result.Consistent (results : List Result) : Prop where
  inRange : ∀ r ∈ results, ∀ step ∈ r.trace.steps.toList, step.choice < step.offered
  offered : ∀ r ∈ results, ∀ step ∈ r.trace.steps.toList, ∀ r' ∈ results,
    ∀ step' ∈ r'.trace.steps.toList, step.state = step'.state → step.offered = step'.offered

theorem Result.Consistent.agree {results : List Result} (h : Consistent results) (a : Attribution) :
    Credit.Agree (results.flatMap a.owed) := by
  constructor
  · intro c hc
    obtain ⟨r, hr, hc⟩ := List.mem_flatMap.mp hc
    obtain ⟨step, there, -, offered, choice, -⟩ := Attribution.mem_credits hc
    rw [offered, choice]
    exact h.inRange r hr step there
  · intro c hc d hd same
    obtain ⟨r, hr, hc⟩ := List.mem_flatMap.mp hc
    obtain ⟨r', hr', hd⟩ := List.mem_flatMap.mp hd
    obtain ⟨step, there, state, offered, -⟩ := Attribution.mem_credits hc
    obtain ⟨step', there', state', offered', -⟩ := Attribution.mem_credits hd
    rw [offered, offered']
    exact h.offered r hr step there r' hr' step' there' (by rw [← state, ← state', same])

-- ---------------------------------------------------------------------------
-- Races
-- ---------------------------------------------------------------------------

/-- A worker that adds: its credits left, and whether the first one's state was looked up and
missed. -/
structure Adder where
  credits : List Credit
  missed : Bool

/-- A look-up that finds the state adds at once; one that misses is followed by the entry, which
leaves alone what others have entered since and is refused if there is no room, and the addition. -/
def Adder.step (r : Rewards) (a : Adder) : Rewards × Except Fault Adder :=
  match a.credits with
  | [] => (r, .ok a)
  | c :: rest =>
    if a.missed || r.contains c.state then
      match r.creditWithRoom c with
      | (r, .ok ()) => (r, .ok ⟨rest, false⟩)
      | (r, .error fault) => (r, .error fault)
    else (r, .ok ⟨c :: rest, true⟩)

def Adder.cost (a : Adder) : Nat := 2 * a.credits.length + if a.missed then 0 else 1

/-- This is what a worker of the pool does with the credits of a result. What a step offered is a list,
so there is room for its counters. -/
theorem Worker.deliver_eq_step (setup : Setup) (shared : Shared) (w : Worker) {holding : Holding}
    {c : Credit} {rest : List Credit} {missed : Bool} {verdict : Verdict}
    (sink : holding.batch.sink = .rewards) (room : c.offered ≤ Room.most 16) :
    w.deliver setup shared holding (c :: rest) missed verdict =
      match Adder.step shared.rewards ⟨c :: rest, missed⟩ with
      | (rewards, .ok a) => ({ shared with rewards },
          { w with phase := .delivering holding a.credits a.missed verdict })
      | (rewards, .error fault) => ({ shared with rewards },
          { w with phase := .failing holding (failureOf (.faulted fault)) }) := by
  have same : shared.rewards.creditWithRoom c = shared.rewards.credit c :=
    Rewards.creditWithRoom_of_room fun crowded => Nat.not_lt.mpr room crowded.2
  simp only [Worker.deliver, sink, Adder.step, Shared.credit, same]
  split
  · cases h : shared.rewards.credit c with
    | mk rewards credited => cases credited <;> rfl
  · rfl

structure Race where
  rewards : Rewards
  adders : List Adder

namespace Race

variable {race race' : Race} {all credits rest : List Credit} {attribution : Attribution}
  {work : List (List Result)} {results : List Result} {place : Nat} {c : Credit} {missed : Bool}

def start (attribution : Attribution) (work : List (List Result)) : Race :=
  ⟨.empty, work.map fun results => ⟨results.flatMap attribution.owed, false⟩⟩

inductive Step (race : Race) : Race → Prop
  | mk {a rewards a'} (place : Nat) (there : race.adders[place]? = some a) (left : a.credits ≠ [])
      (step : a.step race.rewards = (rewards, .ok a')) : Step race ⟨rewards, race.adders.set place a'⟩

abbrev LeadsTo : Race → Race → Prop := Relation.ReflTransGen Step

def Over (race : Race) : Prop := ∀ a ∈ race.adders, a.credits = []

/-- What is added and what is left to add make up all credits, and there was room for what is added. -/
def Accounts (all : List Credit) (race : Race) : Prop :=
  ∃ made : List Credit, race.rewards.Holds made ∧ (∀ c ∈ made, c.offered ≤ Room.most 16) ∧
    (made : Multiset Credit) + (race.adders.map fun a => (a.credits : Multiset Credit)).sum = all

def cost (race : Race) : Nat := (race.adders.map Adder.cost).sum

-- ---------------------------------------------------------------------------
-- One step
-- ---------------------------------------------------------------------------

theorem Accounts.pending (h : race.Accounts all) (there : race.adders[place]? = some ⟨c :: rest, missed⟩) :
    ∃ made : List Credit, race.rewards.Holds made ∧ (∀ d ∈ made, d.offered ≤ Room.most 16) ∧
      made ++ [c] ⊆ all ∧
      (made : Multiset Credit) + {c} + ((race.adders.set place ⟨rest, false⟩).map
        fun a => (a.credits : Multiset Credit)).sum = all := by
  obtain ⟨made, holds, room, total⟩ := h
  have balance : (made : Multiset Credit) + {c} +
      ((race.adders.set place ⟨rest, false⟩).map fun a => (a.credits : Multiset Credit)).sum =
        all + 0 :=
    settle_set there total (by simp [← Multiset.cons_coe, Multiset.singleton_add])
  rw [add_zero] at balance
  refine ⟨made, holds, room, fun d hd => ?_, balance⟩
  rw [← Multiset.mem_coe, ← balance]
  exact Multiset.mem_add.mpr (.inl (by simpa using hd))

theorem Accounts.mem (h : race.Accounts all) (there : race.adders[place]? = some ⟨c :: rest, missed⟩) :
    c ∈ all := by
  obtain ⟨made, -, -, part, -⟩ := h.pending there
  exact part (by simp)

theorem Accounts.credit (h : race.Accounts all) (agree : Credit.Agree all)
    (there : race.adders[place]? = some ⟨c :: rest, missed⟩) (room : c.offered ≤ Room.most 16) :
    ∃ rewards, race.rewards.creditWithRoom c = (rewards, .ok ()) ∧
      Accounts all ⟨rewards, race.adders.set place ⟨rest, false⟩⟩ := by
  obtain ⟨made, holds, before, part, balance⟩ := h.pending there
  obtain ⟨rewards, credited, holds'⟩ := holds.creditWithRoom (agree.mono part) room
  refine ⟨rewards, credited, made ++ [c], holds', ?_, by simpa [← Multiset.coe_add] using balance⟩
  simpa [or_imp, forall_and, room] using before

/-- A state without room is not entered by others, as it has as many choices in their results. -/
theorem Accounts.crowded (h : race.Accounts all) (agree : Credit.Agree all)
    (there : race.adders[place]? = some ⟨c :: rest, missed⟩) (many : Room.most 16 < c.offered) :
    race.rewards.Crowded c.state c.offered := by
  obtain ⟨made, holds, room, part, -⟩ := h.pending there
  refine ⟨holds.others c.state fun d hd same => ?_, many⟩
  have alike := agree.offered d (part (by simp [hd])) c (part (by simp)) same
  exact absurd (alike ▸ room d hd) (Nat.not_le.mpr many)

theorem Accounts.miss (h : race.Accounts all) (there : race.adders[place]? = some ⟨credits, missed⟩) :
    Accounts all ⟨race.rewards, race.adders.set place ⟨credits, true⟩⟩ := by
  obtain ⟨made, holds, room, total⟩ := h
  refine ⟨made, holds, room, ?_⟩
  have balance : (made : Multiset Credit) + 0 +
      ((race.adders.set place ⟨credits, true⟩).map fun a => (a.credits : Multiset Credit)).sum =
        all + 0 :=
    settle_set there total (by simp)
  simpa using balance

theorem Accounts.step (h : race.Accounts all) (agree : Credit.Agree all)
    (there : race.adders[place]? = some ⟨c :: rest, missed⟩)
    (room : c.offered ≤ Room.most 16 ∨ missed = false) :
    ∃ rewards a', Adder.step race.rewards ⟨c :: rest, missed⟩ = (rewards, .ok a') ∧
      Accounts all ⟨rewards, race.adders.set place a'⟩ ∧
      cost ⟨rewards, race.adders.set place a'⟩ < race.cost := by
  have paid := fun a' => sum_map_set Adder.cost there a'
  cases found : missed || race.rewards.contains c.state with
  | true =>
    have room : c.offered ≤ Room.most 16 := by
      by_contra many
      obtain rfl := room.resolve_left many
      have unknown := (h.crowded agree there (Nat.lt_of_not_le many)).1
      rw [Bool.false_or, Rewards.contains_eq, unknown] at found
      cases found
    obtain ⟨rewards, credited, account⟩ := h.credit agree there room
    refine ⟨rewards, ⟨rest, false⟩, by simp [Adder.step, found, credited], account, ?_⟩
    have paid := paid ⟨rest, false⟩
    simp only [Adder.cost, List.length_cons, Bool.false_eq_true, if_false] at paid
    simp only [cost]
    split at paid <;> omega
  | false =>
    obtain ⟨rfl, -⟩ := Bool.or_eq_false_iff.mp found
    refine ⟨race.rewards, ⟨c :: rest, true⟩, by simp [Adder.step, found], h.miss there, ?_⟩
    have paid := paid ⟨c :: rest, true⟩
    simp only [Adder.cost, Bool.false_eq_true, if_false, if_true] at paid
    simp only [cost]
    omega

theorem Accounts.refused (h : race.Accounts all) (agree : Credit.Agree all)
    (there : race.adders[place]? = some ⟨c :: rest, true⟩) (many : Room.most 16 < c.offered) :
    Adder.step race.rewards ⟨c :: rest, true⟩ = (race.rewards, .error .capacity) := by
  simp [Adder.step, Rewards.creditWithRoom_of_crowded (h.crowded agree there many)]

-- ---------------------------------------------------------------------------
-- Any number of steps
-- ---------------------------------------------------------------------------

theorem Accounts.leadsTo (h : race.Accounts all) (agree : Credit.Agree all)
    (steps : race.LeadsTo race') : race'.Accounts all := by
  induction steps with
  | refl => exact h
  | tail _ step ih =>
    obtain @⟨⟨credits, missed⟩, _, _, place, there, left, step⟩ := step
    obtain _ | ⟨c, rest⟩ := credits
    · contradiction
    · by_cases room : c.offered ≤ Room.most 16 ∨ missed = false
      · obtain ⟨_, _, step', account, -⟩ := ih.step agree there room
        rw [step] at step'
        cases step'
        exact account
      · obtain ⟨many, looked⟩ := not_or.mp room
        obtain rfl : missed = true := by simpa using looked
        rw [ih.refused agree there (Nat.lt_of_not_le many)] at step
        cases step

theorem Accounts.ends (h : race.Accounts all) (agree : Credit.Agree all)
    (room : ∀ c ∈ all, c.offered ≤ Room.most 16) : ∃ ended, race.LeadsTo ended ∧ ended.Over := by
  induction cost : race.cost using Nat.strong_induction_on generalizing race with
  | _ n ih =>
    by_cases quiet : race.Over
    · exact ⟨race, .refl, quiet⟩
    · obtain ⟨⟨_ | ⟨c, rest⟩, missed⟩, present, left⟩ : ∃ a ∈ race.adders, a.credits ≠ [] := by
        simpa [Over] using quiet
      · contradiction
      · obtain ⟨place, there⟩ := List.mem_iff_getElem?.mp present
        obtain ⟨rewards, a', step, account, less⟩ := h.step agree there (.inl (room c (h.mem there)))
        obtain ⟨ended, steps, quiet⟩ := ih _ (cost ▸ less) account rfl
        exact ⟨ended, .head (.mk place there left step) steps, quiet⟩

theorem Accounts.holds (h : race.Accounts all) (quiet : race.Over) :
    race.rewards.Holds all ∧ ∀ c ∈ all, c.offered ≤ Room.most 16 := by
  obtain ⟨made, holds, room, total⟩ := h
  have none : (race.adders.map fun a => (a.credits : Multiset Credit)).sum = 0 :=
    sum_map_eq_zero fun a ha => by simp [quiet a ha]
  rw [none, add_zero] at total
  have same : made.Perm all := Multiset.coe_eq_coe.mp total
  exact ⟨holds.perm same, fun c hc => room c (same.mem_iff.mpr hc)⟩

end Race

-- ---------------------------------------------------------------------------
-- The outcome
-- ---------------------------------------------------------------------------

/-- Whether two stores have the same counters, and lead to the same update, in whatever order it
visits the states of each. -/
structure Rewards.Alike (r r' : Rewards) : Prop where
  counters : ∀ s : State, r.states[s]? = r'.states[s]?
  updates : ∀ {α : Type} [Scalar α] (rule : UpdateRule) (w : UpdateWeights α) (p : Scheduler α)
    {entries entries' : List (State × Tallies)}, entries.Perm r.states.toList →
    entries'.Perm r'.states.toList →
    (∀ s, (Scheduler.updateEach rule w p entries).scheduler.get? s =
      (Scheduler.updateEach rule w p entries').scheduler.get? s) ∧
    (Scheduler.updateEach rule w p entries).changed =
      (Scheduler.updateEach rule w p entries').changed ∧
    (Scheduler.updateEach rule w p entries).fault.isSome =
      (Scheduler.updateEach rule w p entries').fault.isSome

theorem Rewards.Holds.alike {r r' : Rewards} {cs : List Credit} (h : r.Holds cs) (h' : r'.Holds cs) :
    r.Alike r' where
  counters := h.unique h'
  updates := by
    intro α _ rule w p entries entries' listed listed'
    have same : r.states.toList.Perm r'.states.toList :=
      (Std.HashMap.Equiv.of_forall_getElem?_eq (h.unique h')).toList_perm
    refine Scheduler.updateEach_perm ?_ (listed.trans (same.trans listed'.symm))
    exact (listed.map Prod.fst).nodup_iff.mpr r.nodup_states

/-- However the workers of a session shared a block, its rewards are those of its traces. -/
theorem Account.Complete.holds {a : Account} {s : Session} (h : a.Complete s)
    (consistent : Result.Consistent a.simulated) :
    s.shared.rewards.Holds (a.simulated.flatMap s.setup.attribution.owed) := by
  have agree : Credit.Agree a.credited :=
    (consistent.agree s.setup.attribution).mono h.credited.subset
  obtain ⟨r, credited, holds⟩ := Rewards.Holds.empty.creditAll agree
  cases credited.symm.trans h.rewards
  exact holds.perm h.credited

-- Two workers that both find a state unknown before either enters it.
namespace Tie

def state : State := .ofVars []

def results : List Result :=
  [⟨⟨#[⟨state, 0, 2⟩], state⟩, ⟨true, 1⟩⟩, ⟨⟨#[⟨state, 1, 2⟩], state⟩, ⟨false, 1⟩⟩]

def first : Credit := ⟨state, 2, 0, true, 1⟩

def second : Credit := ⟨state, 2, 1, false, 1⟩

theorem consistent : Result.Consistent results := by
  constructor <;> simp [results]

end Tie

-- One result, of a step among more choices than there can be counters for.
namespace Crowd

def state : State := .ofVars [0]

def results : List Result := [⟨⟨#[⟨state, 0, 0x800000000000000⟩], state⟩, ⟨true, 1⟩⟩]

end Crowd

end SchedulerLearning
