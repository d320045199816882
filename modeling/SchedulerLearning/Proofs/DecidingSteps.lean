import SchedulerLearning.Proofs.RewardTotals
import Mathlib.Algebra.BigOperators.Group.Finset.Basic

/-!
# Which steps are rewarded

The verdict on a trace goes to the choices of its deciding steps, as many as it says or all there
are. A choice is rewarded for every time it was taken among several, by the place of the step among
the deciding ones. Nothing else changes, but that states with a rewarded choice become known. If
there is no room for their counters, the steps before keep their rewards.
-/

namespace SchedulerLearning

namespace Attribution

def deciding (steps : List Step) (verdict : Verdict) : Nat := min verdict.relevant steps.length

def worth (a : Attribution) (satisfied : Bool) (deciding i : Nat) : Nat :=
  match a with
  | .uniform => 1
  | .lastAction w =>
    if i + 1 = deciding then (if satisfied then w.lastSatisfied else w.lastFailed)
    else if satisfied then w.pathSatisfied else w.pathFailed
  | .decay start => max 1 (start - (deciding - 1 - i))

/-- Whether step `i` is one in the state that takes the choice, among several. -/
def takes (steps : List Step) (s : State) (choice i : Nat) : Bool :=
  steps[i]?.any fun step => step.state == s && step.choice == choice && 2 ≤ step.offered

def earned (a : Attribution) (steps : List Step) (verdict : Verdict) (first : Nat) (s : State)
    (choice : Nat) : Nat :=
  ∑ i ∈ Finset.range first with takes steps s choice i,
    a.worth verdict.satisfied (deciding steps verdict) i

/-- Whether rewards have become others by the verdict on the first of the deciding steps. -/
structure Rewarded (a : Attribution) (steps : List Step) (verdict : Verdict) (first : Nat)
    (r r' : Rewards) : Prop where
  credited : ∀ s choice, r'.counter s choice verdict.satisfied =
    r.counter s choice verdict.satisfied + .ofNat (a.earned steps verdict first s choice)
  opposite : ∀ s choice, r'.counter s choice (!verdict.satisfied) = r.counter s choice (!verdict.satisfied)
  known : ∀ s, r'.contains s ↔ r.contains s ∨ ∃ step ∈ steps.take first, 2 ≤ step.offered ∧ step.state = s
  entries : ∀ step ∈ steps.take first, 2 ≤ step.offered →
    ∃ ts, r'.states[step.state]? = some ts ∧ ts.length = step.offered
  others : ∀ s : State, (∀ step ∈ steps.take first, 2 ≤ step.offered → step.state ≠ s) →
    r'.states[s]? = r.states[s]?

end Attribution

/-- Whether steps take choices that are there, and agree with each other and with the counters of
their states on how many there are. -/
structure Rewards.Suit (r : Rewards) (steps : List Step) : Prop where
  inRange : ∀ step ∈ steps, step.choice < step.offered
  agree : ∀ step ∈ steps, ∀ other ∈ steps, step.state = other.state → step.offered = other.offered
  known : ∀ step ∈ steps, ∀ ts, r.states[step.state]? = some ts → ts.length = step.offered

namespace Attribution

variable {a : Attribution} {steps : List Step} {verdict : Verdict} {r r' : Rewards} {s : State}
  {c : Credit} {choice first i k : Nat} {side : Bool}

-- ---------------------------------------------------------------------------
-- Credits step by step
-- ---------------------------------------------------------------------------

def creditsOf (a : Attribution) (steps : List Step) (verdict : Verdict) (first : Nat) : List Credit :=
  (steps.take first).zipIdx.filterMap fun (step, i) =>
    a.credit? verdict.satisfied step (deciding steps verdict - 1 - i)

theorem reverse_zipIdx_reverse {τ : Type} (xs : List τ) :
    xs.reverse.zipIdx.reverse = xs.zipIdx.map fun (x, i) => (x, xs.length - 1 - i) := by
  refine List.ext_getElem (by simp) fun i _ inside => ?_
  have inside : i < xs.length := by simpa using inside
  have twice : xs.length - 1 - (xs.length - 1 - i) = i := by omega
  simp [twice]

theorem credits_eq : a.credits steps verdict = a.creditsOf steps verdict (deciding steps verdict) := by
  have taken : steps.take verdict.relevant = steps.take (deciding steps verdict) := by
    rw [deciding, ← List.take_eq_take_min]
  have length : (steps.take (deciding steps verdict)).length = deciding steps verdict := by
    simp [deciding]
  unfold credits creditsOf
  simp only
  rw [← List.filterMap_reverse, taken, reverse_zipIdx_reverse, List.filterMap_map, length]
  rfl

theorem creditsOf_succ (inside : i < steps.length) : a.creditsOf steps verdict (i + 1) =
    a.creditsOf steps verdict i ++
      (a.credit? verdict.satisfied steps[i] (deciding steps verdict - 1 - i)).toList := by
  have place : (steps.take i).length = i := List.length_take_of_le (Nat.le_of_lt inside)
  rw [creditsOf, List.take_succ_eq_append_getElem inside, List.zipIdx_append, List.filterMap_append, place]
  cases credited : a.credit? verdict.satisfied steps[i] (deciding steps verdict - 1 - i) <;>
    simp [creditsOf, credited]

theorem creditsOf_isPrefix (a : Attribution) (steps : List Step) (verdict : Verdict) (less : first ≤ k) :
    a.creditsOf steps verdict first <+: a.creditsOf steps verdict k := by
  obtain ⟨more, rfl⟩ := Nat.exists_eq_add_of_le less
  unfold creditsOf
  rw [List.take_add, List.zipIdx_append, List.filterMap_append]
  exact List.prefix_append _ _

theorem mem_creditsOf (there : c ∈ a.creditsOf steps verdict first) :
    ∃ step ∈ steps.take first, 2 ≤ step.offered ∧ c.state = step.state ∧ c.offered = step.offered ∧
      c.choice = step.choice := by
  obtain ⟨⟨step, i⟩, place, made⟩ := List.mem_filterMap.mp there
  obtain ⟨several, rfl⟩ := credit?_eq_some.mp made
  exact ⟨step, List.fst_mem_of_mem_zipIdx place, several, rfl, rfl, rfl⟩

theorem exists_mem_creditsOf {step : Step} (there : step ∈ steps.take first)
    (several : 2 ≤ step.offered) :
    ∃ c ∈ a.creditsOf steps verdict first, c.state = step.state ∧ c.offered = step.offered := by
  obtain ⟨i, place⟩ := List.mem_iff_getElem?.mp there
  have made : a.credit? verdict.satisfied step (deciding steps verdict - 1 - i) = some
      ⟨step.state, step.offered, step.choice, verdict.satisfied,
        a.magnitude (deciding steps verdict - 1 - i) verdict.satisfied⟩ :=
    credit?_eq_some.mpr ⟨several, rfl⟩
  exact ⟨_, List.mem_filterMap.mpr ⟨(step, i), List.mem_zipIdx_iff_getElem?.mpr place, made⟩, rfl, rfl⟩

-- ---------------------------------------------------------------------------
-- Amounts
-- ---------------------------------------------------------------------------

theorem magnitude_eq_worth {satisfied : Bool} {count : Nat} (inside : i < count) :
    a.magnitude (count - 1 - i) satisfied = a.worth satisfied count i := by
  cases a with
  | uniform => rfl
  | decay start => rfl
  | lastAction w =>
    by_cases last : i + 1 = count
    · have none : count - 1 - i = 0 := by omega
      cases satisfied <;> simp [magnitude, worth, last, none]
    · obtain ⟨back, more⟩ : ∃ back, count - 1 - i = back + 1 := ⟨count - 2 - i, by omega⟩
      cases satisfied <;> simp [magnitude, worth, last, more]

theorem earned_succ : a.earned steps verdict (i + 1) s choice = a.earned steps verdict i s choice +
    if takes steps s choice i then a.worth verdict.satisfied (deciding steps verdict) i else 0 := by
  simp only [earned, Finset.sum_filter, Finset.sum_range_succ]

theorem amountFor_creditsOf (side : Bool) (decided : first ≤ deciding steps verdict) :
    Credit.amountFor (a.creditsOf steps verdict first) s choice side =
      if side = verdict.satisfied then a.earned steps verdict first s choice else 0 := by
  induction first with
  | zero => simp [creditsOf, Credit.amountFor, earned]
  | succ i ih =>
    have inside : i < steps.length := Nat.lt_of_lt_of_le decided (Nat.min_le_right _ _)
    have ih := ih (Nat.le_of_lt decided)
    have place : steps[i]? = some steps[i] := List.getElem?_eq_getElem inside
    rw [creditsOf_succ inside, earned_succ]
    by_cases several : 2 ≤ steps[i].offered
    · have taken : takes steps s choice i = (steps[i].state == s && steps[i].choice == choice) := by
        simp [takes, place, several]
      rw [credit?_eq_some.mpr ⟨several, rfl⟩, Option.toList_some, Credit.amountFor_append_singleton, ih,
        magnitude_eq_worth decided, taken]
      by_cases same : side = verdict.satisfied
      · subst same
        rw [Credit.isFor, BEq.rfl, Bool.and_true, if_pos rfl, if_pos rfl]
      · simp [Credit.isFor, same, Ne.symm same]
    · have single : a.credit? verdict.satisfied steps[i] (deciding steps verdict - 1 - i) = none :=
        if_pos (Nat.not_le.mp several)
      simp [single, ih, takes, place, several]

-- ---------------------------------------------------------------------------
-- Rewards
-- ---------------------------------------------------------------------------

theorem admits_credits (suits : r.Suit steps) : r.Admits (a.credits steps verdict) where
  agree := by
    constructor
    · intro c there
      obtain ⟨step, there, -, offered, choice, -⟩ := mem_credits there
      rw [offered, choice]
      exact suits.inRange step there
    · intro c there d there' same
      obtain ⟨step, there, state, offered, -⟩ := mem_credits there
      obtain ⟨other, there', state', offered', -⟩ := mem_credits there'
      rw [offered, offered']
      exact suits.agree step there other there' (by rw [← state, ← state', same])
  known c there ts found := by
    obtain ⟨step, there, state, offered, -⟩ := mem_credits there
    rw [offered]
    exact suits.known step there ts (state ▸ found)

theorem room_of_steps (room : ∀ step ∈ steps.take first, ¬r.Crowded step.state step.offered) :
    ∀ c ∈ a.creditsOf steps verdict first, ¬r.Crowded c.state c.offered := by
  intro c there
  obtain ⟨step, there, -, state, offered, -⟩ := mem_creditsOf there
  rw [state, offered]
  exact room step there

theorem rewarded_of_growsBy (decided : first ≤ deciding steps verdict)
    (grown : r.GrowsBy (a.creditsOf steps verdict first) r') :
    a.Rewarded steps verdict first r r' where
  credited s choice := by rw [grown.counter, amountFor_creditsOf _ decided, if_pos rfl]
  opposite s choice := by
    rw [grown.counter, amountFor_creditsOf _ decided, if_neg (Bool.not_ne_self _)]
    exact UInt64.add_zero _
  known s := by
    rw [grown.contains_iff]
    refine or_congr_right ⟨?_, ?_⟩
    · rintro ⟨c, there, rfl⟩
      obtain ⟨step, there, several, state, -⟩ := mem_creditsOf there
      exact ⟨step, there, several, state.symm⟩
    · rintro ⟨step, there, several, rfl⟩
      obtain ⟨c, credited, state, -⟩ := exists_mem_creditsOf there several
      exact ⟨c, credited, state⟩
  entries step there several := by
    obtain ⟨c, credited, state, offered⟩ := exists_mem_creditsOf there several
    rw [← state, ← offered]
    exact grown.entered c credited
  others s absent := by
    refine grown.others s fun c there => ?_
    obtain ⟨step, there, several, state, -⟩ := mem_creditsOf there
    rw [state]
    exact absent step there several

/-- The verdict on a trace changes the counters of its own side, for the choices that its deciding
steps took among several. A worker makes all additions. Where room is asked for, they end at the first
step without any, and those before it stand. -/
theorem rewards_deciding_steps (a : Attribution) (verdict : Verdict) (suits : r.Suit steps) :
    (∃ r', r.creditAll (a.credits steps verdict) = (r', .ok ()) ∧
      a.Rewarded steps verdict (deciding steps verdict) r r') ∧
    ((∀ step ∈ steps.take (deciding steps verdict), ¬r.Crowded step.state step.offered) →
      ∃ r', r.creditAllWithRoom (a.credits steps verdict) = (r', .ok ()) ∧
        a.Rewarded steps verdict (deciding steps verdict) r r') ∧
    (∀ i step, i < deciding steps verdict → steps[i]? = some step → r.Crowded step.state step.offered →
      (∀ other ∈ steps.take i, ¬r.Crowded other.state other.offered) →
      ∃ r', r.creditAllWithRoom (a.credits steps verdict) = (r', .error .capacity) ∧
        a.Rewarded steps verdict i r r') ∧
    (deciding steps verdict = 0 → r.creditAllWithRoom (a.credits steps verdict) = (r, .ok ())) := by
  have admits : r.Admits (a.credits steps verdict) := admits_credits suits
  rw [credits_eq] at admits ⊢
  refine ⟨?_, ?_, ?_, ?_⟩
  · obtain ⟨r', made, grown⟩ := (Rewards.GrowsBy.refl r).creditAll admits
    exact ⟨r', made, rewarded_of_growsBy le_rfl grown⟩
  · intro room
    obtain ⟨r', made, grown⟩ := Rewards.creditAllWithRoom_grows admits (room_of_steps room)
    exact ⟨r', made, rewarded_of_growsBy le_rfl grown⟩
  · intro i step decided place crowded room
    obtain ⟨inside, rfl⟩ := List.getElem?_eq_some_iff.mp place
    have several : 2 ≤ steps[i].offered := (by decide : 2 ≤ Room.most 16).trans crowded.2.le
    obtain ⟨rest, whole⟩ := creditsOf_isPrefix a steps verdict (Nat.succ_le_of_lt decided)
    rw [creditsOf_succ inside, credit?_eq_some.mpr ⟨several, rfl⟩, Option.toList_some,
      List.append_assoc, List.singleton_append] at whole
    rw [← whole] at admits ⊢
    obtain ⟨r', stopped, grown⟩ := Rewards.creditAllWithRoom_crowded admits (room_of_steps room) crowded
    exact ⟨r', stopped, rewarded_of_growsBy decided.le grown⟩
  · intro none
    rw [none]
    rfl

-- A trace that comes back to a state, with a single choice between, where a counter is at its end.
namespace Revisit

def home : State := .ofVars [0]

def away : State := .ofVars [1]

def path : List Step := [⟨home, 1, 2⟩, ⟨away, 0, 1⟩, ⟨home, 1, 2⟩, ⟨home, 0, 2⟩]

def tallies : Tallies := [⟨0, 4⟩, ⟨0xffffffffffffffff, 5⟩]

def rewards : Rewards := ⟨(∅ : Std.HashMap State Tallies).insert home tallies⟩

theorem suit : rewards.Suit path := by
  constructor <;> simp [path, rewards, tallies, home, away, State.ofVars]

theorem counter_home (choice : Nat) (satisfied : Bool) :
    rewards.counter home choice satisfied = tallies.counter choice satisfied :=
  Rewards.counter_of_known (by simp [rewards])

end Revisit

theorem rewards_deciding_steps_of_revisit : Revisit.rewards.Suit Revisit.path ∧ ∃ r',
    Revisit.rewards.creditAllWithRoom (credits (.decay 3) Revisit.path ⟨true, 10⟩) = (r', .ok ()) ∧
      r'.counter Revisit.home 1 true = 2 ∧ r'.counter Revisit.home 0 true = 3 ∧
      r'.counter Revisit.home 1 false = 5 := by
  obtain ⟨-, roomy, -, -⟩ := rewards_deciding_steps (.decay 3) ⟨true, 10⟩ Revisit.suit
  have room : ∀ step ∈ Revisit.path, ¬Revisit.rewards.Crowded step.state step.offered := by
    intro step there crowded
    have few : ∀ step ∈ Revisit.path, step.offered ≤ Room.most 16 := by decide
    exact Nat.not_lt.mpr (few step there) crowded.2
  obtain ⟨r', made, rewarded⟩ := roomy room
  refine ⟨Revisit.suit, r', made, ?_, ?_, ?_⟩
  · rw [rewarded.credited, Revisit.counter_home]
    decide +kernel
  · rw [rewarded.credited, Revisit.counter_home]
    decide +kernel
  · exact (rewarded.opposite Revisit.home 1).trans (Revisit.counter_home 1 false)

/-- A step among more choices than there can be counters for is not rewarded. -/
theorem no_counters_for_vast_choice : ¬∀ (a : Attribution) (r : Rewards) (steps : List Step)
    (verdict : Verdict), r.Suit steps → ∃ r',
      r.creditAllWithRoom (a.credits steps verdict) = (r', .ok ()) ∧
        a.Rewarded steps verdict (deciding steps verdict) r r' := by
  intro always
  have suit : Rewards.empty.Suit [⟨.ofVars [0], 0, 0x800000000000000⟩] := by
    constructor <;> simp [Rewards.empty]
  obtain ⟨r', made, -⟩ := always .uniform .empty _ ⟨true, 1⟩ suit
  have refused : Rewards.empty.creditWithRoom ⟨.ofVars [0], 0x800000000000000, 0, true, 1⟩ =
      (.empty, .error .capacity) :=
    Rewards.creditWithRoom_of_crowded ⟨by simp [Rewards.empty], by decide⟩
  have stopped : Rewards.empty.creditAllWithRoom (credits .uniform
      [⟨.ofVars [0], 0, 0x800000000000000⟩] ⟨true, 1⟩) = (.empty, .error .capacity) := by
    change Rewards.addAll Rewards.creditWithRoom .empty [⟨.ofVars [0], 0x800000000000000, 0, true, 1⟩] = _
    rw [Rewards.addAll, refused]
  rw [stopped] at made
  cases made

end Attribution

end SchedulerLearning
