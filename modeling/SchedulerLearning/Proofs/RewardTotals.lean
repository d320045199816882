import SchedulerLearning.Proofs.RewardGrowth
import Mathlib.Algebra.GroupWithZero.Nat
import Mathlib.Algebra.Order.BigOperators.Group.List
import Mathlib.Algebra.Order.Group.Nat

/-!
# What the rewards hold

After any additions that agree on how many choices a state has, each counter holds the sum of the
amounts added to it, modulo the size of a word. The order of the additions is not in this.
-/

namespace SchedulerLearning

namespace Credit

variable {cs ds : List Credit} {s : State} {choice count : Nat} {satisfied : Bool}

/-- The counters of a state with `count` choices after all additions, modulo the size of a word. -/
def tallies (cs : List Credit) (s : State) (count : Nat) : Tallies :=
  (List.range count).map fun choice =>
    ⟨.ofNat (amountFor cs s choice true), .ofNat (amountFor cs s choice false)⟩

theorem amountFor_perm (h : cs.Perm ds) :
    amountFor cs s choice satisfied = amountFor ds s choice satisfied :=
  ((h.filter _).map _).sum_nat

theorem tallies_perm (h : cs.Perm ds) : tallies cs s count = tallies ds s count := by
  simp only [tallies, amountFor_perm h]

@[simp] theorem length_tallies : (tallies cs s count).length = count := by simp [tallies]

theorem amountFor_of_absent (absent : ∀ c ∈ cs, c.state ≠ s) : amountFor cs s choice satisfied = 0 := by
  rw [amountFor, List.filter_eq_nil_iff.mpr]
  · rfl
  · intro c there
    simp [isFor_of_ne (absent c there)]

theorem amountFor_le : amountFor cs s choice satisfied ≤ (cs.map Credit.amount).sum :=
  (List.filter_sublist.map Credit.amount).sum_le_sum fun _ _ => Nat.zero_le _

theorem amountFor_of_le (inRange : ∀ c ∈ cs, c.state = s → c.choice < count) (outside : count ≤ choice) :
    amountFor cs s choice satisfied = 0 := by
  rw [amountFor, List.filter_eq_nil_iff.mpr]
  · rfl
  · intro c there credited
    simp only [isFor, Bool.and_eq_true, beq_iff_eq] at credited
    obtain ⟨⟨here, rfl⟩, -⟩ := credited
    exact Nat.not_lt.mpr outside (inRange c there here)

theorem counter_tallies (satisfied : Bool) (inRange : ∀ c ∈ cs, c.state = s → c.choice < count) :
    (tallies cs s count).counter choice satisfied = .ofNat (amountFor cs s choice satisfied) := by
  unfold Tallies.counter
  by_cases inside : choice < count
  · cases satisfied <;> simp [tallies, inside, Tally.counter]
  · rw [amountFor_of_le inRange (Nat.not_lt.mp inside)]
    cases satisfied <;> simp [tallies, inside, Tally.counter]

end Credit

theorem Attribution.credit?_eq_some {a : Attribution} {satisfied : Bool} {step : Step} {back : Nat}
    {c : Credit} : a.credit? satisfied step back = some c ↔ 2 ≤ step.offered ∧
      c = ⟨step.state, step.offered, step.choice, satisfied, a.magnitude back satisfied⟩ := by
  unfold credit?
  split
  · next single => simp [Nat.not_le.mpr single]
  · next several => simp [Nat.not_lt.mp several, eq_comm]

theorem Attribution.mem_credits {a : Attribution} {steps : List Step} {verdict : Verdict} {c : Credit}
    (h : c ∈ a.credits steps verdict) :
    ∃ step ∈ steps, c.state = step.state ∧ c.offered = step.offered ∧ c.choice = step.choice ∧
      2 ≤ step.offered := by
  simp only [credits, List.mem_reverse, List.mem_filterMap] at h
  obtain ⟨⟨step, back⟩, there, made⟩ := h
  have taken := List.mem_reverse.mp (List.fst_mem_of_mem_zipIdx there)
  obtain ⟨several, rfl⟩ := credit?_eq_some.mp made
  exact ⟨step, List.mem_of_mem_take taken, rfl, rfl, rfl, several⟩

namespace Rewards

variable {r : Rewards} {cs ds : List Credit} {c : Credit} {s : State}

/-- Whether the rewards are those of the given additions, and of no others. -/
structure Holds (r : Rewards) (cs : List Credit) : Prop where
  credited : ∀ c ∈ cs, r.states[c.state]? = some (Credit.tallies cs c.state c.offered)
  others : ∀ s : State, (∀ c ∈ cs, c.state ≠ s) → r.states[s]? = none

theorem Holds.empty : Rewards.empty.Holds [] := by
  constructor <;> simp [Rewards.empty]

theorem Holds.perm (h : r.Holds cs) (same : cs.Perm ds) : r.Holds ds where
  credited c hc := by
    rw [h.credited c (same.mem_iff.mpr hc), Credit.tallies_perm same]
  others s absent := h.others s fun c hc => absent c (same.mem_iff.mp hc)

theorem Holds.unique {r' : Rewards} (h : r.Holds cs) (h' : r'.Holds cs) (s : State) :
    r.states[s]? = r'.states[s]? := by
  by_cases credited : ∃ c ∈ cs, c.state = s
  · obtain ⟨c, hc, rfl⟩ := credited
    rw [h.credited c hc, h'.credited c hc]
  · have absent : ∀ c ∈ cs, c.state ≠ s := fun c hc same => credited ⟨c, hc, same⟩
    rw [h.others s absent, h'.others s absent]

theorem Holds.total_le {ts : Tallies} (h : r.Holds cs) (known : r.states[s]? = some ts) :
    (ts.map Tally.total).sum ≤ ts.length * (2 * (cs.map Credit.amount).sum) := by
  have each : ∀ t ∈ ts, t.total ≤ 2 * (cs.map Credit.amount).sum := by
    by_cases credited : ∃ c ∈ cs, c.state = s
    · obtain ⟨c, there, rfl⟩ := credited
      obtain rfl : Credit.tallies cs c.state c.offered = ts :=
        Option.some.inj ((h.credited c there).symm.trans known)
      intro t listed
      obtain ⟨choice, -, rfl⟩ := List.mem_map.mp listed
      calc _ ≤ Credit.amountFor cs c.state choice true + Credit.amountFor cs c.state choice false :=
            Nat.add_le_add (by simpa using Nat.mod_le _ _) (by simpa using Nat.mod_le _ _)
        _ ≤ (cs.map Credit.amount).sum + (cs.map Credit.amount).sum :=
            Nat.add_le_add Credit.amountFor_le Credit.amountFor_le
        _ = 2 * (cs.map Credit.amount).sum := (Nat.two_mul _).symm
    · have absent : ∀ c ∈ cs, c.state ≠ s := fun c there same => credited ⟨c, there, same⟩
      rw [h.others s absent] at known
      cases known
  simpa using List.sum_le_card_nsmul (ts.map Tally.total) _ (List.forall_mem_map.mpr each)

theorem holds_iff_growsBy (agree : Credit.Agree cs) : r.Holds cs ↔ empty.GrowsBy cs r := by
  have nothing : ∀ s choice satisfied, empty.counter s choice satisfied = 0 :=
    fun s choice satisfied => counter_of_unknown (by simp [empty])
  have inRange : ∀ c ∈ cs, ∀ d ∈ cs, d.state = c.state → d.choice < c.offered := by
    intro c there d there' same
    rw [← agree.offered d there' c there same]
    exact agree.inRange d there'
  constructor
  · intro h
    refine ⟨fun s choice satisfied => ?_, fun c there => ⟨_, h.credited c there, by simp⟩,
      fun s absent => ?_⟩
    · rw [nothing, UInt64.zero_add]
      by_cases credited : ∃ c ∈ cs, c.state = s
      · obtain ⟨c, there, rfl⟩ := credited
        rw [counter_of_known (h.credited c there), Credit.counter_tallies satisfied (inRange c there)]
      · have absent : ∀ c ∈ cs, c.state ≠ s := fun c there same => credited ⟨c, there, same⟩
        rw [Credit.amountFor_of_absent absent, counter_of_unknown (h.others s absent)]
        rfl
    · rw [h.others s absent]
      simp [empty]
  · intro h
    refine ⟨fun c there => ?_, fun s absent => (h.others s absent).trans (by simp [empty])⟩
    obtain ⟨ts, known, length⟩ := h.entered c there
    have counters : ∀ choice satisfied,
        ts.counter choice satisfied = .ofNat (Credit.amountFor cs c.state choice satisfied) := by
      intro choice satisfied
      rw [← counter_of_known known, h.counter, nothing, UInt64.zero_add]
    rw [known]
    refine congrArg some (List.ext_getElem (by simp [length]) fun i inside _ => ?_)
    have satisfied := counters i true
    have failed := counters i false
    rw [Tallies.counter, List.getElem?_eq_getElem inside, Option.getD_some] at satisfied failed
    simp only [Tally.counter, if_true, Bool.false_eq_true, if_false] at satisfied failed
    simp [Credit.tallies, ← satisfied, ← failed]

theorem admits_empty (agree : Credit.Agree cs) : empty.Admits cs :=
  ⟨agree, fun c there ts known => by simp [empty] at known⟩

theorem Holds.credit (h : r.Holds cs) (agree : Credit.Agree (cs ++ [c])) :
    ∃ r', r.credit c = (r', .ok ()) ∧ r'.Holds (cs ++ [c]) := by
  have grown := (holds_iff_growsBy (agree.mono (List.subset_append_left _ _))).mp h
  obtain ⟨r', made, grown⟩ := grown.credit (admits_empty agree)
  exact ⟨r', made, (holds_iff_growsBy agree).mpr grown⟩

theorem Holds.creditWithRoom (h : r.Holds cs) (agree : Credit.Agree (cs ++ [c]))
    (room : c.offered ≤ Room.most 16) :
    ∃ r', r.creditWithRoom c = (r', .ok ()) ∧ r'.Holds (cs ++ [c]) := by
  rw [creditWithRoom_of_room fun crowded => Nat.not_lt.mpr room crowded.2]
  exact h.credit agree

theorem Holds.creditAll (h : r.Holds ds) (agree : Credit.Agree (ds ++ cs)) :
    ∃ r', r.creditAll cs = (r', .ok ()) ∧ r'.Holds (ds ++ cs) := by
  have grown := (holds_iff_growsBy (agree.mono (List.subset_append_left _ _))).mp h
  obtain ⟨r', made, grown⟩ := grown.creditAll (admits_empty agree)
  exact ⟨r', made, (holds_iff_growsBy agree).mpr grown⟩

end Rewards

end SchedulerLearning
