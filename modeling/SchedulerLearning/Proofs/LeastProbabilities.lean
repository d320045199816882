import SchedulerLearning.Proofs.Sampling
import SchedulerLearning.Proofs.UpdateOutcomes

/-!
# Learning starves no choice

In exact arithmetic, each rule leaves every choice a share of the least probability before, or a
probability of its own. So a choice of a state that began uniform keeps a probability that depends
on the rules and on the weights, but not on the rewards.
-/

namespace SchedulerLearning

variable {w : UpdateWeights Rat} {rule : UpdateRule} {rules : List UpdateRule} {rewards : Tallies}
  {m m' : Mixture Rat} {least : Rat} {n : Nat}

-- ---------------------------------------------------------------------------
-- One update
-- ---------------------------------------------------------------------------

namespace UpdateRule

/-- What a rule leaves each of so many choices, if they had a least probability. -/
def floor (w : UpdateWeights Rat) (n : Nat) (least : Rat) : UpdateRule → Rat
  | .epsilon => min (1 - w.epsilon) (w.epsilon / ((n : Rat) - 1))
  | rule => rule.kept w * least

theorem floor_of_ne (blends : rule ≠ .epsilon) : rule.floor w n least = rule.kept w * least := by
  cases rule with
  | epsilon => contradiction
  | _ => rfl

variable {old new : List Rat}

theorem blend_floor {weight : Rat} {target : List Rat} (low : 0 ≤ weight) (high : weight ≤ 1)
    (ho : ∀ p ∈ old, least ≤ p) (ht : ∀ q ∈ target, 0 ≤ q) :
    ∀ p ∈ blend weight old target, weight * least ≤ p := by
  refine forall_mem_zipWith fun p hp q hq => ?_
  have kept : weight * least ≤ weight * p := mul_le_mul_of_nonneg_left (ho p hp) low
  have gained : 0 ≤ (1 - weight) * q := mul_nonneg (sub_nonneg.mpr high) (ht q hq)
  linarith

theorem next?_floor (hw : w.InUnit) (ho : IsDistribution old) (bound : ∀ p ∈ old, least ≤ p)
    (made : next? rule w old rewards = .ok (some new)) :
    ∀ p ∈ new, rule.floor w old.length least ≤ p := by
  obtain ⟨same, renews⟩ := next?_eq_some made
  rcases renews.greedy_or_blends hw ho same with ⟨rfl, several, rfl⟩ | ⟨blends, target, ht, -, rfl⟩
  · rw [List.forall_mem_map]
    intro i _
    rw [floor, Nat.cast_sub (by omega), Nat.cast_one]
    split
    · exact min_le_left _ _
    · exact min_le_right _ _
  · obtain ⟨low, high⟩ := kept_mem hw rule
    rw [floor_of_ne blends]
    exact blend_floor low high bound ht.nonneg

/-- Whether the weights that a rule uses keep both what it knows and what it learns. -/
def Explores (w : UpdateWeights Rat) : UpdateRule → Prop
  | .epsilon => 0 < w.epsilon ∧ w.epsilon < 1
  | _ => 0 < w.history ∧ w.history < 1

theorem Explores.floor_pos (h : rule.Explores w) (several : 2 ≤ n) (known : 0 < least) :
    0 < rule.floor w n least := by
  have others : (0 : Rat) < (n : Rat) - 1 := by
    have : (2 : Rat) ≤ n := by exact_mod_cast several
    linarith
  cases rule with
  | count | success | completeCount => exact mul_pos h.1 known
  | epsilonCount => exact mul_pos (sub_pos.mpr h.2) known
  | epsilon => exact lt_min (sub_pos.mpr h.2) (div_pos h.1 others)

end UpdateRule

-- ---------------------------------------------------------------------------
-- Runs of updates
-- ---------------------------------------------------------------------------

/-- Whether updates of one state by the listed rules, all of which learn from some rewards, lead
from one mixture to another. -/
inductive Learns (w : UpdateWeights Rat) : Mixture Rat → List UpdateRule → Mixture Rat → Prop
  | nil {m : Mixture Rat} : Learns w m [] m
  | cons {rule : UpdateRule} {rules : List UpdateRule} {rewards : Tallies} {m m' m'' : Mixture Rat}
      (update : Scheduler.replacement rule w m rewards = .ok (some m')) (rest : Learns w m' rules m'') :
      Learns w m (rule :: rules) m''

def floorOf (w : UpdateWeights Rat) (n : Nat) (rules : List UpdateRule) (least : Rat) : Rat :=
  rules.foldl (fun least rule => rule.floor w n least) least

theorem floorOf_eq_pow {share : Rat} (each : ∀ rule ∈ rules, ∀ l, rule.floor w n l = share * l) :
    floorOf w n rules least = share ^ rules.length * least := by
  induction rules generalizing least with
  | nil => simp [floorOf]
  | cons rule rest ih =>
    obtain ⟨first, others⟩ := List.forall_mem_cons.mp each
    calc floorOf w n (rule :: rest) least = floorOf w n rest (share * least) := by rw [← first]; rfl
      _ = share ^ rest.length * (share * least) := ih others
      _ = share ^ (rule :: rest).length * least := by rw [List.length_cons, pow_succ]; ring

theorem floorOf_of_getLast? (last : rules.getLast? = some .epsilon) :
    floorOf w n rules least = min (1 - w.epsilon) (w.epsilon / ((n : Rat) - 1)) := by
  obtain ⟨before, rfl⟩ := List.getLast?_eq_some_iff.mp last
  rw [floorOf, List.foldl_append]
  rfl

theorem floorOf_pos (several : 2 ≤ n) (explore : ∀ rule ∈ rules, rule.Explores w) (known : 0 < least) :
    0 < floorOf w n rules least := by
  induction rules generalizing least with
  | nil => exact known
  | cons rule rest ih =>
    obtain ⟨first, others⟩ := List.forall_mem_cons.mp explore
    exact ih others (first.floor_pos several known)

namespace Learns

theorem spec (h : Learns w m rules m') (hw : w.InUnit) (hm : IsDistribution m.probabilities)
    (bound : ∀ p ∈ m.probabilities, least ≤ p) :
    m'.size = m.size ∧ IsDistribution m'.probabilities ∧
      ∀ p ∈ m'.probabilities, floorOf w m.size rules least ≤ p := by
  induction h generalizing least with
  | nil => exact ⟨rfl, hm, bound⟩
  | cons update _ ih =>
    have made := Scheduler.replacement_eq_some.mp update
    obtain ⟨same, next⟩ := UpdateRule.next?_isDistribution hw hm made
    obtain ⟨size, distribution, floor⟩ := ih next (UpdateRule.next?_floor hw hm bound made)
    refine ⟨size.trans same, distribution, ?_⟩
    rwa [Mixture.size, same] at floor

theorem of_uniform (h : Learns w (.uniform n) rules m) (hw : w.InUnit) (several : 2 ≤ n) :
    m.size = n ∧ IsDistribution m.probabilities ∧
      ∀ p ∈ m.probabilities, floorOf w n rules (1 / n) ≤ p := by
  have size : (Mixture.uniform n : Mixture Rat).size = n := List.length_replicate
  have spec := h.spec hw (.uniform (by omega)) fun p there => (List.eq_of_mem_replicate there).ge
  rwa [size] at spec

theorem pos_of_uniform (h : Learns w (.uniform n) rules m) (hw : w.InUnit) (several : 2 ≤ n)
    (explore : ∀ rule ∈ rules, rule.Explores w) : ∀ p ∈ m.probabilities, 0 < p := by
  obtain ⟨-, -, floor⟩ := h.of_uniform hw several
  have share : (0 : Rat) < 1 / n := one_div_pos.mpr (Nat.cast_pos.mpr (by omega))
  exact fun p there => (floorOf_pos several explore share).trans_le (floor p there)

end Learns

/-- In exact arithmetic: whatever the rewards, updates of a state that began uniform leave each choice
a probability that follows from the rules and the weights. If the rules keep exploring, no choice loses
its probability, nor the interval of random numbers that selects it. -/
theorem updates_starve_no_choice (w : UpdateWeights Rat) (hw : w.InUnit) (n : Nat) (several : 2 ≤ n)
    (rules : List UpdateRule) (m : Mixture Rat) (learnt : Learns w (.uniform n) rules m) :
    m.size = n ∧
    ((∀ rule ∈ rules, rule = .count ∨ rule = .success ∨ rule = .completeCount) →
      ∀ p ∈ m.probabilities, w.history ^ rules.length / n ≤ p) ∧
    ((∀ rule ∈ rules, rule = .epsilonCount) →
      ∀ p ∈ m.probabilities, (1 - w.history) ^ rules.length / n ≤ p) ∧
    (rules.getLast? = some .epsilon →
      ∀ p ∈ m.probabilities, min (1 - w.epsilon) (w.epsilon / ((n : Rat) - 1)) ≤ p) ∧
    ((∀ rule ∈ rules, rule.Explores w) → ∀ choice < n,
      ∃ p low high, m.probability? choice = some p ∧ 0 < p ∧ high - low = p ∧ 0 ≤ low ∧ high ≤ 1 ∧
        ∀ x, 0 ≤ x → x < 1 → (m.sample x = choice ↔ low ≤ x ∧ x < high)) := by
  obtain ⟨size, distribution, floor⟩ := learnt.of_uniform hw several
  refine ⟨size, ?_, ?_, ?_, ?_⟩
  · intro shares p there
    have each : ∀ rule ∈ rules, ∀ l, rule.floor w n l = w.history * l := by
      intro rule listed l
      rcases shares rule listed with rfl | rfl | rfl <;> rfl
    have bound := floor p there
    rwa [floorOf_eq_pow each, mul_one_div] at bound
  · intro shares p there
    have each : ∀ rule ∈ rules, ∀ l, rule.floor w n l = (1 - w.history) * l := by
      intro rule listed l
      rw [shares rule listed]
      rfl
    have bound := floor p there
    rwa [floorOf_eq_pow each, mul_one_div] at bound
  · intro last p there
    have bound := floor p there
    rwa [floorOf_of_getLast? last] at bound
  · intro explore choice inRange
    have inside : choice < m.probabilities.length := inRange.trans_eq size.symm
    have there : m.probability? choice = some m.probabilities[choice] := List.getElem?_eq_getElem inside
    refine ⟨m.probabilities[choice], m.below choice, m.below choice + m.probabilities[choice], there,
      learnt.pos_of_uniform hw several explore _ (List.getElem_mem inside), add_sub_cancel_left _ _,
      Mixture.below_nonneg distribution, Mixture.below_add_le_one distribution there, ?_⟩
    exact fun x low high => Mixture.sample_eq_iff distribution low high there

/-- A choice that always fails, beside one that always succeeds, has the least probability. -/
theorem updates_starve_no_choice_of_failures :
    Scheduler.replacement .count ⟨1 / 2, 1 / 10⟩ (.uniform 2) [⟨1, 0⟩, ⟨0, 1⟩] =
        .ok (some ⟨[(3 / 4 : Rat), 1 / 4]⟩) ∧
      Scheduler.replacement .count ⟨1 / 2, 1 / 10⟩ ⟨[3 / 4, 1 / 4]⟩ [⟨1, 0⟩, ⟨0, 1⟩] =
        .ok (some ⟨[(7 / 8 : Rat), 1 / 8]⟩) ∧
      (∀ p ∈ [(7 / 8 : Rat), 1 / 8], (1 / 2) ^ 2 / 2 ≤ p) ∧
      ∃ low high : Rat, high - low = 1 / 8 ∧ ∀ x, 0 ≤ x → x < 1 →
        ((⟨[7 / 8, 1 / 8]⟩ : Mixture Rat).sample x = 1 ↔ low ≤ x ∧ x < high) := by
  have weights : UpdateWeights.InUnit ⟨1 / 2, 1 / 10⟩ := by constructor <;> norm_num
  have first : Scheduler.replacement .count ⟨(1 / 2 : Rat), 1 / 10⟩ (.uniform 2) [⟨1, 0⟩, ⟨0, 1⟩] =
      .ok (some ⟨[3 / 4, 1 / 4]⟩) := by
    rw [Scheduler.replacement_eq_some]
    decide +kernel
  have second : Scheduler.replacement .count ⟨(1 / 2 : Rat), 1 / 10⟩ ⟨[3 / 4, 1 / 4]⟩
      [⟨1, 0⟩, ⟨0, 1⟩] = .ok (some ⟨[7 / 8, 1 / 8]⟩) := by
    rw [Scheduler.replacement_eq_some]
    decide +kernel
  obtain ⟨-, shares, -, -, selected⟩ := updates_starve_no_choice ⟨1 / 2, 1 / 10⟩ weights 2 le_rfl
    [.count, .count] ⟨[7 / 8, 1 / 8]⟩ (.cons first (.cons second .nil))
  refine ⟨first, second, shares (by simp), ?_⟩
  obtain ⟨p, low, high, there, -, wide, -, -, selects⟩ :=
    selected (by norm_num [UpdateRule.Explores]) 1 (by decide)
  cases there
  exact ⟨low, high, wide, selects⟩

-- ---------------------------------------------------------------------------
-- Whole schedulers
-- ---------------------------------------------------------------------------

namespace Scheduler

variable {p : Scheduler Rat} {s : State} {blocks : List (UpdateRule × Rewards)}

def updates (w : UpdateWeights Rat) (p : Scheduler Rat) (blocks : List (UpdateRule × Rewards)) :
    Scheduler Rat :=
  blocks.foldl (fun p block => (p.update block.1 w block.2).scheduler) p

theorem get?_update_of_known (rule : UpdateRule) (w : UpdateWeights Rat) (r : Rewards)
    (there : p.get? s = some m) :
    ∃ m', (p.update rule w r).scheduler.get? s = some m' ∧
      (m' = m ∨ ∃ ts, replacement rule w m ts = .ok (some m')) := by
  rw [get?_update_eq]
  cases r.states[s]? with
  | none => exact ⟨m, there, .inl rfl⟩
  | some ts =>
    have same : p.known s ts = m := by rw [known, there]; rfl
    cases made : p.outcome rule w s ts with
    | error fault => exact ⟨m, by simp [made, same], .inl rfl⟩
    | ok new =>
      cases new with
      | none => exact ⟨m, by simp [made, same], .inl rfl⟩
      | some new =>
        refine ⟨⟨new⟩, by simp [made], .inr ⟨ts, replacement_eq_some.mpr ?_⟩⟩
        rw [← same]
        exact made

theorem learns_of_updates (there : p.get? s = some m) :
    ∃ m' rules, (p.updates w blocks).get? s = some m' ∧ rules.Sublist (blocks.map Prod.fst) ∧
      Learns w m rules m' := by
  induction blocks generalizing p m with
  | nil => exact ⟨m, [], there, .slnil, .nil⟩
  | cons block rest ih =>
    obtain ⟨m₁, there₁, change⟩ := get?_update_of_known block.1 w block.2 there
    obtain ⟨m', rules, final, listed, learns⟩ := ih there₁
    rcases change with rfl | ⟨ts, update⟩
    · exact ⟨m', rules, final, listed.cons _, learns⟩
    · exact ⟨m', block.1 :: rules, final, listed.cons_cons _, .cons update learns⟩

/-- Whole updates, whether they fault or not, starve no choice of a state that began uniform. -/
theorem pos_of_updates (hw : w.InUnit) (several : 2 ≤ n) (start : p.get? s = some (.uniform n))
    (explore : ∀ block ∈ blocks, block.1.Explores w) :
    ∃ m, (p.updates w blocks).get? s = some m ∧ m.size = n ∧ ∀ q ∈ m.probabilities, 0 < q := by
  obtain ⟨m, rules, final, listed, learns⟩ := learns_of_updates start
  have explored : ∀ rule ∈ rules, rule.Explores w := by
    intro rule there
    obtain ⟨block, inside, rfl⟩ := List.mem_map.mp (listed.subset there)
    exact explore block inside
  exact ⟨m, final, (learns.of_uniform hw several).1, learns.pos_of_uniform hw several explored⟩

end Scheduler

end SchedulerLearning
