import SchedulerLearning.Proofs.FloatSums
import SchedulerLearning.Proofs.IntervalEstimates
import SchedulerLearning.Proofs.SequentialProgram

/-!
# What valid settings are enough for

A configuration is checked once, and the statistics check the parameters that they are given again.
In floating point every setting that passes the first check passes the others, also with any counts
added to the prior.
-/

namespace SchedulerLearning

-- ---------------------------------------------------------------------------
-- Ranges
-- ---------------------------------------------------------------------------

namespace Config

variable {c : Config}

structure InRange (c : Config) : Prop where
  tracesPerBlock : 0 < c.tracesPerBlock
  blocks : 0 < c.blocks
  jobsPerRequest : 0 < c.jobsPerRequest
  checkBatch : 0 < c.checkBatch
  history : 0 ≤ c.history ∧ c.history ≤ 1
  epsilon : 0 ≤ c.epsilon ∧ c.epsilon ≤ 1
  alpha : 0 < c.alpha ∧ c.alpha.isFinite
  beta : 0 < c.beta ∧ c.beta.isFinite
  theta : 0 < c.theta ∧ c.theta < 1
  threshold : 1 ≤ c.threshold ∧ c.threshold.isFinite
  maxTraces : 0 < c.maxTraces
  delta : 0 < c.delta ∧ c.delta ≤ 0.5
  coefficient : 0 < c.coefficient ∧ c.coefficient < 1
  early : c.bayesLearning → 0 ≤ c.iota ∧ ¬1 ≤ c.learnTheta ∧ 1 ≤ c.learnThreshold ∧ c.learnThreshold.isFinite

theorem require_eq_ok {setting : Setting} {objection : Objection} {condition : Bool} {passed : Unit} :
    require setting objection condition = .ok passed ↔ condition = true := by
  unfold require
  split <;> simp_all

theorem validate_eq_ok : c.validate = .ok () ↔ c.InRange := by
  unfold validate
  simp only [bind_eq_ok, require_eq_ok, Bool.and_eq_true, decide_eq_true_eq, exists_const,
    ← Nat.pos_iff_ne_zero]
  constructor
  · rintro ⟨tracesPerBlock, blocks, jobsPerRequest, checkBatch, history, epsilon, alpha, beta, theta,
      threshold, maxTraces, delta, coefficient, early⟩
    refine ⟨tracesPerBlock, blocks, jobsPerRequest, checkBatch, history, epsilon, alpha, beta, theta,
      threshold, maxTraces, delta, coefficient, fun bayes => ?_⟩
    simpa [bayes, bind_eq_ok, require_eq_ok] using early
  · rintro ⟨tracesPerBlock, blocks, jobsPerRequest, checkBatch, history, epsilon, alpha, beta, theta,
      threshold, maxTraces, delta, coefficient, early⟩
    refine ⟨tracesPerBlock, blocks, jobsPerRequest, checkBatch, history, epsilon, alpha, beta, theta,
      threshold, maxTraces, delta, coefficient, ?_⟩
    split
    · next bayes => simpa [bind_eq_ok, require_eq_ok] using early bayes
    · rfl

end Config

-- ---------------------------------------------------------------------------
-- Posteriors
-- ---------------------------------------------------------------------------

section
variable {a b : Float} {satisfied failed : Nat} {cdf : Cumulative Float}

theorem Beta.of_float (ha : 0 < a ∧ a.isFinite) (hb : 0 < b ∧ b.isFinite) : Beta.of a b = .ok ⟨a, b⟩ := by
  unfold Beta.of
  refine if_pos ?_
  simp only [Bool.and_eq_true, decide_eq_true_eq]
  exact ⟨⟨⟨ha.2, hb.2⟩, ha.1⟩, hb.1⟩

/-- Counts of verdicts leave the shape of a prior a shape. -/
theorem Beta.of_counts (ha : 0 < a ∧ a.isFinite) (hb : 0 < b ∧ b.isFinite)
    (satisfied_lt : satisfied < Word.size) (failed_lt : failed < Word.size) :
    Beta.of ((satisfied : Float) + a) ((failed : Float) + b) = .ok ⟨satisfied + a, failed + b⟩ :=
  Beta.of_float (FloatSums.count_add satisfied_lt ha.1 ha.2) (FloatSums.count_add failed_lt hb.1 hb.2)

theorem priorOdds_of_shape (theta : Float) (ha : 0 < a ∧ a.isFinite) (hb : 0 < b ∧ b.isFinite) :
    priorOdds cdf a b theta = .ok (cdf ⟨a, b⟩ theta / (1 - cdf ⟨a, b⟩ theta)) := by
  unfold priorOdds
  rw [Beta.of_float ha hb]
  rfl

theorem bayesFactor_of_counts (cdf : Cumulative Float) (odds theta : Float)
    (ha : 0 < a ∧ a.isFinite) (hb : 0 < b ∧ b.isFinite)
    (satisfied_lt : satisfied < Word.size) (failed_lt : failed < Word.size) :
    bayesFactor cdf odds a b theta satisfied failed =
      .ok (odds * (1 / cdf ⟨satisfied + a, failed + b⟩ theta - 1)) := by
  unfold bayesFactor
  rw [Beta.of_counts ha hb satisfied_lt failed_lt]
  rfl

end

-- ---------------------------------------------------------------------------
-- Decision procedures
-- ---------------------------------------------------------------------------

variable {c : Config} {verdicts : Nat → Bool} {n : Nat}

theorem countAmong_le (verdicts : Nat → Bool) (verdict : Bool) (n : Nat) :
    countAmong verdicts verdict n ≤ n := by
  have := countAmong_true_add_false verdicts n
  cases verdict <;> omega

namespace Config.InRange

variable {cdf : Cumulative Float}

theorem testing (valid : c.InRange) :
    HypothesisTest.start cdf c.theta c.threshold c.alpha c.beta c.minTraces c.maxTraces =
      .ok (.fresh c.theta c.threshold c.alpha c.beta
        (cdf ⟨c.alpha, c.beta⟩ c.theta / (1 - cdf ⟨c.alpha, c.beta⟩ c.theta)) c.minTraces c.maxTraces) := by
  have inside : (decide (0 < c.theta) && decide (c.theta < 1)) = true := by simpa using valid.theta
  have factor : (decide (1 ≤ c.threshold) && Scalar.isFinite c.threshold) = true := by
    rw [Bool.and_eq_true, decide_eq_true_eq]
    exact valid.threshold
  unfold HypothesisTest.start
  simp only
  rw [if_pos inside, if_pos factor, if_neg valid.maxTraces.ne', priorOdds_of_shape _ valid.alpha valid.beta]
  rfl

theorem estimation (valid : c.InRange) :
    IntervalEstimator.start c.alpha c.beta c.delta c.coefficient =
      .ok ⟨c.alpha, c.beta, c.delta, c.coefficient, 0, 0⟩ := by
  have width : (decide (0 < c.delta) && decide (c.delta ≤ 0.5)) = true := by simpa using valid.delta
  have share : (decide (0 < c.coefficient) && decide (c.coefficient < 1)) = true := by
    simpa using valid.coefficient
  unfold IntervalEstimator.start
  simp only
  rw [Beta.of_float valid.alpha valid.beta]
  show (if _ then _ else _) = _
  rw [if_pos width]
  show (if _ then _ else _) = _
  rw [if_pos share]
  rfl

theorem factor_of_testing (valid : c.InRange) {t : HypothesisTest Float}
    (started : HypothesisTest.start cdf c.theta c.threshold c.alpha c.beta c.minTraces c.maxTraces = .ok t)
    (verdicts : Nat → Bool) (within : n < Word.size) :
    bayesFactor cdf t.priorOdds c.alpha c.beta c.theta (countAmong verdicts true n)
      (countAmong verdicts false n) = .ok ((t.after cdf verdicts n).factor cdf) := by
  obtain ⟨-, prior, -, rfl⟩ := HypothesisTest.start_eq_ok started
  have factor := bayesFactor_of_counts cdf prior c.theta valid.alpha valid.beta
    ((countAmong_le verdicts true n).trans_lt within) ((countAmong_le verdicts false n).trans_lt within)
  rw [HypothesisTest.after_eq rfl rfl, HypothesisTest.factor_of_counts verdicts n rfl rfl, factorAmong]
  simp only [factor]

theorem mass_of_estimation (valid : c.InRange) {e : IntervalEstimator Float}
    (started : IntervalEstimator.start c.alpha c.beta c.delta c.coefficient = .ok e)
    (verdicts : Nat → Bool) (within : n < Word.size) :
    ∃ posterior, Beta.of ((countAmong verdicts true n : Float) + c.alpha)
      ((countAmong verdicts false n : Float) + c.beta) = .ok posterior ∧
      ∀ lower upper, (e.after cdf verdicts n).mass cdf lower upper =
        posterior.massBetween cdf lower upper := by
  cases valid.estimation.symm.trans started
  have posterior := Beta.of_counts valid.alpha valid.beta
    ((countAmong_le verdicts true n).trans_lt within) ((countAmong_le verdicts false n).trans_lt within)
  have failed : n - countAmong verdicts true n = countAmong verdicts false n := by
    have := countAmong_true_add_false verdicts n
    omega
  refine ⟨_, posterior, fun lower upper => ?_⟩
  rw [IntervalEstimator.after_eq _ rfl rfl, IntervalEstimator.mass]
  simp only [failed, posterior]

end Config.InRange

end SchedulerLearning
