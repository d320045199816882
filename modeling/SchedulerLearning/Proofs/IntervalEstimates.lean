import SchedulerLearning.Proofs.WholeShapes
import SchedulerLearning.Statistics.IntervalEstimator
import Mathlib.Algebra.Order.Field.Rat
import Mathlib.Tactic.FieldSimp
import Mathlib.Tactic.GCongr
import Mathlib.Tactic.Linarith
import Mathlib.Tactic.NormNum
import Mathlib.Tactic.Positivity
import Mathlib.Tactic.Ring

/-!
# Interval estimation

In exact arithmetic, and whatever the distribution functions answer: an estimate is the mean of the
posterior of the verdicts so far, inside an interval of the wanted width within `[0, 1]`. It is given
out exactly when the interval has enough of the posterior, and a success in place of a failure moves
nothing downwards.
-/

namespace SchedulerLearning

section
variable {p q delta alpha beta : Rat} {satisfied more n : Nat}

-- ---------------------------------------------------------------------------
-- The interval
-- ---------------------------------------------------------------------------

def lowerEnd (p delta : Rat) : Rat := max 0 (min (p - delta) (1 - 2 * delta))

theorem credibleInterval_eq (half : delta ≤ 1 / 2) :
    credibleInterval p delta = (lowerEnd p delta, lowerEnd p delta + 2 * delta) := by
  have rule : credibleInterval p delta =
      if 1 < p + delta then (1 - 2 * delta, 1)
      else if p - delta < 0 then (0, 2 * delta)
      else (p - delta, p + delta) := rfl
  rw [rule, lowerEnd]
  split
  · next high =>
    rw [min_eq_right (by linarith), max_eq_right (by linarith)]
    congr 1
    ring
  · next low =>
    rw [min_eq_left (by linarith)]
    split
    · rw [max_eq_left (by linarith), zero_add]
    · rw [max_eq_right (by linarith)]
      congr 1
      ring

theorem lowerEnd_nonneg : 0 ≤ lowerEnd p delta := le_max_left _ _

theorem lowerEnd_le (pos : 0 < delta) (low : 0 ≤ p) : lowerEnd p delta ≤ p :=
  max_le low ((min_le_left _ _).trans (by linarith))

theorem le_upperEnd (pos : 0 < delta) (high : p ≤ 1) : p ≤ lowerEnd p delta + 2 * delta := by
  have inner : min (p - delta) (1 - 2 * delta) ≤ lowerEnd p delta := le_max_right _ _
  obtain left | right := min_choice (p - delta) (1 - 2 * delta)
  · linarith
  · linarith

theorem upperEnd_le_one (half : delta ≤ 1 / 2) : lowerEnd p delta + 2 * delta ≤ 1 := by
  have inner : lowerEnd p delta ≤ 1 - 2 * delta := max_le (by linarith) (min_le_right _ _)
  linarith

theorem lowerEnd_mono (h : p ≤ q) : lowerEnd p delta ≤ lowerEnd q delta := by
  unfold lowerEnd
  gcongr

-- ---------------------------------------------------------------------------
-- The mean
-- ---------------------------------------------------------------------------

def posteriorMean (alpha beta : Rat) (satisfied n : Nat) : Rat := (satisfied + alpha) / (n + alpha + beta)

theorem posteriorMean_pos (ha : 0 < alpha) (hb : 0 < beta) : 0 < posteriorMean alpha beta satisfied n := by
  unfold posteriorMean
  positivity

theorem posteriorMean_lt_one (ha : 0 < alpha) (hb : 0 < beta) (among : satisfied ≤ n) :
    posteriorMean alpha beta satisfied n < 1 := by
  have among : (satisfied : Rat) ≤ n := Nat.cast_le.mpr among
  have total : (0 : Rat) < n + alpha + beta := by positivity
  rw [posteriorMean, div_lt_one total]
  linarith

theorem posteriorMean_mono (ha : 0 < alpha) (hb : 0 < beta) (h : satisfied ≤ more) :
    posteriorMean alpha beta satisfied n ≤ posteriorMean alpha beta more n := by
  unfold posteriorMean
  gcongr

end

-- ---------------------------------------------------------------------------
-- A stream of verdicts
-- ---------------------------------------------------------------------------

theorem countAmong_le_update (verdicts : Nat → Bool) (i n : Nat) :
    countAmong verdicts true n ≤ countAmong (Function.update verdicts i true) true n := by
  refine List.countP_mono_left fun j _ satisfied => ?_
  by_cases changed : j = i
  · rw [changed, Function.update_self]
    rfl
  · rwa [Function.update_of_ne changed]

namespace IntervalEstimator

/-- The estimator after the first `n` verdicts of a stream, also beyond its answer. -/
def after {α : Type} [Scalar α] (cdf : Cumulative α) (e : IntervalEstimator α) (verdicts : Nat → Bool) :
    Nat → IntervalEstimator α
  | 0 => e
  | n + 1 => ((e.after cdf verdicts n).observe cdf (verdicts n)).1

def answer? {α : Type} [Scalar α] (cdf : Cumulative α) (e : IntervalEstimator α) (verdicts : Nat → Bool) :
    Nat → Option (Estimate α)
  | 0 => none
  | n + 1 => ((e.after cdf verdicts n).observe cdf (verdicts n)).2

theorem after_eq {α : Type} [Scalar α] {cdf : Cumulative α} {verdicts : Nat → Bool}
    (e : IntervalEstimator α) (fresh : e.traces = 0) (none : e.satisfied = 0) (n : Nat) :
    e.after cdf verdicts n = { e with traces := n, satisfied := countAmong verdicts true n } := by
  induction n with
  | zero =>
    cases e
    simp_all [after, countAmong]
  | succ n ih =>
    rw [after, ih]
    cases h : verdicts n <;> simp [observe, record, countAmong_succ, h]

variable {cdf : Cumulative Rat} {e : IntervalEstimator Rat} {alpha beta delta coefficient : Rat}
  {verdicts : Nat → Bool} {n : Nat}

theorem start_eq_ok_iff :
    start alpha beta delta coefficient = .ok e ↔
      (0 < alpha ∧ 0 < beta) ∧ (0 < delta ∧ delta ≤ 1 / 2) ∧ (0 < coefficient ∧ coefficient < 1) ∧
        e = ⟨alpha, beta, delta, coefficient, 0, 0⟩ := by
  have half : (0.5 : Rat) = 1 / 2 := by norm_num
  unfold start
  simp only [bind_eq_ok, Beta.of_eq_ok, Bool.and_eq_true, decide_eq_true_eq]
  constructor
  · rintro ⟨d, ⟨ha, hb, -⟩, h⟩
    split at h
    · next width =>
      split at h
      · next share =>
        exact ⟨⟨ha, hb⟩, ⟨width.1, width.2.trans_eq half⟩, share, (Except.ok.inj h).symm⟩
      · cases h
    · cases h
  · rintro ⟨⟨ha, hb⟩, ⟨pos, wide⟩, share, rfl⟩
    refine ⟨_, ⟨ha, hb, rfl⟩, ?_⟩
    rw [if_pos ⟨pos, wide.trans_eq half.symm⟩, if_pos share]
    rfl

def estimateAmong (cdf : Cumulative Rat) (alpha beta delta : Rat) (verdicts : Nat → Bool) (n : Nat) :
    Estimate Rat :=
  let posterior := ⟨countAmong verdicts true n + alpha, countAmong verdicts false n + beta⟩
  let p := posteriorMean alpha beta (countAmong verdicts true n) n
  { p
    lower := lowerEnd p delta
    upper := lowerEnd p delta + 2 * delta
    mass := max 0 (cdf posterior (lowerEnd p delta + 2 * delta) - cdf posterior (lowerEnd p delta))
    satisfied := countAmong verdicts true n
    traces := n }

theorem massBetween_eq (d : Beta Rat) (low high : Rat) :
    d.massBetween cdf low high = max 0 (cdf d high - cdf d low) := by
  have rule : d.massBetween cdf low high =
      if 0 < cdf d high - cdf d low then cdf d high - cdf d low else 0 := rfl
  rw [rule]
  split
  · next some => rw [max_eq_right some.le]
  · next none => rw [max_eq_left (not_lt.mp none)]

/-- Whatever the estimator has seen, its estimate is that of the verdicts it counted. -/
theorem estimate_of_counts (ha : 0 < e.alpha) (hb : 0 < e.beta) (half : e.delta ≤ 1 / 2)
    (seen : e.traces = n) (counted : e.satisfied = countAmong verdicts true n) :
    e.estimate cdf = estimateAmong cdf e.alpha e.beta e.delta verdicts n := by
  have failed : e.traces - e.satisfied = countAmong verdicts false n := by
    have := countAmong_true_add_false verdicts n
    omega
  have posterior (satisfied failed : Nat) :
      Beta.of ((satisfied : Rat) + e.alpha) ((failed : Rat) + e.beta) =
        .ok ⟨satisfied + e.alpha, failed + e.beta⟩ :=
    Beta.of_eq_ok.mpr ⟨by positivity, by positivity, rfl⟩
  have mass (low high : Rat) : e.mass cdf low high =
      max 0 (cdf ⟨countAmong verdicts true n + e.alpha, countAmong verdicts false n + e.beta⟩ high -
        cdf ⟨countAmong verdicts true n + e.alpha, countAmong verdicts false n + e.beta⟩ low) := by
    rw [IntervalEstimator.mass, failed, posterior, counted]
    exact massBetween_eq _ _ _
  unfold estimate
  rw [counted, seen]
  simp only [mass, credibleInterval_eq half]
  rfl

theorem observe_eq (e : IntervalEstimator Rat) (verdict : Bool) :
    (e.observe cdf verdict).2 =
      if e.coefficient ≤ ((e.record verdict).estimate cdf).mass
      then some ((e.record verdict).estimate cdf) else none := by
  have rule : (e.observe cdf verdict).2 =
      if ((e.record verdict).estimate cdf).mass < e.coefficient then none
      else some ((e.record verdict).estimate cdf) := rfl
  rw [rule]
  split
  · next small => rw [if_neg (not_le.mpr small)]
  · next enough => rw [if_pos (not_lt.mp enough)]

/-- The estimator reports a correct interval and answers with it as soon as the interval has enough of
the posterior. For every estimator that can be set up, every stream of verdicts and whatever the
distribution functions answer: the estimate after `n` verdicts is the mean of their posterior, inside
an interval of the wanted width, which is inside `[0, 1]`. There is an answer to exactly those verdicts
after which the interval has at least the wanted share of the posterior, and it is the estimate. A
verdict changed to satisfied makes neither the estimate nor an end of the interval less. -/
theorem estimates_within_interval (begun : start alpha beta delta coefficient = .ok e)
    (cdf : Cumulative Rat) (verdicts : Nat → Bool) :
    (∀ n, let r := (e.after cdf verdicts n).estimate cdf
      let posterior := ⟨countAmong verdicts true n + alpha, countAmong verdicts false n + beta⟩
      r.traces = n ∧ r.satisfied = countAmong verdicts true n ∧ r.satisfied ≤ n ∧
        r.p = (countAmong verdicts true n + alpha) / (n + alpha + beta) ∧ (0 < r.p ∧ r.p < 1) ∧
        r.lower = max 0 (min (r.p - delta) (1 - 2 * delta)) ∧ r.upper = r.lower + 2 * delta ∧
        (0 ≤ r.lower ∧ r.lower ≤ r.p ∧ r.p ≤ r.upper ∧ r.upper ≤ 1) ∧
        r.mass = max 0 (cdf posterior r.upper - cdf posterior r.lower)) ∧
    (∀ n, 0 < n → e.answer? cdf verdicts n =
      if coefficient ≤ ((e.after cdf verdicts n).estimate cdf).mass
      then some ((e.after cdf verdicts n).estimate cdf) else none) ∧
    ∀ i n,
      let r := (e.after cdf verdicts n).estimate cdf
      let r' := (e.after cdf (Function.update verdicts i true) n).estimate cdf
      r.p ≤ r'.p ∧ r.lower ≤ r'.lower ∧ r.upper ≤ r'.upper := by
  obtain ⟨⟨ha, hb⟩, ⟨pos, half⟩, -, rfl⟩ := start_eq_ok_iff.mp begun
  set e₀ : IntervalEstimator Rat := ⟨alpha, beta, delta, coefficient, 0, 0⟩
  have seen (verdicts : Nat → Bool) (n : Nat) :
      (e₀.after cdf verdicts n).estimate cdf = estimateAmong cdf alpha beta delta verdicts n := by
    rw [after_eq e₀ rfl rfl]
    exact estimate_of_counts ha hb half rfl rfl
  refine ⟨fun n => ?_, fun n some => ?_, fun i n => ?_⟩
  · rw [seen]
    have among : countAmong verdicts true n ≤ n := by
      have := countAmong_true_add_false verdicts n
      omega
    have low : 0 < posteriorMean alpha beta (countAmong verdicts true n) n := posteriorMean_pos ha hb
    have high := posteriorMean_lt_one ha hb among
    exact ⟨rfl, rfl, among, rfl, ⟨low, high⟩, rfl, rfl,
      ⟨lowerEnd_nonneg, lowerEnd_le pos low.le, le_upperEnd pos high.le, upperEnd_le_one half⟩, rfl⟩
  · obtain ⟨n, rfl⟩ := Nat.exists_eq_add_one.mpr some
    have same : (e₀.after cdf verdicts n).coefficient = coefficient := by rw [after_eq _ rfl rfl]
    exact same ▸ observe_eq _ _
  · rw [seen, seen]
    have mean := posteriorMean_mono (n := n) ha hb (countAmong_le_update verdicts i n)
    have lower : lowerEnd _ delta ≤ lowerEnd _ delta := lowerEnd_mono mean
    exact ⟨mean, lower, add_le_add_left lower _⟩

/-- Under a uniform prior distribution and with a quarter for the half-width, one success gives the
interval `[5/12, 11/12]` with 2/3 of the posterior, and two give `[1/2, 1]` with 7/8 of it. -/
theorem estimates_within_interval_of_two_satisfied :
    ∃ e, start 1 1 (1 / 4) (4 / 5) = .ok e ∧ e.answer? wholeCdf (fun _ => true) 1 = none ∧
      ∃ r, e.answer? wholeCdf (fun _ => true) 2 = some r ∧
        r.p = 3 / 4 ∧ r.lower = 1 / 2 ∧ r.upper = 1 ∧ r.mass = 7 / 8 := by
  have begun : start 1 1 (1 / 4) (4 / 5) = .ok (⟨1, 1, 1 / 4, 4 / 5, 0, 0⟩ : IntervalEstimator Rat) :=
    start_eq_ok_iff.mpr ⟨by decide +kernel, by decide +kernel, by decide +kernel, rfl⟩
  obtain ⟨-, answers, -⟩ := estimates_within_interval begun wholeCdf fun _ => true
  refine ⟨_, begun, ?_, _, (answers 2 (by decide)).trans (if_pos ?_), ?_⟩
  · rw [answers 1 (by decide), if_neg (by decide +kernel)]
  · decide +kernel
  · decide +kernel

end IntervalEstimator

end SchedulerLearning
