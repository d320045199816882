import SchedulerLearning.Proofs.Outcome
import SchedulerLearning.Statistics.HypothesisTest
import Mathlib.Order.Nat

/-!
# The stopping rule of the sequential test

On every stream of verdicts, and whatever the distribution functions answer, the test decides at
the least number of verdicts that settles it, within its bounds, and by the Bayes factor of the
verdicts up to there.
-/

namespace SchedulerLearning

def countAmong (verdicts : Nat → Bool) (verdict : Bool) (n : Nat) : Nat :=
  (List.range n).countP (verdicts · == verdict)

section
variable (verdicts : Nat → Bool)

theorem countAmong_succ (verdict : Bool) (n : Nat) :
    countAmong verdicts verdict (n + 1) =
      countAmong verdicts verdict n + if verdicts n == verdict then 1 else 0 := by
  simp [countAmong, List.range_succ, List.countP_append, List.countP_cons]

theorem countAmong_true_add_false (n : Nat) :
    countAmong verdicts true n + countAmong verdicts false n = n := by
  induction n with
  | zero => rfl
  | succ n ih =>
    rw [countAmong_succ, countAmong_succ]
    cases verdicts n <;> simp <;> omega

end

variable {α : Type} [Scalar α]

def factorAmong (cdf : Cumulative α) (prior alpha beta theta : α) (verdicts : Nat → Bool) (n : Nat) :
    α :=
  match bayesFactor cdf prior alpha beta theta (countAmong verdicts true n)
    (countAmong verdicts false n) with
  | .ok factor => factor
  | .error _ => 0 / 0

namespace HypothesisTest

variable {cdf : Cumulative α} {t : HypothesisTest α} {theta threshold alpha beta : α}
  {minTraces maxTraces n : Nat} {verdicts : Nat → Bool}

/-- The test after the first `n` verdicts of a stream, also beyond its decision. -/
def after (cdf : Cumulative α) (t : HypothesisTest α) (verdicts : Nat → Bool) : Nat → HypothesisTest α
  | 0 => t
  | n + 1 => ((t.after cdf verdicts n).observe cdf (verdicts n)).1

def answer? (cdf : Cumulative α) (t : HypothesisTest α) (verdicts : Nat → Bool) :
    Nat → Option (TestResult α)
  | 0 => none
  | n + 1 => ((t.after cdf verdicts n).observe cdf (verdicts n)).2

-- ---------------------------------------------------------------------------
-- One verdict
-- ---------------------------------------------------------------------------

theorem start_eq_ok (h : start cdf theta threshold alpha beta minTraces maxTraces = .ok t) :
    0 < maxTraces ∧ ∃ prior, SchedulerLearning.priorOdds cdf alpha beta theta = .ok prior ∧
      t = ⟨theta, threshold, alpha, beta, prior, min minTraces maxTraces, maxTraces, 0, 0⟩ := by
  unfold start at h
  simp only at h
  split at h
  · split at h
    · split at h
      · cases h
      · next some =>
        obtain ⟨prior, odds, h⟩ := bind_eq_ok.mp h
        cases h
        exact ⟨Nat.pos_of_ne_zero some, prior, odds, rfl⟩
    · cases h
  · cases h

theorem settles?_eq_none {factor : α} :
    t.settles? factor = none ↔
      ¬(t.threshold < factor ∨ factor < 1 / t.threshold ∨ t.maxTraces ≤ t.traces) := by
  simp only [settles?]
  split
  · grind
  · split <;> grind

theorem settles?_eq_alternative (t : HypothesisTest α) (factor : α) :
    t.settles? factor = some .alternative ↔
      t.threshold < factor ∨ t.maxTraces ≤ t.traces ∧ 1 < factor := by
  simp only [settles?]
  split
  · next accepted => simp [accepted]
  · next open_ => split <;> simp [open_]

theorem decision?_eq_some {r : TestResult α} (h : t.decision? cdf = some r) :
    r.factor = t.factor cdf ∧ r.satisfied = t.satisfied ∧ r.traces = t.traces ∧
      t.settles? (t.factor cdf) = some r.accepted := by
  unfold decision? at h
  split at h
  · cases h
  · obtain ⟨accepted, settled, rfl⟩ := Option.map_eq_some_iff.mp h
    exact ⟨rfl, rfl, rfl, settled⟩

theorem decision?_eq_none :
    t.decision? cdf = none ↔
      t.traces < t.minTraces ∨ ¬(t.threshold < t.factor cdf ∨ t.factor cdf < 1 / t.threshold ∨
        t.maxTraces ≤ t.traces) := by
  unfold decision?
  split
  · next few => simp [few]
  · next enough =>
    rw [Option.map_eq_none_iff, settles?_eq_none]
    simp [enough]

-- ---------------------------------------------------------------------------
-- A stream of verdicts
-- ---------------------------------------------------------------------------

theorem after_eq (fresh : t.traces = 0) (none : t.satisfied = 0) (n : Nat) :
    t.after cdf verdicts n = { t with traces := n, satisfied := countAmong verdicts true n } := by
  induction n with
  | zero =>
    cases t
    simp_all [after, countAmong]
  | succ n ih =>
    rw [after, ih]
    cases h : verdicts n <;> simp [observe, record, countAmong_succ, h]

theorem factor_of_counts (verdicts : Nat → Bool) (n : Nat) (seen : t.traces = n)
    (counted : t.satisfied = countAmong verdicts true n) :
    t.factor cdf = factorAmong cdf t.priorOdds t.alpha t.beta t.theta verdicts n := by
  have failed : t.traces - t.satisfied = countAmong verdicts false n := by
    have := countAmong_true_add_false verdicts n
    omega
  rewrite [factor, factorAmong, failed, counted]
  cases bayesFactor cdf t.priorOdds t.alpha t.beta t.theta (countAmong verdicts true n)
    (countAmong verdicts false n) <;> rfl

theorem answer?_eq (some : 0 < n) :
    t.answer? cdf verdicts n = (t.after cdf verdicts n).decision? cdf := by
  cases n with
  | zero => contradiction
  | succ n => rfl

-- ---------------------------------------------------------------------------
-- The rule
-- ---------------------------------------------------------------------------

/-- Whether `n` verdicts are enough and settle a test, `factor n` being their Bayes factor. -/
def SettledBy (factor : Nat → α) (threshold : α) (minTraces maxTraces n : Nat) : Prop :=
  max 1 (min minTraces maxTraces) ≤ n ∧
    (threshold < factor n ∨ factor n < 1 / threshold ∨ maxTraces ≤ n)

def fresh (theta threshold alpha beta prior : α) (minTraces maxTraces : Nat) : HypothesisTest α :=
  ⟨theta, threshold, alpha, beta, prior, min minTraces maxTraces, maxTraces, 0, 0⟩

theorem answer?_fresh_eq_none (prior : α) (verdicts : Nat → Bool) (n : Nat) :
    (fresh theta threshold alpha beta prior minTraces maxTraces).answer? cdf verdicts n = none ↔
      ¬SettledBy (factorAmong cdf prior alpha beta theta verdicts) threshold minTraces maxTraces n := by
  cases n with
  | zero => simp [answer?, SettledBy]
  | succ n =>
    have few : n + 1 < min minTraces maxTraces ↔ ¬max 1 (min minTraces maxTraces) ≤ n + 1 := by
      omega
    rw [answer?_eq n.succ_pos, decision?_eq_none, after_eq rfl rfl,
      factor_of_counts verdicts (n + 1) rfl rfl, SettledBy, not_and_or]
    exact or_congr_left few

theorem answer?_eq_none
    (accepted : start cdf theta threshold alpha beta minTraces maxTraces = .ok t)
    (verdicts : Nat → Bool) (n : Nat) :
    t.answer? cdf verdicts n = none ↔
      ¬SettledBy (factorAmong cdf t.priorOdds alpha beta theta verdicts) threshold minTraces
        maxTraces n := by
  obtain ⟨-, prior, -, rfl⟩ := start_eq_ok accepted
  exact answer?_fresh_eq_none prior verdicts n

/-- For every test that can be set up, every stream of verdicts, and whatever the distribution
functions answer: the first answer comes at the least number of verdicts within the bounds at
which the Bayes factor of the verdicts leaves `[1 / T, T]` or the budget is spent. It tells these
verdicts and their factor, and accepts the alternative exactly if the factor is above `T`, or
above one with the budget spent. The counts always add up, and with the budget spent every
verdict gets an answer. -/
theorem decides_by_rule
    (accepted : start cdf theta threshold alpha beta minTraces maxTraces = .ok t)
    (verdicts : Nat → Bool) :
    ∃ prior k, SchedulerLearning.priorOdds cdf alpha beta theta = .ok prior ∧
      let factor := factorAmong cdf prior alpha beta theta verdicts
      IsLeast {n | SettledBy factor threshold minTraces maxTraces n} k ∧
      max 1 (min minTraces maxTraces) ≤ k ∧ k ≤ maxTraces ∧
      (∀ n < k, t.answer? cdf verdicts n = none) ∧
      (∃ r, t.answer? cdf verdicts k = some r ∧ r.traces = k ∧
        r.satisfied = countAmong verdicts true k ∧ r.factor = factor k ∧
        (r.accepted = .alternative ↔ threshold < factor k ∨ k = maxTraces ∧ 1 < factor k)) ∧
      (∀ n, (t.after cdf verdicts n).satisfied ≤ (t.after cdf verdicts n).traces ∧
        (t.after cdf verdicts n).traces = n ∧
        (t.after cdf verdicts n).satisfied = countAmong verdicts true n ∧
        (t.after cdf verdicts n).traces - (t.after cdf verdicts n).satisfied =
          countAmong verdicts false n) ∧
      ∀ n, maxTraces ≤ n → (t.answer? cdf verdicts n).isSome := by
  have silent := answer?_eq_none accepted verdicts
  obtain ⟨budget, prior, odds, rfl⟩ := start_eq_ok accepted
  have spent : ∀ n, maxTraces ≤ n →
      SettledBy (factorAmong cdf prior alpha beta theta verdicts) threshold minTraces maxTraces n := by
    intro n most
    exact ⟨by omega, .inr (.inr most)⟩
  obtain ⟨k, least⟩ : ∃ k, IsLeast {n | SettledBy (factorAmong cdf prior alpha beta theta verdicts)
      threshold minTraces maxTraces n} k := by
    classical
    exact ⟨_, Nat.isLeast_find ⟨maxTraces, spent maxTraces le_rfl⟩⟩
  have within : k ≤ maxTraces := least.2 (spent maxTraces le_rfl)
  have some : 0 < k := by
    have := least.1.1
    omega
  refine ⟨prior, k, odds, least, least.1.1, within, ?_, ?_, ?_, ?_⟩
  · intro n before
    exact (silent n).mpr fun settled => absurd (least.2 settled) (Nat.not_le.mpr before)
  · obtain ⟨r, answered⟩ := Option.ne_none_iff_exists'.mp (mt (silent k).mp (not_not.mpr least.1))
    have decided := answered
    rw [answer?_eq some, after_eq rfl rfl] at decided
    obtain ⟨factor, satisfied, traces, settled⟩ := decision?_eq_some decided
    rw [factor_of_counts verdicts k rfl rfl] at factor settled
    refine ⟨r, answered, traces, satisfied, factor, ?_⟩
    have rule := settles?_eq_alternative ⟨theta, threshold, alpha, beta, prior,
      min minTraces maxTraces, maxTraces, k, countAmong verdicts true k⟩
      (factorAmong cdf prior alpha beta theta verdicts k)
    rw [settled] at rule
    have exhausted : maxTraces ≤ k ↔ k = maxTraces := by omega
    simpa [exhausted] using rule
  · intro n
    have total := countAmong_true_add_false verdicts n
    rw [after_eq rfl rfl]
    refine ⟨?_, rfl, rfl, ?_⟩ <;> simp only <;> omega
  · intro n most
    exact Option.isSome_iff_ne_none.mpr (mt (silent n).mp (not_not.mpr (spent n most)))

def numberless : Cumulative Float := fun _ _ => 0 / 0

/-- A test of at least five and at most two verdicts, whose factor is never a number: the second
verdict spends the budget, and the null hypothesis is accepted. -/
theorem decides_by_rule_without_number :
    ∃ t, start numberless 0.5 1000 0.5 0.5 5 2 = .ok t ∧
      t.answer? numberless (fun _ => true) 1 = none ∧
      ∃ r, t.answer? numberless (fun _ => true) 2 = some r ∧ r.satisfied = 2 ∧
        r.accepted = .null := by
  obtain ⟨t, accepted⟩ : ∃ t, start numberless 0.5 1000 0.5 0.5 5 2 = .ok t := ⟨_, rfl⟩
  obtain ⟨prior, k, odds, -, low, high, silent, ⟨r, answered, -, satisfied, -, rule⟩, -⟩ :=
    decides_by_rule accepted fun _ => true
  obtain rfl : k = 2 := by omega
  have unsettled : ¬(1000 < factorAmong numberless prior 0.5 0.5 0.5 (fun _ => true) 2 ∨
      2 = 2 ∧ 1 < factorAmong numberless prior 0.5 0.5 0.5 (fun _ => true) 2) := by
    cases odds
    decide +kernel
  refine ⟨t, accepted, silent 1 (by decide), r, answered, satisfied, ?_⟩
  cases h : r.accepted with
  | null => rfl
  | alternative => exact absurd (rule.mp h) unsettled

end HypothesisTest

end SchedulerLearning
