import SchedulerLearning.Proofs.StoppingRule
import Mathlib.Algebra.Order.Field.Rat

/-!
# Decisions and their evidence

When a test decides, and for which hypothesis, read off the Bayes factors of its verdicts; and
these factors in exact arithmetic, where every verdict has one.
-/

namespace SchedulerLearning

-- ---------------------------------------------------------------------------
-- Decisions
-- ---------------------------------------------------------------------------

section
variable {α : Type} [Scalar α]

namespace HypothesisTest

/-- Whether the factor of `n` verdicts that settle a test is for the alternative. -/
def AlternativeBy (factor : Nat → α) (threshold : α) (maxTraces n : Nat) : Prop :=
  threshold < factor n ∨ maxTraces ≤ n ∧ 1 < factor n

theorem SettledBy.exists_isLeast {factor : Nat → α} {threshold : α} {minTraces maxTraces n : Nat}
    (settled : SettledBy factor threshold minTraces maxTraces n) :
    ∃ m ≤ n, IsLeast {k | SettledBy factor threshold minTraces maxTraces k} m := by
  classical
  have least := Nat.isLeast_find ⟨n, settled⟩
  exact ⟨_, least.2 settled, least⟩

/-- The first answer of a test comes with verdict number `n`, and accepts the given hypothesis. -/
def Decides (cdf : Cumulative α) (t : HypothesisTest α) (verdicts : Nat → Bool) (n : Nat)
    (accepts : Hypothesis) : Prop :=
  (∀ m < n, t.answer? cdf verdicts m = none) ∧
    ∃ r, t.answer? cdf verdicts n = some r ∧ r.accepted = accepts

instance {cdf : Cumulative α} {t : HypothesisTest α} {verdicts : Nat → Bool} {n : Nat}
    {accepts : Hypothesis} : Decidable (t.Decides cdf verdicts n accepts) :=
  decidable_of_iff ((∀ m < n, (t.answer? cdf verdicts m).isNone) ∧
      (t.answer? cdf verdicts n).map TestResult.accepted = some accepts) <| by
    simp only [Decides, Option.isNone_iff_eq_none, Option.map_eq_some_iff]

variable {cdf : Cumulative α} {theta threshold alpha beta prior : α} {minTraces maxTraces n : Nat}
  {verdicts : Nat → Bool} {accepts : Hypothesis}

theorem Decides.unique {t : HypothesisTest α} {n' : Nat} {accepts' : Hypothesis}
    (h : t.Decides cdf verdicts n accepts) (h' : t.Decides cdf verdicts n' accepts') :
    n = n' ∧ accepts = accepts' := by
  obtain ⟨quiet, r, answered, rfl⟩ := h
  obtain ⟨quiet', r', answered', rfl⟩ := h'
  obtain before | rfl | after := Nat.lt_trichotomy n n'
  · rw [quiet' n before] at answered
    cases answered
  · rw [answered] at answered'
    cases answered'
    exact ⟨rfl, rfl⟩
  · rw [quiet n' after] at answered'
    cases answered'

theorem factor_after (n : Nat) :
    ((fresh theta threshold alpha beta prior minTraces maxTraces).after cdf verdicts n).factor cdf =
      factorAmong cdf prior alpha beta theta verdicts n := by
  rw [after_eq rfl rfl]
  exact factor_of_counts verdicts n rfl rfl

theorem accepted_eq_alternative {r : TestResult α}
    (answered : (fresh theta threshold alpha beta prior minTraces maxTraces).answer? cdf verdicts n =
      some r) :
    r.accepted = .alternative ↔
      AlternativeBy (factorAmong cdf prior alpha beta theta verdicts) threshold maxTraces n := by
  cases n with
  | zero => cases answered
  | succ n =>
    rw [answer?_eq n.succ_pos, after_eq rfl rfl] at answered
    obtain ⟨-, -, -, settled⟩ := decision?_eq_some answered
    have rule := settled ▸ settles?_eq_alternative _ _
    rwa [Option.some_inj, factor_of_counts verdicts (n + 1) rfl rfl] at rule

theorem decides_iff :
    (fresh theta threshold alpha beta prior minTraces maxTraces).Decides cdf verdicts n accepts ↔
      IsLeast {m | SettledBy (factorAmong cdf prior alpha beta theta verdicts) threshold minTraces
        maxTraces m} n ∧
      (accepts = .alternative ↔
        AlternativeBy (factorAmong cdf prior alpha beta theta verdicts) threshold maxTraces n) := by
  have silent (m : Nat) :
      (fresh theta threshold alpha beta prior minTraces maxTraces).answer? cdf verdicts m = none ↔ _ :=
    answer?_fresh_eq_none prior verdicts m
  constructor
  · rintro ⟨quiet, r, answered, rfl⟩
    refine ⟨⟨?_, fun m settled => ?_⟩, accepted_eq_alternative answered⟩
    · by_contra unsettled
      rw [(silent n).mpr unsettled] at answered
      cases answered
    · by_contra earlier
      exact (silent m).mp (quiet m (Nat.lt_of_not_le earlier)) settled
  · rintro ⟨least, rule⟩
    refine ⟨fun m earlier => (silent m).mpr fun settled => ?_, ?_⟩
    · exact absurd (least.2 settled) (Nat.not_le.mpr earlier)
    · obtain ⟨r, answered⟩ := Option.ne_none_iff_exists'.mp (mt (silent n).mp (not_not.mpr least.1))
      refine ⟨r, answered, ?_⟩
      have same := (accepted_eq_alternative answered).trans rule.symm
      cases h : r.accepted <;> cases accepts <;> simp_all

end HypothesisTest

end

-- ---------------------------------------------------------------------------
-- Exact arithmetic
-- ---------------------------------------------------------------------------

section
variable {cdf : Cumulative Rat} {theta threshold alpha beta prior : Rat}

/-- The probability of `p ≤ theta` after `satisfied` and `failed` verdicts. -/
def belief (cdf : Cumulative Rat) (alpha beta theta : Rat) (satisfied failed : Nat) : Rat :=
  cdf ⟨(satisfied : Rat) + alpha, (failed : Rat) + beta⟩ theta

def odds (p : Rat) : Rat := p / (1 - p)

theorem Beta.of_eq_ok {d : Beta Rat} :
    Beta.of alpha beta = .ok d ↔ 0 < alpha ∧ 0 < beta ∧ d = ⟨alpha, beta⟩ := by
  have rule : Beta.of alpha beta =
      if 0 < alpha ∧ 0 < beta then .ok ⟨alpha, beta⟩ else .error (.invalidBeta alpha beta) := by
    simp [Beta.of, Scalar.isFinite]
  rw [rule]
  split
  · next shape => simp [shape, eq_comm]
  · next shape => simp [← and_assoc, shape]

theorem factorAmong_eq (ha : 0 < alpha) (hb : 0 < beta) (verdicts : Nat → Bool) (n : Nat) :
    factorAmong cdf prior alpha beta theta verdicts n =
      prior * (1 / belief cdf alpha beta theta (countAmong verdicts true n)
        (countAmong verdicts false n) - 1) := by
  have shape (satisfied failed : Nat) : Beta.of ((satisfied : Rat) + alpha) ((failed : Rat) + beta) =
      .ok ⟨satisfied + alpha, failed + beta⟩ :=
    Beta.of_eq_ok.mpr ⟨add_pos_of_nonneg_of_pos (Nat.cast_nonneg _) ha,
      add_pos_of_nonneg_of_pos (Nat.cast_nonneg _) hb, rfl⟩
  unfold factorAmong bayesFactor
  rw [shape]
  rfl

theorem belief_zero : belief cdf alpha beta theta 0 0 = cdf ⟨alpha, beta⟩ theta := by
  rw [belief, Nat.cast_zero, zero_add, zero_add]

theorem priorOdds_eq_ok :
    priorOdds cdf alpha beta theta = .ok prior ↔
      (0 < alpha ∧ 0 < beta) ∧ prior = odds (belief cdf alpha beta theta 0 0) := by
  unfold priorOdds
  simp only [bind_eq_ok, Beta.of_eq_ok, belief_zero]
  constructor
  · rintro ⟨d, ⟨ha, hb, rfl⟩, h⟩
    exact ⟨⟨ha, hb⟩, (Except.ok.inj h).symm⟩
  · rintro ⟨⟨ha, hb⟩, rfl⟩
    exact ⟨_, ⟨ha, hb, rfl⟩, rfl⟩

theorem HypothesisTest.start_eq_ok_iff {minTraces maxTraces : Nat} {t : HypothesisTest Rat} :
    start cdf theta threshold alpha beta minTraces maxTraces = .ok t ↔
      (0 < theta ∧ theta < 1) ∧ 1 ≤ threshold ∧ 0 < maxTraces ∧ (0 < alpha ∧ 0 < beta) ∧
        t = fresh theta threshold alpha beta (odds (belief cdf alpha beta theta 0 0)) minTraces
          maxTraces := by
  have finite : Scalar.isFinite threshold = true := rfl
  unfold start
  simp only [finite, Bool.and_eq_true, decide_eq_true_eq, and_true]
  split
  · next inside =>
    rw [and_iff_right inside]
    split
    · next large =>
      rw [and_iff_right large]
      split
      · next spent =>
        subst spent
        constructor
        · intro h
          cases h
        · rintro ⟨some, -⟩
          cases some
      · next some =>
        rw [and_iff_right (Nat.pos_of_ne_zero some), bind_eq_ok]
        simp only [priorOdds_eq_ok]
        constructor
        · rintro ⟨prior, ⟨shape, rfl⟩, h⟩
          exact ⟨shape, (Except.ok.inj h).symm⟩
        · rintro ⟨shape, rfl⟩
          exact ⟨_, ⟨shape, rfl⟩, rfl⟩
    · next small =>
      constructor
      · intro h
        cases h
      · rintro ⟨large, -⟩
        exact absurd large small
  · next outside =>
    constructor
    · intro h
      cases h
    · rintro ⟨inside, -⟩
      exact absurd inside outside

end

end SchedulerLearning
