import SchedulerLearning.Proofs.WholeShapes
import Mathlib.Algebra.Order.Field.Basic

/-!
# More satisfied verdicts, more evidence

In exact arithmetic, a stream of verdicts that is ahead of another in every prefix has the greater
Bayes factors, and a test that accepts the alternative on the one accepts it on the other, and no
later.
-/

namespace SchedulerLearning

/-- Whether a success in place of a failure never makes `p ≤ theta` more likely. -/
structure BeliefFalls (cdf : Cumulative Rat) (alpha beta theta : Rat) : Prop where
  pos : ∀ satisfied failed, 0 < belief cdf alpha beta theta satisfied failed
  exchange : ∀ satisfied failed,
    belief cdf alpha beta theta (satisfied + 1) failed ≤
      belief cdf alpha beta theta satisfied (failed + 1)

section
variable {cdf : Cumulative Rat} {theta alpha beta prior : Rat} {first second : Nat → Bool} {n : Nat}

theorem BeliefFalls.le (falls : BeliefFalls cdf alpha beta theta) {few many : Nat}
    (more : few ≤ many) (within : many ≤ n) :
    belief cdf alpha beta theta many (n - many) ≤ belief cdf alpha beta theta few (n - few) := by
  induction many, more using Nat.le_induction with
  | base => exact le_rfl
  | succ many _ ih =>
    have failed : n - many = n - (many + 1) + 1 := by omega
    calc belief cdf alpha beta theta (many + 1) (n - (many + 1))
        ≤ belief cdf alpha beta theta many (n - (many + 1) + 1) := falls.exchange _ _
      _ = belief cdf alpha beta theta many (n - many) := by rw [failed]
      _ ≤ belief cdf alpha beta theta few (n - few) := ih (by omega)

theorem factorAmong_le (ha : 0 < alpha) (hb : 0 < beta) (odds : 0 ≤ prior)
    (falls : BeliefFalls cdf alpha beta theta)
    (more : countAmong first true n ≤ countAmong second true n) :
    factorAmong cdf prior alpha beta theta first n ≤
      factorAmong cdf prior alpha beta theta second n := by
  have total_first := countAmong_true_add_false first n
  have total_second := countAmong_true_add_false second n
  have less_likely := falls.le more (show countAmong second true n ≤ n by omega)
  rw [show n - countAmong first true n = countAmong first false n by omega,
    show n - countAmong second true n = countAmong second false n by omega] at less_likely
  rw [factorAmong_eq ha hb, factorAmong_eq ha hb]
  refine mul_le_mul_of_nonneg_left ?_ odds
  exact sub_le_sub_right (one_div_le_one_div_of_le (falls.pos _ _) less_likely) 1

theorem BeliefFalls.whole {x : Rat} (low : 0 < x) (high : x ≤ 1) : BeliefFalls wholeCdf 1 1 x where
  pos satisfied failed := by
    rw [belief_wholeCdf]
    exact atLeast_pos low high (by omega)
  exchange satisfied failed := by
    have trials : satisfied + 1 + failed = satisfied + (failed + 1) := by omega
    rw [belief_wholeCdf, belief_wholeCdf, trials]
    exact atLeast_succ_le low.le high

end

namespace HypothesisTest

/-- Greater factors settle a test no later, if smaller ones settle it on the alternative. Before
that the smaller ones are within the thresholds and the budget is not spent, so the greater ones
can only be above. -/
theorem alternativeBy_of_le {threshold : Rat} {minTraces maxTraces n : Nat} {lower upper : Nat → Rat}
    (below : ∀ m ≤ n, lower m ≤ upper m)
    (least : IsLeast {m | SettledBy lower threshold minTraces maxTraces m} n)
    (alternative : AlternativeBy lower threshold maxTraces n) :
    ∃ m ≤ n, IsLeast {k | SettledBy upper threshold minTraces maxTraces k} m ∧
      AlternativeBy upper threshold maxTraces m := by
  have at_end : AlternativeBy upper threshold maxTraces n :=
    alternative.imp (·.trans_le (below n le_rfl)) fun ⟨spent, above⟩ =>
      ⟨spent, above.trans_le (below n le_rfl)⟩
  have settled : SettledBy upper threshold minTraces maxTraces n :=
    ⟨least.1.1, at_end.elim .inl fun ⟨spent, _⟩ => .inr (.inr spent)⟩
  obtain ⟨m, early, first_settled⟩ := settled.exists_isLeast
  refine ⟨m, early, first_settled, ?_⟩
  obtain rfl | before := early.eq_or_lt
  · exact at_end
  · obtain ⟨enough, above | low | spent⟩ := first_settled.1
    · exact .inl above
    · exact absurd (least.2 ⟨enough, .inr (.inl ((below m early).trans_lt low))⟩)
        (Nat.not_le.mpr before)
    · exact absurd (least.2 ⟨enough, .inr (.inr spent)⟩) (Nat.not_le.mpr before)

/-- In exact arithmetic, whatever the prior odds, as long as they are not negative: if one stream
of verdicts has at least as many satisfied ones as another among the first `m`, for every `m` up to
the verdict at which the test accepts the alternative on the other stream, then it accepts the
alternative on this one too, at this verdict or before. -/
theorem more_satisfied_accepts {cdf before : Cumulative Rat} {theta threshold alpha beta : Rat}
    {minTraces maxTraces n : Nat} {t : HypothesisTest Rat} {first second : Nat → Bool}
    (begun : start before theta threshold alpha beta minTraces maxTraces = .ok t)
    (odds : 0 ≤ t.priorOdds) (falls : BeliefFalls cdf alpha beta theta)
    (more : ∀ m ≤ n, countAmong first true m ≤ countAmong second true m)
    (decided : t.Decides cdf first n .alternative) :
    ∃ m ≤ n, t.Decides cdf second m .alternative := by
  obtain ⟨-, -, -, ⟨ha, hb⟩, rfl⟩ := start_eq_ok_iff.mp begun
  obtain ⟨least, rule⟩ := decides_iff.mp decided
  obtain ⟨m, early, least', alternative⟩ :=
    alternativeBy_of_le (fun m early => factorAmong_le ha hb odds falls (more m early)) least
      (rule.mp rfl)
  exact ⟨m, early, decides_iff.mpr ⟨least', iff_of_true rfl alternative⟩⟩

/-- Under a uniform prior distribution, one failure and two successes have a factor of 11/5, which
the budget of three verdicts turns into a decision. Two successes have a factor of 7 before that. -/
theorem more_satisfied_accepts_without_failure :
    ∃ t, start wholeCdf (1 / 2) 4 1 1 1 3 = .ok t ∧
      t.Decides wholeCdf (· != 0) 3 .alternative ∧
      ∃ m ≤ 3, t.Decides wholeCdf (fun _ => true) m .alternative := by
  have begun : start wholeCdf (1 / 2) 4 1 1 1 3 = .ok (fresh (1 / 2) 4 1 1 1 1 3) := by
    refine start_eq_ok_iff.mpr ⟨by decide +kernel, by decide +kernel, by decide, by decide +kernel, ?_⟩
    rw [show odds (belief wholeCdf 1 1 (1 / 2) 0 0) = 1 by decide +kernel]
  have decided : (fresh (1 / 2) 4 1 1 1 1 3).Decides wholeCdf (· != 0) 3 .alternative := by
    decide +kernel
  have more : ∀ m ≤ 3, countAmong (· != 0) true m ≤ countAmong (fun _ => true) true m := by
    decide +kernel
  exact ⟨_, begun, decided, more_satisfied_accepts begun (by decide +kernel)
    (.whole (by decide +kernel) (by decide +kernel)) more decided⟩

end HypothesisTest

end SchedulerLearning
