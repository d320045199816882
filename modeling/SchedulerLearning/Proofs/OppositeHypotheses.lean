import SchedulerLearning.Proofs.WholeShapes
import Mathlib.Algebra.Order.Field.Basic

/-!
# The two hypotheses are treated alike

In exact arithmetic, a test of `1 - p` on the negated verdicts is the mirror image of the test of
`p`: its Bayes factors are reciprocal, and it decides at the same verdict for the other hypothesis.
Only a factor of one with the budget spent is no evidence for either, and leaves both at the null
hypothesis.
-/

namespace SchedulerLearning

def Hypothesis.other : Hypothesis → Hypothesis
  | .null => .alternative
  | .alternative => .null

def negated (verdicts : Nat → Bool) (n : Nat) : Bool := !verdicts n

theorem countAmong_negated (verdicts : Nat → Bool) (verdict : Bool) (n : Nat) :
    countAmong (negated verdicts) verdict n = countAmong verdicts (!verdict) n := by
  unfold countAmong negated
  congr 1
  funext i
  cases verdicts i <;> cases verdict <;> rfl

/-- Whether the belief in `p ≤ theta` is never certain, and always what the belief in
`1 - p ≤ 1 - theta` leaves of one. -/
structure BeliefReflects (cdf : Cumulative Rat) (alpha beta theta : Rat) : Prop where
  pos : ∀ satisfied failed, 0 < belief cdf alpha beta theta satisfied failed
  lt_one : ∀ satisfied failed, belief cdf alpha beta theta satisfied failed < 1
  reflects : ∀ satisfied failed,
    belief cdf alpha beta theta satisfied failed =
      1 - belief cdf beta alpha (1 - theta) failed satisfied

-- ---------------------------------------------------------------------------
-- Reciprocal factors
-- ---------------------------------------------------------------------------

theorem odds_pos {p : Rat} (low : 0 < p) (high : p < 1) : 0 < odds p := div_pos low (sub_pos.mpr high)

theorem odds_one_sub (p : Rat) : odds (1 - p) = 1 / odds p := by
  rw [odds, odds, sub_sub_cancel, one_div_div]

theorem one_div_sub_one {p : Rat} (some : p ≠ 0) : 1 / p - 1 = odds (1 - p) := by
  rw [odds, sub_sub_cancel, sub_div, div_self some]

namespace BeliefReflects

variable {cdf : Cumulative Rat} {theta alpha beta : Rat}

theorem mirror (h : BeliefReflects cdf alpha beta theta) : BeliefReflects cdf beta alpha (1 - theta) := by
  have complement (failed satisfied : Nat) : belief cdf beta alpha (1 - theta) failed satisfied =
      1 - belief cdf alpha beta theta satisfied failed := by
    rw [h.reflects, sub_sub_cancel]
  refine ⟨fun failed satisfied => ?_, fun failed satisfied => ?_, fun failed satisfied => ?_⟩
  · rw [complement]
    exact sub_pos.mpr (h.lt_one satisfied failed)
  · rw [complement]
    exact sub_lt_self 1 (h.pos satisfied failed)
  · rw [complement, sub_sub_cancel]

theorem factor_eq (h : BeliefReflects cdf alpha beta theta) (ha : 0 < alpha) (hb : 0 < beta)
    (verdicts : Nat → Bool) (n : Nat) :
    factorAmong cdf (odds (belief cdf alpha beta theta 0 0)) alpha beta theta verdicts n =
      odds (belief cdf alpha beta theta 0 0) * odds (1 - belief cdf alpha beta theta
        (countAmong verdicts true n) (countAmong verdicts false n)) := by
  rw [factorAmong_eq ha hb, one_div_sub_one (h.pos _ _).ne']

theorem factor_pos (h : BeliefReflects cdf alpha beta theta) (ha : 0 < alpha) (hb : 0 < beta)
    (verdicts : Nat → Bool) (n : Nat) :
    0 < factorAmong cdf (odds (belief cdf alpha beta theta 0 0)) alpha beta theta verdicts n := by
  rw [h.factor_eq ha hb]
  have low := h.pos (countAmong verdicts true n) (countAmong verdicts false n)
  have high := h.lt_one (countAmong verdicts true n) (countAmong verdicts false n)
  exact mul_pos (odds_pos (h.pos 0 0) (h.lt_one 0 0))
    (odds_pos (sub_pos.mpr high) (sub_lt_self 1 low))

theorem factor_negated (h : BeliefReflects cdf alpha beta theta) (ha : 0 < alpha) (hb : 0 < beta)
    (verdicts : Nat → Bool) (n : Nat) :
    factorAmong cdf (odds (belief cdf beta alpha (1 - theta) 0 0)) beta alpha (1 - theta)
        (negated verdicts) n =
      1 / factorAmong cdf (odds (belief cdf alpha beta theta 0 0)) alpha beta theta verdicts n := by
  rw [h.mirror.factor_eq hb ha, h.factor_eq ha hb, countAmong_negated, countAmong_negated,
    Bool.not_true, Bool.not_false, h.reflects 0 0, h.reflects (countAmong verdicts true n),
    sub_sub_cancel, odds_one_sub, odds_one_sub, mul_one_div, one_div_mul_eq_div, one_div_div]

theorem whole {x : Rat} (low : 0 < x) (high : x < 1) : BeliefReflects wholeCdf 1 1 x := by
  have pos {y : Rat} (low : 0 < y) (high : y ≤ 1) (satisfied failed : Nat) :
      0 < belief wholeCdf 1 1 y satisfied failed := by
    rw [belief_wholeCdf]
    exact atLeast_pos low high (by omega)
  have reflects (satisfied failed : Nat) : belief wholeCdf 1 1 x satisfied failed =
      1 - belief wholeCdf 1 1 (1 - x) failed satisfied := by
    rw [belief_wholeCdf, belief_wholeCdf, Nat.add_comm failed satisfied]
    exact eq_sub_of_add_eq (atLeast_add_atLeast (by omega))
  refine ⟨pos low high.le, fun satisfied failed => ?_, reflects⟩
  rw [reflects]
  exact sub_lt_self 1 (pos (sub_pos.mpr high) (sub_le_self 1 low.le) failed satisfied)

end BeliefReflects

-- ---------------------------------------------------------------------------
-- Opposite decisions
-- ---------------------------------------------------------------------------

namespace HypothesisTest

section
variable {threshold : Rat} {minTraces maxTraces n : Nat} {factor : Nat → Rat}

theorem SettledBy.above_or_below (large : 1 ≤ threshold)
    (settled : SettledBy factor threshold minTraces maxTraces n) :
    threshold < factor n ∨ factor n < 1 ∨ maxTraces ≤ n :=
  settled.2.imp_right (Or.imp_left fun low =>
    low.trans_le (div_le_one_of_le₀ large (zero_le_one.trans large)))

theorem SettledBy.alternativeBy_iff (large : 1 ≤ threshold)
    (settled : SettledBy factor threshold minTraces maxTraces n) :
    AlternativeBy factor threshold maxTraces n ↔ 1 < factor n := by
  constructor
  · rintro (above | ⟨-, above⟩)
    · exact large.trans_lt above
    · exact above
  · intro above
    obtain high | low | spent := settled.above_or_below large
    · exact .inl high
    · exact absurd above low.not_gt
    · exact .inr ⟨spent, above⟩

theorem SettledBy.spent (large : 1 ≤ threshold)
    (settled : SettledBy factor threshold minTraces maxTraces n) (one : factor n = 1) :
    maxTraces ≤ n := by
  obtain high | low | spent := settled.above_or_below large
  · exact absurd (one ▸ high) large.not_gt
  · exact absurd one low.ne
  · exact spent

/-- The hypothesis that a factor is for. One that is for neither goes to the null hypothesis. -/
def favoured (factor : Rat) : Hypothesis := if 1 < factor then .alternative else .null

theorem favoured_eq_alternative {x : Rat} : favoured x = .alternative ↔ 1 < x := by
  unfold favoured
  split <;> simp [*]

theorem favoured_reciprocal {x : Rat} (pos : 0 < x) (ne : x ≠ 1) :
    favoured (1 / x) = (favoured x).other := by
  have turned : 1 < 1 / x ↔ x < 1 := by rw [lt_one_div one_pos pos, one_div_one]
  unfold favoured
  obtain low | high := lt_or_gt_of_ne ne
  · rw [if_pos (turned.mpr low), if_neg low.not_gt, Hypothesis.other]
  · rw [if_neg (mt turned.mp high.not_gt), if_pos high, Hypothesis.other]

theorem decides_favoured {cdf : Cumulative Rat} {theta alpha beta prior : Rat}
    {verdicts : Nat → Bool} (large : 1 ≤ threshold)
    (least : IsLeast {m | SettledBy (factorAmong cdf prior alpha beta theta verdicts) threshold
      minTraces maxTraces m} n) :
    (fresh theta threshold alpha beta prior minTraces maxTraces).Decides cdf verdicts n
      (favoured (factorAmong cdf prior alpha beta theta verdicts n)) :=
  decides_iff.mpr
    ⟨least, favoured_eq_alternative.trans (least.1.alternativeBy_iff large).symm⟩

section
variable {reciprocal : Nat → Rat} (large : 1 ≤ threshold) (pos : ∀ m, 0 < factor m)
  (inverse : ∀ m, reciprocal m = 1 / factor m)

include large pos inverse

theorem settledBy_reciprocal :
    SettledBy reciprocal threshold minTraces maxTraces =
      SettledBy factor threshold minTraces maxTraces := by
  have above_zero : 0 < threshold := zero_lt_one.trans_le large
  funext m
  unfold SettledBy
  rw [inverse, lt_one_div above_zero (pos m), one_div_lt_one_div (pos m) above_zero, or_left_comm]

theorem favoured_opposite (budget : 0 < maxTraces) :
    ∃ k, IsLeast {m | SettledBy factor threshold minTraces maxTraces m} k ∧
      IsLeast {m | SettledBy reciprocal threshold minTraces maxTraces m} k ∧
      if k = maxTraces ∧ factor k = 1 then
        favoured (factor k) = .null ∧ favoured (reciprocal k) = .null
      else favoured (reciprocal k) = (favoured (factor k)).other := by
  have at_most : SettledBy factor threshold minTraces maxTraces maxTraces :=
    ⟨by omega, .inr (.inr le_rfl)⟩
  obtain ⟨k, within, least⟩ := at_most.exists_isLeast
  refine ⟨k, least, ?_, ?_⟩
  · rwa [settledBy_reciprocal large pos inverse]
  · rw [inverse]
    split
    · next even =>
      rw [even.2, one_div_one]
      exact ⟨rfl, rfl⟩
    · next uneven =>
      refine favoured_reciprocal (pos k) fun one => uneven ⟨?_, one⟩
      exact le_antisymm within (least.1.spent large one)

end

end

/-- In exact arithmetic, the mirror image of a test, with `1 - theta` for `theta` and the parameters
of the prior distribution exchanged, can be set up too. On the negated verdicts it has the
reciprocal Bayes factor after every verdict, and it decides at the same verdict for the other
hypothesis, unless that is the last one of the budget and the factor is one: then both accept the
null hypothesis. -/
theorem mirror_decides_opposite {cdf : Cumulative Rat} {theta threshold alpha beta : Rat}
    {minTraces maxTraces : Nat} {t : HypothesisTest Rat}
    (begun : start cdf theta threshold alpha beta minTraces maxTraces = .ok t)
    (reflects : BeliefReflects cdf alpha beta theta) (verdicts : Nat → Bool) :
    ∃ u, start cdf (1 - theta) threshold beta alpha minTraces maxTraces = .ok u ∧
      (∀ n, 0 < (t.after cdf verdicts n).factor cdf ∧
        (u.after cdf (negated verdicts) n).factor cdf = 1 / (t.after cdf verdicts n).factor cdf) ∧
      ∃ k h h', t.Decides cdf verdicts k h ∧ u.Decides cdf (negated verdicts) k h' ∧
        if k = maxTraces ∧ (t.after cdf verdicts k).factor cdf = 1 then h = .null ∧ h' = .null
        else h' = h.other := by
  obtain ⟨⟨low, high⟩, large, budget, ⟨ha, hb⟩, rfl⟩ := start_eq_ok_iff.mp begun
  have pos := reflects.factor_pos ha hb verdicts
  have inverse := reflects.factor_negated ha hb verdicts
  obtain ⟨k, least, least', opposite⟩ := favoured_opposite large pos inverse budget
  refine ⟨_, start_eq_ok_iff.mpr ⟨⟨sub_pos.mpr high, sub_lt_self 1 low⟩, large, budget, ⟨hb, ha⟩, rfl⟩,
    fun n => ?_, k, _, _, decides_favoured large least, decides_favoured large least', ?_⟩
  · rw [factor_after, factor_after]
    exact ⟨pos n, inverse n⟩
  · rwa [factor_after]

/-- Under a uniform prior distribution and with a third for `theta`, a success and a failure have a
factor of 10/7. With the budget spent, that is for the alternative, and 7/10 for the null
hypothesis. -/
theorem mirror_decides_opposite_of_one_third :
    ∃ t u, start wholeCdf (1 / 3) 5 1 1 1 2 = .ok t ∧ start wholeCdf (1 - 1 / 3) 5 1 1 1 2 = .ok u ∧
      t.Decides wholeCdf (· == 0) 2 .alternative ∧ u.Decides wholeCdf (negated (· == 0)) 2 .null := by
  have begun : start wholeCdf (1 / 3) 5 1 1 1 2 = .ok (fresh (1 / 3) 5 1 1 (1 / 2) 1 2) := by
    refine start_eq_ok_iff.mpr ⟨by decide +kernel, by decide +kernel, by decide, by decide +kernel, ?_⟩
    rw [show odds (belief wholeCdf 1 1 (1 / 3) 0 0) = 1 / 2 by decide +kernel]
  have decided : (fresh (1 / 3) 5 1 1 (1 / 2) 1 2).Decides wholeCdf (· == 0) 2 .alternative := by
    decide +kernel
  obtain ⟨u, begun', -, k, h, h', decides, decides', opposite⟩ :=
    mirror_decides_opposite begun (.whole (by decide +kernel) (by decide +kernel)) (· == 0)
  obtain ⟨rfl, rfl⟩ := decided.unique decides
  rw [if_neg (by decide +kernel)] at opposite
  subst opposite
  exact ⟨_, u, begun, begun', decided, decides'⟩

end HypothesisTest

end SchedulerLearning
