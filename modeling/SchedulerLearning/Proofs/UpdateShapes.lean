import SchedulerLearning.Learning.Update
import SchedulerLearning.Proofs.Outcome
import SchedulerLearning.Proofs.Totals

/-!
# Updates keep the number of choices

On any scalars, a rule that is given as many rewards as probabilities answers with as many, and
nothing but a counter that overflows stops it.
-/

namespace SchedulerLearning

-- ---------------------------------------------------------------------------
-- Overflows
-- ---------------------------------------------------------------------------

variable {σ τ : Type}

/-- Whether nothing but an overflow stops a computation. -/
def OnlyOverflows (x : Except Fault τ) : Prop :=
  ∀ fault, x = .error fault → ∃ operation, fault = .overflow operation

namespace OnlyOverflows

theorem ok (a : τ) : OnlyOverflows (.ok a) := by
  rintro fault ⟨⟩

theorem bind {x : Except Fault τ} {f : τ → Except Fault σ} (hx : OnlyOverflows x)
    (hf : ∀ a, x = .ok a → OnlyOverflows (f a)) : OnlyOverflows (x >>= f) := by
  cases x with
  | ok a => exact hf a rfl
  | error fault =>
    rintro _ ⟨⟩
    exact hx fault rfl

theorem map {x : Except Fault τ} (hx : OnlyOverflows x) (f : τ → σ) : OnlyOverflows (x.map f) :=
  hx.bind fun a _ => ok (f a)

theorem mapM {f : σ → Except Fault τ} (hf : ∀ a, OnlyOverflows (f a)) (xs : List σ) :
    OnlyOverflows (xs.mapM f) := by
  induction xs with
  | nil => exact ok []
  | cons x rest ih =>
    rw [List.mapM_cons]
    exact (hf x).bind fun _ _ => ih.bind fun _ _ => ok _

theorem foldlM {f : τ → σ → Except Fault τ} (hf : ∀ a b, OnlyOverflows (f a b)) (xs : List σ)
    (start : τ) : OnlyOverflows (xs.foldlM f start) := by
  induction xs generalizing start with
  | nil => exact ok start
  | cons x rest ih =>
    rw [List.foldlM_cons]
    exact (hf start x).bind fun next _ => ih next

end OnlyOverflows

namespace Word

theorem add_overflows (a b : Nat) : OnlyOverflows (add a b) := by
  unfold add
  split
  · exact .ok _
  · rintro _ ⟨⟩
    exact ⟨_, rfl⟩

theorem addSigned_overflows (a b : Int) : OnlyOverflows (addSigned a b) := by
  unfold addSigned
  split
  · exact .ok _
  · rintro _ ⟨⟩
    exact ⟨_, rfl⟩

theorem subSigned_overflows (a b : Int) : OnlyOverflows (subSigned a b) := by
  unfold subSigned
  split
  · exact .ok _
  · rintro _ ⟨⟩
    exact ⟨_, rfl⟩

end Word

theorem Tally.trials_eq_ok {t : Tally} {n : Nat} :
    t.trials = .ok n ↔ t.total < Word.size ∧ t.total = n :=
  Word.add_eq_ok

theorem Tallies.trials_eq_ok {ts : Tallies} {n : Nat} :
    ts.trials = .ok n ↔ n = (ts.map Tally.total).sum ∧ n < Word.size := by
  unfold Tallies.trials
  simp only [bind_eq_ok, Word.sum_eq_ok, mapM_eq_ok]
  constructor
  · rintro ⟨xs, each, rfl, within⟩
    obtain rfl := forall₂_eq_map.mp (each.imp fun t x h => (Tally.trials_eq_ok.mp h).2.symm)
    exact ⟨rfl, within⟩
  · rintro ⟨rfl, within⟩
    refine ⟨ts.map Tally.total, ?_, rfl, within⟩
    refine List.forall₂_map_right_iff.mpr (List.forall₂_same.mpr fun t there => ?_)
    exact Tally.trials_eq_ok.mpr ⟨(le_sum_map Tally.total there).trans_lt within, rfl⟩

theorem length_of_mapM {ε : Type} {f : σ → Except ε τ} {xs : List σ} {ys : List τ}
    (h : xs.mapM f = .ok ys) : ys.length = xs.length :=
  (mapM_eq_ok.mp h).length_eq.symm

namespace UpdateRule

variable {α : Type} [Scalar α] {rule : UpdateRule} {w : UpdateWeights α} {old new target : List α}
  {rewards : Tallies} {outcome : Option (List α)}

-- ---------------------------------------------------------------------------
-- Proposals
-- ---------------------------------------------------------------------------

/-- What a rule makes of rewards with trials, `none` if they say nothing to it. -/
def proposed? (rule : UpdateRule) (w : UpdateWeights α) (old : List α) (rewards : Tallies) :
    Except Fault (Option (List α)) :=
  match rule with
  | .count | .success => .ok ((normalised? (estimates old rewards)).map (blend w.history old))
  | .completeCount => do return (← scoreTarget? rewards).map (blend w.history old)
  | .epsilon => .ok <| if old.length < 2 then none else some <| (List.range old.length).map fun i =>
      if i = Scalar.argmax (estimates old rewards) then 1 - w.epsilon
      else w.epsilon / ((old.length - 1 : Nat) : α)
  | .epsilonCount => .ok <| (normalised? (estimates old rewards)).map fun normalised =>
      blend (1 - w.history) old (greedyTarget w.epsilon (estimates old rewards) normalised)

theorem next?_eq (same : old.length = rewards.length) : next? rule w old rewards =
    rewards.trials >>= fun n => if n = 0 then .ok none else proposed? rule w old rewards := by
  unfold next?
  simp only [same, ne_eq, not_true_eq_false, if_false]
  refine congrArg (rewards.trials >>= ·) (funext fun n => ?_)
  split
  · rfl
  · cases rule with
    | epsilon =>
      simp only [proposed?, ← same]
      split <;> rfl
    | _ => rfl

theorem next?_of_ne (differ : old.length ≠ rewards.length) : next? rule w old rewards =
    .error (.assertion "policy and rewards disagree on the number of choices") := by
  unfold next?
  simp only [differ, ne_eq, not_false_eq_true, if_true]
  rfl

theorem next?_eq_ok : next? rule w old rewards = .ok outcome ↔
    old.length = rewards.length ∧ (rewards.map Tally.total).sum < Word.size ∧
      if (rewards.map Tally.total).sum = 0 then outcome = none
      else proposed? rule w old rewards = .ok outcome := by
  by_cases same : old.length = rewards.length
  · rw [next?_eq same, and_iff_right same]
    simp only [bind_eq_ok, Tallies.trials_eq_ok]
    constructor
    · rintro ⟨_, ⟨rfl, within⟩, h⟩
      refine ⟨within, ?_⟩
      split at h
      · next untried => rw [if_pos untried, ← Except.ok.inj h]
      · next tried => rwa [if_neg tried]
    · rintro ⟨within, h⟩
      refine ⟨_, ⟨rfl, within⟩, ?_⟩
      split at h
      · next untried => rw [if_pos untried, h]
      · next tried => rwa [if_neg tried]
  · rw [next?_of_ne same]
    exact iff_of_false nofun fun h => same h.1

/-- Unless it takes scores, a rule makes something of all rewards whose trials can be counted. -/
theorem next?_of_within (unscored : rule ≠ .completeCount) (same : old.length = rewards.length)
    (within : (rewards.map Tally.total).sum < Word.size) :
    ∃ outcome, next? rule w old rewards = .ok outcome := by
  obtain ⟨proposal, made⟩ : ∃ outcome, proposed? rule w old rewards = .ok outcome := by
    cases rule with
    | completeCount => exact absurd rfl unscored
    | _ => exact ⟨_, rfl⟩
  by_cases untried : (rewards.map Tally.total).sum = 0
  · exact ⟨none, next?_eq_ok.mpr ⟨same, within, by rw [if_pos untried]⟩⟩
  · exact ⟨proposal, next?_eq_ok.mpr ⟨same, within, by rwa [if_neg untried]⟩⟩

theorem trials_overflows (rewards : Tallies) : OnlyOverflows rewards.trials :=
  (OnlyOverflows.mapM (fun _ => Word.add_overflows _ _) rewards).bind fun xs _ =>
    .foldlM Word.add_overflows xs 0

theorem shifted_overflows (scores : List Int) : OnlyOverflows (shifted scores) := by
  have added : ∀ shift, OnlyOverflows (scores.mapM (Word.addSigned · shift)) :=
    fun shift => .mapM (Word.addSigned_overflows · shift) scores
  unfold shifted
  simp only
  split
  · exact (Word.subSigned_overflows _ _).bind fun shift _ => added shift
  · exact (OnlyOverflows.ok _).bind fun shift _ => added shift

theorem scoreTarget?_overflows (rewards : Tallies) :
    OnlyOverflows (scoreTarget? (α := α) rewards) :=
  (OnlyOverflows.mapM (fun _ => Word.subSigned_overflows _ _) rewards).bind fun scores _ =>
    (shifted_overflows scores).bind fun shifted _ =>
      (OnlyOverflows.foldlM Word.addSigned_overflows shifted 0).bind fun _ _ => .ok _

theorem proposed?_overflows : OnlyOverflows (proposed? rule w old rewards) := by
  cases rule with
  | completeCount => exact (scoreTarget?_overflows rewards).bind fun _ _ => .ok _
  | _ => exact .ok _

/-- The assertion on the number of choices holds of as many rewards as probabilities. -/
theorem next?_overflows (same : old.length = rewards.length) :
    OnlyOverflows (next? rule w old rewards) := by
  rw [next?_eq same]
  refine (trials_overflows rewards).bind fun trials _ => ?_
  split
  · exact .ok _
  · exact proposed?_overflows

-- ---------------------------------------------------------------------------
-- Lengths
-- ---------------------------------------------------------------------------

theorem length_estimates (same : old.length = rewards.length) :
    (estimates old rewards).length = old.length := by
  rw [estimates, List.length_zipWith, same, Nat.min_self]

theorem length_blend {weight : α} (same : target.length = old.length) :
    (blend weight old target).length = old.length := by
  rw [blend, List.length_zipWith, same, Nat.min_self]

theorem length_greedyTarget (epsilon : α) (es target : List α) :
    (greedyTarget epsilon es target).length = target.length := by
  rw [greedyTarget, List.length_mapIdx]

theorem length_normalised? {es : List α} (h : normalised? es = some target) :
    target.length = es.length := by
  unfold normalised? at h
  simp only at h
  split at h
  · cases h
  · cases h
    exact List.length_map _

theorem length_shifted {scores scores' : List Int} (h : shifted scores = .ok scores') :
    scores'.length = scores.length := by
  unfold shifted at h
  simp only at h
  split at h <;>
    obtain ⟨_, -, h⟩ := bind_eq_ok.mp h <;>
    exact length_of_mapM h

theorem length_scoreTarget? (h : scoreTarget? rewards = .ok (some target)) :
    target.length = rewards.length := by
  obtain ⟨scores, scored, h⟩ := bind_eq_ok.mp h
  obtain ⟨shifted, shift, h⟩ := bind_eq_ok.mp h
  obtain ⟨total, -, h⟩ := bind_eq_ok.mp h
  have length := (length_shifted shift).trans (length_of_mapM scored)
  have h := Except.ok.inj h
  split at h
  · cases h
  · cases h
    rw [List.length_map, length]

theorem length_of_proposed? (same : old.length = rewards.length)
    (h : proposed? rule w old rewards = .ok (some new)) : new.length = old.length := by
  have estimated := length_estimates same
  cases rule with
  | count | success =>
    obtain ⟨target, made, rfl⟩ := Option.map_eq_some_iff.mp (Except.ok.inj h)
    exact length_blend ((length_normalised? made).trans estimated)
  | completeCount =>
    obtain ⟨target?, made, h⟩ := bind_eq_ok.mp h
    obtain ⟨target, rfl, rfl⟩ := Option.map_eq_some_iff.mp (Except.ok.inj h)
    exact length_blend ((length_scoreTarget? made).trans same.symm)
  | epsilon =>
    have made := Except.ok.inj h
    split at made
    · cases made
    · cases made
      rw [List.length_map, List.length_range]
  | epsilonCount =>
    obtain ⟨target, made, rfl⟩ := Option.map_eq_some_iff.mp (Except.ok.inj h)
    refine length_blend ?_
    rw [length_greedyTarget, length_normalised? made, estimated]

theorem length_of_next? (h : next? rule w old rewards = .ok (some new)) :
    new.length = old.length := by
  obtain ⟨same, -, h⟩ := next?_eq_ok.mp h
  split at h
  · cases h
  · exact length_of_proposed? same h

end UpdateRule

end SchedulerLearning
