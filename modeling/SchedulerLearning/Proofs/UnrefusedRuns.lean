import SchedulerLearning.Proofs.ExecutedRuns
import SchedulerLearning.Proofs.Manning
import SchedulerLearning.Proofs.SessionTurns
import SchedulerLearning.Proofs.ValidSettings

/-!
# Runs that are not refused for their settings

A session with a valid configuration may fail for what a worker met or by a fault, but no call of a
whole run refuses a setting or a parameter of a statistic, in any order of steps.
-/

namespace SchedulerLearning

/-- Whether a refusal is one of a setting, or of a parameter of a statistic. -/
def LearnError.Misconfigured : LearnError → Prop
  | .config _ | .stats _ => True
  | _ => False

def Stop.Misconfigured : Stop LearnError → Prop
  | .refused e => e.Misconfigured
  | .faulted _ => False

variable {s s' : Session} {stage stage' : Stage} {stop : Stop LearnError}

-- ---------------------------------------------------------------------------
-- Calls
-- ---------------------------------------------------------------------------

theorem Session.config_start : s.start.1.config = s.config := by
  unfold start
  split
  · rfl
  · split <;> rfl

theorem Session.not_misconfigured_start {e : LearnError} (refused : s.start.2 = .error e) :
    ¬e.Misconfigured := by
  unfold start at refused
  split at refused
  · cases refused
    exact id
  · split at refused
    · cases refused
      exact id
    · cases refused

theorem Session.not_misconfigured_ensureRunning {e : LearnError} (refused : s.ensureRunning = .error e) :
    ¬e.Misconfigured := by
  unfold ensureRunning at refused
  split at refused
  · cases refused
    exact id
  · split at refused
    · cases refused
      exact id
    · split at refused
      · cases refused
        exact id
      · cases refused

theorem not_misconfigured_of_lift {τ : Type} {x : Except Fault τ}
    (stopped : (liftM x : Except (Stop LearnError) τ) = .error stop) : ¬stop.Misconfigured := by
  obtain ⟨fault, -, rfl⟩ := mapError_eq_error.mp stopped
  exact id

namespace Learning

variable {l : Learning} {tracesPerBlock blocks : Nat}

theorem start_of_valid (valid : s.config.InRange) (running : s.ensureRunning = .ok ())
    (tracesPerBlock blocks : Nat) : ∃ prior, start s tracesPerBlock blocks =
      match Word.mul s.workers.length s.config.jobsPerRequest with
      | .ok jobs => .ok ((s.withContext .learning).resetRewards.resetCounts,
          ⟨tracesPerBlock, blocks, max 1 jobs, prior, 0, 0, false⟩)
      | .error fault => .error (.faulted fault) := by
  have odds : priorOdds Beta.floatCdf s.config.alpha s.config.beta s.config.learnTheta = .ok _ :=
    priorOdds_of_shape s.config.learnTheta valid.alpha valid.beta
  unfold start
  simp only [running, odds]
  split
  · exact ⟨some _, by cases Word.mul s.workers.length s.config.jobsPerRequest <;> rfl⟩
  · exact ⟨none, by cases Word.mul s.workers.length s.config.jobsPerRequest <;> rfl⟩

theorem not_misconfigured_start (valid : s.config.InRange)
    (refused : start s tracesPerBlock blocks = .error stop) : ¬stop.Misconfigured := by
  cases running : s.ensureRunning with
  | error e =>
    unfold start at refused
    rw [running] at refused
    cases refused
    exact Session.not_misconfigured_ensureRunning running
  | ok =>
    obtain ⟨prior, begins⟩ := start_of_valid valid running tracesPerBlock blocks
    rw [begins] at refused
    split at refused
    · cases refused
    · cases refused
      exact id

theorem endsEarly_of_valid (valid : s.config.InRange) (prior : Float) :
    ∃ ends, endsEarly s prior = .ok ends := by
  unfold endsEarly
  simp only
  rw [bayesFactor_of_counts Beta.floatCdf prior s.config.learnTheta valid.alpha valid.beta
    s.shared.satisfied.toNat_lt s.shared.failed.toNat_lt]
  exact ⟨_, rfl⟩

theorem not_misconfigured_collect (valid : s.config.InRange)
    (ends : collect s l = .returns s' (.error stop)) : ¬stop.Misconfigured := by
  unfold collect at ends
  split at ends
  · cases ends
  · split at ends
    · cases ends
      exact id
    · cases ends
    · next prior _ _ =>
      obtain ⟨early, made⟩ := endsEarly_of_valid valid prior
      rw [made] at ends
      cases early <;> cases ends

theorem not_misconfigured_step (valid : s.config.InRange) (ends : step s l = .returns s' (.error stop)) :
    ¬stop.Misconfigured := by
  unfold step at ends
  split at ends
  · exact not_misconfigured_collect valid ends
  · split at ends
    · cases ends
    · split at ends
      · simp only at ends
        split at ends
        · cases ends
        · cases ends
          exact id
      · unfold endBlock at ends
        simp only at ends
        split at ends
        · cases ends
          exact id
        · cases ends

end Learning

theorem Config.InRange.procedure {c : Config} (valid : c.InRange) :
    ∃ procedure, c.procedure = .ok procedure := by
  unfold Config.procedure
  rw [valid.testing, valid.estimation]
  cases c.method
  · exact ⟨_, rfl⟩
  · exact ⟨_, rfl⟩

def CheckPhase.Clean : CheckPhase → Prop
  | .looking | .receiving => True
  | .withdrawing outcome | .draining outcome => ∀ e, outcome = .error e → ¬e.Misconfigured

namespace Checking

variable {c c' : Checking}

theorem not_misconfigured_start {procedure : Procedure} (refused : start s procedure = .error stop) :
    ¬stop.Misconfigured := by
  unfold start at refused
  simp only [bind_eq_error] at refused
  obtain refused | ⟨_, -, refused | ⟨_, -, refused | ⟨_, -, refused⟩⟩⟩ := refused
  · obtain ⟨e, fails, rfl⟩ := mapError_eq_error.mp refused
    exact Session.not_misconfigured_ensureRunning fails
  · exact not_misconfigured_of_lift refused
  · exact not_misconfigured_of_lift refused
  · cases refused

theorem Turn.clean (turn : Turn s c s' c') (clean : c.phase.Clean) : c'.phase.Clean := by
  cases turn with
  | failed | broken =>
    rintro _ ⟨⟩
    exact id
  | decide => nofun
  | withdraw withdrawing =>
    rw [withdrawing] at clean
    exact clean
  | issue | look | observe => trivial

theorem End.not_misconfigured (ends : End s c s' (.error stop)) (clean : c.phase.Clean) :
    ¬stop.Misconfigured := by
  generalize drained : Except.error stop = result at ends
  cases ends with
  | drained draining =>
    obtain ⟨e, refused, rfl⟩ := mapError_eq_error.mp drained.symm
    rw [draining] at clean
    exact clean e refused
  | faulted =>
    cases drained
    exact id

end Checking

-- ---------------------------------------------------------------------------
-- A whole run
-- ---------------------------------------------------------------------------

/-- Whether no call of a whole run has refused a setting, or is about to. -/
def Stage.Clean : Stage → Prop
  | .checking _ c => c.phase.Clean
  | .failed stop => ¬stop.Misconfigured
  | _ => True

theorem Progress.stage_clean {σ β : Type} {during : σ → Stage} {after : β → Stage} {progress : Progress σ β}
    (h : progress.stage? during after = some (s', stage')) (config : Config)
    (goes : ∀ activity, progress = .continues s' activity → (during activity).Clean ∧ s'.config = config)
    (done : ∀ result, (after result).Clean)
    (ends : ∀ result, progress = .returns s' result →
      (∀ stop, result = .error stop → ¬stop.Misconfigured) ∧ s'.config = config) :
    stage'.Clean ∧ s'.config = config := by
  obtain ⟨activity, continues, rfl⟩ | ⟨result, returns, rfl⟩ | ⟨stop, returns, rfl⟩ :=
    Progress.stage_eq_some h
  · exact goes activity continues
  · exact ⟨done result, (ends _ returns).2⟩
  · exact ⟨(ends _ returns).1 stop rfl, (ends _ returns).2⟩

theorem Stage.next_clean (valid : s.config.InRange) (clean : stage.Clean)
    (step : stage.next s = some (s', stage')) : stage'.Clean ∧ s'.config = s.config := by
  cases stage with
  | starting =>
    have config := Session.config_start (s := s)
    simp only [next] at step
    split at step
    · next started =>
      cases step
      exact ⟨trivial, by rw [← config, started]⟩
    · next e refused =>
      cases step
      exact ⟨Session.not_misconfigured_start (by rw [refused]), by rw [← config, refused]⟩
  | started =>
    simp only [next] at step
    split at step
    · next learns =>
      cases step
      obtain ⟨-, rfl, -⟩ := Learning.start_eq_ok learns
      exact ⟨trivial, rfl⟩
    · next refused =>
      cases step
      exact ⟨Learning.not_misconfigured_start valid refused, rfl⟩
  | learning l =>
    refine Progress.stage_clean step _ (fun l' goes => ?_) (fun _ => trivial) fun result ends => ?_
    · exact ⟨trivial, (Learning.turn_of_step goes).samePool.config⟩
    · refine ⟨?_, (Learning.end_of_step ends).samePool.config⟩
      rintro stop rfl
      exact Learning.not_misconfigured_step valid ends
  | learned report =>
    cases step
    refine ⟨trivial, ?_⟩
    split <;> rfl
  | deciding report =>
    obtain ⟨procedure, chosen⟩ := valid.procedure
    simp only [next, chosen] at step
    split at step
    · next checks =>
      cases step
      obtain ⟨-, rfl, rfl⟩ := Checking.start_eq_ok checks
      exact ⟨trivial, rfl⟩
    · next refused =>
      cases step
      exact ⟨Checking.not_misconfigured_start refused, rfl⟩
  | checking report c =>
    refine Progress.stage_clean step _ (fun c' goes => ?_) (fun _ => trivial) fun result ends => ?_
    · have turn := Checking.turn_of_step goes
      exact ⟨turn.clean clean, turn.samePool.config⟩
    · have ended := Checking.end_of_step ends
      refine ⟨?_, ended.samePool.config⟩
      rintro stop rfl
      exact ended.not_misconfigured clean
  | checked report outcome =>
    cases step
    exact ⟨trivial, by unfold Session.close; split <;> rfl⟩
  | stopping report outcome =>
    refine Progress.stage_clean step _ (fun _ goes => ?_) (fun _ => trivial) fun result ends => ?_
    · unfold Session.join at goes
      split at goes <;> cases goes
    · unfold Session.join at ends
      split at ends
      · cases ends
        exact ⟨fun stop failed => by simp at failed, rfl⟩
      · cases ends
  | finished | failed => cases step

theorem Point.Step.clean {before after : Point} (step : before.Step after)
    (valid : before.session.config.InRange) (clean : before.stage.Clean) :
    after.stage.Clean ∧ after.session.config = before.session.config := by
  cases step with
  | work place step =>
    obtain ⟨_, _, _, -, -, rfl⟩ := Session.stepWorker_eq_some step
    exact ⟨clean, rfl⟩
  | coordinate step => exact Stage.next_clean valid clean step

theorem Point.LeadsTo.clean {before after : Point} (leads : before.LeadsTo after)
    (valid : before.session.config.InRange) (clean : before.stage.Clean) :
    after.stage.Clean ∧ after.session.config = before.session.config := by
  induction leads with
  | refl => exact ⟨clean, rfl⟩
  | tail _ step ih =>
    obtain ⟨kept, same⟩ := ih
    obtain ⟨clean', config⟩ := step.clean (same ▸ valid) kept
    exact ⟨clean', config.trans same⟩

theorem Session.not_misconfigured_prepare {process : DecisionProcess Float} {property : Property}
    {config : Config} {machine : Machine} (valid : config.validate = .ok ())
    (refused : prepare process property config machine = .error stop) : ¬stop.Misconfigured := by
  unfold prepare at refused
  simp only [bind_eq_error] at refused
  obtain refused | ⟨_, -, refused | ⟨_, -, refused | ⟨_, -, refused | ⟨_, -, refused | ⟨_, -, refused⟩⟩⟩⟩⟩ :=
    refused
  · obtain ⟨e, invalid, -⟩ := mapError_eq_error.mp refused
    cases valid.symm.trans invalid
  · exact not_misconfigured_of_lift refused
  · exact not_misconfigured_of_lift refused
  · exact not_misconfigured_of_lift refused
  · exact not_misconfigured_of_lift refused
  · cases refused

/-- In floating point: with a valid configuration the prior odds, the test and the estimator of the
configuration are set up, and every Bayes factor that is asked for is computed, from any counts below
`2 ^ 64`; the test's own factor is that one, and the estimator's mass that of a posterior. A session of
that configuration is prepared without a refusal of a setting, and whatever order its workers and its
coordinator step in, a whole run ends in no refusal of a setting or a parameter, nor does the run that
is executed. -/
theorem valid_settings_suffice (config : Config) (valid : config.validate = .ok ()) :
    (∀ cdf : Cumulative Float,
      (∃ odds, priorOdds cdf config.alpha config.beta config.learnTheta = .ok odds) ∧
      (∀ odds theta satisfied failed, satisfied < Word.size → failed < Word.size →
        ∃ factor, bayesFactor cdf odds config.alpha config.beta theta satisfied failed = .ok factor) ∧
      (∃ t, HypothesisTest.start cdf config.theta config.threshold config.alpha config.beta
          config.minTraces config.maxTraces = .ok t ∧
        ∀ verdicts n, n < Word.size →
          bayesFactor cdf t.priorOdds config.alpha config.beta config.theta (countAmong verdicts true n)
            (countAmong verdicts false n) = .ok ((t.after cdf verdicts n).factor cdf)) ∧
      ∃ e, IntervalEstimator.start config.alpha config.beta config.delta config.coefficient = .ok e ∧
        ∀ verdicts n, n < Word.size → ∃ posterior,
          Beta.of ((countAmong verdicts true n : Float) + config.alpha)
            ((countAmong verdicts false n : Float) + config.beta) = .ok posterior ∧
          ∀ lower upper,
            (e.after cdf verdicts n).mass cdf lower upper = posterior.massBetween cdf lower upper) ∧
    (∀ process property machine stop,
      Session.prepare process property config machine = .error stop → ¬stop.Misconfigured) ∧
    ∀ s : Session, s.config = config →
      (∀ prior, ∃ ends, Learning.endsEarly s prior = .ok ends) ∧
      (∀ s' stop, Point.LeadsTo ⟨s, .starting⟩ ⟨s', .failed stop⟩ → ¬stop.Misconfigured) ∧
      ∀ s' stop, s.run = (s', .error stop) → ¬stop.Misconfigured := by
  have ranges := Config.validate_eq_ok.mp valid
  refine ⟨fun cdf => ⟨?_, ?_, ?_, ?_⟩, ?_, ?_⟩
  · exact ⟨_, priorOdds_of_shape config.learnTheta ranges.alpha ranges.beta⟩
  · intro odds theta satisfied failed satisfied_lt failed_lt
    exact ⟨_, bayesFactor_of_counts cdf odds theta ranges.alpha ranges.beta satisfied_lt failed_lt⟩
  · exact ⟨_, ranges.testing,
      fun verdicts n within => ranges.factor_of_testing ranges.testing verdicts within⟩
  · exact ⟨_, ranges.estimation,
      fun verdicts n within => ranges.mass_of_estimation ranges.estimation verdicts within⟩
  · exact fun _ _ _ _ refused => Session.not_misconfigured_prepare valid refused
  · rintro s rfl
    have failed : ∀ s' stop, Point.LeadsTo ⟨s, .starting⟩ ⟨s', .failed stop⟩ → ¬stop.Misconfigured :=
      fun _ _ leads => (leads.clean ranges trivial).1
    refine ⟨Learning.endsEarly_of_valid ranges, failed, fun s' stop ran => ?_⟩
    obtain ⟨s'', leads⟩ | ⟨fault, rfl⟩ := Session.failed_of_run ran
    · exact failed s'' stop leads
    · exact id

theorem valid_settings_suffice_of_smallest :
    (∃ factor, bayesFactor Beta.floatCdf 1 0.5 0.5 0.5 (Word.size - 1) (Word.size - 1) = .ok factor) ∧
    ∀ s' stop, (Smallest.session .requesting 0 (.ofContext .learning) 0 none).run = (s', .error stop) →
      ¬stop.Misconfigured := by
  obtain ⟨statistics, -, runs⟩ := valid_settings_suffice Smallest.config rfl
  obtain ⟨-, factors, -⟩ := statistics Beta.floatCdf
  exact ⟨factors 1 0.5 _ _ (by decide) (by decide), (runs _ rfl).2.2⟩

end SchedulerLearning
