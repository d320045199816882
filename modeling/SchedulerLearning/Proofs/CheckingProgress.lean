import SchedulerLearning.Proofs.CheckingPace
import SchedulerLearning.Proofs.ServedGrants
import Mathlib.Order.Bounds.Basic

/-!
# Checking never strands itself

At the pace that a check keeps, its channel never overflows, a batch is issued only when the one
before is used up, and nothing is waited for that nobody will do.
-/

namespace SchedulerLearning

variable {s : Session} {a : Account} {c : Checking}

-- ---------------------------------------------------------------------------
-- Room and progress
-- ---------------------------------------------------------------------------

theorem Worker.sum_muted (ws : List Worker) :
    (ws.map (·.phase.muted)).sum = ws.countP Worker.hasStopped := by
  induction ws with
  | nil => rfl
  | cons w rest ih =>
    rw [List.map_cons, List.sum_cons, ih, List.countP_cons]
    cases hq : w.phase <;> simp [Phase.muted, hasStopped, hq, Nat.add_comm]

theorem Session.not_ready_of_stuck (stuck : ∀ place, s.stepWorker place = none) {w : Worker}
    (hw : w ∈ s.workers) : w.ready s.shared = false := by
  obtain ⟨place, there⟩ := List.mem_iff_getElem?.mp hw
  by_contra ready
  have stops := stuck place
  simp [stepWorker, there, Worker.step, Bool.eq_true_of_not_eq_false ready] at stops

namespace Checking.Paced

theorem verdicts_le (hp : c.Paced a s) : s.shared.verdicts ≤ s.config.checkBatch := by
  have weight := hp.weight
  have ahead := hp.ahead
  unfold Checking.weight at weight
  omega

theorem muted_le_one (p : Phase) : p.muted ≤ 1 := by
  cases p <;> simp [Phase.muted]

theorem room (hp : c.Paced a s) {w : Worker} (hw : w ∈ s.workers) (going : w.phase ≠ .stopped) :
    s.shared.takesReport = true := by
  obtain ⟨channel, opened, capacity⟩ := hp.capacity
  have verdicts := hp.verdicts_le
  have failures := hp.failures
  -- The place in the channel for a failure of this worker is not taken.
  have muted : (s.workers.map (·.phase.muted)).sum < s.workers.length := by
    refine sum_map_lt_length (fun w _ => muted_le_one w.phase) hw ?_
    cases hq : w.phase <;> simp_all [Phase.muted]
  have length := s.shared.verdicts_add_failures
  rw [Shared.pending_eq opened] at length
  have room : channel.room ≠ 0 := by omega
  simp [Shared.takesReport, opened, Channel.hasRoom, room]

theorem ready (hp : c.Paced a s) {w : Worker} (hw : w ∈ s.workers)
    (asking : w.phase ≠ .requesting) (going : w.phase ≠ .stopped) : w.ready s.shared = true := by
  have room := hp.room hw going
  cases hq : w.phase with
  | requesting => exact absurd hq asking
  | stopped => exact absurd hq going
  | delivering holding =>
    simp only [Worker.ready, hq]
    split <;> simp [room]
  | reporting => simpa [Worker.ready, hq] using room
  | _ => simp [Worker.ready, hq]

theorem isLeast (hp : c.Paced a s) (tight : c.issued < c.received + s.config.checkBatch) :
    IsLeast {n | s.config.checkBatch ∣ n ∧ c.received ≤ n} c.issued := by
  have weight := hp.weight
  unfold Checking.weight at weight
  refine ⟨⟨hp.whole, by omega⟩, fun n ⟨whole, most⟩ => ?_⟩
  by_contra less
  -- A lesser multiple of the batch would be at least a batch less.
  have apart := Nat.le_of_dvd (by omega) (Nat.dvd_sub hp.whole whole)
  omega

/-- If no worker can go on, they all wait for jobs, or the queue is closed by a failure that is
known. -/
theorem waiting (hp : c.Paced a s) (hm : s.Manned) (stuck : ∀ place, s.stepWorker place = none)
    (sound : s.shared.queue.failure = none) : ∀ w ∈ s.workers, w.phase = .requesting := by
  intro w hw
  by_contra asking
  have opened := hp.serves.open_of_sound sound
  have going : w.phase ≠ .stopped := by
    intro stopped
    have closed := hm.done w hw (by rw [stopped]; trivial)
    rw [opened] at closed
    contradiction
  have ready := hp.ready hw asking going
  rw [Session.not_ready_of_stuck stuck hw] at ready
  contradiction

/-- While something is to be received, either it is there or some worker can go on. -/
theorem receives (hp : c.Paced a s) (hm : s.Manned) (pool : s.workers ≠ [])
    (receiving : c.phase = .receiving) (stuck : ∀ place, s.stepWorker place = none) :
    s.shared.pending ≠ [] := by
  intro empty
  have verdicts : s.shared.verdicts = 0 := by simp [Shared.verdicts, empty]
  have failures : s.shared.failures = 0 := by simp [Shared.failures, empty]
  have opens : c.phase.Open := by
    rw [receiving]
    trivial
  cases failure : s.shared.queue.failure with
  | some error =>
    rcases hp.failed opens (by simp [failure]) with waits | ⟨w, hw, reports⟩
    · omega
    · have ready := hp.ready hw (fun h => by rw [h] at reports; exact reports)
        (fun h => by rw [h] at reports; exact reports)
      rw [Session.not_ready_of_stuck stuck hw] at ready
      contradiction
  | none =>
    -- All workers wait for jobs, so those that are missing have to be in the queue.
    have requesting := hp.waiting hm stuck failure
    have jobs := sum_phases Phase.jobs rfl requesting
    have weight := hp.sound opens failure
    have short := hp.receiving receiving
    unfold Checking.weight at weight
    obtain ⟨w, hw⟩ := List.exists_mem_of_ne_nil _ pool
    have ready : w.ready s.shared = true := by
      simp only [Worker.ready, requesting w hw, JobQueue.answers]
      simp
      omega
    rw [Session.not_ready_of_stuck stuck hw] at ready
    contradiction

theorem drains (hp : c.Paced a s) (hm : s.Manned) {outcome : Except LearnError Outcome}
    (draining : c.phase = .draining outcome) (stuck : ∀ place, s.stepWorker place = none) :
    s.shared.queue.idle = true := by
  rw [JobQueue.idle_iff]
  cases failure : s.shared.queue.failure with
  | some error => exact .inr rfl
  | none =>
    have requesting := hp.waiting hm stuck failure
    refine .inl ⟨hp.withdrawn outcome draining, ?_⟩
    rw [hm.active]
    exact sum_phases Phase.grants rfl requesting

theorem goes_on (hp : c.Paced a s) (hm : s.Manned) (pool : s.workers ≠ [])
    (blocked : step s c = .blocked) : ∃ place, (s.stepWorker place).isSome := by
  by_contra none
  have stuck : ∀ place, s.stepWorker place = .none := by
    intro place
    rw [← Option.not_isSome_iff_eq_none]
    exact fun some => none ⟨place, some⟩
  unfold step at blocked
  cases phase : c.phase with
  | looking =>
    simp only [phase, look] at blocked
    repeat' split at blocked
    all_goals cases blocked
  | receiving =>
    obtain ⟨channel, opened, -⟩ := hp.capacity
    have pending := hp.receives hm pool phase stuck
    rw [Shared.pending_eq opened] at pending
    obtain ⟨⟨report, channel'⟩, received⟩ :=
      Option.ne_none_iff_exists'.mp (mt Channel.receive_eq_none.mp pending)
    cases report with
    | error error => simp [phase, receive, opened, received] at blocked
    | ok verdict =>
      simp only [phase, receive, opened, Option.bind_some, received] at blocked
      split at blocked <;> cases blocked
  | withdrawing outcome => simp [phase, withdraw] at blocked
  | draining outcome => simp [phase, drain, hp.drains hm phase stuck] at blocked

end Checking.Paced

/-- In a run of a check, whatever the workers do: when the coordinator looks at the queue with
all jobs issued received, none is left and a batch can be issued; the channel holds at most a
batch of verdicts and one failure of each stopped worker, so no worker waits for room in it;
a decision finds as many jobs issued as whole batches have to be; and the coordinator never
waits for what no worker will do. -/
theorem Run.checking_progress {s : Session} {c : Checking} (run : Run a ⟨s, .checking c⟩) :
    (c.phase = .looking → s.shared.queue.failure = none → c.received = c.issued →
      s.shared.queue.remaining = 0 ∧ s.shared.queue.active = 0 ∧
        ∃ s', s.issue s.config.checkBatch = (s', .ok ())) ∧
    (c.phase = .receiving → c.received < c.issued) ∧
    (s.shared.verdicts ≤ s.config.checkBatch ∧
      s.shared.failures ≤ s.workers.countP Worker.hasStopped ∧
      ∃ channel, s.shared.channel = some channel ∧
        channel.toList.length + channel.room = s.config.checkBatch + s.workers.length) ∧
    (∀ w ∈ s.workers, w.phase ≠ .requesting → w.phase ≠ .stopped → w.ready s.shared = true) ∧
    (∀ outcome, c.phase = .withdrawing (.ok outcome) ∨ c.phase = .draining (.ok outcome) →
      a.issued = c.issued ∧
        IsLeast {n | s.config.checkBatch ∣ n ∧ c.received ≤ n} c.issued) ∧
    (Checking.step s c = .blocked → ∃ place, (s.stepWorker place).isSome) := by
  obtain ⟨hm, pool⟩ := run.orderly
  have hp : c.Paced a s := run.paced
  refine ⟨fun _ _ level => ?_, hp.receiving, ⟨hp.verdicts_le, ?_, hp.capacity⟩,
    fun w hw => hp.ready hw, fun outcome decided => ?_, hp.goes_on hm pool⟩
  · obtain ⟨remaining, active⟩ := hp.level hm level
    exact ⟨remaining, active, _, Session.issue_eq_ok.mpr ⟨remaining, rfl⟩⟩
  · rw [← Worker.sum_muted]
    exact hp.failures
  · have heard : c.phase.Heard := by
      rcases decided with decided | decided <;> rw [decided] <;> trivial
    exact ⟨hp.issued, hp.isLeast (hp.heard heard)⟩

def Batch.ofVerdicts : Batch := ⟨.verdicts, none⟩

-- Two workers, up to the decision of a test that takes four verdicts: three of a batch, and one of
-- the next batch, of which a grant is still out.
namespace Pair

def test (verdicts : Nat) : Procedure := .testing ⟨0.5, 1000, 0.5, 0.5, 1, 4, 4, verdicts, verdicts⟩

theorem decides : ∃ outcome, ∀ (shared : Shared) (ws : List Worker),
    Checking.step (session { shared with channel := some ⟨[], [.ok ⟨true, 1⟩], 4⟩ } ws)
      ⟨test 3, 6, 3, .receiving⟩ =
        .continues (session { shared with channel := some (.ofRoom 5) } ws)
          ⟨test 4, 6, 4, .withdrawing (.ok outcome)⟩ := by
  obtain ⟨outcome, decided⟩ : ∃ outcome, ((test 3).observe true).2 = some outcome := by
    rw [← Option.isSome_iff_exists]
    simp [test, Procedure.observe, HypothesisTest.observe, HypothesisTest.decision?,
      HypothesisTest.settles?, HypothesisTest.record]
    split <;> rfl
  have observed : (test 3).observe true = (test 4, some outcome) := Prod.ext rfl decided
  refine ⟨outcome, fun shared ws => ?_⟩
  simp only [Checking.step, Checking.receive, session, Channel.receive?, Option.bind_some,
    List.reverse_cons, List.reverse_nil, List.nil_append, observed]
  rfl

theorem reports_eq {rs : List Result} (yields : ∀ r ∈ rs, begun.setup.task.Yields r) :
    rs.flatMap (Shared.reports .verdicts) = List.replicate rs.length (.ok ⟨true, 1⟩) := by
  have verdicts : ∀ r ∈ rs, (.ok r.verdict : Report) = .ok ⟨true, 1⟩ := fun r there =>
    congrArg Except.ok (Except.ok.inj (yields r there).judged).symm
  rw [← List.map_eq_replicate_iff.mpr verdicts, List.map_eq_flatMap]
  rfl

theorem checks {shared : Shared} {queue : JobQueue Batch} {channel : Channel Report} {ws : List Worker}
    {w : Worker} (place count : Nat)
    (agrees : (session { shared with queue, channel := some channel } ws).Agrees)
    (there : ws[place]? = some w)
    (begins : w.phase = Worker.beginJob begun.setup ⟨count + 1, .ofVerdicts⟩) (active : 0 < queue.active)
    (room : count + 1 ≤ channel.room) :
    ∃ (shared' : Shared) (w' : Worker),
      (session { shared with queue, channel := some channel } ws).WorksTo
        (session { shared' with
            queue := { queue with active := queue.active - 1 }
            channel := some ((List.replicate (count + 1) (.ok ⟨true, 1⟩)).foldl .send channel) }
          (ws.set place { w' with phase := .requesting })) := by
  have spacious : ({ shared with channel := some channel } : Shared).HasRoom .verdicts (count + 1) := by
    rintro - _ ⟨⟩
    exact room
  obtain ⟨rs, shared', w', works, length, served⟩ :=
    serves { shared with channel := some channel } place count agrees there begins active spacious
  have sent : shared'.channel =
      some ((List.replicate (count + 1) (.ok ⟨true, 1⟩)).foldl .send channel) := by
    rw [← length, ← reports_eq served.yields]
    exact served.channel
  refine ⟨shared', w', ?_⟩
  rw [← sent]
  exact works

theorem checked : ∃ a s outcome,
    Run a ⟨s, .checking ⟨test 4, 6, 4, .withdrawing (.ok outcome)⟩⟩ ∧ s.workers.length = 2 ∧
      s.config.checkBatch = 3 ∧ s.shared.queue.active = 1 := by
  have begins : Run {} ⟨session { begun.shared with
      queue := .ofContext .ofVerdicts, channel := some (.ofRoom 5) } [first, second],
      .checking ⟨test 0, 0, 0, .looking⟩⟩ :=
    started.coordinate (.check rfl)
  have issued : Run { issued := 3 } ⟨session { begun.shared with
      queue := ⟨3, 0, false, none, .ofVerdicts⟩, channel := some (.ofRoom 5) } [first, second],
      .checking ⟨test 0, 3, 0, .receiving⟩⟩ :=
    begins.coordinate (.checking rfl)
  have claims (shared : Shared) (w₀ w₁ : Worker) :
      (session { shared with queue := ⟨3, 0, false, none, .ofVerdicts⟩, channel := some (.ofRoom 5) }
        [{ w₀ with phase := .requesting }, { w₁ with phase := .requesting }]).WorksTo
      (session { shared with queue := ⟨0, 2, false, none, .ofVerdicts⟩, channel := some (.ofRoom 5) }
        [{ w₀ with phase := Worker.beginJob begun.setup ⟨2, .ofVerdicts⟩ },
          { w₁ with phase := Worker.beginJob begun.setup ⟨1, .ofVerdicts⟩ }]) :=
    .tail (.single ⟨0, rfl⟩) ⟨1, rfl⟩
  obtain ⟨_, run⟩ := issued.worksTo (claims begun.shared first second)
  obtain ⟨s₁, w₁, works⟩ := checks 1 0 run.drawn.agrees rfl rfl (by decide) (by decide)
  obtain ⟨_, run⟩ := run.worksTo works
  obtain ⟨s₂, w₀, works⟩ := checks 0 1 run.drawn.agrees rfl rfl (by decide) (by decide)
  obtain ⟨_, run⟩ := run.worksTo works
  -- Each verdict is received and looked at, and the last of the batch is followed by a new batch.
  have reissued : Run _ ⟨session { s₂ with
      queue := ⟨3, 0, false, none, .ofVerdicts⟩, channel := some (.ofRoom 5) }
        [{ w₀ with phase := .requesting }, { w₁ with phase := .requesting }],
      .checking ⟨test 3, 6, 3, .receiving⟩⟩ :=
    (((((run.coordinate (.checking rfl)).coordinate (.checking rfl)).coordinate
      (.checking rfl)).coordinate (.checking rfl)).coordinate (.checking rfl)).coordinate (.checking rfl)
  obtain ⟨_, run⟩ := reissued.worksTo (claims s₂ w₀ w₁)
  obtain ⟨s₃, w₁, works⟩ := checks 1 0 run.drawn.agrees rfl rfl (by decide) (by decide)
  obtain ⟨_, run⟩ := run.worksTo works
  obtain ⟨outcome, decided⟩ := decides
  have waits : Run _ ⟨session { ({ s₃ with queue := ⟨0, 1, false, none, .ofVerdicts⟩ } : Shared) with
      channel := some ⟨[], [.ok ⟨true, 1⟩], 4⟩ }
        [{ w₀ with phase := Worker.beginJob begun.setup ⟨2, .ofVerdicts⟩ },
          { w₁ with phase := .requesting }],
      .checking ⟨test 3, 6, 3, .receiving⟩⟩ :=
    run
  exact ⟨_, _, outcome, waits.coordinate (.checking (decided _ _)), rfl, rfl, rfl⟩

end Pair

theorem Run.checking_progress_of_two_workers :
    ∃ a s c outcome, Run a ⟨s, .checking c⟩ ∧ s.workers.length = 2 ∧ s.shared.queue.active = 1 ∧
      c.phase = .withdrawing (.ok outcome) ∧ c.received = 4 ∧ a.issued = 6 ∧ s.config.checkBatch = 3 ∧
      IsLeast {n | s.config.checkBatch ∣ n ∧ c.received ≤ n} c.issued := by
  obtain ⟨_, _, outcome, run, workers, size, active⟩ := Pair.checked
  obtain ⟨-, -, -, -, decided, -⟩ := Run.checking_progress run
  obtain ⟨issued, least⟩ := decided outcome (.inl rfl)
  exact ⟨_, _, _, outcome, run, workers, active, rfl, rfl, issued, size, least⟩

end SchedulerLearning
