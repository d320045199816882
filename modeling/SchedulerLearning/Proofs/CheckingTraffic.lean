import SchedulerLearning.Proofs.Service

/-!
# Traffic on the channel of a check

What a worker's move does to the reports that wait in the channel. A verdict takes the place
of a job, and a worker sends one failure before it stops, so what is in the channel can be
weighed against what is left to send.
-/

namespace SchedulerLearning

variable {setup : Setup} {shared shared' : Shared} {p q : Phase} {channel channel' : Channel Report}
  {report : Report}

theorem Channel.length_add_room_receive (h : channel.receive? = some (report, channel')) :
    channel'.toList.length + channel'.room = channel.toList.length + channel.room := by
  have room : channel'.room = channel.room + 1 := by
    unfold receive? at h
    split at h
    · cases h
      rfl
    · split at h
      · cases h
      · cases h
        rfl
  rw [toList_receive h, room, List.length_cons]
  omega

-- ---------------------------------------------------------------------------
-- What waits in the channel
-- ---------------------------------------------------------------------------

namespace Shared

def pending (shared : Shared) : List Report := shared.channel.elim [] Channel.toList

def verdicts (shared : Shared) : Nat := shared.pending.countP Except.isOk

def failures (shared : Shared) : Nat := shared.pending.countP (!·.isOk)

theorem verdicts_add_failures : shared.verdicts + shared.failures = shared.pending.length := by
  rw [List.length_eq_countP_add_countP Except.isOk]
  simp [verdicts, failures]

theorem pending_of_sent (opened : shared.channel = some channel)
    (sent : shared'.channel = (shared.send report).channel) :
    shared'.pending = shared.pending ++ [report] := by
  simp [pending, sent, opened]

theorem pending_of_received (opened : shared.channel = some channel)
    (received : channel.receive? = some (report, channel')) :
    shared.pending = report :: ({ shared with channel := some channel' } : Shared).pending := by
  simp [pending, opened, Channel.toList_receive received]

theorem counts_of_verdict_received {verdict : Verdict} (opened : shared.channel = some channel)
    (received : channel.receive? = some (.ok verdict, channel')) :
    shared.verdicts = ({ shared with channel := some channel' } : Shared).verdicts + 1 ∧
      shared.failures = ({ shared with channel := some channel' } : Shared).failures := by
  simp [verdicts, failures, pending_of_received opened received, List.countP_cons, Except.isOk,
    Except.toBool]

theorem counts_of_failure_received {error : ModelError Float} (opened : shared.channel = some channel)
    (received : channel.receive? = some (.error error, channel')) :
    shared.verdicts = ({ shared with channel := some channel' } : Shared).verdicts ∧
      shared.failures = ({ shared with channel := some channel' } : Shared).failures + 1 := by
  simp [verdicts, failures, pending_of_received opened received, Except.isOk, Except.toBool]

theorem room_of_sent (opened : shared.channel = some channel) (room : shared.takesReport = true)
    (sent : shared'.channel = (shared.send report).channel) :
    ∃ channel', shared'.channel = some channel' ∧
      channel'.toList.length + channel'.room = channel.toList.length + channel.room := by
  refine ⟨channel.send report, by simp [sent, opened], Channel.length_add_room_send report ?_⟩
  simpa [takesReport, opened] using room

theorem pending_eq (opened : shared.channel = some channel) : shared.pending = channel.toList := by
  simp [pending, opened]

end Shared

/-- How many failures a worker will never send any more. -/
def Phase.muted : Phase → Nat
  | .stopped => 1
  | _ => 0

def Phase.Reporting : Phase → Prop
  | .reporting _ => True
  | _ => False

section
variable {holding : Holding}

@[simp] theorem Phase.muted_requesting : Phase.requesting.muted = 0 := rfl

theorem Phase.muted_of_holding (h : p.holding? = some holding) : p.muted = 0 := by
  cases p <;> simp_all [muted]

theorem Phase.not_reporting_of_holding (h : p.holding? = some holding) : ¬p.Reporting := by
  cases p <;> simp_all [Reporting]

end

-- ---------------------------------------------------------------------------
-- One move
-- ---------------------------------------------------------------------------

/-- What a move does to the channel, weighed against the jobs that are left. -/
structure Passed (shared : Shared) (p : Phase) (shared' : Shared) (q : Phase) : Prop where
  jobs : shared'.verdicts + q.jobs + shared'.queue.remaining ≤
    shared.verdicts + p.jobs + shared.queue.remaining
  sound : shared'.queue.failure = none →
    shared'.verdicts + q.jobs + shared'.queue.remaining =
      shared.verdicts + p.jobs + shared.queue.remaining
  remaining : shared'.queue.remaining ≤ shared.queue.remaining
  muted : shared'.failures + p.muted ≤ shared.failures + q.muted
  waiting : shared.failures ≤ shared'.failures
  failed : shared'.queue.failure.isSome → shared.queue.failure.isSome ∨ q.Reporting
  reported : p.Reporting → 0 < shared'.failures
  capacity : ∀ channel, shared.channel = some channel → ∃ channel', shared'.channel = some channel' ∧
    channel'.toList.length + channel'.room = channel.toList.length + channel.room

theorem Passed.of_quiet (channel : shared'.channel = shared.channel)
    (jobs : q.jobs + shared'.queue.remaining = p.jobs + shared.queue.remaining)
    (remaining : shared'.queue.remaining ≤ shared.queue.remaining)
    (muted : p.muted ≤ q.muted) (failure : shared'.queue.failure = shared.queue.failure)
    (reporting : ¬p.Reporting) : Passed shared p shared' q := by
  have verdicts : shared'.verdicts = shared.verdicts := by
    simp only [Shared.verdicts, Shared.pending, channel]
  have failures : shared'.failures = shared.failures := by
    simp only [Shared.failures, Shared.pending, channel]
  refine ⟨by omega, fun _ => by omega, remaining, by omega, by omega, ?_, ?_, ?_⟩
  · rw [failure]
    exact Or.inl
  · exact fun reports => absurd reports reporting
  · intro channel' opened
    exact ⟨channel', by rw [channel, opened], rfl⟩

theorem Passed.of_verdict {verdict : Verdict} (opened : shared.channel = some channel)
    (room : shared.takesReport = true)
    (sent : shared'.channel = (shared.send (.ok verdict)).channel)
    (jobs : q.jobs + 1 = p.jobs) (remaining : shared'.queue.remaining = shared.queue.remaining)
    (muted : p.muted ≤ q.muted) (failure : shared'.queue.failure = shared.queue.failure)
    (reporting : ¬p.Reporting) : Passed shared p shared' q := by
  have pending := Shared.pending_of_sent opened sent
  have verdicts : shared'.verdicts = shared.verdicts + 1 := by
    rw [Shared.verdicts, pending, List.countP_append]
    rfl
  have failures : shared'.failures = shared.failures := by
    rw [Shared.failures, pending, List.countP_append]
    rfl
  refine ⟨by omega, fun _ => by omega, by omega, by omega, by omega, ?_, ?_, ?_⟩
  · rw [failure]
    exact Or.inl
  · exact fun reports => absurd reports reporting
  · intro channel₁ opened₁
    exact Shared.room_of_sent opened₁ room sent

theorem Move.passed (h : Move setup shared p shared' q)
    (sink : ∀ holding, p.holding? = some holding → holding.batch.sink = .verdicts)
    (positive : ∀ holding, p.holding? = some holding → 0 < holding.jobs)
    (opened : shared.channel = some channel) : Passed shared p shared' q := by
  cases h with
  | claim granted =>
    obtain ⟨-, -, -, most, -, rfl⟩ := JobQueue.request_granted granted
    refine .of_quiet rfl ?_ ?_ ?_ rfl id
    · simp
      omega
    · simp
    · simp
  | leave => exact .of_quiet rfl rfl le_rfl (by simp) rfl id
  | explore before after =>
    have held := Phase.holding_of_simulates before
    have holds := Phase.holding_of_simulates after
    refine .of_quiet rfl ?_ le_rfl ?_ rfl (Phase.not_reporting_of_holding held)
    · rw [Phase.jobs_of_holding held, Phase.jobs_of_holding holds]
    · rw [Phase.muted_of_holding held, Phase.muted_of_holding holds]
  | judge => exact .of_quiet rfl rfl le_rfl le_rfl rfl id
  | abandon before =>
    have held := Phase.holding_of_simulates before
    refine .of_quiet rfl ?_ le_rfl ?_ rfl (Phase.not_reporting_of_holding held)
    · rw [Phase.jobs_of_holding held]
      rfl
    · rw [Phase.muted_of_holding held]
      exact Nat.zero_le _
  | miss rewarding | credit rewarding | count rewarding | countLast rewarding | crash rewarding =>
    have checking := sink _ rfl
    rw [rewarding] at checking
    contradiction
  | send _ more room =>
    refine .of_verdict opened room rfl ?_ rfl (Nat.zero_le _) rfl id
    simp
    omega
  | sendLast _ last room =>
    have least := positive _ rfl
    refine .of_verdict opened room rfl ?_ rfl le_rfl rfl id
    simp
    omega
  | @fail holding error =>
    have reporting : holding.batch.afterFailure error = .reporting error := by
      simp [Batch.afterFailure, sink holding rfl]
    rw [reporting]
    refine ⟨?_, ?_, le_rfl, le_rfl, le_rfl, fun _ => .inr trivial, False.elim, ?_⟩
    · simp [Phase.jobs, Shared.verdicts, Shared.pending]
    · intro failure
      simp [JobQueue.fail] at failure
    · exact fun channel opened => ⟨channel, opened, rfl⟩
  | @report error room =>
    have pending : (shared.send (.error error)).pending = shared.pending ++ [.error error] :=
      Shared.pending_of_sent opened rfl
    have verdicts : (shared.send (.error error)).verdicts = shared.verdicts := by
      rw [Shared.verdicts, pending, List.countP_append]
      rfl
    have failures : (shared.send (.error error)).failures = shared.failures + 1 := by
      rw [Shared.failures, pending, List.countP_append]
      rfl
    refine ⟨?_, fun _ => ?_, le_rfl, ?_, ?_, .inl, fun _ => ?_, ?_⟩
    · simp [verdicts, Phase.jobs]
    · simp [verdicts, Phase.jobs]
    · simp [failures, Phase.muted]
    · omega
    · omega
    · intro channel₁ opened₁
      exact Shared.room_of_sent opened₁ room rfl

end SchedulerLearning
