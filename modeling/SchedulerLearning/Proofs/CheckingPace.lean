import SchedulerLearning.Proofs.CheckingTraffic

/-!
# The pace of a check

In every run, the verdicts received, those in the channel, the jobs that workers hold and the
jobs not claimed never add up to more than the jobs issued, and those are at most a batch ahead
of the verdicts received.
-/

namespace SchedulerLearning

variable {s s' : Session} {a : Account} {c c' : Checking}

-- ---------------------------------------------------------------------------
-- The size of a batch
-- ---------------------------------------------------------------------------

theorem Config.checkBatch_pos {config : Config} (valid : config.validate = .ok ()) :
    0 < config.checkBatch := by
  unfold validate at valid
  obtain ⟨_, -, valid⟩ := bind_eq_ok.mp valid
  obtain ⟨_, -, valid⟩ := bind_eq_ok.mp valid
  obtain ⟨_, -, valid⟩ := bind_eq_ok.mp valid
  obtain ⟨_, required, -⟩ := bind_eq_ok.mp valid
  unfold require at required
  split at required
  · next nonzero => simpa [Nat.pos_iff_ne_zero] using nonzero
  · cases required

theorem Coordinates.config {before after : System} (h : Coordinates before after) :
    after.session.config = before.session.config := by
  cases h with
  | start step =>
    obtain ⟨-, _, _, rfl, -⟩ := Session.start_eq_ok step
    rfl
  | learn _ step =>
    obtain ⟨-, rfl, -⟩ := Learning.start_eq_ok step
    rfl
  | learning step => exact (Learning.turn_of_step step).samePool.config
  | learned step => exact (Learning.end_of_step step).samePool.config
  | check step =>
    obtain ⟨-, rfl, -⟩ := Checking.start_eq_ok step
    rfl
  | checking step => exact (Checking.turn_of_step step).samePool.config
  | checked step => exact (Checking.end_of_step step).samePool.config
  | determinise | setDeterministic => rfl
  | @close s =>
    show s.close.config = s.config
    unfold Session.close
    split <;> rfl
  | join step =>
    obtain ⟨-, rfl⟩ := Session.join_eq_returns step
    rfl

theorem Run.checkBatch_pos {system : System} (run : Run a system) :
    0 < system.session.config.checkBatch := by
  induction run with
  | prepared step =>
    obtain ⟨valid, same, -⟩ := Session.prepare_eq_ok step
    simp only [same]
    exact Config.checkBatch_pos valid
  | work place run step ih =>
    obtain ⟨_, _, _, -, -, rfl⟩ := Session.stepWorker_eq_some step
    exact ih
  | coordinate run step ih =>
    rw [step.config]
    exact ih

-- ---------------------------------------------------------------------------
-- The pace of a check
-- ---------------------------------------------------------------------------

def CheckPhase.Open : CheckPhase → Prop
  | .looking | .receiving => True
  | _ => False

def CheckPhase.Heard : CheckPhase → Prop
  | .looking | .withdrawing (.ok _) | .draining (.ok _) => True
  | _ => False

namespace Checking

/-- The verdicts received and on their way, and the jobs not yet done. -/
def weight (s : Session) (c : Checking) : Nat :=
  c.received + s.shared.verdicts + (s.workers.map (·.phase.jobs)).sum + s.shared.queue.remaining

structure Paced (a : Account) (s : Session) (c : Checking) : Prop where
  serves : s.Serves .verdicts
  issued : a.issued = c.issued
  capacity : ∃ channel, s.shared.channel = some channel ∧
    channel.toList.length + channel.room = s.config.checkBatch + s.workers.length
  failures : s.shared.failures ≤ (s.workers.map (·.phase.muted)).sum
  weight : c.weight s ≤ c.issued
  sound : c.phase.Open → s.shared.queue.failure = none → c.weight s = c.issued
  failed : c.phase.Open → s.shared.queue.failure.isSome →
    0 < s.shared.failures ∨ ∃ w ∈ s.workers, w.phase.Reporting
  whole : s.config.checkBatch ∣ c.issued
  ahead : c.issued ≤ c.received + s.config.checkBatch
  heard : c.phase.Heard → c.issued < c.received + s.config.checkBatch
  receiving : c.phase = .receiving → c.received < c.issued
  withdrawn : ∀ outcome, c.phase = .draining outcome → s.shared.queue.remaining = 0

namespace Paced

theorem begin {procedure : Procedure} (hm : s.Manned) (settled : s.Settled)
    (batch : 0 < s.config.checkBatch) (h : start s procedure = .ok (s', c)) : c.Paced {} s' := by
  obtain ⟨running, rfl, rfl⟩ := start_eq_ok h
  obtain ⟨sound, opened, remaining, active, requesting⟩ := Session.running hm settled running
  have weight : Checking.weight ((s.withContext s.observing).withChannel
      (some (.ofRoom (s.config.checkBatch + s.workers.length)))) ⟨procedure, 0, 0, .looking⟩ = 0 := by
    have jobs := sum_phases Phase.jobs rfl requesting
    simp [Checking.weight, Session.withContext, Session.withChannel, Shared.verdicts,
      Shared.pending, jobs, remaining]
  constructor
  case serves => exact .begin s.observing opened rfl requesting
  case issued => rfl
  case capacity => exact ⟨_, rfl, Nat.zero_add _⟩
  case failures => simp [Session.withChannel, Shared.failures, Shared.pending]
  case weight => rw [weight]
  case sound => exact fun _ _ => weight
  case failed =>
    intro _ failed
    simp [Session.withChannel, Session.withContext, sound] at failed
  case whole => exact Nat.dvd_zero _
  case ahead => exact Nat.zero_le _
  case heard => exact fun _ => by simpa [Session.withContext, Session.withChannel] using batch
  case receiving => exact CheckPhase.noConfusion
  case withdrawn => exact fun _ => CheckPhase.noConfusion

theorem work {place : Nat} (hp : c.Paced a s) (hm : s.Manned) (h : s.Works place s') :
    c.Paced (a.afterWork place s s') s' := by
  cases h with
  | @mk w w' shared' there move =>
    have present := List.mem_of_getElem? there
    obtain ⟨channel, opened, capacity⟩ := hp.capacity
    have passed := move.passed (hp.serves.sinks w present) (hm.positive w present) opened
    have jobs := sum_map_set (fun w : Worker => w.phase.jobs) there w'
    have muted := sum_map_set (fun w : Worker => w.phase.muted) there w'
    have weight := hp.weight
    have failures := hp.failures
    constructor
    case serves => exact hp.serves.work (.mk there move)
    case issued => rw [Account.issued_afterWork, hp.issued]
    case capacity =>
      obtain ⟨channel', opened', same⟩ := passed.capacity channel opened
      exact ⟨channel', opened', by simpa [same] using capacity⟩
    case failures =>
      have moved := passed.muted
      simp only at moved ⊢
      omega
    case weight =>
      have moved := passed.jobs
      simp only [Checking.weight] at weight moved ⊢
      omega
    case sound =>
      intro hc sound
      have before := hp.sound hc (move.failure sound).1
      have moved := passed.sound sound
      simp only [Checking.weight] at before moved ⊢
      omega
    case failed =>
      intro hc failed
      -- A known failure waits, or is still to be sent by a worker: by this one, or by another.
      rcases passed.failed failed with before | reports
      · rcases hp.failed hc before with waiting | ⟨v, hv, reports⟩
        · exact .inl (lt_of_lt_of_le waiting passed.waiting)
        · rcases eq_or_mem_set there hv with rfl | hv
          · exact .inl (passed.reported reports)
          · exact .inr ⟨v, hv, reports⟩
      · exact .inr ⟨w', List.mem_set (List.getElem?_eq_some_iff.mp there).1 _, reports⟩
    case whole => exact hp.whole
    case ahead => exact hp.ahead
    case heard => exact hp.heard
    case receiving => exact hp.receiving
    case withdrawn =>
      intro outcome draining
      have none := hp.withdrawn outcome draining
      have moved := passed.remaining
      simp only at moved ⊢
      omega

theorem level (hp : c.Paced a s) (hm : s.Manned) (level : c.received = c.issued) :
    s.shared.queue.remaining = 0 ∧ s.shared.queue.active = 0 := by
  have weight := hp.weight
  unfold Checking.weight at weight
  refine ⟨by omega, ?_⟩
  rw [hm.active]
  refine sum_map_eq_zero fun w hw => ?_
  have jobs := le_sum_map (fun w : Worker => w.phase.jobs) hw
  cases held : w.phase.holding? with
  | none => simp [Phase.grants, held]
  | some holding =>
    have positive := hm.positive w hw holding held
    rw [Phase.jobs_of_holding held] at jobs
    omega

theorem capacity_of_received {channel channel' : Channel Report} {report : Report}
    (hp : c.Paced a s) (opened : s.shared.channel = some channel)
    (received : channel.receive? = some (report, channel')) :
    channel'.toList.length + channel'.room = s.config.checkBatch + s.workers.length := by
  obtain ⟨channel₁, opened₁, capacity⟩ := hp.capacity
  rw [opened] at opened₁
  cases opened₁
  rw [Channel.length_add_room_receive received, capacity]

theorem hear {channel channel' : Channel Report} {verdict : Verdict} {procedure : Procedure}
    {phase : CheckPhase} (hp : c.Paced a s) (receiving : c.phase = .receiving)
    (opened : s.shared.channel = some channel)
    (received : channel.receive? = some (.ok verdict, channel'))
    (heard : phase.Heard) (taken : ∀ outcome, phase ≠ .draining outcome) :
    Paced a (s.withChannel channel') { c with procedure, received := c.received + 1, phase } := by
  obtain ⟨verdicts, failures⟩ := Shared.counts_of_verdict_received opened received
  have weight : Checking.weight (s.withChannel channel')
      { c with procedure, received := c.received + 1, phase } = c.weight s := by
    simp only [Checking.weight, verdicts, Session.withChannel]
    omega
  have opens : c.phase.Open := by
    rw [receiving]
    trivial
  constructor
  case serves => exact ⟨hp.serves.context, hp.serves.sinks, hp.serves.opened⟩
  case issued => exact hp.issued
  case capacity => exact ⟨channel', rfl, hp.capacity_of_received opened received⟩
  case failures => exact failures ▸ hp.failures
  case weight => exact weight ▸ hp.weight
  case sound => exact fun _ sound => weight ▸ hp.sound opens sound
  case failed => exact fun _ failed => failures ▸ hp.failed opens failed
  case whole => exact hp.whole
  case ahead =>
    have := hp.ahead
    simp only [Session.withChannel]
    omega
  case heard =>
    have := hp.ahead
    simp only [Session.withChannel]
    omega
  case receiving =>
    intro same
    rw [show phase = _ from same] at heard
    cases heard
  case withdrawn => exact fun outcome same => absurd same (taken outcome)

theorem give_up {error : LearnError} (hp : c.Paced a s) :
    Paced a s { c with phase := .withdrawing (.error error) } :=
  { hp with
    sound := False.elim, failed := False.elim, heard := False.elim
    receiving := CheckPhase.noConfusion, withdrawn := fun _ => CheckPhase.noConfusion }

theorem issue_batch (hp : c.Paced a s) (looking : c.phase = .looking) (level : c.received = c.issued)
    (claimed : s.shared.queue.remaining = 0) (batch : 0 < s.config.checkBatch) :
    Paced { a with issued := a.issued + s.config.checkBatch } (s.withJobs s.config.checkBatch)
      { c with issued := c.issued + s.config.checkBatch, phase := .receiving } := by
  have opens : c.phase.Open := by
    rw [looking]
    trivial
  have weight : Checking.weight (s.withJobs s.config.checkBatch)
      { c with issued := c.issued + s.config.checkBatch, phase := .receiving } =
        c.weight s + s.config.checkBatch := by
    simp [Checking.weight, Session.withJobs, claimed, Shared.verdicts, Shared.pending]
  constructor
  case serves => exact ⟨hp.serves.context, hp.serves.sinks, hp.serves.opened⟩
  case issued => rw [hp.issued]
  case capacity => exact hp.capacity
  case failures => exact hp.failures
  case weight =>
    rw [weight]
    exact Nat.add_le_add_right hp.weight _
  case sound =>
    intro _ sound
    rw [weight, hp.sound opens sound]
  case failed => exact fun _ => hp.failed opens
  case whole => exact Nat.dvd_add hp.whole dvd_rfl
  case ahead =>
    rw [level]
    rfl
  case heard => exact False.elim
  case receiving =>
    intro _
    simp only [level]
    omega
  case withdrawn => exact fun _ => CheckPhase.noConfusion

/-- To wait for a report without a new batch is to wait for one of a batch that is out. -/
theorem look_on (hp : c.Paced a s) (hm : s.Manned) (looking : c.phase = .looking)
    (out : ¬(c.received = c.issued ∧ s.shared.queue.active = 0)) :
    Paced a s { c with phase := .receiving } := by
  have opens : c.phase.Open := by
    rw [looking]
    trivial
  refine { hp with
    sound := fun _ => hp.sound opens, failed := fun _ => hp.failed opens
    heard := False.elim, receiving := fun _ => ?_
    withdrawn := fun _ => CheckPhase.noConfusion }
  have weight := hp.weight
  unfold Checking.weight at weight
  by_contra most
  -- With all jobs issued received, no grant could be out.
  have level : c.received = c.issued := by
    simp only at most
    omega
  exact out ⟨level, (hp.level hm level).2⟩

theorem break_off {channel channel' : Channel Report} {error : ModelError Float}
    {refusal : LearnError} (hp : c.Paced a s) (opened : s.shared.channel = some channel)
    (received : channel.receive? = some (.error error, channel')) :
    Paced a (s.withChannel channel') { c with phase := .withdrawing (.error refusal) } := by
  obtain ⟨verdicts, failures⟩ := Shared.counts_of_failure_received opened received
  constructor
  case serves => exact ⟨hp.serves.context, hp.serves.sinks, hp.serves.opened⟩
  case issued => exact hp.issued
  case capacity => exact ⟨channel', rfl, hp.capacity_of_received opened received⟩
  case failures =>
    have := hp.failures
    simp only [Session.withChannel]
    omega
  case weight =>
    have weight := hp.weight
    simp only [Checking.weight, verdicts, Session.withChannel] at weight ⊢
    exact weight
  case whole => exact hp.whole
  case ahead => exact hp.ahead
  case sound | failed | heard => exact False.elim
  case receiving => exact CheckPhase.noConfusion
  case withdrawn => exact fun _ => CheckPhase.noConfusion

theorem withdraw_rest {outcome : Except LearnError Outcome} (hp : c.Paced a s)
    (withdrawing : c.phase = .withdrawing outcome) :
    Paced a (s.withJobs 0) { c with phase := .draining outcome } := by
  constructor
  case serves => exact ⟨hp.serves.context, hp.serves.sinks, hp.serves.opened⟩
  case issued => exact hp.issued
  case capacity => exact hp.capacity
  case failures => exact hp.failures
  case weight =>
    have weight := hp.weight
    unfold Checking.weight at weight
    exact le_trans (Nat.add_le_add_left (Nat.zero_le _) _) weight
  case whole => exact hp.whole
  case ahead => exact hp.ahead
  case heard =>
    intro heard
    refine hp.heard ?_
    rw [withdrawing]
    cases outcome with
    | ok => trivial
    | error => cases heard
  case withdrawn => exact fun _ _ => rfl
  case sound | failed => exact False.elim
  case receiving => exact CheckPhase.noConfusion

theorem turn (hp : c.Paced a s) (hm : s.Manned) (batch : 0 < s.config.checkBatch)
    (h : Turn s c s' c') : c'.Paced (a.afterCall ⟨s, .checking c⟩ ⟨s', .checking c'⟩) s' := by
  cases h with
  | failed looking failure =>
    rw [Account.afterCall_eq_self]
    · exact hp.give_up
    · rfl
    · rfl
  | issue looking sound level active claimed =>
    have counted : a.afterCall ⟨s, .checking c⟩ ⟨s.withJobs s.config.checkBatch, .checking
        { c with issued := c.issued + s.config.checkBatch, phase := .receiving }⟩ =
          { a with issued := a.issued + s.config.checkBatch } := by
      simp [Account.afterCall, Account.begins, Session.withJobs, claimed]
    rw [counted]
    exact hp.issue_batch looking level claimed batch
  | look looking sound out =>
    rw [Account.afterCall_eq_self]
    · exact hp.look_on hm looking out
    · rfl
    · rfl
  | broken receiving opened received =>
    rw [Account.afterCall_eq_self]
    · exact hp.break_off opened received
    · rfl
    · rfl
  | observe receiving opened received | decide receiving opened received =>
    rw [Account.afterCall_eq_self]
    · exact hp.hear receiving opened received trivial fun _ => CheckPhase.noConfusion
    · rfl
    · rfl
  | withdraw withdrawing =>
    rw [Account.afterCall_eq_self]
    · exact hp.withdraw_rest withdrawing
    · rfl
    · exact Nat.zero_le _

end Paced

end Checking

def Activity.Paced (a : Account) (s : Session) : Activity → Prop
  | .checking c => c.Paced a s
  | _ => True

theorem Run.paced {system : System} (run : Run a system) :
    system.activity.Paced a system.session := by
  induction run with
  | prepared => trivial
  | @work a s s' activity place run step ih =>
    obtain ⟨hm, -⟩ := run.orderly
    cases activity with
    | checking c => exact Checking.Paced.work ih hm (hm.works step)
    | _ => trivial
  | coordinate run step ih =>
    obtain ⟨hm, ho⟩ := run.orderly
    cases step with
    | check step => exact Checking.Paced.begin hm ho run.checkBatch_pos step
    | checking step => exact Checking.Paced.turn ih hm run.checkBatch_pos (Checking.turn_of_step step)
    | learned | checked => exact Activity.of_afterCall (P := (·.Paced _ _)) trivial trivial
    | _ => trivial

end SchedulerLearning
