import SchedulerLearning.Engine.Session
import SchedulerLearning.Proofs.Outcome
import SchedulerLearning.Proofs.QueueLaws

/-!
# What a session's calls can do

The steps of learning and of checking as rules: what each found, and what it left behind. A
call's step is one of its rules, so an invariant of a call is proved by cases on the rule.
-/

namespace SchedulerLearning

variable {s s' : Session}

-- ---------------------------------------------------------------------------
-- Changes of a session
-- ---------------------------------------------------------------------------

namespace Session

def withJobs (s : Session) (count : Nat) : Session :=
  { s with shared := { s.shared with queue := { s.shared.queue with remaining := count } } }

def updated (s : Session) (scheduler : Scheduler Float) : Session :=
  { s with shared := { s.shared with scheduler, rewards := .empty, satisfied := 0, failed := 0 } }

def renewed (s : Session) : Session :=
  { s with shared := { s.shared with
    scheduler := (s.shared.scheduler.update s.config.rule s.config.weights s.shared.rewards).scheduler
    satisfied := 0
    failed := 0 } }

def withChannel (s : Session) (channel : Option (Channel Report)) : Session :=
  { s with shared := { s.shared with channel } }

def batchLimit (s : Session) : Nat := max 1 (s.workers.length * s.config.jobsPerRequest)

def observing (s : Session) : Batch :=
  ⟨.verdicts, if s.deterministic then s.overlay else none⟩

/-- Whether two sessions are configured alike and have the same workers, and queues that differ
at most in the jobs waiting and in what grants carry. -/
structure SamePool (s s' : Session) : Prop where
  config : s'.config = s.config
  workers : s'.workers = s.workers
  active : s'.shared.queue.active = s.shared.queue.active
  shutdown : s'.shared.queue.shutdown = s.shared.queue.shutdown
  failure : s'.shared.queue.failure = s.shared.queue.failure

theorem issue_eq_ok {count : Nat} :
    s.issue count = (s', .ok ()) ↔ s.shared.queue.remaining = 0 ∧ s' = s.withJobs count := by
  unfold issue JobQueue.issue withJobs
  by_cases claimed : s.shared.queue.remaining = 0 <;> simp [claimed, eq_comm]

theorem issue_eq_error {count : Nat} {fault : Fault} (h : s.issue count = (s', .error fault)) : s' = s := by
  unfold issue JobQueue.issue at h
  by_cases claimed : s.shared.queue.remaining = 0
  · simp [claimed] at h
  · simp only [claimed, if_false, Prod.mk.injEq] at h
    exact h.1.symm

theorem ensureRunning_eq_ok (h : s.ensureRunning = .ok ()) :
    s.shared.queue.failure = none ∧ s.shared.queue.shutdown = false ∧ s.workers ≠ [] := by
  unfold ensureRunning at h
  split at h
  · cases h
  · next hf =>
    split at h
    · cases h
    · next hs =>
      split at h
      · cases h
      · next hw => exact ⟨hf, by simpa using hs, by simpa using hw⟩

end Session

/-- What a step came to, read by a rule for going on and a rule for ending. -/
def Progress.Obeys {σ β : Type} (turn : Session → σ → Prop)
    (ended : Session → Except (Stop LearnError) β → Prop) : Progress σ β → Prop
  | .blocked => True
  | .continues session activity => turn session activity
  | .returns session result => ended session result

section

variable {σ β : Type} {turn : Session → σ → Prop} {ended : Session → Except (Stop LearnError) β → Prop}
  {p : Progress σ β}

theorem Progress.Obeys.of_continues {activity : σ} (h : p.Obeys turn ended)
    (step : p = .continues s activity) : turn s activity := by
  rwa [step] at h

theorem Progress.Obeys.of_returns {result : Except (Stop LearnError) β} (h : p.Obeys turn ended)
    (step : p = .returns s result) : ended s result := by
  rwa [step] at h

end

-- ---------------------------------------------------------------------------
-- Learning
-- ---------------------------------------------------------------------------

namespace Learning

variable {l l' : Learning}

def batch (l : Learning) : Nat := min l.miniBatch (l.tracesPerBlock - l.issued)

inductive Turn (s : Session) (l : Learning) : Session → Learning → Prop
  | collect (waiting : l.waiting = true) (idle : s.shared.queue.idle = true)
      (sound : s.shared.queue.failure = none) : Turn s l s { l with waiting := false }
  | issue (rested : l.waiting = false) (more : l.done < l.blocks) (short : l.issued < l.tracesPerBlock)
      (claimed : s.shared.queue.remaining = 0) :
      Turn s l (s.withJobs l.batch) { l with issued := l.issued + l.batch, waiting := true }
  | update {scheduler} (rested : l.waiting = false) (more : l.done < l.blocks)
      (full : l.tracesPerBlock ≤ l.issued) :
      Turn s l (s.updated scheduler) { l with done := l.done + 1, issued := 0 }

inductive End (s : Session) (l : Learning) : Session → Except (Stop LearnError) LearnReport → Prop
  | failed {error} (failure : s.shared.queue.failure = some error) :
      End s l s (.error (.refused (.workerFailed error)))
  | refused {error} (idle : s.shared.queue.idle = true) (sound : s.shared.queue.failure = none) :
      End s l s (.error (.refused (.stats error)))
  | early (idle : s.shared.queue.idle = true) (sound : s.shared.queue.failure = none) :
      End s l s.resetCounts.resetRewards (.ok ⟨l.done, true⟩)
  | finished (rested : l.waiting = false) : End s l s (.ok ⟨l.done, false⟩)
  | faulted {broken fault} (same : s.SamePool broken) : End s l broken (.error (.faulted fault))

theorem collect_obeys (waiting : l.waiting = true) : (collect s l).Obeys (Turn s l) (End s l) := by
  unfold collect
  split
  · trivial
  · next idle =>
    have idle : s.shared.queue.idle = true := by simpa using idle
    split
    · next failure => exact .failed failure
    · next sound _ => exact .collect waiting idle sound
    · next sound _ =>
      split
      · exact .refused idle sound
      · exact .early idle sound
      · exact .collect waiting idle sound

theorem endBlock_obeys (rested : l.waiting = false) (more : l.done < l.blocks)
    (full : l.tracesPerBlock ≤ l.issued) : (endBlock s l).Obeys (Turn s l) (End s l) := by
  unfold endBlock
  simp only
  split
  · exact .faulted ⟨rfl, rfl, rfl, rfl, rfl⟩
  · exact .update rested more full

theorem step_obeys (s : Session) (l : Learning) : (step s l).Obeys (Turn s l) (End s l) := by
  unfold step
  split
  · next waiting => exact collect_obeys waiting
  · next rested =>
    have rested : l.waiting = false := by simpa using rested
    split
    · exact .finished rested
    · next more =>
      split
      · next short =>
        simp only
        split
        · next issued =>
          obtain ⟨claimed, rfl⟩ := Session.issue_eq_ok.mp issued
          exact .issue rested (by omega) short claimed
        · next refused =>
          obtain rfl := Session.issue_eq_error refused
          exact .faulted ⟨rfl, rfl, rfl, rfl, rfl⟩
      · next full => exact endBlock_obeys rested (by omega) (by omega)

theorem Turn.samePool (h : Turn s l s' l') : s.SamePool s' := by
  cases h <;> exact ⟨rfl, rfl, rfl, rfl, rfl⟩

theorem End.samePool {result : Except (Stop LearnError) LearnReport} (h : End s l s' result) :
    s.SamePool s' := by
  cases h with
  | faulted same => exact same
  | _ => exact ⟨rfl, rfl, rfl, rfl, rfl⟩

theorem turn_of_step (h : step s l = .continues s' l') : Turn s l s' l' := (step_obeys s l).of_continues h

theorem end_of_step {result : Except (Stop LearnError) LearnReport} (h : step s l = .returns s' result) :
    End s l s' result :=
  (step_obeys s l).of_returns h

/-- What a step of learning writes, whether it goes on or ends. -/
inductive Writes (s : Session) : Session → Prop
  | nothing : Writes s s
  | jobs (count : Nat) : Writes s (s.withJobs count)
  | discard : Writes s s.resetCounts.resetRewards
  | fault : Writes s s.renewed
  | update : Writes s s.renewed.resetRewards

theorem step_writes (s : Session) (l : Learning) :
    (step s l).Obeys (fun s' _ => Writes s s') fun s' _ => Writes s s' := by
  unfold step
  split
  · unfold collect
    split
    · trivial
    · split
      · exact .nothing
      · exact .nothing
      · split
        · exact .nothing
        · exact .discard
        · exact .nothing
  · split
    · exact .nothing
    · split
      · simp only
        split
        · next issued =>
          obtain ⟨-, rfl⟩ := Session.issue_eq_ok.mp issued
          exact .jobs _
        · next refused =>
          obtain rfl := Session.issue_eq_error refused
          exact .nothing
      · unfold endBlock
        simp only
        split
        · exact .fault
        · exact .update

theorem start_eq_ok {tracesPerBlock blocks : Nat} (h : start s tracesPerBlock blocks = .ok (s', l)) :
    s.ensureRunning = .ok () ∧ s' = (s.withContext .learning).resetRewards.resetCounts ∧
      l.tracesPerBlock = tracesPerBlock ∧ l.blocks = blocks ∧ l.miniBatch = s.batchLimit ∧
      l.done = 0 ∧ l.issued = 0 ∧ l.waiting = false := by
  unfold start at h
  obtain ⟨⟨⟩, running, h⟩ := bind_eq_ok.mp h
  simp only at h
  split at h
  all_goals
    obtain ⟨prior, -, h⟩ := bind_eq_ok.mp h
    obtain ⟨jobs, product, h⟩ := bind_eq_ok.mp h
    obtain ⟨-, rfl⟩ := Word.mul_eq_ok.mp (mapError_eq_ok.mp product)
    cases h
    exact ⟨mapError_eq_ok.mp running, rfl, rfl, rfl, rfl, rfl, rfl, rfl⟩

end Learning

-- ---------------------------------------------------------------------------
-- Checking
-- ---------------------------------------------------------------------------

namespace Checking

variable {c c' : Checking}

inductive Turn (s : Session) (c : Checking) : Session → Checking → Prop
  | failed {error} (looking : c.phase = .looking) (failure : s.shared.queue.failure = some error) :
      Turn s c s { c with phase := .withdrawing (.error (.workerFailed error)) }
  | issue (looking : c.phase = .looking) (sound : s.shared.queue.failure = none)
      (level : c.received = c.issued) (active : s.shared.queue.active = 0)
      (claimed : s.shared.queue.remaining = 0) :
      Turn s c (s.withJobs s.config.checkBatch)
        { c with issued := c.issued + s.config.checkBatch, phase := .receiving }
  | look (looking : c.phase = .looking) (sound : s.shared.queue.failure = none)
      (out : ¬(c.received = c.issued ∧ s.shared.queue.active = 0)) :
      Turn s c s { c with phase := .receiving }
  | broken {channel channel' error} (receiving : c.phase = .receiving)
      (opened : s.shared.channel = some channel)
      (received : channel.receive? = some (.error error, channel')) :
      Turn s c (s.withChannel channel')
        { c with phase := .withdrawing (.error (.workerFailed error)) }
  | observe {channel channel' verdict procedure} (receiving : c.phase = .receiving)
      (opened : s.shared.channel = some channel)
      (received : channel.receive? = some (.ok verdict, channel')) :
      Turn s c (s.withChannel channel')
        { c with procedure, received := c.received + 1, phase := .looking }
  | decide {channel channel' verdict procedure outcome} (receiving : c.phase = .receiving)
      (opened : s.shared.channel = some channel)
      (received : channel.receive? = some (.ok verdict, channel')) :
      Turn s c (s.withChannel channel')
        { c with procedure, received := c.received + 1, phase := .withdrawing (.ok outcome) }
  | withdraw {outcome} (withdrawing : c.phase = .withdrawing outcome) :
      Turn s c (s.withJobs 0) { c with phase := .draining outcome }

inductive End (s : Session) (c : Checking) : Session → Except (Stop LearnError) Outcome → Prop
  | drained {outcome} (draining : c.phase = .draining outcome) (idle : s.shared.queue.idle = true) :
      End s c ((s.withContext .learning).withChannel none) (outcome.mapError .refused)
  | faulted {broken fault} (same : s.SamePool broken) : End s c broken (.error (.faulted fault))

theorem look_obeys (looking : c.phase = .looking) : (look s c).Obeys (Turn s c) (End s c) := by
  unfold look
  split
  · next failure => exact .failed looking failure
  · next sound =>
    split
    · next level =>
      split
      · next hi ha =>
        obtain ⟨claimed, rfl⟩ := Session.issue_eq_ok.mp hi
        obtain ⟨-, rfl⟩ := Word.add_eq_ok.mp ha
        exact .issue looking sound level.1 level.2 claimed
      · next hi _ =>
        obtain ⟨-, rfl⟩ := Session.issue_eq_ok.mp hi
        exact .faulted ⟨rfl, rfl, rfl, rfl, rfl⟩
      · next hi =>
        obtain rfl := Session.issue_eq_error hi
        exact .faulted ⟨rfl, rfl, rfl, rfl, rfl⟩
    · next out => exact .look looking sound out

theorem receive_obeys (receiving : c.phase = .receiving) : (receive s c).Obeys (Turn s c) (End s c) := by
  unfold receive
  split
  · trivial
  · next report channel' h =>
    obtain ⟨channel, opened, received⟩ := Option.bind_eq_some_iff.mp h
    cases report with
    | error error => exact .broken receiving opened received
    | ok verdict =>
      simp only
      split
      · exact .observe receiving opened received
      · exact .decide receiving opened received

theorem step_obeys (s : Session) (c : Checking) : (step s c).Obeys (Turn s c) (End s c) := by
  unfold step
  split
  · next looking => exact look_obeys looking
  · next receiving => exact receive_obeys receiving
  · next outcome withdrawing => exact .withdraw withdrawing
  · next outcome draining =>
    unfold drain
    split
    · trivial
    · next idle => exact .drained draining (by simpa using idle)

theorem Turn.samePool (h : Turn s c s' c') : s.SamePool s' := by
  cases h <;> exact ⟨rfl, rfl, rfl, rfl, rfl⟩

theorem End.samePool {result : Except (Stop LearnError) Outcome} (h : End s c s' result) :
    s.SamePool s' := by
  cases h with
  | faulted same => exact same
  | drained => exact ⟨rfl, rfl, rfl, rfl, rfl⟩

theorem turn_of_step (h : step s c = .continues s' c') : Turn s c s' c' := (step_obeys s c).of_continues h

theorem end_of_step {result : Except (Stop LearnError) Outcome} (h : step s c = .returns s' result) :
    End s c s' result :=
  (step_obeys s c).of_returns h

inductive Writes (s : Session) : Session → Prop
  | nothing : Writes s s
  | jobs (count : Nat) : Writes s (s.withJobs count)
  | channel (channel : Option (Channel Report)) : Writes s (s.withChannel channel)

theorem step_writes (s : Session) (c : Checking) :
    (step s c).Obeys (fun s' _ => Writes s s') fun s' _ =>
      Writes s s' ∨ s' = (s.withContext .learning).withChannel none := by
  unfold step
  split
  · unfold look
    split
    · exact .nothing
    · split
      · split
        · next issued _ =>
          obtain ⟨-, rfl⟩ := Session.issue_eq_ok.mp issued
          exact .jobs _
        · next issued _ =>
          obtain ⟨-, rfl⟩ := Session.issue_eq_ok.mp issued
          exact .inl (.jobs _)
        · next refused =>
          obtain rfl := Session.issue_eq_error refused
          exact .inl .nothing
      · exact .nothing
  · unfold receive
    split
    · trivial
    · next report channel received =>
      cases report with
      | error error => exact .channel _
      | ok verdict =>
        simp only
        split <;> exact .channel _
  · exact .jobs 0
  · unfold drain
    split
    · trivial
    · exact .inr rfl

theorem start_eq_ok {procedure : Procedure} (h : start s procedure = .ok (s', c)) :
    s.ensureRunning = .ok () ∧
      s' = (s.withContext s.observing).withChannel
        (some (.ofRoom (s.config.checkBatch + s.workers.length))) ∧
      c = ⟨procedure, 0, 0, .looking⟩ := by
  unfold start at h
  obtain ⟨⟨⟩, running, h⟩ := bind_eq_ok.mp h
  obtain ⟨room, hr, h⟩ := bind_eq_ok.mp h
  obtain ⟨⟨⟩, -, h⟩ := bind_eq_ok.mp h
  obtain ⟨-, rfl⟩ := Word.add_eq_ok.mp (mapError_eq_ok.mp hr)
  cases h
  exact ⟨mapError_eq_ok.mp running, rfl, rfl⟩

end Checking

end SchedulerLearning
