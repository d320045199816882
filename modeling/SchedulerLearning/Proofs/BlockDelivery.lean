import SchedulerLearning.Proofs.BlockBooks
import SchedulerLearning.Proofs.ServedGrants
import SchedulerLearning.Proofs.Service

/-!
# A finished batch of learning is fully delivered

In every run without a failure, once no job is left and no grant is out, each job issued since
the block began is simulated and delivered exactly once. The update of a block finds the
verdicts and the rewards of all its traces, and no worker that could add to them.
-/

namespace SchedulerLearning

variable {s s' : Session} {a : Account} {l l' : Learning}

-- ---------------------------------------------------------------------------
-- One step
-- ---------------------------------------------------------------------------

structure Learning.Kept (a : Account) (s : Session) (l : Learning) : Prop where
  serves : s.Serves .rewards
  issued : a.issued = l.issued
  most : l.issued ≤ l.tracesPerBlock
  word : l.tracesPerBlock < Word.size
  books : s.Healthy → Books a s

namespace Learning.Kept

theorem begin {tracesPerBlock blocks : Nat} (hm : s.Manned) (settled : s.Settled)
    (word : tracesPerBlock < Word.size) (h : start s tracesPerBlock blocks = .ok (s', l)) :
    l.Kept {} s' := by
  obtain ⟨running, rfl, rfl, rfl, -, hd, hi, hw⟩ := start_eq_ok h
  obtain ⟨sound, opened, remaining, active, requesting⟩ := Session.running hm settled running
  exact ⟨.begin .learning opened rfl requesting, hi.symm, by omega, word,
    fun _ => .begin requesting remaining rfl rfl rfl⟩

theorem work {place : Nat} (hk : l.Kept a s) (hm : s.Manned) (h : s.Works place s') :
    l.Kept (a.afterWork place s s') s' where
  serves := hk.serves.work h
  issued := by rw [Account.issued_afterWork, hk.issued]
  most := hk.most
  word := hk.word
  books healthy := (hk.books (h.healthy healthy)).work hm hk.serves.sinks h healthy

theorem turn (hk : l.Kept a s) (hm : s.Manned) (settled : l.waiting = false → s.Settled)
    (h : Turn s l s' l') : l'.Kept (a.afterCall ⟨s, .learning l⟩ ⟨s', .learning l'⟩) s' := by
  cases h with
  | collect =>
    rw [Account.afterCall_eq_self]
    · exact ⟨hk.serves, hk.issued, hk.most, hk.word, hk.books⟩
    · simp [Account.begins]
    · rfl
  | issue rested more short claimed =>
    have counted : (a.afterCall ⟨s, .learning l⟩ ⟨s.withJobs l.batch,
        .learning { l with issued := l.issued + l.batch, waiting := true }⟩) =
          { a with issued := a.issued + l.batch } := by
      simp [Account.afterCall, Account.begins, Session.withJobs, claimed]
    rw [counted]
    refine ⟨⟨hk.serves.context, hk.serves.sinks, hk.serves.opened⟩, ?_, ?_, hk.word, ?_⟩
    · rw [hk.issued]
    · simp only [batch]
      omega
    · intro healthy
      have books := hk.books healthy
      refine { books with jobs := ?_ }
      have jobs := books.jobs
      rw [claimed] at jobs
      simp only [Session.withJobs]
      omega
  | @update scheduler rested more full =>
    have fresh : a.afterCall ⟨s, .learning l⟩
        ⟨s.updated scheduler, .learning { l with done := l.done + 1, issued := 0 }⟩ = {} := by
      simp [Account.afterCall, Account.begins]
    rw [fresh]
    refine ⟨⟨hk.serves.context, hk.serves.sinks, hk.serves.opened⟩, rfl, Nat.zero_le _, hk.word,
      fun healthy => ?_⟩
    -- All workers wait, so nothing of the block that ended is owed in the next one.
    have opened := hk.serves.open_of_sound healthy.1
    obtain ⟨remaining, active⟩ := settled rested opened
    exact .begin (hm.requesting opened active) remaining rfl rfl rfl

end Learning.Kept

def Activity.Kept (a : Account) (s : Session) : Activity → Prop
  | .learning l => l.Kept a s
  | _ => True

theorem Run.kept {system : System} (run : Run a system) : system.activity.Kept a system.session := by
  induction run with
  | prepared => trivial
  | @work a s s' activity place run step ih =>
    obtain ⟨hm, -⟩ := run.orderly
    cases activity with
    | learning l => exact Learning.Kept.work ih hm (hm.works step)
    | _ => trivial
  | @coordinate a before after run step ih =>
    obtain ⟨hm, ho⟩ := run.orderly
    cases step with
    | learn word step => exact Learning.Kept.begin hm ho word step
    | learning step => exact Learning.Kept.turn ih hm ho.2 (Learning.turn_of_step step)
    | learned | checked => exact Activity.of_afterCall (P := (·.Kept _ _)) trivial trivial
    | _ => trivial

def Activity.Rested (s : Session) : Activity → Prop
  | .learning l => l.waiting = false → s.shared.queue.failure = none
  | _ => True

/-- Between two batches, no worker has failed, no job is out, and no worker can go on. -/
theorem Run.rested {system : System} (run : Run a system) : system.activity.Rested system.session := by
  induction run with
  | prepared => trivial
  | @work a s s' activity place run step ih =>
    cases activity with
    | learning l =>
      intro rested
      obtain ⟨hm, -, settled⟩ := run.orderly
      have kept : l.Kept a s := run.kept
      have opened := kept.serves.open_of_sound (ih rested)
      obtain ⟨remaining, active⟩ := settled rested opened
      rw [hm.still opened remaining active place] at step
      contradiction
    | _ => trivial
  | @coordinate a before after run step ih =>
    cases step with
    | learn word step =>
      obtain ⟨running, rfl, -⟩ := Learning.start_eq_ok step
      exact fun _ => (Session.ensureRunning_eq_ok running).1
    | learning step =>
      cases Learning.turn_of_step step with
      | collect _ _ sound => exact fun _ => sound
      | issue => simp [Activity.Rested]
      | update rested => exact fun _ => ih rested
    | learned | checked => exact Activity.of_afterCall (P := (·.Rested _)) trivial trivial
    | _ => trivial

-- ---------------------------------------------------------------------------
-- Delivery
-- ---------------------------------------------------------------------------

/-- Whether each job of the account is simulated and delivered exactly once, and what the
session counts and rewards is just that. -/
structure Account.Complete (a : Account) (s : Session) : Prop where
  simulated : a.simulated.length = a.issued
  judged : ∀ r ∈ a.simulated, s.setup.property.evaluate r.trace = .ok r.verdict
  delivered : a.delivered.Perm (a.simulated.map Result.verdict)
  credited : a.credited.Perm (a.simulated.flatMap s.setup.owed)
  rewards : Rewards.empty.creditAll a.credited = (s.shared.rewards, .ok ())
  satisfied : s.shared.satisfied.toNat = a.delivered.countP Verdict.satisfied
  failed : s.shared.failed.toNat = a.delivered.countP (!·.satisfied)
  counts : s.shared.satisfied.toNat + s.shared.failed.toNat = a.issued

theorem Learning.Kept.complete (hk : l.Kept a s) (hm : s.Manned)
    (sound : s.shared.queue.failure = none) (remaining : s.shared.queue.remaining = 0)
    (active : s.shared.queue.active = 0) : a.Complete s := by
  have requesting := hm.requesting (hk.serves.open_of_sound sound) active
  have books := hk.books ⟨sound, fun w hw failing => by rw [requesting w hw] at failing; exact failing⟩
  obtain ⟨length, delivered, credited⟩ := books.settled requesting remaining
  -- The counters wrap, but no block is as long as that takes.
  have words : a.delivered.length < Word.size := by
    rw [length, hk.issued]
    exact lt_of_le_of_lt hk.most hk.word
  have satisfied : s.shared.satisfied.toNat = a.delivered.countP Verdict.satisfied := by
    rw [books.satisfied, UInt64.toNat_ofNat', Nat.mod_eq_of_lt]
    exact lt_of_le_of_lt List.countP_le_length words
  have failed : s.shared.failed.toNat = a.delivered.countP (!·.satisfied) := by
    rw [books.failed, UInt64.toNat_ofNat', Nat.mod_eq_of_lt]
    exact lt_of_le_of_lt List.countP_le_length words
  have simulated : a.simulated.length = a.issued := by
    rw [← length, delivered.length_eq, List.length_map]
  refine ⟨simulated, books.judged, delivered, credited, books.rewards, satisfied, failed, ?_⟩
  rw [satisfied, failed, ← length, List.length_eq_countP_add_countP Verdict.satisfied]
  simp

/-- In a run of learning without a failure, once no job is left and no grant is out, each job
issued since the block began is simulated and delivered exactly once. At all times the rewards
are of the block's own traces. At the update of a block they are of all its traces, and neither
before nor after it can a worker go on: none owes anything to the block that ended. -/
theorem Run.block_complete {s : Session} {l : Learning} (run : Run a ⟨s, .learning l⟩)
    (sound : s.shared.queue.failure = none) :
    a.issued = l.issued ∧
    (s.shared.queue.remaining = 0 → s.shared.queue.active = 0 → a.Complete s) ∧
    ((∀ w ∈ s.workers, ¬w.phase.Failing) →
      Rewards.empty.creditAll a.credited = (s.shared.rewards, .ok ()) ∧
        a.credited.Subperm (a.simulated.flatMap s.setup.owed)) ∧
    (l.waiting = false → l.tracesPerBlock ≤ l.issued →
      a.Complete s ∧ s.shared.satisfied.toNat + s.shared.failed.toNat = l.tracesPerBlock ∧
      (∀ place, s.stepWorker place = none) ∧
      ∀ s' l', Learning.step s l = .continues s' l' →
        s'.shared.rewards = .empty ∧ s'.shared.satisfied = 0 ∧ s'.shared.failed = 0 ∧
        (∀ w ∈ s'.workers, w.phase = .requesting) ∧ ∀ place, s'.stepWorker place = none) := by
  obtain ⟨hm, -, settled⟩ := run.orderly
  have hk : l.Kept a s := run.kept
  have opened := hk.serves.open_of_sound sound
  refine ⟨hk.issued, hk.complete hm sound, fun unbroken => ?_, fun rested full => ?_⟩
  · have books := hk.books ⟨sound, unbroken⟩
    exact ⟨books.rewards, books.credited_subperm⟩
  obtain ⟨remaining, active⟩ := settled rested opened
  have complete := hk.complete hm sound remaining active
  refine ⟨complete, ?_, hm.still opened remaining active, fun s' l' step => ?_⟩
  · rw [complete.counts, hk.issued]
    exact le_antisymm hk.most full
  · cases Learning.turn_of_step step with
    | collect waiting =>
      rw [rested] at waiting
      contradiction
    | issue _ _ short => omega
    | @update scheduler =>
      have updated : (s.updated scheduler).Manned := hm.samePool ⟨rfl, rfl, rfl, rfl, rfl⟩
      exact ⟨rfl, rfl, rfl, hm.requesting opened active, updated.still opened remaining active⟩

-- Two workers on a block of five traces, in batches of four and one, up to its update.
theorem Pair.learnt : ∃ (account : Account) (shared : Shared) (w₀ w₁ : Worker) (rs : List Result),
    Learning.Calls begun 5 1 ⟨[], [4, 1], account⟩
      (session { shared with queue := .ofContext .learning } [w₀, w₁])
      ⟨5, 1, 4, none, 0, 5, false⟩ ∧
    rs.length = 5 ∧ (∀ r ∈ rs, begun.setup.task.Yields r) ∧
    Rewards.empty.creditAll (rs.flatMap begun.setup.owed) = (shared.rewards, .ok ()) := by
  have begins : Learning.Calls begun 5 1 {} begun ⟨5, 1, 4, none, 0, 0, false⟩ :=
    .start (show Learning.start begun 5 1 = _ from rfl)
  have issued : Learning.Calls begun 5 1 ⟨[], [4], { issued := 4 }⟩
      (session { begun.shared with queue := ⟨4, 0, false, none, .learning⟩ } [first, second])
      ⟨5, 1, 4, none, 0, 4, true⟩ :=
    begins.turn rfl
  have claimed : Learning.Calls begun 5 1 ⟨[], [4], { issued := 4 }⟩
      (session { begun.shared with queue := ⟨0, 2, false, none, .learning⟩ }
        [{ first with phase := Worker.beginJob begun.setup ⟨2, .learning⟩ },
          { second with phase := Worker.beginJob begun.setup ⟨2, .learning⟩ }])
      ⟨5, 1, 4, none, 0, 4, true⟩ :=
    (issued.work 0 rfl).work 1 rfl
  have agrees {account batches shared workers l}
      (call : Learning.Calls begun 5 1 ⟨[], batches, account⟩ (session shared workers) l) :
      (session shared workers).Agrees :=
    (call.run started (by decide)).drawn.agrees
  -- The second worker serves its grant first, and the grant of the job that is left last.
  obtain ⟨rs, s₁, w₁, works, length₁, served₁⟩ :=
    serves begun.shared 1 1 (agrees claimed) rfl rfl (by decide) Shared.hasRoom_rewards
  obtain ⟨_, call⟩ := claimed.worksTo works
  obtain ⟨rs', s₂, w₀, works, length₂, served₂⟩ :=
    serves s₁ 0 1 (agrees call) rfl rfl (by decide) Shared.hasRoom_rewards
  obtain ⟨account, call⟩ := call.worksTo works
  have reissued : Learning.Calls begun 5 1 ⟨[], [4, 1], { account with issued := account.issued + 1 }⟩
      (session { s₂ with queue := ⟨1, 0, false, none, .learning⟩ }
        [{ w₀ with phase := .requesting }, { w₁ with phase := .requesting }])
      ⟨5, 1, 4, none, 0, 5, true⟩ :=
    (call.turn rfl).turn rfl
  have claims : (session { s₂ with queue := ⟨1, 0, false, none, .learning⟩ }
        [{ w₀ with phase := .requesting }, { w₁ with phase := .requesting }]).WorksTo
      (session { s₂ with queue := ⟨0, 1, false, none, .learning⟩ }
        [{ w₀ with phase := .requesting },
          { w₁ with phase := Worker.beginJob begun.setup ⟨1, .learning⟩ }]) :=
    .single ⟨1, rfl⟩
  obtain ⟨_, claimed⟩ := reissued.worksTo claims
  obtain ⟨rs'', s₃, w₁, works, length₃, served₃⟩ :=
    serves s₂ 1 0 (agrees claimed) rfl rfl (by decide) Shared.hasRoom_rewards
  obtain ⟨account, call⟩ := claimed.worksTo works
  have collected : Learning.Calls begun 5 1 ⟨[], [4, 1], account⟩
      (session { s₃ with queue := .ofContext .learning }
        [{ w₀ with phase := .requesting }, { w₁ with phase := .requesting }])
      ⟨5, 1, 4, none, 0, 5, false⟩ :=
    call.turn rfl
  have credited₁ : Rewards.empty.creditAll (rs.flatMap begun.setup.owed) = (s₁.rewards, .ok ()) :=
    served₁.rewards
  have credited₂ : Rewards.empty.creditAll ((rs ++ rs').flatMap begun.setup.owed) =
      (s₂.rewards, .ok ()) := by
    rw [List.flatMap_append, Rewards.creditAll_append credited₁]
    exact served₂.rewards
  refine ⟨account, s₃, _, _, rs ++ rs' ++ rs'', collected, by simp [length₁, length₂, length₃], ?_, ?_⟩
  · simp only [List.mem_append]
    rintro r ((there | there) | there)
    exacts [served₁.yields r there, served₂.yields r there, served₃.yields r there]
  · rw [List.flatMap_append, Rewards.creditAll_append credited₂]
    exact served₃.rewards

theorem Run.block_complete_of_two_workers :
    ∃ a s l, Run a ⟨s, .learning l⟩ ∧ s.workers.length = 2 ∧ s.shared.queue.failure = none ∧
      l.waiting = false ∧ l.tracesPerBlock ≤ l.issued ∧ a.issued = 5 ∧ a.Complete s ∧
      s.shared.satisfied.toNat + s.shared.failed.toNat = 5 ∧
      s.shared.rewards.contains Fork.state = true := by
  obtain ⟨account, shared, _, _, rs, call, length, yields, credited⟩ := Pair.learnt
  have run := call.run Pair.started (by decide)
  obtain ⟨issued, -, -, update⟩ := Run.block_complete run rfl
  obtain ⟨complete, counts, -, -⟩ := update rfl le_rfl
  exact ⟨_, _, _, run, rfl, rfl, rfl, le_rfl, issued, complete, counts,
    Pair.contains yields (by omega) credited⟩

end SchedulerLearning
