import SchedulerLearning.Proofs.SimulatedPaths
import SchedulerLearning.Proofs.UnrefusedRuns

/-!
# The sizes of a run

Three sizes are computed before any work is done: the length of a trace, the jobs of a batch of
learning, and the room for reports of checking. Each is exact up to where its 64 bits end, and a
valid configuration may lie beyond that.
-/

namespace SchedulerLearning

variable {s s' : Session} {process : DecisionProcess Float} {property : Property} {config : Config}
  {machine : Machine} {stop : Stop LearnError}

theorem Word.add_of_lt {a b : Nat} (within : a + b < Word.size) : Word.add a b = .ok (a + b) :=
  if_pos within

theorem Word.add_of_le {a b : Nat} (beyond : Word.size ≤ a + b) : Word.add a b = .error (.overflow .add) :=
  if_neg (Nat.not_lt.mpr beyond)

theorem Word.mul_of_lt {a b : Nat} (within : a * b < Word.size) : Word.mul a b = .ok (a * b) :=
  if_pos within

theorem Word.mul_of_le {a b : Nat} (beyond : Word.size ≤ a * b) :
    Word.mul a b = .error (.overflow .multiply) :=
  if_neg (Nat.not_lt.mpr beyond)

theorem Room.eq_capacity {τ : Type} {most count : Nat} {empty : τ} {fault : Fault}
    (refused : (if most < count then .error .capacity else .ok empty) = Except.error fault) :
    fault = .capacity := by
  split at refused <;> cases refused
  rfl

-- ---------------------------------------------------------------------------
-- The length of a trace
-- ---------------------------------------------------------------------------

theorem Config.threads_pos (c : Config) {parallelism : Nat} (some : 0 < parallelism) :
    0 < c.threads parallelism := by
  unfold threads
  split
  · exact some
  · next asked => exact Nat.pos_of_ne_zero asked

namespace Session

theorem prepare_of_overflow (valid : config.validate = .ok ())
    (beyond : Word.size ≤ property.required + 1) :
    prepare process property config machine = .error (.faulted (.overflow .add)) := by
  unfold prepare
  rw [valid, Word.add_of_le beyond]
  rfl

/-- Where the length of a trace is a word, only the model and the containers can be at fault. -/
theorem prepare_eq_error (valid : config.validate = .ok ()) (within : property.required + 1 < Word.size)
    (stopped : prepare process property config machine = .error stop) :
    stop = .faulted .capacity ∨ ∃ fault, process.initial = .error fault ∧ stop = .faulted fault := by
  unfold prepare at stopped
  rw [valid, Word.add_of_lt within] at stopped
  simp only [bind_eq_error] at stopped
  obtain refused | ⟨_, -, long | ⟨_, -, stopped | ⟨_, -, crowded | ⟨_, -, crowded | ⟨_, -, done⟩⟩⟩⟩⟩ :=
    stopped
  · cases refused
  · cases long
  · obtain ⟨fault, raised, rfl⟩ := mapError_eq_error.mp stopped
    exact .inr ⟨fault, raised, rfl⟩
  · obtain ⟨fault, unmade, rfl⟩ := mapError_eq_error.mp crowded
    exact .inl (congrArg Stop.faulted (Room.eq_capacity unmade))
  · obtain ⟨fault, unmade, rfl⟩ := mapError_eq_error.mp crowded
    exact .inl (congrArg Stop.faulted (Room.eq_capacity unmade))
  · cases done

theorem traceLength_of_prepare (prepared : prepare process property config machine = .ok s) :
    s.setup.traceLength = property.required + 1 := by
  unfold prepare at prepared
  obtain ⟨⟨⟩, -, prepared⟩ := bind_eq_ok.mp prepared
  obtain ⟨length, sum, prepared⟩ := bind_eq_ok.mp prepared
  obtain ⟨initial, -, prepared⟩ := bind_eq_ok.mp prepared
  obtain ⟨scheduler, -, prepared⟩ := bind_eq_ok.mp prepared
  obtain ⟨rewards, -, prepared⟩ := bind_eq_ok.mp prepared
  cases prepared
  exact (Word.add_eq_ok.mp (mapError_eq_ok.mp sum)).2.symm

theorem required_lt_of_prepare (prepared : prepare process property config machine = .ok s) {t : Trace}
    (maximal : process.IsMaximal s.setup.traceLength t) :
    property.required < t.length ∨ process.offers t.last = .ok [] := by
  rw [traceLength_of_prepare prepared] at maximal
  rcases maximal.within.lt_or_eq with short | full
  · exact .inr (maximal.ends short)
  · exact .inl (by omega)

theorem length_spawn (count : Nat) (seeds : Random.Generator) : (spawn count seeds).1.length = count := by
  induction count generalizing seeds with
  | zero => rfl
  | succ count ih => simp [spawn, ih]

theorem length_workers_start (none : s.workers = []) (opened : s.shared.queue.shutdown = false) :
    s.start.1.workers.length = s.config.threads s.machine.parallelism := by
  unfold start
  rw [none, opened]
  exact length_spawn _ _

end Session

-- ---------------------------------------------------------------------------
-- The jobs of a batch
-- ---------------------------------------------------------------------------

namespace Learning

variable {tracesPerBlock blocks : Nat}

theorem start_of_overflow (valid : s.config.InRange) (running : s.ensureRunning = .ok ())
    (beyond : Word.size ≤ s.workers.length * s.config.jobsPerRequest) :
    start s tracesPerBlock blocks = .error (.faulted (.overflow .multiply)) := by
  obtain ⟨prior, begins⟩ := start_of_valid valid running tracesPerBlock blocks
  rw [begins, Word.mul_of_le beyond]

/-- A running pool has workers, and each may ask for jobs, so a batch is never cut up to one. -/
theorem start_of_word (valid : s.config.InRange) (running : s.ensureRunning = .ok ())
    (within : s.workers.length * s.config.jobsPerRequest < Word.size) :
    ∃ s' l, start s tracesPerBlock blocks = .ok (s', l) ∧
      l.miniBatch = s.workers.length * s.config.jobsPerRequest ∧ 0 < l.miniBatch := by
  obtain ⟨prior, begins⟩ := start_of_valid valid running tracesPerBlock blocks
  obtain ⟨-, -, manned⟩ := Session.ensureRunning_eq_ok running
  have some : 0 < s.workers.length * s.config.jobsPerRequest :=
    Nat.mul_pos (List.length_pos_iff.mpr manned) valid.jobsPerRequest
  rw [begins, Word.mul_of_lt within]
  exact ⟨_, _, rfl, max_eq_right some, lt_of_lt_of_le one_pos (le_max_left _ _)⟩

end Learning

-- ---------------------------------------------------------------------------
-- The room for reports
-- ---------------------------------------------------------------------------

namespace Checking

theorem start_of_running (running : s.ensureRunning = .ok ()) (procedure : Procedure) :
    start s procedure = match Word.add s.config.checkBatch s.workers.length with
      | .error fault => .error (.faulted fault)
      | .ok room =>
        match Room.claim 40 room with
        | .error fault => .error (.faulted fault)
        | .ok () => .ok ((s.withContext s.observing).withChannel (some (.ofRoom room)),
            ⟨procedure, 0, 0, .looking⟩) := by
  unfold start
  rw [running]
  cases Word.add s.config.checkBatch s.workers.length with
  | error => rfl
  | ok room =>
    simp only [lift_ok_bind]
    cases Room.claim 40 room <;> rfl

variable {procedure : Procedure}

theorem start_of_overflow (running : s.ensureRunning = .ok ())
    (beyond : Word.size ≤ s.config.checkBatch + s.workers.length) :
    start s procedure = .error (.faulted (.overflow .add)) := by
  rw [start_of_running running, Word.add_of_le beyond]

theorem start_of_crowded (running : s.ensureRunning = .ok ())
    (within : s.config.checkBatch + s.workers.length < Word.size)
    (crowded : Room.most 40 < s.config.checkBatch + s.workers.length) :
    start s procedure = .error (.faulted .capacity) := by
  have refused : Room.claim 40 (s.config.checkBatch + s.workers.length) = .error .capacity :=
    if_pos crowded
  rw [start_of_running running, Word.add_of_lt within]
  simp only [refused]

theorem start_of_room (running : s.ensureRunning = .ok ())
    (room : s.config.checkBatch + s.workers.length ≤ Room.most 40) :
    ∃ s' c, start s procedure = .ok (s', c) ∧
      s'.shared.channel = some (.ofRoom (s.config.checkBatch + s.workers.length)) := by
  have within : s.config.checkBatch + s.workers.length < Word.size := room.trans_lt (by decide)
  have granted : Room.claim 40 (s.config.checkBatch + s.workers.length) = .ok () :=
    if_neg (Nat.not_lt.mpr room)
  rw [start_of_running running, Word.add_of_lt within]
  simp only [granted]
  exact ⟨_, _, rfl, rfl⟩

end Checking

-- ---------------------------------------------------------------------------
-- All sizes
-- ---------------------------------------------------------------------------

/-- For a valid configuration, any property and any model, a session is refused by an overflow exactly
where the length of a trace is no word. Where it is one, a trace is longer than the property requires or
cannot be continued; a length that were cut down to a word would make every trace empty. A session starts
as many workers as configured, or as the machine can run at once, and so one at least. A running session
of any number of workers takes up learning with the exact size of a batch, and checking with the
exact room for reports, where these are words, and stops by an overflow where they are not. -/
theorem sizes_exact_up_to_words (config : Config) (valid : config.validate = .ok ()) :
    (∀ (process : DecisionProcess Float) (property : Property) (machine : Machine),
      (Word.size ≤ property.required + 1 →
        Session.prepare process property config machine = .error (.faulted (.overflow .add))) ∧
      (property.required + 1 < Word.size → ∀ stop,
        Session.prepare process property config machine = .error stop →
          stop = .faulted .capacity ∨ ∃ fault, process.initial = .error fault ∧ stop = .faulted fault) ∧
      (∀ s, Session.prepare process property config machine = .ok s →
        s.setup.traceLength = property.required + 1 ∧ ∀ t, process.IsMaximal s.setup.traceLength t →
          property.required < t.length ∨ process.offers t.last = .ok []) ∧
      (property.required + 1 = Word.size → ∀ t,
        process.IsMaximal ((property.required + 1) % Word.size) t → t.length = 0)) ∧
    ∀ s : Session, s.config = config →
      (s.workers = [] → s.shared.queue.shutdown = false →
        s.start.1.workers.length = config.threads s.machine.parallelism ∧
          1 ≤ s.start.1.workers.length) ∧
      (s.ensureRunning = .ok () →
        (∀ tracesPerBlock blocks,
          (Word.size ≤ s.workers.length * config.jobsPerRequest →
            Learning.start s tracesPerBlock blocks = .error (.faulted (.overflow .multiply))) ∧
          (s.workers.length * config.jobsPerRequest < Word.size →
            ∃ s' l, Learning.start s tracesPerBlock blocks = .ok (s', l) ∧
              l.miniBatch = s.workers.length * config.jobsPerRequest ∧ 0 < l.miniBatch)) ∧
        ∀ procedure,
          (Word.size ≤ config.checkBatch + s.workers.length →
            Checking.start s procedure = .error (.faulted (.overflow .add))) ∧
          (config.checkBatch + s.workers.length < Word.size →
            Room.most 40 < config.checkBatch + s.workers.length →
            Checking.start s procedure = .error (.faulted .capacity)) ∧
          (config.checkBatch + s.workers.length ≤ Room.most 40 →
            ∃ s' c, Checking.start s procedure = .ok (s', c) ∧
              s'.shared.channel = some (.ofRoom (config.checkBatch + s.workers.length)))) := by
  have ranges := Config.validate_eq_ok.mp valid
  refine ⟨fun process property machine => ⟨?_, ?_, ?_, ?_⟩, ?_⟩
  · exact Session.prepare_of_overflow valid
  · exact fun within stop => Session.prepare_eq_error valid within
  · exact fun s prepared =>
      ⟨Session.traceLength_of_prepare prepared, fun t => Session.required_lt_of_prepare prepared⟩
  · intro wraps t maximal
    have within := maximal.within
    rw [wraps, Nat.mod_self] at within
    exact Nat.le_zero.mp within
  · rintro s rfl
    refine ⟨fun none opened => ?_, fun running => ?_⟩
    · have length := Session.length_workers_start none opened
      exact ⟨length, length ▸ s.config.threads_pos s.machine.parallelism_pos⟩
    refine ⟨fun tracesPerBlock blocks => ?_, fun procedure => ?_⟩
    · exact ⟨Learning.start_of_overflow ranges running, Learning.start_of_word ranges running⟩
    · exact ⟨Checking.start_of_overflow running, Checking.start_of_crowded running,
        Checking.start_of_room running⟩

theorem sizes_exact_up_to_words_of_smallest :
    Session.prepare Smallest.process ⟨Word.size - 1, fun _ => .ok (.initially true)⟩ Smallest.config
      Smallest.machine = .error (.faulted (.overflow .add)) ∧
    (∃ s' l, Learning.start (Smallest.session .requesting 0 (.ofContext .learning) 0 none) 1 1 =
      .ok (s', l) ∧ l.miniBatch = 50) ∧
    ∀ procedure, ∃ s' c, Checking.start (Smallest.session .requesting 0 (.ofContext .learning) 0 none)
      procedure = .ok (s', c) ∧ s'.shared.channel = some (.ofRoom 2) := by
  obtain ⟨prepares, runs⟩ := sizes_exact_up_to_words Smallest.config rfl
  obtain ⟨-, starts⟩ := runs (Smallest.session .requesting 0 (.ofContext .learning) 0 none) rfl
  obtain ⟨learns, checks⟩ := starts rfl
  refine ⟨(prepares _ _ Smallest.machine).1 (by decide), ?_,
    fun procedure => (checks procedure).2.2 (by decide)⟩
  obtain ⟨s', l, begins, batch, -⟩ := (learns 1 1).2 (by decide)
  exact ⟨s', l, begins, batch⟩

-- Valid settings at the end of the words.
namespace Vast

def bounded : Property := BoundedProperty.property ⟨.reachability, Word.size - 1, fun _ => .ok true⟩

def requesting : Config := { Smallest.config with jobsPerRequest := Word.size - 1 }

def checking : Config := { Smallest.config with checkBatch := Word.size - 1 }

def pool (config : Config) (workers : Nat) : Session :=
  { Smallest.session .requesting 0 (.ofContext .learning) 0 none with
    config
    workers := .replicate workers (.ofSeed 0) }

end Vast

/-- A bound, a number of jobs and a number of verdicts that pass for valid and overflow. -/
theorem valid_sizes_overflow :
    Smallest.config.validate = .ok () ∧
    Session.prepare Smallest.process Vast.bounded Smallest.config Smallest.machine =
      .error (.faulted (.overflow .add)) ∧
    (Vast.bounded.required + 1) % Word.size = 0 ∧
    Vast.requesting.validate = .ok () ∧
    Learning.start (Vast.pool Vast.requesting 2) 1 1 = .error (.faulted (.overflow .multiply)) ∧
    Vast.checking.validate = .ok () ∧
    Checking.start (Vast.pool Vast.checking 1) (.estimating ⟨0.5, 0.5, 0.01, 0.95, 0, 0⟩) =
      .error (.faulted (.overflow .add)) :=
  ⟨rfl, rfl, rfl, rfl, rfl, rfl, rfl⟩

end SchedulerLearning
