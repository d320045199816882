import SchedulerLearning.Proofs.BlockBooks
import SchedulerLearning.Proofs.Calls
import SchedulerLearning.Proofs.SingleWorker

/-!
# Grants that are served

Where no simulation fails and there is room for reports, a worker with a grant needs no other to get
to the end of it: it simulates a trace for each job, delivers every result and asks again. So a run
goes on with any of its workers that holds a grant, while the others stay where they are.
-/

namespace SchedulerLearning

variable {setup : Setup} {b : Batch} {shared shared' : Shared} {w w' : Worker} {s s' : Session}
  {rs : List Result} {r : Result}

-- ---------------------------------------------------------------------------
-- One worker after the other
-- ---------------------------------------------------------------------------

/-- Any number of steps of one worker, none of another. -/
abbrev Worker.LeadsTo (setup : Setup) : Shared × Worker → Shared × Worker → Prop :=
  Relation.ReflTransGen fun before after => before.2.step setup before.1 = some after

/-- Any number of steps of the workers, none of the coordinator. -/
abbrev Session.WorksTo : Session → Session → Prop :=
  Relation.ReflTransGen fun before after => ∃ place, before.stepWorker place = some after

theorem Session.worksTo {place : Nat} {after : Shared × Worker} (there : s.workers[place]? = some w)
    (leads : Worker.LeadsTo s.setup (s.shared, w) after) :
    s.WorksTo { s with shared := after.1, workers := s.workers.set place after.2 } := by
  obtain ⟨inside, here⟩ := List.getElem?_eq_some_iff.mp there
  induction leads with
  | refl =>
    rw [← here, List.set_getElem_self]
  | tail _ step ih =>
    refine ih.tail ⟨place, ?_⟩
    simp [stepWorker, inside, step]

theorem Run.worksTo {a : Account} {activity : Activity} (run : Run a ⟨s, activity⟩)
    (works : s.WorksTo s') : ∃ a', Run a' ⟨s', activity⟩ := by
  induction works with
  | refl => exact ⟨_, run⟩
  | tail _ step ih =>
    obtain ⟨_, run⟩ := ih
    obtain ⟨place, step⟩ := step
    exact ⟨_, run.work place step⟩

theorem Learning.Calls.worksTo {s₀ : Session} {tracesPerBlock blocks : Nat} {c : Chronicle}
    {l : Learning} (call : Calls s₀ tracesPerBlock blocks c s l) (works : s.WorksTo s') :
    ∃ account, Calls s₀ tracesPerBlock blocks { c with account } s' l := by
  induction works with
  | refl => exact ⟨_, call⟩
  | tail _ step ih =>
    obtain ⟨_, call⟩ := ih
    obtain ⟨place, step⟩ := step
    exact ⟨_, call.work place step⟩

-- ---------------------------------------------------------------------------
-- One job
-- ---------------------------------------------------------------------------

namespace Worker

theorem step_of_ready (ready : w.ready shared = true) : w.step setup shared = some (w.act setup shared) :=
  if_pos ready

theorem ready_of_simulates {holding : Holding} (simulates : w.phase.simulates? = some holding) :
    w.ready shared = true := by
  unfold ready
  cases hp : w.phase <;> simp_all [Phase.simulates?]

/-- A worker on a trace gets to the end of it, with what the sequential program makes of it. -/
theorem judges {holding : Holding} {t : Trace} {next : Plain} {verdict : Verdict}
    (simulates : w.phase.simulates? = some holding)
    (finishes : (w.plain shared).Finishes setup.task w.phase t next)
    (judged : setup.property.evaluate t = .ok verdict) :
    ∃ w', LeadsTo setup (shared, w) ({ shared with scheduler := next.scheduler }, w') ∧
      w'.phase = .delivering holding (setup.creditsOf holding.batch.sink t verdict) false verdict := by
  -- By induction on the steps left: each act is one of them, whichever phase it comes from.
  induction steps : w.phase.steps using Nat.strong_induction_on generalizing w shared with
  | h n ih =>
    obtain ⟨scheduler, stores, pursues⟩ := act_pursues simulates finishes judged
    have step : w.step setup shared = some ({ shared with scheduler }, (w.act setup shared).2) := by
      rw [step_of_ready (ready_of_simulates simulates), ← stores]
    rw [stores] at pursues
    cases pursues with
    | on simulates' rest =>
      obtain ⟨w', leads, delivers⟩ :=
        ih _ (steps ▸ act_steps simulates simulates') simulates' rest rfl
      exact ⟨w', .head step leads, delivers⟩
    | judged delivers past =>
      subst past
      exact ⟨_, .single step, delivers⟩

theorem LeadsTo.keeps {after : Shared × Worker} (leads : LeadsTo setup (shared, w) after)
    (fits : shared.Fits setup) (hw : w.phase.Fits setup shared.scheduler) : Keeps setup shared after := by
  induction leads with
  | refl => exact ⟨fits, .refl _, hw⟩
  | tail _ step ih =>
    obtain ⟨-, step⟩ := Option.ite_none_right_eq_some.mp step
    cases step
    have kept := act_keeps ih.stores ih.phase
    exact ⟨kept.stores, ih.grows.trans kept.grows, kept.phase⟩

end Worker

-- ---------------------------------------------------------------------------
-- One delivery
-- ---------------------------------------------------------------------------

namespace Shared

variable {sink : Sink} {c : Credit} {rest : List Credit} {verdict : Verdict} {count : Nat}

def reports (sink : Sink) (r : Result) : List Report :=
  match sink with
  | .rewards => []
  | .verdicts => [.ok r.verdict]

/-- Whether there is room for so many reports, if any are made. -/
def HasRoom (shared : Shared) (sink : Sink) (count : Nat) : Prop :=
  sink = .verdicts → ∀ channel, shared.channel = some channel → count ≤ channel.room

theorem hasRoom_rewards : shared.HasRoom .rewards count := by
  intro reporting
  cases reporting

theorem HasRoom.takesReport (room : shared.HasRoom sink (count + 1)) (reporting : sink = .verdicts) :
    shared.takesReport = true := by
  unfold Shared.takesReport
  cases opened : shared.channel with
  | none => rfl
  | some channel =>
    have := room reporting channel opened
    simp [Channel.hasRoom]
    omega

structure Takes (setup : Setup) (shared : Shared) (sink : Sink) (r : Result) (shared' : Shared) :
    Prop where
  queue : shared'.queue = shared.queue
  rewards : shared.rewards.creditAll (setup.creditsOf sink r.trace r.verdict) = (shared'.rewards, .ok ())
  channel : shared'.channel = shared.channel.map ((reports sink r).foldl .send)

theorem takes_of_deliver
    (delivered : shared.deliver sink (setup.creditsOf sink r.trace r.verdict) r.verdict =
      (shared', .ok ())) : shared.Takes setup sink r shared' := by
  have queue := queue_of_deliver delivered
  cases sink with
  | verdicts =>
    cases delivered
    exact ⟨queue, rfl, rfl⟩
  | rewards =>
    cases credited : shared.rewards.creditAll (setup.creditsOf .rewards r.trace r.verdict) with
    | mk rewards result =>
      cases result with
      | error fault => simp [deliver, Shared.creditAll, credited] at delivered
      | ok =>
        rw [deliver_rewards credited] at delivered
        cases delivered
        refine ⟨queue, by rw [credited, rewards_count], ?_⟩
        unfold count
        split <;> simp [reports]

theorem deliver_cons (delivered : shared.deliver .rewards (c :: rest) verdict = (shared', .ok ())) :
    ∃ between, shared.credit c = (between, .ok ()) ∧
      between.deliver .rewards rest verdict = (shared', .ok ()) := by
  cases credited : shared.rewards.credit c with
  | mk rewards result =>
    cases result with
    | error fault =>
      simp [deliver, Shared.creditAll, Rewards.creditAll, Rewards.addAll, credited] at delivered
    | ok =>
      refine ⟨{ shared with rewards }, by simp [credit, credited], ?_⟩
      simpa [deliver, Shared.creditAll, Rewards.creditAll, Rewards.addAll, credited] using delivered

end Shared

namespace Worker

variable {holding : Holding} {credits : List Credit} {missed : Bool} {verdict : Verdict}

theorem step_of_rewards (delivers : w.phase = .delivering holding credits missed verdict)
    (more : 1 < holding.jobs) (sink : holding.batch.sink = .rewards) :
    w.step setup shared = some (w.deliver setup shared holding credits missed verdict) := by
  rw [step_of_ready (by simp [ready, delivers, sink])]
  simp [act, delivers, Nat.not_le.mpr more]

theorem step_of_verdicts (delivers : w.phase = .delivering holding credits missed verdict)
    (more : 1 < holding.jobs) (sink : holding.batch.sink = .verdicts)
    (room : shared.takesReport = true) :
    w.step setup shared = some (w.deliver setup shared holding credits missed verdict) := by
  rw [step_of_ready (by simp [ready, delivers, sink, room])]
  simp [act, delivers, Nat.not_le.mpr more]

theorem delivers_credits (delivers : w.phase = .delivering holding credits missed verdict)
    (more : 1 < holding.jobs) (sink : holding.batch.sink = .rewards)
    (delivered : shared.deliver .rewards credits verdict = (shared', .ok ())) :
    ∃ w', LeadsTo setup (shared, w) (shared', w') ∧
      w'.phase = beginJob setup { holding with jobs := holding.jobs - 1 } := by
  induction credits generalizing shared w missed with
  | nil =>
    cases delivered
    let next : Worker := { w with phase := beginJob setup { holding with jobs := holding.jobs - 1 } }
    refine ⟨next, .single ((step_of_rewards delivers more sink).trans ?_), rfl⟩
    simp [deliver, sink, next]
  | cons c rest ih =>
    obtain ⟨between, credited, delivered⟩ := Shared.deliver_cons delivered
    -- A state that is found unknown takes one step more.
    have pays (w : Worker) {missed} (found : (missed || shared.rewards.contains c.state) = true)
        (delivers : w.phase = .delivering holding (c :: rest) missed verdict) :
        ∃ w', LeadsTo setup (shared, w) (shared', w') ∧
          w'.phase = beginJob setup { holding with jobs := holding.jobs - 1 } := by
      let paid : Worker := { w with phase := .delivering holding rest false verdict }
      obtain ⟨w', leads, begins⟩ := ih (w := paid) rfl delivered
      refine ⟨w', .head ((step_of_rewards delivers more sink).trans ?_) leads, begins⟩
      simp only [deliver, sink, found, credited, if_true, paid]
    by_cases found : (missed || shared.rewards.contains c.state) = true
    · exact pays w found delivers
    · obtain ⟨rfl, unknown⟩ : missed = false ∧ shared.rewards.contains c.state = false := by
        simpa using found
      let warned : Worker := { w with phase := .delivering holding (c :: rest) true verdict }
      obtain ⟨w', leads, begins⟩ := pays warned rfl rfl
      refine ⟨w', .head ((step_of_rewards delivers more sink).trans ?_) leads, begins⟩
      simp [deliver, sink, unknown, warned]

theorem delivers_next (delivers : w.phase = .delivering holding credits missed verdict)
    (more : 1 < holding.jobs)
    (delivered : shared.deliver holding.batch.sink credits verdict = (shared', .ok ()))
    (room : holding.batch.sink = .verdicts → shared.takesReport = true) :
    ∃ w', LeadsTo setup (shared, w) (shared', w') ∧
      w'.phase = beginJob setup { holding with jobs := holding.jobs - 1 } := by
  cases sink : holding.batch.sink with
  | rewards =>
    rw [sink] at delivered
    exact delivers_credits delivers more sink delivered
  | verdicts =>
    rw [sink] at delivered
    cases delivered
    let next : Worker := { w with phase := beginJob setup { holding with jobs := holding.jobs - 1 } }
    refine ⟨next, .single ((step_of_verdicts delivers more sink (room sink)).trans ?_), rfl⟩
    simp [deliver, sink, next]

theorem delivers_last (delivers : w.phase = .delivering holding credits missed verdict)
    (last : holding.jobs ≤ 1)
    (delivered : shared.deliver holding.batch.sink credits verdict = (shared', .ok ()))
    (room : holding.batch.sink = .verdicts → shared.takesReport = true)
    (active : 0 < shared'.queue.active) :
    LeadsTo setup (shared, w)
      ({ shared' with queue := { shared'.queue with active := shared'.queue.active - 1 } },
        { w with phase := .requesting }) := by
  have ready : w.ready shared = true := by
    cases sink : holding.batch.sink with
    | rewards => simp [ready, delivers, sink]
    | verdicts => simp [ready, delivers, sink, room sink]
  refine .single ?_
  rw [step_of_ready ready]
  simp [act, delivers, last, deliverLast, delivered, JobQueue.finish, active]

end Worker

-- ---------------------------------------------------------------------------
-- A grant
-- ---------------------------------------------------------------------------

structure Task.Yields (task : Task) (r : Result) : Prop where
  path : task.Path r.trace
  stops : task.Stops r.trace
  judged : task.property.evaluate r.trace = .ok r.verdict

/-- What the results of a whole grant have made of what is shared. -/
structure Served (setup : Setup) (sink : Sink) (shared : Shared) (rs : List Result)
    (shared' : Shared) : Prop where
  yields : ∀ r ∈ rs, setup.task.Yields r
  queue : shared'.queue = { shared.queue with active := shared.queue.active - 1 }
  rewards : shared.rewards.creditAll (rs.flatMap fun r => setup.creditsOf sink r.trace r.verdict) =
    (shared'.rewards, .ok ())
  channel : shared'.channel = shared.channel.map ((rs.flatMap (Shared.reports sink)).foldl .send)

namespace Served

variable {sink : Sink} {between : Shared}

theorem cons (yields : setup.task.Yields r) (takes : shared.Takes setup sink r between)
    (h : Served setup sink between rs shared') :
    Served setup sink shared (r :: rs) shared' where
  yields := List.forall_mem_cons.mpr ⟨yields, h.yields⟩
  queue := by rw [h.queue, takes.queue]
  rewards := by
    rw [List.flatMap_cons, Rewards.creditAll_append takes.rewards]
    exact h.rewards
  channel := by
    rw [h.channel, takes.channel, Option.map_map]
    refine congrArg (Option.map · shared.channel) (funext fun channel => ?_)
    simp [List.foldl_append]

theorem last (yields : setup.task.Yields r) (takes : shared.Takes setup sink r between) :
    Served setup sink shared [r]
      { between with queue := { between.queue with active := between.queue.active - 1 } } where
  yields := List.forall_mem_singleton.mpr yields
  queue := by simp [takes.queue]
  rewards := by simpa using takes.rewards
  channel := by simpa using takes.channel

end Served

theorem Shared.HasRoom.after {sink : Sink} {count : Nat} (room : shared.HasRoom sink (count + 1))
    (takes : shared.Takes setup sink r shared') : shared'.HasRoom sink count := by
  rintro rfl channel' opened
  rw [takes.channel] at opened
  obtain ⟨channel, before, rfl⟩ := Option.map_eq_some_iff.mp opened
  exact Nat.le_sub_one_of_lt (room rfl channel before)

namespace Worker

theorem begins_job {holding : Holding} (reliable : setup.task.Reliable) (fits : shared.Fits setup)
    (hb : holding.batch.Fits setup.process) (begins : w.phase = beginJob setup holding) :
    ∃ (r : Result) (scheduler : Scheduler Float) (w' : Worker) (shared' : Shared),
      setup.task.Yields r ∧ LeadsTo setup (shared, w) ({ shared with scheduler }, w') ∧
      w'.phase = .delivering holding (setup.creditsOf holding.batch.sink r.trace r.verdict) false
        r.verdict ∧
      ({ shared with scheduler } : Shared).deliver holding.batch.sink
        (setup.creditsOf holding.batch.sink r.trace r.verdict) r.verdict = (shared', .ok ()) ∧
      shared.Takes setup holding.batch.sink r shared' := by
  have now : (w.plain shared).scheduler.Fits setup.task.process := fits.scheduler
  obtain ⟨r, next, job, path, stops⟩ := reliable.job hb.overlay now
  obtain ⟨simulated, judged⟩ := Plain.job_eq_ok.mp job
  rw [Plain.simulate_eq, reliable.room] at simulated
  have phase := begins.trans (beginJob_eq reliable holding)
  obtain ⟨w', leads, delivers⟩ := judges (by rw [phase]; rfl)
    (by rw [phase]; exact .simulating simulated) judged
  have kept := leads.keeps fits (by rw [begins]; exact beginJob_fits hb)
  have credits := kept.phase
  simp only [delivers] at credits
  obtain ⟨shared', delivered, -⟩ := kept.stores.deliver credits.2 holding.batch.sink r.verdict
  have takes := Shared.takes_of_deliver delivered
  -- A delivery does not read the scheduler, which the simulation may have extended.
  exact ⟨r, next.scheduler, w', shared', ⟨path, stops, judged⟩, leads, delivers, delivered,
    takes.queue, takes.rewards, takes.channel⟩

/-- A worker that begins a grant serves all of it. -/
theorem serves {count : Nat} (reliable : setup.task.Reliable) (fits : shared.Fits setup)
    (hb : b.Fits setup.process) (active : 0 < shared.queue.active)
    (room : shared.HasRoom b.sink (count + 1)) (begins : w.phase = beginJob setup ⟨count + 1, b⟩) :
    ∃ rs shared' w', LeadsTo setup (shared, w) (shared', w') ∧ w'.phase = .requesting ∧
      rs.length = count + 1 ∧ Served setup b.sink shared rs shared' := by
  induction count generalizing shared w with
  | zero =>
    obtain ⟨r, _, _, between, yields, judged, delivers, delivered, takes⟩ :=
      begins_job reliable fits hb begins
    have out : 0 < between.queue.active := by rwa [takes.queue]
    exact ⟨[r], _, _, judged.trans (delivers_last delivers le_rfl delivered room.takesReport out), rfl,
      rfl, .last yields takes⟩
  | succ count ih =>
    obtain ⟨r, _, _, between, yields, judged, delivers, delivered, takes⟩ :=
      begins_job reliable fits hb begins
    obtain ⟨w₁, next, begins'⟩ :=
      delivers_next delivers (Nat.lt_of_sub_eq_succ rfl) delivered room.takesReport
    have leads : LeadsTo setup (shared, w) (between, w₁) := judged.trans next
    have kept := leads.keeps fits (by rw [begins]; exact beginJob_fits hb)
    obtain ⟨rs, shared', w', rest, requests, length, served⟩ :=
      ih kept.stores (by rwa [takes.queue]) (room.after takes) begins'
    exact ⟨r :: rs, shared', w', leads.trans rest, requests, by simp [length],
      .cons yields takes served⟩

end Worker

theorem Session.serves {place count : Nat} (agrees : s.Agrees) (reliable : s.setup.task.Reliable)
    (there : s.workers[place]? = some w) (active : 0 < s.shared.queue.active)
    (room : s.shared.HasRoom b.sink (count + 1))
    (begins : w.phase = Worker.beginJob s.setup ⟨count + 1, b⟩) :
    ∃ rs shared' w',
      s.WorksTo { s with shared := shared', workers := s.workers.set place w' } ∧
      w'.phase = .requesting ∧ rs.length = count + 1 ∧
      Served s.setup b.sink s.shared rs shared' := by
  have held : w.phase.holding? = some ⟨count + 1, b⟩ := by rw [begins, Worker.beginJob_holding]
  have hb : b.Fits s.setup.process := (agrees.workers w (List.mem_of_getElem? there)).batch held
  obtain ⟨rs, shared', w', leads, requests, length, served⟩ :=
    Worker.serves reliable agrees.stores hb active room begins
  exact ⟨rs, shared', w', s.worksTo there leads, requests, length, served⟩

-- ---------------------------------------------------------------------------
-- Two workers
-- ---------------------------------------------------------------------------

/-! A process that offers two choices at each step of a trace, of which the first step counts, and
two workers that claim up to two jobs at once. -/

namespace Pair

open SchedulerLearning.Random (Generator)

def property : Property := ⟨1, fun _ => .ok (.atPosition true 1)⟩

def config : Config where
  workers := 2
  tracesPerBlock := 5
  blocks := 1
  jobsPerRequest := 2
  checkBatch := 3

def session (shared : Shared) (workers : List Worker) : Session where
  machine := Smallest.machine
  setup := ⟨Fork.process, property, .uniform, Fork.state, 2, 2⟩
  config := config
  shared := shared
  workers := workers
  overlay := none
  deterministic := false
  seeds := (Generator.ofSeed 0).word.2.word.2

def first : Worker := .ofSeed (Generator.ofSeed 0).word.1

def second : Worker := .ofSeed (Generator.ofSeed 0).word.2.word.1

def begun : Session := session ⟨.ofContext .learning, .empty, .empty, 0, 0, none⟩ [first, second]

theorem started : Run {} ⟨begun, .resting⟩ := by
  have prepared : Run {} ⟨{ begun with workers := [], seeds := .ofSeed 0 }, .resting⟩ :=
    .prepared (show Session.prepare Fork.process property config Smallest.machine = _ from rfl)
  exact prepared.coordinate (.start rfl)

theorem reliable : begun.setup.task.Reliable where
  room := rfl
  offers _ _ _ := ⟨Fork.offers, rfl, by simp [Fork.offers]⟩
  evaluates _ _ _ := ⟨_, rfl⟩

theorem owed {r : Result} (yields : begun.setup.task.Yields r) :
    ∃ choice < 2, begun.setup.owed r = [⟨Fork.state, 2, choice, true, 1⟩] := by
  obtain ⟨t, verdict⟩ := r
  obtain ⟨path, stops, judged⟩ := yields
  cases judged
  have length : t.length = 2 := by
    rcases stops with full | ⟨-, stuck⟩
    · exact full
    · cases stuck
  cases path with
  | start => cases length
  | step path =>
    cases path with
    | start => cases length
    | step path _ offered taken =>
      cases path with
      | start =>
        cases offered
        obtain ⟨inRange, -⟩ := List.getElem?_eq_some_iff.mp taken
        exact ⟨_, inRange, rfl⟩
      | step => simp [Trace.length, Trace.push] at length

section
variable {rs : List Result} {rewards : Rewards}

theorem credits (yields : ∀ r ∈ rs, begun.setup.task.Yields r) :
    ∀ c ∈ rs.flatMap begun.setup.owed, ∃ choice < 2, c = ⟨Fork.state, 2, choice, true, 1⟩ := by
  intro c there
  obtain ⟨r, listed, there⟩ := List.mem_flatMap.mp there
  obtain ⟨choice, inRange, same⟩ := owed (yields r listed)
  rw [same] at there
  exact ⟨choice, inRange, List.mem_singleton.mp there⟩

theorem amounts (yields : ∀ r ∈ rs, begun.setup.task.Yields r) :
    ((rs.flatMap begun.setup.owed).map Credit.amount).sum = rs.length := by
  induction rs with
  | nil => rfl
  | cons r rest ih =>
    obtain ⟨choice, -, same⟩ := owed (yields r List.mem_cons_self)
    rw [List.flatMap_cons, List.map_append, List.sum_append, same,
      ih fun r there => yields r (List.mem_cons_of_mem _ there), List.length_cons, Nat.add_comm]
    rfl

theorem holds (yields : ∀ r ∈ rs, begun.setup.task.Yields r)
    (credited : Rewards.empty.creditAll (rs.flatMap begun.setup.owed) = (rewards, .ok ())) :
    rewards.Holds (rs.flatMap begun.setup.owed) := by
  have agree : Credit.Agree (rs.flatMap begun.setup.owed) := by
    constructor
    · intro c there
      obtain ⟨choice, inRange, rfl⟩ := credits yields c there
      exact inRange
    · intro c there d there' _
      obtain ⟨_, -, rfl⟩ := credits yields c there
      obtain ⟨_, -, rfl⟩ := credits yields d there'
      rfl
  obtain ⟨_, credited', holds⟩ := Rewards.Holds.empty.creditAll agree
  cases credited.symm.trans credited'
  exact holds

theorem contains (yields : ∀ r ∈ rs, begun.setup.task.Yields r) (some : 0 < rs.length)
    (credited : Rewards.empty.creditAll (rs.flatMap begun.setup.owed) = (rewards, .ok ())) :
    rewards.contains Fork.state = true := by
  have there := List.getElem_mem some
  obtain ⟨choice, -, same⟩ := owed (yields _ there)
  have made : ⟨Fork.state, 2, choice, true, 1⟩ ∈ rs.flatMap begun.setup.owed :=
    List.mem_flatMap.mpr ⟨_, there, by simp [same]⟩
  exact Rewards.contains_eq_true.mpr ⟨_, (holds yields credited).credited _ made⟩

end

theorem serves {queue : JobQueue Batch} {ws : List Worker} {w : Worker} {b : Batch} (shared : Shared)
    (place count : Nat) (agrees : (session { shared with queue } ws).Agrees) (there : ws[place]? = some w)
    (begins : w.phase = Worker.beginJob begun.setup ⟨count + 1, b⟩) (active : 0 < queue.active)
    (room : shared.HasRoom b.sink (count + 1)) :
    ∃ (rs : List Result) (shared' : Shared) (w' : Worker),
      (session { shared with queue } ws).WorksTo
        (session { shared' with queue := { queue with active := queue.active - 1 } }
          (ws.set place { w' with phase := .requesting })) ∧
      rs.length = count + 1 ∧ Served begun.setup b.sink { shared with queue } rs shared' := by
  obtain ⟨rs, shared', w', works, requests, length, served⟩ :=
    Session.serves agrees reliable there active room begins
  refine ⟨rs, shared', w', ?_, length, served⟩
  rw [← requests, ← show shared'.queue = { queue with active := queue.active - 1 } from served.queue]
  exact works

end Pair

end SchedulerLearning
