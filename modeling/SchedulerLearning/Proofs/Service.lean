import SchedulerLearning.Proofs.Manning

/-!
# The workers serve a call

While a call is under way, every grant carries where its results go, and nothing but a failure
closes the queue.
-/

namespace SchedulerLearning

variable {setup : Setup} {shared shared' : Shared} {p q : Phase} {s s' : Session} {sink : Sink}

namespace Move

theorem context (h : Move setup shared p shared' q) :
    shared'.queue.context = shared.queue.context := by
  cases h with
  | claim granted =>
    obtain ⟨-, -, -, -, -, rfl⟩ := JobQueue.request_granted granted
    rfl
  | _ => simp

theorem sinks (h : Move setup shared p shared' q) (context : shared.queue.context.sink = sink)
    (hp : ∀ holding, p.holding? = some holding → holding.batch.sink = sink) :
    ∀ holding, q.holding? = some holding → holding.batch.sink = sink := by
  cases h with
  | claim granted =>
    obtain ⟨-, -, -, -, same, -⟩ := JobQueue.request_granted granted
    simpa [same] using context
  | explore before after =>
    have same := hp _ (Phase.holding_of_simulates before)
    simpa [Phase.holding_of_simulates after] using same
  | abandon before =>
    have same := hp _ (Phase.holding_of_simulates before)
    simpa using same
  | judge | miss | credit | crash | count | send => simpa using hp
  | leave | countLast | sendLast | fail | report => simp

theorem opened (h : Move setup shared p shared' q)
    (hs : shared.queue.shutdown = true → shared.queue.failure.isSome)
    (closed : shared'.queue.shutdown = true) : shared'.queue.failure.isSome := by
  cases h with
  | claim granted =>
    obtain ⟨-, -, -, -, -, rfl⟩ := JobQueue.request_granted granted
    exact hs closed
  | fail => simp
  | _ => simpa using hs (by simpa using closed)

end Move

namespace Session

/-- What holds of a session in the middle of a call whose results go to a sink. -/
structure Serves (s : Session) (sink : Sink) : Prop where
  context : s.shared.queue.context.sink = sink
  sinks : ∀ w ∈ s.workers, ∀ holding, w.phase.holding? = some holding → holding.batch.sink = sink
  opened : s.shared.queue.shutdown = true → s.shared.queue.failure.isSome

theorem Serves.begin (context : Batch) (opened : s.shared.queue.shutdown = false)
    (same : s.shared.queue.context = context)
    (requesting : ∀ w ∈ s.workers, w.phase = .requesting) : s.Serves context.sink := by
  refine ⟨by rw [same], ?_, ?_⟩
  · intro w present holding held
    rw [requesting w present] at held
    cases held
  · intro closed
    rw [opened] at closed
    contradiction

theorem Serves.work {place : Nat} (hs : s.Serves sink) (h : s.Works place s') : s'.Serves sink := by
  cases h with
  | @mk w _ _ there move =>
    have present := List.mem_of_getElem? there
    refine ⟨?_, ?_, move.opened hs.opened⟩
    · rw [move.context]
      exact hs.context
    · exact forall_mem_set hs.sinks (move.sinks hs.context (hs.sinks w present))

theorem Serves.open_of_sound (hs : s.Serves sink) (sound : s.shared.queue.failure = none) :
    s.shared.queue.shutdown = false := by
  by_contra closed
  have failed := hs.opened (by simpa using closed)
  simp [sound] at failed

theorem running (hm : s.Manned) (settled : s.Settled) (h : s.ensureRunning = .ok ()) :
    s.shared.queue.failure = none ∧ s.shared.queue.shutdown = false ∧
      s.shared.queue.remaining = 0 ∧ s.shared.queue.active = 0 ∧
      ∀ w ∈ s.workers, w.phase = .requesting := by
  obtain ⟨sound, opened, -⟩ := ensureRunning_eq_ok h
  obtain ⟨remaining, active⟩ := settled opened
  exact ⟨sound, opened, remaining, active, hm.requesting opened active⟩

end Session

end SchedulerLearning
