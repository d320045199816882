import SchedulerLearning.Model.Error

/-!
# The job queue

Jobs are issued in batches and claimed by workers in grants. Every operation here is one
section under the job lock, so it is a function on the whole state of the queue. A grant
carries the context of its batch.
-/

namespace SchedulerLearning

/-- A worker's share of a batch. -/
structure Grant (κ : Type) where
  count : Nat
  context : κ
  deriving Repr

structure JobQueue (κ : Type) where
  /-- Jobs that no worker has claimed. -/
  remaining : Nat
  /-- Grants that have not ended. -/
  active : Nat
  shutdown : Bool
  /-- The first failure reported. -/
  failure : Option (ModelError Float)
  context : κ

namespace JobQueue

variable {κ : Type}

def ofContext (context : κ) : JobQueue κ := ⟨0, 0, false, none, context⟩

/-- Issues jobs. The ones of the batch before must all have been claimed. -/
def issue (q : JobQueue κ) (count : Nat) : JobQueue κ × Except Fault Unit :=
  if q.remaining = 0 then ({ q with remaining := count }, .ok ())
  else (q, .error (.assertion s!"new jobs issued while {q.remaining} are still pending"))

inductive Answer (κ : Type)
  /-- There are none now. -/
  | wait
  /-- There will be none any more. -/
  | closed
  | granted (grant : Grant κ)

def answers (q : JobQueue κ) : Bool := q.shutdown || q.remaining ≠ 0

/-- Claims up to `limit` jobs, at least one. -/
def request (q : JobQueue κ) (limit : Nat) : Answer κ × JobQueue κ :=
  if q.shutdown then (.closed, q)
  else if q.remaining = 0 then (.wait, q)
  else
    let count := min q.remaining (max 1 limit)
    (.granted ⟨count, q.context⟩,
      { q with remaining := q.remaining - count, active := q.active + 1 })

def finish (q : JobQueue κ) : Except Fault (JobQueue κ) :=
  if 0 < q.active then .ok { q with active := q.active - 1 }
  else .error (.assertion "finish without an active grant")

def fail (q : JobQueue κ) (error : ModelError Float) : JobQueue κ :=
  { q with
    active := q.active - 1
    failure := q.failure <|> some error
    shutdown := true }

/-- Withdraws the jobs that no worker has claimed, and tells how many there were. -/
def cancel (q : JobQueue κ) : Nat × JobQueue κ := (q.remaining, { q with remaining := 0 })

def close (q : JobQueue κ) : JobQueue κ := { q with shutdown := true }

/-- Whether there is nothing to wait for: every job is done, or a worker has failed. -/
def idle (q : JobQueue κ) : Bool := (q.remaining = 0 && q.active = 0) || q.failure.isSome

end JobQueue

end SchedulerLearning
