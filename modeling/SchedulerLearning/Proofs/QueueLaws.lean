import SchedulerLearning.Engine.JobQueue

/-!
# Laws of the job queue

For each section under the job lock, when it succeeds and what it leaves behind.
-/

namespace SchedulerLearning.JobQueue

variable {κ : Type} {q q' : JobQueue κ}

theorem issue_eq_ok {count : Nat} :
    q.issue count = (q', .ok ()) ↔ q.remaining = 0 ∧ q' = { q with remaining := count } := by
  unfold issue
  split <;> simp_all [eq_comm]

theorem issue_eq_error {count : Nat} {fault : Fault} :
    q.issue count = (q', .error fault) ↔
      q' = q ∧ q.remaining ≠ 0 ∧
        fault = .assertion s!"new jobs issued while {q.remaining} are still pending" := by
  unfold issue
  split <;> simp_all [eq_comm]

theorem finish_eq_ok : q.finish = .ok q' ↔ 0 < q.active ∧ q' = { q with active := q.active - 1 } := by
  unfold finish
  split <;> simp_all [eq_comm]

theorem request_granted {limit : Nat} {grant : Grant κ} (h : q.request limit = (.granted grant, q')) :
    q.shutdown = false ∧ 1 ≤ grant.count ∧ grant.count ≤ max limit 1 ∧ grant.count ≤ q.remaining ∧
      grant.context = q.context ∧
      q' = { q with remaining := q.remaining - grant.count, active := q.active + 1 } := by
  unfold request at h
  split at h
  · cases h
  · next hs =>
    split at h
    · cases h
    · cases h
      refine ⟨by simpa using hs, ?_, ?_, ?_, rfl, rfl⟩ <;> simp only <;> omega

theorem request_closed {limit : Nat} (h : q.request limit = (.closed, q')) :
    q.shutdown = true ∧ q' = q := by
  unfold request at h
  split at h
  · next hs => cases h; exact ⟨hs, rfl⟩
  · split at h <;> cases h

theorem request_wait {limit : Nat} (h : q.request limit = (.wait, q')) :
    q.shutdown = false ∧ q.remaining = 0 ∧ q' = q := by
  unfold request at h
  split at h
  · cases h
  · next hs =>
    split at h
    · next hr => cases h; exact ⟨by simpa using hs, hr, rfl⟩
    · cases h

theorem answers_eq_false : q.answers = false ↔ q.shutdown = false ∧ q.remaining = 0 := by
  simp [answers]

theorem idle_iff : q.idle = true ↔ (q.remaining = 0 ∧ q.active = 0) ∨ q.failure.isSome := by
  simp [idle]

@[simp] theorem fail_remaining (error : ModelError Float) : (q.fail error).remaining = q.remaining := rfl
@[simp] theorem fail_active (error : ModelError Float) : (q.fail error).active = q.active - 1 := rfl
@[simp] theorem fail_context (error : ModelError Float) : (q.fail error).context = q.context := rfl

@[simp] theorem isSome_failure_fail (error : ModelError Float) : (q.fail error).failure.isSome = true := by
  cases h : q.failure <;> simp [fail, h]

end SchedulerLearning.JobQueue
