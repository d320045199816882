import Mathlib.Data.List.Basic
import Mathlib.Logic.Relation
import SchedulerLearning.Proofs.Outcome
import SchedulerLearning.Proofs.QueueLaws
import SchedulerLearning.Proofs.Totals

/-!
# Conservation of jobs

A ledger is a job queue with books on it: how many jobs were issued and withdrawn, and every
grant that was given. Along every sequence of sections under the job lock the books balance,
so no job is lost and none is done twice.
-/

namespace SchedulerLearning

/-- A section under the job lock. A grant is named by its place among the grants given. -/
inductive QueueOp
  | issue (count : Nat)
  | request (limit : Nat)
  | finish (place : Nat)
  | fail (place : Nat) (error : ModelError Float)
  | cancel
  | close

/-- A grant on the books: what its holder asked for, and whether it has ended. -/
structure Claim (κ : Type) where
  limit : Nat
  grant : Grant κ
  ended : Bool

namespace Claim

variable {κ : Type} {claims : List (Claim κ)} {place : Nat}

def jobs (claims : List (Claim κ)) : Nat := (claims.map (·.grant.count)).sum

def outstanding (claims : List (Claim κ)) : Nat := (claims.map fun c => if c.ended then 0 else 1).sum

def Open (claims : List (Claim κ)) (place : Nat) : Prop := ∃ c, claims[place]? = some c ∧ c.ended = false

def close (claims : List (Claim κ)) (place : Nat) : List (Claim κ) :=
  claims.modify place fun c => { c with ended := true }

def Fair (c : Claim κ) : Prop := 1 ≤ c.grant.count ∧ c.grant.count ≤ max c.limit 1

theorem close_eq_set {c : Claim κ} (h : claims[place]? = some c) :
    close claims place = claims.set place { c with ended := true } := by
  rw [close, List.modify_eq_set_getElem?, h]
  rfl

theorem jobs_close (h : Open claims place) : jobs (close claims place) = jobs claims := by
  obtain ⟨c, hc, -⟩ := h
  have balance := sum_map_set (fun c : Claim κ => c.grant.count) hc { c with ended := true }
  rw [jobs, close_eq_set hc]
  exact Nat.add_right_cancel balance

theorem outstanding_close (h : Open claims place) :
    outstanding (close claims place) + 1 = outstanding claims := by
  obtain ⟨c, hc, ended⟩ := h
  have balance := sum_map_set (fun c : Claim κ => if c.ended then 0 else 1) hc
    { c with ended := true }
  rw [outstanding, close_eq_set hc]
  simpa only [ended, outstanding, Bool.false_eq_true, if_true, if_false, add_zero] using balance

theorem outstanding_pos (h : Open claims place) : 0 < outstanding claims := by
  have := outstanding_close h
  omega

theorem fair_close (h : Open claims place) (fair : ∀ c ∈ claims, c.Fair) :
    ∀ c ∈ close claims place, c.Fair := by
  obtain ⟨c, hc, -⟩ := h
  rw [close_eq_set hc]
  exact forall_mem_set fair (fair c (List.mem_of_getElem? hc))

end Claim

structure Ledger (κ : Type) where
  queue : JobQueue κ
  /-- The jobs of all issues that succeeded. -/
  issued : Nat
  /-- The jobs of all withdrawals. -/
  withdrawn : Nat
  /-- Every grant given, the oldest first. -/
  claims : List (Claim κ)

namespace Ledger

variable {κ : Type} {context : κ} {l l' : Ledger κ} {op : QueueOp} {place : Nat} {fault : Fault}

def start (context : κ) : Ledger κ := ⟨.ofContext context, 0, 0, []⟩

/-- A grant is ended by its holder, and only once. All else may come in any order. -/
def Admits (l : Ledger κ) : QueueOp → Prop
  | .finish place | .fail place _ => Claim.Open l.claims place
  | .issue _ | .request _ | .cancel | .close => True

def next (l : Ledger κ) : QueueOp → Ledger κ × Except Fault Unit
  | .issue count =>
    match l.queue.issue count with
    | (queue, .ok ()) => ({ l with queue, issued := l.issued + count }, .ok ())
    | (queue, .error fault) => ({ l with queue }, .error fault)
  | .request limit =>
    match l.queue.request limit with
    | (.granted grant, queue) =>
      ({ l with queue, claims := l.claims ++ [⟨limit, grant, false⟩] }, .ok ())
    | (.wait, queue) | (.closed, queue) => ({ l with queue }, .ok ())
  | .finish place =>
    match l.queue.finish with
    | .ok queue => ({ l with queue, claims := Claim.close l.claims place }, .ok ())
    | .error fault => (l, .error fault)
  | .fail place error =>
    ({ l with queue := l.queue.fail error, claims := Claim.close l.claims place }, .ok ())
  | .cancel =>
    let (count, queue) := l.queue.cancel
    ({ l with queue, withdrawn := l.withdrawn + count }, .ok ())
  | .close => ({ l with queue := l.queue.close }, .ok ())

def after (l : Ledger κ) (op : QueueOp) : Ledger κ := (l.next op).1

inductive Step (l : Ledger κ) : Ledger κ → Prop
  | mk (op : QueueOp) (admits : l.Admits op) : Step l (l.after op)

abbrev LeadsTo : Ledger κ → Ledger κ → Prop := Relation.ReflTransGen Step

structure Balanced (l : Ledger κ) : Prop where
  jobs : l.issued = Claim.jobs l.claims + l.withdrawn + l.queue.remaining
  active : l.queue.active = Claim.outstanding l.claims
  fair : ∀ c ∈ l.claims, c.Fair

-- ---------------------------------------------------------------------------
-- One section
-- ---------------------------------------------------------------------------

theorem after_issue (count : Nat) :
    (l.after (.issue count) = l ∧ l.queue.remaining ≠ 0 ∧ (l.next (.issue count)).2 =
      .error (.assertion s!"new jobs issued while {l.queue.remaining} are still pending")) ∨
    (l.queue.remaining = 0 ∧ (l.next (.issue count)).2 = .ok () ∧
      l.after (.issue count) =
        { l with queue := { l.queue with remaining := count }, issued := l.issued + count }) := by
  unfold after next
  simp only
  split
  · next issued =>
    obtain ⟨pending, rfl⟩ := JobQueue.issue_eq_ok.mp issued
    exact .inr ⟨pending, rfl, rfl⟩
  · next refused =>
    obtain ⟨rfl, pending, rfl⟩ := JobQueue.issue_eq_error.mp refused
    exact .inl ⟨rfl, pending, rfl⟩

theorem after_request (limit : Nat) :
    l.after (.request limit) = l ∨
      ∃ grant, l.queue.shutdown = false ∧ (⟨limit, grant, false⟩ : Claim κ).Fair ∧
        grant.count ≤ l.queue.remaining ∧
        l.after (.request limit) = { l with
          queue := { l.queue with
            remaining := l.queue.remaining - grant.count, active := l.queue.active + 1 }
          claims := l.claims ++ [⟨limit, grant, false⟩] } := by
  unfold after next
  simp only
  split
  · next grant queue granted =>
    obtain ⟨opened, least, most, claimed, -, rfl⟩ := JobQueue.request_granted granted
    exact .inr ⟨grant, opened, ⟨least, most⟩, claimed, rfl⟩
  · next waits =>
    obtain ⟨-, -, rfl⟩ := JobQueue.request_wait waits
    exact .inl rfl
  · next closed =>
    obtain ⟨-, rfl⟩ := JobQueue.request_closed closed
    exact .inl rfl

theorem after_finish (place : Nat) :
    (l.after (.finish place) = l ∧ l.queue.active = 0) ∨
      (0 < l.queue.active ∧ (l.next (.finish place)).2 = .ok () ∧ l.after (.finish place) = { l with
        queue := { l.queue with active := l.queue.active - 1 }
        claims := Claim.close l.claims place }) := by
  unfold after next JobQueue.finish
  by_cases active : 0 < l.queue.active
  · simp [active]
  · exact .inl ⟨by simp [active], Nat.eq_zero_of_not_pos active⟩

theorem Balanced.next_eq_error (hb : l.Balanced) (admits : l.Admits op) :
    (l.next op).2 = .error fault ↔ ∃ count, op = .issue count ∧ l.queue.remaining ≠ 0 ∧
      fault = .assertion s!"new jobs issued while {l.queue.remaining} are still pending" := by
  cases op with
  | issue count =>
    obtain ⟨-, pending, refused⟩ | ⟨claimed, issued, -⟩ := after_issue (l := l) count
    · simp [refused, pending, eq_comm]
    · simp [issued, claimed]
  | request limit => simp only [next]; split <;> simp
  | finish place =>
    have active : 0 < l.queue.active := hb.active ▸ Claim.outstanding_pos admits
    simp [next, JobQueue.finish, active]
  | fail place error => simp [next]
  | cancel => simp [next, JobQueue.cancel]
  | close => simp [next]

theorem after_eq_self (h : (l.next op).2 = .error fault) : l.after op = l := by
  cases op with
  | issue count =>
    obtain ⟨same, -⟩ | ⟨-, issued, -⟩ := after_issue (l := l) count
    · exact same
    · rw [issued] at h
      cases h
  | request limit =>
    simp only [next] at h
    split at h <;> cases h
  | finish place =>
    obtain ⟨same, -⟩ | ⟨-, finished, -⟩ := after_finish (l := l) place
    · exact same
    · rw [finished] at h
      cases h
  | fail | cancel | close => cases h

theorem Balanced.after (hb : l.Balanced) (admits : l.Admits op) : (l.after op).Balanced := by
  obtain ⟨jobs, active, fair⟩ := hb
  cases op with
  | issue count =>
    obtain ⟨same, -⟩ | ⟨pending, -, same⟩ := after_issue (l := l) count
    · rw [same]
      exact ⟨jobs, active, fair⟩
    · rw [same]
      exact ⟨by simp only; omega, active, fair⟩
  | request limit =>
    obtain same | ⟨grant, -, fairGrant, claimed, same⟩ := after_request (l := l) limit
    · rw [same]
      exact ⟨jobs, active, fair⟩
    · rw [same]
      refine ⟨?_, ?_, ?_⟩
      · simp only [Claim.jobs, List.map_append, List.sum_append, List.map_cons, List.map_nil,
          List.sum_singleton] at jobs ⊢
        omega
      · simp [Claim.outstanding, active]
      · intro c hc
        rcases List.mem_append.mp hc with hc | hc
        · exact fair c hc
        · rw [List.mem_singleton.mp hc]
          exact fairGrant
  | finish place =>
    have ended := Claim.outstanding_close admits
    obtain ⟨-, none⟩ | ⟨-, -, same⟩ := after_finish (l := l) place
    · omega
    · rw [same]
      exact ⟨by rw [Claim.jobs_close admits]; exact jobs, by simp only; omega,
        Claim.fair_close admits fair⟩
  | fail place error =>
    have ended := Claim.outstanding_close admits
    refine ⟨(Claim.jobs_close admits).symm ▸ jobs, ?_, Claim.fair_close admits fair⟩
    show l.queue.active - 1 = Claim.outstanding (Claim.close l.claims place)
    omega
  | cancel => exact ⟨by simp only [Ledger.after, next, JobQueue.cancel]; omega, active, fair⟩
  | close => exact ⟨jobs, active, fair⟩

theorem after_of_shutdown (op : QueueOp) (hs : l.queue.shutdown = true) :
    (l.after op).queue.shutdown = true ∧ (l.after op).claims.length = l.claims.length := by
  cases op with
  | issue count =>
    obtain ⟨same, -⟩ | ⟨-, -, same⟩ := after_issue (l := l) count
    all_goals
      rw [same]
      exact ⟨hs, rfl⟩
  | request limit =>
    obtain same | ⟨grant, opened, -⟩ := after_request (l := l) limit
    · rw [same]
      exact ⟨hs, rfl⟩
    · rw [hs] at opened
      contradiction
  | finish place =>
    obtain ⟨same, -⟩ | ⟨-, -, same⟩ := after_finish (l := l) place
    · rw [same]
      exact ⟨hs, rfl⟩
    · rw [same]
      exact ⟨hs, by simp [Claim.close]⟩
  | fail place error => exact ⟨rfl, by simp [after, next, Claim.close]⟩
  | cancel => exact ⟨hs, rfl⟩
  | close => exact ⟨rfl, rfl⟩

-- ---------------------------------------------------------------------------
-- Any number of sections
-- ---------------------------------------------------------------------------

theorem balanced_start (context : κ) : (start context).Balanced := by
  refine ⟨?_, ?_, ?_⟩ <;> simp [start, JobQueue.ofContext, Claim.jobs, Claim.outstanding]

theorem Balanced.leadsTo (hb : l.Balanced) (h : l.LeadsTo l') : l'.Balanced := by
  induction h with
  | refl => exact hb
  | tail _ step ih =>
    obtain ⟨op, admits⟩ := step
    exact ih.after admits

theorem leadsTo_of_shutdown (hs : l.queue.shutdown = true) (h : l.LeadsTo l') :
    l'.queue.shutdown = true ∧ l'.claims.length = l.claims.length := by
  induction h with
  | refl => exact ⟨hs, rfl⟩
  | tail _ step ih =>
    obtain ⟨op, -⟩ := step
    obtain ⟨closed, given⟩ := after_of_shutdown op ih.1
    exact ⟨closed, given.trans ih.2⟩

theorem Balanced.end_active (hb : l.Balanced) (h : Claim.Open l.claims place) :
    (∃ queue, l.queue.finish = .ok queue ∧ queue.active + 1 = l.queue.active) ∧
      ∀ error, (l.queue.fail error).active + 1 = l.queue.active := by
  have active : 0 < l.queue.active := hb.active ▸ Claim.outstanding_pos h
  refine ⟨⟨_, JobQueue.finish_eq_ok.mpr ⟨active, rfl⟩, ?_⟩, fun error => ?_⟩
  · simp only
    omega
  · simp only [JobQueue.fail_active]
    omega

/-- Whoever works on a queue, and in whatever order: every job issued has been granted once, was
withdrawn, or is still waiting; the grants counted as active are those that have not ended, so
ending one never counts below zero; a grant has at least one job and no more than were asked
for. Closing the queue raises the flag, as a failure does, and from then on it stays up and no
grant is given. The only section that faults is an issue while jobs are pending, and it changes
nothing. -/
theorem jobs_conserved (h : (start context).LeadsTo l) :
    (l.issued = Claim.jobs l.claims + l.withdrawn + l.queue.remaining) ∧
    (l.queue.active = Claim.outstanding l.claims) ∧
    (∀ c ∈ l.claims, 1 ≤ c.grant.count ∧ c.grant.count ≤ max c.limit 1) ∧
    ((l.after .close).queue.shutdown = true ∧
      ∀ place error, (l.after (.fail place error)).queue.shutdown = true) ∧
    (l.queue.shutdown = true →
      ∀ l', l.LeadsTo l' → l'.queue.shutdown = true ∧ l'.claims.length = l.claims.length) ∧
    (∀ place, Claim.Open l.claims place →
      (∃ queue, l.queue.finish = .ok queue ∧ queue.active + 1 = l.queue.active) ∧
        ∀ error, (l.queue.fail error).active + 1 = l.queue.active) ∧
    (∀ op fault, l.Admits op →
      ((l.next op).2 = .error fault ↔ ∃ count, op = .issue count ∧ l.queue.remaining ≠ 0 ∧
        fault = .assertion s!"new jobs issued while {l.queue.remaining} are still pending")) ∧
    (∀ op fault, (l.next op).2 = .error fault → l.after op = l) := by
  have hb := (balanced_start context).leadsTo h
  refine ⟨hb.jobs, hb.active, hb.fair, ⟨rfl, fun _ _ => rfl⟩, fun hs l' => leadsTo_of_shutdown hs,
    ?_, ?_, ?_⟩
  · exact fun place => hb.end_active
  · exact fun op fault => hb.next_eq_error
  · exact fun op fault => after_eq_self

theorem jobs_conserved_after_failure :
    ∃ l : Ledger Unit, (start ()).LeadsTo l ∧ l.queue.shutdown = true ∧ l.issued = 5 ∧
      l.issued = Claim.jobs l.claims + l.withdrawn + l.queue.remaining ∧
      Claim.jobs l.claims = 4 ∧ l.withdrawn = 1 ∧ l.queue.active = 1 := by
  have h₁ : (start ()).LeadsTo ((start ()).after (.issue 5)) := .single ⟨_, trivial⟩
  have h₂ := h₁.tail ⟨.request 3, trivial⟩
  have h₃ := h₂.tail ⟨.request 0, trivial⟩
  have h₄ := h₃.tail ⟨.fail 0 (.internal (.other "stopped")), ⟨⟨3, ⟨3, ()⟩, false⟩, rfl, rfl⟩⟩
  have h₅ := h₄.tail ⟨.cancel, trivial⟩
  exact ⟨_, h₅, rfl, rfl, (jobs_conserved h₅).1, rfl, rfl, rfl⟩

end Ledger

end SchedulerLearning
