import SchedulerLearning.Proofs.CheckingProgress
import SchedulerLearning.Proofs.SingleWorker

/-!
# Checking with one worker

The only worker of a check sends the verdicts of the sequential program in their order. It may be
ahead of the decision procedure, which then has still to hear what is in the channel; what the
worker does beyond the decision is not heard.
-/

namespace SchedulerLearning

-- ---------------------------------------------------------------------------
-- Verdicts of the program
-- ---------------------------------------------------------------------------

/-- The verdicts of the next traces that the program simulates, and the program after them. -/
inductive Plain.Yields (task : Task) (overlay : Option Overlay) : Plain → List Verdict → Plain → Prop
  | none {now} : Yields task overlay now [] now
  | next {now next last r verdicts} (job : now.job task overlay = .ok (r, next))
      (rest : Yields task overlay next verdicts last) :
      Yields task overlay now (r.verdict :: verdicts) last

namespace Plain

variable {task : Task} {overlay : Option Overlay} {first now next last : Plain} {r : Result}
  {verdicts : List Verdict} {left more : Nat} {procedure : Procedure} {outcome : Outcome}

theorem Yields.after (h : Yields task overlay first verdicts now)
    (job : now.job task overlay = .ok (r, next)) :
    Yields task overlay first (verdicts ++ [r.verdict]) next := by
  induction h with
  | none => exact .next job .none
  | next done _ ih => exact .next done (ih job)

theorem check_succ (job : now.job task overlay = .ok (r, next)) :
    check task overlay (left + 1) procedure now =
      match procedure.observe r.verdict.satisfied with
      | (_, some outcome) => .ok (some outcome)
      | (procedure, .none) => check task overlay left procedure next := by
  simp only [check, job, bind, Except.bind]
  rfl

theorem check_add (h : check task overlay left procedure now = .ok (some outcome)) :
    check task overlay (left + more) procedure now = .ok (some outcome) := by
  induction left generalizing procedure now with
  | zero => cases h
  | succ left ih =>
    obtain ⟨⟨r, next⟩, job, -⟩ := bind_eq_ok.mp h
    rw [check_succ job] at h
    rw [Nat.add_right_comm, check_succ job]
    cases observed : procedure.observe r.verdict.satisfied with
    | mk procedure found =>
      rw [observed] at h
      cases found with
      | some => exact h
      | none => exact ih h

end Plain

-- ---------------------------------------------------------------------------
-- One stride
-- ---------------------------------------------------------------------------

variable {setup : Setup} {shared shared' : Shared} {w w' : Worker} {first now now' : Plain}
  {s s' : Session} {a : Account} {c : Checking} {overlay : Option Overlay} {procedure : Procedure}

theorem Shared.pending_of_delivered {channel : Channel Report} {verdicts : List Verdict}
    {credits : List Credit} {verdict : Verdict} (opened : shared.channel = some channel)
    (waiting : shared.pending = verdicts.map .ok)
    (delivered : shared.deliver .verdicts credits verdict = (shared', .ok ())) :
    shared'.pending = (verdicts ++ [verdict]).map .ok := by
  cases delivered
  rw [pending_of_sent opened rfl, waiting, List.map_append]
  rfl

theorem Stride.yields {channel : Channel Report} {verdicts : List Verdict}
    (h : Stride setup ⟨.verdicts, overlay⟩ shared w now shared' w' now')
    (opened : shared.channel = some channel) (waiting : shared.pending = verdicts.map .ok)
    (yields : first.Yields setup.task overlay (verdicts ++ w.phase.verdicts) now) :
    ∃ verdicts', shared'.pending = verdicts'.map .ok ∧
      first.Yields setup.task overlay (verdicts' ++ w'.phase.verdicts) now' := by
  cases h with
  | claim asks least most begins =>
    rw [asks] at yields
    exact ⟨verdicts, waiting, by simpa [begins] using yields⟩
  | leave asks closed leaves =>
    rw [asks] at yields
    exact ⟨verdicts, waiting, by rw [leaves]; exact yields⟩
  | pursue before after =>
    rw [Phase.verdicts_of_simulates before] at yields
    exact ⟨verdicts, waiting, by rw [Phase.verdicts_of_simulates after]; exact yields⟩
  | judge before job after =>
    rw [Phase.verdicts_of_simulates before, List.append_nil] at yields
    exact ⟨verdicts, waiting, by rw [after]; exact yields.after job⟩
  | miss delivers after | credit delivers _ after =>
    rw [delivers] at yields
    exact ⟨verdicts, waiting, by rw [after]; exact yields⟩
  | @next _ _ _ verdict _ _ delivers _ delivered begins =>
    rw [delivers] at yields
    have sent := Shared.pending_of_delivered opened waiting delivered
    exact ⟨verdicts ++ [verdict], sent, by simpa [begins] using yields⟩
  | @last _ _ _ verdict _ _ delivers _ delivered asks =>
    rw [delivers] at yields
    have sent := Shared.pending_of_delivered opened waiting delivered
    exact ⟨verdicts ++ [verdict], sent, by simpa [asks] using yields⟩

-- ---------------------------------------------------------------------------
-- One step of the session
-- ---------------------------------------------------------------------------

/-- What a check has heard: while it takes verdicts, as many as it says, and those to come are
what waits and what the worker still owes; after that, enough to decide. -/
def Checking.Hears (overlay : Option Overlay) (procedure : Procedure) (first : Plain) (s : Session)
    (c : Checking) (w : Worker) (now : Plain) : Prop :=
  match c.phase with
  | .looking | .receiving =>
    ∃ (next : Plain) (verdicts : List Verdict), s.shared.pending = verdicts.map .ok ∧
      next.Yields s.setup.task overlay (verdicts ++ w.phase.verdicts) now ∧
      ∀ n, first.check s.setup.task overlay (c.received + n) procedure =
        next.check s.setup.task overlay n c.procedure
  | .withdrawing outcome | .draining outcome =>
    ∃ decided n, outcome = .ok decided ∧
      first.check s.setup.task overlay n procedure = .ok (some decided)

structure Checking.Follows (overlay : Option Overlay) (procedure : Procedure) (first : Plain)
    (s : Session) (c : Checking) (w : Worker) (now : Plain) : Prop where
  abreast : s.Abreast ⟨.verdicts, overlay⟩ w now
  opened : s.shared.queue.shutdown = false
  hears : c.Hears overlay procedure first s w now

namespace Checking.Follows

theorem work {place : Nat} (h : c.Follows overlay procedure first s w now)
    (reliable : s.setup.task.Reliable) (hm : s.Manned) (agrees : s.Agrees) (hp : c.Paced a s)
    (step : s.stepWorker place = some s') :
    ∃ w' now', c.Follows overlay procedure first s' w' now' := by
  obtain ⟨shared', w', now', rfl, stride, abreast⟩ := h.abreast.step reliable agrees hm step
  obtain ⟨channel, opened, -⟩ := hp.capacity
  refine ⟨w', now', abreast, stride.queue.2.2.trans h.opened, ?_⟩
  have hears := h.hears
  unfold Hears at hears ⊢
  cases phase : c.phase with
  | looking | receiving =>
    simp only [phase] at hears ⊢
    obtain ⟨next, verdicts, waiting, yields, goes⟩ := hears
    obtain ⟨verdicts', waiting', yields'⟩ := stride.yields opened waiting yields
    exact ⟨next, verdicts', waiting', yields', goes⟩
  | withdrawing | draining => simpa only [phase] using hears

/-- Where a check ends: with a decision of the program, or with more jobs issued than a word has
room for, so with no decision sooner. -/
def Ends (overlay : Option Overlay) (procedure : Procedure) (first : Plain) (s s' : Session) :
    Except (Stop LearnError) Outcome → Prop
  | .ok outcome => ∃ n w now, first.check s.setup.task overlay n procedure = .ok (some outcome) ∧
      s'.setup = s.setup ∧ s'.config = s.config ∧ s'.Abreast .learning w now ∧
      s'.shared.queue.shutdown = false
  | .error _ => ∀ n outcome, first.check s.setup.task overlay n procedure = .ok (some outcome) →
      Word.size ≤ n + s.config.checkBatch

theorem lt_of_decides {next : Plain} {n : Nat} {outcome : Outcome}
    (goes : first.check s.setup.task overlay (c.received + 0) procedure =
      next.check s.setup.task overlay 0 c.procedure)
    (decides : first.check s.setup.task overlay n procedure = .ok (some outcome)) :
    c.received < n := by
  by_contra most
  obtain ⟨more, same⟩ := Nat.exists_eq_add_of_le (Nat.le_of_not_lt most)
  rw [Nat.add_zero, same, Plain.check_add decides] at goes
  cases goes

theorem look (h : c.Follows overlay procedure first s w now) (hp : c.Paced a s) (hm : s.Manned)
    (looking : c.phase = .looking) :
    (Checking.look s c).Obeys (fun s' c' => ∃ w now, c'.Follows overlay procedure first s' w now)
      (Ends overlay procedure first s) := by
  have hears := h.hears
  simp only [Hears, looking] at hears
  obtain ⟨next, verdicts, waiting, yields, goes⟩ := hears
  unfold Checking.look
  rw [h.abreast.sound]
  simp only
  split
  · next level =>
    obtain ⟨remaining, -⟩ := hp.level hm level.1
    rw [Session.issue_eq_ok.mpr ⟨remaining, rfl⟩]
    cases issued : Word.add c.issued s.config.checkBatch with
    | ok issued =>
      exact ⟨w, now, h.abreast.of_scheduler _ _ h.abreast.context h.abreast.sound, h.opened,
        next, verdicts, waiting, yields, goes⟩
    | error fault =>
      intro n outcome decides
      have most : Word.size ≤ c.issued + s.config.checkBatch := by
        by_contra less
        rw [Word.add_eq_ok.mpr ⟨Nat.lt_of_not_le less, rfl⟩] at issued
        cases issued
      have later := lt_of_decides (goes 0) decides
      rw [level.1] at later
      exact le_trans most (Nat.add_le_add_right later.le _)
  · exact ⟨w, now, h.abreast, h.opened, next, verdicts, waiting, yields, goes⟩

theorem receive (h : c.Follows overlay procedure first s w now) (receiving : c.phase = .receiving) :
    (Checking.receive s c).Obeys (fun s' c' => ∃ w now, c'.Follows overlay procedure first s' w now)
      (Ends overlay procedure first s) := by
  have hears := h.hears
  simp only [Hears, receiving] at hears
  obtain ⟨next, verdicts, waiting, yields, goes⟩ := hears
  unfold Checking.receive
  split
  · trivial
  · next report channel' found =>
    obtain ⟨channel, opened, received⟩ := Option.bind_eq_some_iff.mp found
    have abreast := h.abreast.of_scheduler s.shared.queue (some channel') h.abreast.context
      h.abreast.sound
    rw [Shared.pending_of_received opened received] at waiting
    cases verdicts with
    | nil => cases waiting
    | cons verdict verdicts =>
      -- What is heard is the verdict on the next trace of the program.
      obtain ⟨rfl, rest⟩ := List.cons_eq_cons.mp waiting
      cases yields with
      | @next _ after _ r _ job yields =>
        have turn := fun n => (goes (n + 1)).trans (Plain.check_succ job)
        simp only
        cases observed : c.procedure.observe r.verdict.satisfied with
        | mk procedure' found =>
          simp only [observed] at turn ⊢
          cases found with
          | none =>
            refine ⟨w, now, abreast, h.opened, after, verdicts, rest, yields, fun n => ?_⟩
            rw [Nat.add_right_comm]
            exact turn n
          | some outcome => exact ⟨w, now, abreast, h.opened, outcome, _, rfl, turn 0⟩

theorem drain (h : c.Follows overlay procedure first s w now) (hm : s.Manned)
    {outcome : Except LearnError Outcome} (draining : c.phase = .draining outcome) :
    (Checking.drain s outcome).Obeys
      (fun s' c' => ∃ w now, c'.Follows overlay procedure first s' w now)
      (Ends overlay procedure first s) := by
  have hears := h.hears
  simp only [Hears, draining] at hears
  obtain ⟨decided, n, rfl, decides⟩ := hears
  unfold Checking.drain
  split
  · trivial
  · next idle =>
    obtain ⟨-, active⟩ := hm.settled_of_idle (by simpa using idle) h.opened
    obtain ⟨asks, -⟩ := h.abreast.asks hm h.opened active
    exact ⟨n, w, _, decides, rfl, rfl,
      .of_requesting h.abreast.workers asks rfl h.abreast.sound, h.opened⟩

theorem step (h : c.Follows overlay procedure first s w now) (hp : c.Paced a s) (hm : s.Manned) :
    (Checking.step s c).Obeys (fun s' c' => ∃ w now, c'.Follows overlay procedure first s' w now)
      (Ends overlay procedure first s) := by
  unfold Checking.step
  split
  · next looking => exact h.look hp hm looking
  · next receiving => exact h.receive receiving
  · next outcome withdrawing =>
    have hears := h.hears
    simp only [Hears, withdrawing] at hears
    exact ⟨w, now, h.abreast.of_scheduler _ _ h.abreast.context h.abreast.sound, h.opened, hears⟩
  · next outcome draining => exact h.drain hm draining

theorem begin (abreast : s.Abreast .learning w now) (hm : s.Manned) (settled : s.Settled)
    (opened : s.shared.queue.shutdown = false) (words : s.config.checkBatch + 1 < Word.size)
    (room : Room.claim 40 (s.config.checkBatch + 1) = .ok ()) (procedure : Procedure) :
    ∃ s' c, Checking.start s procedure = .ok (s', c) ∧ s'.setup = s.setup ∧ s'.config = s.config ∧
      c.Follows (if s.deterministic then s.overlay else none) procedure now s' w now := by
  obtain ⟨-, active⟩ := settled opened
  obtain ⟨asks, rfl⟩ := abreast.asks hm opened active
  have alone : s.workers.length = 1 := by rw [abreast.workers, List.length_singleton]
  rw [← alone] at words room
  refine ⟨(s.withContext ⟨.verdicts, if s.deterministic then s.overlay else none⟩).withChannel
    (some (.ofRoom (s.config.checkBatch + s.workers.length))), ⟨procedure, 0, 0, .looking⟩, ?_, rfl,
    rfl, .of_requesting abreast.workers asks rfl abreast.sound, opened, w.plain s.shared, [], rfl, ?_,
    ?_⟩
  · exact bind_eq_ok.mpr ⟨(), mapError_eq_ok.mpr (abreast.running opened),
      bind_eq_ok.mpr ⟨_, mapError_eq_ok.mpr (Word.add_eq_ok.mpr ⟨words, rfl⟩),
        bind_eq_ok.mpr ⟨(), mapError_eq_ok.mpr room, rfl⟩⟩⟩
  · rw [asks]
    exact .none
  · exact fun n => by rw [Nat.zero_add]

end Checking.Follows

theorem Checking.Turn.keeps_setup {c' : Checking} (h : Checking.Turn s c s' c') :
    s'.setup = s.setup := by
  cases h <;> rfl

end SchedulerLearning
