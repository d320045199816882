import SchedulerLearning.Model.Mutex
import SchedulerLearning.Proofs.Outcome
import SchedulerLearning.Proofs.Probabilities
import SchedulerLearning.Proofs.ReachableStates

/-!
# Mutual exclusion in every reachable state

In exact arithmetic, whatever is chosen and drawn: at most one process is in the critical section,
every choice is a distribution that moves at most one process, and there always is a choice. A
process enters the section only where nobody is in it, and one that is in it can always go on.
-/

namespace SchedulerLearning

open SchedulerLearning.Random (Source)

namespace Mutex

variable {s : State} {i j : Nat} {x : Int} {e d : Rat} {branches : Distribution Rat}
  {pairs : List (Rat × Rat)} {n : Nat}

-- ---------------------------------------------------------------------------
-- One process
-- ---------------------------------------------------------------------------

inductive Moves (s : State) (i : Nat) : State → Prop
  | stay : Moves s i s
  | compete {next} (idling : s.vars[i]? = some idle) (moved : next.vars = s.vars.set i trying) :
      Moves s i next
  | enter {next} (wanting : s.vars[i]? = some trying) (free : criticalCount s = 0)
      (moved : next.vars = s.vars.set i critical) : Moves s i next
  | leave {next} (inside : s.vars[i]? = some critical) (moved : next.vars = s.vars.set i idle) :
      Moves s i next

/-- Whether the process `i` has a choice: all but those that wait for the critical section. -/
def Enabled (s : State) (i : Nat) : Prop :=
  s.vars[i]? = some trying → criticalCount s = 0

structure Small (pair : Rat × Rat) : Prop where
  idling : 0 ≤ pair.1 ∧ pair.1 < 1 / 100
  staying : 0 ≤ pair.2 ∧ pair.2 < 1 / 100

structure IsChoice (s : State) (i : Nat) (branches : Distribution Rat) : Prop where
  distribution : IsDistribution (branches.map Prod.fst)
  moves : ∀ b ∈ branches, Moves s i b.2

structure Valid (n : Nat) (s : State) : Prop where
  length : s.vars.length = n
  phases : ∀ x ∈ s.vars, x = idle ∨ x = trying ∨ x = critical
  exclusive : criticalCount s ≤ 1

theorem offer?_spec (there : s.vars[i]? = some x) (phase : x = idle ∨ x = trying ∨ x = critical)
    (small : Small (e, d)) :
    ∃ offer, offer? s i e d = .ok offer ∧ (Enabled s i → offer.isSome) ∧
      ∀ branches ∈ offer, IsChoice s i branches := by
  have inside : i < s.vars.length := (List.getElem?_eq_some_iff.mp there).1
  have found : s.get i = .ok x := State.get_eq_ok.mpr there
  obtain ⟨⟨he, he'⟩, hd, hd'⟩ := small
  -- What is offered is checked, and passes.
  have offered : ∀ branches : Distribution Rat, IsChoice s i branches →
      (do
        (branches.check s).mapError Stop.refused
        return some branches : Except (Stop (ModelError Rat)) _) = .ok (some branches) := by
    intro branches choice
    rw [Distribution.check_of_isDistribution s choice.distribution]
    rfl
  unfold offer?
  rw [found]
  rcases phase with rfl | rfl | rfl
  · obtain ⟨next, set, moved⟩ := State.exists_set trying inside
    have choice : IsChoice s i [(idleStays + e, s), (idleTries - e, next)] := by
      refine ⟨.pair ?_ ?_ ?_, by simpa using ⟨.stay, .compete there moved⟩⟩ <;>
        norm_num [idleStays, idleTries] <;> linarith
    refine ⟨some _, ?_, fun _ => rfl, by simpa using choice⟩
    simpa [lift_ok_bind, set] using offered _ choice
  · by_cases free : criticalCount s = 0
    · obtain ⟨next, set, moved⟩ := State.exists_set critical inside
      have choice : IsChoice s i [(1, next)] :=
        ⟨⟨by simp, by simp⟩, by simpa using .enter there free moved⟩
      refine ⟨some _, ?_, fun _ => rfl, by simpa using choice⟩
      simpa [lift_ok_bind, set, free] using offered _ choice
    · exact ⟨none, by simp [lift_ok_bind, free]; rfl, fun enabled => absurd (enabled there) free, by simp⟩
  · obtain ⟨next, set, moved⟩ := State.exists_set idle inside
    have choice : IsChoice s i [(criticalStays + d, s), (criticalStays - d, next)] := by
      refine ⟨.pair ?_ ?_ ?_, by simpa using ⟨.stay, .leave there moved⟩⟩ <;>
        norm_num [criticalStays] <;> linarith
    refine ⟨some _, ?_, fun _ => rfl, by simpa using choice⟩
    simpa [lift_ok_bind, set] using offered _ choice

-- ---------------------------------------------------------------------------
-- All processes
-- ---------------------------------------------------------------------------

theorem offersFrom_spec (hs : Valid n s) (small : ∀ pair ∈ pairs, Small pair)
    (all : i + pairs.length ≤ n) :
    ∃ offers, offersFrom s i pairs = .ok offers ∧
      (∀ branches ∈ offers, ∃ j, IsChoice s j branches) ∧
      ∀ j, i ≤ j → j < i + pairs.length → Enabled s j → offers ≠ [] := by
  induction pairs generalizing i with
  | nil => exact ⟨[], rfl, by simp, fun j from_i before => by simp at before; omega⟩
  | cons pair rest ih =>
    rw [List.length_cons] at all
    have inside : i < s.vars.length := by
      rw [hs.length]
      omega
    have there : s.vars[i]? = some s.vars[i] := List.getElem?_eq_getElem inside
    obtain ⟨offer, first, enabled, choice⟩ := offer?_spec there
      (hs.phases _ (List.mem_of_getElem? there)) (small pair List.mem_cons_self)
    obtain ⟨offers, others, choices, offering⟩ :=
      ih (i := i + 1) (fun pair later => small pair (List.mem_cons_of_mem _ later)) (by omega)
    refine ⟨offer.toList ++ offers, ?_, ?_, ?_⟩
    · simp only [offersFrom, first, others, bind, Except.bind]
      rfl
    · intro branches offered
      rcases List.mem_append.mp offered with here | later
      · exact ⟨i, choice branches (Option.mem_toList.mp here)⟩
      · exact choices branches later
    · intro j from_i before able
      rw [List.length_cons] at before
      rcases Nat.eq_or_lt_of_le from_i with rfl | after
      · have offered := enabled able
        cases offer with
        | none => cases offered
        | some branches => simp
      · have later := offering j after (by omega) able
        simp [later]

/-- Where a process waits, the one it waits for is enabled. -/
theorem exists_enabled (hs : Valid n s) (nonempty : 0 < n) : ∃ i < n, Enabled s i := by
  by_cases free : criticalCount s = 0
  · exact ⟨0, nonempty, fun _ => free⟩
  · obtain ⟨x, there, inside⟩ := List.countP_pos_iff.mp (Nat.pos_of_ne_zero free)
    obtain ⟨i, there⟩ := List.mem_iff_getElem?.mp there
    have before : i < s.vars.length := (List.getElem?_eq_some_iff.mp there).1
    refine ⟨i, hs.length ▸ before, fun waits => ?_⟩
    -- A critical process is not a trying one.
    have same : x = trying := by
      rw [there] at waits
      exact Option.some.inj waits
    simp [same] at inside

-- ---------------------------------------------------------------------------
-- Reachable states
-- ---------------------------------------------------------------------------

/-- Exclusion is kept by a process that enters the section only where nobody is in it. -/
theorem Valid.set {next : State} {value : Int} (hs : Valid n s)
    (moved : next.vars = s.vars.set i value) (inside : i < s.vars.length)
    (phase : value = idle ∨ value = trying ∨ value = critical)
    (free : value = critical → criticalCount s = 0) : Valid n next where
  length := by rw [moved, List.length_set, hs.length]
  phases := by
    intro x there
    rw [moved] at there
    rcases List.mem_or_eq_of_mem_set there with before | rfl
    · exact hs.phases x before
    · exact phase
  exclusive := by
    have before := hs.exclusive
    unfold criticalCount at free before ⊢
    rw [moved, List.countP_set inside]
    by_cases enters : value = critical
    · simp [free enters, enters]
    · simp only [enters, decide_false, Bool.false_eq_true, if_false]
      omega

theorem Valid.moves {next : State} (hs : Valid n s) (h : Moves s i next) : Valid n next := by
  have inside {x} (there : s.vars[i]? = some x) : i < s.vars.length :=
    (List.getElem?_eq_some_iff.mp there).1
  cases h with
  | stay => exact hs
  | compete idling moved => exact hs.set moved (inside idling) (by simp) (by simp)
  | enter wanting free moved => exact hs.set moved (inside wanting) (by simp) fun _ => free
  | leave inside' moved => exact hs.set moved (inside inside') (by simp) (by simp)

theorem Moves.others {next : State} (h : Moves s i next) (other : j ≠ i) :
    next.vars[j]? = s.vars[j]? := by
  cases h with
  | stay => rfl
  | compete _ moved | enter _ _ moved | leave _ moved =>
    rw [moved, List.getElem?_set_ne other.symm]

theorem valid_allIdle (m : Mutex Rat) : Valid m.processes m.allIdle where
  length := by simp [allIdle, State.ofVars]
  phases := by simp [allIdle, State.ofVars]
  exclusive := by simp [criticalCount, allIdle, State.ofVars, List.countP_replicate]

theorem offers_spec {m : Mutex Rat} (hs : Valid m.processes s)
    (small : ∀ pair ∈ m.perturbations, Small pair) :
    ∃ offers, m.process.offers s = .ok offers ∧
      (∀ branches ∈ offers, ∃ i, IsChoice s i branches) ∧ (0 < m.processes → offers ≠ []) := by
  obtain ⟨offers, offered, choices, able⟩ :=
    offersFrom_spec (i := 0) hs small (by simp [processes])
  refine ⟨offers, offered, choices, fun nonempty => ?_⟩
  obtain ⟨i, before, enabled⟩ := exists_enabled hs nonempty
  exact able i (Nat.zero_le i) (by simpa [processes] using before) enabled

theorem valid_of_reachable {m : Mutex Rat} (small : ∀ pair ∈ m.perturbations, Small pair)
    (reached : m.process.Reachable s) : Valid m.processes s := by
  induction reached with
  | initial start =>
    cases start
    exact valid_allIdle m
  | step reached offered choice branch ih =>
    obtain ⟨offers, found, choices, -⟩ := offers_spec ih small
    rw [offered] at found
    cases found
    obtain ⟨i, distribution, moves⟩ := choices _ choice
    exact ih.moves (moves _ branch)

/-- In every reachable state of any number of processes: there is a variable for each of them, idle,
trying or critical, and at most one is critical. The choices are found, and there is one. Each is a
distribution, and each of its branches leaves all processes but one as they are. -/
theorem exclusive_without_deadlock {m : Mutex Rat} (nonempty : 0 < m.processes)
    (small : ∀ pair ∈ m.perturbations, Small pair) (reached : m.process.Reachable s) :
    s.vars.length = m.processes ∧ (∀ x ∈ s.vars, x = idle ∨ x = trying ∨ x = critical) ∧
      criticalCount s ≤ 1 ∧
      ∃ offers, m.process.offers s = .ok offers ∧ offers ≠ [] ∧
        ∀ branches ∈ offers, IsDistribution (branches.map Prod.fst) ∧
          ∃ i, ∀ b ∈ branches, ∀ j : Nat, j ≠ i → b.2.vars[j]? = s.vars[j]? := by
  have valid := valid_of_reachable small reached
  obtain ⟨offers, offered, choices, able⟩ := offers_spec valid small
  refine ⟨valid.length, valid.phases, valid.exclusive, offers, offered, able nonempty, ?_⟩
  intro branches choice
  obtain ⟨i, distribution, moves⟩ := choices branches choice
  exact ⟨distribution, i, fun b there j other => (moves b there).others other⟩

theorem small_of_mem_draw {ρ : Type} {source : Source ρ Rat}
    (unit : ∀ r, 0 ≤ (source.unit r).1 ∧ (source.unit r).1 < 1) {r : ρ} :
    ∀ pair ∈ (draw source n r).1, Small pair := by
  induction n generalizing r with
  | zero => simp [draw]
  | succ n ih =>
    intro pair there
    rcases List.mem_cons.mp there with rfl | later
    · have first := unit r
      have second := unit (source.unit r).2
      exact ⟨⟨by linarith, by linarith⟩, ⟨by linarith, by linarith⟩⟩
    · exact ih pair later

-- Two processes, one of them in the critical section and the other one waiting for it.
namespace Pair

def halves : Source Unit Rat := ⟨fun _ => (1 / 2, ()), fun _ _ => (0, ())⟩

def mutex : Mutex Rat := ⟨(draw halves 2 ()).1⟩

theorem reached : mutex.process.Reachable (.ofVars [critical, trying]) := by
  have idle : mutex.process.Reachable (.ofVars [0, 0]) := .initial rfl
  have one : mutex.process.Reachable (.ofVars [1, 0]) := idle.of_any (by decide +kernel)
  have both : mutex.process.Reachable (.ofVars [1, 1]) := one.of_any (by decide +kernel)
  exact both.of_any (by decide +kernel)

end Pair

theorem exclusive_without_deadlock_of_pair : 0 < Pair.mutex.processes ∧
    (∀ pair ∈ Pair.mutex.perturbations, Small pair) ∧
    Pair.mutex.process.Reachable (.ofVars [critical, trying]) ∧
    ∃ offers, Pair.mutex.process.offers (.ofVars [critical, trying]) = .ok offers ∧ offers ≠ [] := by
  have small : ∀ pair ∈ Pair.mutex.perturbations, Small pair :=
    small_of_mem_draw fun _ => by norm_num [Pair.halves]
  obtain ⟨-, -, -, offers, offered, offering, -⟩ :=
    exclusive_without_deadlock (m := Pair.mutex) (by decide) small Pair.reached
  exact ⟨by decide, small, Pair.reached, offers, offered, offering⟩

end Mutex

end SchedulerLearning
