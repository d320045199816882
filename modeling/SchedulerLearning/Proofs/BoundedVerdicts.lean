import SchedulerLearning.Model.Property
import SchedulerLearning.Proofs.SimulatedPaths
import Mathlib.Order.Bounds.Basic

/-!
# Verdicts on bounded properties

What a bounded property says of a trace, and how little of the trace it takes: the states up to the
one that decides, or those up to the bound. Steps that a simulation takes beyond the bound change
nothing.
-/

namespace SchedulerLearning

/-- The verdict that what was asked for is not so, on the same part of the trace. -/
def Verdict.opposite (v : Verdict) : Verdict := ⟨!v.satisfied, v.relevant⟩

-- ---------------------------------------------------------------------------
-- The first state that a predicate does not deny
-- ---------------------------------------------------------------------------

theorem firstWhere?_eq_none {p : StatePredicate} {states : List State}
    (denied : ∀ s ∈ states, p s = .ok false) (n : Nat) : firstWhere? p n states = .ok none := by
  induction states generalizing n with
  | nil => rfl
  | cons s rest ih =>
    obtain ⟨here, later⟩ := List.forall_mem_cons.mp denied
    rw [firstWhere?, here]
    exact ih later (n + 1)

theorem firstWhere?_eq_map {p : StatePredicate} {states : List State} {s : State} {i : Nat}
    (there : states[i]? = some s) (decisive : p s ≠ .ok false)
    (before : ∀ j < i, ∀ s, states[j]? = some s → p s = .ok false) (n : Nat) :
    firstWhere? p n states = (p s).map fun _ => some (n + i) := by
  induction states generalizing i n with
  | nil => cases there
  | cons first rest ih =>
    cases i with
    | zero =>
      obtain rfl := Option.some.inj there
      rw [firstWhere?]
      cases answer : p first with
      | error fault => rfl
      | ok b =>
        cases b with
        | true => rfl
        | false => contradiction
    | succ i =>
      have denied : p first = .ok false := before 0 (Nat.succ_pos i) first rfl
      have later := ih there (fun j earlier s => before (j + 1) (by omega) s) (n + 1)
      rw [firstWhere?, denied, show n + (i + 1) = n + 1 + i by omega]
      exact later

namespace Trace

def answer? (t : Trace) (p : StatePredicate) (i : Nat) : Option (Except Fault Bool) := (t.state? i).map p

/-- Whether a position is the first one at which a predicate does not say no, and what it says. -/
structure Stops (t : Trace) (p : StatePredicate) (i : Nat) (answer : Except Fault Bool) : Prop where
  here : t.answer? p i = some answer
  decisive : answer ≠ .ok false
  before : ∀ j < i, t.answer? p j = some (.ok false)

variable {t t' : Trace} {p : StatePredicate} {i n : Nat} {answer : Except Fault Bool} {fault : Fault}

theorem stops_error_iff :
    t.Stops p i (.error fault) ↔
      t.answer? p i = some (.error fault) ∧ ∀ j < i, t.answer? p j = some (.ok false) :=
  ⟨fun h => ⟨h.here, h.before⟩, fun ⟨here, before⟩ => ⟨here, by simp, before⟩⟩

theorem state?_isSome (inside : i ≤ t.length) : ∃ s, t.state? i = some s := by
  rw [← getElem?_states]
  exact ⟨_, List.getElem?_eq_getElem (by rw [length_states]; omega)⟩

theorem le_length_of_answer (h : t.answer? p i = some answer) : i ≤ t.length := by
  obtain ⟨s, there, -⟩ := Option.map_eq_some_iff.mp h
  rw [← getElem?_states] at there
  have inside := (List.getElem?_eq_some_iff.mp there).1
  rw [length_states] at inside
  omega

theorem answer?_eq_of_take_eq (same : t.states.take n = t'.states.take n) (inside : i < n) :
    t.answer? p i = t'.answer? p i := by
  have there := congrArg (·[i]?) same
  simp only [List.getElem?_take_of_lt inside, getElem?_states] at there
  rw [answer?, answer?, there]

theorem Stops.of_take_eq (h : t.Stops p i answer) (same : t'.states.take (i + 1) = t.states.take (i + 1)) :
    t'.Stops p i answer where
  here := (answer?_eq_of_take_eq same (Nat.lt_succ_self i)).trans h.here
  decisive := h.decisive
  before j earlier := (answer?_eq_of_take_eq same (by omega)).trans (h.before j earlier)

theorem denied_or_stops (t : Trace) (p : StatePredicate) (inside : n ≤ t.length + 1) :
    (∀ i < n, t.answer? p i = some (.ok false)) ∨ ∃ i < n, ∃ answer, t.Stops p i answer := by
  induction n with
  | zero => exact .inl fun i none => absurd none (Nat.not_lt_zero i)
  | succ n ih =>
    obtain denied | ⟨i, earlier, stops⟩ := ih (by omega)
    · obtain ⟨s, there⟩ := state?_isSome (t := t) (i := n) (by omega)
      have here : t.answer? p n = some (p s) := congrArg (Option.map p) there
      by_cases no : p s = .ok false
      · refine .inl fun i within => ?_
        obtain earlier | rfl := Nat.lt_succ_iff_lt_or_eq.mp within
        · exact denied i earlier
        · rw [here, no]
      · exact .inr ⟨n, Nat.lt_succ_self n, p s, here, no, denied⟩
    · exact .inr ⟨i, by omega, stops⟩

end Trace

-- ---------------------------------------------------------------------------
-- Evaluation
-- ---------------------------------------------------------------------------

namespace BoundedProperty

def reaching (bound : Nat) (goal : StatePredicate) : BoundedProperty := ⟨.reachability, bound, goal⟩

def avoiding (bound : Nat) (goal : StatePredicate) : BoundedProperty :=
  ⟨.safety, bound, fun s => (goal s).map not⟩

section
variable {p : BoundedProperty} {t t' : Trace} {i : Nat} {answer : Except Fault Bool} {v : Verdict}
  {fault : Fault}

theorem evaluate_of_denied
    (denied : ∀ i ≤ min p.bound t.length, t.answer? p.decisive i = some (.ok false)) :
    p.evaluate t = .ok ⟨!p.onDecisive, min p.bound t.length⟩ := by
  have none : firstWhere? p.decisive 0 (t.states.take (min p.bound t.length + 1)) = .ok none := by
    refine firstWhere?_eq_none (fun s within => ?_) 0
    obtain ⟨i, inside, rfl⟩ := List.mem_take_iff_getElem.mp within
    have there : t.state? i = some t.states[i] := by
      rw [← Trace.getElem?_states, List.getElem?_eq_getElem]
    have here := denied i (by omega)
    rw [Trace.answer?, there] at here
    exact Option.some.inj here
  unfold evaluate
  simp only [none]
  rfl

theorem evaluate_of_stops (h : t.Stops p.decisive i answer) (within : i ≤ p.bound) :
    p.evaluate t = answer.map fun _ => ⟨p.onDecisive, i⟩ := by
  have inside : i < min p.bound t.length + 1 := by
    have := Trace.le_length_of_answer h.here
    omega
  obtain ⟨s, there, rfl⟩ := Option.map_eq_some_iff.mp h.here
  have first : firstWhere? p.decisive 0 (t.states.take (min p.bound t.length + 1)) =
      (p.decisive s).map fun _ => some (0 + i) := by
    refine firstWhere?_eq_map ?_ h.decisive (fun j earlier s' found => ?_) 0
    · rw [List.getElem?_take_of_lt inside, Trace.getElem?_states, there]
    · rw [List.getElem?_take_of_lt (by omega), Trace.getElem?_states] at found
      have denied := h.before j earlier
      rw [Trace.answer?, found] at denied
      exact Option.some.inj denied
  unfold evaluate
  simp only [first, Nat.zero_add]
  cases p.decisive s <;> rfl

theorem evaluate_cases (p : BoundedProperty) (t : Trace) :
    ((∀ i ≤ min p.bound t.length, t.answer? p.decisive i = some (.ok false)) ∧
      p.evaluate t = .ok ⟨!p.onDecisive, min p.bound t.length⟩) ∨
    ∃ i ≤ min p.bound t.length, ∃ answer, t.Stops p.decisive i answer ∧
      p.evaluate t = answer.map fun _ => ⟨p.onDecisive, i⟩ := by
  obtain denied | ⟨i, within, answer, stops⟩ :=
    t.denied_or_stops p.decisive (n := min p.bound t.length + 1) (by omega)
  · have denied : ∀ i ≤ min p.bound t.length, t.answer? p.decisive i = some (.ok false) :=
      fun i within => denied i (by omega)
    exact .inl ⟨denied, evaluate_of_denied denied⟩
  · exact .inr ⟨i, by omega, answer, stops, evaluate_of_stops stops (by omega)⟩

theorem evaluate_congr (same : t.states.take (p.bound + 1) = t'.states.take (p.bound + 1)) :
    p.evaluate t = p.evaluate t' := by
  have counted (t : Trace) : (t.states.take (p.bound + 1)).length = min p.bound t.length + 1 := by
    rw [List.length_take, Trace.length_states]
    omega
  have horizon : min p.bound t.length = min p.bound t'.length := by
    have := congrArg List.length same
    rw [counted, counted] at this
    omega
  have within (t : Trace) :
      t.states.take (min p.bound t.length + 1) = t.states.take (p.bound + 1) := by
    rw [List.take_eq_take_iff, Trace.length_states]
    omega
  have states : t.states.take (min p.bound t'.length + 1) =
      t'.states.take (min p.bound t'.length + 1) := by
    rw [within t', ← same, ← horizon, within t]
  unfold evaluate
  simp only [horizon, states]

theorem evaluate_eq_ok_iff :
    p.evaluate t = .ok v ↔
      (v.satisfied = p.onDecisive ∧ v.relevant ≤ min p.bound t.length ∧
        t.Stops p.decisive v.relevant (.ok true)) ∨
      v = ⟨!p.onDecisive, min p.bound t.length⟩ ∧
        ∀ i ≤ min p.bound t.length, t.answer? p.decisive i = some (.ok false) := by
  constructor
  · intro h
    obtain ⟨denied, verdict⟩ | ⟨i, within, answer, stops, verdict⟩ := p.evaluate_cases t
    all_goals rw [verdict] at h
    · exact .inr ⟨(Except.ok.inj h).symm, denied⟩
    · obtain ⟨yes, rfl, rfl⟩ := map_eq_ok.mp h
      cases yes with
      | true => exact .inl ⟨rfl, within, stops⟩
      | false => exact absurd rfl stops.decisive
  · rintro (⟨satisfied, within, stops⟩ | ⟨rfl, denied⟩)
    · rw [evaluate_of_stops stops (by omega), ← satisfied]
      rfl
    · exact evaluate_of_denied denied

theorem evaluate_eq_error_iff :
    p.evaluate t = .error fault ↔
      ∃ i ≤ min p.bound t.length, t.Stops p.decisive i (.error fault) := by
  constructor
  · intro h
    obtain ⟨-, verdict⟩ | ⟨i, within, answer, stops, verdict⟩ := p.evaluate_cases t
    all_goals rw [verdict] at h
    · cases h
    · cases answer with
      | ok => cases h
      | error fault =>
        obtain rfl := Except.error.inj h
        exact ⟨i, within, stops⟩
  · rintro ⟨i, within, stops⟩
    exact evaluate_of_stops stops (by omega)

/-- A verdict rests on the states up to the last relevant step, unless the trace was too short. -/
theorem evaluate_of_agreement (h : p.evaluate t = .ok v)
    (final : v.satisfied = p.onDecisive ∨ p.bound ≤ t.length)
    (same : t'.states.take (v.relevant + 1) = t.states.take (v.relevant + 1)) :
    p.evaluate t' = .ok v := by
  obtain ⟨satisfied, within, stops⟩ | ⟨rfl, -⟩ := evaluate_eq_ok_iff.mp h
  · rw [evaluate_of_stops (stops.of_take_eq same) (by omega), ← satisfied]
    rfl
  · obtain impossible | long := final
    · simp at impossible
    · rw [Nat.min_eq_left long] at same
      rw [← h, evaluate_congr same]

end

-- ---------------------------------------------------------------------------
-- Reaching and avoiding
-- ---------------------------------------------------------------------------

section
variable (bound : Nat) (goal : StatePredicate)

@[simp] theorem bound_reaching : (reaching bound goal).bound = bound := rfl

@[simp] theorem bound_avoiding : (avoiding bound goal).bound = bound := rfl

@[simp] theorem onDecisive_reaching : (reaching bound goal).onDecisive = true := rfl

@[simp] theorem onDecisive_avoiding : (avoiding bound goal).onDecisive = false := rfl

@[simp] theorem decisive_reaching : (reaching bound goal).decisive = goal := rfl

@[simp] theorem decisive_avoiding : (avoiding bound goal).decisive = goal := by
  funext s
  change ((goal s).map not).map not = goal s
  cases goal s with
  | error fault => rfl
  | ok yes => cases yes <;> rfl

theorem evaluate_avoiding (t : Trace) :
    (avoiding bound goal).evaluate t = ((reaching bound goal).evaluate t).map Verdict.opposite := by
  simp only [evaluate, bound_reaching, bound_avoiding, onDecisive_reaching, onDecisive_avoiding,
    decisive_reaching, decisive_avoiding]
  cases firstWhere? goal 0 (t.states.take (min bound t.length + 1)) with
  | error fault => rfl
  | ok position => cases position <;> rfl

variable {bound goal} {t : Trace} {v : Verdict}

theorem satisfied_iff (h : (reaching bound goal).evaluate t = .ok v) :
    v.satisfied = true ↔ ∃ i ≤ min bound t.length, t.answer? goal i = some (.ok true) := by
  obtain ⟨satisfied, within, stops⟩ | ⟨rfl, denied⟩ := evaluate_eq_ok_iff.mp h
  · exact ⟨fun _ => ⟨_, within, stops.here⟩, fun _ => satisfied⟩
  · constructor
    · intro impossible
      cases impossible
    · rintro ⟨i, within, yes⟩
      cases (denied i within).symm.trans yes

theorem isLeast_relevant (h : (reaching bound goal).evaluate t = .ok v) (satisfied : v.satisfied = true) :
    IsLeast {i | i ≤ min bound t.length ∧ t.answer? goal i = some (.ok true)} v.relevant := by
  obtain ⟨-, within, stops⟩ | ⟨rfl, -⟩ := evaluate_eq_ok_iff.mp h
  · refine ⟨⟨within, stops.here⟩, fun i ⟨_, yes⟩ => Nat.le_of_not_lt fun earlier => ?_⟩
    cases (stops.before i earlier).symm.trans yes
  · cases satisfied

theorem relevant_of_unsatisfied (h : (reaching bound goal).evaluate t = .ok v)
    (unsatisfied : v.satisfied = false) : v.relevant = min bound t.length := by
  obtain ⟨satisfied, -⟩ | ⟨rfl, -⟩ := evaluate_eq_ok_iff.mp h
  · cases unsatisfied.symm.trans satisfied
  · rfl

theorem relevant_le (h : (reaching bound goal).evaluate t = .ok v) : v.relevant ≤ t.length := by
  obtain ⟨-, within, -⟩ | ⟨rfl, -⟩ := evaluate_eq_ok_iff.mp h
  · exact Nat.le_trans within (Nat.min_le_right _ _)
  · exact Nat.min_le_right _ _

end

-- ---------------------------------------------------------------------------
-- Simulated traces
-- ---------------------------------------------------------------------------

section
variable {α ρ κ : Type} [Scalar α] {m : DecisionProcess α} {source : Random.Source ρ α}
  {resolve : Resolver κ} {initial : State} {r : ρ} {k : κ} {t t' : Trace} {p : BoundedProperty}
  {fewer more : Nat}

theorem evaluate_simulated (enough : p.bound ≤ fewer) (less : fewer ≤ more)
    (ran : (m.simulate source resolve initial more r k).1 = .ok t) :
    ∃ part, (m.simulate source resolve initial fewer r k).1 = .ok part ∧
      p.evaluate part = p.evaluate t := by
  obtain ⟨part, ranPart, states⟩ := DecisionProcess.simulate_of_le less ran
  refine ⟨part, ranPart, evaluate_congr ?_⟩
  rw [states, List.take_take, Nat.min_eq_left (by omega)]

/-- How far beyond the bound the traces were simulated makes no difference. -/
theorem evaluate_eq_of_simulated (enough : p.bound ≤ fewer) (enough' : p.bound ≤ more)
    (ran : (m.simulate source resolve initial fewer r k).1 = .ok t)
    (ran' : (m.simulate source resolve initial more r k).1 = .ok t') :
    p.evaluate t = p.evaluate t' := by
  obtain less | less := Nat.le_total fewer more
  · obtain ⟨part, ranPart, same⟩ := evaluate_simulated enough less ran'
    obtain rfl := Except.ok.inj (ranPart.symm.trans ran)
    exact same
  · obtain ⟨part, ranPart, same⟩ := evaluate_simulated enough' less ran
    obtain rfl := Except.ok.inj (ranPart.symm.trans ran')
    exact same.symm

/-- A bounded property says what its semantics says, and rests on the part of a trace that it reports
as relevant. -/
theorem evaluates_relevant_part (bound : Nat) (goal : StatePredicate) (m : DecisionProcess α)
    (source : Random.Source ρ α) (resolve : Resolver κ) (initial : State) (r : ρ) (k : κ) :
    (∀ t v, (reaching bound goal).evaluate t = .ok v →
      (v.satisfied = true ↔ ∃ i ≤ min bound t.length, t.answer? goal i = some (.ok true)) ∧
      (v.satisfied = true →
        IsLeast {i | i ≤ min bound t.length ∧ t.answer? goal i = some (.ok true)} v.relevant) ∧
      (v.satisfied = false → v.relevant = min bound t.length) ∧ v.relevant ≤ t.length ∧
      ∀ t', v.satisfied = true ∨ bound ≤ t.length →
        t'.states.take (v.relevant + 1) = t.states.take (v.relevant + 1) →
        (reaching bound goal).evaluate t' = .ok v) ∧
    (∀ t fault, (reaching bound goal).evaluate t = .error fault ↔
      ∃ i ≤ min bound t.length, t.answer? goal i = some (.error fault) ∧
        ∀ j < i, t.answer? goal j = some (.ok false)) ∧
    (∀ t, (avoiding bound goal).evaluate t =
      ((reaching bound goal).evaluate t).map Verdict.opposite) ∧
    ∀ a b t, bound ≤ a → bound ≤ b → (m.simulate source resolve initial b r k).1 = .ok t →
      (∀ t', (m.simulate source resolve initial a r k).1 = .ok t' →
        (reaching bound goal).evaluate t' = (reaching bound goal).evaluate t) ∧
      (a ≤ b → ∃ t', (m.simulate source resolve initial a r k).1 = .ok t') := by
  refine ⟨fun t v h => ⟨satisfied_iff h, isLeast_relevant h, relevant_of_unsatisfied h,
    relevant_le h, fun t' final same => evaluate_of_agreement h final same⟩, fun t fault => ?_,
    evaluate_avoiding bound goal, fun a b t enough enough' ran => ⟨fun t' ran' => ?_, fun less => ?_⟩⟩
  · rw [evaluate_eq_error_iff]
    simp only [Trace.stops_error_iff, bound_reaching, decisive_reaching]
  · exact evaluate_eq_of_simulated enough enough' ran' ran
  · obtain ⟨part, ranPart, -⟩ := DecisionProcess.simulate_of_le less ran
    exact ⟨part, ranPart⟩

example :
    (reaching 10 fun s => (s.get 0).map (· == 9)).evaluate
      (((Trace.start (.ofIndex 0)).push 0 2 (.ofIndex 1)).push 1 2 (.ofIndex 2)) = .ok ⟨false, 2⟩ := rfl

end

end BoundedProperty

end SchedulerLearning
