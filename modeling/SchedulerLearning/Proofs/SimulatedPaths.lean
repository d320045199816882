import SchedulerLearning.Model.DecisionProcess
import SchedulerLearning.Proofs.Outcome
import Mathlib.Algebra.GroupWithZero.Nat
import Mathlib.Data.List.Induction

/-!
# Simulated traces are paths

What a simulation makes of a process, a strategy and a source of random numbers: the longest path
within the bound that the process offers, the strategy chooses and the source draws, or the error
of the first step of it that cannot be taken.
-/

namespace SchedulerLearning

open SchedulerLearning.Random (Source Generator)

variable {α ρ κ : Type}

@[elab_as_elim] theorem Trace.push_induction {motive : Trace → Prop} (start : ∀ s, motive (.start s))
    (push : ∀ t choice offered next, motive t → motive (t.push choice offered next)) (t : Trace) :
    motive t := by
  obtain ⟨⟨steps⟩, last⟩ := t
  induction steps using List.reverseRecOn generalizing last with
  | nil => exact start last
  | append_singleton steps step ih =>
    have whole := push ⟨⟨steps⟩, step.state⟩ step.choice step.offered last (ih step.state)
    simpa [Trace.push] using whole

-- ---------------------------------------------------------------------------
-- Draws and answers
-- ---------------------------------------------------------------------------

def Random.Source.after (source : Source ρ α) (r : ρ) : Nat → ρ
  | 0 => r
  | n + 1 => (source.unit (source.after r n)).2

/-- The choice that a strategy takes in a state that offers so many. It is not asked about a single
one. -/
def Resolver.answer (resolve : Resolver κ) (s : State) (offered : Nat) (k : κ) : Except Fault Nat × κ :=
  if offered = 1 then (.ok 0, k) else resolve s offered k

theorem Resolver.answer_eq_ok {resolve : Resolver κ} {s : State} {offered choice : Nat} {k : κ} :
    (resolve.answer s offered k).1 = .ok choice ↔
      if offered = 1 then choice = 0 else (resolve s offered k).1 = .ok choice := by
  unfold Resolver.answer
  split
  · simp [eq_comm]
  · rfl

/-- A strategy after it was asked at every step with at least two choices, in order. -/
def Resolver.after (resolve : Resolver κ) (k : κ) (steps : List Step) : κ :=
  (steps.filter (2 ≤ ·.offered)).foldl (fun k step => (resolve step.state step.offered k).2) k

theorem Resolver.after_append_singleton (resolve : Resolver κ) (k : κ) (steps : List Step) {step : Step}
    (some : 0 < step.offered) :
    resolve.after k (steps ++ [step]) =
      (resolve.answer step.state step.offered (resolve.after k steps)).2 := by
  unfold Resolver.after Resolver.answer
  rw [List.filter_append, List.foldl_append]
  by_cases single : step.offered = 1
  · rw [if_pos single, List.filter_cons_of_neg (by simp [single])]
    rfl
  · rw [if_neg single, List.filter_cons_of_pos (by simp; omega)]
    rfl

def Resolver.first : Resolver Unit := fun _ _ k => (.ok 0, k)

variable [Scalar α]

namespace DecisionProcess

section
variable (m : DecisionProcess α) (source : Source ρ α) (resolve : Resolver κ)

-- ---------------------------------------------------------------------------
-- One step
-- ---------------------------------------------------------------------------

/-- Whether the next step from `s` takes one of so many choices and leads to `next`: the process
offers them, the strategy answers with this one, and the number drawn selects the branch. -/
def Takes (s : State) (r : ρ) (k : κ) (choice offered : Nat) (next : State) : Prop :=
  ∃ offers branches, m.offers s = .ok offers ∧ offers.length = offered ∧
    (resolve.answer s offered k).1 = .ok choice ∧ offers[choice]? = some branches ∧
    branches.pick? (source.unit r).1 = some next

/-- The errors with which a step from `s` fails, and what is left of the source and the strategy. -/
inductive Breaks (s : State) (r : ρ) (k : κ) : Stop (ModelError α) → ρ → κ → Prop
  /-- The error of the process, as it is. -/
  | offers {e} (failed : m.offers s = .error e) : Breaks s r k e r k
  | answer {offers fault} (offered : m.offers s = .ok offers) (some : offers ≠ [])
      (faulted : (resolve.answer s offers.length k).1 = .error fault) :
      Breaks s r k (.faulted fault) r (resolve.answer s offers.length k).2
  | invalidChoice {offers choice} (offered : m.offers s = .ok offers) (some : offers ≠ [])
      (answered : (resolve.answer s offers.length k).1 = .ok choice)
      (beyond : offers.length ≤ choice) :
      Breaks s r k (.refused (.invalidChoice choice offers.length)) r
        (resolve.answer s offers.length k).2
  | noBranches {offers choice} (offered : m.offers s = .ok offers)
      (answered : (resolve.answer s offers.length k).1 = .ok choice)
      (empty : offers[choice]? = some []) :
      Breaks s r k (.refused (.internal (.noBranches choice))) (source.unit r).2
        (resolve.answer s offers.length k).2

end

section
variable {m : DecisionProcess α} {source : Source ρ α} {resolve : Resolver κ} {s next : State} {t : Trace}
  {r r' : ρ} {k k' : κ} {choice offered left : Nat} {e : Stop (ModelError α)}

theorem Takes.offered_pos (h : m.Takes source resolve s r k choice offered next) : 0 < offered := by
  obtain ⟨offers, branches, -, rfl, -, chosen, -⟩ := h
  exact Nat.zero_lt_of_lt (List.getElem?_eq_some_iff.mp chosen).1

/-- A state without choices, a step, and an error exclude each other, but one of them is there. -/
theorem deadlock_or_takes_or_breaks (m : DecisionProcess α) (source : Source ρ α)
    (resolve : Resolver κ) (s : State) (r : ρ) (k : κ) :
    m.offers s = .ok [] ∨ (∃ choice offered next, m.Takes source resolve s r k choice offered next) ∨
      ∃ e r' k', m.Breaks source resolve s r k e r' k' := by
  cases offered : m.offers s with
  | error e => exact .inr (.inr ⟨_, _, _, .offers offered⟩)
  | ok offers =>
    by_cases none : offers = []
    · exact .inl (none ▸ rfl)
    cases answered : (resolve.answer s offers.length k).1 with
    | error fault => exact .inr (.inr ⟨_, _, _, .answer offered none answered⟩)
    | ok choice =>
      cases chosen : offers[choice]? with
      | none =>
        exact .inr (.inr ⟨_, _, _, .invalidChoice offered none answered
          (List.getElem?_eq_none_iff.mp chosen)⟩)
      | some branches =>
        cases drawn : branches.pick? (source.unit r).1 with
        | none =>
          obtain rfl := Distribution.pick?_eq_none.mp drawn
          exact .inr (.inr ⟨_, _, _, .noBranches offered answered chosen⟩)
        | some next => exact .inr (.inl ⟨_, _, _, _, _, offered, rfl, answered, chosen, drawn⟩)

theorem continueFrom_of_deadlock (none : m.offers t.last = .ok []) (left : Nat) (r : ρ) (k : κ) :
    m.continueFrom source resolve left t r k = (.ok t, r, k) := by
  cases left with
  | zero => rfl
  | succ left =>
    have here : m.turn t = .ok .deadlock := bind_eq_ok.mpr ⟨_, none, rfl⟩
    rw [continueFrom, here]

theorem continueFrom_of_offers {offers : List (Distribution α)} (offered : m.offers t.last = .ok offers)
    (some : offers ≠ []) :
    m.continueFrom source resolve (left + 1) t r k =
      match resolve.answer t.last offers.length k with
      | (.error fault, k) => (.error (.faulted fault), r, k)
      | (.ok choice, k) =>
        match chosen offers choice with
        | .error e => (.error e, r, k)
        | .ok branches =>
          match follow source branches choice offers.length t r with
          | (.error e, r) => (.error e, r, k)
          | (.ok t, r) => m.continueFrom source resolve left t r k := by
  match offers with
  | [] => contradiction
  | [branches] =>
    have here : m.turn t = .ok (.only branches) := bind_eq_ok.mpr ⟨_, offered, rfl⟩
    rw [continueFrom, here]
    rfl
  | first :: second :: rest =>
    have here : m.turn t = .ok (.among (first :: second :: rest)) := bind_eq_ok.mpr ⟨_, offered, rfl⟩
    rw [continueFrom, here]
    rfl

theorem follow_eq_ok {branches : Distribution α} (drawn : branches.pick? (source.unit r).1 = some next) :
    follow source branches choice offered t r = (.ok (t.push choice offered next), (source.unit r).2) := by
  unfold follow
  cases h : source.unit r with
  | mk x r =>
    rw [h] at drawn
    simp only [drawn]

theorem continueFrom_of_takes (h : m.Takes source resolve t.last r k choice offered next) (left : Nat) :
    m.continueFrom source resolve (left + 1) t r k =
      m.continueFrom source resolve left (t.push choice offered next) (source.unit r).2
        (resolve.answer t.last offered k).2 := by
  have some := h.offered_pos
  obtain ⟨offers, branches, there, rfl, answered, picked, drawn⟩ := h
  have answer : resolve.answer t.last offers.length k = (.ok choice, _) := Prod.ext answered rfl
  have followed : follow source branches choice offers.length t r = (.ok (t.push ..), _) :=
    follow_eq_ok drawn
  rw [continueFrom_of_offers there (List.length_pos_iff.mp some), answer]
  simp only [chosen, picked, followed]

theorem continueFrom_of_breaks (h : m.Breaks source resolve t.last r k e r' k') (left : Nat) :
    m.continueFrom source resolve (left + 1) t r k = (.error e, r', k') := by
  cases h with
  | offers failed =>
    have here : m.turn t = .error e := by
      unfold turn
      rw [failed]
      rfl
    rw [continueFrom, here]
  | answer there some faulted =>
    rw [continueFrom_of_offers there some, ← Prod.eta (resolve.answer _ _ _), faulted]
  | invalidChoice there some answered beyond =>
    rw [continueFrom_of_offers there some, ← Prod.eta (resolve.answer _ _ _), answered]
    simp only [chosen, List.getElem?_eq_none beyond]
  | @noBranches offers choice there answered empty =>
    have some : offers ≠ [] := by
      rintro rfl
      cases empty
    have followed : follow source [] choice offers.length t r =
        (.error (.refused (.internal (.noBranches choice))), (source.unit r).2) := rfl
    rw [continueFrom_of_offers there some, ← Prod.eta (resolve.answer _ _ _), answered]
    simp only [chosen, empty, followed]

end

-- ---------------------------------------------------------------------------
-- Paths
-- ---------------------------------------------------------------------------

section
variable (m : DecisionProcess α) (source : Source ρ α) (resolve : Resolver κ) (initial : State) (r : ρ) (k : κ)

/-- Whether step number `i` of a trace is taken with draw number `i`, by the strategy after it was
asked at the steps before. -/
def TakenAt (t : Trace) (i : Nat) : Prop :=
  ∃ step next, t.steps[i]? = some step ∧ t.state? i = some step.state ∧ t.state? (i + 1) = some next ∧
    m.Takes source resolve step.state (source.after r i) (resolve.after k (t.steps.toList.take i))
      step.choice step.offered next

structure IsPath (t : Trace) : Prop where
  begins : t.state? 0 = some initial
  takes : ∀ i < t.length, m.TakenAt source resolve r k t i

structure IsMaximal (bound : Nat) (t : Trace) : Prop where
  within : t.length ≤ bound
  ends : t.length < bound → m.offers t.last = .ok []

end

section
variable {m : DecisionProcess α} {source : Source ρ α} {resolve : Resolver κ} {initial s next : State}
  {t t' : Trace} {r r' : ρ} {k k' : κ} {choice offered bound left i : Nat} {e : Stop (ModelError α)}

theorem TakenAt.inside (h : m.TakenAt source resolve r k t i) :
    ∃ step next offers branches, t.steps[i]? = some step ∧ t.state? i = some step.state ∧
      t.state? (i + 1) = some next ∧ m.offers step.state = .ok offers ∧
      offers.length = step.offered ∧ 0 < step.offered ∧ step.choice < step.offered ∧
      (if step.offered = 1 then step.choice = 0 else
        (resolve step.state step.offered (resolve.after k (t.steps.toList.take i))).1 =
          .ok step.choice) ∧
      offers[step.choice]? = some branches ∧
      branches.pick? (source.unit (source.after r i)).1 = some next := by
  obtain ⟨step, next, taken, here, there, takes⟩ := h
  have some := takes.offered_pos
  obtain ⟨offers, branches, offered, count, answered, chosen, drawn⟩ := takes
  have below : step.choice < offers.length := (List.getElem?_eq_some_iff.mp chosen).1
  exact ⟨step, next, offers, branches, taken, here, there, offered, count, some, count ▸ below,
    Resolver.answer_eq_ok.mp answered, chosen, drawn⟩

theorem IsPath.head?_states (h : m.IsPath source resolve initial r k t) :
    t.states.head? = some initial := by
  rw [List.head?_eq_getElem?, Trace.getElem?_states, h.begins]

theorem takenAt_push_of_lt (before : i < t.length) :
    m.TakenAt source resolve r k (t.push choice offered next) i ↔ m.TakenAt source resolve r k t i := by
  have step : (t.push choice offered next).steps[i]? = t.steps[i]? :=
    Array.getElem?_push_lt before |>.trans (Array.getElem?_eq_getElem before).symm
  have asked : (t.push choice offered next).steps.toList.take i = t.steps.toList.take i := by
    rw [Trace.push, Array.toList_push, List.take_append_of_le_length (Nat.le_of_lt before)]
  unfold TakenAt
  rw [step, asked, Trace.state?_push_of_le _ _ _ (Nat.le_of_lt before),
    Trace.state?_push_of_le _ _ _ before]

theorem takenAt_push_length :
    m.TakenAt source resolve r k (t.push choice offered next) t.length ↔
      m.Takes source resolve t.last (source.after r t.length) (resolve.after k t.steps.toList) choice
        offered next := by
  have step : (t.push choice offered next).steps[t.length]? = some ⟨t.last, choice, offered⟩ :=
    Array.getElem?_push_size
  have asked : (t.push choice offered next).steps.toList.take t.length = t.steps.toList := by
    rw [Trace.push, Array.toList_push, Trace.length, ← Array.length_toList, List.take_left]
  have here : (t.push choice offered next).state? t.length = some t.last := by
    rw [Trace.state?_push_of_le _ _ _ (Nat.le_refl _), Trace.state?_length]
  have there : (t.push choice offered next).state? (t.length + 1) = some next := by
    rw [← Trace.length_push, Trace.state?_length]
    rfl
  unfold TakenAt
  rw [step, asked, here, there]
  simp

theorem isPath_start : m.IsPath source resolve initial r k (.start s) ↔ s = initial := by
  constructor
  · intro h
    exact Option.some.inj h.begins
  · rintro rfl
    exact ⟨rfl, fun i inside => absurd inside (Nat.not_lt_zero i)⟩

theorem isPath_push :
    m.IsPath source resolve initial r k (t.push choice offered next) ↔
      m.IsPath source resolve initial r k t ∧
        m.Takes source resolve t.last (source.after r t.length) (resolve.after k t.steps.toList) choice
          offered next := by
  have begins : (t.push choice offered next).state? 0 = t.state? 0 :=
    Trace.state?_push_of_le _ _ _ (Nat.zero_le _)
  constructor
  · intro h
    refine ⟨⟨begins ▸ h.begins, fun i inside => ?_⟩, ?_⟩
    · exact (takenAt_push_of_lt inside).mp (h.takes i (by rw [Trace.length_push]; omega))
    · exact takenAt_push_length.mp (h.takes t.length (by rw [Trace.length_push]; omega))
  · rintro ⟨h, last⟩
    refine ⟨begins ▸ h.begins, fun i inside => ?_⟩
    rw [Trace.length_push] at inside
    obtain before | rfl := Nat.lt_succ_iff_lt_or_eq.mp inside
    · exact (takenAt_push_of_lt before).mpr (h.takes i before)
    · exact takenAt_push_length.mpr last

theorem IsPath.exists_part (h : m.IsPath source resolve initial r k t) (within : i ≤ t.length) :
    ∃ part, m.IsPath source resolve initial r k part ∧ part.length = i ∧
      part.states = t.states.take (i + 1) := by
  induction t using Trace.push_induction with
  | start s =>
    obtain rfl := Nat.le_zero.mp within
    exact ⟨_, h, rfl, rfl⟩
  | push t choice offered next ih =>
    obtain rfl | before := Nat.eq_or_lt_of_le within
    · refine ⟨_, h, rfl, ?_⟩
      rw [← Trace.length_states, List.take_length]
    · rw [Trace.length_push] at before
      obtain ⟨part, path, length, states⟩ := ih (isPath_push.mp h).1 (by omega)
      refine ⟨part, path, length, ?_⟩
      rw [states, Trace.states_push,
        List.take_append_of_le_length (by rw [Trace.length_states]; omega)]

/-- A simulation in progress: what is behind it is a path. -/
theorem IsPath.continueFrom (h : m.IsPath source resolve initial r k t) (within : t.length ≤ bound) :
    m.continueFrom source resolve bound (.start initial) r k =
      m.continueFrom source resolve (bound - t.length) t (source.after r t.length)
        (resolve.after k t.steps.toList) := by
  induction t using Trace.push_induction with
  | start s =>
    obtain rfl := isPath_start.mp h
    rfl
  | push t choice offered next ih =>
    obtain ⟨path, last⟩ := isPath_push.mp h
    rw [Trace.length_push] at within ⊢
    have left : bound - t.length = bound - (t.length + 1) + 1 := by omega
    have asked : resolve.after k (t.push choice offered next).steps.toList =
        (resolve.answer t.last offered (resolve.after k t.steps.toList)).2 := by
      rw [Trace.push, Array.toList_push]
      exact resolve.after_append_singleton k _ last.offered_pos
    rw [ih path (by omega), left, continueFrom_of_takes last, asked]
    rfl

theorem IsPath.exists_maximal_or_breaks (path : m.IsPath source resolve initial r k t)
    (within : t.length + left = bound) :
    (∃ t', m.IsPath source resolve initial r k t' ∧ m.IsMaximal bound t') ∨
      ∃ t' e r' k', m.IsPath source resolve initial r k t' ∧ t'.length < bound ∧
        m.Breaks source resolve t'.last (source.after r t'.length)
          (resolve.after k t'.steps.toList) e r' k' := by
  induction left generalizing t with
  | zero => exact .inl ⟨t, path, by omega, by omega⟩
  | succ left ih =>
    obtain none | ⟨choice, offered, next, last⟩ | ⟨e, r', k', broken⟩ :=
      deadlock_or_takes_or_breaks m source resolve t.last (source.after r t.length)
        (resolve.after k t.steps.toList)
    · exact .inl ⟨t, path, by omega, fun _ => none⟩
    · refine ih (isPath_push.mpr ⟨path, last⟩) ?_
      rw [Trace.length_push]
      omega
    · exact .inr ⟨t, e, r', k', path, by omega, broken⟩

-- ---------------------------------------------------------------------------
-- Simulations
-- ---------------------------------------------------------------------------

theorem simulate_of_room (room : bound ≤ Room.most 32) :
    m.simulate source resolve initial bound r k =
      m.continueFrom source resolve bound (.start initial) r k := by
  unfold simulate Trace.withRoom Room.claim
  rw [if_neg (Nat.not_lt.mpr room)]
  rfl

theorem simulate_without_room (excess : Room.most 32 < bound) :
    m.simulate source resolve initial bound r k = (.error (.faulted .capacity), r, k) := by
  unfold simulate Trace.withRoom Room.claim
  rw [if_pos excess]
  rfl

theorem IsPath.simulate_eq_ok (path : m.IsPath source resolve initial r k t)
    (maximal : m.IsMaximal bound t) (room : bound ≤ Room.most 32) :
    m.simulate source resolve initial bound r k =
      (.ok t, source.after r t.length, resolve.after k t.steps.toList) := by
  rw [simulate_of_room room, path.continueFrom maximal.within]
  obtain reached | inside := Nat.eq_or_lt_of_le maximal.within
  · rw [reached, Nat.sub_self]
    rfl
  · exact continueFrom_of_deadlock (maximal.ends inside) _ _ _

theorem IsPath.simulate_eq_error (path : m.IsPath source resolve initial r k t)
    (inside : t.length < bound) (room : bound ≤ Room.most 32)
    (broken : m.Breaks source resolve t.last (source.after r t.length)
      (resolve.after k t.steps.toList) e r' k') :
    m.simulate source resolve initial bound r k = (.error e, r', k') := by
  have left : bound - t.length = bound - (t.length + 1) + 1 := by omega
  rw [simulate_of_room room, path.continueFrom (Nat.le_of_lt inside), left,
    continueFrom_of_breaks broken]

theorem simulate_cases (m : DecisionProcess α) (source : Source ρ α) (resolve : Resolver κ)
    (initial : State) (bound : Nat) (r : ρ) (k : κ) :
    (Room.most 32 < bound ∧
      m.simulate source resolve initial bound r k = (.error (.faulted .capacity), r, k)) ∨
    bound ≤ Room.most 32 ∧
      ((∃ t, m.IsPath source resolve initial r k t ∧ m.IsMaximal bound t ∧
        m.simulate source resolve initial bound r k =
          (.ok t, source.after r t.length, resolve.after k t.steps.toList)) ∨
      ∃ t e r' k', m.IsPath source resolve initial r k t ∧ t.length < bound ∧
        m.Breaks source resolve t.last (source.after r t.length) (resolve.after k t.steps.toList)
          e r' k' ∧
        m.simulate source resolve initial bound r k = (.error e, r', k')) := by
  obtain excess | room := Nat.lt_or_ge (Room.most 32) bound
  · exact .inl ⟨excess, simulate_without_room excess⟩
  · have start : m.IsPath source resolve initial r k (.start initial) := isPath_start.mpr rfl
    obtain ⟨t, path, maximal⟩ | ⟨t, e, r', k', path, inside, broken⟩ :=
      start.exists_maximal_or_breaks (Nat.zero_add bound)
    · exact .inr ⟨room, .inl ⟨t, path, maximal, path.simulate_eq_ok maximal room⟩⟩
    · exact .inr ⟨room, .inr ⟨t, e, r', k', path, inside, broken,
        path.simulate_eq_error inside room broken⟩⟩

theorem simulate_eq_ok_iff :
    m.simulate source resolve initial bound r k = (.ok t, r', k') ↔
      bound ≤ Room.most 32 ∧ m.IsPath source resolve initial r k t ∧ m.IsMaximal bound t ∧
        r' = source.after r t.length ∧ k' = resolve.after k t.steps.toList := by
  constructor
  · intro h
    obtain ⟨-, ran⟩ | ⟨room, ⟨t, path, maximal, ran⟩ | ⟨t, e, r', k', -, -, -, ran⟩⟩ :=
      simulate_cases m source resolve initial bound r k
    all_goals
      rw [ran] at h
      cases h
    exact ⟨room, path, maximal, rfl, rfl⟩
  · rintro ⟨room, path, maximal, rfl, rfl⟩
    exact path.simulate_eq_ok maximal room

theorem simulate_eq_error_iff :
    m.simulate source resolve initial bound r k = (.error e, r', k') ↔
      (Room.most 32 < bound ∧ e = .faulted .capacity ∧ r' = r ∧ k' = k) ∨
      bound ≤ Room.most 32 ∧ ∃ t, m.IsPath source resolve initial r k t ∧ t.length < bound ∧
        m.Breaks source resolve t.last (source.after r t.length) (resolve.after k t.steps.toList)
          e r' k' := by
  constructor
  · intro h
    obtain ⟨excess, ran⟩ | ⟨room, ⟨t, -, -, ran⟩ | ⟨t, e, r', k', path, inside, broken, ran⟩⟩ :=
      simulate_cases m source resolve initial bound r k
    all_goals
      rw [ran] at h
      cases h
    · exact .inl ⟨excess, rfl, rfl, rfl⟩
    · exact .inr ⟨room, t, path, inside, broken⟩
  · rintro (⟨excess, rfl, rfl, rfl⟩ | ⟨room, t, path, inside, broken⟩)
    · exact simulate_without_room excess
    · exact path.simulate_eq_error inside room broken

theorem simulate_of_le {lower : Nat} (less : lower ≤ bound)
    (ran : (m.simulate source resolve initial bound r k).1 = .ok t) :
    ∃ part, (m.simulate source resolve initial lower r k).1 = .ok part ∧
      part.states = t.states.take (lower + 1) := by
  obtain ⟨room, path, maximal, -, -⟩ := simulate_eq_ok_iff.mp (Prod.ext ran rfl)
  have room : lower ≤ Room.most 32 := Nat.le_trans less room
  obtain short | long := Nat.lt_or_ge t.length lower
  · have still : m.IsMaximal lower t := ⟨Nat.le_of_lt short, fun _ => maximal.ends (by omega)⟩
    refine ⟨t, by rw [path.simulate_eq_ok still room], ?_⟩
    rw [List.take_of_length_le (by rw [Trace.length_states]; omega)]
  · obtain ⟨part, path, length, states⟩ := path.exists_part long
    have full : m.IsMaximal lower part := ⟨by omega, by omega⟩
    exact ⟨part, by rw [path.simulate_eq_ok full room], states⟩

/-- Where there is room for so many steps, a simulation is the maximal path within the bound, or the
error of the first step of that path that cannot be taken. Without room it does not begin. -/
theorem simulates_maximal_path (m : DecisionProcess α) (source : Source ρ α) (resolve : Resolver κ)
    (initial : State) (bound : Nat) (r : ρ) (k : κ) :
    (∀ t r' k', m.simulate source resolve initial bound r k = (.ok t, r', k') ↔
      bound ≤ Room.most 32 ∧ m.IsPath source resolve initial r k t ∧ m.IsMaximal bound t ∧
        r' = source.after r t.length ∧ k' = resolve.after k t.steps.toList) ∧
    (∀ e r' k', m.simulate source resolve initial bound r k = (.error e, r', k') ↔
      (Room.most 32 < bound ∧ e = .faulted .capacity ∧ r' = r ∧ k' = k) ∨
      bound ≤ Room.most 32 ∧ ∃ t, m.IsPath source resolve initial r k t ∧ t.length < bound ∧
        m.Breaks source resolve t.last (source.after r t.length) (resolve.after k t.steps.toList)
          e r' k') ∧
    ∀ t, m.IsPath source resolve initial r k t →
      t.states.length = t.length + 1 ∧ t.states.head? = some initial ∧
      (∀ i, t.states[i]? = t.state? i) ∧
      ∀ i < t.length, ∃ step next offers branches, t.steps[i]? = some step ∧
        t.state? i = some step.state ∧ t.state? (i + 1) = some next ∧
        m.offers step.state = .ok offers ∧ offers.length = step.offered ∧ 0 < step.offered ∧
        step.choice < step.offered ∧
        (if step.offered = 1 then step.choice = 0 else
          (resolve step.state step.offered (resolve.after k (t.steps.toList.take i))).1 =
            .ok step.choice) ∧
        offers[step.choice]? = some branches ∧
        branches.pick? (source.unit (source.after r i)).1 = some next := by
  refine ⟨fun t r' k' => simulate_eq_ok_iff, fun e r' k' => simulate_eq_error_iff, fun t path => ?_⟩
  exact ⟨t.length_states, path.head?_states, t.getElem?_states, fun i inside =>
    (path.takes i inside).inside⟩

end

def halted : DecisionProcess Float := ⟨.ok (.ofIndex 0), fun _ => .ok []⟩

/-- One step more than there is room for, and a simulation fails where the empty path is maximal and
no step breaks. -/
theorem halted_without_room :
    (halted.simulate Generator.source .first (.ofIndex 0) (2 ^ 58) (.ofSeed 1) ()).1 =
        .error (.faulted .capacity) ∧
      halted.IsPath Generator.source .first (.ofIndex 0) (.ofSeed 1) () (.start (.ofIndex 0)) ∧
      halted.IsMaximal (2 ^ 58) (.start (.ofIndex 0)) ∧
      ¬ ∃ (t : Trace) (r : Generator) (e : Stop (ModelError Float)) (r' : Generator),
        halted.Breaks Generator.source .first t.last r () e r' () := by
  refine ⟨?_, isPath_start.mpr rfl, ⟨Nat.zero_le _, fun _ => rfl⟩, ?_⟩
  · rw [simulate_without_room (by decide)]
  · rintro ⟨t, r, e, r', broken⟩
    cases broken with
    | offers failed => cases failed
    | answer offered some =>
      cases offered
      exact some rfl
    | invalidChoice offered some =>
      cases offered
      exact some rfl
    | noBranches offered _ empty =>
      cases offered
      cases empty

end DecisionProcess

end SchedulerLearning
