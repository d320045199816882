import SchedulerLearning.Fault
import SchedulerLearning.Model.State
import SchedulerLearning.Proofs.Totals
import Mathlib.Logic.Relation

/-!
# Visits to a store that is filled on demand

Workers visit a store, each visit cut into the test whether its state is known, the entry if it
was not, and the use of what is there. The use is a step of its own, so more interleavings are
allowed for than locks on the entries leave. In all of them, with reads in between, a state that
was unknown is entered by one visit only.
-/

namespace SchedulerLearning

/-- A store whose entries come about when they are first called for. -/
structure OnDemand (σ ε κ ρ : Type) where
  contains : σ → State → Bool
  get? : σ → State → Option ε
  /-- Enters an unknown state with so many choices, and says whether it was unknown. -/
  initialise : σ → State → Nat → σ × Except Fault Bool
  /-- With how many choices a call initialises its state. -/
  count : κ → Nat
  /-- What a call does once its state is initialised. -/
  use : σ → State → κ → σ × Except Fault ρ

/-- Where a call stands; `created`, the answer of its initialisation, if it has entered its state. -/
inductive Standing (ρ : Type)
  | called
  /-- Its test has found the state unknown. -/
  | missed
  | initialised (created : Bool)
  | returned (created : Bool) (answer : ρ)
  | panicked (created : Bool) (fault : Fault)

namespace Standing

variable {ρ : Type}

def created : Standing ρ → Bool
  | .called | .missed => false
  | .initialised created | .returned created _ | .panicked created _ => created

/-- Whether the call has initialised its state, be it only to find it known. -/
def passed : Standing ρ → Bool
  | .initialised _ | .returned _ _ => true
  | _ => false

def cost : Standing ρ → Nat
  | .called => 3
  | .missed => 2
  | .initialised _ => 1
  | .returned _ _ | .panicked _ _ => 0

end Standing

structure Visit (κ ρ : Type) where
  state : State
  call : κ
  standing : Standing ρ

def Visit.entered {κ ρ : Type} (v : Visit κ ρ) (s : State) : Bool :=
  v.state == s && v.standing.created

structure Visits (σ ε κ ρ : Type) where
  store : σ
  visits : List (Visit κ ρ)
  reads : List (State × Option ε)

namespace Visits

variable {σ ε κ ρ : Type}

def start (store : σ) (calls : List (State × κ)) : Visits σ ε κ ρ :=
  ⟨store, calls.map fun call => ⟨call.1, call.2, .called⟩, []⟩

def creators (now : Visits σ ε κ ρ) (s : State) : List (Visit κ ρ) := now.visits.filter (·.entered s)

def Over (now : Visits σ ε κ ρ) : Prop := ∀ v ∈ now.visits, v.standing.cost = 0

def cost (now : Visits σ ε κ ρ) : Nat := (now.visits.map (·.standing.cost)).sum

end Visits

namespace OnDemand

variable {σ ε κ ρ : Type} {m : OnDemand σ ε κ ρ} {st st' : σ} {s : State} {v v' : Visit κ ρ}
  {now later : Visits σ ε κ ρ} {calls : List (State × κ)}

/-- The next step of a visit: the test, the entry, which leaves alone what others have entered
since, or the use. -/
def serve (m : OnDemand σ ε κ ρ) (st : σ) (v : Visit κ ρ) : Option (σ × Visit κ ρ) :=
  match v.standing with
  | .called =>
    some (st, { v with standing := if m.contains st v.state then .initialised false else .missed })
  | .missed =>
    match m.initialise st v.state (m.count v.call) with
    | (st, .ok created) => some (st, { v with standing := .initialised created })
    | (st, .error fault) => some (st, { v with standing := .panicked false fault })
  | .initialised created =>
    match m.use st v.state v.call with
    | (st, .ok answer) => some (st, { v with standing := .returned created answer })
    | (st, .error fault) => some (st, { v with standing := .panicked created fault })
  | .returned _ _ | .panicked _ _ => none

inductive Step (m : OnDemand σ ε κ ρ) (now : Visits σ ε κ ρ) : Visits σ ε κ ρ → Prop
  | serve {v store v'} (place : Nat) (there : now.visits[place]? = some v)
      (served : m.serve now.store v = some (store, v')) :
      Step m now { now with store, visits := now.visits.set place v' }
  | read (s : State) : Step m now { now with reads := (s, m.get? now.store s) :: now.reads }

abbrev LeadsTo (m : OnDemand σ ε κ ρ) : Visits σ ε κ ρ → Visits σ ε κ ρ → Prop :=
  Relation.ReflTransGen (Step m)

structure Lawful (m : OnDemand σ ε κ ρ) : Prop where
  contains_eq : ∀ st s, m.contains st s = (m.get? st s).isSome
  known : ∀ st s count, m.contains st s = true → m.initialise st s count = (st, .ok false)
  unknown : ∀ st s count, m.contains st s = false →
    (∃ fault, m.initialise st s count = (st, .error fault)) ∨
    ∃ st', m.initialise st s count = (st', .ok true) ∧
      ∀ t, m.contains st' t = (s == t || m.contains st t)
  use : ∀ st s call, m.contains st s = true → ∀ t, m.contains (m.use st s call).1 t = m.contains st t

inductive Serves (m : OnDemand σ ε κ ρ) (st : σ) (v : Visit κ ρ) : σ → Standing ρ → Prop
  | hit (standing : v.standing = .called) (known : m.contains st v.state = true) :
      Serves m st v st (.initialised false)
  | miss (standing : v.standing = .called) (unknown : m.contains st v.state = false) :
      Serves m st v st .missed
  | late (standing : v.standing = .missed) (known : m.contains st v.state = true) :
      Serves m st v st (.initialised false)
  | refuse {fault} (standing : v.standing = .missed) (unknown : m.contains st v.state = false)
      (refused : m.initialise st v.state (m.count v.call) = (st, .error fault)) :
      Serves m st v st (.panicked false fault)
  | enter {st' : σ} (standing : v.standing = .missed) (unknown : m.contains st v.state = false)
      (entered : m.initialise st v.state (m.count v.call) = (st', .ok true))
      (others : ∀ t, m.contains st' t = (v.state == t || m.contains st t)) :
      Serves m st v st' (.initialised true)
  | answer {created answer} {st' : σ} (standing : v.standing = .initialised created)
      (used : m.use st v.state v.call = (st', .ok answer)) :
      Serves m st v st' (.returned created answer)
  | fail {created fault} {st' : σ} (standing : v.standing = .initialised created)
      (used : m.use st v.state v.call = (st', .error fault)) :
      Serves m st v st' (.panicked created fault)

-- ---------------------------------------------------------------------------
-- One step
-- ---------------------------------------------------------------------------

theorem Lawful.serves (lawful : m.Lawful) (served : m.serve st v = some (st', v')) :
    ∃ standing, v' = { v with standing } ∧ m.Serves st v st' standing := by
  unfold serve at served
  split at served
  · next called =>
    cases served
    refine ⟨_, rfl, ?_⟩
    cases known : m.contains st v.state with
    | true => exact .hit called known
    | false => exact .miss called known
  · next missed =>
    cases known : m.contains st v.state with
    | true =>
      rw [lawful.known _ _ _ known] at served
      cases served
      exact ⟨_, rfl, .late missed known⟩
    | false =>
      obtain ⟨fault, refused⟩ | ⟨st', entered, others⟩ :=
        lawful.unknown st v.state (m.count v.call) known
      · rw [refused] at served
        cases served
        exact ⟨_, rfl, .refuse missed known refused⟩
      · rw [entered] at served
        cases served
        exact ⟨_, rfl, .enter missed known entered others⟩
  · next initialised =>
    split at served
    · next used =>
      cases served
      exact ⟨_, rfl, .answer initialised used⟩
    · next used =>
      cases served
      exact ⟨_, rfl, .fail initialised used⟩
  · cases served
  · cases served

theorem serve_of_cost (left : v.standing.cost ≠ 0) :
    ∃ st' v', m.serve st v = some (st', v') ∧ v'.standing.cost < v.standing.cost := by
  obtain ⟨s, call, standing⟩ := v
  cases standing with
  | called =>
    refine ⟨_, _, rfl, ?_⟩
    dsimp only
    split <;> simp [Standing.cost]
  | missed =>
    simp only [serve]
    split <;> exact ⟨_, _, rfl, by simp [Standing.cost]⟩
  | initialised created =>
    simp only [serve]
    split <;> exact ⟨_, _, rfl, by simp [Standing.cost]⟩
  | returned => exact absurd rfl left
  | panicked => exact absurd rfl left

theorem Serves.contains {standing : Standing ρ} (lawful : m.Lawful) (serves : m.Serves st v st' standing)
    (passed : v.standing.passed = true → m.contains st v.state = true) (s : State) :
    (m.contains st' s).toNat + (v.entered s).toNat =
      (m.contains st s).toNat + (Visit.entered { v with standing } s).toNat := by
  unfold Visit.entered
  cases serves with
  | hit before | miss before | late before | refuse before => simp [before, Standing.created]
  | enter before unknown _ others =>
    rw [others]
    by_cases here : v.state = s
    · subst here
      simp [before, unknown, Standing.created]
    · simp [beq_eq_false_iff_ne.mpr here]
  | answer before used | fail before used =>
    have same := lawful.use st v.state v.call (passed (by rw [before]; rfl)) s
    rw [used] at same
    simp [same, before, Standing.created]

theorem Serves.grows {standing : Standing ρ} (lawful : m.Lawful) (serves : m.Serves st v st' standing)
    (passed : v.standing.passed = true → m.contains st v.state = true) {s : State}
    (known : m.contains st s = true) : m.contains st' s = true := by
  cases serves with
  | hit | miss | late | refuse => exact known
  | enter _ _ _ others => rw [others, known, Bool.or_true]
  | answer before used | fail before used =>
    have same := lawful.use st v.state v.call (passed (by rw [before]; rfl)) s
    rw [used] at same
    exact same.trans known

theorem Serves.passed {standing : Standing ρ} (lawful : m.Lawful) (serves : m.Serves st v st' standing)
    (before : v.standing.passed = true → m.contains st v.state = true)
    (after : standing.passed = true) : m.contains st' v.state = true := by
  cases serves with
  | hit _ known | late _ known => exact known
  | enter _ _ _ others => simp [others]
  | answer initialised used =>
    have known := before (by rw [initialised]; rfl)
    exact Serves.grows lawful (.answer initialised used) before known
  | miss | refuse | fail => cases after

-- ---------------------------------------------------------------------------
-- Any number of steps
-- ---------------------------------------------------------------------------

/-- Whether the visits that have entered a state account for its being known, and those that have
passed have theirs known. -/
structure Counted (m : OnDemand σ ε κ ρ) (start : σ) (now : Visits σ ε κ ρ) : Prop where
  creators : ∀ s, (now.creators s).length + (m.contains start s).toNat =
    (m.contains now.store s).toNat
  passed : ∀ v ∈ now.visits, v.standing.passed = true → m.contains now.store v.state = true

theorem Counted.start (st : σ) (calls : List (State × κ)) : Counted m st (.start st calls) := by
  have fresh : ∀ v ∈ (Visits.start st calls : Visits σ ε κ ρ).visits, v.standing = .called := by
    intro v hv
    obtain ⟨_, -, rfl⟩ := List.mem_map.mp hv
    rfl
  constructor
  · intro s
    have none : (Visits.start st calls : Visits σ ε κ ρ).creators s = [] := by
      refine List.filter_eq_nil_iff.mpr fun v hv => ?_
      simp [Visit.entered, fresh v hv, Standing.created]
    rw [none]
    exact Nat.zero_add _
  · intro v hv passed
    rw [fresh v hv] at passed
    cases passed

theorem Counted.serve {standing : Standing ρ} {place : Nat} (h : Counted m st now) (lawful : m.Lawful)
    (there : now.visits[place]? = some v) (serves : m.Serves now.store v st' standing) :
    Counted m st { now with store := st', visits := now.visits.set place { v with standing } } := by
  have passed := h.passed v (List.mem_of_getElem? there)
  constructor
  · intro s
    have moved := length_filter_set (·.entered s) there { v with standing }
    have counted := h.creators s
    have becomes := serves.contains lawful passed s
    simp only [Visits.creators] at counted ⊢
    omega
  · have here : standing.passed = true → m.contains st' v.state = true := serves.passed lawful passed
    exact forall_mem_set (fun w hw after => serves.grows lawful passed (h.passed w hw after)) here

theorem Counted.leadsTo (h : Counted m st now) (lawful : m.Lawful) (steps : m.LeadsTo now later) :
    Counted m st later := by
  induction steps with
  | refl => exact h
  | tail _ step ih =>
    cases step with
    | serve place there served =>
      obtain ⟨standing, rfl, serves⟩ := lawful.serves served
      exact ih.serve lawful there serves
    | read => exact ⟨ih.creators, ih.passed⟩

/-- What is kept of a store, and what a visit or a read vouches for, that no step makes untrue. -/
structure Stable (m : OnDemand σ ε κ ρ) (keeps : σ → σ → Prop) (vouches : σ → Visit κ ρ → Prop)
    (saw : σ → State → ε → Prop) : Prop where
  refl : ∀ st, keeps st st
  trans : ∀ {st st' st''}, keeps st st' → keeps st' st'' → keeps st st''
  vouches_mono : ∀ {st st' v}, keeps st st' → vouches st v → vouches st' v
  saw_mono : ∀ {st st' s entry}, keeps st st' → saw st s entry → saw st' s entry
  read : ∀ {st s entry}, m.get? st s = some entry → saw st s entry
  call : ∀ st s call, vouches st ⟨s, call, .called⟩
  serve : ∀ {st v st' standing}, m.Serves st v st' standing →
    (v.standing.passed = true → m.contains st v.state = true) → vouches st v →
    keeps st st' ∧ vouches st' { v with standing }

structure Sound (vouches : σ → Visit κ ρ → Prop) (saw : σ → State → ε → Prop)
    (now : Visits σ ε κ ρ) : Prop where
  visits : ∀ v ∈ now.visits, vouches now.store v
  reads : ∀ s entry, (s, some entry) ∈ now.reads → saw now.store s entry

section
variable {keeps : σ → σ → Prop} {vouches : σ → Visit κ ρ → Prop} {saw : σ → State → ε → Prop}

theorem Stable.sound_start (stable : m.Stable keeps vouches saw) (st : σ) (calls : List (State × κ)) :
    Sound vouches saw (.start st calls) := by
  constructor
  · intro v hv
    obtain ⟨_, -, rfl⟩ := List.mem_map.mp hv
    exact stable.call st _ _
  · rintro s entry ⟨⟩

theorem Stable.step (stable : m.Stable keeps vouches saw) (lawful : m.Lawful) (counted : Counted m st now)
    (sound : Sound vouches saw now) (step : m.Step now later) :
    keeps now.store later.store ∧ Sound vouches saw later := by
  cases step with
  | serve place there served =>
    obtain ⟨standing, rfl, serves⟩ := lawful.serves served
    have present := List.mem_of_getElem? there
    obtain ⟨kept, vouched⟩ := stable.serve serves (counted.passed _ present) (sound.visits _ present)
    refine ⟨kept, ?_, fun s entry listed => stable.saw_mono kept (sound.reads s entry listed)⟩
    exact forall_mem_set (fun w hw => stable.vouches_mono kept (sound.visits w hw)) vouched
  | read s =>
    refine ⟨stable.refl _, sound.visits, fun t entry listed => ?_⟩
    obtain last | before := List.mem_cons.mp listed
    · obtain ⟨rfl, found⟩ := Prod.mk.inj last
      exact stable.read found.symm
    · exact sound.reads t entry before

theorem Stable.leadsTo (stable : m.Stable keeps vouches saw) (lawful : m.Lawful)
    (counted : Counted m st now) (sound : Sound vouches saw now) (steps : m.LeadsTo now later) :
    keeps now.store later.store ∧ Sound vouches saw later := by
  induction steps with
  | refl => exact ⟨stable.refl _, sound⟩
  | tail before step ih =>
    obtain ⟨kept, sound⟩ := ih
    obtain ⟨kept', sound⟩ := stable.step lawful (counted.leadsTo lawful before) sound step
    exact ⟨stable.trans kept kept', sound⟩

theorem Stable.from_start (stable : m.Stable keeps vouches saw) (lawful : m.Lawful)
    (steps : m.LeadsTo (.start st calls) now) :
    Counted m st now ∧ keeps st now.store ∧ Sound vouches saw now ∧
      ∀ later, m.LeadsTo now later → keeps now.store later.store := by
  have begun := Counted.start (m := m) st calls
  have counted := begun.leadsTo lawful steps
  obtain ⟨kept, sound⟩ := stable.leadsTo lawful begun (stable.sound_start st calls) steps
  exact ⟨counted, kept, sound, fun _ further => (stable.leadsTo lawful counted sound further).1⟩

end

theorem Counted.creators_of_known (h : Counted m st now) (known : m.contains st s = true) :
    now.creators s = [] := by
  have counted := h.creators s
  rw [known, Bool.toNat_true] at counted
  have bound := Bool.toNat_le (m.contains now.store s)
  exact List.length_eq_zero_iff.mp (by omega)

/-- An unknown state is still unknown, and no visit to it has passed, or one visit has entered it. -/
theorem Counted.creators_of_unknown (h : Counted m st now) (unknown : m.contains st s = false) :
    (m.contains now.store s = false ∧ now.creators s = [] ∧
      ∀ v ∈ now.visits, v.state = s → v.standing.passed = false) ∨
    ∃ v ∈ now.visits, now.creators s = [v] ∧ v.state = s ∧ v.standing.created = true := by
  have counted := h.creators s
  rw [unknown, Bool.toNat_false, Nat.add_zero] at counted
  cases known : m.contains now.store s with
  | false =>
    rw [known, Bool.toNat_false] at counted
    refine .inl ⟨rfl, List.length_eq_zero_iff.mp counted, ?_⟩
    rintro v hv rfl
    by_contra passed
    cases known.symm.trans (h.passed v hv (Bool.eq_true_of_not_eq_false passed))
  | true =>
    rw [known, Bool.toNat_true] at counted
    obtain ⟨v, only⟩ := List.length_eq_one_iff.mp counted
    have made : v ∈ now.creators s := by simp [only]
    obtain ⟨hv, entered⟩ := List.mem_filter.mp made
    obtain ⟨here, created⟩ : v.state = s ∧ v.standing.created = true := by
      simpa [Visit.entered] using entered
    exact .inr ⟨v, hv, only, here, created⟩

theorem ends (now : Visits σ ε κ ρ) : ∃ ended, m.LeadsTo now ended ∧ ended.Over := by
  induction cost : now.cost using Nat.strong_induction_on generalizing now with
  | _ n ih =>
    by_cases quiet : now.Over
    · exact ⟨now, .refl, quiet⟩
    · obtain ⟨v, present, left⟩ : ∃ v ∈ now.visits, v.standing.cost ≠ 0 := by
        simpa [Visits.Over] using quiet
      obtain ⟨place, there⟩ := List.mem_iff_getElem?.mp present
      obtain ⟨store, v', served, less⟩ : ∃ store v', m.serve now.store v = some (store, v') ∧
          v'.standing.cost < v.standing.cost := serve_of_cost left
      have paid := sum_map_set (fun v : Visit κ ρ => v.standing.cost) there v'
      have fewer : Visits.cost { now with store, visits := now.visits.set place v' } < n := by
        simp only [Visits.cost] at cost ⊢
        omega
      obtain ⟨ended, steps, quiet⟩ := ih _ fewer _ rfl
      exact ⟨ended, .head (.serve place there served) steps, quiet⟩

-- ---------------------------------------------------------------------------
-- The shortest races
-- ---------------------------------------------------------------------------

theorem leadsTo_of_refusal {call : κ} {fault : Fault} (unknown : m.contains st s = false)
    (refused : m.initialise st s (m.count call) = (st, .error fault)) :
    m.LeadsTo (.start st [(s, call)]) ⟨st, [⟨s, call, .panicked false fault⟩], []⟩ := by
  have misses : m.Step (.start st [(s, call)]) ⟨st, [⟨s, call, .missed⟩], []⟩ :=
    .serve 0 rfl (by simp [serve, Visits.start, unknown])
  have panics : m.Step ⟨st, [⟨s, call, .missed⟩], []⟩ ⟨st, [⟨s, call, .panicked false fault⟩], []⟩ :=
    .serve 0 rfl (by simp [serve, refused])
  exact (Relation.ReflTransGen.single misses).tail panics

/-- Two visits that both miss before the first one enters the state. -/
theorem Lawful.leadsTo_of_tie (lawful : m.Lawful) {first second : κ} {st₁ st₂ : σ} {a b : ρ}
    (unknown : m.contains st s = false) (entered : m.initialise st s (m.count first) = (st', .ok true))
    (used : m.use st' s first = (st₁, .ok a)) (used' : m.use st₁ s second = (st₂, .ok b)) :
    m.LeadsTo (.start st [(s, first), (s, second)])
      ⟨st₂, [⟨s, first, .returned true a⟩, ⟨s, second, .returned false b⟩], []⟩ := by
  have known : m.contains st' s = true := by
    obtain ⟨_, refused⟩ | ⟨_, done, others⟩ := lawful.unknown st s (m.count first) unknown
    · cases entered.symm.trans refused
    · cases entered.symm.trans done
      simp [others]
  have firstMisses : m.Step (.start st [(s, first), (s, second)])
      ⟨st, [⟨s, first, .missed⟩, ⟨s, second, .called⟩], []⟩ :=
    .serve 0 rfl (by simp [serve, Visits.start, unknown])
  have secondMisses : m.Step ⟨st, [⟨s, first, .missed⟩, ⟨s, second, .called⟩], []⟩
      ⟨st, [⟨s, first, .missed⟩, ⟨s, second, .missed⟩], []⟩ :=
    .serve 1 rfl (by simp [serve, unknown])
  have firstEnters : m.Step ⟨st, [⟨s, first, .missed⟩, ⟨s, second, .missed⟩], []⟩
      ⟨st', [⟨s, first, .initialised true⟩, ⟨s, second, .missed⟩], []⟩ :=
    .serve 0 rfl (by simp [serve, entered])
  have secondIsLate : m.Step ⟨st', [⟨s, first, .initialised true⟩, ⟨s, second, .missed⟩], []⟩
      ⟨st', [⟨s, first, .initialised true⟩, ⟨s, second, .initialised false⟩], []⟩ :=
    .serve 1 rfl (by simp [serve, lawful.known _ _ _ known])
  have firstUses : m.Step ⟨st', [⟨s, first, .initialised true⟩, ⟨s, second, .initialised false⟩], []⟩
      ⟨st₁, [⟨s, first, .returned true a⟩, ⟨s, second, .initialised false⟩], []⟩ :=
    .serve 0 rfl (by simp [serve, used])
  have secondUses : m.Step ⟨st₁, [⟨s, first, .returned true a⟩, ⟨s, second, .initialised false⟩], []⟩
      ⟨st₂, [⟨s, first, .returned true a⟩, ⟨s, second, .returned false b⟩], []⟩ :=
    .serve 1 rfl (by simp [serve, used'])
  have missed := (Relation.ReflTransGen.single firstMisses).tail secondMisses
  have initialised := (missed.tail firstEnters).tail secondIsLate
  exact (initialised.tail firstUses).tail secondUses

end OnDemand

end SchedulerLearning
