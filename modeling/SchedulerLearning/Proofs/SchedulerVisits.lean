import SchedulerLearning.Proofs.ChoiceAgreement
import SchedulerLearning.Proofs.FirstVisits

/-!
# Visits to a scheduler

A scheduler is filled on demand by workers that initialise states and choose in them. Whatever the
interleaving, the mixture of a state is made once, for as many choices as the visit asks for that
makes it, and it stays as it is. Whoever chooses after having initialised the state finds it.
-/

namespace SchedulerLearning

namespace Scheduler

inductive Call (α : Type)
  | initialise (count : Nat)
  | choose (count : Nat) (x : α)

def Call.count {α : Type} : Call α → Nat
  | .initialise count | .choose count _ => count

section
variable {α : Type} {p p' p'' : Scheduler α} {s : State}

def KeptIn (p p' : Scheduler α) : Prop :=
  ∀ s mixture, p.get? s = some mixture → p'.get? s = some mixture

theorem KeptIn.refl (p : Scheduler α) : p.KeptIn p := fun _ _ => id

theorem KeptIn.trans (h : p.KeptIn p') (h' : p'.KeptIn p'') : p.KeptIn p'' :=
  fun s mixture known => h' s mixture (h s mixture known)

theorem keptIn_insert (unknown : p.get? s = none) (mixture : Mixture α) :
    p.KeptIn ⟨p.states.insert s mixture⟩ := by
  intro t other known
  have elsewhere : s ≠ t := by
    rintro rfl
    cases unknown.symm.trans known
  simpa [get?, Std.HashMap.getElem?_insert, elsewhere] using known

end

variable {α : Type} [Scalar α] {p p' : Scheduler α} {s : State} {v : Visit (Call α) (Option Nat)}
  {now later : Visits (Scheduler α) (Mixture α) (Call α) (Option Nat)} {calls : List (State × Call α)}

def found (p : Scheduler α) (s : State) : Call α → Option Nat
  | .initialise _ => none
  | .choose _ x => p.sample? s x

def onDemand : OnDemand (Scheduler α) (Mixture α) (Call α) (Option Nat) where
  contains := contains
  get? := get?
  initialise := initialise
  count := Call.count
  use p s call := (p, .ok (p.found s call))

structure Vouches (p : Scheduler α) (v : Visit (Call α) (Option Nat)) : Prop where
  created : v.standing.created = true → p.get? v.state = some (.uniform v.call.count)
  chosen : ∀ created choice count x, v.standing = .returned created choice →
    v.call = .choose count x →
    ∃ mixture, p.get? v.state = some mixture ∧ choice = some (mixture.sample x)
  panicked : ∀ created fault, v.standing = .panicked created fault →
    created = false ∧ fault = .capacity ∧ Room.most 8 < v.call.count

theorem initialise_of_unknown (unknown : p.get? s = none) (count : Nat) :
    p.initialise s count =
      if Room.most 8 < count then (p, .error .capacity)
      else (⟨p.states.insert s (.uniform count)⟩, .ok true) := by
  split
  · next crowded => exact initialise_of_crowded unknown crowded
  · next room =>
    have new : p.contains s = false := by rw [contains_eq, unknown, Option.isSome_none]
    rw [initialise_of_room (Nat.le_of_not_lt room), enter, new]
    rfl

theorem onDemand_lawful : (onDemand : OnDemand (Scheduler α) _ _ _).Lawful where
  contains_eq _ _ := contains_eq
  known _ _ _ known := if_pos known
  unknown p s count unknown := by
    have absent : p.get? s = none := by simpa [onDemand, contains_eq] using unknown
    simp only [onDemand, initialise_of_unknown absent]
    split
    · exact .inl ⟨_, rfl⟩
    · exact .inr ⟨_, rfl, fun t => Std.HashMap.contains_insert⟩
  use _ _ _ _ _ := rfl

theorem Vouches.mono (kept : p.KeptIn p') (h : Vouches p v) : Vouches p' v where
  created made := kept _ _ (h.created made)
  chosen created choice count x returned call := by
    obtain ⟨mixture, known, chosen⟩ := h.chosen created choice count x returned call
    exact ⟨mixture, kept _ _ known, chosen⟩
  panicked := h.panicked

theorem onDemand_stable :
    (onDemand : OnDemand (Scheduler α) _ _ _).Stable KeptIn Vouches
      fun p s mixture => p.get? s = some mixture where
  refl := KeptIn.refl
  trans := KeptIn.trans
  vouches_mono := Vouches.mono
  saw_mono kept := kept _ _
  read := id
  call p s call := ⟨nofun, nofun, nofun⟩
  serve {p v p' standing} serves passed vouched := by
    cases serves with
    | hit | miss | late => exact ⟨.refl p, nofun, nofun, nofun⟩
    | refuse missed unknown refused =>
      have absent : p.get? v.state = none := by simpa [onDemand, contains_eq] using unknown
      simp only [onDemand, initialise_of_unknown absent] at refused
      split at refused
      · next crowded =>
        cases refused
        refine ⟨.refl p, nofun, nofun, ?_⟩
        rintro _ _ ⟨⟩
        exact ⟨rfl, rfl, crowded⟩
      · cases (Prod.mk.inj refused).2
    | enter missed unknown entered =>
      have absent : p.get? v.state = none := by simpa [onDemand, contains_eq] using unknown
      simp only [onDemand, initialise_of_unknown absent] at entered
      split at entered
      · cases entered
      · obtain ⟨rfl, -⟩ := Prod.mk.inj entered
        exact ⟨keptIn_insert absent _, fun _ => Std.HashMap.getElem?_insert_self, nofun, nofun⟩
    | answer initialised used =>
      cases used
      refine ⟨.refl p, fun made => vouched.created (by rw [initialised]; exact made), ?_, nofun⟩
      intro _ choice count x returned call
      have known : p.contains v.state = true := passed (by rw [initialised]; rfl)
      rw [contains_eq, Option.isSome_iff_exists] at known
      obtain ⟨mixture, known⟩ := known
      cases returned
      replace call : v.call = .choose count x := call
      exact ⟨mixture, known, by simp only [found, call, sample?, known, Option.map_some]⟩
    | fail initialised used => cases used

/-- What visits from a start have come to: an entry that was there is as it was, any other is the
uniform one of the only visit that made it, once a visit has passed at all. -/
structure FirstWins (p : Scheduler α) (now : Visits (Scheduler α) (Mixture α) (Call α) (Option Nat)) :
    Prop where
  kept : ∀ s mixture, p.get? s = some mixture →
    now.store.get? s = some mixture ∧ now.creators s = []
  entered : ∀ s, p.get? s = none →
    (now.store.get? s = none ∧ now.creators s = [] ∧
      ∀ v ∈ now.visits, v.state = s → v.standing.passed = false) ∨
    ∃ v, now.creators s = [v] ∧ now.store.get? s = some (.uniform v.call.count)
  visits : ∀ v ∈ now.visits, Vouches now.store v
  reads : ∀ s mixture, (s, some mixture) ∈ now.reads → now.store.get? s = some mixture

theorem firstWins (steps : onDemand.LeadsTo (.start p calls) now) : p.FirstWins now := by
  obtain ⟨counted, kept, sound, -⟩ := onDemand_stable.from_start onDemand_lawful steps
  refine ⟨fun s mixture known => ⟨kept s mixture known, ?_⟩, fun s unknown => ?_, sound.visits, sound.reads⟩
  · exact counted.creators_of_known (contains_eq.trans (by rw [known]; rfl))
  · have absent : p.contains s = false := by rw [contains_eq, unknown, Option.isSome_none]
    obtain ⟨still, none, waiting⟩ | ⟨v, hv, only, rfl, created⟩ := counted.creators_of_unknown absent
    · exact .inl ⟨by simpa [onDemand, contains_eq] using still, none, waiting⟩
    · exact .inr ⟨v, only, (sound.visits v hv).created created⟩

end Scheduler

-- ---------------------------------------------------------------------------
-- Workers
-- ---------------------------------------------------------------------------

namespace Worker

variable {setup : Setup} {shared : Shared} {w : Worker} {holding : Holding} {left : Nat} {t : Trace}
  {offers : List (Distribution Float)} {x : Float}

/-- A worker that comes to resolve a choice makes the test of a visit. -/
theorem explore_serves (turn : setup.process.turn t = .ok (.among offers))
    (free : holding.batch.overlay.bind (·.choice? t.last) = none) :
    let visit := Visit.mk t.last (Scheduler.Call.choose offers.length w.choosing.unit.1)
    Scheduler.onDemand.serve shared.scheduler (visit .called) =
        some (shared.scheduler, visit (.initialised false)) ∧
      (w.explore setup shared holding (left + 1) t).phase =
        .sampling holding left t offers w.choosing.unit.1 ∨
    Scheduler.onDemand.serve shared.scheduler (visit .called) = some (shared.scheduler, visit .missed) ∧
      (w.explore setup shared holding (left + 1) t).phase =
        .entering holding left t offers w.choosing.unit.1 := by
  cases known : shared.scheduler.contains t.last with
  | true => exact .inl (by simp [explore, turn, free, known, OnDemand.serve, Scheduler.onDemand])
  | false => exact .inr (by simp [explore, turn, free, known, OnDemand.serve, Scheduler.onDemand])

/-- Its next step is the entry. What the state offers is a list that exists, so there is room. -/
theorem act_entering_serves (entering : w.phase = .entering holding left t offers x)
    (room : offers.length ≤ Room.most 8) : ∃ created,
    Scheduler.onDemand.serve shared.scheduler ⟨t.last, .choose offers.length x, .missed⟩ =
      some ((w.act setup shared).1.scheduler, ⟨t.last, .choose offers.length x, .initialised created⟩) ∧
    (w.act setup shared).2 = { w with phase := .sampling holding left t offers x } := by
  have claimed : Mixture.claim offers.length = .ok () := if_neg (Nat.not_lt.mpr room)
  simp only [act, entering, Shared.enter, OnDemand.serve, Scheduler.onDemand, Scheduler.Call.count]
  cases known : shared.scheduler.contains t.last with
  | true => simp [Scheduler.initialise, Scheduler.enter, known]
  | false => simp [Scheduler.initialise, Scheduler.enter, known, claimed]

theorem act_sampling_serves (sampling : w.phase = .sampling holding left t offers x) (created : Bool) :
    ∃ found, Scheduler.onDemand.serve shared.scheduler
        ⟨t.last, .choose offers.length x, .initialised created⟩ =
      some (shared.scheduler, ⟨t.last, .choose offers.length x, .returned created found⟩) ∧
    w.act setup shared = (shared, w.leave.take holding left t offers (found.getD 0)) := by
  refine ⟨shared.scheduler.sample? t.last x, rfl, ?_⟩
  simp only [act, sampling, Scheduler.sample]

end Worker

end SchedulerLearning
