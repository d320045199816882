import SchedulerLearning.Proofs.FirstVisits
import SchedulerLearning.Proofs.RewardTotals

/-!
# Visits to the rewards

Rewards are filled on demand by workers that initialise states and add to them, not all of them for
the same number of choices. Whatever the interleaving, the counters of a state are made once, for as
many choices as the visit asks for that makes them, and hold all that was added since.
-/

namespace SchedulerLearning

namespace Rewards

inductive Call
  | initialise (count : Nat)
  | add (count choice : Nat) (satisfied : Bool) (amount : Nat)

def Call.count : Call → Nat
  | .initialise count | .add count _ _ _ => count

def Call.credit? (s : State) : Call → Option Credit
  | .initialise _ => none
  | .add count choice satisfied amount => some ⟨s, count, choice, satisfied, amount⟩

variable {r r' r'' : Rewards} {s : State} {c : Credit} {cs ds : List Credit} {ts : Tallies}
  {v : Visit Call Unit} {now later : Visits Rewards Tallies Call Unit} {calls : List (State × Call)}

def onDemand : OnDemand Rewards Tallies Call Unit where
  contains := contains
  get? r s := r.states[s]?
  initialise := initialise
  count := Call.count
  use r s call :=
    match call.credit? s with
    | none => (r, .ok ())
    | some c => r.credit c

def SizedIn (r r' : Rewards) : Prop :=
  ∀ (s : State) ts, r.states[s]? = some ts → ∃ ts', r'.states[s]? = some ts' ∧ ts'.length = ts.length

def RaisedBy (r : Rewards) (cs : List Credit) (r' : Rewards) : Prop :=
  ∀ s choice side, r'.counter s choice side =
    r.counter s choice side + .ofNat (Credit.amountFor cs s choice side)

def made? (v : Visit Call Unit) : Option Credit :=
  match v.standing with
  | .returned _ _ => v.call.credit? v.state
  | _ => none

def made (now : Visits Rewards Tallies Call Unit) : List Credit := now.visits.filterMap made?

structure Vouches (r : Rewards) (v : Visit Call Unit) : Prop where
  created : v.standing.created = true → ∃ ts, r.states[v.state]? = some ts ∧ ts.length = v.call.count
  added : ∀ c, made? v = some c → ∃ ts, r.states[v.state]? = some ts ∧ c.choice < ts.length
  panicked : ∀ created fault, v.standing = .panicked created fault →
    created = false ∧ fault = .capacity ∧ Room.most 16 < v.call.count ∨
    ∃ c ts, v.call.credit? v.state = some c ∧ r.states[v.state]? = some ts ∧
      ts.length ≤ c.choice ∧ fault = .outOfBounds ts.length c.choice

theorem SizedIn.refl (r : Rewards) : r.SizedIn r := fun _ ts known => ⟨ts, known, rfl⟩

theorem SizedIn.trans (h : r.SizedIn r') (h' : r'.SizedIn r'') : r.SizedIn r'' := by
  intro s ts known
  obtain ⟨ts', known', same⟩ := h s ts known
  obtain ⟨ts'', known'', same'⟩ := h' s ts' known'
  exact ⟨ts'', known'', same'.trans same⟩

theorem sizedIn_insert (same : ∀ ts', r.states[s]? = some ts' → ts.length = ts'.length) :
    r.SizedIn ⟨r.states.insert s ts⟩ := by
  intro t ts' known
  rw [Std.HashMap.getElem?_insert]
  by_cases here : s = t
  · subst here
    exact ⟨ts, by simp, same ts' known⟩
  · exact ⟨ts', by simp [here, known], rfl⟩

theorem Vouches.mono (sized : r.SizedIn r') (h : Vouches r v) : Vouches r' v where
  created made := by
    obtain ⟨ts, known, length⟩ := h.created made
    obtain ⟨ts', known', same⟩ := sized _ ts known
    exact ⟨ts', known', same.trans length⟩
  added c made := by
    obtain ⟨ts, known, inside⟩ := h.added c made
    obtain ⟨ts', known', same⟩ := sized _ ts known
    exact ⟨ts', known', same.symm ▸ inside⟩
  panicked created fault panicked := by
    obtain refused | ⟨c, ts, call, known, outside, fault⟩ := h.panicked created fault panicked
    · exact .inl refused
    · obtain ⟨ts', known', same⟩ := sized _ ts known
      exact .inr ⟨c, ts', call, known', same ▸ outside, same ▸ fault⟩

theorem RaisedBy.refl (r : Rewards) : r.RaisedBy [] r := fun _ _ _ => (UInt64.add_zero _).symm

theorem RaisedBy.trans (h : r.RaisedBy cs r') (h' : r'.RaisedBy ds r'') : r.RaisedBy (cs ++ ds) r'' := by
  intro s choice side
  rw [h', h, UInt64.add_assoc, ← UInt64.ofNat_add]
  simp only [Credit.amountFor, List.filter_append, List.map_append, List.sum_append_nat]

-- ---------------------------------------------------------------------------
-- One step
-- ---------------------------------------------------------------------------

theorem initialise_of_unknown (unknown : r.states[s]? = none) (count : Nat) :
    r.initialise s count =
      if Room.most 16 < count then (r, .error .capacity)
      else (⟨r.states.insert s (.ofCount count)⟩, .ok true) := by
  have new : r.contains s = false := contains_eq_false.mpr unknown
  simp only [initialise, Tallies.claim, Room.claim, enter, new, Bool.false_eq_true, if_false]
  by_cases crowded : Room.most 16 < count
  · rw [if_pos crowded, if_pos crowded]
  · rw [if_neg crowded, if_neg crowded]
    rfl

theorem credit_of_known (known : r.states[c.state]? = some ts) :
    r.credit c =
      if c.choice < ts.length then
        (⟨r.states.insert c.state (ts.modify c.choice (·.add c.satisfied c.amount))⟩, .ok ())
      else (⟨r.states.insert c.state ts⟩, .error (.outOfBounds ts.length c.choice)) := by
  simp only [credit, known, Option.getD_some, Tallies.add]
  by_cases inside : c.choice < ts.length
  · rw [if_pos inside, if_pos inside]
  · rw [if_neg inside, if_neg inside]

theorem contains_insert_of_known (known : r.contains s = true) (ts : Tallies) (t : State) :
    contains ⟨r.states.insert s ts⟩ t = r.contains t := by
  by_cases here : s = t
  · subst here
    exact Std.HashMap.contains_insert_self.trans known.symm
  · simp only [contains, Std.HashMap.contains_insert, beq_eq_false_iff_ne.mpr here, Bool.false_or]

theorem use_cases (known : r.states[s]? = some ts) (call : Call) :
    call.credit? s = none ∧ onDemand.use r s call = (r, .ok ()) ∨
    ∃ c, call.credit? s = some c ∧ c.state = s ∧
      (c.choice < ts.length ∧ onDemand.use r s call =
          (⟨r.states.insert s (ts.modify c.choice (·.add c.satisfied c.amount))⟩, .ok ()) ∨
        ts.length ≤ c.choice ∧ onDemand.use r s call =
          (⟨r.states.insert s ts⟩, .error (.outOfBounds ts.length c.choice))) := by
  cases call with
  | initialise count => exact .inl ⟨rfl, rfl⟩
  | add count choice satisfied amount =>
    refine .inr ⟨⟨s, count, choice, satisfied, amount⟩, rfl, rfl, ?_⟩
    simp only [onDemand, Call.credit?, credit_of_known (c := ⟨s, count, choice, satisfied, amount⟩) known]
    split
    · next inside => exact .inl ⟨inside, rfl⟩
    · next outside => exact .inr ⟨Nat.le_of_not_lt outside, rfl⟩

theorem onDemand_lawful : onDemand.Lawful where
  contains_eq _ _ := contains_eq
  known _ _ _ known := if_pos known
  unknown r s count unknown := by
    simp only [onDemand, initialise_of_unknown (contains_eq_false.mp unknown)]
    split
    · exact .inl ⟨_, rfl⟩
    · exact .inr ⟨_, rfl, fun t => Std.HashMap.contains_insert⟩
  use r s call known t := by
    obtain ⟨ts, there⟩ := contains_eq_true.mp known
    obtain ⟨-, used⟩ | ⟨c, -, -, ⟨-, used⟩ | ⟨-, used⟩⟩ := use_cases there call
    · rw [used]
    · rw [used]
      exact contains_insert_of_known known _ t
    · rw [used]
      exact contains_insert_of_known known _ t

theorem sizedIn_enter (unknown : r.states[s]? = none) (ts : Tallies) :
    r.SizedIn ⟨r.states.insert s ts⟩ :=
  sizedIn_insert fun ts' known => by cases unknown.symm.trans known

theorem raisedBy_insert (here : ∀ c ∈ cs, c.state = s)
    (counters : ∀ choice side, ts.counter choice side =
      r.counter s choice side + .ofNat (Credit.amountFor cs s choice side)) :
    r.RaisedBy cs ⟨r.states.insert s ts⟩ := by
  intro t choice side
  rw [counter_insert]
  by_cases same : s = t
  · subst same
    rw [if_pos BEq.rfl, counters]
  · have absent : ∀ c ∈ cs, c.state ≠ t := fun c hc there => same ((here c hc).symm.trans there)
    rw [if_neg (by simpa using same), Credit.amountFor_of_absent absent]
    exact (UInt64.add_zero _).symm

/-- New counters are zero, which is what the missing ones count as. -/
theorem raisedBy_enter (unknown : r.states[s]? = none) (count : Nat) :
    r.RaisedBy [] ⟨r.states.insert s (.ofCount count)⟩ := by
  refine raisedBy_insert (List.forall_mem_nil _) fun choice side => ?_
  rw [counter_eq count, unknown]
  exact (UInt64.add_zero _).symm

theorem use_spec {call : Call} {answer : Except Fault Unit} (known : r.states[s]? = some ts)
    (used : onDemand.use r s call = (r', answer)) :
    r.SizedIn r' ∧
    ((answer = .ok () ∧ r.RaisedBy (call.credit? s).toList r' ∧
        ∀ c, call.credit? s = some c → c.choice < ts.length) ∨
      ∃ c, call.credit? s = some c ∧ ts.length ≤ c.choice ∧ r.RaisedBy [] r' ∧
        answer = .error (.outOfBounds ts.length c.choice)) := by
  obtain ⟨idle, done⟩ | ⟨c, call, here, ⟨inside, done⟩ | ⟨outside, done⟩⟩ := use_cases known call
  · cases used.symm.trans done
    refine ⟨.refl r, .inl ⟨rfl, ?_, ?_⟩⟩
    · rw [idle]
      exact .refl r
    · simp [idle]
  · cases used.symm.trans done
    refine ⟨sizedIn_insert fun ts' known' => ?_, .inl ⟨rfl, ?_, ?_⟩⟩
    · cases known.symm.trans known'
      exact List.length_modify _ _ _
    · rw [call, Option.toList_some]
      refine raisedBy_insert (by simp [here]) fun choice side => ?_
      rw [counter_modify inside, counter_of_known known, ← List.nil_append [c],
        Credit.amountFor_append_singleton]
      simp [Credit.amountFor, Credit.isFor, here]
    · rintro _ same
      cases call.symm.trans same
      exact inside
  · cases used.symm.trans done
    refine ⟨sizedIn_insert fun ts' known' => ?_, .inr ⟨c, call, outside, ?_, rfl⟩⟩
    · cases known.symm.trans known'
      rfl
    · refine raisedBy_insert (List.forall_mem_nil _) fun choice side => ?_
      rw [counter_of_known known]
      exact (UInt64.add_zero _).symm

theorem onDemand_stable :
    onDemand.Stable SizedIn Vouches
      fun r s ts => ∃ ts', r.states[s]? = some ts' ∧ ts'.length = ts.length where
  refl := SizedIn.refl
  trans := SizedIn.trans
  vouches_mono := Vouches.mono
  saw_mono := by
    rintro r r' s ts sized ⟨ts', known, same⟩
    obtain ⟨ts'', known', same'⟩ := sized s ts' known
    exact ⟨ts'', known', same'.trans same⟩
  read {r s ts} known := ⟨ts, known, rfl⟩
  call r s call := ⟨nofun, nofun, nofun⟩
  serve {r v r' standing} serves passed vouched := by
    cases serves with
    | hit | miss | late => exact ⟨.refl r, nofun, nofun, nofun⟩
    | refuse missed unknown refused =>
      simp only [onDemand, initialise_of_unknown (contains_eq_false.mp unknown)] at refused
      split at refused
      · next crowded =>
        cases refused
        refine ⟨.refl r, nofun, nofun, ?_⟩
        rintro _ _ ⟨⟩
        exact .inl ⟨rfl, rfl, crowded⟩
      · cases (Prod.mk.inj refused).2
    | enter missed unknown entered =>
      have absent := contains_eq_false.mp unknown
      simp only [onDemand, initialise_of_unknown absent] at entered
      split at entered
      · cases entered
      · obtain ⟨rfl, -⟩ := Prod.mk.inj entered
        refine ⟨sizedIn_enter absent _, fun _ => ⟨.ofCount v.call.count, ?_, ?_⟩, nofun, nofun⟩
        · exact Std.HashMap.getElem?_insert_self
        · exact List.length_replicate
    | answer initialised used =>
      obtain ⟨ts, there⟩ := contains_eq_true.mp (passed (by rw [initialised]; rfl))
      obtain ⟨sized, ⟨-, -, inside⟩ | ⟨_, -, -, -, fault⟩⟩ := use_spec there used
      · obtain ⟨ts', there', same⟩ := sized _ ts there
        refine ⟨sized, fun made => (vouched.mono sized).created (by rw [initialised]; exact made), ?_, nofun⟩
        exact fun c made => ⟨ts', there', same.symm ▸ inside c made⟩
      · cases fault
    | fail initialised used =>
      obtain ⟨ts, there⟩ := contains_eq_true.mp (passed (by rw [initialised]; rfl))
      obtain ⟨sized, ⟨done, -⟩ | ⟨c, call, outside, -, fault⟩⟩ := use_spec there used
      · cases done
      · obtain ⟨ts', there', same⟩ := sized _ ts there
        refine ⟨sized, fun made => (vouched.mono sized).created (by rw [initialised]; exact made), nofun, ?_⟩
        rintro _ _ ⟨⟩
        cases fault
        exact .inr ⟨c, ts', call, there', same.symm ▸ outside, by rw [same]⟩

theorem raisedBy_of_serves {standing : Standing Unit} (serves : onDemand.Serves r v r' standing)
    (passed : v.standing.passed = true → r.contains v.state = true) :
    made? v = none ∧ r.RaisedBy (made? { v with standing }).toList r' := by
  cases serves with
  | hit before | miss before | late before | refuse before =>
    exact ⟨by simp only [made?, before], .refl r⟩
  | enter before unknown entered =>
    have absent := contains_eq_false.mp unknown
    simp only [onDemand, initialise_of_unknown absent] at entered
    split at entered
    · cases entered
    · obtain ⟨rfl, -⟩ := Prod.mk.inj entered
      exact ⟨by simp only [made?, before], raisedBy_enter absent _⟩
  | answer before used =>
    obtain ⟨ts, there⟩ := contains_eq_true.mp (passed (by rw [before]; rfl))
    obtain ⟨-, ⟨-, raised, -⟩ | ⟨_, -, -, -, fault⟩⟩ := use_spec there used
    · exact ⟨by simp only [made?, before], raised⟩
    · cases fault
  | fail before used =>
    obtain ⟨ts, there⟩ := contains_eq_true.mp (passed (by rw [before]; rfl))
    obtain ⟨-, ⟨done, -⟩ | ⟨_, -, -, raised, -⟩⟩ := use_spec there used
    · cases done
    · exact ⟨by simp only [made?, before], raised⟩

-- ---------------------------------------------------------------------------
-- Any number of steps
-- ---------------------------------------------------------------------------

theorem raisedBy_of_leadsTo (counted : onDemand.Counted r now) (further : onDemand.LeadsTo now later) :
    ∃ added, (made later).Perm (made now ++ added) ∧ now.store.RaisedBy added later.store := by
  induction further with
  | refl => exact ⟨[], by simp, .refl _⟩
  | @tail middle after before step ih =>
    obtain ⟨added, all, raised⟩ := ih
    cases step with
    | serve place there served =>
      have passed := (counted.leadsTo onDemand_lawful before).passed _ (List.mem_of_getElem? there)
      obtain ⟨standing, rfl, serves⟩ := onDemand_lawful.serves served
      obtain ⟨unmade, raised'⟩ := raisedBy_of_serves serves passed
      refine ⟨_, ?_, raised.trans raised'⟩
      rw [← List.append_assoc]
      exact (filterMap_set_perm there unmade _).trans (all.append_right _)
    | read => exact ⟨added, all, raised⟩

/-- What visits from a start have come to: entries keep their numbers of counters, a state that was
unknown has as many as the only visit asked for that entered it, once a visit has passed at all, and
all counters are raised by the additions that were made. -/
structure FirstWins (r : Rewards) (now : Visits Rewards Tallies Call Unit) : Prop where
  kept : ∀ (s : State) ts, r.states[s]? = some ts →
    (∃ ts', now.store.states[s]? = some ts' ∧ ts'.length = ts.length) ∧ now.creators s = []
  entered : ∀ s : State, r.states[s]? = none →
    (now.store.states[s]? = none ∧ now.creators s = [] ∧
      ∀ v ∈ now.visits, v.state = s → v.standing.passed = false) ∨
    ∃ v ts, now.creators s = [v] ∧ now.store.states[s]? = some ts ∧ ts.length = v.call.count
  counters : r.RaisedBy (made now) now.store
  visits : ∀ v ∈ now.visits, Vouches now.store v
  reads : ∀ s ts, (s, some ts) ∈ now.reads →
    ∃ ts', now.store.states[s]? = some ts' ∧ ts'.length = ts.length

theorem firstWins (steps : onDemand.LeadsTo (.start r calls) now) : r.FirstWins now := by
  obtain ⟨counted, sized, sound, -⟩ := onDemand_stable.from_start onDemand_lawful steps
  refine ⟨fun s ts known => ⟨sized s ts known, ?_⟩, fun s unknown => ?_, ?_, sound.visits, sound.reads⟩
  · exact counted.creators_of_known (contains_eq_true.mpr ⟨ts, known⟩)
  · obtain ⟨still, none, waiting⟩ | ⟨v, hv, only, rfl, created⟩ :=
      counted.creators_of_unknown (contains_eq_false.mpr unknown)
    · exact .inl ⟨contains_eq_false.mp still, none, waiting⟩
    · obtain ⟨ts, known, length⟩ := (sound.visits v hv).created created
      exact .inr ⟨v, ts, only, known, length⟩
  · obtain ⟨added, all, raised⟩ := raisedBy_of_leadsTo (.start r calls) steps
    have none : made (.start r calls) = [] := by
      refine List.filterMap_eq_nil_iff.mpr fun v hv => ?_
      obtain ⟨_, -, rfl⟩ := List.mem_map.mp hv
      rfl
    rw [none, List.nil_append] at all
    intro s choice side
    rw [Credit.amountFor_perm all]
    exact raised s choice side

end Rewards

end SchedulerLearning
