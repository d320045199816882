import SchedulerLearning.Learning.Attribution
import Mathlib.Algebra.GroupWithZero.Nat
import Mathlib.Data.List.Basic

/-!
# How rewards grow

Additions raise the counters of the choices that they are for by the sum of their amounts, modulo
the size of a word, whatever the rewards held before. States that nothing is added to keep their
entries. Where room is asked for, additions end at the first one to an unknown state with more
choices than there can be counters for.
-/

namespace SchedulerLearning

namespace Credit

variable {cs ds : List Credit} {c : Credit} {s : State} {choice : Nat} {satisfied : Bool}

/-- Whether credits are for choices that are there, of states that have one number of them. -/
structure Agree (cs : List Credit) : Prop where
  inRange : ∀ c ∈ cs, c.choice < c.offered
  offered : ∀ c ∈ cs, ∀ d ∈ cs, c.state = d.state → c.offered = d.offered

theorem Agree.mono (h : Agree ds) (part : cs ⊆ ds) : Agree cs :=
  ⟨fun c hc => h.inRange c (part hc), fun c hc d hd => h.offered c (part hc) d (part hd)⟩

def isFor (c : Credit) (s : State) (choice : Nat) (satisfied : Bool) : Bool :=
  c.state == s && c.choice == choice && c.satisfied == satisfied

def amountFor (cs : List Credit) (s : State) (choice : Nat) (satisfied : Bool) : Nat :=
  ((cs.filter (·.isFor s choice satisfied)).map Credit.amount).sum

theorem isFor_of_ne (h : c.state ≠ s) : c.isFor s choice satisfied = false := by simp [isFor, h]

theorem amountFor_append_singleton :
    amountFor (cs ++ [c]) s choice satisfied = amountFor cs s choice satisfied +
      if c.isFor s choice satisfied then c.amount else 0 := by
  cases h : c.isFor s choice satisfied <;> simp [amountFor, List.filter_append, h]

end Credit

def Tally.counter (t : Tally) (satisfied : Bool) : UInt64 := if satisfied then t.satisfied else t.failed

theorem Tally.counter_add {t : Tally} {satisfied side : Bool} {amount : Nat} :
    (t.add satisfied amount).counter side =
      t.counter side + .ofNat (if satisfied = side then amount else 0) := by
  cases satisfied <;> cases side <;> simp [Tally.add, Tally.counter]

def Tallies.counter (ts : Tallies) (choice : Nat) (satisfied : Bool) : UInt64 :=
  (ts[choice]?.getD {}).counter satisfied

namespace Rewards

def counter (r : Rewards) (s : State) (choice : Nat) (satisfied : Bool) : UInt64 :=
  ((r.counts? s choice).getD {}).counter satisfied

/-- Whether a state is unknown and there is no room for counters of so many choices. -/
def Crowded (r : Rewards) (s : State) (offered : Nat) : Prop :=
  r.states[s]? = none ∧ Room.most 16 < offered

/-- Whether credits agree with each other and with the counters that are there. -/
structure Admits (r : Rewards) (cs : List Credit) : Prop where
  agree : Credit.Agree cs
  known : ∀ c ∈ cs, ∀ ts, r.states[c.state]? = some ts → ts.length = c.offered

structure GrowsBy (r : Rewards) (cs : List Credit) (r' : Rewards) : Prop where
  counter : ∀ s choice satisfied, r'.counter s choice satisfied =
    r.counter s choice satisfied + .ofNat (Credit.amountFor cs s choice satisfied)
  entered : ∀ c ∈ cs, ∃ ts, r'.states[c.state]? = some ts ∧ ts.length = c.offered
  others : ∀ s : State, (∀ c ∈ cs, c.state ≠ s) → r'.states[s]? = r.states[s]?

variable {r r₁ r₂ : Rewards} {cs ds : List Credit} {c : Credit} {s t : State} {choice i : Nat}
  {satisfied side : Bool} {ts : Tallies}

-- ---------------------------------------------------------------------------
-- Counters
-- ---------------------------------------------------------------------------

theorem contains_eq : r.contains s = (r.states[s]?).isSome :=
  Std.HashMap.contains_eq_isSome_getElem?

theorem contains_eq_true : r.contains s = true ↔ ∃ ts, r.states[s]? = some ts := by
  rw [contains_eq, Option.isSome_iff_exists]

theorem contains_eq_false : r.contains s = false ↔ r.states[s]? = none := by
  rw [contains_eq, Option.isSome_eq_false_iff, Option.isNone_iff_eq_none]

theorem counter_of_known (known : r.states[s]? = some ts) :
    r.counter s choice side = ts.counter choice side := by
  simp only [counter, counts?, known, Option.bind_some, Tallies.counter]

theorem counter_of_unknown (unknown : r.states[s]? = none) : r.counter s choice side = 0 := by
  cases side <;> simp [counter, counts?, unknown, Tally.counter]

theorem counter_insert : counter ⟨r.states.insert t ts⟩ s choice side =
    if t == s then ts.counter choice side else r.counter s choice side := by
  unfold counter counts? Tallies.counter
  rw [Std.HashMap.getElem?_insert]
  split <;> rfl

theorem counter_eq (count : Nat) :
    r.counter s choice side = (r.states[s]?.getD (.ofCount count)).counter choice side := by
  cases known : r.states[s]? with
  | some ts => exact counter_of_known known
  | none =>
    by_cases inside : choice < count <;>
      simp [counter, counts?, known, Tallies.counter, Tallies.ofCount, inside]

theorem counter_modify (inside : i < ts.length) {amount : Nat} :
    Tallies.counter (ts.modify i (·.add satisfied amount)) choice side =
      ts.counter choice side + .ofNat (if i = choice ∧ satisfied = side then amount else 0) := by
  unfold Tallies.counter
  rw [List.getElem?_modify]
  by_cases here : i = choice
  · subst here
    simp [List.getElem?_eq_getElem inside, Tally.counter_add]
  · simp [here]

-- ---------------------------------------------------------------------------
-- One addition
-- ---------------------------------------------------------------------------

theorem Admits.mono (h : r.Admits ds) (part : cs ⊆ ds) : r.Admits cs :=
  ⟨h.agree.mono part, fun c there => h.known c (part there)⟩

theorem GrowsBy.refl (r : Rewards) : r.GrowsBy [] r := by
  constructor <;> simp [Credit.amountFor]

theorem GrowsBy.unknown (h : r.GrowsBy cs r₁) (unknown : r₁.states[s]? = none) :
    r.states[s]? = none ∧ ∀ c ∈ cs, c.state ≠ s := by
  have absent : ∀ c ∈ cs, c.state ≠ s := by
    rintro c there rfl
    obtain ⟨ts, known, -⟩ := h.entered c there
    cases unknown.symm.trans known
  exact ⟨(h.others s absent).symm.trans unknown, absent⟩

theorem GrowsBy.contains_iff (h : r.GrowsBy cs r₁) :
    r₁.contains s ↔ r.contains s ∨ ∃ c ∈ cs, c.state = s := by
  simp only [contains_eq]
  by_cases credited : ∃ c ∈ cs, c.state = s
  · have entered : (r₁.states[s]?).isSome := by
      obtain ⟨c, there, rfl⟩ := credited
      obtain ⟨ts, known, -⟩ := h.entered c there
      rw [known, Option.isSome_some]
    exact iff_of_true entered (.inr credited)
  · rw [h.others s fun c there same => credited ⟨c, there, same⟩]
    exact (or_iff_left credited).symm

theorem GrowsBy.length_known (h : r.GrowsBy cs r₁) (admits : r.Admits (cs ++ [c])) :
    (r₁.states[c.state]?.getD (.ofCount c.offered)).length = c.offered := by
  by_cases credited : ∃ d ∈ cs, d.state = c.state
  · obtain ⟨d, there, same⟩ := credited
    obtain ⟨ts, known, length⟩ := h.entered d there
    rw [← same, known, Option.getD_some, length]
    exact admits.agree.offered d (by simp [there]) c (by simp) same
  · have absent : ∀ d ∈ cs, d.state ≠ c.state := fun d there same => credited ⟨d, there, same⟩
    rw [h.others c.state absent]
    cases known : r.states[c.state]? with
    | none => simp [Tallies.ofCount]
    | some ts => exact admits.known c (by simp) ts known

theorem GrowsBy.insert (h : r.GrowsBy cs r₁) (admits : r.Admits (cs ++ [c]))
    (length : ts.length = c.offered)
    (counters : ∀ choice side, ts.counter choice side = r₁.counter c.state choice side +
      .ofNat (if c.choice = choice ∧ c.satisfied = side then c.amount else 0)) :
    r.GrowsBy (cs ++ [c]) ⟨r₁.states.insert c.state ts⟩ where
  counter s choice side := by
    rw [Credit.amountFor_append_singleton, UInt64.ofNat_add, ← UInt64.add_assoc, ← h.counter]
    rw [counter_insert]
    by_cases here : c.state = s
    · subst here
      simp [counters, Credit.isFor]
    · simp [here, Credit.isFor_of_ne here]
  entered d there := by
    by_cases here : c.state = d.state
    · refine ⟨ts, by simp [here], length.trans ?_⟩
      exact admits.agree.offered c (by simp) d there here
    · have before : d ∈ cs := by
        obtain before | last := List.mem_append.mp there
        · exact before
        · exact absurd (congrArg Credit.state (List.mem_singleton.mp last).symm) here
      simpa [Std.HashMap.getElem?_insert, here] using h.entered d before
  others s absent := by
    have other : c.state ≠ s := absent c (by simp)
    rw [← h.others s fun d there => absent d (by simp [there])]
    simp [Std.HashMap.getElem?_insert, other]

theorem GrowsBy.credit (h : r.GrowsBy cs r₁) (admits : r.Admits (cs ++ [c])) :
    ∃ r₂, r₁.credit c = (r₂, .ok ()) ∧ r.GrowsBy (cs ++ [c]) r₂ := by
  have length := h.length_known admits
  have inside : c.choice < (r₁.states[c.state]?.getD (.ofCount c.offered)).length := by
    rw [length]
    exact admits.agree.inRange c (by simp)
  refine ⟨⟨r₁.states.insert c.state ((r₁.states[c.state]?.getD (.ofCount c.offered)).modify c.choice
    (·.add c.satisfied c.amount))⟩, by simp only [Rewards.credit, Tallies.add, inside, if_true], ?_⟩
  refine h.insert admits (by rw [List.length_modify, length]) fun choice side => ?_
  rw [counter_modify inside, ← counter_eq]

theorem creditWithRoom_of_room (room : ¬r.Crowded c.state c.offered) :
    r.creditWithRoom c = r.credit c := by
  unfold creditWithRoom
  split
  · rfl
  · next new =>
    have unknown : r.states[c.state]? = none := contains_eq_false.mp (Bool.eq_false_iff.mpr new)
    have claimed : Tallies.claim c.offered = .ok () := if_neg fun many => room ⟨unknown, many⟩
    rw [claimed]

theorem creditWithRoom_of_crowded (crowded : r.Crowded c.state c.offered) :
    r.creditWithRoom c = (r, .error .capacity) := by
  obtain ⟨unknown, many⟩ := crowded
  have refused : Tallies.claim c.offered = .error .capacity := if_pos many
  have new : r.contains c.state = false := contains_eq_false.mpr unknown
  simp [creditWithRoom, new, refused]

theorem GrowsBy.creditWithRoom (h : r.GrowsBy cs r₁) (admits : r.Admits (cs ++ [c]))
    (room : ¬r.Crowded c.state c.offered) :
    ∃ r₂, r₁.creditWithRoom c = (r₂, .ok ()) ∧ r.GrowsBy (cs ++ [c]) r₂ := by
  have room₁ : ¬r₁.Crowded c.state c.offered :=
    fun ⟨unknown, many⟩ => room ⟨(h.unknown unknown).1, many⟩
  rw [creditWithRoom_of_room room₁]
  exact h.credit admits

-- ---------------------------------------------------------------------------
-- Any number of additions
-- ---------------------------------------------------------------------------

theorem GrowsBy.addAll {add : Rewards → Credit → Rewards × Except Fault Unit} (may : Credit → Prop)
    (step : ∀ {ds c r₁}, r.GrowsBy ds r₁ → r.Admits (ds ++ [c]) → may c →
      ∃ r₂, add r₁ c = (r₂, .ok ()) ∧ r.GrowsBy (ds ++ [c]) r₂)
    (h : r.GrowsBy ds r₁) (admits : r.Admits (ds ++ cs)) (each : ∀ c ∈ cs, may c) :
    ∃ r₂, addAll add r₁ cs = (r₂, .ok ()) ∧ r.GrowsBy (ds ++ cs) r₂ := by
  induction cs generalizing r₁ ds with
  | nil => exact ⟨r₁, rfl, by simpa using h⟩
  | cons c rest ih =>
    rw [List.append_cons] at admits ⊢
    obtain ⟨here, each⟩ := List.forall_mem_cons.mp each
    obtain ⟨r₂, first, h₂⟩ := step h (admits.mono (List.subset_append_left _ rest)) here
    obtain ⟨r₃, others, h₃⟩ := ih h₂ admits each
    refine ⟨r₃, ?_, h₃⟩
    rw [Rewards.addAll, first]
    exact others

theorem addAll_append {add : Rewards → Credit → Rewards × Except Fault Unit}
    (h : addAll add r cs = (r₁, .ok ())) : addAll add r (cs ++ ds) = addAll add r₁ ds := by
  induction cs generalizing r with
  | nil => cases h; rfl
  | cons c rest ih =>
    simp only [addAll] at h
    split at h
    · next next credited =>
      simp only [List.cons_append, addAll, credited]
      exact ih h
    · cases h

theorem GrowsBy.creditAll (h : r.GrowsBy ds r₁) (admits : r.Admits (ds ++ cs)) :
    ∃ r₂, r₁.creditAll cs = (r₂, .ok ()) ∧ r.GrowsBy (ds ++ cs) r₂ :=
  GrowsBy.addAll (fun _ => True) (fun h admits _ => h.credit admits) h admits fun _ _ => trivial

theorem creditAllWithRoom_grows (admits : r.Admits cs)
    (room : ∀ c ∈ cs, ¬r.Crowded c.state c.offered) :
    ∃ r', r.creditAllWithRoom cs = (r', .ok ()) ∧ r.GrowsBy cs r' :=
  GrowsBy.addAll (fun c => ¬r.Crowded c.state c.offered)
    (fun h admits room => h.creditWithRoom admits room) (.refl r) admits room

/-- The additions before the first one without room are made. -/
theorem creditAllWithRoom_crowded (admits : r.Admits (cs ++ c :: ds))
    (room : ∀ d ∈ cs, ¬r.Crowded d.state d.offered) (crowded : r.Crowded c.state c.offered) :
    ∃ r', r.creditAllWithRoom (cs ++ c :: ds) = (r', .error .capacity) ∧ r.GrowsBy cs r' := by
  obtain ⟨r', made, grown⟩ := creditAllWithRoom_grows (admits.mono (List.subset_append_left _ _)) room
  have absent : ∀ d ∈ cs, d.state ≠ c.state := by
    intro d there same
    have alike := admits.agree.offered d (by simp [there]) c (by simp) same
    exact room d there (by rwa [same, alike])
  have stuck : r'.Crowded c.state c.offered := ⟨(grown.others _ absent).trans crowded.1, crowded.2⟩
  refine ⟨r', ?_, grown⟩
  rw [creditAllWithRoom, addAll_append made, Rewards.addAll, creditWithRoom_of_crowded stuck]

end Rewards

end SchedulerLearning
