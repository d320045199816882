import SchedulerLearning.Model.RandomWalk
import SchedulerLearning.Proofs.Outcome
import SchedulerLearning.Proofs.Probabilities
import SchedulerLearning.Proofs.ReachableStates

/-!
# Random walks stay within their bounds

In exact arithmetic, whatever is drawn, chosen and sampled: every variable of a walk stays between
zero and the maximum. In every state that is come to, all choices are found. A move changes one
variable by one, and reflects at both ends; a jump assigns one variable a value above zero.
-/

namespace SchedulerLearning

open SchedulerLearning.Random (Source)

namespace RandomWalk

variable {s next : State} {i j n : Nat} {max value : Int} {jump : Jump Rat} {branches : Distribution Rat}
  {w : RandomWalk Rat}

-- ---------------------------------------------------------------------------
-- Bounds
-- ---------------------------------------------------------------------------

/-- Whether there are so many variables, each between zero and the maximum. -/
structure InBox (n : Nat) (max : Int) (s : State) : Prop where
  length : s.vars.length = n
  within : ∀ x ∈ s.vars, 0 ≤ x ∧ x ≤ max

structure Assigns (n : Nat) (max : Int) (a : Assignment) : Prop where
  var : a.var < n
  low : 1 ≤ a.value
  high : a.value ≤ max

structure Fits (n : Nat) (max : Int) (jump : Jump Rat) : Prop where
  guarded : jump.guardVar < n
  chance : 0 ≤ jump.p ∧ jump.p ≤ 1
  above : Assigns n max jump.above.1 ∧ Assigns n max jump.above.2
  below : Assigns n max jump.below.1 ∧ Assigns n max jump.below.2

theorem InBox.set (hs : InBox n max s) (moved : next.vars = s.vars.set i value) (low : 0 ≤ value)
    (high : value ≤ max) : InBox n max next where
  length := by rw [moved, List.length_set, hs.length]
  within := by
    intro x there
    rw [moved] at there
    rcases List.mem_or_eq_of_mem_set there with before | rfl
    · exact hs.within x before
    · exact ⟨low, high⟩

theorem InBox.get (hs : InBox n max s) (inside : j < n) :
    ∃ x, s.vars[j]? = some x ∧ s.get j = .ok x ∧ 0 ≤ x ∧ x ≤ max := by
  have inside : j < s.vars.length := inside.trans_eq hs.length.symm
  have there : s.vars[j]? = some s.vars[j] := List.getElem?_eq_getElem inside
  exact ⟨_, there, State.get_eq_ok.mpr there, hs.within _ (List.getElem_mem inside)⟩

theorem InBox.exists_set (hs : InBox n max s) (inside : j < n) (value : Int) :
    ∃ next, s.set j value = .ok next ∧ next.vars = s.vars.set j value :=
  State.exists_set value (inside.trans_eq hs.length.symm)

-- ---------------------------------------------------------------------------
-- Moves
-- ---------------------------------------------------------------------------

inductive Steps (max : Int) (s : State) (j : Nat) : State → Prop
  | up {x next} (there : s.vars[j]? = some x) (low : 0 ≤ x) (room : x < max)
      (moved : next.vars = s.vars.set j (x + 1)) : Steps max s j next
  | down {x next} (there : s.vars[j]? = some x) (high : x ≤ max) (room : 0 < x)
      (moved : next.vars = s.vars.set j (x - 1)) : Steps max s j next

theorem Steps.inBox (h : Steps max s j next) (hs : InBox n max s) : InBox n max next := by
  cases h with
  | up _ low room moved => exact hs.set moved (by omega) (by omega)
  | down _ high room moved => exact hs.set moved (by omega) (by omega)

/-- Whether branches are a distribution over steps of one variable. -/
structure IsMove (max : Int) (s : State) (j : Nat) (branches : Distribution Rat) : Prop where
  distribution : IsDistribution (branches.map Prod.fst)
  steps : ∀ b ∈ branches, Steps max s j b.2

/-- A variable at an end moves away from it. -/
theorem move_spec (pos : 1 ≤ max) (word : max < 0x8000000000000000) (hs : InBox n max s) (inside : j < n) :
    ∃ branches, move max s j = .ok branches ∧ IsMove max s j branches := by
  obtain ⟨x, there, found, low, high⟩ := hs.get inside
  obtain ⟨upper, raise, raised⟩ := hs.exists_set inside (x + 1)
  obtain ⟨lower, sink, sunk⟩ := hs.exists_set inside (x - 1)
  have up : x < max → Steps max s j upper := fun room => .up there low room raised
  have down : 0 < x → Steps max s j lower := fun room => .down there high room sunk
  unfold move
  rw [found]
  by_cases least : x ≤ 0
  · have sum := Word.addSigned_of_inRange (a := x) (b := 1) ⟨by omega, by omega⟩
    refine ⟨[(1, upper)], ?_, ⟨by simp, by simp⟩, ?_⟩
    · simp [lift_ok_bind, least, sum, raise, pure, Except.pure]
    · simpa using up (by omega)
  · have difference := Word.subSigned_of_inRange (a := x) (b := 1) ⟨by omega, by omega⟩
    by_cases most : max ≤ x
    · refine ⟨[(1, lower)], ?_, ⟨by simp, by simp⟩, ?_⟩
      · simp [lift_ok_bind, least, most, difference, sink, pure, Except.pure]
      · simpa using down (by omega)
    · have sum := Word.addSigned_of_inRange (a := x) (b := 1) ⟨by omega, by omega⟩
      have halves : IsDistribution [(0.5 : Rat), 0.5] := .pair (by norm_num) (by norm_num) (by norm_num)
      refine ⟨[(0.5, upper), (0.5, lower)], ?_, halves, ?_⟩
      · simp [lift_ok_bind, least, most, sum, difference, raise, sink, pure, Except.pure]
      · simpa using ⟨up (by omega), down (by omega)⟩

theorem movesFrom_spec (pos : 1 ≤ max) (word : max < 0x8000000000000000) (hs : InBox n max s) {count : Nat}
    (all : j + count ≤ n) :
    ∃ moves, movesFrom max s j count = .ok moves ∧ moves.length = count ∧
      ∀ i branches, moves[i]? = some branches → IsMove max s (j + i) branches := by
  induction count generalizing j with
  | zero => exact ⟨[], rfl, rfl, by simp⟩
  | succ count ih =>
    obtain ⟨first, found, move⟩ := move_spec pos word hs (j := j) (by omega)
    obtain ⟨others, rest, length, moves⟩ := ih (j := j + 1) (by omega)
    refine ⟨first :: others, ?_, by simp [length], ?_⟩
    · simp only [movesFrom, found, rest, bind, Except.bind]
      rfl
    · intro i branches there
      cases i with
      | zero =>
        cases there
        exact move
      | succ i =>
        rw [← Nat.add_assoc, Nat.add_right_comm]
        exact moves i branches there

-- ---------------------------------------------------------------------------
-- Jumps
-- ---------------------------------------------------------------------------

structure IsLeap (n : Nat) (max : Int) (s : State) (branches : Distribution Rat) : Prop where
  distribution : IsDistribution (branches.map Prod.fst)
  assigns : ∀ b ∈ branches, ∃ a, Assigns n max a ∧ b.2.vars = s.vars.set a.var a.value

theorem IsLeap.inBox (h : IsLeap n max s branches) (hs : InBox n max s) :
    ∀ b ∈ branches, InBox n max b.2 := by
  intro b there
  obtain ⟨a, assigns, moved⟩ := h.assigns b there
  have low := assigns.low
  exact hs.set moved (by omega) assigns.high

theorem leap_spec (hs : InBox n max s) (fits : Fits n max jump) :
    ∃ branches, leap s jump = .ok branches ∧ IsLeap n max s branches := by
  obtain ⟨x, -, found, -, -⟩ := hs.get fits.guarded
  obtain ⟨first, second, taken, hf, hsec⟩ : ∃ first second,
      (if jump.bound < x then jump.above else jump.below) = (first, second) ∧
        Assigns n max first ∧ Assigns n max second := by
    split
    · exact ⟨_, _, rfl, fits.above⟩
    · exact ⟨_, _, rfl, fits.below⟩
  obtain ⟨one, assign, moved⟩ := hs.exists_set hf.var first.value
  obtain ⟨other, assign', moved'⟩ := hs.exists_set hsec.var second.value
  obtain ⟨low, high⟩ := fits.chance
  have chances : IsDistribution [jump.p, 1 - jump.p] :=
    .pair low (sub_nonneg.mpr high) (add_sub_cancel _ _)
  have accepted := Distribution.check_of_isDistribution (d := [(jump.p, one), (1 - jump.p, other)]) s chances
  refine ⟨[(jump.p, one), (1 - jump.p, other)], ?_, chances, ?_⟩
  · unfold leap
    simp only [found, lift_ok_bind, taken, assign, assign', accepted]
    rfl
  · simpa using ⟨⟨first, hf, moved⟩, second, hsec, moved'⟩

-- ---------------------------------------------------------------------------
-- Reachable states
-- ---------------------------------------------------------------------------

structure Valid (w : RandomWalk Rat) : Prop where
  pos : 1 ≤ w.max
  word : w.max < 0x8000000000000000
  jumps : ∀ jump ∈ w.jumps, Fits w.vars w.max jump

theorem offers_spec (hw : w.Valid) (hs : InBox w.vars w.max s) :
    ∃ moves leaps, w.process.offers s = .ok (moves ++ leaps) ∧ moves.length = w.vars ∧
      leaps.length = w.jumps.length ∧
      (∀ j branches, moves[j]? = some branches → IsMove w.max s j branches) ∧
      ∀ branches ∈ leaps, IsLeap w.vars w.max s branches := by
  obtain ⟨moves, moved, count, each⟩ :=
    movesFrom_spec (j := 0) hw.pos hw.word hs (Nat.zero_add _).le
  obtain ⟨leaps, leapt, length, others⟩ :=
    exists_mapM_eq_ok (f := leap s) fun jump there => leap_spec hs (hw.jumps jump there)
  refine ⟨moves, leaps, ?_, count, length, ?_, others⟩
  · simp only [process, moved, leapt, bind, Except.bind]
    rfl
  · intro j branches there
    rw [← Nat.zero_add j]
    exact each j branches there

theorem inBox_of_reachable (hw : w.Valid) (reached : w.process.Reachable s) : InBox w.vars w.max s := by
  induction reached with
  | initial start =>
    obtain ⟨-, -, start⟩ := bind_eq_ok.mp start
    cases pure_eq_ok.mp start
    have pos := hw.pos
    refine ⟨by simp [origin, State.ofVars], fun x there => ?_⟩
    cases List.eq_of_mem_replicate there
    omega
  | step reached offered choice branch ih =>
    obtain ⟨moves, leaps, found, -, -, each, others⟩ := offers_spec hw ih
    rw [offered] at found
    cases found
    rcases List.mem_append.mp choice with move | leap
    · obtain ⟨j, there⟩ := List.mem_iff_getElem?.mp move
      exact ((each j _ there).steps _ branch).inBox ih
    · exact (others _ leap).inBox ih _ branch

-- ---------------------------------------------------------------------------
-- Draws
-- ---------------------------------------------------------------------------

/-- Whether a source draws numbers of the ranges that it is asked for. -/
structure DrawsInRange {ρ : Type} (source : Source ρ Rat) : Prop where
  unit : ∀ r, 0 ≤ (source.unit r).1 ∧ (source.unit r).1 < 1
  upTo : ∀ last r, (source.upTo last r).1 ≤ last

section
variable {ρ : Type} {source : Source ρ Rat} {count : Nat}

theorem DrawsInRange.value_mem (h : DrawsInRange source) (pos : 1 ≤ max) (r : ρ) :
    1 ≤ (drawValue source max r).1 ∧ (drawValue source max r).1 ≤ max := by
  have drawn : (drawValue source max r).1 = 1 + ((source.upTo (max - 1).toNat r).1 : Int) := rfl
  have offset := h.upTo (max - 1).toNat r
  omega

theorem DrawsInRange.var_lt (h : DrawsInRange source) (some : 0 < n) (r : ρ) :
    (source.upTo (n - 1) r).1 < n := by
  have drawn := h.upTo (n - 1) r
  omega

theorem DrawsInRange.assigns (h : DrawsInRange source) (some : 0 < n) (pos : 1 ≤ max) (r : ρ) :
    Assigns n max (drawAssignment source n max r).1 := by
  obtain ⟨low, high⟩ := h.value_mem pos (source.upTo (n - 1) r).2
  exact ⟨h.var_lt some r, low, high⟩

theorem DrawsInRange.fits (h : DrawsInRange source) (some : 0 < n) (pos : 1 ≤ max) (r : ρ) :
    Fits n max (drawJump source n max r).1 where
  guarded := h.var_lt some r
  chance := ⟨(h.unit _).1, (h.unit _).2.le⟩
  above := ⟨h.assigns some pos _, h.assigns some pos _⟩
  below := ⟨h.assigns some pos _, h.assigns some pos _⟩

theorem DrawsInRange.jumps (h : DrawsInRange source) (some : 0 < n) (pos : 1 ≤ max) (r : ρ) :
    (drawJumps source n max count r).1.length = count ∧
      ∀ jump ∈ (drawJumps source n max count r).1, Fits n max jump := by
  induction count generalizing r with
  | zero => exact ⟨rfl, by simp [drawJumps]⟩
  | succ count ih =>
    obtain ⟨length, fits⟩ := ih (drawJump source n max r).2
    exact ⟨congrArg Nat.succ length, List.forall_mem_cons.mpr ⟨h.fits some pos r, fits⟩⟩

theorem ofSource_eq_ok {r : ρ} : ofSource source n max count r = .ok w ↔
    ¬(n = 0 ∨ max < 1) ∧ count ≤ Room.most 88 ∧ w = ⟨n, max, (drawJumps source n max count r).1⟩ := by
  unfold ofSource
  refine refusing_eq_ok.trans (and_congr_right fun _ => ?_)
  unfold Room.claim
  split
  · next full => exact iff_of_false nofun fun h => (Nat.not_le.mpr full) h.1
  · next room => exact pure_eq_ok.trans (and_iff_right (Nat.not_lt.mp room)).symm

theorem DrawsInRange.valid {r : ρ} (h : DrawsInRange source) (word : max < 0x8000000000000000)
    (drawn : ofSource source n max count r = .ok w) :
    w.Valid ∧ w.vars = n ∧ w.max = max ∧ w.jumps.length = count := by
  obtain ⟨proper, -, rfl⟩ := ofSource_eq_ok.mp drawn
  obtain ⟨some, pos⟩ := not_or.mp proper
  have pos : 1 ≤ max := not_lt.mp pos
  obtain ⟨length, fits⟩ := h.jumps (Nat.pos_of_ne_zero some) pos r
  exact ⟨⟨pos, word, fits⟩, rfl, rfl, length⟩

end

theorem reachable_origin (room : w.vars ≤ Room.most 8) : w.process.Reachable w.origin := by
  refine .initial ?_
  have claimed : Room.claim 8 w.vars = .ok () := if_neg (Nat.not_lt.mpr room)
  simp only [process, claimed]
  rfl

/-- In exact arithmetic, for every number of variables and jumps and every maximum that is a signed
word, whatever numbers in range are drawn: there is a walk as long as there is room for its jumps, and
it starts with all variables at zero as long as there is room for them. In every state that it comes
to, all variables are between zero and the maximum, and the choices are found: one for each variable,
all branches of which change that variable by one and no other, then one for each jump, all branches
of which assign one variable a value above zero. All of them are distributions. -/
theorem stays_in_box {ρ : Type} (source : Source ρ Rat) (inRange : DrawsInRange source) (vars jumps : Nat)
    (max : Int) (r : ρ) (nonempty : 1 ≤ vars) (pos : 1 ≤ max) (word : max < 0x8000000000000000) :
    ((∃ w, ofSource source vars max jumps r = .ok w) ↔ jumps ≤ Room.most 88) ∧
    ∀ w, ofSource source vars max jumps r = .ok w →
      w.origin = .ofVars (List.replicate vars 0) ∧
      (vars ≤ Room.most 8 → w.process.Reachable w.origin) ∧
      ∀ s, w.process.Reachable s → s.vars.length = vars ∧ (∀ x ∈ s.vars, 0 ≤ x ∧ x ≤ max) ∧
        ∃ offers, w.process.offers s = .ok offers ∧ offers.length = vars + jumps ∧
          (∀ branches ∈ offers, IsDistribution (branches.map Prod.fst)) ∧
          (∀ j < vars, ∃ branches x, offers[j]? = some branches ∧ s.vars[j]? = some x ∧
            ∀ b ∈ branches, b.2.vars = s.vars.set j (x + 1) ∨ b.2.vars = s.vars.set j (x - 1)) ∧
          ∀ j branches, vars ≤ j → offers[j]? = some branches → ∀ b ∈ branches,
            ∃ var < vars, ∃ value, 1 ≤ value ∧ value ≤ max ∧ b.2.vars = s.vars.set var value := by
  refine ⟨?_, fun w drawn => ?_⟩
  · simp only [ofSource_eq_ok, exists_and_left, exists_eq, and_true]
    exact and_iff_right (by omega)
  obtain ⟨valid, rfl, rfl, count⟩ := inRange.valid word drawn
  refine ⟨rfl, reachable_origin, fun s reached => ?_⟩
  have box := inBox_of_reachable valid reached
  obtain ⟨moves, leaps, found, moved, leapt, each, others⟩ := offers_spec valid box
  refine ⟨box.length, box.within, moves ++ leaps, found, by simp [moved, leapt, count], ?_, ?_, ?_⟩
  · intro branches there
    rcases List.mem_append.mp there with move | leap
    · obtain ⟨j, there⟩ := List.mem_iff_getElem?.mp move
      exact (each j _ there).distribution
    · exact (others _ leap).distribution
  · intro j inside
    have inside : j < moves.length := inside.trans_eq moved.symm
    have there : moves[j]? = some moves[j] := List.getElem?_eq_getElem inside
    obtain ⟨x, value, -⟩ := box.get (inside.trans_eq moved)
    refine ⟨moves[j], x, (List.getElem?_append_left inside).trans there, value, fun b branch => ?_⟩
    cases (each j _ there).steps b branch with
    | up here _ _ next =>
      cases value.symm.trans here
      exact .inl next
    | down here _ _ next =>
      cases value.symm.trans here
      exact .inr next
  · intro j branches beyond there b branch
    rw [List.getElem?_append_right (moved.trans_le beyond)] at there
    obtain ⟨a, assigns, next⟩ := (others _ (List.mem_of_getElem? there)).assigns b branch
    exact ⟨a.var, assigns.var, a.value, assigns.low, assigns.high, next⟩

def largest : Source Unit Rat := ⟨fun _ => (1 / 2, ()), fun last _ => (last, ())⟩

/-- A walk that jumps to the largest signed word: its second variable can only go down again. -/
theorem stays_in_box_at_largest :
    ∃ w, ofSource largest 2 9223372036854775807 1 () = .ok w ∧
      w.process.Reachable (.ofVars [0, 9223372036854775807]) ∧
      ∃ offers branches, w.process.offers (.ofVars [0, 9223372036854775807]) = .ok offers ∧
        offers.length = 3 ∧ offers[1]? = some branches ∧
        ∀ b ∈ branches, b.2.vars = [0, 9223372036854775806] := by
  have inRange : DrawsInRange largest := ⟨fun _ => by norm_num [largest], fun _ _ => le_rfl⟩
  obtain ⟨built, all⟩ := stays_in_box largest inRange 2 1 9223372036854775807 () (by decide) (by decide)
    (by decide)
  obtain ⟨w, drawn⟩ := built.mpr (by decide)
  obtain ⟨origin, started, stays⟩ := all w drawn
  have top : w.process.Reachable (.ofVars [0, 9223372036854775807]) := by
    refine (started (by decide)).of_any ?_
    obtain ⟨-, -, rfl⟩ := ofSource_eq_ok.mp drawn
    decide +kernel
  obtain ⟨-, -, offers, found, count, -, moves, -⟩ := stays _ top
  obtain ⟨branches, x, there, value, changed⟩ := moves 1 (by decide)
  refine ⟨w, drawn, top, offers, branches, found, count, there, fun b branch => ?_⟩
  -- What it leads to is in the box as well.
  obtain ⟨-, within, -⟩ := stays b.2 (.step top found (List.mem_of_getElem? there) branch)
  cases value
  rcases changed b branch with up | down
  · exact absurd (within 9223372036854775808 (by simp [up, State.ofVars])).2 (by decide)
  · exact down

end RandomWalk

end SchedulerLearning
