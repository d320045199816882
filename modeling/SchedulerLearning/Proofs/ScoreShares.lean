import SchedulerLearning.Proofs.UpdateRules

/-!
# The shares that scores give

In exact arithmetic, the score rule gives each choice a share by the true difference of its counters,
as long as no counter reaches `2 ^ 63`. There is room in a word for one counter that does. It is read
as a negative number, and the choice changes from one end of the order to the other.
-/

namespace SchedulerLearning

-- ---------------------------------------------------------------------------
-- Signed readings
-- ---------------------------------------------------------------------------

namespace Tally

variable {t u : Tally}

def margin (t : Tally) : Int := t.satisfied.toNat - t.failed.toNat

def InRange (t : Tally) : Prop :=
  t.satisfied.toNat < 0x8000000000000000 ∧ t.failed.toNat < 0x8000000000000000

instance : Decidable t.InRange := by
  unfold InRange
  infer_instance

theorem margin_eq_zero : t.margin = 0 ↔ t.satisfied = t.failed := by
  rw [margin, sub_eq_zero, Nat.cast_inj, UInt64.toNat_inj]

theorem reading_of_inRange (h : t.InRange) : t.reading = t.margin := by
  rw [reading, margin, Word.signed_eq, Word.signed_eq, if_pos h.1, if_pos h.2]

/-- Beside a choice with a counter out of range, every other one is on the wrong side. -/
theorem turned_over (outside : ¬t.InRange) (within : t.total + u.total < Word.size) :
    t.margin < u.margin ∧ u.reading < t.reading ∨ u.margin < t.margin ∧ t.reading < u.reading := by
  unfold InRange at outside
  unfold total Word.size at within
  unfold margin reading
  simp only [Word.signed_eq]
  split <;> split <;> split <;> split <;> omega

end Tally

namespace UpdateRule

-- ---------------------------------------------------------------------------
-- Shares
-- ---------------------------------------------------------------------------

section
variable {scores : List Int} {s t : Int}

theorem share_mono (h : s ≤ t) : share scores s ≤ share scores t := by
  refine div_le_div_of_nonneg_right (Int.cast_le.mpr ?_) (Int.cast_nonneg lifted_nonneg)
  exact Int.add_le_add_right h _

theorem lifted_pos (hs : s ∈ scores) (ht : t ∈ scores) (h : s < t) : 0 < lifted scores := by
  refine lt_of_le_of_ne lifted_nonneg fun none => ?_
  have zero := lifted_eq_zero.mp none.symm
  rw [zero s hs, zero t ht] at h
  exact h.false

theorem share_lt_share (hs : s ∈ scores) (ht : t ∈ scores) (h : s < t) :
    share scores s < share scores t := by
  refine div_lt_div_of_pos_right (Int.cast_lt.mpr ?_) (Int.cast_pos.mpr (lifted_pos hs ht h))
  exact Int.add_lt_add_right h _

theorem share_of_single (some : s ≠ 0) : share [s] s = 1 := by
  have only : lifted [s] = s + shift [s] := by simp [lifted]
  have positive : lifted [s] ≠ 0 := mt lifted_eq_zero.mp (by simpa using some)
  rw [share, ← only, div_self (Int.cast_ne_zero.mpr positive)]

end

def scored (history : Rat) (old : List Rat) (scores : List Int) : List Rat :=
  List.zipWith (fun p s => history * p + (1 - history) * share scores s) old scores

section
variable {w : UpdateWeights Rat} {history : Rat} {old new : List Rat} {rewards : Tallies}

theorem blend_shares (scores : List Int) :
    blend history old (scores.map (share scores)) = scored history old scores := by
  rw [blend, scored, List.zipWith_map_right]

theorem scored_one {scores : List Int} (same : scores.length = old.length) : scored 1 old scores = old := by
  refine List.ext_getElem (by simp [scored, same]) fun i _ _ => ?_
  simp [scored]

theorem blend_inj {first second : List Rat} (some : history ≠ 1) (hf : first.length = old.length)
    (hs : second.length = old.length) : blend history old first = blend history old second ↔
      first = second := by
  refine ⟨fun h => ?_, fun h => h ▸ rfl⟩
  induction old generalizing first second with
  | nil => rw [List.length_eq_zero_iff.mp hf, List.length_eq_zero_iff.mp hs]
  | cons p old ih =>
    obtain ⟨q, first, rfl⟩ := List.exists_cons_of_length_eq_add_one hf
    obtain ⟨r, second, rfl⟩ := List.exists_cons_of_length_eq_add_one hs
    obtain ⟨head, tail⟩ := List.cons.inj h
    have weight : 1 - history ≠ 0 := sub_ne_zero.mpr some.symm
    rw [mul_left_cancel₀ weight (add_left_cancel head),
      ih (Nat.succ.inj hf) (Nat.succ.inj hs) tail]

theorem next?_completeCount (made : next? .completeCount w old rewards = .ok (some new)) :
    old.length = rewards.length ∧ rewards ≠ [] ∧ (rewards.map Tally.total).sum < Word.size ∧
      lifted (rewards.map Tally.reading) ≠ 0 ∧
      scoreTarget? rewards =
        .ok (some ((rewards.map Tally.reading).map (share (rewards.map Tally.reading)))) ∧
      new = scored w.history old (rewards.map Tally.reading) := by
  obtain ⟨same, within, h⟩ := next?_eq_ok.mp made
  split at h
  · cases h
  · next tried =>
    obtain ⟨target?, scored, h⟩ := bind_eq_ok.mp h
    obtain ⟨target, rfl, rfl⟩ := Option.map_eq_some_iff.mp (Except.ok.inj h)
    have shares := scoreTarget?_eq_ok scored
    split at shares
    · cases shares
    · next some =>
      obtain rfl := Option.some.inj shares
      refine ⟨same, ?_, within, some, scored, blend_shares _⟩
      rintro rfl
      exact tried rfl

theorem exists_other {t : Tally} (there : t ∈ rewards) (several : rewards.length ≠ 1) :
    ∃ u ∈ rewards, t.total + u.total ≤ (rewards.map Tally.total).sum := by
  obtain ⟨before, after, rfl⟩ := List.append_of_mem there
  have others : before ++ after ≠ [] := by
    intro empty
    obtain ⟨rfl, rfl⟩ := List.append_eq_nil_iff.mp empty
    exact several rfl
  obtain ⟨u, other⟩ := List.exists_mem_of_ne_nil _ others
  refine ⟨u, ?_, ?_⟩
  · rcases List.mem_append.mp other with earlier | later
    · exact List.mem_append_left _ earlier
    · exact List.mem_append_right _ (List.mem_cons_of_mem _ later)
  · have part := le_sum_map Tally.total other
    rw [List.map_append, List.sum_append] at part
    rw [List.map_append, List.map_cons, List.sum_append, List.sum_cons]
    omega

/-- Shares by the readings are shares by the true differences only if no counter is out of range,
or there is nothing to share. -/
theorem shares_eq_iff (some : rewards ≠ []) (within : (rewards.map Tally.total).sum < Word.size)
    (scored : lifted (rewards.map Tally.reading) ≠ 0) :
    (rewards.map Tally.reading).map (share (rewards.map Tally.reading)) =
        (rewards.map Tally.margin).map (share (rewards.map Tally.margin)) ↔
      rewards.length = 1 ∨ ∀ t ∈ rewards, t.InRange := by
  constructor
  · intro same
    rw [List.map_map, List.map_map, List.map_inj_left] at same
    by_contra! outside
    obtain ⟨several, t, there, outside⟩ := outside
    obtain ⟨u, other, part⟩ := exists_other there several
    have shareT := same t there
    have shareU := same u other
    simp only [Function.comp_apply] at shareT shareU
    have reading {v : Tally} (h : v ∈ rewards) : v.reading ∈ rewards.map Tally.reading :=
      List.mem_map_of_mem h
    have margin {v : Tally} (h : v ∈ rewards) : v.margin ∈ rewards.map Tally.margin :=
      List.mem_map_of_mem h
    rcases Tally.turned_over outside (part.trans_lt within) with ⟨less, more⟩ | ⟨more, less⟩
    · have up := share_lt_share (margin there) (margin other) less
      have down := share_lt_share (reading other) (reading there) more
      linarith
    · have up := share_lt_share (margin other) (margin there) more
      have down := share_lt_share (reading there) (reading other) less
      linarith
  · rintro (single | inRange)
    · obtain ⟨t, rfl⟩ := List.length_eq_one_iff.mp single
      have uneven : t.satisfied ≠ t.failed := by simpa [lifted_eq_zero, Tally.reading_eq_zero] using scored
      simp [share_of_single, mt Tally.reading_eq_zero.mp uneven, mt Tally.margin_eq_zero.mp uneven]
    · rw [List.map_congr_left fun t there => Tally.reading_of_inRange (inRange t there)]

/-- In exact arithmetic, whatever the score rule makes of a state: it gives each choice a share by
the difference of its counters, as they are read. That is the true difference exactly if no counter
is out of range, unless nothing hangs on the shares. Then a choice with a larger difference never
gets a smaller share. -/
theorem scores_true_differences
    (made : next? .completeCount w old rewards = .ok (some new)) :
    old.length = rewards.length ∧ new = scored w.history old (rewards.map Tally.reading) ∧
      (new = scored w.history old (rewards.map Tally.margin) ↔
        w.history = 1 ∨ rewards.length = 1 ∨ ∀ t ∈ rewards, t.InRange) ∧
      ((∀ t ∈ rewards, t.InRange) → ∃ target : List Rat, scoreTarget? rewards = .ok (some target) ∧
        ∀ a ∈ rewards.zip target, ∀ b ∈ rewards.zip target, a.1.margin ≤ b.1.margin → a.2 ≤ b.2) := by
  obtain ⟨same, some, within, uneven, targeted, rfl⟩ := next?_completeCount made
  refine ⟨same, rfl, ?_, fun inRange => ⟨_, targeted, fun a ha b hb less => ?_⟩⟩
  · by_cases kept : w.history = 1
    · rw [kept, scored_one (by simp [same]), scored_one (by simp [same])]
      simp
    · rw [← blend_shares, ← blend_shares, blend_inj kept (by simp [same]) (by simp [same]),
        shares_eq_iff some within uneven, or_iff_right kept]
  · have shares : ∀ c ∈ rewards.zip ((rewards.map Tally.reading).map (share (rewards.map Tally.reading))),
        c.2 = share (rewards.map Tally.reading) c.1.margin := by
      intro c hc
      rw [List.map_map, ← List.map_prod_left_eq_zip] at hc
      obtain ⟨t, there, rfl⟩ := List.mem_map.mp hc
      rw [← Tally.reading_of_inRange (inRange t there)]
      rfl
    rw [shares a ha, shares b hb]
    exact share_mono less

theorem scores_true_differences_of_negative :
    ∃ new, next? .completeCount ⟨0, 1 / 10⟩ [(1 / 2 : Rat), 1 / 2] [⟨4, 1⟩, ⟨0, 2⟩] = .ok (some new) ∧
      new = scored 0 [1 / 2, 1 / 2] [3, -2] ∧ new = [6 / 7, 1 / 7] := by
  have made : next? .completeCount ⟨0, 1 / 10⟩ [(1 / 2 : Rat), 1 / 2] [⟨4, 1⟩, ⟨0, 2⟩] =
      .ok (some [6 / 7, 1 / 7]) := by
    decide +kernel
  obtain ⟨-, -, exact, -⟩ := scores_true_differences made
  have counted := exact.mpr (.inr (.inr (by decide)))
  exact ⟨_, made, counted, rfl⟩

/-- A counter of `2 ^ 63 + 3` is read as `3 - 2 ^ 63`. The only choice with a success gets hardly any
of the target. -/
theorem scores_turned_over :
    ∃ new, next? .completeCount ⟨1 / 2, 1 / 10⟩ [(1 / 2 : Rat), 1 / 2]
        [⟨0x8000000000000003, 0⟩, ⟨0, 0⟩] = .ok (some new) ∧
      new ≠ scored (1 / 2) [1 / 2, 1 / 2] [0x8000000000000003, 0] ∧
      scored (1 / 2) [1 / 2, 1 / 2] [0x8000000000000003, 0] = [3 / 4, 1 / 4] ∧
      ∃ p q, new = [p, q] ∧ p < q := by
  have made : next? .completeCount ⟨1 / 2, 1 / 10⟩ [(1 / 2 : Rat), 1 / 2]
      [⟨0x8000000000000003, 0⟩, ⟨0, 0⟩] =
      .ok (some [1 / 4 + 1 / 2 * (1 / 0x7fffffffffffffff),
        1 / 4 + 1 / 2 * (0x7ffffffffffffffe / 0x7fffffffffffffff)]) := by
    decide +kernel
  exact ⟨_, made, by decide +kernel, by decide +kernel, _, _, rfl, by decide +kernel⟩

end

end UpdateRule

end SchedulerLearning
