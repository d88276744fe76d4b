import Mathlib.Order.Lattice

/-!
# Hysteresis

A flag with two marks: it goes up when a level exceeds the upper mark, and then stays up
until a level no longer exceeds the lower one.
-/

namespace Hysteresis

variable {α : Type} [LinearOrder α] {upper lower : α}

/-- The flag after one more level. -/
def next (upper lower : α) (up : Bool) (level : α) : Bool :=
  decide ((if up then lower else upper) < level)

/-- The flag after some levels, the latest first. -/
def after (upper lower : α) : List α → Bool
  | [] => false
  | level :: earlier => next upper lower (after upper lower earlier) level

/-- A level has exceeded the upper mark, and every one since then the lower. -/
def Exceeded (upper lower : α) (levels : List α) : Prop :=
  ∃ newer level earlier, levels = newer ++ level :: earlier ∧ upper < level ∧
    ∀ other ∈ level :: newer, lower < other

/-- A further level above the lower mark changes nothing. -/
theorem Exceeded.cons {levels : List α} {level : α} (h : Exceeded upper lower levels)
    (hlevel : lower < level) : Exceeded upper lower (level :: levels) := by
  obtain ⟨newer, first, earlier, hlevels, hupper, hlower⟩ := h
  refine ⟨level :: newer, first, earlier, by rw [hlevels]; rfl, hupper, ?_⟩
  intro other hmem
  rcases List.mem_cons.mp hmem with hfirst | hnewer
  · exact hlower other (List.mem_cons.mpr (.inl hfirst))
  · rcases List.mem_cons.mp hnewer with hlatest | hlater
    · rw [hlatest]
      exact hlevel
    · exact hlower other (List.mem_cons_of_mem _ hlater)

/-- What the flag says of the latest level. -/
theorem lower_of_next {up : Bool} {level : α} (hmarks : lower ≤ upper)
    (h : next upper lower up level = true) : lower < level := by
  unfold next at h
  have h := of_decide_eq_true h
  cases up with
  | true => exact h
  | false => exact lt_of_le_of_lt hmarks h

/-- **The flag is up exactly when the upper mark was exceeded and the lower one ever since.** -/
theorem after_eq_true_iff (hmarks : lower ≤ upper) (levels : List α) :
    after upper lower levels = true ↔ Exceeded upper lower levels := by
  induction levels with
  | nil =>
      refine ⟨fun h => (Bool.false_ne_true h).elim, fun h => ?_⟩
      obtain ⟨newer, level, earlier, hlevels, _⟩ := h
      cases newer <;> cases hlevels
  | cons level earlier ih =>
      constructor
      · intro h
        have hlower := lower_of_next hmarks h
        by_cases hup : after upper lower earlier = true
        · exact (ih.mp hup).cons hlower
        · have hupper : upper < level := by
            have h : next upper lower (after upper lower earlier) level = true := h
            rw [Bool.eq_false_iff.mpr hup] at h
            exact of_decide_eq_true h
          refine ⟨[], level, earlier, rfl, hupper, fun other hmem => ?_⟩
          rw [List.mem_singleton.mp hmem]
          exact hlower
      · intro h
        obtain ⟨newer, first, rest, hlevels, hupper, hlower⟩ := h
        cases newer with
        | nil =>
            obtain ⟨hfirst, _⟩ := List.cons.inj hlevels
            subst hfirst
            apply decide_eq_true
            split
            · exact lt_of_le_of_lt hmarks hupper
            · exact hupper
        | cons latest newer =>
            obtain ⟨hlatest, hrest⟩ := List.cons.inj hlevels
            subst hlatest
            have hbefore : after upper lower earlier = true := by
              apply ih.mpr
              refine ⟨newer, first, rest, hrest, hupper, fun other hmem => hlower other ?_⟩
              rcases List.mem_cons.mp hmem with hfirst | hlater
              · exact List.mem_cons.mpr (.inl hfirst)
              · exact List.mem_cons_of_mem _ (List.mem_cons_of_mem _ hlater)
            have hlow : lower < level := hlower level (List.mem_cons_of_mem _ List.mem_cons_self)
            show next upper lower (after upper lower earlier) level = true
            rw [hbefore]
            exact decide_eq_true hlow

end Hysteresis
