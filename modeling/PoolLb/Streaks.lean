import Mathlib.Data.List.Induction
import Mathlib.Tactic.Common

/-!
# Streaks

Runs of one value in a history, and a flag that goes up with a long enough run of
successes and down with a long enough run of failures.  Whether it is up can be said
of the history alone, and changes with one more outcome only if that outcome ends a run
of the length that is asked for.
-/

namespace Streaks

variable {α : Type} [DecidableEq α]

/-- The `count` items before `place` are all `value`. -/
def EndsRun (history : List α) (value : α) (count place : Nat) : Prop :=
  count ≤ place ∧ ∀ index, place - count ≤ index → index < place → history[index]? = some value

/-- How many of the latest items are `value`. -/
def trailing (value : α) (history : List α) : Nat :=
  (history.reverse.takeWhile (· = value)).length

@[simp] theorem trailing_nil (value : α) : trailing value [] = 0 := rfl

/-- One more outcome extends the streak or ends it. -/
theorem trailing_append (value : α) (history : List α) (item : α) :
    trailing value (history ++ [item]) = if item = value then trailing value history + 1 else 0 := by
  unfold trailing
  rw [List.reverse_append, List.reverse_singleton, List.singleton_append, List.takeWhile_cons]
  by_cases hitem : item = value
  · simp [hitem]
  · simp [hitem]

/-- A streak is no longer than the history. -/
theorem trailing_le_length (value : α) (history : List α) :
    trailing value history ≤ history.length := by
  unfold trailing
  have hle := (List.takeWhile_sublist (l := history.reverse) (· = value)).length_le
  rw [List.length_reverse] at hle
  exact hle

omit [DecidableEq α] in
/-- What comes later does not matter. -/
theorem endsRun_append {history more : List α} {value : α} {count place : Nat}
    (hplace : place ≤ history.length) :
    EndsRun (history ++ more) value count place ↔ EndsRun history value count place := by
  have hsame : ∀ index < place, (history ++ more)[index]? = history[index]? := fun index hindex =>
    List.getElem?_append_left (by omega)
  unfold EndsRun
  constructor
  · intro h
    refine ⟨h.1, fun index hfirst hlast => ?_⟩
    rw [← hsame index hlast]
    exact h.2 index hfirst hlast
  · intro h
    refine ⟨h.1, fun index hfirst hlast => ?_⟩
    rw [hsame index hlast]
    exact h.2 index hfirst hlast

/-- The latest items are a run exactly if enough of them are trailing. -/
theorem endsRun_length_iff {history : List α} {value : α} {count : Nat} :
    EndsRun history value count history.length ↔ count ≤ trailing value history := by
  induction history using List.reverseRecOn generalizing count with
  | nil =>
      constructor
      · exact fun h => h.1
      · exact fun h => ⟨h, fun index _ hlast => absurd hlast (Nat.not_lt_zero index)⟩
  | append_singleton history item ih =>
      have hlength : (history ++ [item]).length = history.length + 1 := by simp
      have hlatest : (history ++ [item])[history.length]? = some item := by simp
      rw [trailing_append, hlength]
      cases count with
      | zero =>
          refine iff_of_true ⟨Nat.zero_le _, fun index hfirst hlast => ?_⟩ (Nat.zero_le _)
          omega
      | succ count =>
          by_cases hitem : item = value
          · rw [if_pos hitem, Nat.succ_le_succ_iff, ← ih]
            constructor
            · intro h
              refine (endsRun_append (Nat.le_refl _)).mp
                ⟨by have := h.1; omega, fun index hfirst hlast => h.2 index (by omega) (by omega)⟩
            · intro h
              have h : EndsRun (history ++ [item]) value count history.length :=
                (endsRun_append (Nat.le_refl _)).mpr h
              refine ⟨by have := h.1; omega, fun index hfirst hlast => ?_⟩
              by_cases hindex : index = history.length
              · rw [hindex, hlatest, hitem]
              · exact h.2 index (by omega) (by omega)
          · rw [if_neg hitem]
            refine iff_of_false (fun h => hitem ?_) (by omega)
            have hvalue := h.2 history.length (by omega) (by omega)
            rw [hlatest] at hvalue
            exact Option.some.inj hvalue

/-- A long enough run of successes, and since then none of failures that is long enough. -/
def Risen (rise fall : Nat) (history : List Bool) : Prop :=
  ∃ place ≤ history.length, EndsRun history true rise place ∧
    ∀ later, place < later → later ≤ history.length → ¬ EndsRun history false fall later

variable {rise fall : Nat} {history : List Bool}

/-- Up to a place, one more item changes nothing. -/
theorem risen_before {item : Bool} {place : Nat} (hplace : place ≤ history.length) :
    EndsRun (history ++ [item]) true rise place ∧
        (∀ later, place < later → later ≤ history.length →
          ¬ EndsRun (history ++ [item]) false fall later) ↔
      EndsRun history true rise place ∧
        ∀ later, place < later → later ≤ history.length → ¬ EndsRun history false fall later := by
  refine and_congr (endsRun_append hplace) ?_
  constructor
  · intro h later hfirst hlast hrun
    exact h later hfirst hlast ((endsRun_append hlast).mpr hrun)
  · intro h later hfirst hlast hrun
    exact h later hfirst hlast ((endsRun_append hlast).mp hrun)

/-- A success raises the flag if it ends a run of `rise` successes. -/
theorem risen_success (hfall : 1 ≤ fall) :
    Risen rise fall (history ++ [true]) ↔
      Risen rise fall history ∨ rise ≤ trailing true (history ++ [true]) := by
  have hlength : (history ++ [true]).length = history.length + 1 := by simp
  constructor
  · intro h
    obtain ⟨place, hplace, hrun, hsince⟩ := h
    by_cases hlast : place = history.length + 1
    · right
      rw [← endsRun_length_iff, hlength, ← hlast]
      exact hrun
    · left
      have hbefore : place ≤ history.length := by omega
      exact ⟨place, hbefore, (risen_before hbefore).mp
        ⟨hrun, fun later hfirst hle => hsince later hfirst (by omega)⟩⟩
  · intro h
    rcases h with ⟨place, hplace, hrun⟩ | hnow
    · obtain ⟨hrun, hsince⟩ := (risen_before hplace).mpr hrun
      refine ⟨place, by omega, hrun, fun later hfirst hle hfailed => ?_⟩
      by_cases hlast : later = history.length + 1
      · have hitem := hfailed.2 history.length (by omega) (by omega)
        simp at hitem
      · exact hsince later hfirst (by omega) hfailed
    · refine ⟨history.length + 1, by omega, ?_, fun later hfirst hle => by omega⟩
      rw [← hlength]
      exact endsRun_length_iff.mpr hnow

/-- A failure lowers the flag if it ends a run of `fall` failures. -/
theorem risen_failure (hrise : 1 ≤ rise) :
    Risen rise fall (history ++ [false]) ↔
      Risen rise fall history ∧ ¬ fall ≤ trailing false (history ++ [false]) := by
  have hlength : (history ++ [false]).length = history.length + 1 := by simp
  constructor
  · intro h
    obtain ⟨place, hplace, hrun, hsince⟩ := h
    have hbefore : place ≤ history.length := by
      by_contra hlast
      have hitem := hrun.2 history.length (by omega) (by omega)
      simp at hitem
    refine ⟨⟨place, hbefore, (risen_before hbefore).mp
      ⟨hrun, fun later hfirst hle => hsince later hfirst (by omega)⟩⟩, fun hfailed => ?_⟩
    refine hsince (history.length + 1) (by omega) (by omega) ?_
    rw [← hlength]
    exact endsRun_length_iff.mpr hfailed
  · intro h
    obtain ⟨⟨place, hplace, hrun⟩, hfew⟩ := h
    obtain ⟨hrun, hsince⟩ := (risen_before hplace).mpr hrun
    refine ⟨place, by omega, hrun, fun later hfirst hle hfailed => ?_⟩
    by_cases hlast : later = history.length + 1
    · rw [← endsRun_length_iff, hlength, ← hlast] at hfew
      exact hfew hfailed
    · exact hsince later hfirst (by omega) hfailed

end Streaks
