import Mathlib.Algebra.BigOperators.Group.List.Basic
import Mathlib.Algebra.GroupWithZero.Nat
import Mathlib.Data.List.AList
import Mathlib.Tactic.Common

/-!
# Tallies over keyed tables

A table holds one value per key.  A tally adds up a natural number over its
entries.  Every update of a table is an insertion or a removal at one key, so
two laws suffice: what an insertion adds, and what the entry found at a key
contributes.  They hold for any keys, values and weights.
-/

namespace Tally

variable {α β : Type}

/-- A table with one value per key. -/
abbrev Table (α β : Type) := AList (fun _ : α => β)

/-- The sum of a weight over the entries of a table. -/
def tally (f : α → β → Nat) (s : Table α β) : Nat :=
  (s.entries.map fun e => f e.1 e.2).sum

@[simp] theorem tally_empty {f : α → β → Nat} : tally f (∅ : Table α β) = 0 := rfl

/-- What is picked from the entries, one after the other. -/
def collect {γ : Type} (pick : α → β → Option γ) (s : Table α β) : List γ :=
  s.entries.filterMap fun e => pick e.1 e.2

/-- Counting in what is picked is a tally. -/
theorem countP_collect {γ : Type} (pick : α → β → Option γ) (p : γ → Bool) (s : Table α β) :
    (collect pick s).countP p = tally (fun a b => if (pick a b).any p then 1 else 0) s := by
  unfold collect tally
  induction s.entries with
  | nil => rfl
  | cons e entries ih =>
      rw [List.map_cons, List.sum_cons, ← ih, List.filterMap_cons]
      cases hpick : pick e.1 e.2 with
      | none => simp [hpick]
      | some c => simp [hpick, List.countP_cons, Nat.add_comm]

variable [DecidableEq α]

/-- The entry found at a key stands somewhere in the table, and removing the
key removes it and nothing else. -/
theorem entries_perm_of_lookup {s : Table α β} {a : α} {b : β} (h : s.lookup a = some b) :
    s.entries.Perm (⟨a, b⟩ :: (s.erase a).entries) := by
  have hmem : a ∈ s.entries.keys := by
    rw [← AList.mem_mk (h := s.nodupKeys), ← AList.lookup_isSome]
    exact Option.isSome_iff_exists.mpr ⟨b, h⟩
  obtain ⟨b', left, right, _, hsplit, hrest⟩ := List.exists_of_kerase hmem
  have hb : b' = b := by
    have hlook : s.lookup a = some b' := by
      apply AList.mem_lookup_iff.mpr
      rw [hsplit]
      simp
    exact Option.some.inj (hlook.symm.trans h)
  subst hb
  show s.entries.Perm (⟨a, b'⟩ :: s.entries.kerase a)
  rw [hrest, hsplit]
  exact List.perm_middle

/-- The entries that satisfy a test. -/
def keep (p : α → β → Bool) (s : Table α β) : Table α β where
  entries := s.entries.filter fun e => p e.1 e.2
  nodupKeys := s.nodupKeys.sublist List.filter_sublist

/-- A key that is kept is found as before. -/
theorem lookup_keep (p : α → β → Bool) (s : Table α β) (a : α) :
    (keep p s).lookup a = (s.lookup a).filter (p a) := by
  apply Option.ext
  intro b
  have hkept : (keep p s).lookup a = some b ↔ ⟨a, b⟩ ∈ s.entries ∧ p a b = true := by
    rw [← Option.mem_def, AList.mem_lookup_iff]
    exact List.mem_filter
  rw [hkept, Option.filter_eq_some_iff, ← Option.mem_def, AList.mem_lookup_iff]

/-- After an insertion every entry is the new one or an old one. -/
theorem lookup_insert_cases {s : Table α β} {a b : α} {x y : β}
    (h : (s.insert a x).lookup b = some y) : b = a ∧ y = x ∨ b ≠ a ∧ s.lookup b = some y := by
  by_cases hb : b = a
  · rw [hb, AList.lookup_insert] at h
    exact .inl ⟨hb, (Option.some.inj h).symm⟩
  · rw [AList.lookup_insert_ne hb] at h
    exact .inr ⟨hb, h⟩

variable {f g : α → β → Nat} {s : Table α β} {a : α} {b : β}

theorem entries_erase : (s.erase a).entries = s.entries.kerase a := rfl

/-- An entry is counted in the place of the one before it. -/
theorem tally_insert : tally f (s.insert a b) = f a b + tally f (s.erase a) := by
  unfold tally
  rw [AList.entries_insert, entries_erase]
  simp

/-- One entry, and the rest. -/
theorem tally_of_lookup (h : s.lookup a = some b) :
    tally f s = f a b + tally f (s.erase a) := by
  unfold tally
  rw [((entries_perm_of_lookup h).map _).sum_eq]
  simp

/-- Erasing nothing changes nothing. -/
theorem tally_erase_of_lookup_none (h : s.lookup a = none) : tally f (s.erase a) = tally f s := by
  have hkeys : a ∉ s.entries.keys := by
    intro hmem
    have : a ∈ s := hmem
    exact absurd this (AList.lookup_eq_none.mp h)
  unfold tally
  rw [entries_erase, List.kerase_of_notMem_keys hkeys]

/-- One entry is no more than all. -/
theorem le_tally_of_lookup (h : s.lookup a = some b) : f a b ≤ tally f s := by
  rw [tally_of_lookup h]
  exact Nat.le_add_right _ _

/-- A weight that differs nowhere in the table has the same tally. -/
theorem tally_congr (h : ∀ a b, s.lookup a = some b → f a b = g a b) : tally f s = tally g s := by
  unfold tally
  apply congrArg
  apply List.map_congr_left
  intro e he
  exact h e.1 e.2 (AList.mem_lookup_iff.mpr he)

/-- A tally of nothing is nothing. -/
theorem tally_eq_zero (h : ∀ a b, s.lookup a = some b → f a b = 0) : tally f s = 0 := by
  rw [tally_congr (g := fun _ _ => 0) h]
  simp [tally]

end Tally
