import Mathlib.Data.List.Rotate

/-!
# Walking around a list

Some items of a list, one after the other and cyclically from a place on.  A walk of the
full length visits every place once.
-/

namespace Cyclic

variable {α : Type}

/-- `count` items of a list, cyclically from a place on. -/
def walk (items : List α) (start count : Nat) : List α := (items.rotate start).take count

@[simp] theorem walk_zero (items : List α) (start : Nat) : walk items start 0 = [] := List.take_zero

/-- A walk is as long as it was asked to be. -/
theorem length_walk {items : List α} {start count : Nat} (h : count ≤ items.length) :
    (walk items start count).length = count := by
  rw [walk, List.length_take, List.length_rotate]
  omega

/-- Only the remainder of the start matters. -/
theorem walk_mod (items : List α) (start count : Nat) :
    walk items (start % items.length) count = walk items start count := by
  rw [walk, walk, List.rotate_mod]

/-- A full walk visits every place once. -/
theorem walk_full_perm (items : List α) (start : Nat) :
    (walk items start items.length).Perm items := by
  rw [walk, List.take_of_length_le (by rw [List.length_rotate])]
  exact List.rotate_perm items start

/-- **The next item of a walk**, and the walk that is left. -/
theorem walk_succ {items : List α} {start count : Nat} {item : α} (hcount : count < items.length)
    (hitem : items[start % items.length]? = some item) :
    walk items start (count + 1) = item :: walk items (start + 1) count := by
  unfold walk
  rw [← List.rotate_rotate items start 1]
  have hhead : (items.rotate start)[0]? = some item := by
    rw [List.getElem?_rotate (by omega), Nat.zero_add]
    exact hitem
  cases hlist : items.rotate start with
  | nil =>
      rw [hlist] at hhead
      cases hhead
  | cons first rest =>
      rw [hlist] at hhead
      cases hhead
      have hlength : count ≤ rest.length := by
        have h := congrArg List.length hlist
        rw [List.length_rotate, List.length_cons] at h
        omega
      rw [List.rotate_cons_succ, List.rotate_zero, List.take_succ_cons,
        List.take_append_of_le_length hlength]

end Cyclic
