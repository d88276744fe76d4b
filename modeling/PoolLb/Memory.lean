import Mathlib.Tactic.Common

/-!
# Runs of cells

A copy into a run of cells that is already there, as `memcpy` makes it: the cells
behind and before the copied ones keep their contents, and a copy that would leave
the run is refused.
-/

namespace Memory

variable {α : Type}

/-- `values` copied over the cells from `start` on; `none` if they do not fit. -/
def store (cells : List α) (start : Nat) (values : List α) : Option (List α) :=
  if start + values.length ≤ cells.length then
    some (cells.take start ++ values ++ cells.drop (start + values.length))
  else none

/-- `count` cells from `start` on; `none` if they are not all in the run. -/
def load (cells : List α) (start count : Nat) : Option (List α) :=
  if start + count ≤ cells.length then some ((cells.drop start).take count) else none

/-- One value in all the cells from `start` on; `none` if the run ends before. -/
def fill (cells : List α) (start : Nat) (value : α) : Option (List α) :=
  if start ≤ cells.length then some (cells.take start ++ List.replicate (cells.length - start) value)
  else none

/-- Values that fit replace as many cells. -/
theorem store_of_fits {cells values : List α} {start : Nat}
    (h : start + values.length ≤ cells.length) :
    store cells start values =
      some (cells.take start ++ values ++ cells.drop (start + values.length)) :=
  if_pos h

/-- An array keeps its length. -/
theorem length_of_store {cells stored values : List α} {start : Nat}
    (h : store cells start values = some stored) : stored.length = cells.length := by
  unfold store at h
  split at h
  · rename_i hfits
    cases h
    simp only [List.length_append, List.length_take, List.length_drop]
    omega
  · cases h

/-- What lies behind the copied cells is not touched. -/
theorem getElem?_of_store {cells stored values : List α} {start : Nat}
    (h : store cells start values = some stored) {index : Nat}
    (hbehind : start + values.length ≤ index) : stored[index]? = cells[index]? := by
  unfold store at h
  split at h
  · rename_i hfits
    cases h
    have hlength : (cells.take start ++ values).length = start + values.length := by
      rw [List.length_append, List.length_take]
      omega
    rw [List.getElem?_append_right (by omega), hlength, List.getElem?_drop]
    congr 1
    omega
  · cases h

/-- What lies before the copied cells is not touched. -/
theorem getElem?_of_store_of_lt {cells stored values : List α} {start : Nat}
    (h : store cells start values = some stored) {index : Nat} (hbefore : index < start) :
    stored[index]? = cells[index]? := by
  unfold store at h
  split at h
  · rename_i hfits
    cases h
    have hlength : index < (cells.take start).length := by
      rw [List.length_take]
      omega
    rw [List.append_assoc, List.getElem?_append_left hlength,
      List.getElem?_take_of_lt hbefore]
  · cases h

/-- The copied cells hold the values. -/
theorem getElem?_of_store_at {cells stored values : List α} {start : Nat}
    (h : store cells start values = some stored) {offset : Nat} (hoffset : offset < values.length) :
    stored[start + offset]? = values[offset]? := by
  unfold store at h
  split at h
  · rename_i hfits
    cases h
    have hlength : (cells.take start).length = start := by
      rw [List.length_take]
      omega
    rw [List.append_assoc, List.getElem?_append_right (by omega), hlength,
      Nat.add_sub_cancel_left, List.getElem?_append_left hoffset]
  · cases h

/-- A copy over the whole run leaves nothing of it. -/
theorem store_all {cells values : List α} (h : values.length = cells.length) :
    store cells 0 values = some values := by
  rw [store_of_fits (by omega)]
  simp [h]

/-- From `start` on every cell has the value, and before it none has changed. -/
theorem getElem?_of_fill {cells filled : List α} {start : Nat} {value : α}
    (h : fill cells start value = some filled) {index : Nat} (hindex : index < cells.length) :
    filled[index]? = if index < start then cells[index]? else some value := by
  unfold fill at h
  split at h
  · rename_i hstart
    cases h
    have hlength : (cells.take start).length = start := by
      rw [List.length_take]
      omega
    split
    · rename_i hbefore
      rw [List.getElem?_append_left (by omega), List.getElem?_take_of_lt hbefore]
    · rw [List.getElem?_append_right (by omega), hlength, List.getElem?_replicate,
        if_pos (by omega)]
  · cases h

/-- An array keeps its length. -/
theorem length_of_fill {cells filled : List α} {start : Nat} {value : α}
    (h : fill cells start value = some filled) : filled.length = cells.length := by
  unfold fill at h
  split at h
  · rename_i hstart
    cases h
    simp only [List.length_append, List.length_take, List.length_replicate]
    omega
  · cases h

end Memory
