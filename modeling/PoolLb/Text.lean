import Mathlib.Tactic.Common

/-!
# Searching and cutting texts

The operations of a C++ string that a parser uses, on lists: the last place of a symbol, the
place of a word, and the accesses that are defined only inside the text and are `none`
elsewhere.  The first place of a symbol is `List.idxOf?`.
-/

namespace Text

variable {α : Type}

/-- At most `count` symbols from `start` on; `none` if the text ends before `start`. -/
def substr (text : List α) (start count : Nat) : Option (List α) :=
  if start ≤ text.length then some ((text.drop start).take count) else none

/-- `substr` from the end of a first part on. -/
theorem substr_append (before after : List α) (count : Nat) :
    substr (before ++ after) before.length count = some (after.take count) := by
  unfold substr
  rw [if_pos (by simp), List.drop_left]

/-- `substr` to the end of the text. -/
theorem substr_rest {text : List α} {start : Nat} (h : start ≤ text.length) :
    substr text start text.length = some (text.drop start) := by
  unfold substr
  rw [if_pos h, List.take_of_length_le (by simp)]

/-- A word that is found is inside the text. -/
theorem add_length_le_of_prefix {word text : List α} {place : Nat} (hword : word ≠ [])
    (h : word <+: text.drop place) : place + word.length ≤ text.length := by
  have hle := h.length_le
  rw [List.length_drop] at hle
  have hpos := List.length_pos_iff.mpr hword
  omega

/-- Inside a beginning of the text, a word stands where it stands in the text. -/
theorem prefix_drop_append_iff {word text more : List α} {place : Nat}
    (hinside : place + word.length ≤ text.length) :
    word <+: (text ++ more).drop place ↔ word <+: text.drop place := by
  rw [List.drop_append_of_le_length (by omega)]
  constructor
  · intro h
    refine List.prefix_of_prefix_length_le h (List.prefix_append _ _) ?_
    rw [List.length_drop]
    omega
  · exact fun h => h.trans (List.prefix_append _ _)

variable [DecidableEq α]

/-- The last place of a symbol. -/
def rfind (symbol : α) : List α → Option Nat
  | [] => none
  | first :: rest =>
      match rfind symbol rest with
      | some place => some (place + 1)
      | none => if first = symbol then some 0 else none

/-- The first place of a word. -/
def findWord (word : List α) : List α → Option Nat
  | [] => if word = [] then some 0 else none
  | first :: rest =>
      if word.isPrefixOf (first :: rest) then some 0 else (findWord word rest).map (· + 1)

/-- The first place splits the text where the symbol has not occurred before. -/
theorem idxOf?_append_cons {symbol : α} {before : List α} (hfree : symbol ∉ before)
    (after : List α) : (before ++ symbol :: after).idxOf? symbol = some before.length := by
  have hnone : before.findIdx? (· == symbol) = none := List.idxOf?_eq_none_iff.mpr hfree
  unfold List.idxOf?
  rw [List.findIdx?_append, hnone]
  simp [List.findIdx?_cons]

/-- The first occurrence splits the text. -/
theorem exists_of_idxOf? {symbol : α} {text : List α} {place : Nat}
    (h : text.idxOf? symbol = some place) :
    ∃ before after, text = before ++ symbol :: after ∧ symbol ∉ before ∧
      before.length = place := by
  obtain ⟨hplace, hsymbol, hearlier⟩ := List.idxOf?_eq_some_iff.mp h
  refine ⟨text.take place, text.drop (place + 1), ?_, fun hmem => ?_,
    List.length_take_of_le (Nat.le_of_lt hplace)⟩
  · have hcut := List.take_append_drop place text
    rw [List.drop_eq_getElem_cons hplace, hsymbol] at hcut
    exact hcut.symm
  · obtain ⟨earlier, hinside, hfound⟩ := List.getElem_of_mem hmem
    rw [List.getElem_take] at hfound
    rw [List.length_take_of_le (Nat.le_of_lt hplace)] at hinside
    exact hearlier earlier hinside hfound

/-- `rfind` finds nothing exactly if there is nothing. -/
theorem rfind_eq_none_iff {symbol : α} {text : List α} :
    rfind symbol text = none ↔ symbol ∉ text := by
  induction text with
  | nil => simp [rfind]
  | cons first rest ih =>
      unfold rfind
      cases hrest : rfind symbol rest with
      | some place =>
          have hmem : symbol ∈ rest := by
            by_contra hnot
            rw [ih.mpr hnot] at hrest
            cases hrest
          simp [hmem]
      | none =>
          have hnot := ih.mp hrest
          by_cases hfirst : first = symbol
          · simp [hfirst]
          · simp [hfirst, hnot, Ne.symm hfirst]

/-- The last place splits the text where the symbol does not occur again. -/
theorem rfind_append {symbol : α} (before : List α) {after : List α} (hfree : symbol ∉ after) :
    rfind symbol (before ++ symbol :: after) = some before.length := by
  induction before with
  | nil => simp [rfind, rfind_eq_none_iff.mpr hfree]
  | cons first rest ih =>
      rw [List.cons_append, rfind, ih]
      rfl

/-- The last occurrence splits the text. -/
theorem exists_of_rfind {symbol : α} {text : List α} {place : Nat}
    (h : rfind symbol text = some place) :
    ∃ before after, text = before ++ symbol :: after ∧ symbol ∉ after ∧
      before.length = place := by
  induction text generalizing place with
  | nil => cases h
  | cons first rest ih =>
      unfold rfind at h
      cases hrest : rfind symbol rest with
      | some shorter =>
          rw [hrest] at h
          obtain ⟨before, after, hsplit, hfree, hlength⟩ := ih hrest
          refine ⟨first :: before, after, by rw [hsplit]; rfl, hfree, ?_⟩
          rw [List.length_cons, hlength]
          exact Option.some.inj h
      | none =>
          rw [hrest] at h
          dsimp only at h
          split at h
          · rename_i hfirst
            cases h
            exact ⟨[], rest, by rw [hfirst]; rfl, rfind_eq_none_iff.mp hrest, rfl⟩
          · cases h

/-- The place of a symbol is the first one if the symbol is not before it. -/
theorem idxOf?_eq_length_iff {symbol : α} {before after : List α} :
    (before ++ symbol :: after).idxOf? symbol = some before.length ↔ symbol ∉ before := by
  constructor
  · intro h
    obtain ⟨earlier, later, hsplit, hfree, hlength⟩ := exists_of_idxOf? h
    have hsame : before = earlier := (List.append_inj hsplit hlength.symm).1
    rw [hsame]
    exact hfree
  · intro hfree
    exact idxOf?_append_cons hfree after

/-! ## Words -/

variable {word text : List α}

/-- The word is here, or further on. -/
theorem findWord_cons (first : α) (rest : List α) :
    findWord word (first :: rest) =
      if word.isPrefixOf (first :: rest) then some 0 else (findWord word rest).map (· + 1) := rfl

/-- A word stands nowhere before its first place. -/
theorem findWord_spec {place : Nat} (h : findWord word text = some place) :
    word <+: text.drop place ∧ ∀ earlier < place, ¬ word <+: text.drop earlier := by
  induction text generalizing place with
  | nil =>
      unfold findWord at h
      split at h
      · rename_i hnil
        cases h
        exact ⟨by rw [hnil]; exact List.nil_prefix, fun earlier hearlier => by omega⟩
      · cases h
  | cons first rest ih =>
      rw [findWord_cons] at h
      split at h
      · rename_i hhere
        cases h
        exact ⟨List.isPrefixOf_iff_prefix.mp hhere, fun earlier hearlier => by omega⟩
      · rename_i hhere
        obtain ⟨shorter, hshorter, hplace⟩ := Option.map_eq_some_iff.mp h
        obtain ⟨hword, hfirst⟩ := ih hshorter
        rw [← hplace]
        refine ⟨hword, fun earlier hearlier => ?_⟩
        cases earlier with
        | zero => exact fun hprefix => hhere (List.isPrefixOf_iff_prefix.mpr hprefix)
        | succ earlier => exact hfirst earlier (by omega)

/-- A word that is not found is nowhere in the text. -/
theorem not_prefix_of_findWord_eq_none (hword : word ≠ []) (h : findWord word text = none)
    (place : Nat) : ¬ word <+: text.drop place := by
  induction text generalizing place with
  | nil =>
      rw [List.drop_nil]
      exact fun hprefix => hword (List.prefix_nil.mp hprefix)
  | cons first rest ih =>
      rw [findWord_cons] at h
      split at h
      · cases h
      · rename_i hhere
        cases place with
        | zero => exact fun hprefix => hhere (List.isPrefixOf_iff_prefix.mpr hprefix)
        | succ place => exact ih (Option.map_eq_none_iff.mp h) place

/-- **More text behind a word does not move its first place.** -/
theorem findWord_append {place : Nat} (hword : word ≠ []) (h : findWord word text = some place)
    (more : List α) : findWord word (text ++ more) = some place := by
  obtain ⟨hhere, hfirst⟩ := findWord_spec h
  have hinside := add_length_le_of_prefix hword hhere
  have hhere' : word <+: (text ++ more).drop place :=
    (prefix_drop_append_iff hinside).mpr hhere
  cases hfind : findWord word (text ++ more) with
  | none => exact absurd hhere' (not_prefix_of_findWord_eq_none hword hfind place)
  | some found =>
      obtain ⟨hfound, hearlier⟩ := findWord_spec hfind
      rcases Nat.lt_trichotomy found place with hbefore | hsame | hbehind
      · exact absurd ((prefix_drop_append_iff (by omega)).mp hfound) (hfirst found hbefore)
      · rw [hsame]
      · exact absurd hhere' (hearlier place hbehind)

end Text
