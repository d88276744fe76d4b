import PoolLb.JsonText
import PoolLb.Validator

/-!
# The nesting guard

`within_depth` looks at a line before the JSON library does, with a counter and two
flags.  Without its limit the scan is a function of what it has read, and the limit
holds exactly if the counter never exceeds it.  On the text of a JSON document the
counter is the number of arrays and objects that are open, at every byte.  Both
together say what the guard is for: documents are refused exactly if they are too deep,
and of any text at all no parser gets further than the allowed depth, as long as what it
has read may still become a document.
-/

namespace PoolLb

namespace Validator

open JsonText

/-! ## The scan without its limit -/

/-- One character of the scan, with a limit that it cannot exceed. -/
def freeStep (scan : DepthScan) (character : UInt8) : DepthScan :=
  (depthStep (scan.depth + 1) scan character).getD scan

/-- The scan stops where its counter would exceed the limit. -/
theorem depthStep_eq {maximumDepth : Int} {scan : DepthScan} (h : scan.depth ≤ maximumDepth)
    (character : UInt8) :
    depthStep maximumDepth scan character =
      if (freeStep scan character).depth ≤ maximumDepth then some (freeStep scan character)
      else none := by
  -- only a bracket that opens asks for the limit
  have hopens : ¬ scan.depth + 1 > scan.depth + 1 := lt_irrefl _
  unfold freeStep depthStep
  rw [if_neg hopens]
  split
  · split
    · exact (if_pos h).symm
    · split
      · exact (if_pos h).symm
      · split
        · exact (if_pos h).symm
        · exact (if_pos h).symm
  · split
    · exact (if_pos h).symm
    · split
      · by_cases hdeep : scan.depth + 1 > maximumDepth
        · rw [if_pos hdeep]
          exact (if_neg (not_le.mpr hdeep)).symm
        · rw [if_neg hdeep]
          exact (if_pos (not_lt.mp hdeep)).symm
      · split
        · refine (if_pos ?_).symm
          show scan.depth - 1 ≤ maximumDepth
          omega
        · exact (if_pos h).symm

/-- The scan of a text ends if the counter stays within the limit, at every place. -/
theorem isSome_foldlM_iff {maximumDepth : Int} {scan : DepthScan} (h : scan.depth ≤ maximumDepth)
    (text : Bytes) :
    (text.foldlM (depthStep maximumDepth) scan).isSome = true ↔
      ∀ place, ((text.take place).foldl freeStep scan).depth ≤ maximumDepth := by
  induction text generalizing scan with
  | nil => simp [h]
  | cons character rest ih =>
      rw [List.foldlM_cons, depthStep_eq h]
      by_cases hnext : (freeStep scan character).depth ≤ maximumDepth
      · rw [if_pos hnext]
        show ((rest.foldlM (depthStep maximumDepth) (freeStep scan character)).isSome = true) ↔ _
        rw [ih hnext]
        constructor
        · intro hall place
          cases place with
          | zero => exact h
          | succ place => exact hall place
        · intro hall place
          exact hall (place + 1)
      · rw [if_neg hnext]
        refine iff_of_false Bool.false_ne_true fun hall => hnext ?_
        exact hall 1

/-- **The guard holds exactly if the counter never exceeds the limit.** -/
theorem withinDepth_iff {maximumDepth : Int} (h : 0 ≤ maximumDepth) (text : Bytes) :
    withinDepth text maximumDepth = true ↔
      ∀ place, ((text.take place).foldl freeStep {}).depth ≤ maximumDepth :=
  isSome_foldlM_iff h text

/-! ## The scan of a document -/

/-- The scan goes from `start` to `stop` over the marks, and its counter is as they say. -/
inductive Tracks : DepthScan → List Mark → DepthScan → Prop
  | nil (scan : DepthScan) : Tracks scan [] scan
  | cons {scan stop : DepthScan} {byte : UInt8} {depth : Nat} {rest : List Mark}
      (here : (freeStep scan byte).depth = depth) (later : Tracks (freeStep scan byte) rest stop) :
      Tracks scan ((byte, depth) :: rest) stop

/-- The scan goes over one text and then over another. -/
theorem Tracks.append {start middle stop : DepthScan} {marks more : List Mark}
    (h : Tracks start marks middle) (h' : Tracks middle more stop) :
    Tracks start (marks ++ more) stop := by
  induction h with
  | nil => exact h'
  | cons here later ih => exact .cons here (ih h')

/-- At every place the counter is the number of open containers. -/
theorem Tracks.depth_eq {start stop : DepthScan} {marks : List Mark} (h : Tracks start marks stop)
    (place : Nat) :
    (((marks.take place).map Prod.fst).foldl freeStep start).depth =
      match (marks.take place).getLast? with
      | none => start.depth
      | some mark => (mark.2 : Int) := by
  induction h generalizing place with
  | nil => simp
  | @cons scan stop byte depth rest here later ih =>
      cases place with
      | zero => rfl
      | succ place =>
          rw [List.take_succ_cons, List.map_cons, List.foldl_cons, ih]
          cases hrest : (rest.take place).getLast? with
          | none =>
              rw [List.getLast?_eq_none_iff.mp hrest]
              exact here
          | some mark =>
              rw [List.getLast?_cons, hrest]
              rfl

/-- The state between two values. -/
def outside (depth : Nat) : DepthScan := { depth := depth }

/-- The state inside a string. -/
def inside (depth : Nat) : DepthScan := { depth := depth, inString := true }

variable {depth : Nat}

/-- A neutral byte changes nothing between two values. -/
theorem freeStep_neutral {byte : UInt8} (h : IsNeutral byte) :
    freeStep (outside depth) byte = outside depth := by
  obtain ⟨hquote, hleft, hright, hopen, hclose⟩ := h
  have hopens : ¬ (byte = kLeftBrace ∨ byte = kLeftBracket) := fun h => h.elim hopen hleft
  have hcloses : ¬ ((byte = kRightBrace ∨ byte = kRightBracket) ∧ (outside depth).depth > 0) :=
    fun h => h.1.elim hclose hright
  have hquotes : ¬ byte = kQuote := hquote
  have houtside : ¬ (outside depth).inString = true := Bool.false_ne_true
  unfold freeStep depthStep
  rw [if_neg houtside, if_neg hquotes, if_neg hopens, if_neg hcloses]
  rfl

/-- Neither does a text of neutral bytes. -/
theorem tracks_level {bytes : List UInt8} (h : ∀ byte ∈ bytes, IsNeutral byte) :
    Tracks (outside depth) (level depth bytes) (outside depth) := by
  induction bytes with
  | nil => exact .nil _
  | cons byte rest ih =>
      have hstep : freeStep (outside depth) byte = outside depth :=
        freeStep_neutral (h byte List.mem_cons_self)
      refine .cons (by rw [hstep]; rfl) ?_
      rw [hstep]
      exact ih fun byte hbyte => h byte (List.mem_cons_of_mem _ hbyte)

/-- White space is neutral. -/
theorem tracks_blanks (between : List Blank) :
    Tracks (outside depth) (blanks depth between) (outside depth) := by
  refine tracks_level fun byte hbyte => ?_
  obtain ⟨blank, _, hblank⟩ := List.mem_map.mp hbyte
  rw [← hblank]
  exact blank.isNeutral

/-! ### Strings -/

/-- Inside a string only a quote and a backslash mean anything. -/
theorem freeStep_plain {byte : UInt8} (hquote : byte ≠ 34) (hbackslash : byte ≠ 92) :
    freeStep (inside depth) byte = inside depth := by
  have hinside : (inside depth).inString = true := rfl
  have hescaped : ¬ (inside depth).escaped = true := Bool.false_ne_true
  have hstays : ¬ byte = kBackslash ∧ ¬ byte = kQuote := ⟨hbackslash, hquote⟩
  unfold freeStep depthStep
  rw [if_pos hinside, if_neg hescaped, if_neg hstays.1, if_neg hstays.2]
  rfl

/-- So a text without them changes nothing there. -/
theorem tracks_plain {bytes : List UInt8} (h : ∀ byte ∈ bytes, byte ≠ 34 ∧ byte ≠ 92) :
    Tracks (inside depth) (level depth bytes) (inside depth) := by
  induction bytes with
  | nil => exact .nil _
  | cons byte rest ih =>
      obtain ⟨hquote, hbackslash⟩ := h byte List.mem_cons_self
      have hstep : freeStep (inside depth) byte = inside depth := freeStep_plain hquote hbackslash
      refine .cons (by rw [hstep]; rfl) ?_
      rw [hstep]
      exact ih fun byte hbyte => h byte (List.mem_cons_of_mem _ hbyte)

/-- A backslash takes the next byte with it, whatever it is. -/
theorem tracks_escape (byte : UInt8) :
    Tracks (inside depth) (level depth [92, byte]) (inside depth) :=
  .cons rfl (.cons rfl (.nil _))

/-- The digits of an escape are no quotes and no backslashes. -/
theorem isHexDigit_plain {byte : UInt8} (h : isHexDigit byte = true) : byte ≠ 34 ∧ byte ≠ 92 := by
  constructor
  · intro hquote
    rw [hquote] at h
    exact absurd h (by decide)
  · intro hbackslash
    rw [hbackslash] at h
    exact absurd h (by decide)

/-- Marks of one level are put together. -/
theorem level_append (bytes more : List UInt8) :
    level depth (bytes ++ more) = level depth bytes ++ level depth more := List.map_append

/-- A character of a string, escaped or not. -/
theorem tracks_item (item : StringItem) :
    Tracks (inside depth) (level depth item.text) (inside depth) := by
  cases item with
  | plain byte unescaped =>
      refine tracks_plain fun other hother => ?_
      rw [List.mem_singleton.mp hother]
      exact unescaped.2
  | escape byte known => exact tracks_escape byte
  | unicode digits hex =>
      exact (tracks_escape 117).append (tracks_plain fun digit hdigit =>
        isHexDigit_plain (hex digit hdigit))

theorem tracks_items (items : List StringItem) :
    Tracks (inside depth) (level depth (items.flatMap StringItem.text)) (inside depth) := by
  induction items with
  | nil => exact .nil _
  | cons item rest ih =>
      rw [List.flatMap_cons, level_append]
      exact (tracks_item item).append ih

/-- **A string, from quote to quote**, whatever brackets are in it. -/
theorem tracks_string (items : List StringItem) :
    Tracks (outside depth) (level depth (stringText items)) (outside depth) := by
  have hopen : Tracks (outside depth) [(34, depth)] (inside depth) := .cons rfl (.nil _)
  have hclose : Tracks (inside depth) (level depth [34]) (outside depth) := .cons rfl (.nil _)
  have hbody := (tracks_items items).append hclose
  rw [← level_append] at hbody
  exact hopen.append hbody

/-! ### Containers -/

/-- What stands between brackets is one level deeper. -/
theorem tracks_between {first last : UInt8} {marks : List Mark}
    (hfirst : first = kLeftBrace ∨ first = kLeftBracket)
    (hlast : last = kRightBrace ∨ last = kRightBracket)
    (h : Tracks (outside (depth + 1)) marks (outside (depth + 1))) :
    Tracks (outside depth) ((first, depth + 1) :: (marks ++ [(last, depth)])) (outside depth) := by
  have hopen : freeStep (outside depth) first = outside (depth + 1) := by
    have hnotQuote : ¬ first = kQuote := by rcases hfirst with h | h <;> rw [h] <;> decide
    have houtside : ¬ (outside depth).inString = true := Bool.false_ne_true
    unfold freeStep depthStep
    rw [if_neg houtside, if_neg hnotQuote, if_pos hfirst, if_neg (lt_irrefl _)]
    rfl
  have hdepth : (outside (depth + 1)).depth > 0 := by
    show ((depth + 1 : Nat) : Int) > 0
    omega
  have hclose : freeStep (outside (depth + 1)) last = outside depth := by
    have hnotQuote : ¬ last = kQuote := by rcases hlast with h | h <;> rw [h] <;> decide
    have hnotOpen : ¬ (last = kLeftBrace ∨ last = kLeftBracket) := by
      rcases hlast with h | h <;> rw [h] <;> decide
    have houtside : ¬ (outside (depth + 1)).inString = true := Bool.false_ne_true
    unfold freeStep depthStep
    rw [if_neg houtside, if_neg hnotQuote, if_neg hnotOpen, if_pos ⟨hlast, hdepth⟩]
    show ({ depth := ((depth + 1 : Nat) : Int) - 1 } : DepthScan) = { depth := (depth : Int) }
    congr 1
    omega
  refine .cons (by rw [hopen]; rfl) ?_
  rw [hopen]
  refine h.append (.cons (by rw [hclose]; rfl) ?_)
  rw [hclose]
  exact .nil _

/-- A comma or a colon. -/
theorem tracks_separator {byte : UInt8} (h : IsNeutral byte) {marks : List Mark}
    (hrest : Tracks (outside depth) marks (outside depth)) :
    Tracks (outside depth) ((byte, depth) :: marks) (outside depth) := by
  refine .cons (by rw [freeStep_neutral h]; rfl) ?_
  rw [freeStep_neutral h]
  exact hrest

mutual

/-- **A value**: the counter comes back to where it was. -/
theorem tracks_value (value : Value) (depth : Nat) :
    Tracks (outside depth) (value.marks depth) (outside depth) := by
  cases value with
  | scalar scalar => exact tracks_level scalar.isNeutral
  | string items => exact tracks_string items
  | emptyArray between => exact tracks_between (.inr rfl) (.inr rfl) (tracks_blanks between)
  | array elements => exact tracks_between (.inr rfl) (.inr rfl) (tracks_elements elements _)
  | emptyObject between => exact tracks_between (.inl rfl) (.inl rfl) (tracks_blanks between)
  | object members => exact tracks_between (.inl rfl) (.inl rfl) (tracks_members members _)

/-- The elements of an array. -/
theorem tracks_elements (elements : Elements) (depth : Nat) :
    Tracks (outside depth) (elements.marks depth) (outside depth) := by
  cases elements with
  | last before value after =>
      exact ((tracks_blanks before).append (tracks_value value depth)).append (tracks_blanks after)
  | more before value after rest =>
      exact (((tracks_blanks before).append (tracks_value value depth)).append
        (tracks_blanks after)).append (tracks_separator (by decide) (tracks_elements rest depth))

/-- The members of an object. -/
theorem tracks_members (members : Members) (depth : Nat) :
    Tracks (outside depth) (members.marks depth) (outside depth) := by
  cases members with
  | last before key beforeColon afterColon value after =>
      exact (((tracks_blanks before).append (tracks_string key)).append
        (tracks_blanks beforeColon)).append (tracks_separator (by decide)
          (((tracks_blanks afterColon).append (tracks_value value depth)).append
            (tracks_blanks after)))
  | more before key beforeColon afterColon value after rest =>
      exact (((tracks_blanks before).append (tracks_string key)).append
        (tracks_blanks beforeColon)).append (tracks_separator (by decide)
          ((((tracks_blanks afterColon).append (tracks_value value depth)).append
            (tracks_blanks after)).append
              (tracks_separator (by decide) (tracks_members rest depth))))

end

/-- **On a document the counter is the number of open containers.** -/
theorem depth_eq_openAt (document : Document) (place : Nat) :
    ((document.text.take place).foldl freeStep {}).depth = document.openAt place := by
  have htracks : Tracks (outside 0) document.marks (outside 0) :=
    ((tracks_blanks document.before).append (tracks_value document.value 0)).append
      (tracks_blanks document.after)
  have hdepth := htracks.depth_eq place
  rw [List.map_take] at hdepth
  refine hdepth.trans ?_
  unfold Document.openAt openAfter
  cases (document.marks.take place).getLast? with
  | none => rfl
  | some mark => rfl

/-- **The guard agrees with the structure of JSON.**  It lets a document through exactly if no
point of it lies inside more containers than allowed.  And of whatever it lets through,
every beginning that may still become a document has at most so many containers open. -/
theorem nesting_guard_agrees (maximumDepth : Int) (hmaximum : 1 ≤ maximumDepth) :
    (∀ document : Document, withinDepth document.text maximumDepth = true ↔
      ∀ place, (document.openAt place : Int) ≤ maximumDepth) ∧
    ∀ text : Bytes, withinDepth text maximumDepth = true →
      ∀ read : Bytes, read <+: text → ∀ document : Document, read <+: document.text →
        (document.openAt read.length : Int) ≤ maximumDepth := by
  have hzero : 0 ≤ maximumDepth := by omega
  constructor
  · intro document
    rw [withinDepth_iff hzero]
    simp only [depth_eq_openAt]
  · intro text hwithin read hread document hdocument
    have hdepth := (withinDepth_iff hzero text).mp hwithin read.length
    rw [← List.prefix_iff_eq_take.mp hread] at hdepth
    rw [← depth_eq_openAt, ← List.prefix_iff_eq_take.mp hdocument]
    exact hdepth

/-- The document `[[]]`. -/
def nestedDocument : Document where
  before := []
  value := .array (.last [] (.emptyArray []) [])
  after := []

/-- It is let through at a depth of two and refused at a depth of one; and `[[}x`, of which `[[`
may still become it, is let through at a depth of two. -/
theorem nesting_guard_agrees_twice :
    (withinDepth nestedDocument.text 2 = true ∧ ∀ place, (nestedDocument.openAt place : Int) ≤ 2) ∧
    (withinDepth nestedDocument.text 1 = false ∧ ∃ place, (1 : Int) < nestedDocument.openAt place) ∧
    (withinDepth [91, 91, 125, 120] 2 = true ∧ [91, 91] <+: nestedDocument.text ∧
      (nestedDocument.openAt 2 : Int) ≤ 2) := by
  have htwice := nesting_guard_agrees 2 (by decide)
  have honce := nesting_guard_agrees 1 (by decide)
  have hallowed : withinDepth nestedDocument.text 2 = true := by decide +kernel
  have hrefused : withinDepth nestedDocument.text 1 = false := by decide +kernel
  have hbroken : withinDepth [91, 91, 125, 120] 2 = true := by decide +kernel
  have hread : [91, 91] <+: nestedDocument.text := by decide +kernel
  refine ⟨⟨hallowed, (htwice.1 nestedDocument).mp hallowed⟩, ⟨hrefused, ?_⟩,
    hbroken, hread, htwice.2 _ hbroken [91, 91] (by decide) nestedDocument hread⟩
  by_contra hshallow
  simp only [not_exists, not_lt] at hshallow
  rw [(honce.1 nestedDocument).mpr hshallow] at hrefused
  cases hrefused

end Validator

end PoolLb
