import Mathlib.Tactic.Common

/-!
# The texts of JSON documents

The grammar of JSON over bytes, with everything that is written and means nothing:
blanks wherever they may stand, and every way to write a number or a string.  A tree of
`Value` is one way to write a document.  `marks` writes it down, each byte together
with the number of arrays and objects that are open behind it.
-/

namespace JsonText

/-! ## Blanks, strings and numbers -/

inductive Blank where
  | space
  | tab
  | newline
  | carriageReturn
deriving DecidableEq, Repr

def Blank.byte : Blank → UInt8
  | .space => 32
  | .tab => 9
  | .newline => 10
  | .carriageReturn => 13

def isHexDigit (byte : UInt8) : Bool :=
  (48 ≤ byte ∧ byte ≤ 57) ∨ (65 ≤ byte ∧ byte ≤ 70) ∨ (97 ≤ byte ∧ byte ≤ 102)

/-- A piece of a string: a byte that stands for itself, or an escape. -/
inductive StringItem where
  | plain (byte : UInt8) (unescaped : 32 ≤ byte ∧ byte ≠ 34 ∧ byte ≠ 92)
  | escape (byte : UInt8) (known : byte ∈ [34, 92, 47, 98, 102, 110, 114, 116])
  | unicode (digits : Vector UInt8 4) (hex : ∀ digit ∈ digits.toList, isHexDigit digit = true)

def StringItem.text : StringItem → List UInt8
  | .plain byte _ => [byte]
  | .escape byte _ => [92, byte]
  | .unicode digits _ => 92 :: 117 :: digits.toList

/-- A string in its quotes. -/
def stringText (items : List StringItem) : List UInt8 :=
  34 :: (items.flatMap StringItem.text ++ [34])

/-- Decimal digits, at least one. -/
structure Digits where
  digits : List UInt8
  nonempty : digits ≠ []
  decimal : ∀ digit ∈ digits, 48 ≤ digit ∧ digit ≤ 57

inductive Sign where
  | none
  | plus
  | minus
deriving DecidableEq, Repr

def Sign.text : Sign → List UInt8
  | .none => []
  | .plus => [43]
  | .minus => [45]

structure Exponent where
  upper : Bool
  sign : Sign
  digits : Digits

def Exponent.text (exponent : Exponent) : List UInt8 :=
  (if exponent.upper then 69 else 101) :: (exponent.sign.text ++ exponent.digits.digits)

/-- A number; only zero starts with a zero. -/
structure Number where
  negative : Bool
  whole : Digits
  noLeadingZero : 2 ≤ whole.digits.length → whole.digits.head? ≠ some 48
  fraction : Option Digits
  exponent : Option Exponent

def Number.text (number : Number) : List UInt8 :=
  (if number.negative then [45] else []) ++ number.whole.digits ++
    (match number.fraction with
      | none => []
      | some fraction => 46 :: fraction.digits) ++
    (match number.exponent with
      | none => []
      | some exponent => exponent.text)

inductive Scalar where
  | null
  | true
  | false
  | number (number : Number)

def Scalar.text : Scalar → List UInt8
  | .null => [110, 117, 108, 108]
  | .true => [116, 114, 117, 101]
  | .false => [102, 97, 108, 115, 101]
  | .number value => value.text

/-- A byte that is part of no string and opens and closes nothing. -/
def IsNeutral (byte : UInt8) : Prop :=
  byte ≠ 34 ∧ byte ≠ 91 ∧ byte ≠ 93 ∧ byte ≠ 123 ∧ byte ≠ 125

instance (byte : UInt8) : Decidable (IsNeutral byte) := by
  unfold IsNeutral
  infer_instance

/-- White space opens and closes nothing. -/
theorem Blank.isNeutral (blank : Blank) : IsNeutral blank.byte := by
  cases blank <;> decide

/-- Nor do digits. -/
theorem Digits.isNeutral (digits : Digits) : ∀ byte ∈ digits.digits, IsNeutral byte := by
  intro byte hbyte
  have hother : ∀ other : UInt8, ¬ (48 ≤ other ∧ other ≤ 57) → byte ≠ other := by
    intro other hout hsame
    exact hout (hsame ▸ digits.decimal byte hbyte)
  exact ⟨hother 34 (by decide), hother 91 (by decide), hother 93 (by decide),
    hother 123 (by decide), hother 125 (by decide)⟩

/-- A text of neutral bytes, by inspection. -/
theorem isNeutral_of_all {bytes : List UInt8} (h : (bytes.all fun byte => IsNeutral byte) = true) :
    ∀ byte ∈ bytes, IsNeutral byte :=
  fun byte hbyte => of_decide_eq_true (List.all_eq_true.mp h byte hbyte)

/-- An exponent has a letter, a sign and digits. -/
theorem Exponent.isNeutral (exponent : Exponent) : ∀ byte ∈ exponent.text, IsNeutral byte := by
  intro byte hbyte
  unfold Exponent.text at hbyte
  rcases List.mem_cons.mp hbyte with hmark | hrest
  · cases hupper : exponent.upper <;> rw [hupper] at hmark <;> subst hmark <;> decide
  · rcases List.mem_append.mp hrest with hsign | hdigits
    · have hall : ∀ sign : Sign, ∀ byte ∈ sign.text, IsNeutral byte := by
        intro sign
        apply isNeutral_of_all
        cases sign <;> decide
      exact hall exponent.sign byte hsign
    · exact exponent.digits.isNeutral byte hdigits

/-- A number has digits, a sign, a point and an exponent. -/
theorem Number.isNeutral (number : Number) : ∀ byte ∈ number.text, IsNeutral byte := by
  intro byte hbyte
  unfold Number.text at hbyte
  rcases List.mem_append.mp hbyte with hbyte | hexponent
  · rcases List.mem_append.mp hbyte with hbyte | hfraction
    · rcases List.mem_append.mp hbyte with hminus | hwhole
      · split at hminus
        · rw [List.mem_singleton.mp hminus]
          decide
        · cases hminus
      · exact number.whole.isNeutral byte hwhole
    · split at hfraction
      · cases hfraction
      · rename_i fraction _
        rcases List.mem_cons.mp hfraction with hpoint | hdigits
        · rw [hpoint]
          decide
        · exact fraction.isNeutral byte hdigits
  · split at hexponent
    · cases hexponent
    · rename_i exponent _
      exact exponent.isNeutral byte hexponent

/-- The three names are letters. -/
theorem Scalar.isNeutral (scalar : Scalar) : ∀ byte ∈ scalar.text, IsNeutral byte := by
  cases scalar with
  | number value => exact value.isNeutral
  | null => exact isNeutral_of_all (by decide)
  | true => exact isNeutral_of_all (by decide)
  | false => exact isNeutral_of_all (by decide)

/-! ## Documents -/

mutual

inductive Value where
  | scalar (scalar : Scalar)
  | string (items : List StringItem)
  | emptyArray (blanks : List Blank)
  | array (elements : Elements)
  | emptyObject (blanks : List Blank)
  | object (members : Members)

/-- The elements of an array, with the commas between them. -/
inductive Elements where
  | last (before : List Blank) (value : Value) (after : List Blank)
  | more (before : List Blank) (value : Value) (after : List Blank) (rest : Elements)

/-- The members of an object, with the commas between them. -/
inductive Members where
  | last (before : List Blank) (key : List StringItem) (beforeColon afterColon : List Blank)
      (value : Value) (after : List Blank)
  | more (before : List Blank) (key : List StringItem) (beforeColon afterColon : List Blank)
      (value : Value) (after : List Blank) (rest : Members)

end

/-- A byte and how many containers are open behind it. -/
abbrev Mark := UInt8 × Nat

/-- Bytes that open and close nothing. -/
def level (depth : Nat) (bytes : List UInt8) : List Mark := bytes.map fun byte => (byte, depth)

def blanks (depth : Nat) (blanks : List Blank) : List Mark := level depth (blanks.map Blank.byte)

mutual

/-- A value inside `depth` containers. -/
def Value.marks (depth : Nat) : Value → List Mark
  | .scalar scalar => level depth scalar.text
  | .string items => level depth (stringText items)
  | .emptyArray inside => (91, depth + 1) :: (blanks (depth + 1) inside ++ [(93, depth)])
  | .array elements => (91, depth + 1) :: (elements.marks (depth + 1) ++ [(93, depth)])
  | .emptyObject inside => (123, depth + 1) :: (blanks (depth + 1) inside ++ [(125, depth)])
  | .object members => (123, depth + 1) :: (members.marks (depth + 1) ++ [(125, depth)])

def Elements.marks (depth : Nat) : Elements → List Mark
  | .last before value after => blanks depth before ++ value.marks depth ++ blanks depth after
  | .more before value after rest =>
      blanks depth before ++ value.marks depth ++ blanks depth after ++
        (44, depth) :: rest.marks depth

def Members.marks (depth : Nat) : Members → List Mark
  | .last before key beforeColon afterColon value after =>
      blanks depth before ++ level depth (stringText key) ++ blanks depth beforeColon ++
        (58, depth) :: (blanks depth afterColon ++ value.marks depth ++ blanks depth after)
  | .more before key beforeColon afterColon value after rest =>
      blanks depth before ++ level depth (stringText key) ++ blanks depth beforeColon ++
        (58, depth) :: (blanks depth afterColon ++ value.marks depth ++ blanks depth after ++
          (44, depth) :: rest.marks depth)

end

/-- A document: a value between blanks. -/
structure Document where
  before : List Blank
  value : Value
  after : List Blank

def Document.marks (document : Document) : List Mark :=
  blanks 0 document.before ++ document.value.marks 0 ++ blanks 0 document.after

/-- The bytes of a document. -/
def Document.text (document : Document) : List UInt8 := document.marks.map Prod.fst

/-- How many containers are open behind some marks. -/
def openAfter (marks : List Mark) : Nat :=
  match marks.getLast? with
  | none => 0
  | some mark => mark.2

/-- How many containers are open behind the first `place` bytes. -/
def Document.openAt (document : Document) (place : Nat) : Nat :=
  openAfter (document.marks.take place)

end JsonText
