import Mathlib.Data.Int.Notation
import Mathlib.Data.List.TakeWhile

/-!
# Decimal numerals followed by a unit

A command line carries numbers as text such as `40kbit` or `20ms`. `print` writes
an integer and a unit, `read` splits such a text again, and `read_print` says that
nothing is lost as long as the unit does not itself start with a digit.
-/
namespace Numeral

/-- The text of `n`, followed by `unit`. -/
def print (n : ℤ) (unit : String) : String := toString n ++ unit

def readDigits (cs : List Char) : Option (ℕ × List Char) :=
  if cs.takeWhile Char.isDigit = [] then none
  else some (Nat.ofDigitChars 10 (cs.takeWhile Char.isDigit) 0, cs.dropWhile Char.isDigit)

def readInt : List Char → Option (ℤ × List Char)
  | '-' :: cs => (readDigits cs).map fun r => (-(r.1 : ℤ), r.2)
  | cs => (readDigits cs).map fun r => ((r.1 : ℤ), r.2)

/-- An optional sign and the longest run of digits, with the text that follows. -/
def read (s : String) : Option (ℤ × String) :=
  (readInt s.toList).map fun r => (r.1, String.ofList r.2)

/-- The texts that cannot be mistaken for a continuation of the number. -/
def IsUnit (unit : String) : Prop := ∀ c ∈ unit.toList.head?, c.isDigit = false

instance (unit : String) : Decidable (IsUnit unit) :=
  decidable_of_iff (unit.toList.head?.all (fun c => !c.isDigit) = true)
    (by cases start : unit.toList.head? <;> simp [IsUnit, start])

private theorem digits_all (n : ℕ) : ∀ c ∈ Nat.toDigits 10 n, c.isDigit = true :=
  fun _ member => Nat.isDigit_of_mem_toDigits (by decide) (by decide) member

private theorem readDigits_toDigits (n : ℕ) (rest : List Char)
    (stop : ∀ c ∈ rest.head?, c.isDigit = false) :
    readDigits (Nat.toDigits 10 n ++ rest) = some (n, rest) := by
  have taken : (Nat.toDigits 10 n ++ rest).takeWhile Char.isDigit = Nat.toDigits 10 n := by
    rw [List.takeWhile_append_of_pos (digits_all n)]
    cases rest with
    | nil => simp
    | cons c cs => simp [stop c (by simp)]
  have dropped : (Nat.toDigits 10 n ++ rest).dropWhile Char.isDigit = rest := by
    rw [List.dropWhile_append_of_pos (digits_all n)]
    cases rest with
    | nil => simp
    | cons c cs => simp [stop c (by simp)]
  simp [readDigits, taken, dropped, Nat.toDigits_ne_nil, Nat.ofDigitChars_ten_toDigits]

private theorem readInt_nat (n : ℕ) (rest : List Char)
    (stop : ∀ c ∈ rest.head?, c.isDigit = false) :
    readInt (Nat.toDigits 10 n ++ rest) = some ((n : ℤ), rest) := by
  have digits := readDigits_toDigits n rest stop
  cases text : Nat.toDigits 10 n with
  | nil => exact absurd text Nat.toDigits_ne_nil
  | cons c cs =>
    have digit : c.isDigit = true := digits_all n c (by simp [text])
    -- the sign is tried first, and a digit is no sign
    have unsigned : c ≠ '-' := by rintro rfl; exact absurd digit (by decide)
    rw [text] at digits
    rw [List.cons_append] at digits ⊢
    unfold readInt
    split
    next same => exact absurd (List.cons.inj same).1 unsigned
    next => simp [digits]

theorem read_print (n : ℤ) (unit : String) (isUnit : IsUnit unit) :
    read (print n unit) = some (n, unit) := by
  have text : (print n unit).toList = n.repr.toList ++ unit.toList := by
    simp [print, toString]
  cases n with
  | ofNat n =>
    have digits : (Int.ofNat n).repr.toList = Nat.toDigits 10 n := by
      simp [Int.repr]
    -- `read` produces a cast where `cases` left a constructor
    have value : ((n : ℕ) : ℤ) = Int.ofNat n := rfl
    simp only [read, text, digits, readInt_nat n unit.toList isUnit, Option.map_some, value,
      String.ofList_toList]
  | negSucc n =>
    have digits : (Int.negSucc n).repr.toList = '-' :: Nat.toDigits 10 (n + 1) := by
      simp [Int.repr]
    have value : (-((n + 1 : ℕ) : ℤ)) = Int.negSucc n := rfl
    simp only [read, text, digits, List.cons_append, readInt,
      readDigits_toDigits (n + 1) unit.toList isUnit, Option.map_some, value, String.ofList_toList]

/-! ### Numbers without a unit, in the base their prefix announces -/

def digitValue (c : Char) : ℕ :=
  if c.isDigit then c.toNat - '0'.toNat
  else if 'a' ≤ c ∧ c ≤ 'f' then c.toNat - 'a'.toNat + 10
  else if 'A' ≤ c ∧ c ≤ 'F' then c.toNat - 'A'.toNat + 10
  else 16

def readBase (base : ℕ) (cs : List Char) : Option ℕ :=
  if cs.isEmpty then none
  else cs.foldlM (fun n c => if digitValue c < base then some (base * n + digitValue c) else none) 0

/-- `0x2c` is hexadecimal, `010` octal and `10` decimal. -/
def readNat (s : String) : Option ℕ :=
  match s.toList with
  | '0' :: 'x' :: cs => readBase 16 cs
  | '0' :: c :: cs => readBase 8 (c :: cs)
  | cs => readBase 10 cs

example : readNat "0x2c" = some 44 := by decide

end Numeral
