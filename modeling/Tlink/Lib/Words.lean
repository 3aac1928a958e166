import Mathlib.Data.List.Basic
import Mathlib.Data.List.GetD
import Mathlib.Data.Nat.Notation

/-!
# Words in a buffer of bytes

Words of 32 bits stand in a buffer with the most significant byte first. What is stored at one place is
read from there and leaves words elsewhere as they were.
-/
namespace Words

abbrev Byte := BitVec 8

abbrev Word := BitVec 32

def bytesOf (w : Word) : List Byte :=
  [w.extractLsb' 24 8, w.extractLsb' 16 8, w.extractLsb' 8 8, w.extractLsb' 0 8]

def wordOf (a b c d : Byte) : Word := a ++ b ++ c ++ d

/-- The word at some place; beyond its end the buffer reads as zero. -/
def load (buf : List Byte) (place : ℕ) : Word :=
  wordOf (buf.getD place 0) (buf.getD (place + 1) 0) (buf.getD (place + 2) 0) (buf.getD (place + 3) 0)

def store (buf : List Byte) (place : ℕ) (w : Word) : List Byte :=
  buf.take place ++ bytesOf w ++ buf.drop (place + 4)

def pack (ws : List Word) : List Byte := ws.flatMap bytesOf

@[simp] theorem length_bytesOf (w : Word) : (bytesOf w).length = 4 := rfl

theorem wordOf_bytesOf (w : Word) :
    wordOf (w.extractLsb' 24 8) (w.extractLsb' 16 8) (w.extractLsb' 8 8) (w.extractLsb' 0 8) = w := by
  apply BitVec.eq_of_getLsbD_eq
  intro i bound
  simp only [wordOf, BitVec.getLsbD_append, BitVec.getLsbD_extractLsb']
  grind

theorem load_append (front buf : List Byte) (place : ℕ) :
    load (front ++ buf) (front.length + place) = load buf place := by
  have byte : ∀ k, (front ++ buf).getD (front.length + place + k) 0 = buf.getD (place + k) 0 := by
    intro k
    rw [List.getD_append_right _ _ _ _ (by omega)]
    congr 1
    omega
  simp only [load, byte]
  exact congrArg (fun first => wordOf first _ _ _) (byte 0)

theorem load_take (buf : List Byte) (n place : ℕ) (inside : place + 4 ≤ n) :
    load (buf.take n) place = load buf place := by
  have byte : ∀ k, k < 4 → (buf.take n).getD (place + k) 0 = buf.getD (place + k) 0 := by
    intro k small
    simp only [List.getD_eq_getElem?_getD]
    rw [List.getElem?_take_of_lt (by omega)]
  rw [load, load, byte 1 (by omega), byte 2 (by omega), byte 3 (by omega)]
  exact congrArg (fun first => wordOf first _ _ _) (byte 0 (by omega))

theorem load_bytesOf (w : Word) (rest : List Byte) : load (bytesOf w ++ rest) 0 = w :=
  wordOf_bytesOf w

theorem length_store (buf : List Byte) (place : ℕ) (w : Word) (inside : place + 4 ≤ buf.length) :
    (store buf place w).length = buf.length := by
  simp only [store, List.length_append, List.length_take, List.length_drop, length_bytesOf]
  omega

theorem load_store (buf : List Byte) (place : ℕ) (w : Word) (inside : place + 4 ≤ buf.length) :
    load (store buf place w) place = w := by
  have before : (buf.take place).length = place := by
    rw [List.length_take]
    omega
  have shifted := load_append (buf.take place) (bytesOf w ++ buf.drop (place + 4)) 0
  rw [before, Nat.add_zero place] at shifted
  rw [store, List.append_assoc, shifted, load_bytesOf]

theorem load_store_apart (buf : List Byte) (place other : ℕ) (w : Word)
    (inside : place + 4 ≤ buf.length) (apart : other + 4 ≤ place ∨ place + 4 ≤ other) :
    load (store buf place w) other = load buf other := by
  have byte : ∀ k, k < 4 → (store buf place w).getD (other + k) 0 = buf.getD (other + k) 0 := by
    intro k small
    have before : (buf.take place).length = place := by
      rw [List.length_take]
      omega
    rcases apart with below | above
    · rw [store, List.append_assoc, List.getD_append _ _ _ _ (by omega)]
      simp only [List.getD_eq_getElem?_getD]
      rw [List.getElem?_take_of_lt (by omega)]
    · have front : (buf.take place ++ bytesOf w).length = place + 4 := by
        rw [List.length_append, before, length_bytesOf]
      rw [store, List.getD_append_right _ _ _ _ (by omega), front]
      simp only [List.getD_eq_getElem?_getD]
      rw [List.getElem?_drop]
      congr 2
      omega
  rw [load, load, byte 1 (by omega), byte 2 (by omega), byte 3 (by omega)]
  exact congrArg (fun first => wordOf first _ _ _) (byte 0 (by omega))

theorem length_pack (ws : List Word) : (pack ws).length = 4 * ws.length := by
  induction ws with
  | nil => rfl
  | cons w ws ih =>
    rw [pack, List.flatMap_cons, List.length_append, length_bytesOf, ← pack, ih, List.length_cons]
    omega

theorem load_pack (ws : List Word) (rest : List Byte) (k : ℕ) (inside : k < ws.length) :
    load (pack ws ++ rest) (4 * k) = ws[k] := by
  induction ws generalizing k with
  | nil => simp at inside
  | cons w ws ih =>
    cases k with
    | zero =>
      rw [pack, List.flatMap_cons, List.append_assoc]
      exact load_bytesOf w _
    | succ k =>
      rw [pack, List.flatMap_cons, List.append_assoc, ← pack]
      have shifted := load_append (bytesOf w) (pack ws ++ rest) (4 * k)
      rw [length_bytesOf] at shifted
      rw [Nat.mul_succ, Nat.add_comm, shifted]
      exact ih k (by simpa using inside)

/-! ### Halves of a longer word -/

def high (x : BitVec 64) : Word := x.extractLsb' 32 32

def low (x : BitVec 64) : Word := x.extractLsb' 0 32

theorem or_halves (x : BitVec 64) :
    (low x).setWidth 64 ||| (high x).setWidth 64 <<< 32 = x := by
  apply BitVec.eq_of_getLsbD_eq
  intro i bound
  simp only [low, high, BitVec.getLsbD_or, BitVec.getLsbD_setWidth, BitVec.getLsbD_shiftLeft,
    BitVec.getLsbD_extractLsb']
  grind

theorem add_halves (x : BitVec 64) :
    (high x).setWidth 64 <<< 32 + (low x).setWidth 64 = x := by
  rw [BitVec.add_eq_or_of_and_eq_zero, BitVec.or_comm, or_halves]
  apply BitVec.eq_of_getLsbD_eq
  intro i bound
  simp only [low, high, BitVec.getLsbD_and, BitVec.getLsbD_setWidth, BitVec.getLsbD_shiftLeft,
    BitVec.getLsbD_extractLsb', BitVec.getLsbD_zero]
  grind

end Words
