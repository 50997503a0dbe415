import Mathlib.Data.BitVec
import Mathlib.Data.List.TakeWhile
import Mathlib.Data.Nat.Cast.Order.Ring
import Mathlib.Order.Nat

/-!
# Numerals

A numeral is read from left to right: what has been read so far is multiplied by the
base, and the next digit is added.  What counts as a digit is a parameter, so that a
reader that takes too much can be compared with one that does not.
-/

namespace IbcsUs.Numerals

section Reading

variable {Letter : Type*} (digit : Letter → Option ℕ) (base : ℕ)

/-- The number that begins with `acc` and goes on with the text, `none` when one of
its letters is no digit. -/
def readNumeral : List Letter → ℕ → Option ℕ
  | [], acc => some acc
  | letter :: text, acc =>
      (digit letter).bind fun value => readNumeral text (acc * base + value)

/-- The letter is a digit. -/
def isDigit (letter : Letter) : Bool := (digit letter).isSome

theorem readNumeral_append (front back : List Letter) (acc : ℕ) :
    readNumeral digit base (front ++ back) acc =
      (readNumeral digit base front acc).bind (readNumeral digit base back) := by
  induction front generalizing acc with
  | nil => rfl
  | cons letter front ih =>
      rw [List.cons_append, readNumeral, readNumeral, Option.bind_assoc]
      congr 1
      funext value
      exact ih _

theorem isSome_readNumeral_iff (text : List Letter) (acc : ℕ) :
    (readNumeral digit base text acc).isSome ↔ ∀ letter ∈ text, isDigit digit letter := by
  induction text generalizing acc with
  | nil => simp [readNumeral]
  | cons letter text ih =>
      rw [readNumeral, List.forall_mem_cons, isDigit]
      cases hdigit : digit letter with
      | none => simp
      | some value => simp [ih]

/-- The leading digits of a text have a value. -/
theorem exists_readNumeral_takeWhile (text : List Letter) :
    ∃ value, readNumeral digit base (text.takeWhile (isDigit digit)) 0 = some value := by
  apply Option.isSome_iff_exists.mp
  rw [isSome_readNumeral_iff]
  intro letter hletter
  exact List.mem_takeWhile_imp hletter

end Reading

section Writing

variable {Letter : Type*} {digit : Letter → Option ℕ} {base : ℕ}

/-- Reading what `Nat.toDigits` writes, whatever letters stand for its digits. -/
theorem readNumeral_toDigits {letter : Char → Letter} (hbase : 1 < base)
    (hdigit : ∀ value < base, digit (letter value.digitChar) = some value) (number : ℕ) :
    readNumeral digit base ((Nat.toDigits base number).map letter) 0 = some number := by
  induction number using Nat.strong_induction_on with
  | _ number ih =>
      rw [Nat.toDigits_eq_if hbase]
      split
      · rename_i hlt
        rw [List.map_singleton, readNumeral, hdigit number hlt]
        simp [readNumeral]
      · rename_i hge
        have hdiv : number / base < number := Nat.div_lt_self (by omega) hbase
        have hmod : number % base < base := Nat.mod_lt _ (by omega)
        rw [List.map_append, readNumeral_append, ih _ hdiv, Option.bind_some,
          List.map_singleton, readNumeral, hdigit _ hmod]
        simp [readNumeral, Nat.div_add_mod']

end Writing

end IbcsUs.Numerals
