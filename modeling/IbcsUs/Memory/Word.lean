import Mathlib.Data.BitVec
import Mathlib.Data.Nat.Cast.Order.Ring
import Mathlib.Order.Nat

/-!
# 32-bit words, pages and kernel error values

The emulator is an i386 program: addresses and sizes are 32-bit words and their
arithmetic wraps.  A word is kept as a natural number and every operation of the
source that may wrap reduces its result modulo `2 ^ 32`.  The page macros, with
`PAGE_SIZE` 4096, and the test for a kernel error value are those of `mm.h` and
`ibcs-lib.h`.
-/

namespace IbcsUs.Memory

/-- Addition of two words. -/
def wordAdd (left right : ℕ) : ℕ := (left + right) % 2 ^ 32

/-- Subtraction of two words. -/
def wordSub (left right : ℕ) : ℕ := (left + (2 ^ 32 - right)) % 2 ^ 32

/-- `x & PAGE_MASK`. -/
def pageMask (address : ℕ) : ℕ := address / 4096 * 4096

/-- `PAGE_ALIGN(x)`, which wraps to zero in the last page of memory. -/
def pageAlign (address : ℕ) : ℕ := pageMask (wordAdd address (4096 - 1))

/-- `IBCS_IS_ERR(x)`. -/
def isErr (value : ℕ) : Bool := 2 ^ 32 - 4096 < value

/-- A kernel error number. -/
structure Errno where
  number : ℕ
  pos : 0 < number
  lt : number < 4096
  deriving DecidableEq

/-- The word the kernel returns for an error, `-errno`. -/
def Errno.word (errno : Errno) : ℕ := 2 ^ 32 - errno.number

/-- `ENOMEM`. -/
def enomem : Errno := ⟨12, by decide, by decide⟩

/-- What the kernel answers to a request for memory. -/
inductive KernelAnswer where
  | granted
  | refused (errno : Errno)
  deriving DecidableEq

theorem isErr_errno_word (errno : Errno) : isErr errno.word = true := by
  have hpos := errno.pos
  have hlt := errno.lt
  apply decide_eq_true
  simp only [Errno.word]
  omega

theorem isErr_eq_false_iff {value : ℕ} :
    isErr value = false ↔ value ≤ 2 ^ 32 - 4096 := by
  simp [isErr]

theorem pageAlign_mod (address : ℕ) : pageAlign address % 4096 = 0 := by
  simp [pageAlign, pageMask]

theorem pageAlign_lt (address : ℕ) : pageAlign address < 2 ^ 32 := by
  simp only [pageAlign, pageMask, wordAdd]
  omega

/-- Below the last page `PAGE_ALIGN` is the least multiple of the page size at
or above its argument. -/
theorem pageAlign_bounds {address : ℕ} (hlow : address ≤ 2 ^ 32 - 4096) :
    address ≤ pageAlign address ∧ pageAlign address < address + 4096 := by
  simp only [pageAlign, pageMask, wordAdd] at *
  omega

/-- In the last page `PAGE_ALIGN` wraps to zero. -/
theorem pageAlign_high {address : ℕ} (hhigh : 2 ^ 32 - 4096 < address)
    (hword : address < 2 ^ 32) : pageAlign address = 0 := by
  simp only [pageAlign, pageMask, wordAdd] at *
  omega

theorem pageAlign_of_aligned {address : ℕ} (haligned : address % 4096 = 0)
    (hword : address < 2 ^ 32) : pageAlign address = address := by
  simp only [pageAlign, pageMask, wordAdd] at *
  omega

/-- No page-aligned word is a kernel error value. -/
theorem isErr_pageAligned {address : ℕ} (haligned : address % 4096 = 0)
    (hword : address < 2 ^ 32) : isErr address = false := by
  rw [isErr_eq_false_iff]
  omega

theorem wordSub_of_le {left right : ℕ} (hle : right ≤ left)
    (hword : left < 2 ^ 32) : wordSub left right = left - right := by
  simp only [wordSub]
  omega

end IbcsUs.Memory
