import IbcsUs.Core.WordMemory
import IbcsUs.Startup.Getoption

/-!
# The stack of the program

`_start` finds its arguments on the stack that the kernel has made, and `main` ends by a
jump into the program, with the stack pointer below the first argument that is the
program's.  The word there, where the last argument of `ibcs-us` was, becomes `argc`.
-/

namespace IbcsUs.Handover

open Getoption WordMemory

/-! ## The stack of a new process -/

/-- The words from an address on. -/
def WordsFrom (memory : Memory) (address : BitVec 32) (words : List (BitVec 32)) : Prop :=
  ∀ index word, words[index]? = some word →
    readWord memory (address + BitVec.ofNat 32 (4 * index)) = word

/-- The pointers to the arguments and to the environment, and what is behind them. -/
structure Stack where
  argv : List (BitVec 32)
  envp : List (BitVec 32)
  auxv : List (BitVec 32)

/-- The vectors. -/
def Stack.vectors (stack : Stack) : List (BitVec 32) :=
  stack.argv ++ 0 :: (stack.envp ++ 0 :: stack.auxv)

def Stack.words (stack : Stack) : List (BitVec 32) :=
  BitVec.ofNat 32 stack.argv.length :: stack.vectors

/-- The text of an argument with its terminator. -/
def ArgumentAt (memory : Memory) (pointer : BitVec 32) (arg : Argument) : Prop :=
  ∀ index ≤ arg.text.length,
    (memory (pointer + BitVec.ofNat 32 index)).toNat = (arg.char index).toNat

/-- No byte of the text is one of these bytes. -/
def Outside (address : BitVec 32) (size : ℕ) (pointer : BitVec 32) (arg : Argument) : Prop :=
  ∀ index ≤ arg.text.length, size ≤ (pointer + BitVec.ofNat 32 index - address).toNat

/-- A process starts with these arguments. -/
structure StartsWith (memory : Memory) (sp : BitVec 32) (stack : Stack)
    (args : List Argument) : Prop where
  words : WordsFrom memory sp stack.words
  size_lt : 4 * stack.words.length < 2 ^ 31
  texts : List.Forall₂ (ArgumentAt memory) stack.argv args
  outside : List.Forall₂ (Outside sp (4 * stack.words.length)) stack.argv args

/-! ## `_start` and `main` -/

structure MainArguments where
  argc : BitVec 32
  argv : BitVec 32
  envp : BitVec 32

/-- `_start`, whose `arg0` is behind `argc`. -/
def start (memory : Memory) (sp : BitVec 32) : MainArguments :=
  let argc := readWord memory sp
  let arg0 := sp + 4
  ⟨argc, arg0, arg0 + (argc + 1) * 4⟩

/-- `ibcs_argv`, once `getoption` has left these arguments of those behind `argv[0]`. -/
def ibcsArgv (argv : BitVec 32) (args rest : List Argument) : BitVec 32 :=
  argv + BitVec.ofNat 32 (4 * (args.length + 1 - rest.length))

/-- The end of `main`: the memory, and the stack pointer that the program gets. -/
def handOver (memory : Memory) (arguments : MainArguments) (ibcsArgv : BitVec 32) :
    Memory × BitVec 32 :=
  let argc := arguments.argc - (ibcsArgv - arguments.argv).sshiftRight 2
  (writeWord memory (ibcsArgv - 4) argc, ibcsArgv - 4)

/-! ## What `getoption` leaves -/

/-- What the call leaves is the end of what it has been given. -/
def LeavesEnd (argv : List Argument) : Call → Prop
  | .found _ _ left _ => left <:+ argv
  | .finished left => left <:+ argv
  | .usage _ => True

section LeavesEnd

variable {option message : List Char} {options : List (List Char)} {av : Argument}
  {argv rest : List Argument} {optindex : ℕ}

theorem LeavesEnd.of_suffix {call : Call} (hleaves : LeavesEnd argv call)
    (hsuffix : argv <:+ rest) : LeavesEnd rest call := by
  cases call with
  | found option arg left optindex => exact List.IsSuffix.trans hleaves hsuffix
  | finished left => exact List.IsSuffix.trans hleaves hsuffix
  | usage message => trivial

theorem leavesEnd_valueInNext : LeavesEnd argv (valueInNext option message argv) := by
  cases argv with
  | nil => trivial
  | cons value argv => exact List.suffix_cons value argv

theorem leavesEnd_shortFound : LeavesEnd (av :: argv) (shortFound option av argv optindex) := by
  unfold shortFound
  split_ifs
  · exact List.suffix_rfl
  · exact List.suffix_cons av argv
  · exact leavesEnd_valueInNext.of_suffix (List.suffix_cons av argv)

theorem leavesEnd_longFound : LeavesEnd (av :: argv) (longFound option av argv) := by
  simp only [longFound]
  split_ifs
  · trivial
  · exact List.suffix_cons av argv
  · exact List.suffix_cons av argv
  · exact leavesEnd_valueInNext.of_suffix (List.suffix_cons av argv)

theorem leavesEnd_searchOptions :
    LeavesEnd (av :: argv) (searchOptions options av argv optindex) := by
  induction options with
  | nil =>
    rw [searchOptions]
    split_ifs <;> trivial
  | cons option options ih =>
    rw [searchOptions]
    split_ifs
    · exact leavesEnd_shortFound
    · exact ih
    · exact leavesEnd_longFound
    · exact ih

theorem suffix_nextLetter : (nextLetter argv optindex).1 <:+ argv := by
  match argv, optindex with
  | argv, 0 => simp [nextLetter]
  | [], index + 1 => simp [nextLetter]
  | av :: argv, index + 1 =>
      rw [nextLetter]
      split_ifs
      · exact List.suffix_cons av argv
      · exact List.suffix_rfl

theorem leavesEnd_getoption : LeavesEnd argv (getoption options argv optindex) := by
  have hnext := @suffix_nextLetter argv optindex
  unfold getoption
  split
  · exact List.nil_suffix
  · next av left index hletter =>
    rw [hletter] at hnext
    split_ifs
    · exact (List.suffix_cons av left).trans hnext
    · exact hnext
    · exact leavesEnd_searchOptions.of_suffix hnext
    · exact leavesEnd_searchOptions.of_suffix hnext
    · exact leavesEnd_searchOptions.of_suffix hnext

/-- What the loop leaves is the end of the arguments. -/
theorem suffix_of_calls {found : List (List Char × Option (List Char))}
    (hcalls : Calls options argv optindex found (.finished rest)) : rest <:+ argv := by
  generalize houtcome : Outcome.finished rest = outcome at hcalls
  induction hcalls with
  | @finished argv optindex left hcall =>
    have hleaves := @leavesEnd_getoption options argv optindex
    rw [hcall] at hleaves
    obtain rfl := Outcome.finished.inj houtcome
    exact hleaves
  | usage hcall => cases houtcome
  | @found argv optindex option arg left optindex' more outcome hcall hmore ih =>
    have hleaves := @leavesEnd_getoption options argv optindex
    rw [hcall] at hleaves
    exact (ih houtcome).trans hleaves

end LeavesEnd

/-! ## Words and texts in memory -/

section Memory

variable {memory : Memory} {address sp pointer word value : BitVec 32}
  {words : List (BitVec 32)} {arg : Argument} {size count : ℕ}

@[simp]
theorem wordsFrom_nil : WordsFrom memory address [] := by
  intro index word hword
  cases hword

theorem wordsFrom_cons :
    WordsFrom memory address (word :: words) ↔
      readWord memory address = word ∧ WordsFrom memory (address + 4) words := by
  have hshift : ∀ index : ℕ, address + BitVec.ofNat 32 (4 * (index + 1)) =
      address + 4 + BitVec.ofNat 32 (4 * index) := by
    intro index
    rw [Nat.mul_add, BitVec.ofNat_add, add_comm (BitVec.ofNat 32 (4 * index)), add_assoc]
    rfl
  constructor
  · intro hwords
    refine ⟨by simpa using hwords 0 word rfl, fun index other hother => ?_⟩
    rw [← hshift]
    exact hwords (index + 1) other hother
  · rintro ⟨hword, hwords⟩ index other hother
    cases index with
    | zero =>
      obtain rfl := Option.some.inj hother
      simpa using hword
    | succ index =>
      rw [hshift]
      exact hwords index other hother

theorem wordsFrom_drop (hwords : WordsFrom memory address words) (count : ℕ) :
    WordsFrom memory (address + BitVec.ofNat 32 (4 * count)) (words.drop count) := by
  intro index word hword
  rw [List.getElem?_drop] at hword
  rw [add_assoc, ← BitVec.ofNat_add, ← Nat.mul_add]
  exact hwords (count + index) word hword

/-- A word in front of others is put. -/
theorem wordsFrom_writeWord (hwords : WordsFrom memory (address + 4) words)
    (hlength : 4 * (words.length + 1) ≤ 2 ^ 32) :
    WordsFrom (writeWord memory address value) address (value :: words) := by
  refine wordsFrom_cons.mpr ⟨readWord_writeWord, fun index word hword => ?_⟩
  have hindex := (List.getElem?_eq_some_iff.mp hword).1
  have hfour : (4 : BitVec 32).toNat = 4 := rfl
  have hapart : Apart address (address + (4 + BitVec.ofNat 32 (4 * index))) := by
    rw [Apart, add_sub_cancel_left, sub_add_cancel_left, BitVec.toNat_neg, BitVec.toNat_add,
      BitVec.toNat_ofNat, hfour]
    omega
  rw [add_assoc, readWord_writeWord_of_apart hapart, ← add_assoc]
  exact hwords index word hword

theorem argumentAt_writeWord (hargument : ArgumentAt memory pointer arg)
    (houtside : Outside address size pointer arg) (hsize : 4 ≤ size) :
    ArgumentAt (writeWord memory address value) pointer arg := by
  intro index hindex
  rw [writeWord_outside (hsize.trans (houtside index hindex))]
  exact hargument index hindex

theorem outside_drop (houtside : Outside sp (4 * size) pointer arg) (hcount : count ≤ size) :
    Outside (sp + BitVec.ofNat 32 (4 * count)) (4 * (size - count)) pointer arg := by
  intro index hindex
  have hbyte := houtside index hindex
  have hlt := (pointer + BitVec.ofNat 32 index - sp).isLt
  rw [← sub_sub, BitVec.toNat_sub, BitVec.toNat_ofNat]
  omega

end Memory

/-! ## The program's stack -/

section HandOver

variable {memory : Memory} {sp : BitVec 32} {stack : Stack} {me : Argument}
  {args rest : List Argument}

/-- The stack without its first arguments. -/
def Stack.without (stack : Stack) (count : ℕ) : Stack :=
  { stack with argv := stack.argv.drop count }

theorem Stack.vectors_without {count : ℕ} (hcount : count ≤ stack.argv.length) :
    (stack.without count).vectors = stack.vectors.drop count := by
  rw [Stack.vectors, Stack.vectors, List.drop_append_of_le_length hcount]
  rfl

theorem Stack.length_words (stack : Stack) :
    stack.words.length = stack.argv.length + stack.envp.length + stack.auxv.length + 3 := by
  simp only [Stack.words, Stack.vectors, List.length_cons, List.length_append]
  omega

theorem Stack.length_words_without {count : ℕ} (hcount : count ≤ stack.argv.length) :
    (stack.without count).words.length = stack.words.length - count := by
  simp only [Stack.length_words, Stack.without, List.length_drop]
  omega

/-- `argc` and the stack pointer at the end of `main`. -/
theorem handOver_eq {count : ℕ} (hwords : WordsFrom memory sp stack.words)
    (hcount : count ≤ stack.argv.length) (hlength : 4 * stack.argv.length < 2 ^ 31) :
    handOver memory (start memory sp) (sp + 4 + BitVec.ofNat 32 (4 * count)) =
      (writeWord memory (sp + BitVec.ofNat 32 (4 * count))
        (BitVec.ofNat 32 (stack.argv.length - count)), sp + BitVec.ofNat 32 (4 * count)) := by
  have hargc : readWord memory sp = BitVec.ofNat 32 stack.argv.length :=
    (wordsFrom_cons.mp hwords).1
  have hsp : sp + 4 + BitVec.ofNat 32 (4 * count) - 4 = sp + BitVec.ofNat 32 (4 * count) := by
    rw [add_right_comm, add_sub_cancel_right]
  have hdistance : sp + 4 + BitVec.ofNat 32 (4 * count) - (sp + 4) =
      BitVec.ofNat 32 (4 * count) := add_sub_cancel_left _ _
  have hshift : (BitVec.ofNat 32 (4 * count)).sshiftRight 2 = BitVec.ofNat 32 count := by
    rw [BitVec.sshiftRight_eq_of_msb_false (BitVec.msb_eq_false_iff_two_mul_lt.mpr (by
      rw [BitVec.toNat_ofNat]
      omega))]
    apply BitVec.eq_of_toNat_eq
    rw [BitVec.toNat_ushiftRight, BitVec.toNat_ofNat, BitVec.toNat_ofNat,
      Nat.shiftRight_eq_div_pow]
    omega
  have hleft : BitVec.ofNat 32 stack.argv.length - BitVec.ofNat 32 count =
      BitVec.ofNat 32 (stack.argv.length - count) := by
    apply BitVec.eq_of_toNat_eq
    simp only [BitVec.toNat_sub, BitVec.toNat_ofNat]
    omega
  simp only [handOver, start, hsp, hdistance, hshift, hargc, hleft]

/-- With its first arguments taken off, the process starts with the others. -/
theorem StartsWith.handOver {count : ℕ} (hstarts : StartsWith memory sp stack args)
    (hcount : count ≤ stack.argv.length) :
    StartsWith
      (handOver memory (start memory sp) (sp + 4 + BitVec.ofNat 32 (4 * count))).1
      (handOver memory (start memory sp) (sp + 4 + BitVec.ofNat 32 (4 * count))).2
      (stack.without count) (args.drop count) := by
  have hsize := hstarts.size_lt
  have hlength := stack.length_words
  have hwithout := Stack.length_words_without hcount
  rw [handOver_eq hstarts.words hcount (by omega)]
  have houtside : List.Forall₂ (Outside (sp + BitVec.ofNat 32 (4 * count))
      (4 * (stack.without count).words.length)) (stack.argv.drop count) (args.drop count) := by
    rw [hwithout]
    exact List.forall₂_drop count (hstarts.outside.imp fun _ _ hargument =>
      outside_drop hargument (by omega))
  refine ⟨?_, by omega, ?_, houtside⟩
  · have hvectors := wordsFrom_drop (wordsFrom_cons.mp hstarts.words).2 count
    rw [← Stack.vectors_without hcount, add_right_comm] at hvectors
    have hargc : (stack.without count).argv.length = stack.argv.length - count :=
      List.length_drop
    rw [Stack.words, hargc]
    apply wordsFrom_writeWord hvectors
    have hcons : (stack.without count).words.length =
        (stack.without count).vectors.length + 1 := rfl
    omega
  · exact houtside.mp (fun _ _ hout hargument =>
      argumentAt_writeWord hargument hout (by omega)) (List.forall₂_drop count hstarts.texts)

/-- The environment that `main` is given. -/
theorem wordsFrom_start_envp (hwords : WordsFrom memory sp stack.words) :
    WordsFrom memory (start memory sp).envp (stack.envp ++ 0 :: stack.auxv) := by
  have henvp : (start memory sp).envp =
      sp + 4 + BitVec.ofNat 32 (4 * (stack.argv.length + 1)) := by
    rw [start, (wordsFrom_cons.mp hwords).1, Nat.mul_comm, BitVec.ofNat_mul, BitVec.ofNat_add]
    rfl
  have htail : stack.vectors.drop (stack.argv.length + 1) =
      stack.envp ++ 0 :: stack.auxv := by
    rw [Stack.vectors, List.drop_append, List.drop_eq_nil_of_le (by omega),
      Nat.add_sub_cancel_left]
    rfl
  rw [henvp, ← htail]
  exact wordsFrom_drop (wordsFrom_cons.mp hwords).2 _

end HandOver

/-- The memory of `i p` without an environment. -/
def twoArguments : Memory := fun address =>
  if address = 0x2000 then 0x69 else if address = 0x2010 then 0x70
  else [2, 0, 0, 0, 0, 0x20, 0, 0, 0x10, 0x20].getD (address - 0x1000).toNat 0

theorem startsWith_twoArguments :
    StartsWith twoArguments 0x1000 ⟨[0x2000, 0x2010], [], []⟩
      [⟨['i'], [], by decide⟩, ⟨['p'], [], by decide⟩] where
  words := by
    simp only [Stack.words, Stack.vectors, List.cons_append, List.nil_append, wordsFrom_cons,
      wordsFrom_nil, and_true]
    decide
  size_lt := by decide
  texts := .cons (by unfold ArgumentAt; decide) (.cons (by unfold ArgumentAt; decide) .nil)
  outside := .cons (by unfold Outside; decide) (.cons (by unfold Outside; decide) .nil)

end IbcsUs.Handover
