import Mathlib.Data.List.TakeWhile
import IbcsUs.X286.VerifyArea

/-!
# The argument lists of a 286 program's `exec`

`emu_exec` turns the program's arrays of near or far pointers into arrays of linear
addresses.  It walks each array twice, once to count its entries and once to copy
them, and stops at a word that is zero.  For far pointers that word is the offset
alone, so a string at the start of a segment ends the list.
-/

namespace IbcsUs.X286

/-- A far pointer of the program; a near one stands for its offset in `ds`. -/
structure FarPointer where
  offset : BitVec 16
  selector : BitVec 16
  deriving DecidableEq

/-- The registers `emu_exec` reads. -/
structure ExecRegs where
  eax : BitVec 32
  ebx : BitVec 32
  ecx : BitVec 32
  esi : BitVec 32
  ds : BitVec 16
  ss : BitVec 16

/-- The system call that `emu_exec` ends with: its number, the program, the slots
written with how many had been taken from the stack, and where in them the two lists
begin. -/
structure ExecCall where
  number : ℕ
  program : ℕ
  slots : List ℕ
  allocated : ℕ
  argv : ℕ
  envp : ℕ
  deriving DecidableEq

/-- The return with -1, and the return of `lcall7`. -/
inductive ExecOutcome where
  | refused
  | lcall7 (call : ExecCall)
  deriving DecidableEq

/-- The three pointers a program hands over. -/
structure ExecPointers where
  program : FarPointer
  argv : FarPointer
  envp : FarPointer

section Exec

variable (large : Bool) (initDs : ℕ) (table : Table) (word : ℕ → BitVec 16)
  (regs : ExecRegs)

/-- `ldt[selector >> 3].base + offset`. -/
def linear (ptr : FarPointer) : ℕ :=
  ((table.ldt (ptr.selector.toNat >>> 3)).base + ptr.offset.toNat) % 2 ^ 32

/-- `p++`, and once more for a far pointer. -/
def nextEntry (p : ℕ) : ℕ := (p + if large then 4 else 2) % 2 ^ 32

/-- The entry of an array at `p`. -/
def entryAt (p : ℕ) : FarPointer :=
  ⟨word p, if large then word (p + 2) else regs.ds⟩

/-- The loops that count. -/
def countPointers : ℕ → ℕ → Option ℕ
  | 0, _ => none
  | fuel + 1, p =>
      if p = 0 ∨ word p = 0 then some 0
      else (countPointers fuel (nextEntry large p)).map (· + 1)

/-- The loops that copy. -/
def copyPointers : ℕ → ℕ → Option (List ℕ)
  | 0, _ => none
  | fuel + 1, p =>
      if p = 0 ∨ word p = 0 then some []
      else
        let ptr := entryAt large word regs p
        if maxSegments ≤ ptr.selector.toNat >>> 3 then none
        else (copyPointers fuel (nextEntry large p)).map (linear table ptr :: ·)

/-- The pointers `emu_exec` is given: six words of the program's stack, or three
registers. -/
def execPointers : ExecPointers :=
  if large then
    let stkladdr := linear table ⟨regs.ebx.setWidth 16, regs.ss⟩
    { program := ⟨word stkladdr, word (stkladdr + 2)⟩
      argv := ⟨word (stkladdr + 4), word (stkladdr + 6)⟩
      envp := ⟨word (stkladdr + 8), word (stkladdr + 10)⟩ }
  else
    { program := ⟨regs.ebx.setWidth 16, regs.ds⟩
      argv := ⟨regs.ecx.setWidth 16, regs.ds⟩
      envp := ⟨regs.esi.setWidth 16, regs.ds⟩ }

/-- `check_addr(VERIFY_READ, ptr, 1)` lets the pointer pass. -/
def Readable (ptr : FarPointer) : Prop :=
  verifyArea initDs table .read ptr.selector.toNat ptr.offset 1 = 0

instance (ptr : FarPointer) : Decidable (Readable initDs table ptr) :=
  inferInstanceAs (Decidable (_ = _))

/-- The three pointers pass. -/
def PointersReadable : Prop :=
  let ptrs := execPointers large table word regs
  Readable initDs table ptrs.program ∧ Readable initDs table ptrs.argv ∧
    Readable initDs table ptrs.envp

instance : Decidable (PointersReadable large initDs table word regs) :=
  inferInstanceAs (Decidable (_ ∧ _))

/-- `emu_exec`, with at most `fuel` turns for each loop; `none` also when an index
lies outside of the table. -/
def emuExec (fuel : ℕ) : Option ExecOutcome :=
  if ¬ PointersReadable large initDs table word regs then some .refused
  else
    let ptrs := execPointers large table word regs
    let ecx := linear table ptrs.argv
    let esi := linear table ptrs.envp
    (countPointers large word fuel ecx).bind fun argc =>
    (countPointers large word fuel esi).bind fun envc =>
    (copyPointers large table word regs fuel ecx).bind fun args =>
    (copyPointers large table word regs fuel esi).map fun envs =>
      .lcall7
        { number := regs.eax.toNat % 2 ^ 16
          program := linear table ptrs.program
          slots := args ++ [0] ++ envs ++ [0]
          allocated := argc + envc + 2
          argv := 0
          envp := (args ++ [0]).length }

/-! ## The arrays -/

/-- The null pointer of the model. -/
def FarPointer.IsNull (ptr : FarPointer) : Prop :=
  ptr.offset = 0 ∧ (large → ptr.selector = 0)

/-- An array of pointers at `p`, ended by a null pointer. -/
def HoldsArray : ℕ → List FarPointer → Prop
  | p, [] => p ≠ 0 ∧ (entryAt large word regs p).IsNull large
  | p, ptr :: ptrs =>
      p ≠ 0 ∧ entryAt large word regs p = ptr ∧ ¬ ptr.IsNull large ∧
        HoldsArray (nextEntry large p) ptrs

instance (ptr : FarPointer) : Decidable (ptr.IsNull large) :=
  inferInstanceAs (Decidable (_ ∧ _))

instance decidableHoldsArray (p : ℕ) (ptrs : List FarPointer) :
    Decidable (HoldsArray large word regs p ptrs) :=
  match ptrs with
  | [] => inferInstanceAs (Decidable (_ ∧ _))
  | _ :: ptrs =>
      have := decidableHoldsArray (nextEntry large p) ptrs
      inferInstanceAs (Decidable (_ ∧ _ ∧ _ ∧ _))

/-- Every selector is one of the table. -/
def InTable (ptrs : List FarPointer) : Prop :=
  ∀ ptr ∈ ptrs, ptr.selector.toNat >>> 3 < maxSegments

instance (ptrs : List FarPointer) : Decidable (InTable ptrs) :=
  inferInstanceAs (Decidable (∀ ptr ∈ ptrs, _))

/-- The program's lists, whole: `lcall7` gets its program and two arrays that end in
`NULL`, whose entries are the linear addresses of the strings, in no more slots than
were taken. -/
def PassedWhole (args envs : List FarPointer) (result : Option ExecOutcome) : Prop :=
  ∃ call, result = some (.lcall7 call) ∧
    call.number = regs.eax.toNat % 2 ^ 16 ∧
    call.program = linear table (execPointers large table word regs).program ∧
    call.slots.drop call.argv =
      args.map (linear table) ++ [0] ++ call.slots.drop call.envp ∧
    call.slots.drop call.envp = envs.map (linear table) ++ [0] ∧
    call.slots.length ≤ call.allocated

/-- What the loops take of a list: the entries before the first zero offset. -/
def upToZero (ptrs : List FarPointer) : List FarPointer :=
  ptrs.takeWhile (fun ptr => ptr.offset ≠ 0)

variable {large initDs table word regs}

theorem countPointers_eq {p fuel : ℕ} {ptrs : List FarPointer}
    (hholds : HoldsArray large word regs p ptrs) (hfuel : ptrs.length < fuel) :
    countPointers large word fuel p = some (upToZero ptrs).length := by
  induction ptrs generalizing p fuel with
  | nil =>
      obtain ⟨fuel, rfl⟩ : ∃ rest, fuel = rest + 1 := ⟨fuel - 1, by simp at hfuel; omega⟩
      rw [countPointers, if_pos (.inr hholds.2.1)]
      rfl
  | cons ptr ptrs ih =>
      rw [List.length_cons] at hfuel
      obtain ⟨fuel, rfl⟩ : ∃ rest, fuel = rest + 1 := ⟨fuel - 1, by omega⟩
      obtain ⟨hp, hentry, -, hrest⟩ := hholds
      have hoffset : word p = ptr.offset := congrArg FarPointer.offset hentry
      rw [countPointers, upToZero]
      by_cases hzero : ptr.offset = 0
      · rw [if_pos (.inr (hoffset.trans hzero)),
          List.takeWhile_cons_of_neg (by simpa using hzero)]
        rfl
      · rw [if_neg (not_or.mpr ⟨hp, hoffset ▸ hzero⟩), ih hrest (by omega),
          List.takeWhile_cons_of_pos (by simpa using hzero)]
        rfl

theorem copyPointers_eq {p fuel : ℕ} {ptrs : List FarPointer}
    (hholds : HoldsArray large word regs p ptrs) (htable : InTable ptrs)
    (hfuel : ptrs.length < fuel) :
    copyPointers large table word regs fuel p =
      some ((upToZero ptrs).map (linear table)) := by
  induction ptrs generalizing p fuel with
  | nil =>
      obtain ⟨fuel, rfl⟩ : ∃ rest, fuel = rest + 1 := ⟨fuel - 1, by simp at hfuel; omega⟩
      rw [copyPointers, if_pos (.inr hholds.2.1)]
      rfl
  | cons ptr ptrs ih =>
      rw [List.length_cons] at hfuel
      obtain ⟨fuel, rfl⟩ : ∃ rest, fuel = rest + 1 := ⟨fuel - 1, by omega⟩
      obtain ⟨hp, hentry, -, hrest⟩ := hholds
      have hoffset : word p = ptr.offset := congrArg FarPointer.offset hentry
      have hin := htable ptr List.mem_cons_self
      rw [copyPointers, upToZero]
      by_cases hzero : ptr.offset = 0
      · rw [if_pos (.inr (hoffset.trans hzero)),
          List.takeWhile_cons_of_neg (by simpa using hzero)]
        rfl
      · rw [if_neg (not_or.mpr ⟨hp, hoffset ▸ hzero⟩),
          List.takeWhile_cons_of_pos (by simpa using hzero)]
        simp only [hentry]
        rw [if_neg (not_le.mpr hin),
          ih hrest (fun other hother => htable other (List.mem_cons_of_mem _ hother))
            (by omega)]
        rfl

/-- What `emu_exec` does with two arrays: it counts and copies the same entries. -/
theorem emuExec_eq {args envs : List FarPointer} {fuel : ℕ}
    (hreadable : PointersReadable large initDs table word regs)
    (hargs : HoldsArray large word regs
      (linear table (execPointers large table word regs).argv) args)
    (henvs : HoldsArray large word regs
      (linear table (execPointers large table word regs).envp) envs)
    (hargsTable : InTable args) (henvsTable : InTable envs)
    (hargsFuel : args.length < fuel) (henvsFuel : envs.length < fuel) :
    emuExec large initDs table word regs fuel = some (.lcall7
      { number := regs.eax.toNat % 2 ^ 16
        program := linear table (execPointers large table word regs).program
        slots := (upToZero args).map (linear table) ++ [0] ++
          (upToZero envs).map (linear table) ++ [0]
        allocated := (upToZero args).length + (upToZero envs).length + 2
        argv := 0
        envp := (upToZero args).length + 1 }) := by
  rw [emuExec, if_neg (not_not.mpr hreadable)]
  simp only [countPointers_eq hargs hargsFuel, countPointers_eq henvs henvsFuel,
    copyPointers_eq hargs hargsTable hargsFuel,
    copyPointers_eq henvs henvsTable henvsFuel, Option.bind_some, Option.map_some,
    List.length_append, List.length_map, List.length_singleton]

theorem upToZero_eq_self_iff {ptrs : List FarPointer} :
    upToZero ptrs = ptrs ↔ ∀ ptr ∈ ptrs, ptr.offset ≠ 0 := by
  simp [upToZero, List.takeWhile_eq_self_iff]

theorem length_upToZero_le (ptrs : List FarPointer) :
    (upToZero ptrs).length ≤ ptrs.length :=
  (List.takeWhile_sublist _).length_le

theorem upToZero_eq_of_length {ptrs : List FarPointer}
    (hlength : (upToZero ptrs).length = ptrs.length) : upToZero ptrs = ptrs :=
  (List.takeWhile_sublist _).eq_of_length hlength

/-- The pointers before the end of a near array have no zero offset. -/
theorem offset_ne_of_near {p : ℕ} {ptrs : List FarPointer}
    (hholds : HoldsArray false word regs p ptrs) :
    ∀ ptr ∈ ptrs, ptr.offset ≠ 0 := by
  induction ptrs generalizing p with
  | nil => simp
  | cons ptr ptrs ih =>
      obtain ⟨-, -, hnull, hrest⟩ := hholds
      refine List.forall_mem_cons.mpr ⟨fun hzero => hnull ⟨hzero, ?_⟩, ih hrest⟩
      simp

end Exec

/-- The lists reach the kernel whole exactly when the program is a near one, or no
pointer of either list has the offset 0. -/
theorem passedWhole_iff (large : Bool) (initDs : ℕ) (table : Table)
    (word : ℕ → BitVec 16) (regs : ExecRegs) (args envs : List FarPointer) (fuel : ℕ)
    (hreadable : PointersReadable large initDs table word regs)
    (hargs : HoldsArray large word regs
      (linear table (execPointers large table word regs).argv) args)
    (henvs : HoldsArray large word regs
      (linear table (execPointers large table word regs).envp) envs)
    (htable : InTable (args ++ envs)) (hfuel : args.length + envs.length < fuel) :
    PassedWhole large table word regs args envs
        (emuExec large initDs table word regs fuel) ↔
      large = false ∨ ∀ ptr ∈ args ++ envs, ptr.offset ≠ 0 := by
  have hcall := emuExec_eq hreadable hargs henvs
    (fun ptr hptr => htable ptr (List.mem_append_left _ hptr))
    (fun ptr hptr => htable ptr (List.mem_append_right _ hptr))
    (show args.length < fuel by omega) (by omega)
  have hargsLe := length_upToZero_le args
  have henvsLe := length_upToZero_le envs
  constructor
  · rintro ⟨call, hsome, -, -, hfirst, hsecond, -⟩
    rw [hcall] at hsome
    simp only [Option.some.injEq, ExecOutcome.lcall7.injEq] at hsome
    subst hsome
    rw [hsecond] at hfirst
    have hlength := congrArg List.length hfirst
    simp only [List.drop_zero, List.length_append, List.length_map,
      List.length_singleton] at hlength
    right
    intro ptr hptr
    obtain hin | hin := List.mem_append.mp hptr
    · exact upToZero_eq_self_iff.mp (upToZero_eq_of_length (by omega)) ptr hin
    · exact upToZero_eq_self_iff.mp (upToZero_eq_of_length (by omega)) ptr hin
  · intro hcond
    have hoffsets : ∀ ptr ∈ args ++ envs, ptr.offset ≠ 0 := by
      obtain rfl | hall := hcond
      · intro ptr hptr
        obtain hin | hin := List.mem_append.mp hptr
        · exact offset_ne_of_near hargs ptr hin
        · exact offset_ne_of_near henvs ptr hin
      · exact hall
    have hargsAll : upToZero args = args := upToZero_eq_self_iff.mpr
      fun ptr hptr => hoffsets ptr (List.mem_append_left _ hptr)
    have henvsAll : upToZero envs = envs := upToZero_eq_self_iff.mpr
      fun ptr hptr => hoffsets ptr (List.mem_append_right _ hptr)
    rw [hargsAll, henvsAll] at hcall
    refine ⟨_, hcall, rfl, rfl, ?_, ?_, ?_⟩
    · have hlen : args.length + 1 = (args.map (linear table) ++ [0]).length := by simp
      simp only [List.drop_zero]
      rw [hlen, List.append_assoc (_ ++ _), List.drop_left]
    · have hlen : args.length + 1 = (args.map (linear table) ++ [0]).length := by simp
      show List.drop (args.length + 1) _ = _
      rw [hlen, List.append_assoc (_ ++ _), List.drop_left]
    · simp only [List.length_append, List.length_map, List.length_singleton]
      omega

/-! ## A string at the start of a segment -/

/-- A far program's stack at `0x47:0x300`: its path, and its two arrays, of which the
first holds one pointer, to `0x47:0`. -/
def startWord (p : ℕ) : BitVec 16 :=
  if p ∈ [0x400302, 0x400306, 0x40030a, 0x400202] then 0x47
  else if p = 0x400300 then 0x100
  else if p = 0x400304 then 0x200
  else if p = 0x400308 then 0x210
  else 0

/-- A near program's array at `ds:0x200`, with one pointer, to `ds:0x100`. -/
def nearWord (p : ℕ) : BitVec 16 := if p = 0x400200 then 0x100 else 0

theorem passedWhole_near :
    PassedWhole false smallTable nearWord ⟨59, 0x100, 0x200, 0x210, 0x47, 0x47⟩
      [⟨0x100, 0x47⟩] []
      (emuExec false 0x47 smallTable nearWord ⟨59, 0x100, 0x200, 0x210, 0x47, 0x47⟩ 2) :=
  (passedWhole_iff false 0x47 smallTable nearWord
    ⟨59, 0x100, 0x200, 0x210, 0x47, 0x47⟩ [⟨0x100, 0x47⟩] [] 2 (by decide) (by decide)
    (by decide) (by decide) (by decide)).mpr (.inl rfl)

theorem exec_drops_argument :
    ¬ ∀ (large : Bool) (initDs : ℕ) (table : Table) (word : ℕ → BitVec 16)
        (regs : ExecRegs) (args envs : List FarPointer) (fuel : ℕ),
      PointersReadable large initDs table word regs →
      HoldsArray large word regs
        (linear table (execPointers large table word regs).argv) args →
      HoldsArray large word regs
        (linear table (execPointers large table word regs).envp) envs →
      InTable (args ++ envs) → args.length + envs.length < fuel →
      PassedWhole large table word regs args envs
        (emuExec large initDs table word regs fuel) := by
  intro h
  obtain ⟨call, hsome, -, -, hfirst, -, -⟩ :=
    h true 0x47 smallTable startWord ⟨59, 0x300, 0, 0, 0x47, 0x47⟩ [⟨0, 0x47⟩] [] 2
      (by decide) (by decide) (by decide) (by decide) (by decide)
  have hcall : emuExec true 0x47 smallTable startWord
      ⟨59, 0x300, 0, 0, 0x47, 0x47⟩ 2 =
        some (.lcall7 ⟨59, 0x400100, [0, 0], 2, 0, 1⟩) := by
    decide
  rw [hcall] at hsome
  cases hsome
  exact absurd hfirst (by decide)

end IbcsUs.X286
