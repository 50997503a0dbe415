import Mathlib.Tactic.Ring
import IbcsUs.X286.SegmentTable

/-!
# The start-up frame of a 286 program

`set_frame` builds the arguments and the environment of a program downwards from the
top of its 64K data segment: the strings, then two arrays of pointers to them, then the
number of arguments.  It finds the strings again by walking back over them.  Memory
from an address to the top of the segment is kept as the list of its bytes, so that a
pointer into the frame is what follows it, and its offset 64K less the length of that.
-/

namespace IbcsUs.X286

abbrev Byte := BitVec 8

/-- A string of C: bytes that are not zero. -/
abbrev CString := { text : List Byte // ∀ byte ∈ text, byte ≠ 0 }

/-- An `unsigned short` in memory, low byte first. -/
def shortBytes (value : BitVec 16) : List Byte :=
  [value.setWidth 8, (value >>> 8).setWidth 8]

/-- The `unsigned short` of two bytes. -/
def shortOf (low high : Byte) : BitVec 16 := high ++ low

/-- `p - base` of a pointer, as an `unsigned short`. -/
def offsetOf (memory : List Byte) : BitVec 16 := BitVec.ofInt 16 (0x10000 - memory.length)

/-! ## `set_frame` -/

section Build

variable (old : ℕ → Byte) (large : Bool) (initDs : BitVec 16)

/-- An environment string takes an even number of bytes; a byte of padding keeps what
memory held. -/
def envChunk (memory : List Byte) (text : CString) : List Byte :=
  text.1 ++ 0 :: ((if text.1.length % 2 = 0 then [old memory.length] else []) ++ memory)

def argChunk (memory : List Byte) (text : CString) : List Byte :=
  text.1 ++ 0 :: memory

/-- `while (*p++);`. -/
def pastNul (memory : List Byte) : List Byte := (memory.dropWhile (· ≠ 0)).drop 1

/-- `ep = (++ep) & ~1`; the base is even, so an odd length is an odd address. -/
def alignUp (memory : List Byte) : List Byte :=
  if memory.length % 2 = 1 then memory.drop 1 else memory

def nextEnv (ep : List Byte) : List Byte := alignUp (pastNul ep)

/-- One pointer of an array. -/
def pushPointer (target sp : List Byte) : List Byte :=
  shortBytes (offsetOf target) ++ ((if large then shortBytes initDs else []) ++ sp)

/-- The loops `for (i = count; i--;)`: `target` moves back over the strings while the
array grows down. -/
def pushPointers (next : List Byte → List Byte) : ℕ → List Byte → List Byte → List Byte
  | 0, _, sp => sp
  | i + 1, target, sp =>
      pushPointers next i (next target) (pushPointer large initDs target sp)

/-- The four zero bytes above the pointers, and one more at an odd address. -/
def pushZeros (sp : List Byte) : List Byte :=
  let sp := [0, 0, 0, 0] ++ sp
  if sp.length % 2 = 1 then 0 :: sp else sp

/-- The null pointer between the two arrays. -/
def pushNull (sp : List Byte) : List Byte :=
  [0, 0] ++ ((if large then [0, 0] else []) ++ sp)

/-- The frame that `set_frame` builds; it returns `offsetOf` it. -/
def setFrame (argv envp : List CString) : List Byte :=
  let ep := envp.foldl (envChunk old) []
  let ap := argv.foldl argChunk ep
  let sp := pushZeros ap
  let sp := pushPointers large initDs nextEnv envp.length ep sp
  let sp := pushNull large sp
  let sp := pushPointers large initDs pastNul argv.length ap sp
  shortBytes (BitVec.ofNat 16 argv.length) ++ sp

end Build

/-! ## What a program finds -/

/-- A pointer of the program: its offset, and its selector in the far model. -/
structure FramePointer where
  offset : BitVec 16
  selector : Option (BitVec 16)
  deriving DecidableEq

/-- The near pointers of an array up to the null pointer, and what follows it. -/
def readNear : List Byte → Option (List FramePointer × List Byte)
  | b0 :: b1 :: rest =>
      if shortOf b0 b1 = 0 then some ([], rest)
      else
        (readNear rest).map fun (pointers, rest) =>
          (⟨shortOf b0 b1, none⟩ :: pointers, rest)
  | _ => none

/-- The far pointers of an array. -/
def readFar : List Byte → Option (List FramePointer × List Byte)
  | b0 :: b1 :: b2 :: b3 :: rest =>
      if shortOf b0 b1 = 0 ∧ shortOf b2 b3 = 0 then some ([], rest)
      else
        (readFar rest).map fun (pointers, rest) =>
          (⟨shortOf b0 b1, some (shortOf b2 b3)⟩ :: pointers, rest)
  | _ => none

/-- The pointers of an array of the model. -/
def readPointers (large : Bool) (memory : List Byte) :
    Option (List FramePointer × List Byte) :=
  if large then readFar memory else readNear memory

/-- Memory from an offset of the segment on, if it is part of the frame. -/
def memoryAt (frame : List Byte) (offset : BitVec 16) : Option (List Byte) :=
  if 0x10000 ≤ offset.toNat + frame.length then
    some (frame.drop (offset.toNat + frame.length - 0x10000))
  else none

/-- The string a pointer leads to, in the data segment. -/
def stringOf (initDs : BitVec 16) (frame : List Byte) (pointer : FramePointer) :
    Option (List Byte) :=
  if ∀ selector ∈ pointer.selector, selector = initDs then
    (memoryAt frame pointer.offset).map (·.takeWhile (· ≠ 0))
  else none

/-- The number of arguments and the two lists, as the program reads them from its stack
pointer on. -/
def decodeFrame (large : Bool) (initDs : BitVec 16) (frame : List Byte)
    (sp : BitVec 16) : Option (ℕ × List (List Byte) × List (List Byte)) := do
  match ← memoryAt frame sp with
  | b0 :: b1 :: rest =>
      let (argv, rest) ← readPointers large rest
      let (envp, _) ← readPointers large rest
      let args ← argv.mapM (stringOf initDs frame)
      let envs ← envp.mapM (stringOf initDs frame)
      return ((shortOf b0 b1).toNat, args, envs)
  | _ => none

/-! ## Sizes -/

/-- The bytes of the strings. -/
def envBytes (envp : List CString) : ℕ :=
  (envp.map fun text => (text.1.length + 2) / 2 * 2).sum

def argBytes (argv : List CString) : ℕ := (argv.map fun text => text.1.length + 1).sum

def pointerSize (large : Bool) : ℕ := if large then 4 else 2

/-- The size of the frame. -/
def frameSize (large : Bool) (argv envp : List CString) : ℕ :=
  let strings := envBytes envp + argBytes argv
  2 + (argv.length + 1 + envp.length) * pointerSize large + (4 + strings % 2) + strings

section Sizes

variable {old : ℕ → Byte} {large : Bool} {initDs : BitVec 16}

@[simp]
theorem length_shortBytes (value : BitVec 16) : (shortBytes value).length = 2 := rfl

theorem shortOf_shortBytes (value : BitVec 16) :
    shortOf (value.setWidth 8) ((value >>> 8).setWidth 8) = value := by
  apply BitVec.eq_of_getLsbD_eq
  intro i hi
  simp only [shortOf, BitVec.getLsbD_append, BitVec.getLsbD_setWidth,
    BitVec.getLsbD_ushiftRight]
  by_cases hlow : i < 8
  · simp [hlow]
  · have hplace : 8 + (i - 8) = i := by omega
    simp only [hlow, decide_false, hplace]
    simp [show i - 8 < 8 by omega]

theorem length_envChunk (memory : List Byte) (text : CString) :
    (envChunk old memory text).length =
      (text.1.length + 2) / 2 * 2 + memory.length := by
  simp only [envChunk]
  split_ifs with heven
  · simp only [List.length_append, List.length_cons, List.length_nil]
    omega
  · simp only [List.length_append, List.length_cons, List.length_nil]
    omega

theorem length_argChunk (memory : List Byte) (text : CString) :
    (argChunk memory text).length = text.1.length + 1 + memory.length := by
  simp only [argChunk, List.length_append, List.length_cons]
  omega

theorem length_foldl_envChunk (envp : List CString) (memory : List Byte) :
    (envp.foldl (envChunk old) memory).length = envBytes envp + memory.length := by
  induction envp generalizing memory with
  | nil => simp [envBytes]
  | cons text envp ih =>
      rw [List.foldl_cons, ih, length_envChunk]
      simp only [envBytes, List.map_cons, List.sum_cons]
      omega

theorem length_foldl_argChunk (argv : List CString) (memory : List Byte) :
    (argv.foldl argChunk memory).length = argBytes argv + memory.length := by
  induction argv generalizing memory with
  | nil => simp [argBytes]
  | cons text argv ih =>
      rw [List.foldl_cons, ih, length_argChunk]
      simp only [argBytes, List.map_cons, List.sum_cons]
      omega

theorem length_pushPointer (target sp : List Byte) :
    (pushPointer large initDs target sp).length = pointerSize large + sp.length := by
  cases large with
  | false => simp [pushPointer, pointerSize]
  | true =>
      simp [pushPointer, pointerSize]
      omega

theorem length_pushPointers (next : List Byte → List Byte) (count : ℕ)
    (target sp : List Byte) :
    (pushPointers large initDs next count target sp).length =
      count * pointerSize large + sp.length := by
  induction count generalizing target sp with
  | zero => simp [pushPointers]
  | succ count ih =>
      rw [pushPointers, ih, length_pushPointer]
      ring

theorem length_pushZeros (sp : List Byte) :
    (pushZeros sp).length = 4 + sp.length % 2 + sp.length := by
  simp only [pushZeros]
  split_ifs with hodd
  · simp only [List.length_append, List.length_cons, List.length_nil] at *
    omega
  · simp only [List.length_append, List.length_cons, List.length_nil] at *
    omega

theorem length_pushNull (sp : List Byte) :
    (pushNull large sp).length = pointerSize large + sp.length := by
  cases large with
  | false =>
      simp [pushNull, pointerSize]
      omega
  | true =>
      simp [pushNull, pointerSize]
      omega

theorem length_setFrame (old : ℕ → Byte) (large : Bool) (initDs : BitVec 16)
    (argv envp : List CString) :
    (setFrame old large initDs argv envp).length = frameSize large argv envp := by
  simp only [setFrame, List.length_append, length_shortBytes, length_pushPointers,
    length_pushNull, length_pushZeros, length_foldl_argChunk, length_foldl_envChunk,
    List.length_nil, add_zero, frameSize]
  ring_nf

end Sizes

/-! ## Walking back over the strings -/

section Walk

variable {old : ℕ → Byte} {large : Bool} {initDs : BitVec 16}

theorem pastNul_string (text : CString) (rest : List Byte) :
    pastNul (text.1 ++ 0 :: rest) = rest := by
  have hdrop : (text.1 ++ 0 :: rest).dropWhile (· ≠ 0) = 0 :: rest := by
    rw [List.dropWhile_append_of_pos (fun byte hbyte => by simpa using text.2 byte hbyte)]
    simp
  rw [pastNul, hdrop]
  rfl

theorem takeWhile_string (text : CString) (rest : List Byte) :
    (text.1 ++ 0 :: rest).takeWhile (· ≠ 0) = text.1 := by
  rw [List.takeWhile_append_of_pos (fun byte hbyte => by simpa using text.2 byte hbyte)]
  simp

theorem pastNul_argChunk (memory : List Byte) (text : CString) :
    pastNul (argChunk memory text) = memory :=
  pastNul_string text memory

/-- The padding is passed over, since the strings begin at even addresses. -/
theorem nextEnv_envChunk (memory : List Byte) (text : CString)
    (heven : memory.length % 2 = 0) : nextEnv (envChunk old memory text) = memory := by
  rw [nextEnv, envChunk, pastNul_string]
  by_cases hpad : text.1.length % 2 = 0
  · rw [if_pos hpad, alignUp, if_pos (by simp; omega)]
    rfl
  · rw [if_neg hpad, alignUp, if_neg (by simp; omega)]
    rfl

theorem suffix_envChunk (memory : List Byte) (text : CString) :
    memory <:+ envChunk old memory text :=
  ⟨text.1 ++ 0 :: (if text.1.length % 2 = 0 then [old memory.length] else []),
    by simp [envChunk]⟩

theorem suffix_argChunk (memory : List Byte) (text : CString) :
    memory <:+ argChunk memory text :=
  ⟨text.1 ++ [0], by simp [argChunk]⟩

/-- A place in the frame where a string stands. -/
structure StandsAt (frame spot : List Byte) (text : CString) : Prop where
  suffix : spot <:+ frame
  reads : ∃ rest, spot = text.1 ++ 0 :: rest

theorem StandsAt.mono {frame longer spot : List Byte} {text : CString}
    (hstands : StandsAt frame spot text) (hlonger : frame <:+ longer) :
    StandsAt longer spot text :=
  ⟨hstands.suffix.trans hlonger, hstands.reads⟩

/-- The bytes of a pointer to a place. -/
def pointerBytes (large : Bool) (initDs : BitVec 16) (spot : List Byte) : List Byte :=
  shortBytes (offsetOf spot) ++ if large then shortBytes initDs else []

/-- When strings are pushed with `chunk` and walked back over with `next`, the array
holds a pointer to the place of each string, in their order. -/
theorem pushPointers_eq (large : Bool) (initDs : BitVec 16)
    (chunk : List Byte → CString → List Byte) (next : List Byte → List Byte)
    (Inv : List Byte → Prop) (memory : List Byte) (texts : List CString)
    (hkeep : ∀ memory text, Inv memory → Inv (chunk memory text))
    (hnext : ∀ memory text, Inv memory → next (chunk memory text) = memory)
    (hreads : ∀ memory text, ∃ rest, chunk memory text = text.1 ++ 0 :: rest)
    (hsuffix : ∀ memory text, memory <:+ chunk memory text)
    (hinv : Inv memory) :
    Inv (texts.foldl chunk memory) ∧ memory <:+ texts.foldl chunk memory ∧
      ∃ spots, List.Forall₂ (StandsAt (texts.foldl chunk memory)) spots texts ∧
        ∀ sp, pushPointers large initDs next texts.length (texts.foldl chunk memory) sp =
          spots.flatMap (pointerBytes large initDs) ++ sp := by
  induction texts using List.reverseRecOn with
  | nil => exact ⟨hinv, List.suffix_refl _, [], .nil, fun sp => rfl⟩
  | append_singleton texts text ih =>
      obtain ⟨hbefore, hmemory, spots, hspots, hpush⟩ := ih
      rw [List.foldl_append]
      have hlast := hsuffix (texts.foldl chunk memory) text
      refine ⟨hkeep _ text hbefore, hmemory.trans hlast,
        spots ++ [chunk (texts.foldl chunk memory) text], ?_, fun sp => ?_⟩
      · refine List.rel_append (hspots.imp fun spot other hstands => ?_) ?_
        · exact hstands.mono hlast
        · exact .cons ⟨List.suffix_refl _, hreads _ text⟩ .nil
      · rw [List.length_append, List.length_singleton, pushPointers]
        show pushPointers large initDs next texts.length
          (next (chunk (texts.foldl chunk memory) text)) _ = _
        rw [hnext _ text hbefore, hpush]
        simp [pushPointer, pointerBytes]

end Walk

/-! ## Reading the frame -/

section Read

variable {large : Bool} {initDs : BitVec 16}

/-- The null pointer of the model. -/
def nullBytes (large : Bool) : List Byte := if large then [0, 0, 0, 0] else [0, 0]

/-- A pointer as the program reads it. -/
def pointerOf (large : Bool) (initDs : BitVec 16) (spot : List Byte) : FramePointer :=
  ⟨offsetOf spot, if large then some initDs else none⟩

/-- An array of pointers with offsets other than 0 is read whole. -/
theorem readPointers_eq (spots : List (List Byte)) (tail : List Byte)
    (hoffset : ∀ spot ∈ spots, offsetOf spot ≠ 0) :
    readPointers large
        (spots.flatMap (pointerBytes large initDs) ++ (nullBytes large ++ tail)) =
      some (spots.map (pointerOf large initDs), tail) := by
  induction spots with
  | nil => cases large <;> simp [nullBytes, readPointers, readNear, readFar, shortOf]
  | cons spot spots ih =>
      have hspot := hoffset spot List.mem_cons_self
      have hrest := ih fun other hother => hoffset other (List.mem_cons_of_mem _ hother)
      cases large with
      | false =>
          simp only [readPointers, Bool.false_eq_true, if_false] at hrest ⊢
          rw [List.flatMap_cons, List.append_assoc]
          generalize spots.flatMap (pointerBytes false initDs) ++
            (nullBytes false ++ tail) = memory at hrest ⊢
          simp only [pointerBytes, shortBytes, Bool.false_eq_true, if_false,
            List.cons_append, List.nil_append, readNear, shortOf_shortBytes, if_neg hspot,
            hrest]
          rfl
      | true =>
          simp only [readPointers, if_true] at hrest ⊢
          rw [List.flatMap_cons, List.append_assoc]
          generalize spots.flatMap (pointerBytes true initDs) ++
            (nullBytes true ++ tail) = memory at hrest ⊢
          simp only [pointerBytes, shortBytes, if_true, List.cons_append,
            List.nil_append, readFar, shortOf_shortBytes, hspot, false_and, if_false,
            hrest]
          rfl

theorem toNat_offsetOf {spot : List Byte} (hpos : 0 < spot.length)
    (hle : spot.length ≤ 0x10000) : (offsetOf spot).toNat = 0x10000 - spot.length := by
  rw [offsetOf, BitVec.toNat_ofInt]
  omega

/-- In a frame of at most 64K a proper part of it is found by its offset. -/
theorem memoryAt_offsetOf {frame spot : List Byte} (hsuffix : spot <:+ frame)
    (hpos : 0 < spot.length) (hle : frame.length ≤ 0x10000) :
    memoryAt frame (offsetOf spot) = some spot := by
  have hshort := hsuffix.length_le
  obtain ⟨before, rfl⟩ := hsuffix
  rw [List.length_append] at hle hshort
  rw [memoryAt, toNat_offsetOf hpos (by omega), if_pos (by
    rw [List.length_append]
    omega)]
  have hdrop : 0x10000 - spot.length + (before ++ spot).length - 0x10000 =
      before.length := by
    rw [List.length_append]
    omega
  rw [hdrop, List.drop_left]

theorem StandsAt.length_pos {frame spot : List Byte} {text : CString}
    (hstands : StandsAt frame spot text) : 0 < spot.length := by
  obtain ⟨rest, rfl⟩ := hstands.reads
  simp

/-- Through a pointer to its place the string is read. -/
theorem stringOf_pointerOf {frame spot : List Byte} {text : CString}
    (hstands : StandsAt frame spot text) (hle : frame.length ≤ 0x10000) :
    stringOf initDs frame (pointerOf large initDs spot) = some text.1 := by
  have hselector : ∀ selector ∈ (pointerOf large initDs spot).selector,
      selector = initDs := by
    cases large <;> simp [pointerOf]
  have hmemory := memoryAt_offsetOf hstands.suffix hstands.length_pos hle
  obtain ⟨rest, hrest⟩ := hstands.reads
  rw [stringOf, if_pos hselector]
  show (memoryAt frame (offsetOf spot)).map _ = _
  rw [hmemory, Option.map_some, hrest, takeWhile_string]

theorem mapM_stringOf {frame : List Byte} {spots : List (List Byte)}
    {texts : List CString} (hspots : List.Forall₂ (StandsAt frame) spots texts)
    (hle : frame.length ≤ 0x10000) :
    (spots.map (pointerOf large initDs)).mapM (stringOf initDs frame) =
      some (texts.map Subtype.val) := by
  induction hspots with
  | nil => rfl
  | cons hstands _ ih =>
      rw [List.map_cons, List.mapM_cons, stringOf_pointerOf hstands hle, ih]
      rfl

/-- A place with something of the frame before it has an offset other than 0. -/
theorem offsetOf_ne_zero {frame spot : List Byte} {text : CString}
    (hstands : StandsAt frame spot text) (hlt : frame.length < 0x10000) :
    offsetOf spot ≠ 0 := by
  have hshort := hstands.suffix.length_le
  have hnat := toNat_offsetOf hstands.length_pos (by omega)
  intro hzero
  rw [hzero] at hnat
  simp at hnat
  omega

theorem offsets_ne_zero {frame : List Byte} {spots : List (List Byte)}
    {texts : List CString} (hspots : List.Forall₂ (StandsAt frame) spots texts)
    (hlt : frame.length < 0x10000) : ∀ spot ∈ spots, offsetOf spot ≠ 0 := by
  induction hspots with
  | nil => simp
  | cons hstands _ ih =>
      exact List.forall_mem_cons.mpr ⟨offsetOf_ne_zero hstands hlt, ih⟩

end Read

/-! ## The frame -/

section Frame

variable {old : ℕ → Byte} {large : Bool} {initDs : BitVec 16} {argv envp : List CString}

/-- The zeros above the pointers begin with a null pointer of either model. -/
theorem pushZeros_eq (large : Bool) (sp : List Byte) :
    ∃ tail, pushZeros sp = nullBytes large ++ tail ∧ sp <:+ tail := by
  cases large with
  | false =>
      by_cases hodd : sp.length % 2 = 1
      · refine ⟨[0, 0, 0] ++ sp, ?_, List.suffix_append _ _⟩
        rw [pushZeros, if_pos (by simp; omega)]
        rfl
      · refine ⟨[0, 0] ++ sp, ?_, List.suffix_append _ _⟩
        rw [pushZeros, if_neg (by simp; omega)]
        rfl
  | true =>
      by_cases hodd : sp.length % 2 = 1
      · refine ⟨[0] ++ sp, ?_, List.suffix_append _ _⟩
        rw [pushZeros, if_pos (by simp; omega)]
        rfl
      · refine ⟨sp, ?_, List.suffix_refl _⟩
        rw [pushZeros, if_neg (by simp; omega)]
        rfl

/-- The parts of the frame: the number of arguments, the pointers to the arguments, a
null pointer, those to the environment, another null pointer, and the strings. -/
theorem setFrame_eq (old : ℕ → Byte) (large : Bool) (initDs : BitVec 16)
    (argv envp : List CString) :
    ∃ argSpots envSpots tail,
      setFrame old large initDs argv envp =
        shortBytes (BitVec.ofNat 16 argv.length) ++
          (argSpots.flatMap (pointerBytes large initDs) ++ (nullBytes large ++
            (envSpots.flatMap (pointerBytes large initDs) ++
              (nullBytes large ++ tail)))) ∧
      List.Forall₂ (StandsAt tail) argSpots argv ∧
      List.Forall₂ (StandsAt tail) envSpots envp := by
  obtain ⟨-, -, envSpots, henvSpots, henvPush⟩ :=
    pushPointers_eq large initDs (envChunk old) nextEnv
      (fun memory => memory.length % 2 = 0) [] envp
      (fun memory text heven => by
        rw [length_envChunk]
        omega)
      (fun memory text heven => nextEnv_envChunk memory text heven)
      (fun memory text => ⟨_, rfl⟩) suffix_envChunk rfl
  obtain ⟨-, hbelow, argSpots, hargSpots, hargPush⟩ :=
    pushPointers_eq large initDs argChunk pastNul (fun _ => True)
      (envp.foldl (envChunk old) []) argv (fun _ _ _ => trivial)
      (fun memory text _ => pastNul_argChunk memory text)
      (fun memory text => ⟨_, rfl⟩) suffix_argChunk trivial
  obtain ⟨tail, hzeros, htail⟩ :=
    pushZeros_eq large (argv.foldl argChunk (envp.foldl (envChunk old) []))
  refine ⟨argSpots, envSpots, tail, ?_, ?_, ?_⟩
  · rw [setFrame]
    simp only [henvPush, hargPush, hzeros]
    cases large <;> simp [pushNull, nullBytes]
  · exact hargSpots.imp fun spot text hstands => hstands.mono htail
  · exact henvSpots.imp fun spot text hstands => hstands.mono (hbelow.trans htail)

theorem length_le_frameSize (large : Bool) (argv envp : List CString) :
    argv.length < frameSize large argv envp := by
  have hsize : 2 ≤ pointerSize large := by
    cases large <;> simp [pointerSize]
  have hmul := Nat.mul_le_mul_left (argv.length + 1 + envp.length) hsize
  simp only [frameSize]
  omega

/-- What is read when each part is. -/
theorem decodeFrame_eq (large : Bool) (initDs : BitVec 16)
    {frame memory afterArgs afterEnvs : List Byte} {sp argc : BitVec 16}
    {argPointers envPointers : List FramePointer} {args envs : List (List Byte)}
    (hmemory : memoryAt frame sp = some (shortBytes argc ++ memory))
    (hargs : readPointers large memory = some (argPointers, afterArgs))
    (henvs : readPointers large afterArgs = some (envPointers, afterEnvs))
    (hargStrings : argPointers.mapM (stringOf initDs frame) = some args)
    (henvStrings : envPointers.mapM (stringOf initDs frame) = some envs) :
    decodeFrame large initDs frame sp = some (argc.toNat, args, envs) := by
  simp only [decodeFrame, hmemory, shortBytes, List.cons_append, List.nil_append,
    Option.bind_eq_bind, Option.bind_some, hargs, henvs, hargStrings, henvStrings,
    shortOf_shortBytes, Option.pure_def]

/-- A frame of less than 64K is read as it was meant. -/
theorem decodeFrame_setFrame (hlt : frameSize large argv envp < 0x10000) :
    decodeFrame large initDs (setFrame old large initDs argv envp)
        (offsetOf (setFrame old large initDs argv envp)) =
      some (argv.length, argv.map Subtype.val, envp.map Subtype.val) := by
  have hlength := length_setFrame old large initDs argv envp
  have hargc := length_le_frameSize large argv envp
  obtain ⟨argSpots, envSpots, tail, hframe, hargs, henvs⟩ :=
    setFrame_eq old large initDs argv envp
  have hself := memoryAt_offsetOf
    (List.suffix_refl (setFrame old large initDs argv envp)) (by omega) (by omega)
  have htail : tail <:+ setFrame old large initDs argv envp := by
    rw [hframe]
    simp only [← List.append_assoc]
    exact List.suffix_append _ _
  have hargsIn := hargs.imp fun spot text hstands => hstands.mono htail
  have henvsIn := henvs.imp fun spot text hstands => hstands.mono htail
  have hargc16 : (BitVec.ofNat 16 argv.length).toNat = argv.length := by
    rw [BitVec.toNat_ofNat]
    exact Nat.mod_eq_of_lt (by omega)
  have hdecode := decodeFrame_eq large initDs
    (hself.trans (congrArg some hframe))
    (readPointers_eq argSpots _ (offsets_ne_zero hargsIn (by omega)))
    (readPointers_eq envSpots _ (offsets_ne_zero henvsIn (by omega)))
    (mapM_stringOf hargsIn (by omega)) (mapM_stringOf henvsIn (by omega))
  rw [hdecode, hargc16]

end Frame

/-! ## Starting a program -/

/-- A program to be started: its model and data segment, what the loader has left,
and its two lists. -/
structure Program where
  large : Bool
  initDs : BitVec 16
  stksize : ℕ
  descs : ℕ → KernelDesc
  count : ℕ
  limitStk : ℕ
  limitStk_lt : limitStk < 2 ^ 31
  argv : List CString
  envp : List CString

namespace Program

variable (old : ℕ → Byte) (program : Program)

def frame : List Byte := setFrame old program.large program.initDs program.argv program.envp

/-- The table that `main` goes on with, `none` when it exits. -/
def table : Option Table :=
  mainTable ⟨program.large, program.initDs.toNat, (offsetOf (program.frame old)).toNat,
    program.stksize⟩ program.descs program.count program.limitStk

/-- The last offset of the program's data. -/
def dataLimit : ℤ := long ((program.limitStk ||| 1 : ℕ) : ℤ)

def size : ℕ := frameSize program.large program.argv program.envp

/-- The program is not started, or its frame lies in the segment and above its data and
is read as it was meant. -/
def StartsRight : Prop :=
  program.table old = none ∨
    ((program.frame old).length ≤ 0x10000 ∧
      program.dataLimit < 0x10000 - (program.frame old).length ∧
      decodeFrame program.large program.initDs (program.frame old)
          (offsetOf (program.frame old)) =
        some (program.argv.length, program.argv.map Subtype.val,
          program.envp.map Subtype.val))

/-- The room that `main` computes for the stack, a 16-bit number, is below the data's
limit; or the frame has less than 64K and begins above the data. -/
def FrameFits : Prop :=
  (-(program.size + program.stksize + 1 : ℤ)) % 2 ^ 16 < program.dataLimit ∨
    (program.size < 0x10000 ∧ program.dataLimit < 0x10000 - program.size)

end Program

section Start

variable {old : ℕ → Byte} {program : Program}

theorem length_frame : (program.frame old).length = program.size :=
  length_setFrame old program.large program.initDs program.argv program.envp

/-- When `main` refuses. -/
theorem table_eq_none_iff :
    program.table old = none ↔
      (-(program.size + program.stksize + 1 : ℤ)) % 2 ^ 16 < program.dataLimit := by
  have hoffset : ((offsetOf (program.frame old)).toNat : ℤ) =
      (0x10000 - program.size : ℤ) % 2 ^ 16 := by
    rw [offsetOf, length_frame, BitVec.toNat_ofInt]
    omega
  have hrlimit : ((ulong ((offsetOf (program.frame old)).toNat - program.stksize - 1) %
      2 ^ 16 : ℕ) : ℤ) = (-(program.size + program.stksize + 1 : ℤ)) % 2 ^ 16 := by
    rw [hoffset, ulong]
    omega
  rw [Program.table, mainTable, ← hrlimit]
  simp only [Program.dataLimit]
  split_ifs with hroom
  · exact iff_of_true rfl hroom
  · exact iff_of_false (by simp) hroom

theorem dataLimit_nonneg (program : Program) : 0 ≤ program.dataLimit := by
  have hlt := Nat.or_lt_two_pow (x := program.limitStk) (y := 1) (n := 31)
    program.limitStk_lt (by decide)
  rw [Program.dataLimit, long_of_mem (by omega) (by omega)]
  omega

end Start

/-- A program is started right exactly when its frame fits. -/
theorem startsRight_iff (old : ℕ → Byte) (program : Program) :
    program.StartsRight old ↔ program.FrameFits := by
  have hdata := dataLimit_nonneg program
  rw [Program.StartsRight, Program.FrameFits, table_eq_none_iff, length_frame]
  constructor
  · rintro (hrefused | ⟨hsize, hlimit, -⟩)
    · exact .inl hrefused
    · exact .inr ⟨by omega, hlimit⟩
  · rintro (hrefused | ⟨hsize, hlimit⟩)
    · exact .inl hrefused
    · exact .inr ⟨by omega, hlimit, decodeFrame_setFrame hsize⟩

/-- A program without arguments, whose data takes nearly the whole segment, and whose
header asks for a stack of all that lies below the frame. -/
def crowdedProgram : Program :=
  ⟨false, 0x47, 0xfff8, fun _ => .unused, 0, 0xfffe, by decide, [], []⟩

theorem frame_in_data :
    ¬ ∀ (old : ℕ → Byte) (program : Program), program.StartsRight old := by
  intro h
  obtain hnone | ⟨-, hlimit, -⟩ := h (fun _ => 0) crowdedProgram
  · rw [table_eq_none_iff] at hnone
    exact absurd hnone (by decide)
  · rw [length_frame] at hlimit
    exact absurd hlimit (by decide)

end IbcsUs.X286
