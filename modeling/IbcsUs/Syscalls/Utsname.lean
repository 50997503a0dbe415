import IbcsUs.Core.Stores

/-!
# The names of the system

`v7_utsname`, `abi_utsname` and `xnx_utsname` fill a structure of fixed fields, one
behind the other, from the names of the kernel.  A field is copied as far as it
goes, and then one terminator is put into it, at the first dot of the name where
the field is to be cut there.
-/

namespace IbcsUs.Utsname

open Strings

/-- An array of `size` characters that holds a terminated text; what stands behind
the terminator is arbitrary. -/
structure CString (size : ℕ) where
  text : List Char
  rest : List Char
  noNul : nul ∉ text
  length_eq : text.length + 1 + rest.length = size

def CString.bytes {size : ℕ} (source : CString size) : List Char :=
  source.text ++ nul :: source.rest

/-- The kernel's `system_utsname`. -/
structure NewUtsname where
  sysname : CString 65
  nodename : CString 65
  release : CString 65
  version : CString 65
  machine : CString 65

/-! ## One field -/

/-- `while(p[0] != '\0' && p[0] != '.') p++;` -/
def scanDot : List Char → ℕ
  | [] => 0
  | letter :: text => if letter = nul ∨ letter = '.' then 0 else scanDot text + 1

/-- Where the terminator is put. -/
def terminatorAt (toSize : ℕ) {fromSize : ℕ} (source : CString fromSize)
    (dotchop : Bool) : ℕ :=
  let len := min fromSize toSize
  let off := if len < toSize then len else len - 1
  if dotchop = true ∧ source.bytes.getD (scanDot source.bytes) nul = '.' then
    scanDot source.bytes
  else off

/-- `__set_utsfield`. -/
def setUtsfield (dest toSize : ℕ) {fromSize : ℕ} (source : CString fromSize)
    (dotchop : Bool) (stores : Stores) : Stores :=
  (stores.putAll dest (source.bytes.take (min fromSize toSize))).put
    (dest + terminatorAt toSize source dotchop) nul

/-- A field of a user structure that is filled from a string. -/
structure Field where
  offset : ℕ
  size : ℕ
  fromSize : ℕ
  source : CString fromSize
  dotchop : Bool

/-- What a call does to a structure: `set_utsfield`, or `set_utsvalue` with the
bytes it copies. -/
inductive Item where
  | field (field : Field)
  | value (offset : ℕ) (bytes : List Char)

def setItem (address : ℕ) (stores : Stores) : Item → Stores
  | .field field =>
      setUtsfield (address + field.offset) field.size field.source field.dotchop
        stores
  | .value offset bytes => stores.putAll (address + offset) bytes

def setItems (address : ℕ) (items : List Item) (stores : Stores) : Stores :=
  items.foldl (setItem address) stores

/-! ## The three calls -/

def v7Items (uts : NewUtsname) : List Item :=
  [.field ⟨0, 9, 65, uts.nodename, true⟩,
    .field ⟨9, 9, 65, uts.nodename, true⟩,
    .field ⟨18, 9, 65, uts.release, false⟩,
    .field ⟨27, 9, 65, uts.version, false⟩,
    .field ⟨36, 9, 65, uts.machine, false⟩]

def svr4Nmln : ℕ := 257

def abiItems (uts : NewUtsname) : List Item :=
  [.field ⟨0, svr4Nmln, 65, uts.sysname, false⟩,
    .field ⟨svr4Nmln, svr4Nmln, 65, uts.nodename, false⟩,
    .field ⟨2 * svr4Nmln, svr4Nmln, 65, uts.release, false⟩,
    .field ⟨3 * svr4Nmln, svr4Nmln, 65, uts.version, false⟩,
    .field ⟨4 * svr4Nmln, svr4Nmln, 65, uts.machine, false⟩]

def isaName : CString 4 := ⟨['I', 'S', 'A'], [], by decide, rfl⟩

/-- `static char sco_serial[10]`. -/
def scoSerial : CString 10 :=
  ⟨['p', 'u', 'b', 'l', 'i', 'c'], List.replicate 3 nul, by decide, rfl⟩

def unlim : CString 6 := ⟨['u', 'n', 'l', 'i', 'm'], [], by decide, rfl⟩

/-- `abi_fake_utsname` and `EISA_bus` are both 0. -/
def xnxItems (uts : NewUtsname) : List Item :=
  [.field ⟨0, 9, 65, uts.nodename, true⟩,
    .field ⟨9, 9, 65, uts.nodename, true⟩,
    .field ⟨18, 16, 65, uts.release, false⟩,
    .field ⟨34, 20, 65, uts.version, false⟩,
    .field ⟨54, 9, 65, uts.machine, false⟩,
    .field ⟨63, 9, 4, isaName, false⟩,
    .field ⟨72, 10, 10, scoSerial, false⟩,
    .value 82 [Char.ofNat 0xff, Char.ofNat 0xff],
    .value 84 [Char.ofNat 0xff, Char.ofNat 0xff],
    .field ⟨86, 9, 6, unlim, false⟩,
    .value 96 [Char.ofNat 1, nul]]

inductive Call where
  | v7Utsname
  | abiUtsname
  | xnxUtsname
  deriving DecidableEq

def Call.items (call : Call) (uts : NewUtsname) : List Item :=
  match call with
  | .v7Utsname => v7Items uts
  | .abiUtsname => abiItems uts
  | .xnxUtsname => xnxItems uts

/-- The size of the structure. -/
def Call.size : Call → ℕ
  | .v7Utsname => 45
  | .abiUtsname => 5 * svr4Nmln
  | .xnxUtsname => 98

def perScosvr3 : ℕ := 0x07000003

def enosys : ℤ := 38

/-- The result of a call and what it has written.  Only `xnx_utsname` looks at the
personality. -/
def runUtsname (call : Call) (personality : ℕ) (uts : NewUtsname) (address : ℕ)
    (memory : Memory) : ℤ × Stores :=
  if call = .xnxUtsname ∧ personality ≠ perScosvr3 then (-enosys, ⟨memory, []⟩)
  else (0, setItems address (call.items uts) ⟨memory, []⟩)

/-! ## What a call should leave -/

/-- The name as a field has it: cut at its first dot where that is asked for, and
as long as the field allows. -/
def Field.shown (field : Field) : List Char :=
  (if field.dotchop then field.source.text.takeWhile (· ≠ '.')
    else field.source.text).take (field.size - 1)

/-- Every field holds its name, with a terminator inside the field, and nothing is
written outside of the structure. -/
def ItemsRight (items : List Item) (size address : ℕ) (memory : Memory) : Prop :=
  (∀ field, .field field ∈ items →
      Holds (setItems address items ⟨memory, []⟩).memory
        (address + field.offset) field.shown) ∧
    (setItems address items ⟨memory, []⟩).Within address size

/-- A call that is refused writes nothing. -/
def UtsnameRight (call : Call) (personality : ℕ) (uts : NewUtsname)
    (address : ℕ) (memory : Memory) : Prop :=
  if call = .xnxUtsname ∧ personality ≠ perScosvr3 then
    runUtsname call personality uts address memory = (-enosys, ⟨memory, []⟩)
  else
    (runUtsname call personality uts address memory).1 = 0 ∧
      (∀ field, .field field ∈ call.items uts →
        Holds (runUtsname call personality uts address memory).2.memory
          (address + field.offset) field.shown) ∧
      (runUtsname call personality uts address memory).2.Within address call.size

/-- A dot at which the field is to be cut stands early enough. -/
def Field.DotFits (field : Field) : Prop :=
  field.dotchop = true → '.' ∈ field.source.text →
    (field.source.text.takeWhile (· ≠ '.')).length < field.size

/-- The first dot of the host name, where it is cut at it, is among its first nine
characters. -/
def UtsnameMeets (call : Call) (personality : ℕ) (uts : NewUtsname) : Prop :=
  call ≠ .abiUtsname → (call = .xnxUtsname → personality = perScosvr3) →
    '.' ∈ uts.nodename.text →
      (uts.nodename.text.takeWhile (· ≠ '.')).length < 9

/-! ## The terminator -/

theorem scanDot_bytes {text : List Char} (rest : List Char) (hnul : nul ∉ text) :
    scanDot (text ++ nul :: rest) = (text.takeWhile (· ≠ '.')).length ∧
      ((text ++ nul :: rest).getD (scanDot (text ++ nul :: rest)) nul = '.' ↔
        '.' ∈ text) := by
  induction text with
  | nil => simp [scanDot, nul]
  | cons letter text ih =>
      rw [List.mem_cons, not_or] at hnul
      obtain ⟨hscan, hdot⟩ := ih hnul.2
      by_cases hletter : letter = '.'
      · simp [scanDot, hletter]
      · have hstop : ¬ (letter = nul ∨ letter = '.') :=
          not_or.mpr ⟨Ne.symm hnul.1, hletter⟩
        rw [List.cons_append, scanDot, if_neg hstop, List.getD_cons_succ, hdot,
          hscan]
        simp [hletter, Ne.symm hletter]

variable {field : Field}

/-- The text that `set_utsfield` copies. -/
def Field.copied (field : Field) : List Char :=
  field.source.bytes.take (min field.fromSize field.size)

def Field.off (field : Field) : ℕ :=
  terminatorAt field.size field.source field.dotchop

theorem Field.off_of_dot (hchop : field.dotchop = true)
    (hdot : '.' ∈ field.source.text) :
    field.off = (field.source.text.takeWhile (· ≠ '.')).length := by
  obtain ⟨hscan, hfound⟩ := scanDot_bytes field.source.rest field.source.noNul
  rw [Field.off, terminatorAt, CString.bytes, if_pos ⟨hchop, hfound.mpr hdot⟩,
    hscan]

theorem Field.off_of_no_dot
    (hno : ¬ (field.dotchop = true ∧ '.' ∈ field.source.text)) :
    field.off = if field.fromSize < field.size then field.fromSize
      else field.size - 1 := by
  obtain ⟨-, hfound⟩ := scanDot_bytes field.source.rest field.source.noNul
  rw [Field.off, terminatorAt, CString.bytes,
    if_neg (mt (And.imp_right hfound.mp) hno)]
  by_cases hlt : field.fromSize < field.size
  · simp [hlt, Nat.min_eq_left hlt.le]
  · simp [hlt, Nat.min_eq_right (Nat.not_lt.mp hlt)]

theorem Field.shown_of_no_dot
    (hno : ¬ (field.dotchop = true ∧ '.' ∈ field.source.text)) :
    field.shown = field.source.text.take (field.size - 1) := by
  rw [Field.shown]
  split
  · rename_i hchop
    have hdot : '.' ∉ field.source.text := fun hmem => hno ⟨hchop, hmem⟩
    rw [List.takeWhile_eq_self_iff.mpr]
    intro letter hletter
    simpa using ne_of_mem_of_not_mem hletter hdot
  · rfl

theorem Field.length_text_lt (field : Field) :
    field.source.text.length < field.fromSize := by
  have := field.source.length_eq
  omega

/-- Once the text is copied the terminator ends what the field should show, or it
is already ended by its own. -/
theorem Field.copied_eq (hsize : 0 < field.size) (hfits : field.DotFits) :
    field.off < field.size ∧
      ((field.shown.length = field.off ∧ field.shown <+: field.copied) ∨
        (field.shown.length < field.off ∧
          field.shown ++ [nul] <+: field.copied)) := by
  have hlt := field.length_text_lt
  by_cases hdot : field.dotchop = true ∧ '.' ∈ field.source.text
  · obtain ⟨hchop, hmem⟩ := hdot
    have hshort := hfits hchop hmem
    have hpart : field.source.text.takeWhile (· ≠ '.') <+: field.source.text :=
      List.takeWhile_prefix _
    have hshown : field.shown = field.source.text.takeWhile (· ≠ '.') := by
      rw [Field.shown, if_pos hchop, List.take_of_length_le (by omega)]
    rw [Field.off_of_dot hchop hmem, hshown]
    refine ⟨hshort, .inl ⟨rfl, List.prefix_take_iff.mpr ⟨?_, ?_⟩⟩⟩
    · exact hpart.trans (List.prefix_append _ _)
    · have := hpart.length_le
      omega
  · rw [Field.off_of_no_dot hdot, Field.shown_of_no_dot hdot]
    have htext : field.source.text.take (field.size - 1) <+:
        field.source.bytes :=
      (List.take_prefix _ _).trans (List.prefix_append _ _)
    have hended : field.source.text ++ [nul] <+: field.source.bytes := by
      exact ⟨field.source.rest, List.append_assoc _ _ _⟩
    by_cases hless : field.fromSize < field.size
    · rw [if_pos hless, List.take_of_length_le (by omega)]
      refine ⟨hless, .inr ⟨hlt, List.prefix_take_iff.mpr ⟨hended, ?_⟩⟩⟩
      rw [List.length_append, List.length_singleton]
      omega
    · rw [if_neg hless]
      refine ⟨by omega, ?_⟩
      by_cases hlong : field.size - 1 ≤ field.source.text.length
      · have hlength : (field.source.text.take (field.size - 1)).length =
            field.size - 1 := by
          rw [List.length_take, Nat.min_eq_left hlong]
        refine .inl ⟨hlength, List.prefix_take_iff.mpr ⟨htext, ?_⟩⟩
        omega
      · rw [List.take_of_length_le (by omega)]
        refine .inr ⟨by omega, List.prefix_take_iff.mpr ⟨hended, ?_⟩⟩
        rw [List.length_append, List.length_singleton]
        omega

theorem Field.length_copied_le (field : Field) :
    field.copied.length ≤ field.size := by
  rw [Field.copied, List.length_take]
  omega

/-! ## Writing one item -/

def Item.offset : Item → ℕ
  | .field field => field.offset
  | .value offset _ => offset

def Item.size : Item → ℕ
  | .field field => field.size
  | .value _ bytes => bytes.length

section Items

variable {address size other : ℕ} {stores : Stores} {text : List Char}

theorem setItem_field (field : Field) :
    setItem address stores (.field field) =
      (stores.putAll (address + field.offset) field.copied).put
        (address + field.offset + field.off) nul := rfl

@[simp]
theorem length_setItem (item : Item) :
    (setItem address stores item).memory.length = stores.memory.length := by
  cases item with
  | field field =>
      rw [setItem_field, Stores.length_put, Stores.length_putAll]
  | value offset bytes => exact Stores.length_putAll _ _ _

/-- An item is written from its offset on. -/
theorem shows_setItem_of_below (item : Item)
    (hshows : Shows stores.memory other text)
    (hbelow : other + text.length ≤ address + item.offset) :
    Shows (setItem address stores item).memory other text := by
  cases item with
  | field field =>
      rw [setItem_field]
      apply Shows.set_of_outside
      · exact Stores.shows_putAll_of_outside hshows (.inr hbelow)
      · exact .inr (Nat.le_add_right_of_le hbelow)
  | value offset bytes =>
      exact Stores.shows_putAll_of_outside hshows (.inr hbelow)

theorem holds_setItem (hsize : 0 < field.size) (hfits : field.DotFits)
    (hroom : address + field.offset + field.size ≤ stores.memory.length) :
    Holds (setItem address stores (.field field)).memory
      (address + field.offset) field.shown := by
  obtain ⟨hoff, hends⟩ := Field.copied_eq hsize hfits
  have hcopied : Shows (stores.putAll (address + field.offset)
      field.copied).memory (address + field.offset) field.copied := by
    apply Stores.shows_putAll
    have := field.length_copied_le
    omega
  rw [setItem_field]
  apply Shows.holds
  · rcases hends with ⟨hlength, hpart⟩ | ⟨hlength, hpart⟩
    · rw [← hlength]
      apply Shows.put (hpart.trans hcopied)
      rw [Stores.length_putAll]
      omega
    · apply Shows.set_of_outside (hpart.trans hcopied)
      rw [List.length_append, List.length_singleton]
      exact .inr (by omega)
  · intro hmem
    have htext := List.mem_of_mem_take hmem
    split at htext
    · exact field.source.noNul (List.takeWhile_subset _ htext)
    · exact field.source.noNul htext

/-- A field without a dot in reach shows a text without a terminator. -/
theorem shows_setItem_of_not_fits (hfits : ¬ field.DotFits)
    (hroom : address + field.offset + field.size ≤ stores.memory.length) :
    Shows (setItem address stores (.field field)).memory (address + field.offset)
      (field.source.text.take field.size) := by
  simp only [Field.DotFits, Classical.not_imp, Nat.not_lt] at hfits
  obtain ⟨hchop, hdot, hlate⟩ := hfits
  have hpart : field.source.text.take field.size <+: field.copied := by
    have hlt := field.length_text_lt
    refine List.prefix_take_iff.mpr ⟨?_, ?_⟩
    · exact (List.take_prefix _ _).trans (List.prefix_append _ _)
    · rw [List.length_take]
      omega
  rw [setItem_field, Field.off_of_dot hchop hdot]
  apply Shows.set_of_outside
  · apply hpart.trans
    apply Stores.shows_putAll
    have := field.length_copied_le
    omega
  · rw [List.length_take]
    exact .inr (by omega)

theorem within_setItem {item : Item} {start : ℕ}
    (hfits : ∀ field, item = .field field → 0 < field.size ∧ field.DotFits)
    (hwithin : stores.Within start size) (hstart : start ≤ address + item.offset)
    (hroom : address + item.offset + item.size ≤ start + size) :
    (setItem address stores item).Within start size := by
  cases item with
  | field field =>
      obtain ⟨hsize, hdot⟩ := hfits field rfl
      have hoff := (Field.copied_eq hsize hdot).1
      have hlength := field.length_copied_le
      simp only [Item.offset, Item.size] at hstart hroom
      rw [setItem_field]
      exact (hwithin.putAll hstart (by omega)).put (by omega) (by omega)
  | value offset bytes => exact hwithin.putAll hstart hroom

/-! ## Writing a structure -/

/-- The items stand one behind the other, from `start` on and before `stop`. -/
def Laid : ℕ → List Item → ℕ → Prop
  | start, [], stop => start ≤ stop
  | start, item :: items, stop =>
      start ≤ item.offset ∧ 0 < item.size ∧
        Laid (item.offset + item.size) items stop

theorem Laid.le {items : List Item} {start stop : ℕ}
    (hlaid : Laid start items stop) : start ≤ stop := by
  induction items generalizing start with
  | nil => exact hlaid
  | cons item items ih =>
      obtain ⟨hstart, -, hrest⟩ := hlaid
      have := ih hrest
      omega

theorem setItems_cons (item : Item) (items : List Item) :
    setItems address (item :: items) stores =
      setItems address items (setItem address stores item) := rfl

theorem shows_setItems_of_below {items : List Item} {start stop : ℕ}
    (hlaid : Laid start items stop) (hshows : Shows stores.memory other text)
    (hbelow : other + text.length ≤ address + start) :
    Shows (setItems address items stores).memory other text := by
  induction items generalizing stores start with
  | nil => exact hshows
  | cons item items ih =>
      obtain ⟨hstart, hsize, hrest⟩ := hlaid
      apply ih hrest
      · exact shows_setItem_of_below item hshows (by omega)
      · omega

/-- What a field shows is not touched by the items behind it. -/
theorem holds_setItems {items : List Item} {start stop : ℕ}
    (hlaid : Laid start items stop)
    (hfits : ∀ field, .field field ∈ items → field.DotFits)
    (hroom : address + stop ≤ stores.memory.length) (field : Field)
    (hmem : .field field ∈ items) :
    Holds (setItems address items stores).memory (address + field.offset)
      field.shown := by
  induction items generalizing stores start with
  | nil => exact absurd hmem List.not_mem_nil
  | cons item items ih =>
      obtain ⟨-, hsize, hrest⟩ := hlaid
      rcases List.mem_cons.mp hmem with hitem | hmem
      · subst hitem
        have hdot := hfits field hmem
        have hlast := hrest.le
        have hholds : Holds (setItem address stores (.field field)).memory
            (address + field.offset) field.shown := by
          apply holds_setItem hsize hdot
          simp only [Item.offset, Item.size] at hlast
          omega
        rw [setItems_cons]
        refine ⟨hholds.no_nul, shows_setItems_of_below hrest hholds.starts ?_⟩
        have hshort : field.shown.length ≤ field.size - 1 :=
          List.length_take_le _ _
        simp only [Item.offset, Item.size] at hsize ⊢
        rw [List.length_append, List.length_singleton]
        omega
      · apply ih hrest (fun other hother =>
          hfits other (List.mem_cons_of_mem _ hother)) _ hmem
        rwa [length_setItem]

theorem within_setItems {items : List Item} {first start stop : ℕ}
    (hlaid : Laid first items stop) (hfirst : start ≤ address + first)
    (hfits : ∀ field, .field field ∈ items → field.DotFits)
    (hwithin : stores.Within start size)
    (hroom : address + stop ≤ start + size) :
    (setItems address items stores).Within start size := by
  induction items generalizing stores first with
  | nil => exact hwithin
  | cons item items ih =>
      obtain ⟨hoffset, hsize, hrest⟩ := hlaid
      have hlast := hrest.le
      apply ih hrest (by omega) fun field hfield =>
        hfits field (List.mem_cons_of_mem _ hfield)
      apply within_setItem _ hwithin (by omega) (by omega)
      rintro field rfl
      exact ⟨hsize, hfits field List.mem_cons_self⟩

/-- A field without a dot in reach is never terminated. -/
theorem not_holds_setItems {items : List Item} {start stop : ℕ}
    (hlaid : Laid start items stop)
    (hroom : address + stop ≤ stores.memory.length) {field : Field}
    (hmem : .field field ∈ items) (hfits : ¬ field.DotFits) :
    ¬ Holds (setItems address items stores).memory (address + field.offset)
      field.shown := by
  induction items generalizing stores start with
  | nil => exact absurd hmem List.not_mem_nil
  | cons item items ih =>
      obtain ⟨-, hsize, hrest⟩ := hlaid
      rcases List.mem_cons.mp hmem with hitem | hmem
      · subst hitem
        have hlast := hrest.le
        simp only [Item.offset, Item.size] at hlast hsize hrest
        have hshows := shows_setItem_of_not_fits hfits
          (by omega : address + field.offset + field.size ≤ stores.memory.length)
        intro hholds
        have hstill : Shows (setItems address items
            (setItem address stores (.field field))).memory
            (address + field.offset) (field.source.text.take field.size) := by
          apply shows_setItems_of_below hrest hshows
          rw [List.length_take]
          omega
        have hlong : (field.source.text.take field.size).length = field.size := by
          simp only [Field.DotFits, Classical.not_imp, Nat.not_lt] at hfits
          obtain ⟨-, -, hlate⟩ := hfits
          have hpart : (field.source.text.takeWhile (· ≠ '.')).length ≤
              field.source.text.length := (List.takeWhile_prefix _).length_le
          rw [List.length_take]
          omega
        have hshort : field.shown.length ≤ field.size - 1 :=
          List.length_take_le _ _
        have hpart : field.shown ++ [nul] <+: field.source.text.take field.size := by
          apply List.prefix_of_prefix_length_le hholds.starts hstill
          rw [List.length_append, List.length_singleton]
          omega
        have hnul : nul ∈ field.source.text.take field.size :=
          hpart.subset (by simp)
        exact field.source.noNul (List.mem_of_mem_take hnul)
      · apply ih hrest _ hmem
        rwa [length_setItem]

/-- A structure is filled rightly exactly when every dot at which a field is to be
cut is in reach. -/
theorem itemsRight_iff {items : List Item} {memory : Memory}
    (hlaid : Laid 0 items size) (hroom : address + size ≤ memory.length) :
    ItemsRight items size address memory ↔
      ∀ field, .field field ∈ items → field.DotFits := by
  constructor
  · rintro ⟨hholds, -⟩ field hmem
    by_contra hfits
    exact not_holds_setItems hlaid hroom hmem hfits (hholds field hmem)
  · intro hfits
    refine ⟨fun field => holds_setItems hlaid hfits hroom field, ?_⟩
    exact within_setItems hlaid (Nat.le_refl _) hfits
      (Stores.within_nil memory address size) (Nat.le_refl _)

end Items

/-! ## The three structures -/

theorem laid_items (call : Call) (uts : NewUtsname) :
    Laid 0 (call.items uts) call.size := by
  cases call <;>
    simp [Call.items, v7Items, abiItems, xnxItems, Laid, Item.offset, Item.size,
      Call.size, svr4Nmln]

/-- Only the fields of the host name are cut at a dot, and these have nine
bytes. -/
theorem dotFits_items_iff (call : Call) (uts : NewUtsname) :
    (∀ field, .field field ∈ call.items uts → field.DotFits) ↔
      (call ≠ .abiUtsname → '.' ∈ uts.nodename.text →
        (uts.nodename.text.takeWhile (· ≠ '.')).length < 9) := by
  cases call <;>
    simp [Call.items, v7Items, abiItems, xnxItems, Field.DotFits]

/-- The names of the system stay in their fields exactly when the first dot of the
host name, where a field is cut at it, is one of its first nine characters. -/
theorem utsname_right_iff (call : Call) (personality : ℕ) (uts : NewUtsname)
    (address : ℕ) (memory : Memory)
    (hroom : address + call.size ≤ memory.length) :
    UtsnameRight call personality uts address memory ↔
      UtsnameMeets call personality uts := by
  have hitems := (itemsRight_iff (laid_items call uts) hroom).trans
    (dotFits_items_iff call uts)
  rw [UtsnameRight, UtsnameMeets, runUtsname]
  by_cases hrefused : call = .xnxUtsname ∧ personality ≠ perScosvr3
  · simp [hrefused]
  · simp only [if_neg hrefused, true_and]
    rw [← ItemsRight, hitems]
    have hpersonality : call = .xnxUtsname → personality = perScosvr3 :=
      fun hcall => not_not.mp fun hne => hrefused ⟨hcall, hne⟩
    exact ⟨fun hright hcall _ => hright hcall,
      fun hmeets hcall => hmeets hcall hpersonality⟩

def shortName (text : List Char) (hnul : nul ∉ text) (hlength : text.length ≤ 64) :
    CString 65 :=
  ⟨text, List.replicate (64 - text.length) nul, hnul, by
    rw [List.length_replicate]
    omega⟩

/-- A host whose first dot is its tenth character. -/
def dottedHost : NewUtsname where
  sysname := shortName ['L'] (by decide) (by decide)
  nodename := shortName
    ['m', 'a', 'i', 'l', 's', 'e', 'r', 'v', 'e', '.', 'd', 'e'] (by decide)
    (by decide)
  release := shortName ['6'] (by decide) (by decide)
  version := shortName ['1'] (by decide) (by decide)
  machine := shortName ['i'] (by decide) (by decide)

/-- With this host the first field of `v7_utsname` is left without a terminator. -/
theorem utsname_wrong :
    ¬ UtsnameRight .v7Utsname 0 dottedHost 0 (List.replicate 45 'x') ∧
      ¬ Holds (runUtsname .v7Utsname 0 dottedHost 0
          (List.replicate 45 'x')).2.memory 0
        ['m', 'a', 'i', 'l', 's', 'e', 'r', 'v'] := by
  have hholds : ¬ Holds (runUtsname .v7Utsname 0 dottedHost 0
      (List.replicate 45 'x')).2.memory 0
      ['m', 'a', 'i', 'l', 's', 'e', 'r', 'v'] := by
    rintro ⟨-, hstarts⟩
    exact absurd hstarts (by decide)
  refine ⟨fun hright => hholds ?_, hholds⟩
  exact hright.2.1 ⟨0, 9, 65, dottedHost.nodename, true⟩ List.mem_cons_self

/-- A call on a structure that is in memory. -/
theorem utsname_right_iff_zero :
    0 + Call.v7Utsname.size ≤ (List.replicate 45 'x').length ∧
      (UtsnameRight .v7Utsname 0 dottedHost 0 (List.replicate 45 'x') ↔
        UtsnameMeets .v7Utsname 0 dottedHost) :=
  ⟨by decide, utsname_right_iff .v7Utsname 0 dottedHost 0 (List.replicate 45 'x')
    (by decide)⟩

end IbcsUs.Utsname
