import Mathlib.Data.BitVec
import Mathlib.Data.Char
import Mathlib.Data.List.DropRight
import Mathlib.Data.List.GetD
import Mathlib.Data.List.Induction
import Mathlib.Data.Nat.Cast.Order.Ring
import Mathlib.Order.Nat

/-!
# Terminated strings in memory

Memory is a list of bytes, a string what stands before the first zero byte.  The
functions of the C library scan forwards from an address, loops of the program also
backwards; what they find is read off the memory from that address on, so that a
write behind it changes nothing.
-/

namespace IbcsUs.Strings

/-- Bytes, from address zero on. -/
abbrev Memory := List Char

/-- The terminator. -/
def nul : Char := '\x00'

/-- The byte at an address. -/
def cell (memory : Memory) (address : ℕ) : Char := memory.getD address nul

/-- The string that begins at an address. -/
def stringAt (memory : Memory) (address : ℕ) : List Char :=
  (memory.drop address).takeWhile (· ≠ nul)

/-- Where the string ends, `strchr(s, '\0')`. -/
def strend (memory : Memory) (address : ℕ) : ℕ :=
  address + (stringAt memory address).length

/-- The first place of a character other than the terminator. -/
def strchr (memory : Memory) (address : ℕ) (letter : Char) : Option ℕ :=
  ((stringAt memory address).idxOf? letter).map (address + ·)

/-- The first place of a text. -/
def strstr (memory : Memory) (address : ℕ) (needle : List Char) : Option ℕ :=
  let text := stringAt memory address
  ((List.range (text.length + 1)).find? fun index =>
    needle.isPrefixOf (text.drop index)).map (address + ·)

/-- `strncmp` with a literal: whether it stands at an address. -/
def startsWith (memory : Memory) (address : ℕ) (literal : List Char) : Bool :=
  literal.isPrefixOf (memory.drop address)

/-- A loop that passes over characters of a kind. -/
def skip (kind : Char → Bool) (memory : Memory) (address : ℕ) : ℕ :=
  address + ((memory.drop address).takeWhile kind).length

/-- A loop that passes over characters of a kind, backwards. -/
def back (kind : Char → Bool) (memory : Memory) : ℕ → ℕ
  | 0 => 0
  | address + 1 =>
      if kind (cell memory (address + 1)) then back kind memory address
      else address + 1

/-- A 16-bit word, low byte first. -/
def readShort (memory : Memory) (address : ℕ) : ℕ :=
  (cell memory address).toNat + 256 * (cell memory (address + 1)).toNat

/-- What is written of a number are its low 16 bits. -/
def writeShort (memory : Memory) (address value : ℕ) : Memory :=
  (memory.set address (Char.ofNat (value % 256))).set (address + 1)
    (Char.ofNat (value / 256 % 256))

/-! ## Runs of characters of a kind -/

section Runs

variable {kind : Char → Bool} {text rest : List Char}

theorem takeWhile_eq_left (htext : ∀ c ∈ text, kind c = true)
    (hrest : ∀ c ∈ rest.head?, kind c = false) :
    (text ++ rest).takeWhile kind = text := by
  have hstop : rest.takeWhile kind = [] := by
    cases rest with
    | nil => rfl
    | cons c rest =>
        apply List.takeWhile_cons_of_neg
        rw [hrest c rfl]
        exact Bool.false_ne_true
  rw [List.takeWhile_append_of_pos htext, hstop, List.append_nil]

theorem dropWhile_eq_right (htext : ∀ c ∈ text, kind c = true)
    (hrest : ∀ c ∈ rest.head?, kind c = false) :
    (text ++ rest).dropWhile kind = rest := by
  have hsplit := List.takeWhile_append_dropWhile (p := kind) (l := text ++ rest)
  rw [takeWhile_eq_left htext hrest] at hsplit
  exact List.append_cancel_left hsplit

theorem rdropWhile_eq_left (hrest : ∀ c ∈ rest, kind c = true)
    (htext : ∀ c ∈ text.getLast?, kind c = false) :
    (text ++ rest).rdropWhile kind = text := by
  rw [List.rdropWhile, List.reverse_append, dropWhile_eq_right,
    List.reverse_reverse]
  · exact fun c hc => hrest c (List.mem_reverse.1 hc)
  · rw [List.head?_reverse]
    exact htext

theorem rtakeWhile_eq_right (hrest : ∀ c ∈ rest, kind c = true)
    (htext : ∀ c ∈ text.getLast?, kind c = false) :
    (text ++ rest).rtakeWhile kind = rest := by
  rw [List.rtakeWhile, List.reverse_append, takeWhile_eq_left,
    List.reverse_reverse]
  · exact fun c hc => hrest c (List.mem_reverse.1 hc)
  · rw [List.head?_reverse]
    exact htext

/-- The first character behind a run is not of the kind. -/
theorem head_dropWhile : ∀ c ∈ (text.dropWhile kind).head?, kind c = false := by
  intro c hc
  have hnot := List.head?_dropWhile_not kind text
  rwa [Option.mem_def.1 hc] at hnot

/-- The last character before a run is not of the kind. -/
theorem getLast_rdropWhile :
    ∀ c ∈ (text.rdropWhile kind).getLast?, kind c = false := by
  intro c hc
  rw [List.rdropWhile, List.getLast?_reverse] at hc
  exact head_dropWhile c hc

/-- A text that begins with a character not of the kind still does when it is
stripped. -/
theorem head_rdropWhile {letter : Char} (hhead : text.head? = some letter)
    (hletter : kind letter = false) :
    (text.rdropWhile kind).head? = some letter := by
  have hne : text.rdropWhile kind ≠ [] := by
    rw [Ne, List.rdropWhile_eq_nil_iff]
    intro hall
    rw [hall letter (List.mem_of_mem_head? hhead)] at hletter
    exact Bool.noConfusion hletter
  obtain ⟨tail, htail⟩ := List.rdropWhile_prefix kind (l := text)
  rwa [← htail, List.head?_append_of_ne_nil _ hne] at hhead

end Runs

/-! ## Reading from an address on -/

section Reading

variable {memory : Memory} {address : ℕ} {text rest : List Char} {letter : Char}
variable {kind : Char → Bool}

theorem drop_add (hdrop : memory.drop address = text ++ rest) :
    memory.drop (address + text.length) = rest := by
  rw [← List.drop_drop, hdrop, List.drop_left]

theorem cell_of_drop (hdrop : memory.drop address = letter :: rest) :
    cell memory address = letter := by
  have hget : memory[address]? = some letter := by
    rw [← List.head?_drop, hdrop, List.head?_cons]
  rw [cell, List.getD_eq_getElem?_getD, hget, Option.getD_some]

theorem cell_of_drop_append {index : ℕ}
    (hdrop : memory.drop address = text ++ rest)
    (hindex : text[index]? = some letter) :
    cell memory (address + index) = letter := by
  obtain ⟨hlt, _⟩ := List.getElem?_eq_some_iff.1 hindex
  have hget : memory[address + index]? = some letter := by
    rw [← List.getElem?_drop, hdrop, List.getElem?_append_left hlt, hindex]
  rw [cell, List.getD_eq_getElem?_getD, hget, Option.getD_some]

theorem skip_eq (hdrop : memory.drop address = text ++ rest)
    (htext : ∀ c ∈ text, kind c = true)
    (hrest : ∀ c ∈ rest.head?, kind c = false) :
    skip kind memory address = address + text.length := by
  rw [skip, hdrop, takeWhile_eq_left htext hrest]

/-- The string at an address is the text up to the terminator. -/
theorem stringAt_append (hdrop : memory.drop address = text ++ rest)
    (hnul : nul ∉ text) :
    stringAt memory address = text ++ rest.takeWhile (· ≠ nul) := by
  rw [stringAt, hdrop, List.takeWhile_append_of_pos]
  intro c hc
  exact decide_eq_true (ne_of_mem_of_not_mem hc hnul)

theorem strend_eq (hdrop : memory.drop address = text ++ nul :: rest)
    (hnul : nul ∉ text) : strend memory address = address + text.length := by
  rw [strend, stringAt_append hdrop hnul, List.takeWhile_cons_of_neg (by simp),
    List.append_nil]

theorem idxOf_append_cons (hletter : letter ∉ text) :
    (text ++ letter :: rest).idxOf? letter = some text.length := by
  induction text with
  | nil => simp [List.idxOf?_cons]
  | cons c text ih =>
      rw [List.mem_cons, not_or] at hletter
      have hne : (c == letter) = false := by simpa using Ne.symm hletter.1
      rw [List.cons_append, List.idxOf?_cons, hne, ih hletter.2]
      simp

theorem strchr_eq_some (hdrop : memory.drop address = text ++ letter :: rest)
    (hnul : nul ∉ text) (hletter : letter ∉ text) (hne : letter ≠ nul) :
    strchr memory address letter = some (address + text.length) := by
  rw [strchr, stringAt_append hdrop hnul,
    List.takeWhile_cons_of_pos (by simp [hne]), idxOf_append_cons hletter,
    Option.map_some]

theorem strchr_eq_none (hdrop : memory.drop address = text ++ nul :: rest)
    (hnul : nul ∉ text) (hletter : letter ∉ text) :
    strchr memory address letter = none := by
  rw [strchr, stringAt_append hdrop hnul, List.takeWhile_cons_of_neg (by simp),
    List.append_nil, List.idxOf?_eq_none_iff.2 hletter, Option.map_none]

section Search

variable {needle : List Char}

theorem prefix_drop_lt (hneedle : needle ≠ []) {offset : ℕ}
    (hstarts : needle <+: text.drop offset) : offset < text.length := by
  have hle := hstarts.length_le
  have hpos := List.length_pos_of_ne_nil hneedle
  rw [List.length_drop] at hle
  omega

theorem strstr_eq_none_iff (hneedle : needle ≠ []) :
    strstr memory address needle = none ↔
      ∀ offset, ¬ needle <+: (stringAt memory address).drop offset := by
  simp only [strstr, Option.map_eq_none_iff, List.find?_range_eq_none,
    Bool.not_eq_true', ← Bool.not_eq_true, List.isPrefixOf_iff_prefix]
  constructor
  · intro hnone offset hstarts
    have hlt := prefix_drop_lt hneedle hstarts
    exact hnone offset (by omega) hstarts
  · exact fun hnone offset _ => hnone offset

theorem strstr_eq_some_iff (hneedle : needle ≠ []) {found : ℕ} :
    strstr memory address needle = some found ↔
      ∃ offset, found = address + offset ∧
      needle <+: (stringAt memory address).drop offset ∧
      ∀ earlier < offset,
        ¬ needle <+: (stringAt memory address).drop earlier := by
  simp only [strstr, Option.map_eq_some_iff, List.find?_range_eq_some,
    List.mem_range, Bool.not_eq_true', ← Bool.not_eq_true,
    List.isPrefixOf_iff_prefix]
  constructor
  · rintro ⟨offset, ⟨hstarts, _, hearlier⟩, rfl⟩
    exact ⟨offset, rfl, hstarts, hearlier⟩
  · rintro ⟨offset, rfl, hstarts, hearlier⟩
    have hlt := prefix_drop_lt hneedle hstarts
    exact ⟨offset, ⟨hstarts, by omega, hearlier⟩, rfl⟩

end Search

theorem back_of_not (hcell : kind (cell memory address) = false) :
    back kind memory address = address := by
  cases address with
  | zero => rfl
  | succ address => rw [back, hcell, if_neg Bool.false_ne_true]

theorem back_succ (hcell : kind (cell memory (address + 1)) = true) :
    back kind memory (address + 1) = back kind memory address := by
  rw [back, if_pos hcell]

/-- Going back from the end of a text that is not all of a kind. -/
theorem back_eq (hdrop : memory.drop address = text ++ rest)
    (htext : text.rdropWhile kind ≠ []) :
    back kind memory (address + text.length - 1) =
      address + (text.rdropWhile kind).length - 1 := by
  induction text using List.reverseRecOn generalizing rest with
  | nil => exact absurd (List.rdropWhile_nil kind) htext
  | append_singleton text c ih =>
      rw [List.append_assoc, List.singleton_append] at hdrop
      have hcell : cell memory (address + text.length) = c :=
        cell_of_drop (drop_add hdrop)
      have hend : address + (text ++ [c]).length - 1 =
        address + text.length := by
        rw [List.length_append, List.length_singleton]
        omega
      by_cases hkind : kind c = true
      · rw [List.rdropWhile_concat_pos _ _ _ hkind] at htext ⊢
        have hne : 0 < text.length := by
          apply List.length_pos_of_ne_nil
          rintro rfl
          exact htext (List.rdropWhile_nil kind)
        have hsucc : address + text.length =
          address + text.length - 1 + 1 := by omega
        rw [hend, hsucc, back_succ (by rw [← hsucc, hcell, hkind])]
        exact ih hdrop htext
      · rw [List.rdropWhile_concat_neg _ _ _ hkind, hend, back_of_not]
        rw [hcell]
        exact Bool.eq_false_of_not_eq_true hkind

/-- Going back ends at the last character of the stripped text. -/
theorem back_spec (hdrop : memory.drop address = text ++ rest)
    (htext : text.rdropWhile kind ≠ []) :
    back kind memory (address + text.length - 1) + 1 =
        address + (text.rdropWhile kind).length ∧
      (text.rdropWhile kind).getLast? =
        some (cell memory (back kind memory (address + text.length - 1))) := by
  rw [back_eq hdrop htext]
  obtain ⟨front, last, hfront⟩ :=
    (List.eq_nil_or_concat' (text.rdropWhile kind)).resolve_left htext
  have hsplit : text = front ++ ([last] ++ text.rtakeWhile kind) := by
    rw [← List.append_assoc, ← hfront, List.rdropWhile_append_rtakeWhile]
  rw [hsplit, List.append_assoc] at hdrop
  have hcell : cell memory (address + front.length) = last :=
    cell_of_drop (drop_add hdrop)
  have hend : address + (front ++ [last]).length - 1 =
    address + front.length := by
    rw [List.length_append, List.length_singleton]
    omega
  rw [hfront, hend, hcell, List.getLast?_concat, List.length_append,
    List.length_singleton]
  exact ⟨Nat.add_assoc _ _ _, rfl⟩

/-- A literal without the character that ends a text stands in the text or not at
all. -/
theorem prefix_append_iff {needle : List Char}
    (hrest : ∀ c ∈ rest.head?, c ∉ needle) :
    needle <+: text ++ rest ↔ needle <+: text := by
  induction needle generalizing text with
  | nil => simp
  | cons c needle ih =>
      cases text with
      | nil =>
          simp only [List.nil_append, List.prefix_nil, reduceCtorEq, iff_false]
          rintro ⟨tail, htail⟩
          rw [← htail] at hrest
          exact hrest c rfl List.mem_cons_self
      | cons d text =>
          rw [List.cons_append, List.cons_prefix_cons, List.cons_prefix_cons,
            ih]
          exact fun e he hmem => hrest e he (List.mem_cons_of_mem _ hmem)

end Reading

/-! ## Writing -/

section Writing

variable {memory : Memory} {address other value : ℕ} {letter : Char}

theorem drop_writeShort (hbefore : address + 1 < other) :
    (writeShort memory address value).drop other = memory.drop other := by
  rw [writeShort, List.drop_set_of_lt hbefore, List.drop_set_of_lt (by omega)]

theorem skip_set {kind : Char → Bool} (hbefore : address < other) :
    skip kind (memory.set address letter) other = skip kind memory other := by
  rw [skip, skip, List.drop_set_of_lt hbefore]

theorem length_writeShort :
    (writeShort memory address value).length = memory.length := by
  rw [writeShort, List.length_set, List.length_set]

theorem cell_set_self (hlt : address < memory.length) :
    cell (memory.set address letter) address = letter := by
  rw [cell, List.getD_eq_getElem?_getD, List.getElem?_set_self hlt,
    Option.getD_some]

theorem cell_set_ne (hne : address ≠ other) :
    cell (memory.set address letter) other = cell memory other := by
  rw [cell, cell, List.getD_eq_getElem?_getD, List.getD_eq_getElem?_getD,
    List.getElem?_set_ne hne]

theorem toNat_ofNat_byte {byte : ℕ} (hbyte : byte < 256) :
    (Char.ofNat byte).toNat = byte := by
  have hvalid : byte.isValidChar := .inl (by omega)
  rw [Char.ofNat, dif_pos hvalid]
  rfl

/-- A word written is read back, truncated to 16 bits. -/
theorem readShort_writeShort (hlt : address + 1 < memory.length) :
    readShort (writeShort memory address value) address = value % 65536 := by
  have hhigh : cell (writeShort memory address value) (address + 1) =
      Char.ofNat (value / 256 % 256) := by
    rw [writeShort, cell_set_self (by simpa using hlt)]
  have hlow : cell (writeShort memory address value) address =
      Char.ofNat (value % 256) := by
    rw [writeShort, cell_set_ne (by omega), cell_set_self (by omega)]
  rw [readShort, hlow, hhigh, toNat_ofNat_byte (by omega),
    toNat_ofNat_byte (by omega)]
  omega

theorem readShort_set_of_ne (hlow : other ≠ address)
    (hhigh : other ≠ address + 1) :
    readShort (memory.set other letter) address = readShort memory address := by
  rw [readShort, readShort, cell_set_ne hlow, cell_set_ne hhigh]

theorem readShort_writeShort_of_disjoint
    (hdisjoint : other + 1 < address ∨ address + 1 < other) :
    readShort (writeShort memory other value) address =
      readShort memory address := by
  rw [writeShort, readShort_set_of_ne (by omega) (by omega),
    readShort_set_of_ne (by omega) (by omega)]

end Writing

/-! ## Terminated texts -/

/-- A text stands at an address, with a terminator behind it. -/
structure Holds (memory : Memory) (address : ℕ) (text : List Char) : Prop where
  no_nul : nul ∉ text
  starts : text ++ [nul] <+: memory.drop address

section Terminated

variable {memory : Memory} {address other value : ℕ} {text rest : List Char}
variable {letter : Char}

theorem Holds.stringAt_eq (hholds : Holds memory address text) :
    stringAt memory address = text := by
  obtain ⟨rest, hrest⟩ := hholds.starts
  rw [List.append_assoc] at hrest
  rw [stringAt_append hrest.symm hholds.no_nul, List.singleton_append,
    List.takeWhile_cons_of_neg (by simp), List.append_nil]

/-- Putting the terminator. -/
theorem holds_set (hdrop : memory.drop address = text ++ letter :: rest)
    (hnul : nul ∉ text) :
    Holds (memory.set (address + text.length) nul) address text where
  no_nul := hnul
  starts := by
    have hset : (memory.set (address + text.length) nul).drop address =
        text ++ [nul] ++ rest := by
      rw [List.drop_set, if_neg (by omega), Nat.add_sub_cancel_left, hdrop,
        List.set_append_right _ _ (Nat.le_refl _), Nat.sub_self,
        List.set_cons_zero, List.append_assoc, List.singleton_append]
    rw [hset]
    exact List.prefix_append _ _

/-- A byte written outside leaves the text. -/
theorem Holds.set (hholds : Holds memory address text)
    (houtside : other < address ∨ address + text.length < other) :
    Holds (memory.set other letter) address text where
  no_nul := hholds.no_nul
  starts := by
    obtain ⟨rest, hrest⟩ := hholds.starts
    rcases houtside with hbefore | hbehind
    · rw [List.drop_set_of_lt hbefore]
      exact hholds.starts
    · have hlength : (text ++ [nul]).length ≤ other - address := by
        rw [List.length_append, List.length_singleton]
        omega
      rw [List.drop_set, if_neg (by omega), ← hrest,
        List.set_append_right _ _ hlength]
      exact List.prefix_append _ _

theorem Holds.writeShort (hholds : Holds memory address text)
    (houtside : other + 1 < address ∨ address + text.length < other) :
    Holds (writeShort memory other value) address text := by
  apply Holds.set _ (by omega)
  exact hholds.set (by omega)

end Terminated

end IbcsUs.Strings
