import IbcsUs.Core.Strings

/-!
# Memory that is written to

A program that writes leaves the memory changed and the addresses it has written to.
A text shows at an address where memory begins with it; a character put behind a
text that shows makes it longer, one put elsewhere leaves it.  A run of writes stays
within a range when each of them does.
-/

namespace IbcsUs.Strings

/-- Memory, and the addresses written to, the last one first. -/
structure Stores where
  memory : Memory
  written : List ℕ

/-- `*address = letter`. -/
def Stores.put (stores : Stores) (address : ℕ) (letter : Char) : Stores where
  memory := stores.memory.set address letter
  written := address :: stores.written

/-- A text is copied to an address, first character first. -/
def Stores.putAll (stores : Stores) : ℕ → List Char → Stores
  | _, [] => stores
  | address, letter :: text =>
      (stores.put address letter).putAll (address + 1) text

/-- Every write was to one of `size` bytes from an address on. -/
def Stores.Within (stores : Stores) (start size : ℕ) : Prop :=
  ∀ address ∈ stores.written, start ≤ address ∧ address < start + size

/-- Memory begins with a text at an address. -/
def Shows (memory : Memory) (address : ℕ) (text : List Char) : Prop :=
  text <+: memory.drop address

/-! ## Texts that show -/

section Shows

variable {memory : Memory} {address other : ℕ} {text more : List Char}
variable {letter : Char}

theorem shows_nil (memory : Memory) (address : ℕ) : Shows memory address [] :=
  List.nil_prefix

theorem Shows.of_append (hshows : Shows memory address (text ++ more)) :
    Shows memory address text :=
  (List.prefix_append text more).trans hshows

/-- What stands behind the first part of a text. -/
theorem Shows.drop (hshows : Shows memory address (text ++ more)) :
    Shows memory (address + text.length) more := by
  obtain ⟨rest, hrest⟩ := hshows
  rw [List.append_assoc] at hrest
  exact ⟨rest, (drop_add hrest.symm).symm⟩

theorem Shows.append (htext : Shows memory address text)
    (hmore : Shows memory (address + text.length) more) :
    Shows memory address (text ++ more) := by
  obtain ⟨rest, hrest⟩ := htext
  rw [Shows, drop_add hrest.symm] at hmore
  rw [Shows, ← hrest]
  exact List.prefix_append_right_inj text |>.2 hmore

/-- The first character of a text. -/
theorem Shows.head (hshows : Shows memory address (letter :: more)) :
    Strings.cell memory address = letter := by
  obtain ⟨rest, hrest⟩ := hshows
  exact cell_of_drop hrest.symm

/-- What stands behind the first character. -/
theorem Shows.tail (hshows : Shows memory address (letter :: more)) :
    Shows memory (address + 1) more := by
  rw [← List.singleton_append] at hshows
  exact hshows.drop

theorem Shows.cell (hshows : Shows memory address (text ++ letter :: more)) :
    Strings.cell memory (address + text.length) = letter :=
  hshows.drop.head

/-- A write behind a text or before it. -/
theorem Shows.set_of_outside (hshows : Shows memory address text)
    (houtside : other < address ∨ address + text.length ≤ other) :
    Shows (memory.set other letter) address text := by
  rcases houtside with hbefore | hbehind
  · rwa [Shows, List.drop_set_of_lt hbefore]
  · obtain ⟨rest, hrest⟩ := hshows
    have hlength : text.length ≤ other - address := by omega
    rw [Shows, List.drop_set, if_neg (by omega), ← hrest,
      List.set_append_right _ _ hlength]
    exact List.prefix_append _ _

/-- What is written shows. -/
theorem shows_set (hlt : address < memory.length) :
    Shows (memory.set address letter) address [letter] := by
  have hcons : (memory.set address letter).drop address =
      letter :: memory.drop (address + 1) := by
    rw [List.drop_set, if_neg (Nat.lt_irrefl address), Nat.sub_self,
      List.drop_eq_getElem_cons hlt, List.set_cons_zero]
  exact ⟨memory.drop (address + 1), hcons.symm⟩

/-- A character put behind a text. -/
theorem Shows.put (hshows : Shows memory address text)
    (hlt : address + text.length < memory.length) :
    Shows (memory.set (address + text.length) letter) address
      (text ++ [letter]) :=
  (hshows.set_of_outside (.inr (Nat.le_refl _))).append (shows_set hlt)

/-- A text that shows with a terminator behind it. -/
theorem Shows.holds (hshows : Shows memory address (text ++ [nul]))
    (hnul : nul ∉ text) : Holds memory address text :=
  ⟨hnul, hshows⟩

/-- No terminator stands within a text. -/
theorem Holds.cell_ne_nul (hholds : Holds memory address text) {index : ℕ}
    (hindex : index < text.length) :
    Strings.cell memory (address + index) ≠ nul := by
  obtain ⟨rest, hrest⟩ := hholds.starts
  rw [List.append_assoc] at hrest
  have hcell : Strings.cell memory (address + index) = text[index] :=
    cell_of_drop_append hrest.symm (List.getElem?_eq_getElem hindex)
  rw [hcell]
  exact ne_of_mem_of_not_mem (List.getElem_mem hindex) hholds.no_nul

end Shows

/-! ## Runs of writes -/

section Writes

variable {stores : Stores} {address other start size : ℕ} {text shown : List Char}
variable {letter : Char}

@[simp]
theorem Stores.memory_put :
    (stores.put address letter).memory = stores.memory.set address letter := rfl

@[simp]
theorem Stores.length_put :
    (stores.put address letter).memory.length = stores.memory.length :=
  List.length_set

@[simp]
theorem Stores.length_putAll (stores : Stores) (address : ℕ)
    (text : List Char) :
    (stores.putAll address text).memory.length = stores.memory.length := by
  induction text generalizing stores address with
  | nil => rfl
  | cons letter text ih => rw [Stores.putAll, ih, Stores.length_put]

theorem Stores.within_nil (memory : Memory) (start size : ℕ) :
    Stores.Within ⟨memory, []⟩ start size :=
  fun _ hmem => absurd hmem List.not_mem_nil

theorem Stores.Within.put (hwithin : stores.Within start size)
    (hstart : start ≤ address) (hsize : address < start + size) :
    (stores.put address letter).Within start size := by
  intro written hwritten
  rcases List.mem_cons.1 hwritten with rfl | hmem
  · exact ⟨hstart, hsize⟩
  · exact hwithin written hmem

theorem Stores.Within.putAll (hwithin : stores.Within start size)
    (hstart : start ≤ address) (hsize : address + text.length ≤ start + size) :
    (stores.putAll address text).Within start size := by
  induction text generalizing stores address with
  | nil => exact hwithin
  | cons letter text ih =>
      rw [List.length_cons] at hsize
      exact ih (hwithin.put hstart (by omega)) (by omega) (by omega)

/-- The addresses of a copy are written to. -/
theorem Stores.written_putAll (stores : Stores) (address : ℕ)
    (text : List Char) :
    (stores.putAll address text).written =
      (List.range' address text.length).reverse ++ stores.written := by
  induction text generalizing stores address with
  | nil => rfl
  | cons letter text ih =>
      rw [Stores.putAll, ih, List.length_cons, List.range'_succ,
        List.reverse_cons, List.append_assoc]
      rfl

theorem Stores.shows_putAll_of_outside
    (hshows : Shows stores.memory other shown)
    (houtside : address + text.length ≤ other ∨
      other + shown.length ≤ address) :
    Shows (stores.putAll address text).memory other shown := by
  induction text generalizing stores address with
  | nil => exact hshows
  | cons letter text ih =>
      rw [List.length_cons] at houtside
      apply ih
      · exact hshows.set_of_outside (by omega)
      · omega

/-- What is copied shows. -/
theorem Stores.shows_putAll
    (hroom : address + text.length ≤ stores.memory.length) :
    Shows (stores.putAll address text).memory address text := by
  induction text generalizing stores address with
  | nil => exact shows_nil _ _
  | cons letter text ih =>
      rw [List.length_cons] at hroom
      have hletter : Shows ((stores.put address letter).putAll
          (address + 1) text).memory address [letter] := by
        apply Stores.shows_putAll_of_outside (shows_set (by omega))
        exact .inr (Nat.le_refl _)
      apply hletter.append
      exact ih (by rw [Stores.length_put]; omega)

end Writes

/-! ## Moving a text over itself -/

/-- `for (; d >= start; d -= 1) d[pad] = *d;`, for `count` bytes from `start` on, the
last one first. -/
def Stores.moveUp (pad start : ℕ) : ℕ → Stores → Stores
  | 0, stores => stores
  | count + 1, stores =>
      Stores.moveUp pad start count (stores.put (start + count + pad)
        (cell stores.memory (start + count)))

/-- `for (; (*d = d[pad]) != '\0'; d += 1) continue;` -/
def Stores.moveDown (pad : ℕ) (stores : Stores) (d : ℕ) : Stores :=
  if cell stores.memory (d + pad) = nul then
    stores.put d (cell stores.memory (d + pad))
  else
    Stores.moveDown pad (stores.put d (cell stores.memory (d + pad))) (d + 1)
termination_by stores.memory.length - d
decreasing_by
  rename_i hcell
  have hlt : d + pad < stores.memory.length := by
    by_contra hge
    exact hcell (List.getD_eq_default _ _ (Nat.not_lt.1 hge))
  rw [Stores.length_put]
  omega

section Moves

variable {stores : Stores} {pad start size d : ℕ} {text front behind : List Char}

/-- What is moved up shows there, with what stood behind it; the last byte is moved
first, so none is overwritten before it has been read. -/
theorem Stores.shows_moveUp (htext : Shows stores.memory start text)
    (hbehind : Shows stores.memory (start + text.length + pad) behind)
    (hroom : start + text.length + pad ≤ stores.memory.length) :
    Shows (stores.moveUp pad start text.length).memory (start + pad)
      (text ++ behind) := by
  induction text using List.reverseRecOn generalizing stores behind with
  | nil => simpa [Stores.moveUp] using hbehind
  | append_singleton text letter ih =>
      have hletter : cell stores.memory (start + text.length) = letter := htext.cell
      rw [List.length_append, List.length_singleton] at hbehind hroom
      rw [List.length_append, List.length_singleton, Stores.moveUp, hletter,
        List.append_assoc]
      apply ih
      · exact htext.of_append.set_of_outside (.inr (by omega))
      · apply (shows_set (by omega)).append
        apply Shows.set_of_outside _ (.inl (by simp))
        convert hbehind using 1
        rw [List.length_singleton]
        omega
      · rw [Stores.length_put]
        omega

theorem Stores.Within.moveUp (hwithin : stores.Within start size) {first count : ℕ}
    (hstart : start ≤ first + pad) (hsize : first + count + pad ≤ start + size) :
    (stores.moveUp pad first count).Within start size := by
  induction count generalizing stores with
  | zero => exact hwithin
  | succ count ih => exact ih (hwithin.put (by omega) (by omega)) (by omega)

theorem Stores.length_moveUp (pad start count : ℕ) (stores : Stores) :
    (stores.moveUp pad start count).memory.length = stores.memory.length := by
  induction count generalizing stores with
  | zero => rfl
  | succ count ih => rw [Stores.moveUp, ih, Stores.length_put]

/-- One step of moving down. -/
theorem Stores.moveDown_letter {letter : Char}
    (hcell : cell stores.memory (d + pad) = letter) (hletter : letter ≠ nul) :
    stores.moveDown pad d = (stores.put d letter).moveDown pad (d + 1) := by
  rw [Stores.moveDown, hcell, if_neg hletter]

/-- The last step of moving down. -/
theorem Stores.moveDown_nul (hcell : cell stores.memory (d + pad) = nul) :
    stores.moveDown pad d = stores.put d nul := by
  rw [Stores.moveDown, hcell, if_pos rfl]

/-- What is moved down shows there, behind what stood before it; the first byte is
moved first, so none is overwritten before it has been read. -/
theorem Stores.shows_moveDown (htext : Shows stores.memory (d + pad) (text ++ [nul]))
    (hnul : nul ∉ text) (hfront : Shows stores.memory start front)
    (hd : d = start + front.length) (hroom : d + text.length < stores.memory.length) :
    Shows (stores.moveDown pad d).memory start (front ++ (text ++ [nul])) := by
  induction text generalizing stores d front with
  | nil =>
      rw [Stores.moveDown_nul htext.head, hd]
      apply hfront.put
      rw [← hd]
      exact hroom
  | cons letter text ih =>
      rw [List.mem_cons, not_or] at hnul
      rw [List.length_cons] at hroom
      have hrest : Shows stores.memory (d + 1 + pad) (text ++ [nul]) := by
        rw [Nat.add_right_comm]
        exact htext.tail
      have hletter : Shows (stores.put d letter).memory start
          (front ++ [letter]) := by
        rw [Stores.memory_put, hd]
        apply hfront.put
        omega
      rw [Stores.moveDown_letter htext.head (Ne.symm hnul.1), List.cons_append,
        List.append_cons]
      apply ih (hrest.set_of_outside (.inl (by omega))) hnul.2 hletter
      · rw [hd, List.length_append, List.length_singleton, Nat.add_assoc]
      · rw [Stores.length_put]
        omega

theorem Stores.within_moveDown (hwithin : stores.Within start size)
    (htext : Shows stores.memory (d + pad) (text ++ [nul])) (hnul : nul ∉ text)
    (hstart : start ≤ d) (hsize : d + text.length < start + size) :
    (stores.moveDown pad d).Within start size := by
  induction text generalizing stores d with
  | nil =>
      rw [Stores.moveDown_nul htext.head]
      exact hwithin.put hstart hsize
  | cons letter text ih =>
      rw [List.mem_cons, not_or] at hnul
      rw [List.length_cons] at hsize
      rw [Stores.moveDown_letter htext.head (Ne.symm hnul.1)]
      apply ih (hwithin.put hstart (by omega)) _ hnul.2 (by omega) (by omega)
      rw [Nat.add_right_comm]
      exact htext.tail.set_of_outside (.inl (by omega))

theorem Stores.length_moveDown (pad : ℕ) (stores : Stores) (d : ℕ) :
    (stores.moveDown pad d).memory.length = stores.memory.length := by
  fun_induction Stores.moveDown pad stores d with
  | case1 stores d hcell => exact Stores.length_put
  | case2 stores d hcell ih => rw [ih, Stores.length_put]

end Moves

end IbcsUs.Strings
