import IbcsUs.Core.Refinement
import IbcsUs.Files.FileTable

/-!
# The table of character devices

`register_chrdev` keeps the emulated devices in five slots.  It scans them from the last to
the first, so that the free slot it takes is the first one, and the devices are asked for a
name in the order in which they came.  `unregister_chrdev` compares the name of every slot
with another major number, also where a free slot has none.
-/

namespace IbcsUs.Chrdevs

open IbcsUs.Refinement IbcsUs.Files

/-- `struct linux26_chrdev`; a slot is free while its major number is 0. -/
structure Slot where
  major : ℕ
  name : Option (List Char)
  fops : Option Chrdev

def Slot.free : Slot := ⟨0, none, none⟩

/-- The number of slots of `chrdev_list`. -/
def slots : ℕ := 5

def chrdevListStart : List Slot := List.replicate slots .free

/-- What the loop of `register_chrdev` finds: the device is there, or the slot to take. -/
inductive Scan where
  | exists
  | space (free : Option ℕ)
  | fault

/-- The loop of `register_chrdev` over the slots below an index, from the last one on. -/
def registerScan (chrdevList : List Slot) (major : ℕ) (name : List Char) : ℕ → Option ℕ → Scan
  | 0, free => .space free
  | index + 1, free =>
      let slot := chrdevList.getD index .free
      if slot.major = 0 then registerScan chrdevList major name index (some index)
      else if slot.major = major then .exists
      else
        match slot.name with
        | none => .fault
        | some other =>
            if other = name then .exists else registerScan chrdevList major name index free

/-- `register_chrdev`, with its result; `none` where a null pointer is followed. -/
def registerChrdev (chrdevList : List Slot) (major : ℕ) (name : List Char) (fops : Chrdev) :
    Option (List Slot × ℤ) :=
  match registerScan chrdevList major name slots none with
  | .fault => none
  | .exists => some (chrdevList, -17)
  | .space none => some (chrdevList, -12)
  | .space (some index) => some (chrdevList.set index ⟨major, some name, some fops⟩, 0)

/-- The loop of `unregister_chrdev`. -/
def unregisterLoop (major : ℕ) (name : List Char) : ℕ → List Slot → Option (List Slot)
  | 0, chrdevList => some chrdevList
  | index + 1, chrdevList =>
      let slot := chrdevList.getD index .free
      if slot.major = major then unregisterLoop major name index (chrdevList.set index .free)
      else
        match slot.name with
        | none => none
        | some other =>
            if other = name then unregisterLoop major name index (chrdevList.set index .free)
            else unregisterLoop major name index chrdevList

/-- `unregister_chrdev`. -/
def unregisterChrdev (chrdevList : List Slot) (major : ℕ) (name : List Char) :
    Option (List Slot) :=
  unregisterLoop major name slots chrdevList

/-- A device that asks to be registered. -/
structure Device where
  major : ℕ
  name : List Char
  fops : Chrdev

def Device.slot (device : Device) : Slot := ⟨device.major, some device.name, some device.fops⟩

def chrdevStep (chrdevList : List Slot) (device : Device) : Option (List Slot × ℤ) :=
  registerChrdev chrdevList device.major device.name device.fops

/-! ## What the table is for -/

/-- The device has the number or the name of the other one. -/
def Device.Clashes (device other : Device) : Prop :=
  other.major = device.major ∨ other.name = device.name

instance (device other : Device) : Decidable (device.Clashes other) :=
  inferInstanceAs (Decidable (_ ∨ _))

/-- The devices in the order in which they came: no two with one number or name, and no more
than there are slots. -/
def specStep (devices : List Device) (device : Device) : List Device × ℤ :=
  if devices.any fun other => decide (device.Clashes other) then (devices, -17)
  else if devices.length = slots then (devices, -12)
  else (devices ++ [device], 0)

/-- The table holds the devices, and its other slots are free. -/
structure Holds (chrdevList : List Slot) (devices : List Device) : Prop where
  fits : devices.length ≤ slots
  eq : chrdevList =
    devices.map Device.slot ++ List.replicate (slots - devices.length) .free
  numbered : ∀ device ∈ devices, device.major ≠ 0

section Scan

variable {chrdevList : List Slot} {devices : List Device} {device : Device}

theorem Holds.getD_of_lt (hholds : Holds chrdevList devices) {index : ℕ}
    (hlt : index < devices.length) :
    ∃ other ∈ devices, devices[index]? = some other ∧
      chrdevList.getD index .free = other.slot := by
  have hget : devices[index]? = some devices[index] := List.getElem?_eq_getElem hlt
  refine ⟨devices[index], List.getElem_mem hlt, hget, ?_⟩
  rw [hholds.eq, List.getD_eq_getElem?_getD, List.getElem?_append_left (by simpa using hlt),
    List.getElem?_map, hget]
  rfl

theorem Holds.getD_of_le (hholds : Holds chrdevList devices) {index : ℕ}
    (hle : devices.length ≤ index) : chrdevList.getD index .free = .free := by
  rw [hholds.eq, List.getD_eq_getElem?_getD, List.getElem?_append_right (by simpa using hle),
    List.getElem?_replicate]
  split <;> rfl

/-- A slot that holds a device is compared with the one that comes. -/
theorem registerScan_device {index : ℕ} {other : Device}
    (hslot : chrdevList.getD index .free = other.slot) (hmajor : other.major ≠ 0)
    (free : Option ℕ) :
    registerScan chrdevList device.major device.name (index + 1) free =
      if device.Clashes other then .exists
      else registerScan chrdevList device.major device.name index free := by
  have hcompare : registerScan chrdevList device.major device.name (index + 1) free =
      if other.major = device.major then .exists
      else if other.name = device.name then .exists
      else registerScan chrdevList device.major device.name index free := by
    rw [registerScan, hslot]
    exact if_neg hmajor
  rw [hcompare]
  by_cases hnumber : other.major = device.major
  · rw [if_pos hnumber, if_pos (.inl hnumber)]
  · rw [if_neg hnumber]
    by_cases hname : other.name = device.name
    · rw [if_pos hname, if_pos (.inr hname)]
    · have hclash : ¬ device.Clashes other := not_or.mpr ⟨hnumber, hname⟩
      rw [if_neg hname, if_neg hclash]

/-- The devices below an index are those that are compared. -/
theorem registerScan_below (hholds : Holds chrdevList devices) {index : ℕ}
    (hle : index ≤ devices.length) (free : Option ℕ) :
    registerScan chrdevList device.major device.name index free =
      if (devices.take index).any fun other => decide (device.Clashes other) then .exists
      else .space free := by
  induction index with
  | zero => rfl
  | succ index ih =>
      obtain ⟨other, hmem, hget, hslot⟩ := hholds.getD_of_lt (Nat.lt_of_succ_le hle)
      have htake : devices.take (index + 1) = devices.take index ++ [other] := by
        rw [List.take_add_one, hget]
        rfl
      rw [registerScan_device hslot (hholds.numbered other hmem), htake, List.any_append,
        List.any_cons, List.any_nil, Bool.or_false]
      by_cases hclash : device.Clashes other
      · rw [if_pos hclash, decide_eq_true hclash, Bool.or_true, if_pos rfl]
      · rw [if_neg hclash, decide_eq_false hclash, Bool.or_false]
        exact ih (Nat.le_of_succ_le hle)

/-- The last free slot on the way down is the first one of the table. -/
theorem registerScan_above (hholds : Holds chrdevList devices) {index : ℕ}
    (hle : devices.length ≤ index) (free : Option ℕ) :
    registerScan chrdevList device.major device.name index free =
      registerScan chrdevList device.major device.name devices.length
        (if devices.length = index then free else some devices.length) := by
  induction index, hle using Nat.le_induction generalizing free with
  | base => rw [if_pos rfl]
  | succ index hle ih =>
      rw [registerScan, hholds.getD_of_le hle]
      simp only [Slot.free, if_pos]
      rw [ih, if_neg (show devices.length ≠ index + 1 by omega)]
      split
      · next heq => rw [heq]
      · rfl

theorem registerScan_eq (hholds : Holds chrdevList devices) :
    registerScan chrdevList device.major device.name slots none =
      if devices.any fun other => decide (device.Clashes other) then .exists
      else .space (if devices.length = slots then none else some devices.length) := by
  rw [registerScan_above hholds hholds.fits, registerScan_below hholds le_rfl, List.take_length]

theorem Holds.append (hholds : Holds chrdevList devices) (hroom : devices.length ≠ slots)
    (hmajor : device.major ≠ 0) :
    Holds (chrdevList.set devices.length device.slot) (devices ++ [device]) := by
  have hlt : devices.length < slots := lt_of_le_of_ne hholds.fits hroom
  refine ⟨?_, ?_, ?_⟩
  · rw [List.length_append, List.length_singleton]
    exact hlt
  · obtain ⟨more, hmore⟩ := Nat.exists_eq_add_of_lt hlt
    have hfree : slots - devices.length = more + 1 := by omega
    have hrest : slots - (devices ++ [device]).length = more := by
      rw [List.length_append, List.length_singleton]
      omega
    rw [hholds.eq, hfree, hrest, List.replicate_succ, List.set_append_right _ _ (by simp),
      List.length_map, Nat.sub_self, List.set_cons_zero, List.map_append, List.append_assoc]
    rfl
  · intro other hother
    rcases List.mem_append.mp hother with hmem | hmem
    · exact hholds.numbered other hmem
    · rw [List.mem_singleton.mp hmem]
      exact hmajor

/-- A registration is answered as the list of devices answers it. -/
theorem simulates_chrdevs :
    Simulates chrdevStep specStep (fun _ device => device.major ≠ 0) Holds := by
  intro chrdevList devices device hholds hmajor
  rw [chrdevStep, registerChrdev, registerScan_eq hholds, specStep]
  by_cases hclash : (devices.any fun other => decide (device.Clashes other)) = true
  · rw [if_pos hclash, if_pos hclash]
    exact ⟨chrdevList, rfl, hholds⟩
  · rw [if_neg hclash, if_neg hclash]
    by_cases hfull : devices.length = slots
    · rw [if_pos hfull, if_pos hfull]
      exact ⟨chrdevList, rfl, hholds⟩
    · rw [if_neg hfull, if_neg hfull]
      exact ⟨_, rfl, hholds.append hfull hmajor⟩

theorem holds_start : Holds chrdevListStart [] := ⟨Nat.zero_le _, rfl, by simp⟩

theorem ready_chrdevs {calls : List Device} (hmajor : ∀ device ∈ calls, device.major ≠ 0)
    (devices : List Device) :
    Ready specStep (fun _ device => device.major ≠ 0) devices calls := by
  induction calls generalizing devices with
  | nil => trivial
  | cons device calls ih =>
      exact ⟨hmajor device List.mem_cons_self,
        ih (fun other hother => hmajor other (List.mem_cons_of_mem _ hother)) _⟩

end Scan

/-! ## Taking a device out -/

section Unregister

variable {chrdevList : List Slot} {devices : List Device}

/-- The loop comes to a free slot. -/
theorem unregisterLoop_free (hholds : Holds chrdevList devices) {major : ℕ} (hmajor : major ≠ 0)
    (name : List Char) {index : ℕ} (hlt : devices.length < index) :
    unregisterLoop major name index chrdevList = none := by
  obtain ⟨index, rfl⟩ := Nat.exists_eq_succ_of_ne_zero (Nat.ne_of_gt (Nat.zero_lt_of_lt hlt))
  rw [unregisterLoop, hholds.getD_of_le (Nat.le_of_lt_succ hlt)]
  exact if_neg hmajor.symm

/-- A loop over slots that all have a name ends. -/
theorem unregisterLoop_isSome {major : ℕ} {name : List Char} {index : ℕ}
    (hnames : ∀ below < index, (chrdevList.getD below .free).name.isSome) :
    (unregisterLoop major name index chrdevList).isSome := by
  induction index generalizing chrdevList with
  | zero => rfl
  | succ index ih =>
      have hbelow (below : ℕ) (hlt : below < index) :
          ((chrdevList.set index .free).getD below .free).name.isSome := by
        rw [List.getD_eq_getElem?_getD, List.getElem?_set_ne (Nat.ne_of_gt hlt),
          ← List.getD_eq_getElem?_getD]
        exact hnames below (Nat.lt_succ_of_lt hlt)
      rw [unregisterLoop]
      split
      · exact ih hbelow
      · split
        · next hnone =>
          have hsome := hnames index (Nat.lt_succ_self _)
          rw [hnone] at hsome
          cases hsome
        · split
          · exact ih hbelow
          · exact ih fun below hlt => hnames below (Nat.lt_succ_of_lt hlt)

/-- `unregister_chrdev` follows a null pointer exactly while a slot is free. -/
theorem unregisterChrdev_eq_none_iff (hholds : Holds chrdevList devices) {major : ℕ}
    (hmajor : major ≠ 0) (name : List Char) :
    unregisterChrdev chrdevList major name = none ↔ devices.length < slots := by
  constructor
  · intro hnone
    by_contra hfull
    have hsome : (unregisterChrdev chrdevList major name).isSome := by
      refine unregisterLoop_isSome fun below hlt => ?_
      obtain ⟨other, -, -, hslot⟩ := hholds.getD_of_lt
        (show below < devices.length from Nat.lt_of_lt_of_le hlt (Nat.le_of_not_lt hfull))
      rw [hslot]
      rfl
    rw [hnone] at hsome
    cases hsome
  · exact unregisterLoop_free hholds hmajor name

end Unregister

/-! ## Any run of registrations -/

/-- The devices that `find_chrdev` asks, in the order of the slots. -/
def operations (chrdevList : List Slot) : List Chrdev := chrdevList.filterMap Slot.fops

theorem Holds.operations_eq {chrdevList : List Slot} {devices : List Device}
    (hholds : Holds chrdevList devices) :
    operations chrdevList = devices.map Device.fops := by
  have hfree : (List.replicate (slots - devices.length) Slot.free).filterMap Slot.fops = [] := by
    simp [Slot.free]
  rw [operations, hholds.eq, List.filterMap_append, hfree, List.append_nil, List.filterMap_map]
  exact congrFun List.filterMap_eq_map devices

/-- Any run of registrations with numbers other than 0: the table answers as the list of the
devices in the order in which they came, a path is offered to them in that order, and taking
a device out follows a null pointer exactly while a slot is free. -/
theorem chrdevs_serve (calls : List Device) (hmajor : ∀ device ∈ calls, device.major ≠ 0) :
    ∃ final, serve chrdevStep chrdevListStart calls =
        some (final, (serveSpec specStep [] calls).2) ∧
      (∀ path mode flags, findChrdev (operations final) path mode flags =
        findChrdev ((serveSpec specStep [] calls).1.map Device.fops) path mode flags) ∧
      ∀ major name, major ≠ 0 →
        (unregisterChrdev final major name = none ↔
          (serveSpec specStep [] calls).1.length < slots) := by
  obtain ⟨final, hserve, hholds⟩ :=
    simulates_chrdevs.serve_eq holds_start (ready_chrdevs hmajor [])
  refine ⟨final, hserve, fun path mode flags => ?_, fun major name hne => ?_⟩
  · rw [hholds.operations_eq]
  · exact unregisterChrdev_eq_none_iff hholds hne name

/-- The socket device alone, as the emulator registers it. -/
theorem chrdevs_serve_socksys :
    ∃ final, serve chrdevStep chrdevListStart [⟨30, "socksys".toList, socksysFops id⟩] =
        some (final, [0]) ∧ unregisterChrdev final 30 "socksys".toList = none := by
  obtain ⟨final, hserve, -, hnone⟩ := chrdevs_serve [⟨30, "socksys".toList, socksysFops id⟩]
    (by simp)
  exact ⟨final, hserve, (hnone 30 "socksys".toList (by decide)).mpr (by decide)⟩

end IbcsUs.Chrdevs
