import IbcsUs.Core.Bits

/-!
# Device numbers

`svr4_stat` and `svr4_xstat` report a device with numbers of their own layout, and
`svr4_mknod` and `svr4_xmknod` take such numbers apart again.  The macros that take
them apart mask the minor number with the count of its bits, and the old layout is
signed, so that few devices come back as they were.
-/

namespace IbcsUs.Devices

/-! ## The code -/

/-- `MAJOR` of `linux/kdev_t.h`. -/
def major (dev : BitVec 32) : BitVec 32 := dev >>> 8

/-- `MINOR`. -/
def minor (dev : BitVec 32) : BitVec 32 := dev &&& 0xff#32

/-- `MKDEV`. -/
def mkdev (ma mi : BitVec 32) : BitVec 32 := ma <<< 8 ||| mi

/-- `SVR4_MINORBITS`. -/
def svr4Minorbits : ℕ := 18

/-- `SVR4_MAJOR`. -/
def svr4Major (dev : BitVec 32) : BitVec 32 := dev >>> svr4Minorbits

/-- `SVR4_MINOR`.  The mask is the number of bits, not a mask of that many. -/
def svr4Minor (dev : BitVec 32) : BitVec 32 :=
  dev &&& BitVec.ofNat 32 svr4Minorbits

/-- `SVR4_MKDEV`. -/
def svr4Mkdev (ma mi : BitVec 32) : BitVec 32 := ma <<< svr4Minorbits ||| mi

/-- `SVR4_O_MINORBITS`. -/
def svr4OMinorbits : ℕ := 8

/-- `SVR4_O_MAJOR` of a `svr4_o_dev_t`, which is signed and promoted to an `int`. -/
def svr4OMajor (dev : BitVec 16) : BitVec 32 :=
  (dev.signExtend 32).sshiftRight svr4OMinorbits

/-- `SVR4_O_MINOR`, with the same slip as `SVR4_MINOR`. -/
def svr4OMinor (dev : BitVec 16) : BitVec 32 :=
  dev.signExtend 32 &&& BitVec.ofNat 32 svr4OMinorbits

/-- `SVR4_O_MKDEV`. -/
def svr4OMkdev (ma mi : BitVec 32) : BitVec 32 := ma <<< svr4OMinorbits ||| mi

/-- `linux_to_svr4_dev_t`. -/
def linuxToSvr4DevT (dev : BitVec 32) : BitVec 32 :=
  svr4Mkdev (major dev) (minor dev)

/-- `linux_to_svr4_o_dev_t`. -/
def linuxToSvr4ODevT (dev : BitVec 32) : BitVec 16 :=
  (svr4OMkdev (major dev) (minor dev)).setWidth 16

/-- `high2lowuid` and `high2lowgid`. -/
def high2low (id : BitVec 32) : BitVec 16 :=
  if id &&& ~~~0xffff#32 ≠ 0 then 65534#16 else id.setWidth 16

/-- `InodeTab` and `DeviceTab`, which end with a row that maps zero. -/
structure Maps where
  inodeTab : Option (List (BitVec 32 × BitVec 32))
  deviceTab : Option (List (BitVec 32 × BitVec 32))

/-- `abi_map`. -/
def abiMap (maps : Maps) (nodeFrom : BitVec 32) (type : ℤ) : BitVec 32 :=
  let tab :=
    if type.natAbs = 1 then maps.inodeTab
    else if type.natAbs = 2 then maps.deviceTab
    else none
  match tab with
  | none => nodeFrom
  | some rows =>
      let rows := rows.takeWhile (·.1 ≠ 0)
      if type < 0 then
        ((rows.find? (·.2 = nodeFrom)).map Prod.fst).getD nodeFrom
      else ((rows.find? (·.1 = nodeFrom)).map Prod.snd).getD nodeFrom

/-- `struct kstat`, without the parts of a second. -/
structure Kstat where
  ino : BitVec 64
  dev : BitVec 32
  mode : BitVec 16
  nlink : BitVec 32
  uid : BitVec 32
  gid : BitVec 32
  rdev : BitVec 32
  size : ℤ
  atime : ℤ
  mtime : ℤ
  ctime : ℤ

/-- `struct svr4_stat`. -/
structure Svr4Stat where
  stDev : BitVec 16
  stIno : BitVec 16
  stMode : BitVec 16
  stNlink : BitVec 16
  stUid : BitVec 16
  stGid : BitVec 16
  stRdev : BitVec 16
  stSize : BitVec 32
  stAtime : ℤ
  stMtime : ℤ
  stCtime : ℤ

/-- `struct svr4_xstat`, as far as it has the fields of the other one. -/
structure Svr4Xstat where
  stDev : BitVec 32
  stIno : BitVec 32
  stMode : BitVec 32
  stNlink : BitVec 32
  stUid : BitVec 32
  stGid : BitVec 32
  stRdev : BitVec 32
  stSize : BitVec 32
  stAtim : ℤ
  stMtim : ℤ
  stCtim : ℤ

/-- `SVR4_Y2K_SHIFT`. -/
def svr4Y2kShift : ℤ := 24 * 60 * 60

/-- `SVR4_Y2K_FEB29`. -/
def svr4Y2kFeb29 : ℤ := 11015 * 24 * 60 * 60

/-- `svr4_y2k_send`; the flag is `ABI_Y2K_BUG` of the personality. -/
def svr4Y2kSend (y2kBug : Bool) (secs : ℤ) : ℤ :=
  if y2kBug && secs > svr4Y2kFeb29 then secs - svr4Y2kShift else secs

/-- `MAX_NON_LFS`. -/
def maxNonLfs : ℤ := 2 ^ 31 - 1

/-- What the reports depend on besides the file: the loaded maps, the personality and
what the table of short inode numbers answers. -/
structure Surroundings where
  maps : Maps
  y2kBug : Bool
  shortIno : BitVec 32 → BitVec 32

/-- `report_svr4_stat`. -/
def reportSvr4Stat (env : Surroundings) (stp : Kstat) : Except ℤ Svr4Stat :=
  if stp.size > maxNonLfs then .error (-75)
  else .ok {
    stDev := linuxToSvr4ODevT (abiMap env.maps stp.dev 2)
    stIno := (env.shortIno (abiMap env.maps (stp.ino.setWidth 32) 1)).setWidth 16
    stMode := stp.mode
    stNlink := stp.nlink.setWidth 16
    stUid := high2low stp.uid
    stGid := high2low stp.gid
    stRdev := linuxToSvr4ODevT (abiMap env.maps stp.rdev 2)
    stSize := BitVec.ofInt 32 stp.size
    stAtime := svr4Y2kSend env.y2kBug stp.atime
    stMtime := svr4Y2kSend env.y2kBug stp.mtime
    stCtime := svr4Y2kSend env.y2kBug stp.ctime }

/-- `report_svr4_xstat`. -/
def reportSvr4Xstat (env : Surroundings) (stp : Kstat) : Except ℤ Svr4Xstat :=
  if stp.size > maxNonLfs then .error (-75)
  else .ok {
    stDev := linuxToSvr4DevT (abiMap env.maps stp.dev 2)
    stIno := env.shortIno (abiMap env.maps (stp.ino.setWidth 32) 1)
    stMode := stp.mode.setWidth 32
    stNlink := stp.nlink
    stUid := stp.uid
    stGid := stp.gid
    stRdev := linuxToSvr4DevT (abiMap env.maps stp.rdev 2)
    stSize := BitVec.ofInt 32 stp.size
    stAtim := svr4Y2kSend env.y2kBug stp.atime
    stMtim := svr4Y2kSend env.y2kBug stp.mtime
    stCtim := svr4Y2kSend env.y2kBug stp.ctime }

/-- What the kernel is asked for. -/
inductive Request where
  | mkdir (filename : List Char) (mode : BitVec 16)
  | mknod (filename : List Char) (mode : BitVec 16) (dev : BitVec 32)
  deriving DecidableEq

/-- `svr4_mknod`. -/
def svr4Mknod (env : Surroundings) (filename : List Char) (mode dev : BitVec 16) :
    Request :=
  if mode &&& 0o170000#16 = 0o040000#16 then .mkdir filename mode
  else .mknod filename mode
    (abiMap env.maps (mkdev (svr4OMajor dev) (svr4OMinor dev)) (-2))

/-- `svr4_do_xmknod`. -/
def svr4DoXmknod (env : Surroundings) (filename : List Char)
    (mode dev : BitVec 32) : Except ℤ Request :=
  let minor := svr4Minor dev
  let major := svr4Major dev
  if minor > 0xff#32 ∨ major > 0xff#32 then .error (-22)
  else .ok (svr4Mknod env filename (mode.setWidth 16)
    ((svr4OMkdev major minor).setWidth 16))

/-- `svr4_xmknod`. -/
def svr4Xmknod (env : Surroundings) (vers : ℤ) (filename : List Char)
    (mode dev : BitVec 32) : Except ℤ Request :=
  if vers = 1 then
    .ok (svr4Mknod env filename (mode.setWidth 16) (dev.setWidth 16))
  else if vers = 2 then svr4DoXmknod env filename mode dev
  else .error (-22)

/-! ## The numbers -/

section Numbers

variable (ma mi : BitVec 8)

/-- The number of a device for the kernel. -/
def deviceNumber (ma mi : BitVec 8) : BitVec 32 :=
  mkdev (ma.setWidth 32) (mi.setWidth 32)

theorem deviceNumber_eq : deviceNumber ma mi = (ma ++ mi).setWidth 32 := by
  rw [deviceNumber, mkdev]
  apply BitVec.eq_of_getLsbD_eq
  intro index hindex
  simp [BitVec.getLsbD_setWidth]
  grind

theorem major_deviceNumber : major (deviceNumber ma mi) = ma.setWidth 32 := by
  rw [deviceNumber_eq]
  rw [major]
  apply BitVec.eq_of_getLsbD_eq
  intro index hindex
  simp [BitVec.getLsbD_setWidth]
  grind

theorem minor_deviceNumber : minor (deviceNumber ma mi) = mi.setWidth 32 := by
  have hmask : 0xff#32 = BitVec.ofNat 32 (2 ^ 8 - 1) := rfl
  rw [deviceNumber_eq]
  rw [minor]
  rw [hmask, Bits.and_lowMask]
  congr 1
  apply BitVec.eq_of_getLsbD_eq
  intro index hindex
  simp [BitVec.getLsbD_setWidth]
  grind

/-- The old layout is the two bytes. -/
theorem svr4OMkdev_bytes :
    (svr4OMkdev (ma.setWidth 32) (mi.setWidth 32)).setWidth 16 = ma ++ mi := by
  rw [svr4OMkdev, svr4OMinorbits]
  apply BitVec.eq_of_getLsbD_eq
  intro index hindex
  simp [BitVec.getLsbD_setWidth]
  grind

theorem linuxToSvr4ODevT_deviceNumber :
    linuxToSvr4ODevT (deviceNumber ma mi) = ma ++ mi := by
  rw [linuxToSvr4ODevT, major_deviceNumber, minor_deviceNumber, svr4OMkdev_bytes]

/-- The sign of the old layout is that of the major number. -/
theorem svr4OMajor_append : svr4OMajor (ma ++ mi) = ma.signExtend 32 := by
  rw [svr4OMajor, svr4OMinorbits]
  apply BitVec.eq_of_getLsbD_eq
  intro index hindex
  simp [BitVec.getLsbD_signExtend, BitVec.getLsbD_sshiftRight]
  grind

/-- One bit of the minor number is left. -/
theorem svr4OMinor_append : svr4OMinor (ma ++ mi) = (mi &&& 8#8).setWidth 32 := by
  have hlong : BitVec.ofNat 32 svr4OMinorbits = BitVec.twoPow 32 3 := rfl
  have hshort : 8#8 = BitVec.twoPow 8 3 := rfl
  rw [svr4OMinor]
  rw [hlong, hshort]
  apply BitVec.eq_of_getLsbD_eq
  intro index hindex
  simp [BitVec.getLsbD_setWidth, BitVec.getLsbD_signExtend]
  grind

/-- The new layout keeps the major number. -/
theorem svr4Major_linuxToSvr4DevT :
    svr4Major (linuxToSvr4DevT (deviceNumber ma mi)) = ma.setWidth 32 := by
  rw [svr4Major, linuxToSvr4DevT, svr4Mkdev, svr4Minorbits]
  rw [major_deviceNumber, minor_deviceNumber]
  apply BitVec.eq_of_getLsbD_eq
  intro index hindex
  simp [BitVec.getLsbD_setWidth]
  grind

/-- Two bits of the minor number are left. -/
theorem svr4Minor_linuxToSvr4DevT :
    svr4Minor (linuxToSvr4DevT (deviceNumber ma mi)) =
      (mi &&& 18#8).setWidth 32 := by
  have hlong : BitVec.ofNat 32 svr4Minorbits =
    BitVec.twoPow 32 4 ||| BitVec.twoPow 32 1 := rfl
  have hshort : 18#8 = BitVec.twoPow 8 4 ||| BitVec.twoPow 8 1 := rfl
  rw [svr4Minor, linuxToSvr4DevT, svr4Mkdev]
  rw [major_deviceNumber, minor_deviceNumber, hlong, hshort]
  rw [svr4Minorbits]
  apply BitVec.eq_of_getLsbD_eq
  intro index hindex
  simp [BitVec.getLsbD_setWidth]
  grind

end Numbers

/-! ## Coming back -/

/-- Surroundings without a device map. -/
structure Unmapped extends Surroundings where
  no_device_map : maps.deviceTab = none

/-- A device as the kernel describes it. -/
structure Device where
  ma : BitVec 8
  mi : BitVec 8
  stat : Kstat
  rdev_eq : stat.rdev = deviceNumber ma mi
  size_le : stat.size ≤ maxNonLfs
  /-- A character or a block device. -/
  kind : stat.mode &&& 0o170000#16 = 0o020000#16 ∨
    stat.mode &&& 0o170000#16 = 0o060000#16

/-- What `svr4_stat` reports of a device comes apart into its numbers and makes
`svr4_mknod` ask for that device. -/
def StatComesBack (env : Surroundings) (device : Device)
    (filename : List Char) : Prop :=
  ∃ buf, reportSvr4Stat env device.stat = .ok buf ∧
    svr4OMajor buf.stRdev = device.ma.setWidth 32 ∧
    svr4OMinor buf.stRdev = device.mi.setWidth 32 ∧
    svr4Mknod env filename device.stat.mode buf.stRdev =
      .mknod filename device.stat.mode device.stat.rdev

/-- What `svr4_xstat` reports does the same for version 2 of `svr4_xmknod`. -/
def XstatComesBack (env : Surroundings) (device : Device)
    (filename : List Char) : Prop :=
  ∃ buf, reportSvr4Xstat env device.stat = .ok buf ∧
    svr4Major buf.stRdev = device.ma.setWidth 32 ∧
    svr4Minor buf.stRdev = device.mi.setWidth 32 ∧
    svr4Xmknod env 2 filename buf.stMode buf.stRdev =
      .ok (.mknod filename device.stat.mode device.stat.rdev)

section Back

variable {env : Unmapped} {device : Device} {filename : List Char}

theorem abiMap_device (env : Unmapped) (dev : BitVec 32) {type : ℤ}
    (htype : type.natAbs = 2) : abiMap env.maps dev type = dev := by
  rw [abiMap]
  rw [htype, if_neg (by decide), if_pos rfl, env.no_device_map]

/-- A device is no directory. -/
theorem svr4Mknod_device (env : Unmapped) (device : Device) (filename : List Char)
    (dev : BitVec 16) :
    svr4Mknod env.toSurroundings filename device.stat.mode dev =
      .mknod filename device.stat.mode
        (mkdev (svr4OMajor dev) (svr4OMinor dev)) := by
  have hkind : device.stat.mode &&& 0o170000#16 ≠ 0o040000#16 := by
    rcases device.kind with hkind | hkind <;> rw [hkind] <;> decide
  rw [svr4Mknod, if_neg hkind, abiMap_device env _ rfl]

theorem signExtend_eq_iff :
    ∀ ma : BitVec 8, ma.signExtend 32 = ma.setWidth 32 ↔ ma.toNat < 128 := by
  decide

theorem oldMinor_eq_iff :
    ∀ mi : BitVec 8, (mi &&& 8#8).setWidth 32 = mi.setWidth 32 ↔
      mi = 0#8 ∨ mi = 8#8 := by
  decide

theorem newMinor_eq_iff :
    ∀ mi : BitVec 8, (mi &&& 18#8).setWidth 32 = mi.setWidth 32 ↔
      mi = 0#8 ∨ mi = 2#8 ∨ mi = 16#8 ∨ mi = 18#8 := by
  decide

/-- The number asked for is that of the device where the sign does no harm and the
minor number is the right one. -/
theorem mkdev_eq_iff (ma mi other : BitVec 8) :
    mkdev (ma.signExtend 32) (other.setWidth 32) = deviceNumber ma mi ↔
      ma.toNat < 128 ∧ other = mi := by
  constructor
  · intro heq
    have hbits : ∀ index, (mkdev (ma.signExtend 32) (other.setWidth 32)).getLsbD
        index = (deviceNumber ma mi).getLsbD index := fun index => by rw [heq]
    constructor
    · have hsign := hbits 31
      simp [mkdev, deviceNumber, BitVec.getElem_signExtend] at hsign
      rw [BitVec.msb_eq_false_iff_two_mul_lt] at hsign
      omega
    · apply BitVec.eq_of_getLsbD_eq
      intro index hindex
      have hbit := hbits index
      simp [mkdev, deviceNumber, BitVec.getLsbD_setWidth, hindex] at hbit
      grind
  · rintro ⟨hlow, rfl⟩
    rw [(signExtend_eq_iff ma).2 hlow, deviceNumber]

/-- What `svr4_stat` reports in `st_rdev`. -/
theorem reportSvr4Stat_rdev (env : Unmapped) (device : Device) :
    ∃ buf, reportSvr4Stat env.toSurroundings device.stat = .ok buf ∧
      buf.stRdev = device.ma ++ device.mi := by
  rw [reportSvr4Stat]
  rw [if_neg (not_lt.2 device.size_le)]
  refine ⟨_, rfl, ?_⟩
  dsimp only
  rw [abiMap_device env _ rfl, device.rdev_eq, linuxToSvr4ODevT_deviceNumber]

/-- What `svr4_xstat` reports in `st_rdev`, and in `st_mode`. -/
theorem reportSvr4Xstat_rdev (env : Unmapped) (device : Device) :
    ∃ buf, reportSvr4Xstat env.toSurroundings device.stat = .ok buf ∧
      buf.stRdev = linuxToSvr4DevT (deviceNumber device.ma device.mi) ∧
      buf.stMode = device.stat.mode.setWidth 32 := by
  rw [reportSvr4Xstat]
  rw [if_neg (not_lt.2 device.size_le)]
  refine ⟨_, rfl, ?_, rfl⟩
  dsimp only
  rw [abiMap_device env _ rfl, device.rdev_eq]

/-- The old layout brings back the lower half of the major numbers, with the minor
numbers of one bit. -/
theorem statComesBack_iff (env : Unmapped) (device : Device)
    (filename : List Char) :
    StatComesBack env.toSurroundings device filename ↔
      device.ma.toNat < 128 ∧ (device.mi = 0#8 ∨ device.mi = 8#8) := by
  obtain ⟨buf, hreport, hrdev⟩ := reportSvr4Stat_rdev env device
  rw [StatComesBack]
  simp only [hreport, Except.ok.injEq, exists_eq_left', hrdev, svr4Mknod_device,
    svr4OMajor_append, svr4OMinor_append, signExtend_eq_iff, oldMinor_eq_iff]
  constructor
  · exact fun hback => ⟨hback.1, hback.2.1⟩
  · intro hnumbers
    have hminor : device.mi &&& 8#8 = device.mi := by
      rcases hnumbers.2 with hmi | hmi <;> rw [hmi] <;> decide
    refine ⟨hnumbers.1, hnumbers.2, ?_⟩
    rw [device.rdev_eq, hminor, (mkdev_eq_iff _ _ _).2 ⟨hnumbers.1, rfl⟩]

/-- What version 2 of `svr4_xmknod` asks for, given what `svr4_xstat` has
reported. -/
theorem svr4Xmknod_device (env : Unmapped) (device : Device)
    (filename : List Char) :
    svr4Xmknod env.toSurroundings 2 filename (device.stat.mode.setWidth 32)
        (linuxToSvr4DevT (deviceNumber device.ma device.mi)) =
      .ok (.mknod filename device.stat.mode
        (mkdev (device.ma.signExtend 32) ((0#8).setWidth 32))) := by
  have hbyte : ∀ byte : BitVec 8, ¬ byte.setWidth 32 > 0xff#32 := by
    intro byte
    have hlt := byte.isLt
    simp only [gt_iff_lt, BitVec.lt_def, BitVec.toNat_setWidth, BitVec.toNat_ofNat]
    omega
  have hnone : ∀ mi : BitVec 8, mi &&& 18#8 &&& 8#8 = 0#8 := by decide
  have hmode : (device.stat.mode.setWidth 32).setWidth 16 = device.stat.mode :=
    BitVec.setWidth_setWidth_of_le _ (by decide)
  rw [svr4Xmknod, if_neg (by decide), if_pos rfl]
  dsimp only [svr4DoXmknod]
  rw [svr4Minor_linuxToSvr4DevT, svr4Major_linuxToSvr4DevT,
    if_neg (not_or.2 ⟨hbyte _, hbyte _⟩), svr4OMkdev_bytes, hmode,
    svr4Mknod_device, svr4OMajor_append, svr4OMinor_append, hnone]

/-- The new layout brings back the minor numbers of two bits, but only the first
device of a major number comes through `svr4_xmknod`. -/
theorem xstatComesBack_iff (env : Unmapped) (device : Device)
    (filename : List Char) :
    XstatComesBack env.toSurroundings device filename ↔
      device.ma.toNat < 128 ∧ device.mi = 0#8 := by
  obtain ⟨buf, hreport, hrdev, hmode⟩ := reportSvr4Xstat_rdev env device
  rw [XstatComesBack]
  simp only [hreport, Except.ok.injEq, exists_eq_left', hrdev, hmode,
    svr4Xmknod_device, svr4Major_linuxToSvr4DevT, svr4Minor_linuxToSvr4DevT,
    newMinor_eq_iff, true_and, Request.mknod.injEq, device.rdev_eq, mkdev_eq_iff]
  constructor
  · exact fun hback => ⟨hback.2.1, hback.2.2.symm⟩
  · exact fun hnumbers => ⟨.inl hnumbers.2, hnumbers.1, hnumbers.2.symm⟩

end Back

/-- Both layouts bring a device back, and make the kernel be asked for it, exactly
where it is the first one of a major number of the lower half. -/
theorem devices_comeBack_iff (env : Unmapped) (device : Device)
    (filename : List Char) :
    StatComesBack env.toSurroundings device filename ∧
        XstatComesBack env.toSurroundings device filename ↔
      device.ma.toNat < 128 ∧ device.mi = 0#8 := by
  rw [statComesBack_iff, xstatComesBack_iff]
  constructor
  · exact And.right
  · exact fun hnumbers => ⟨⟨hnumbers.1, .inl hnumbers.2⟩, hnumbers⟩

/-- Nothing is mapped. -/
def plainEnv : Unmapped where
  maps := ⟨none, none⟩
  y2kBug := false
  shortIno := id
  no_device_map := rfl

/-- `/dev/console`. -/
def consoleDevice : Device where
  ma := 5#8
  mi := 1#8
  stat := {
    ino := 7, dev := 5, mode := 0o020600, nlink := 1, uid := 0, gid := 5
    rdev := deviceNumber 5#8 1#8
    size := 0, atime := 0, mtime := 0, ctime := 0 }
  rdev_eq := rfl
  size_le := by decide
  kind := .inl rfl

/-- The console does not come back. -/
theorem console_is_lost :
    ¬ (StatComesBack plainEnv.toSurroundings consoleDevice "/x".toList ∧
      XstatComesBack plainEnv.toSurroundings consoleDevice "/x".toList) := by
  rw [statComesBack_iff]
  rintro ⟨hstat, _⟩
  exact absurd hstat.2 (by decide)

end IbcsUs.Devices
