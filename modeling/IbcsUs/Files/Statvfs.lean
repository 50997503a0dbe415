import IbcsUs.Files.FileTable
import IbcsUs.Files.Mounts

/-!
# File-system information by name and by descriptor

`statfs` and `statvfs` come in pairs, one for a name and one for a descriptor.
All of them look for the mount of the file with `inode_to_path`, which fills in
a `struct path` on the stack of the caller, and look for it once more with
`vfs_statfs`.  A `struct path` that nothing has filled in is `none`; a function
is `none` where it follows a pointer from such a path, or from words that the
search has not set.
-/

namespace IbcsUs.Statvfs

open IbcsUs.Files

/-! ## The kernel -/

/-- An error of the kernel. -/
structure Errno where
  value : ℤ
  bounds : -4095 ≤ value ∧ value < 0

/-- `struct statfs`, as far as it is used. -/
structure Statfs where
  fType : BitVec 32
  fBsize : BitVec 32
  fBlocks : BitVec 32
  fBfree : BitVec 32
  fBavail : BitVec 32
  fFiles : BitVec 32
  fFfree : BitVec 32
  fNamelen : BitVec 32
  deriving DecidableEq

/-- The answers of the kernel.  The mount point that `statfs` is asked about
goes with the mount, since the first line of a device is taken. -/
structure Kernel where
  /-- `vfs_stat` and `vfs_fstat`. -/
  stat : List Char → Except Errno Kstat
  fstat : BitVec 32 → Except Errno Kstat
  /-- `/proc/mounts`, and how reads split it. -/
  mounts : Except Errno (List Char)
  split : ℕ → ℕ
  /-- The error of `statfs`, and what it stores otherwise. -/
  statfs : List Char → Option Errno
  statfsData : Mount → Statfs

/-- What the search through the mounts asks. -/
def Kernel.world (kernel : Kernel) : MountWorld where
  vfsStat name := (kernel.stat name).toOption
  statfs name :=
    match kernel.statfs name with
    | none => 0
    | some errno => errno.value
  split := kernel.split

/-! ## `struct path` -/

/-- `struct kstatfs`. -/
structure Kstatfs where
  fType : BitVec 32
  fBsize : BitVec 32
  fBlocks : BitVec 64
  fBfree : BitVec 64
  fBavail : BitVec 64
  fFiles : BitVec 64
  fFfree : BitVec 64
  fNamelen : BitVec 32
  deriving DecidableEq

def statfsToKstatfs (statfs : Statfs) : Kstatfs where
  fType := statfs.fType
  fBsize := statfs.fBsize
  fBlocks := statfs.fBlocks.setWidth 64
  fBfree := statfs.fBfree.setWidth 64
  fBavail := statfs.fBavail.setWidth 64
  fFiles := statfs.fFiles.setWidth 64
  fFfree := statfs.fFfree.setWidth 64
  fNamelen := statfs.fNamelen

/-- `struct path`: the mount with its superblock, and `_s_kstatfs_real` in it.
-/
structure Path where
  mount : Mount
  kstatfs : Kstatfs
  deriving DecidableEq

/-- The device of the root inode, which is also `s_dev`. -/
def Path.rootDev (path : Path) : BitVec 32 := path.mount.root.dev

/-- `path_construct`. -/
def pathConstruct : Path where
  mount := ⟨⟨0, 0, 0, 0⟩, [], ⟨false, false⟩⟩
  kstatfs := ⟨0, 0, 0, 0, 0, 0, 0, 0⟩

/-- `inode_to_path`, with what the stack holds. -/
def inodeToPath (kernel : Kernel) (iDev : BitVec 32) (garbage : Kstat) :
    Option (Path × ℤ) :=
  match kernel.mounts with
  | .error errno => some (pathConstruct, errno.value)
  | .ok content =>
      match Files.inodeToPath kernel.world iDev content garbage with
      | some (.failed errno) => some (pathConstruct, errno)
      | some (.mounted mount retval) =>
          let kstatfs :=
            if retval < 0 then pathConstruct.kstatfs
            else statfsToKstatfs (kernel.statfsData mount)
          some (⟨mount, kstatfs⟩, retval)
      | _ => none

/-- The path of a file that has been stat'ed, and the return value. -/
def filePath (kernel : Kernel) (file : Except Errno Kstat) (garbage : Kstat) :
    Option (Option Path × ℤ) :=
  match file with
  | .error errno => some (none, errno.value)
  | .ok kstat => do
      let (path, retval) ← inodeToPath kernel kstat.dev garbage
      return (some path, retval)

/-- `user_path`. -/
def userPath (kernel : Kernel) (filename : List Char) :
    Kstat → Option (Option Path × ℤ) :=
  filePath kernel (kernel.stat filename)

def linux26UserFpath (kernel : Kernel) (fd : BitVec 32) :
    Kstat → Option (Option Path × ℤ) :=
  filePath kernel (kernel.fstat fd)

/-- `vfs_statfs` of a root directory. -/
def vfsStatfs (kernel : Kernel) (rootDev : BitVec 32) (garbage : Kstat) :
    Option (Except ℤ Kstatfs) := do
  let (path, retval) ← inodeToPath kernel rootDev garbage
  return if retval < 0 then .error retval else .ok path.kstatfs

/-- `inode_get_i_sb`, which goes to the path only. -/
def inodeGetISb (path : Option Path) : Option Path := path

/-- `kstat_to_inode`. -/
def kstatToInode (kstat : Kstat) : FileInode :=
  ⟨kstat.ino.toNat, kstat.dev.toNat, kstat.rdev.toNat, kstat.mode.toNat⟩

/-- `fget` in a file table, with what new memory holds. -/
def fget (kernel : Kernel) (files : FileState) (memory : ℕ → ℕ) (fd : BitVec 32) :
    Option ℕ :=
  (Files.fget files fd.toNat memory
    ((kernel.fstat fd).toOption.map kstatToInode)).2

/-- What the stack holds at the calls of `inode_to_path` in one function. -/
structure Stack where
  first : Kstat
  second : Kstat
  third : Kstat

/-! ## `svr4_statfs` -/

structure Svr4Statfs where
  fType : BitVec 16
  fBsize : BitVec 32
  fFrsize : BitVec 32
  fBlocks : BitVec 32
  fBfree : BitVec 32
  fFiles : BitVec 32
  fFfree : BitVec 32
  fFname : List Char
  fFpack : List Char
  deriving DecidableEq

/-- `sizeof(struct svr4_statfs)`. -/
def svr4StatfsSize : ℕ := 40

def copyKstatfs (st : Kstatfs) : Svr4Statfs where
  fType := st.fType.setWidth 16
  fBsize := st.fBsize
  fFrsize := 0
  fBlocks := st.fBlocks.setWidth 32
  fBfree := st.fBfree.setWidth 32
  fFiles := st.fFiles.setWidth 32
  fFfree := st.fFfree.setWidth 32
  fFname := List.replicate 6 Strings.nul
  fFpack := List.replicate 6 Strings.nul

/-- What is said of a file system that is not mounted, with the type that the
stack holds. -/
def unmounted (fType : BitVec 16) : Svr4Statfs where
  fType := fType
  fBsize := 1024
  fFrsize := 0
  fBlocks := 8 * 1024 * 1024
  fBfree := 500 * 1024
  fFiles := 60000
  fFfree := 50000
  fFname := List.replicate 6 Strings.nul
  fFpack := List.replicate 6 Strings.nul

/-- The return value, and a structure with the number of its bytes that are
stored. -/
abbrev Svr4Result := Option (ℤ × Option (Svr4Statfs × ℕ))

def svr4Statfs (kernel : Kernel) (path : List Char) (len fstype : BitVec 32)
    (fType : BitVec 16) (stack : Stack) : Svr4Result :=
  if len.toInt > svr4StatfsSize then some (-22, none)
  else if fstype = 0 then do
    let (pathstruct, error) ← userPath kernel path stack.first
    if error = 0 then
      let pathstruct ← pathstruct
      match ← vfsStatfs kernel pathstruct.rootDev stack.second with
      | .error error => return (error, none)
      | .ok tmp => return (0, some (copyKstatfs tmp, svr4StatfsSize))
    else return (error, none)
  else some (0, some (unmounted fType, len.toNat))

def svr4Fstatfs (kernel : Kernel) (files : FileState) (memory : ℕ → ℕ)
    (fd len fstype : BitVec 32) (fType : BitVec 16) (stack : Stack) :
    Svr4Result :=
  if len.toInt > svr4StatfsSize then some (-22, none)
  else if fstype = 0 then do
    let _file ← fget kernel files memory fd
    -- `linux26_path`, a local that nothing fills in
    let superBlock ← inodeGetISb none
    match ← vfsStatfs kernel superBlock.rootDev stack.first with
    | .error error => return (error, none)
    | .ok tmp => return (0, some (copyKstatfs tmp, svr4StatfsSize))
  else some (0, some (unmounted fType, len.toNat))

/-! ## `svr4_statvfs` -/

structure Svr4Statvfs where
  fBsize : BitVec 32
  fFrsize : BitVec 32
  fBlocks : BitVec 32
  fBfree : BitVec 32
  fBavail : BitVec 32
  fFiles : BitVec 32
  fFree : BitVec 32
  fSid : BitVec 32
  fBasetype : List Char
  fFlag : BitVec 32
  fNamemax : BitVec 32
  deriving DecidableEq

/-- `f_flag`: read-only, and no set-uid programs. -/
def MountFlags.word (superBlock mnt : MountFlags) : BitVec 32 :=
  (if superBlock.rdonly then 1 else 0) ||| (if mnt.nosuid then 2 else 0)

def svr4Report (mnt : Path) (s : Kstatfs) : Svr4Statvfs where
  fBsize := s.fBsize
  fFrsize := s.fBsize
  fBlocks := s.fBlocks.setWidth 32
  fBfree := s.fBfree.setWidth 32
  fBavail := s.fBavail.setWidth 32
  fFiles := s.fFiles.setWidth 32
  fFree := s.fFfree.setWidth 32
  fSid := mnt.rootDev
  fBasetype := mnt.mount.typeName
  fFlag := MountFlags.word mnt.mount.flags mnt.mount.flags
  fNamemax := s.fNamelen

/-- `report_statvfs` of `per-svr4`. -/
def svr4ReportStatvfs (kernel : Kernel) (mnt : Path) (garbage : Kstat) :
    Option (ℤ × Option Svr4Statvfs) := do
  match ← vfsStatfs kernel mnt.rootDev garbage with
  | .error error => return (error, none)
  | .ok s => return (0, some (svr4Report mnt s))

def svr4Statvfs (kernel : Kernel) (filename : List Char) (stack : Stack) :
    Option (ℤ × Option Svr4Statvfs) := do
  let (path, error) ← userPath kernel filename stack.first
  if error = 0 then
    let path ← path
    svr4ReportStatvfs kernel path stack.second
  else return (error, none)

def svr4Fstatvfs (kernel : Kernel) (files : FileState) (memory : ℕ → ℕ)
    (fd : BitVec 32) (stack : Stack) : Option (ℤ × Option Svr4Statvfs) := do
  let _fp ← fget kernel files memory fd
  -- the return value is not looked at
  let (path, _) ← linux26UserFpath kernel fd stack.first
  let path ← path
  svr4ReportStatvfs kernel path stack.second

/-! ## `sco_statvfs` -/

structure ScoStatvfs where
  fBsize : BitVec 32
  fFrsize : BitVec 32
  fBlocks : BitVec 32
  fBfree : BitVec 32
  fBavail : BitVec 32
  fFiles : BitVec 32
  fFree : BitVec 32
  fFavail : BitVec 32
  fSid : BitVec 32
  fBasetype : List Char
  fFlag : BitVec 32
  fNamemax : BitVec 32
  deriving DecidableEq

def scoReport (mnt sb : Path) (s : Kstatfs) : ScoStatvfs where
  fBsize := s.fBsize
  fFrsize := s.fBsize
  fBlocks := s.fBlocks.setWidth 32
  fBfree := s.fBfree.setWidth 32
  fBavail := s.fBavail.setWidth 32
  fFiles := s.fFiles.setWidth 32
  fFree := s.fFfree.setWidth 32
  fFavail := s.fFfree.setWidth 32
  fSid := sb.rootDev
  fBasetype :=
    if sb.mount.typeName.take 4 = "ext2".toList then "HTFS".toList
    else sb.mount.typeName
  fFlag := MountFlags.word sb.mount.flags mnt.mount.flags
  fNamemax := s.fNamelen

/-- `report_statvfs` of `per-sco`. -/
def scoReportStatvfs (kernel : Kernel) (mnt : Path) (garbage : Kstat) :
    Option (ℤ × Option ScoStatvfs) := do
  match ← vfsStatfs kernel mnt.rootDev garbage with
  | .error error => return (error, none)
  | .ok s =>
      -- `path`, a local that nothing fills in
      let sb ← inodeGetISb none
      return (0, some (scoReport mnt sb s))

def scoStatvfs (kernel : Kernel) (filename : List Char) (stack : Stack) :
    Option (ℤ × Option ScoStatvfs) := do
  let (path, error) ← userPath kernel filename stack.first
  if error = 0 then
    let path ← path
    scoReportStatvfs kernel path stack.second
  else return (error, none)

def scoFstatvfs (kernel : Kernel) (fd : BitVec 32) (stack : Stack) :
    Option (ℤ × Option ScoStatvfs) := do
  let (path, error) ← linux26UserFpath kernel fd stack.first
  if error < 0 then
    let path ← path
    scoReportStatvfs kernel path stack.second
  else return (error, none)

/-! ## `uw7_statvfs64` -/

structure Uw7Statvfs64 where
  fBsize : BitVec 32
  fFrsize : BitVec 32
  fBlocks : BitVec 64
  fBfree : BitVec 64
  fBavail : BitVec 64
  fFiles : BitVec 64
  fFfree : BitVec 64
  fFavail : BitVec 64
  fFsid : BitVec 32
  fBasetype : List Char
  fNamemax : BitVec 32
  deriving DecidableEq

def cpUw7Statvfs64 (sbp : Path) (src : Kstatfs) : Uw7Statvfs64 where
  fBsize := src.fBsize
  fFrsize := src.fBsize
  fBlocks := src.fBlocks
  fBfree := src.fBfree
  fBavail := src.fBavail
  fFiles := src.fFiles
  fFfree := src.fFfree
  fFavail := src.fFfree
  fFsid := sbp.rootDev
  fBasetype := sbp.mount.typeName
  fNamemax := src.fNamelen

def uw7Statvfs64 (kernel : Kernel) (filename : List Char) (stack : Stack) :
    Option (ℤ × Option Uw7Statvfs64) := do
  let (path, error) ← userPath kernel filename stack.first
  if error = 0 then
    let sbp ← inodeGetISb path
    match ← vfsStatfs kernel sbp.rootDev stack.second with
    | .error error => return (error, none)
    | .ok tmp => return (0, some (cpUw7Statvfs64 sbp tmp))
  else return (error, none)

def uw7Fstatvfs64 (kernel : Kernel) (files : FileState) (memory : ℕ → ℕ)
    (fd : BitVec 32) (stack : Stack) : Option (ℤ × Option Uw7Statvfs64) := do
  let _fp ← fget kernel files memory fd
  let (path, error) ← linux26UserFpath kernel fd stack.first
  if error = 0 then
    let sbp ← inodeGetISb path
    match ← vfsStatfs kernel sbp.rootDev stack.second with
    | .error error => return (error, none)
    | .ok _ =>
        -- and once more
        match ← vfsStatfs kernel sbp.rootDev stack.third with
        | .error error => return (error, none)
        | .ok tmp => return (0, some (cpUw7Statvfs64 sbp tmp))
  else return (error, none)

end IbcsUs.Statvfs
