import IbcsUs.Core.WordMemory

/-!
# `sendmsg` and `recvmsg` of Solaris

The header of a message is copied from the memory of the program field by field;
the address, the table of pieces and the control data each go to an array on the
stack, or to allocated memory.  What is put in an array is recorded with its
end.  A null pointer that is followed is `none`.
-/

namespace IbcsUs.Messages

open IbcsUs.WordMemory

abbrev Word := BitVec 32
abbrev Byte := BitVec 8

/-! ## Memory -/

/-- The addresses of a piece of memory. -/
def addresses (address : Word) (count : ℕ) : List Word :=
  (List.range count).map fun index => address + BitVec.ofNat 32 index

/-- `copy_from_user`. -/
def readBytes (memory : Memory) (address : Word) (count : ℕ) : List Byte :=
  (addresses address count).map memory

/-- Bytes are put at addresses, one after the other. -/
def storeAt (memory : Memory) : List (Word × Byte) → Memory
  | [] => memory
  | (address, byte) :: rest =>
      storeAt (Function.update memory address byte) rest

/-- `copy_to_user`. -/
def storeBytes (memory : Memory) (address : Word) (bytes : List Byte) : Memory :=
  storeAt memory ((addresses address bytes.length).zip bytes)

/-- `struct iovec32` and `struct iovec`. -/
structure Iovec where
  base : Word
  len : Word
  deriving DecidableEq

def readIovec (memory : Memory) (address : Word) : Iovec where
  base := readWord memory address
  len := readWord memory (address + 4)

/-- The addresses of the pieces of a message. -/
def places (iovecs : List Iovec) : List Word :=
  iovecs.flatMap fun iov => addresses iov.base iov.len.toNat

/-- `struct sol_nmsghdr`. -/
structure SolNmsghdr where
  msgName : Word
  msgNamelen : Word
  msgIov : Word
  msgIovlen : Word
  msgControl : Word
  msgControllen : Word
  msgFlags : Word
  deriving DecidableEq

def readHeader (memory : Memory) (userMsg : Word) : SolNmsghdr where
  msgName := readWord memory userMsg
  msgNamelen := readWord memory (userMsg + 4)
  msgIov := readWord memory (userMsg + 8)
  msgIovlen := readWord memory (userMsg + 12)
  msgControl := readWord memory (userMsg + 16)
  msgControllen := readWord memory (userMsg + 20)
  msgFlags := readWord memory (userMsg + 24)

/-! ## The arrays -/

inductive Buffer where
  | address
  | iov
  | ctl
  | heap (size : ℕ)
  deriving DecidableEq

/-- `MAX_SOCK_ADDR`, `UIO_FASTIOV` of `struct iovec`, and
`sizeof(struct cmsghdr) + 20`. -/
def Buffer.size : Buffer → ℕ
  | .address => 128
  | .iov => 8 * 8
  | .ctl => 32
  | .heap size => size

/-- Something is put in an array, up to an offset. -/
structure Store where
  buffer : Buffer
  upTo : ℕ
  deriving DecidableEq

def Store.Within (store : Store) : Prop := store.upTo ≤ store.buffer.size

inductive Pointer where
  | user (address : Word)
  | buffer (buffer : Buffer)
  deriving DecidableEq

/-- `struct msghdr`. -/
structure Msghdr where
  msgName : Pointer
  msgNamelen : Word
  msgIov : Word
  msgIovlen : Word
  msgControl : Word
  msgControllen : Word
  msgFlags : Word

/-! ## Flags -/

/-- The pairs of flags that differ, Solaris before Linux: EOR, CTRUNC, TRUNC,
WAITALL and DONTWAIT. -/
def msgFlagPairs : List (Word × Word) :=
  [(0x8, 0x80), (0x10, 0x8), (0x20, 0x20), (0x40, 0x100), (0x80, 0x40)]

/-- `MSG_OOB`, `MSG_PEEK` and `MSG_DONTROUTE`. -/
def sameMsgFlags : Word := 0x7

def solarisToLinuxMsgflags (flags : Word) : Word :=
  msgFlagPairs.foldl
    (fun fl pair => if flags &&& pair.1 ≠ 0 then fl ||| pair.2 else fl)
    (flags &&& sameMsgFlags)

def linuxToSolarisMsgflags (flags : Word) : Word :=
  msgFlagPairs.foldl
    (fun fl pair => if flags &&& pair.2 ≠ 0 then fl ||| pair.1 else fl)
    (flags &&& sameMsgFlags)

/-- `MSG_DONTWAIT` and `O_NONBLOCK`. -/
def msgDontwait : Word := 0x40
def oNonblock : Word := 0x800

/-! ## The header -/

def uioMaxiov : ℕ := 1024
def uioFastiov : ℕ := 8

/-- `iov_from_user32_to_kern`, with the length so far. -/
def iovFromUser32ToKern (memory : Memory) : ℕ → Word → Word → Word × List Iovec
  | 0, _, totLen => (totLen, [])
  | niov + 1, uiov, totLen =>
      let iov := readIovec memory uiov
      let rest := iovFromUser32ToKern memory niov (uiov + 8) (totLen + iov.len)
      (rest.1, iov :: rest.2)

/-- `msghdr_from_user32_to_kern`, into a header of zeros. -/
def msghdrFromUser32ToKern (memory : Memory) (userMsg : Word) : Msghdr :=
  let umsg := readHeader memory userMsg
  { msgName := .user umsg.msgName
    msgNamelen := umsg.msgNamelen
    msgIov := umsg.msgIov
    msgIovlen := 0
    msgControl := umsg.msgControl
    msgControllen := umsg.msgControllen
    msgFlags := solarisToLinuxMsgflags umsg.msgFlags }

/-- What `verify_iovec32` leaves behind. -/
structure Verified where
  msgName : Pointer
  iovecs : List Iovec
  totLen : Word
  stores : List Store

/-- `verify_iovec32`; the address is copied for `VERIFY_READ`. -/
def verifyIovec32 (memory : Memory) (kernMsg : Msghdr) (verifyRead : Bool) :
    Verified :=
  let kernIov :=
    if kernMsg.msgIovlen.toNat > uioFastiov then
      Buffer.heap (kernMsg.msgIovlen.toNat * 8)
    else .iov
  let copied := iovFromUser32ToKern memory kernMsg.msgIovlen.toInt.toNat
    kernMsg.msgIov 0
  { msgName :=
      if kernMsg.msgNamelen ≠ 0 then .buffer .address else .user 0
    iovecs := copied.2
    totLen := copied.1
    stores :=
      (if kernMsg.msgNamelen ≠ 0 ∧ verifyRead then
        [⟨.address, kernMsg.msgNamelen.toNat⟩] else []) ++
      [⟨kernIov, 8 * copied.2.length⟩] }

/-! ## The socket -/

/-- The inode of a `struct file`, as far as it leads to a socket: the descriptor
of the file of `_i_socket`, and the one of the file of `i_dentry`. -/
structure SocketInode where
  iSocket : Option Word
  iDentry : Option Word
  deriving DecidableEq

/-- The inode that `fget` makes, and nothing changes. -/
def fgetInode : SocketInode := ⟨none, none⟩

/-- `sockfd_lookup`: the descriptor of the file of the socket. -/
def sockfdLookup (inode : SocketInode) : Option Word :=
  match inode.iSocket with
  | some file => some file
  | none => inode.iDentry

/-! ## `solaris_sendmsg` -/

/-- A message that the kernel gets. -/
structure Handed where
  fd : Word
  name : List Byte
  data : List Byte
  control : List Byte
  flags : Word
  deriving DecidableEq

/-- What a call has done: what is put in the arrays, the messages that the
kernel gets, and the value returned. -/
structure Sent where
  stores : List Store
  handed : List Handed
  value : Option ℤ

/-- The control data is copied behind its first word. -/
def controlStores (controllen : Word) : List Store :=
  let ctlBuf : Buffer :=
    if 32 < controllen.toNat ∧ controllen.toNat ≤ 256 then
      .heap controllen.toNat
    else .ctl
  if controllen ≠ 0 then
    [⟨ctlBuf, 4⟩, ⟨ctlBuf, 4 + (controllen - 4).toNat⟩]
  else []

/-- `solaris_sendmsg`, with the inode of the descriptor and the answers of the
kernel to `F_GETFD` and `sendmsg`. -/
def solarisSendmsg (memory : Memory) (userMsg userFlags : Word)
    (inode : SocketInode) (fFlags : Word) (answer : ℤ) : Sent :=
  let kernMsg := msghdrFromUser32ToKern memory userMsg
  if kernMsg.msgIovlen.toNat > uioMaxiov then ⟨[], [], some (-22)⟩
  else
    let verified := verifyIovec32 memory kernMsg true
    if verified.totLen.toInt < 0 then
      ⟨verified.stores, [], some verified.totLen.toInt⟩
    else
      let stores := verified.stores ++ controlStores kernMsg.msgControllen
      match sockfdLookup inode with
      | none => ⟨stores, [], none⟩
      | some fd =>
          let flags := solarisToLinuxMsgflags userFlags
          let handed : Handed :=
            { fd := fd
              name := readBytes memory (readHeader memory userMsg).msgName
                kernMsg.msgNamelen.toNat
              data := (places verified.iovecs).map memory
              control := readBytes memory kernMsg.msgControl
                kernMsg.msgControllen.toNat
              flags :=
                if fFlags &&& oNonblock ≠ 0 then flags ||| msgDontwait
                else flags }
          ⟨stores, [handed], some answer⟩

/-! ## `solaris_recvmsg` -/

/-- A message that has arrived. -/
structure Arrival where
  data : List Byte
  /-- The address of the sender, which fits in a `struct sockaddr_storage`. -/
  name : List Byte
  nameFits : name.length ≤ 128
  control : List Byte
  flags : Word

/-- What a call has done: what is put in the arrays, the bytes that the kernel
puts in the memory of the program, the value returned, and the memory. -/
structure Received where
  stores : List Store
  delivered : List (Word × Byte)
  value : Option ℤ
  memory : Memory

/-- The address is given to the program: as long as it says, or as the kernel
says if that is less. -/
def giveAddress (memory : Memory) (userMsg uaddr namelen : Word)
    (addr : List Byte) : Word × Memory :=
  let len := readWord memory (userMsg + 4)
  if len.toNat > namelen.toNat then
    (namelen, storeBytes (writeWord memory (userMsg + 4) namelen) uaddr
      (addr.take namelen.toNat))
  else (len, storeBytes memory uaddr (addr.take len.toNat))

/-- The kernel's `recvmsg` fills in the pieces, the address and the control
data, and `solaris_recvmsg` gives the address and the flags to the program. -/
def receive (memory : Memory) (userMsg uaddr : Word) (kernMsg : Msghdr)
    (verified : Verified) (arrival : Arrival) (garbage : List Byte) : Received :=
  let delivered := (places verified.iovecs).zip arrival.data
  let named := verified.msgName = .buffer .address
  let copied := min arrival.name.length kernMsg.msgNamelen.toNat
  let namelen :=
    if named then BitVec.ofNat 32 arrival.name.length else kernMsg.msgNamelen
  let filled := storeBytes (storeAt memory delivered) kernMsg.msgControl
    (arrival.control.take kernMsg.msgControllen.toNat)
  let addr := if named then arrival.name.take copied ++ garbage else garbage
  let given :=
    if uaddr ≠ 0 then giveAddress filled userMsg uaddr namelen addr
    else (BitVec.ofNat 32 delivered.length, filled)
  -- `msg_control` is where it was
  let flagged := writeWord given.2 (userMsg + 24)
    (linuxToSolarisMsgflags arrival.flags)
  { stores := verified.stores ++ if named then [⟨.address, copied⟩] else []
    delivered := delivered
    value := some given.1.toInt
    memory := writeWord flagged (userMsg + 20) 0 }

/-- `solaris_recvmsg`, with the answer of the kernel to `recvmsg`, an error or a
message, and what the stack holds in `addr`; the flags of the caller do not get
to the kernel. -/
def solarisRecvmsg (memory : Memory) (userMsg : Word) (inode : SocketInode)
    (answer : {errno : ℤ // errno < 0} ⊕ Arrival) (garbage : List Byte) :
    Received :=
  let kernMsg := msghdrFromUser32ToKern memory userMsg
  if kernMsg.msgIovlen.toNat > uioMaxiov then ⟨[], [], some (-22), memory⟩
  else
    let uaddr := (readHeader memory userMsg).msgName
    let verified := verifyIovec32 memory kernMsg false
    if verified.totLen.toInt < 0 then
      ⟨verified.stores, [], some verified.totLen.toInt, memory⟩
    else
      match sockfdLookup inode, answer with
      | none, _ => ⟨verified.stores, [], none, memory⟩
      | some _, .inl errno => ⟨verified.stores, [], some errno.1, memory⟩
      | some _, .inr arrival =>
          receive memory userMsg uaddr kernMsg verified arrival garbage

/-! ## What is meant -/

/-- The pieces of the message of the program. -/
def userIovecs (memory : Memory) (header : SolNmsghdr) : List Iovec :=
  (List.range header.msgIovlen.toNat).map fun index =>
    readIovec memory (header.msgIov + BitVec.ofNat 32 (8 * index))

/-- The address and the control data have room, and there are not too many
pieces. -/
structure Fits (header : SolNmsghdr) : Prop where
  iovlen : header.msgIovlen.toNat ≤ uioMaxiov
  namelen : header.msgNamelen.toNat ≤ 128
  controllen : header.msgControllen = 0 ∨
    4 ≤ header.msgControllen.toNat ∧ header.msgControllen.toNat ≤ 256

/-- A message is handed to the kernel as it is, or rejected if it has no room;
nothing is put beyond an array. -/
structure SendRight (memory : Memory) (header : SolNmsghdr) (sent : Sent) : Prop
    where
  within : ∀ store ∈ sent.stores, store.Within
  returns : sent.value ≠ none
  carries : Fits header → sent.handed.map Handed.data =
    [(places (userIovecs memory header)).map memory]
  rejects : ¬ Fits header →
    sent.handed = [] ∧ ∃ error, error < 0 ∧ sent.value = some error

/-- What arrives is put in the pieces of the message of the program and counted,
or the error of the kernel is returned; nothing is put beyond an array. -/
structure RecvRight (memory : Memory) (header : SolNmsghdr)
    (answer : {errno : ℤ // errno < 0} ⊕ Arrival) (received : Received) : Prop
    where
  within : ∀ store ∈ received.stores, store.Within
  returns : received.value ≠ none
  rejects : uioMaxiov < header.msgIovlen.toNat →
    received.delivered = [] ∧ ∃ error, error < 0 ∧ received.value = some error
  fails : header.msgIovlen.toNat ≤ uioMaxiov → ∀ errno, answer = .inl errno →
    received.delivered = [] ∧ received.value = some errno.1
  carries : header.msgIovlen.toNat ≤ uioMaxiov →
    ∀ arrival, answer = .inr arrival →
      received.delivered =
          (places (userIovecs memory header)).zip arrival.data ∧
        received.value = some (received.delivered.length : ℤ)

/-! ## No pieces -/

section Pieces

variable {memory : Memory} {userMsg userFlags fFlags : Word}
  {inode : SocketInode}

theorem length_addresses (address : Word) (count : ℕ) :
    (addresses address count).length = count := by
  simp [addresses]

theorem places_eq_nil_iff (iovecs : List Iovec) :
    places iovecs = [] ↔ ∀ iov ∈ iovecs, iov.len = 0 := by
  rw [places]
  rw [List.flatMap_eq_nil_iff]
  apply forall₂_congr
  intro iov _
  rw [← List.length_eq_zero_iff, length_addresses, ← BitVec.toNat_inj]
  rfl

/-- The number of pieces is not copied with the header. -/
theorem verifyIovec32_eq (memory : Memory) (userMsg : Word) (verifyRead : Bool) :
    verifyIovec32 memory (msghdrFromUser32ToKern memory userMsg) verifyRead =
      { msgName :=
          if (readHeader memory userMsg).msgNamelen ≠ 0 then .buffer .address
          else .user 0
        iovecs := []
        totLen := 0
        stores :=
          (if (readHeader memory userMsg).msgNamelen ≠ 0 ∧ verifyRead then
            [⟨.address, (readHeader memory userMsg).msgNamelen.toNat⟩] else [])
              ++ [⟨.iov, 0⟩] } := rfl

/-- What is put in the arrays when a message is sent. -/
def sendStores (header : SolNmsghdr) : List Store :=
  ((if header.msgNamelen ≠ 0 ∧ true then
    [⟨.address, header.msgNamelen.toNat⟩] else []) ++ [⟨.iov, 0⟩]) ++
    controlStores header.msgControllen

theorem solarisSendmsg_null {answer : ℤ} (hlookup : sockfdLookup inode = none) :
    (solarisSendmsg memory userMsg userFlags inode fFlags answer).value = none := by
  rw [solarisSendmsg]
  dsimp only
  rw [verifyIovec32_eq, hlookup]
  rfl

theorem solarisSendmsg_some {answer : ℤ} {fd : Word}
    (hlookup : sockfdLookup inode = some fd) :
    (solarisSendmsg memory userMsg userFlags inode fFlags answer).stores =
        sendStores (readHeader memory userMsg) ∧
      (solarisSendmsg memory userMsg userFlags inode fFlags
        answer).handed.map Handed.data = [[]] ∧
      (solarisSendmsg memory userMsg userFlags inode fFlags answer).value =
        some answer := by
  rw [solarisSendmsg]
  dsimp only
  rw [verifyIovec32_eq, hlookup]
  exact ⟨rfl, rfl, rfl⟩

theorem controlStores_within (controllen : Word) :
    (∀ store ∈ controlStores controllen, store.Within) ↔
      controllen = 0 ∨ 4 ≤ controllen.toNat ∧ controllen.toNat ≤ 256 := by
  by_cases hzero : controllen = 0
  · simp [controlStores, hzero]
  · have hpositive : controllen.toNat ≠ 0 := by
      intro hnat
      exact hzero (BitVec.eq_of_toNat_eq hnat)
    have hbound := controllen.isLt
    have hfour : (4 : Word).toNat = 4 := rfl
    have hrest := BitVec.toNat_sub controllen 4
    unfold controlStores
    dsimp only
    rw [if_pos hzero]
    simp only [List.forall_mem_cons, List.not_mem_nil, false_implies,
      implies_true, and_true, hzero, false_or, Store.Within]
    by_cases hheap : 32 < controllen.toNat ∧ controllen.toNat ≤ 256
    · rw [if_pos hheap]
      simp only [Buffer.size]
      omega
    · rw [if_neg hheap]
      simp only [Buffer.size]
      omega

theorem sendStores_within (header : SolNmsghdr) :
    (∀ store ∈ sendStores header, store.Within) ↔
      header.msgNamelen.toNat ≤ 128 ∧ (header.msgControllen = 0 ∨
        4 ≤ header.msgControllen.toNat ∧ header.msgControllen.toNat ≤ 256) := by
  rw [sendStores]
  rw [← controlStores_within, List.forall_mem_append, List.forall_mem_append]
  apply and_congr_left
  intro _
  by_cases hzero : header.msgNamelen = 0
  · simp [hzero, Store.Within, Buffer.size]
  · rw [if_pos ⟨hzero, rfl⟩]
    simp [Store.Within, Buffer.size]

theorem userIovecs_nil_iff (header : SolNmsghdr) :
    [([] : List Byte)] = [(places (userIovecs memory header)).map memory] ↔
      ∀ iov ∈ userIovecs memory header, iov.len = 0 := by
  rw [← places_eq_nil_iff, List.cons.injEq, and_iff_left rfl, eq_comm,
    List.map_eq_nil_iff]

/-- When a message is sent as it is. -/
theorem sendRight_iff {answer : ℤ} :
    SendRight memory (readHeader memory userMsg)
        (solarisSendmsg memory userMsg userFlags inode fFlags answer) ↔
      sockfdLookup inode ≠ none ∧ Fits (readHeader memory userMsg) ∧
        ∀ iov ∈ userIovecs memory (readHeader memory userMsg), iov.len = 0 := by
  cases hlookup : sockfdLookup inode with
  | none =>
    constructor
    · intro hright
      exact absurd (solarisSendmsg_null hlookup) hright.returns
    · rintro ⟨hsome, -⟩
      exact absurd rfl hsome
  | some fd =>
    obtain ⟨hstores, hhanded, hvalue⟩ := @solarisSendmsg_some memory userMsg
      userFlags fFlags inode answer fd hlookup
    constructor
    · intro hright
      have hfits : Fits (readHeader memory userMsg) := by
        by_contra hunfit
        have hnothing := (hright.rejects hunfit).1
        rw [hnothing] at hhanded
        cases hhanded
      have hcarries := hright.carries hfits
      rw [hhanded, userIovecs_nil_iff] at hcarries
      exact ⟨Option.some_ne_none fd, hfits, hcarries⟩
    · rintro ⟨-, hfits, hempty⟩
      constructor
      · rw [hstores, sendStores_within]
        exact ⟨hfits.namelen, hfits.controllen⟩
      · rw [hvalue]
        exact Option.some_ne_none answer
      · intro _
        rw [hhanded, userIovecs_nil_iff]
        exact hempty
      · intro hunfit
        exact absurd hfits hunfit

/-! ## Receiving -/

/-- The memory with what the kernel puts in the control data. -/
def controlled (memory : Memory) (header : SolNmsghdr) (arrival : Arrival) :
    Memory :=
  storeBytes memory header.msgControl
    (arrival.control.take header.msgControllen.toNat)

/-- No address is given to the program. -/
def NoAddress (memory : Memory) (userMsg : Word) (header : SolNmsghdr)
    (arrival : Arrival) : Prop :=
  header.msgName = 0 ∨ header.msgNamelen = 0 ∨ arrival.name = [] ∨
    readWord (controlled memory header arrival) (userMsg + 4) = 0

theorem fst_giveAddress (memory : Memory) (userMsg uaddr namelen : Word)
    (addr : List Byte) :
    (giveAddress memory userMsg uaddr namelen addr).1.toNat =
      min (readWord memory (userMsg + 4)).toNat namelen.toNat := by
  unfold giveAddress
  dsimp only
  split
  next hlonger => exact (Nat.min_eq_right hlonger.le).symm
  next hshorter => exact (Nat.min_eq_left (not_lt.mp hshorter)).symm

/-- The address is not copied to the kernel when a message is received. -/
theorem verifyIovec32_write (memory : Memory) (userMsg : Word) :
    verifyIovec32 memory (msghdrFromUser32ToKern memory userMsg) false =
      { msgName :=
          if (readHeader memory userMsg).msgNamelen ≠ 0 then .buffer .address
          else .user 0
        iovecs := []
        totLen := 0
        stores := [⟨.iov, 0⟩] } := by
  have hwrite : ¬ ((readHeader memory userMsg).msgNamelen ≠ 0 ∧
      false = true) := by simp
  rw [verifyIovec32_eq, if_neg hwrite]
  rfl

variable {garbage : List Byte}
  {answer : {errno : ℤ // errno < 0} ⊕ Arrival}

theorem solarisRecvmsg_null (hlookup : sockfdLookup inode = none) :
    (solarisRecvmsg memory userMsg inode answer garbage).value = none := by
  rw [solarisRecvmsg]
  dsimp only
  rw [verifyIovec32_write, hlookup]
  cases answer with
  | inl errno => rfl
  | inr arrival => rfl

theorem solarisRecvmsg_error {errno : {errno : ℤ // errno < 0}} {fd : Word}
    (hlookup : sockfdLookup inode = some fd) :
    solarisRecvmsg memory userMsg inode (.inl errno) garbage =
      ⟨[⟨.iov, 0⟩], [], some errno.1, memory⟩ := by
  rw [solarisRecvmsg]
  dsimp only
  rw [verifyIovec32_write, hlookup]
  rfl

/-- Nothing is delivered of a message that arrives, and the length of the
address is returned, if it is given. -/
theorem receive_nothing {uaddr : Word} {kernMsg : Msghdr} {verified : Verified}
    {arrival : Arrival} (hiovecs : verified.iovecs = []) :
    (receive memory userMsg uaddr kernMsg verified arrival garbage).delivered =
      [] := by
  rw [receive]
  rw [hiovecs]
  rfl

theorem receive_within {uaddr : Word} {kernMsg : Msghdr} {verified : Verified}
    {arrival : Arrival} (hstores : verified.stores = [⟨.iov, 0⟩]) :
    ∀ store ∈ (receive memory userMsg uaddr kernMsg verified arrival
      garbage).stores, store.Within := by
  have hname := arrival.nameFits
  rw [receive]
  dsimp only
  rw [hstores, List.forall_mem_append]
  constructor
  · simp [Store.Within, Buffer.size]
  · split
    · simp only [List.mem_singleton, forall_eq, Store.Within, Buffer.size]
      omega
    · simp

theorem receive_value {uaddr : Word} {kernMsg : Msghdr} {verified : Verified}
    {arrival : Arrival} (hiovecs : verified.iovecs = []) :
    ∃ length : Word,
      (receive memory userMsg uaddr kernMsg verified arrival garbage).value =
          some length.toInt ∧
        length.toNat =
          if uaddr = 0 then 0
          else min (readWord (storeBytes memory kernMsg.msgControl
              (arrival.control.take kernMsg.msgControllen.toNat))
                (userMsg + 4)).toNat
            (if verified.msgName = .buffer .address then arrival.name.length
              else kernMsg.msgNamelen.toNat) := by
  have hname := arrival.nameFits
  rw [receive]
  rw [hiovecs]
  refine ⟨_, rfl, ?_⟩
  by_cases hnull : uaddr = 0
  · rw [if_neg (not_not.mpr hnull), if_pos hnull]
    rfl
  · rw [if_pos hnull, if_neg hnull, fst_giveAddress]
    congr 1
    by_cases hnamed : verified.msgName = .buffer .address
    · rw [if_pos hnamed, if_pos hnamed, BitVec.toNat_ofNat]
      exact Nat.mod_eq_of_lt (by omega)
    · rw [if_neg hnamed, if_neg hnamed]

theorem solarisRecvmsg_arrival {arrival : Arrival} {fd : Word}
    (hlookup : sockfdLookup inode = some fd) :
    solarisRecvmsg memory userMsg inode (.inr arrival) garbage =
      receive memory userMsg (readHeader memory userMsg).msgName
        (msghdrFromUser32ToKern memory userMsg)
        (verifyIovec32 memory (msghdrFromUser32ToKern memory userMsg) false)
        arrival garbage := by
  have hpieces : ¬ (msghdrFromUser32ToKern memory userMsg).msgIovlen.toNat >
      uioMaxiov := show ¬ (0 : Word).toNat > 1024 by decide
  have hlength : ¬ (verifyIovec32 memory (msghdrFromUser32ToKern memory userMsg)
      false).totLen.toInt < 0 := show ¬ (0 : Word).toInt < 0 by decide
  rw [solarisRecvmsg]
  dsimp only
  rw [hlookup, if_neg hpieces, if_neg hlength]

/-- The kernel gives the length of the address, if it is asked for one. -/
theorem namelen_verified (memory : Memory) (userMsg : Word) (length : ℕ) :
    (if (if (readHeader memory userMsg).msgNamelen ≠ 0 then
          Pointer.buffer .address else .user 0) = .buffer .address then length
      else (msghdrFromUser32ToKern memory userMsg).msgNamelen.toNat) =
    if (readHeader memory userMsg).msgNamelen = 0 then 0 else length := by
  by_cases hnamelen : (readHeader memory userMsg).msgNamelen = 0
  · have hunnamed : (if (readHeader memory userMsg).msgNamelen ≠ 0 then
        Pointer.buffer .address else .user 0) ≠ .buffer .address := by
      rw [if_neg (not_not.mpr hnamelen)]
      intro hpointer
      cases hpointer
    rw [if_neg hunnamed, if_pos hnamelen]
    exact congrArg BitVec.toNat hnamelen
  · have hnamed : (if (readHeader memory userMsg).msgNamelen ≠ 0 then
        Pointer.buffer .address else .user 0) = .buffer .address :=
      if_pos hnamelen
    rw [if_pos hnamed, if_neg hnamelen]

/-- The length of an address is returned for the count of the bytes, unless
there is none. -/
theorem value_solarisRecvmsg {arrival : Arrival} {fd : Word}
    (hlookup : sockfdLookup inode = some fd) :
    (∃ value, 0 ≤ value ∧ (solarisRecvmsg memory userMsg inode (.inr arrival)
        garbage).value = some value) ∧
      ((solarisRecvmsg memory userMsg inode (.inr arrival) garbage).value =
          some 0 ↔
        NoAddress memory userMsg (readHeader memory userMsg) arrival) := by
  rw [solarisRecvmsg_arrival hlookup, verifyIovec32_write]
  obtain ⟨length, hvalue, hlength⟩ := @receive_value memory userMsg garbage
    (readHeader memory userMsg).msgName (msghdrFromUser32ToKern memory userMsg)
    { msgName :=
        if (readHeader memory userMsg).msgNamelen ≠ 0 then .buffer .address
        else .user 0
      iovecs := []
      totLen := 0
      stores := [⟨.iov, 0⟩] } arrival rfl
  dsimp only at hlength
  rw [namelen_verified] at hlength
  have hfits := arrival.nameFits
  have hbound : length.toNat ≤ 128 := by
    rw [hlength]
    split
    · omega
    · apply (Nat.min_le_right _ _).trans
      split
      · omega
      · exact hfits
  have hnonneg : length.toInt = length.toNat :=
    BitVec.toInt_eq_toNat_of_lt (by omega)
  have hread : ∀ word : Word, word.toNat = 0 ↔ word = 0 :=
    fun word => @BitVec.toNat_inj 32 word 0
  rw [hvalue, hnonneg, Option.some.injEq, Int.natCast_eq_zero, hlength]
  refine ⟨⟨length.toNat, Int.natCast_nonneg _, hlength ▸ rfl⟩, ?_⟩
  rw [NoAddress, controlled]
  by_cases hnull : (readHeader memory userMsg).msgName = 0
  · rw [if_pos hnull]
    exact iff_of_true rfl (.inl hnull)
  · rw [if_neg hnull, Nat.min_eq_zero_iff, hread]
    by_cases hnamelen : (readHeader memory userMsg).msgNamelen = 0
    · rw [if_pos hnamelen]
      exact iff_of_true (.inr rfl) (.inr (.inl hnamelen))
    · rw [if_neg hnamelen, List.length_eq_zero_iff]
      constructor
      · rintro (hzero | hname)
        · exact .inr (.inr (.inr hzero))
        · exact .inr (.inr (.inl hname))
      · rintro (hzero | hzero | hname | hzero)
        · exact absurd hzero hnull
        · exact absurd hzero hnamelen
        · exact .inr hname
        · exact .inl hzero

theorem delivered_solarisRecvmsg {arrival : Arrival} {fd : Word}
    (hlookup : sockfdLookup inode = some fd) :
    (∀ store ∈ (solarisRecvmsg memory userMsg inode (.inr arrival)
        garbage).stores, store.Within) ∧
      (solarisRecvmsg memory userMsg inode (.inr arrival) garbage).delivered =
        [] := by
  rw [solarisRecvmsg_arrival hlookup, verifyIovec32_write]
  exact ⟨receive_within rfl, receive_nothing rfl⟩

/-- There is nothing to be delivered, and no address to be given. -/
def NothingArrives (memory : Memory) (userMsg : Word) (arrival : Arrival) :
    Prop :=
  ((∀ iov ∈ userIovecs memory (readHeader memory userMsg), iov.len = 0) ∨
      arrival.data = []) ∧
    NoAddress memory userMsg (readHeader memory userMsg) arrival

/-- An error of the kernel is returned. -/
theorem recvRight_error {errno : {errno : ℤ // errno < 0}} {fd : Word}
    (hlookup : sockfdLookup inode = some fd) :
    RecvRight memory (readHeader memory userMsg) (.inl errno)
      (solarisRecvmsg memory userMsg inode (.inl errno) garbage) := by
  rw [solarisRecvmsg_error hlookup]
  constructor
  · simp [Store.Within]
  · exact Option.some_ne_none _
  · intro _
    exact ⟨rfl, errno.1, errno.2, rfl⟩
  · rintro _ _ ⟨⟩
    exact ⟨rfl, rfl⟩
  · rintro _ _ ⟨⟩

/-- When a message that arrives is received as it is. -/
theorem recvRight_arrival_iff {arrival : Arrival} {fd : Word}
    (hlookup : sockfdLookup inode = some fd) :
    RecvRight memory (readHeader memory userMsg) (.inr arrival)
        (solarisRecvmsg memory userMsg inode (.inr arrival) garbage) ↔
      (readHeader memory userMsg).msgIovlen.toNat ≤ uioMaxiov ∧
        NothingArrives memory userMsg arrival := by
  obtain ⟨hwithin, hdelivered⟩ := @delivered_solarisRecvmsg memory userMsg
    inode garbage arrival fd hlookup
  obtain ⟨⟨value, hnonneg, hsome⟩, hvalue⟩ := @value_solarisRecvmsg memory
    userMsg inode garbage arrival fd hlookup
  have hzip : [] = (places (userIovecs memory
        (readHeader memory userMsg))).zip arrival.data ↔
      (∀ iov ∈ userIovecs memory (readHeader memory userMsg),
        iov.len = 0) ∨ arrival.data = [] := by
    rw [eq_comm, List.zip_eq_nil_iff, places_eq_nil_iff]
  constructor
  · intro hright
    have hiovlen : (readHeader memory userMsg).msgIovlen.toNat ≤ uioMaxiov := by
      by_contra hmany
      obtain ⟨-, error, hnegative, herror⟩ :=
        hright.rejects (not_le.mp hmany)
      rw [hsome] at herror
      cases herror
      exact absurd hnegative hnonneg.not_gt
    obtain ⟨hplaces, hcount⟩ := hright.carries hiovlen arrival rfl
    rw [hdelivered] at hplaces hcount
    exact ⟨hiovlen, hzip.mp hplaces, hvalue.mp hcount⟩
  · rintro ⟨hiovlen, hnothing, haddress⟩
    constructor
    · exact hwithin
    · rw [hsome]
      exact Option.some_ne_none value
    · intro hmany
      exact absurd hiovlen (not_le.mpr hmany)
    · rintro _ _ ⟨⟩
    · rintro _ _ ⟨⟩
      rw [hdelivered]
      exact ⟨hzip.mpr hnothing, hvalue.mpr haddress⟩

/-- When what the kernel answers is passed on as it is. -/
theorem recvRight_iff :
    RecvRight memory (readHeader memory userMsg) answer
        (solarisRecvmsg memory userMsg inode answer garbage) ↔
      sockfdLookup inode ≠ none ∧ ∀ arrival, answer = .inr arrival →
        (readHeader memory userMsg).msgIovlen.toNat ≤ uioMaxiov ∧
          NothingArrives memory userMsg arrival := by
  cases hlookup : sockfdLookup inode with
  | none =>
    constructor
    · intro hright
      exact absurd (solarisRecvmsg_null hlookup) hright.returns
    · rintro ⟨hsome, -⟩
      exact absurd rfl hsome
  | some fd =>
    rw [and_iff_right (Option.some_ne_none fd)]
    cases answer with
    | inl errno => exact iff_of_true (recvRight_error hlookup) (by rintro _ ⟨⟩)
    | inr arrival =>
      rw [recvRight_arrival_iff hlookup]
      constructor
      · rintro harrives _ ⟨⟩
        exact harrives
      · intro harrives
        exact harrives arrival rfl

/-- The two calls carry no message but an empty one, and that only if the inode
leads to a file. -/
theorem messagesRight_iff (memory : Memory) (userMsg userFlags : Word)
    (inode : SocketInode) (fFlags : Word) (sendAnswer : ℤ)
    (recvAnswer : {errno : ℤ // errno < 0} ⊕ Arrival) (garbage : List Byte) :
    (SendRight memory (readHeader memory userMsg)
        (solarisSendmsg memory userMsg userFlags inode fFlags sendAnswer) ↔
      sockfdLookup inode ≠ none ∧ Fits (readHeader memory userMsg) ∧
        ∀ iov ∈ userIovecs memory (readHeader memory userMsg), iov.len = 0) ∧
    (RecvRight memory (readHeader memory userMsg) recvAnswer
        (solarisRecvmsg memory userMsg inode recvAnswer garbage) ↔
      sockfdLookup inode ≠ none ∧ ∀ arrival, recvAnswer = .inr arrival →
        (readHeader memory userMsg).msgIovlen.toNat ≤ uioMaxiov ∧
          NothingArrives memory userMsg arrival) :=
  ⟨sendRight_iff, recvRight_iff⟩

/-- A header with one piece of two bytes. -/
def pieceMemory : Memory :=
  writeWords (fun _ => 0x68) 0x8047000
    [(0, 0), (4, 0), (8, 0x8047100), (12, 1), (16, 0), (20, 0), (24, 0),
      (0x100, 0x8047200), (0x104, 2)]

theorem userIovecs_pieceMemory :
    userIovecs pieceMemory (readHeader pieceMemory 0x8047000) =
      [⟨0x8047200, 2⟩] := by
  decide

/-- One piece is not sent: not on an inode of `fget`, nor on one that leads to a
file.  Neither is it received. -/
theorem not_messagesRight :
    ¬ SendRight pieceMemory (readHeader pieceMemory 0x8047000)
        (solarisSendmsg pieceMemory 0x8047000 0 fgetInode 0 2) ∧
    ¬ SendRight pieceMemory (readHeader pieceMemory 0x8047000)
        (solarisSendmsg pieceMemory 0x8047000 0 ⟨some 3, none⟩ 0 2) ∧
    ¬ RecvRight pieceMemory (readHeader pieceMemory 0x8047000)
        (.inr ⟨[0x68, 0x69], [], by decide, [], 0⟩)
        (solarisRecvmsg pieceMemory 0x8047000 fgetInode
          (.inr ⟨[0x68, 0x69], [], by decide, [], 0⟩) []) ∧
    ¬ RecvRight pieceMemory (readHeader pieceMemory 0x8047000)
        (.inr ⟨[0x68, 0x69], [], by decide, [], 0⟩)
        (solarisRecvmsg pieceMemory 0x8047000 ⟨some 3, none⟩
          (.inr ⟨[0x68, 0x69], [], by decide, [], 0⟩) []) := by
  have hpiece : (⟨0x8047200, 2⟩ : Iovec).len ≠ 0 := by decide
  refine ⟨?_, ?_, ?_, ?_⟩
  · rw [sendRight_iff]
    rintro ⟨hsome, -⟩
    exact hsome rfl
  · rw [sendRight_iff, userIovecs_pieceMemory]
    rintro ⟨-, -, hempty⟩
    exact hpiece (hempty _ List.mem_cons_self)
  · rw [recvRight_iff]
    rintro ⟨hsome, -⟩
    exact hsome rfl
  · rw [recvRight_iff]
    rintro ⟨-, harrives⟩
    obtain ⟨-, hnothing, -⟩ := harrives _ rfl
    rw [userIovecs_pieceMemory] at hnothing
    obtain hempty | hdata := hnothing
    · exact hpiece (hempty _ List.mem_cons_self)
    · cases hdata

end Pieces

end IbcsUs.Messages
