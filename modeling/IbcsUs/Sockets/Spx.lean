import Mathlib.Data.PNat.Defs
import IbcsUs.Sockets.Tidy

/-!
# Writing to the device `spx`

The first write to `spx` connects a socket to the server that `/dev/spx.map/1` names,
puts it in the place of the device, and passes the bytes on to the write of plain
files.  That sets the position first, which a socket refuses, so the bytes of the first
write never arrive.  Later writes go straight to the kernel.
-/

namespace IbcsUs.Socksys

open IbcsUs.Files IbcsUs.Paths

/-- The size of `sun_path`. -/
def sunPathSize : ℕ := 108

/-- What lies around the device when a server accepts connections at the target of the
link, which fits in `sun_path`. -/
structure Served extends Surroundings where
  target : Text
  linked : link = .ok target
  fits : target.length < sunPathSize
  served : servers target = true

/-- The writes of a program, with what it gets for each. -/
def writeAll (around : Surroundings) (fd : ℕ) :
    World → List (List Byte) → List (Option ℤ) × World
  | world, [] => ([], world)
  | world, bytes :: rest =>
      let (written, world) := linux26Write around world fd bytes
      let (results, world) := writeAll around fd world rest
      (written :: results, world)

/-- Every write returns its length. -/
def AllWritten (results : List (Option ℤ)) (writes : List (List Byte)) : Prop :=
  results = writes.map fun bytes => some (bytes.length : ℤ)

/-- The server at a path has received the bytes of all writes. -/
def Arrived (world next : World) (path : Text) (writes : List (List Byte)) : Prop :=
  next.received path = world.received path ++ writes.flatten

/-- Every write returns its length, and the bytes arrive at the target of the link. -/
def Delivered (around : Served) (world : World) (fd : ℕ) (writes : List (List Byte)) :
    Prop :=
  let outcome := writeAll around.toSurroundings fd world writes
  AllWritten outcome.1 writes ∧ Arrived world outcome.2 around.target writes

section Device

variable {world : World} {fd : ℕ}

/-! ## The first write -/

/-- A device of the emulation that has just been opened has the write of the
emulation. -/
theorem Tidy.openChrdev_write (htidy : Tidy world) (fd minor : ℕ) :
    ∃ file, (Socksys.openChrdev world fd minor).shadow fd = some file ∧
      ((Socksys.openChrdev world fd minor).ops file).write = .device 0 := by
  have hnext := htidy.install fd (.file 0o040755 0)
  refine ⟨_, hnext.withFile_self ?_ ?_ (install_open _), rfl⟩ <;> exact fun _ => rfl

/-- The first write to a device of the emulation fails; where the device was given a
connected socket, because the position of a socket cannot be set. -/
theorem Tidy.linux26Write_device (htidy : Tidy world) {file : Shadow}
    (hfile : world.shadow fd = some file)
    (hwrite : (world.ops file).write = .device 0) (around : Surroundings)
    {bytes : List Byte} (hlength : bytes.length ≠ 1) :
    ∃ error < 0, (Socksys.linux26Write around world fd bytes).1 = some error ∧
      (0 < (Socksys.socksysFdinit around world fd).1 →
        error = -espipe ∧ ∃ path, sunPath around = .ok path ∧
          Connected (Socksys.linux26Write around world fd bytes).2 fd path) := by
  have hopen := htidy.open_of_shadow hfile
  have hdevice : ((world.shadow fd).map fun file => (world.ops file).write) =
      some (.device 0) := by
    rw [hfile, Option.map_some, hwrite]
  rw [Socksys.linux26Write, hdevice]
  exact (htidy.socksysWrite hopen around bytes).2 hlength

/-! ## Later writes -/

/-- A write to a connected socket of the emulation arrives. -/
theorem Tidy.linux26Write_connected (htidy : Tidy world) {path : Text}
    (hconnected : Connected world fd path) (around : Surroundings)
    (bytes : List Byte) :
    Socksys.linux26Write around world fd bytes =
      (some (bytes.length : ℤ),
        { world with
          received := Function.update world.received path
            (world.received path ++ bytes) }) := by
  obtain ⟨hkernel, file, hfile, hsockets⟩ := hconnected
  have hplain : ((world.shadow fd).map fun file => (world.ops file).write) =
      some .plain := by
    rw [hfile, Option.map_some, World.ops, hsockets,
      htidy.pointed fd file hfile hsockets]
    rfl
  rw [Socksys.linux26Write, hplain]
  simp only [Socksys.kernelWrite, hkernel]

/-- All writes to a connected socket of the emulation arrive, in their order. -/
theorem Tidy.writeAll_connected (htidy : Tidy world) {path : Text}
    (hconnected : Connected world fd path) (around : Surroundings)
    (writes : List (List Byte)) :
    AllWritten (writeAll around fd world writes).1 writes ∧
      Arrived world (Socksys.writeAll around fd world writes).2 path writes := by
  induction writes generalizing world with
  | nil => exact ⟨rfl, (List.append_nil _).symm⟩
  | cons bytes rest ih =>
    have hwrite := htidy.linux26Write_connected hconnected around bytes
    have hnext := htidy.linux26Write around fd bytes
    rw [hwrite] at hnext
    obtain ⟨hresults, harrived⟩ := ih hnext hconnected
    rw [writeAll, hwrite]
    refine ⟨congrArg (_ :: ·) hresults, ?_⟩
    rw [Arrived] at harrived ⊢
    rw [harrived, List.flatten_cons, ← List.append_assoc]
    exact congrArg (· ++ rest.flatten) (Function.update_self ..)

end Device

/-! ## What arrives -/

/-- Whatever a program did before, what it writes to a newly opened `spx` arrives as it
should exactly when it writes nothing. -/
theorem delivered_iff_no_writes (kernel : ℕ → Option Description) (calls : List Call)
    {fd : ℕ} (hclosed : (after kernel calls).kernel fd = none) (around : Served)
    {writes : List (List Byte)} (hwrites : ∀ bytes ∈ writes, 2 ≤ bytes.length) :
    Delivered around (openChrdev (after kernel calls) fd 1) fd writes ↔
      writes = [] := by
  have htidy := tidy_after kernel calls
  obtain ⟨file, hfile, hwrite⟩ := htidy.openChrdev_write fd 1
  rw [Delivered]
  constructor
  · rintro ⟨hresults, -⟩
    cases writes with
    | nil => rfl
    | cons bytes rest =>
      have hlength := hwrites bytes (List.mem_cons_self ..)
      have hmany : bytes.length ≠ 1 := by omega
      obtain ⟨error, hnegative, herror, -⟩ :=
        (htidy.openChrdev hclosed 1).linux26Write_device hfile hwrite
          around.toSurroundings hmany
      rw [AllWritten, writeAll, List.map_cons, List.cons_eq_cons, herror] at hresults
      have hsame := Option.some.inj hresults.1
      omega
  · rintro rfl
    exact ⟨rfl, (List.append_nil _).symm⟩

/-- A server at `/a`; the descriptor 4 is free whenever it is asked for. -/
def servedAtA : Served where
  link := .ok "/a".toList
  servers path := path = "/a".toList
  pick world := if world.kernel 4 = none then some 4 else none
  pick_free world fd hpick := by
    obtain ⟨hfree, hsome⟩ := Option.ite_none_right_eq_some.mp hpick
    exact Option.some.inj hsome ▸ hfree
  target := "/a".toList
  linked := rfl
  fits := by decide
  served := by decide

theorem delivered_at_a_iff :
    Delivered servedAtA (openChrdev (after (fun _ => none) []) 3 1) 3 [[0, 0]] ↔
      ([[0, 0]] : List (List Byte)) = [] :=
  delivered_iff_no_writes (fun _ => none) [] rfl servedAtA (by decide)

/-- The write connects, and returns the refusal to set the position. -/
theorem first_write_is_refused :
    ¬ Delivered servedAtA (openChrdev (after (fun _ => none) []) 3 1) 3 [[0, 0]] := by
  rintro ⟨hresults, -⟩
  rw [AllWritten] at hresults
  revert hresults
  decide

/-- Where the first write to a newly opened `spx` finds a server, it is lost, and the
later ones arrive at the first fourteen characters of the target. -/
theorem later_writes_arrive (kernel : ℕ → Option Description) (calls : List Call)
    {fd : ℕ} (hclosed : (after kernel calls).kernel fd = none) (around : Served)
    {first : List Byte} (hfirst : first.length ≠ 1)
    (hfound : 0 < (socksysFdinit around.toSurroundings
      (openChrdev (after kernel calls) fd 1) fd).1)
    (rest : List (List Byte)) :
    let outcome := linux26Write around.toSurroundings
      (openChrdev (after kernel calls) fd 1) fd first
    let later := writeAll around.toSurroundings fd outcome.2 rest
    outcome.1 = some (-espipe) ∧ AllWritten later.1 rest ∧
      Arrived outcome.2 later.2 (around.target.take spxName.length) rest := by
  intro outcome later
  have htidy := (tidy_after kernel calls).openChrdev hclosed 1
  obtain ⟨file, hfile, hwrite⟩ := (tidy_after kernel calls).openChrdev_write fd 1
  obtain ⟨error, -, herror, hconnects⟩ :=
    htidy.linux26Write_device hfile hwrite around.toSurroundings hfirst
  obtain ⟨rfl, path, hpath, hconnected⟩ := hconnects hfound
  rw [sunPath, around.linked] at hpath
  obtain rfl := Except.ok.inj hpath
  exact ⟨herror, (htidy.linux26Write around.toSurroundings fd first).writeAll_connected
    hconnected around.toSurroundings rest⟩

end IbcsUs.Socksys
