import Mathlib.Data.BitVec
import Mathlib.Data.List.GetD
import Mathlib.Data.Nat.Cast.Order.Ring
import Mathlib.Order.Nat

/-!
# The signal tables of the personalities

Every exec domain has two tables of `NSIGNALS + 1` words: `signal_map`, from the
emulated system's signal numbers to those of Linux, and `signal_invmap`, from
those of Linux to the emulated system's.  An entry of -1 stands for no signal.
-/

namespace IbcsUs.Signals

/-- The exec domains that are registered. -/
inductive Personality where
  | openServer
  | xenix
  | solaris
  | wyse
  | isc
  | unixWare7
  deriving DecidableEq

/-- `NSIGNALS`. -/
def nsignals : ℕ := 32

/-- `linux_to_sco_signals`. -/
def linuxToSco : List (BitVec 32) := [
  0, 1, 2, 3,
  4, 5, 6, 10,
  8, 9, 16, 11,
  17, 13, 14, 15,
  15, 18, 25, 23,
  24, 26, 27, 21,
  30, 31, 28, 29,
  20, 22, 19, 12,
  -1]

/-- `linux_to_xenix_signals`. -/
def linuxToXenix : List (BitVec 32) := [
  0, 1, 2, 3,
  4, 5, 6, -1,
  8, 9, 16, 11,
  17, 13, 14, 15,
  11, 18, 25, 23,
  24, 26, 27, 16,
  30, 31, 28, 29,
  20, 20, 19, -1,
  -1]

/-- `linux_to_solaris_signals`, `linux_to_wyse_signals` and
`linux_to_uw7_signals`. -/
def linuxToSvr4 : List (BitVec 32) := [
  0, 1, 2, 3,
  4, 5, 6, -1,
  8, 9, 16, 11,
  17, 13, 14, 15,
  11, 18, 25, 23,
  24, 26, 27, 21,
  30, 31, 28, 29,
  20, 22, 19, -1,
  -1]

/-- `linux_to_isc_signals`. -/
def linuxToIsc : List (BitVec 32) := [
  0, 1, 2, 3,
  4, 5, 6, -1,
  8, 9, 16, 11,
  17, 13, 14, 15,
  11, 18, 23, 24,
  25, 26, 27, 16,
  30, 31, 28, 29,
  20, 22, 19, -1,
  -1]

/-- `sco_to_linux_signals`. -/
def scoToLinux : List (BitVec 32) := [
  0, 1, 2, 3,
  4, 5, 6, 6,
  8, 9, 7, 11,
  31, 13, 14, 15,
  10, 12, 17, 30,
  28, 23, 29, 19,
  20, 18, 21, 22,
  26, 27, 24, 25,
  -1]

/-- `xenix_to_linux_signals`. -/
def xenixToLinux : List (BitVec 32) := [
  0, 1, 2, 3,
  4, 5, 6, 31,
  8, 9, 31, 11,
  31, 13, 14, 15,
  10, 12, 17, 30,
  29, -1, -1, -1,
  -1, -1, -1, -1,
  -1, -1, -1, -1,
  -1]

/-- `solaris_to_linux_signals`, `wyse_to_linux_signals` and
`uw7_to_linux_signals`. -/
def svr4ToLinux : List (BitVec 32) := [
  0, 1, 2, 3,
  4, 5, 6, 31,
  8, 9, 31, 11,
  31, 13, 14, 15,
  10, 12, 17, 30,
  28, 23, 29, 19,
  20, 18, 21, 22,
  26, 27, 24, 25,
  -1]

/-- `isc_to_linux_signals`. -/
def iscToLinux : List (BitVec 32) := [
  0, 1, 2, 3,
  4, 5, 6, 31,
  8, 9, 31, 11,
  31, 13, 14, 15,
  10, 12, 17, 30,
  28, -1, 29, 18,
  19, 20, 21, 22,
  26, 27, 24, 25,
  -1]

/-- `signal_map` of the exec domain. -/
def Personality.signalMap : Personality → List (BitVec 32)
  | openServer => scoToLinux
  | xenix => xenixToLinux
  | solaris => svr4ToLinux
  | wyse => svr4ToLinux
  | isc => iscToLinux
  | unixWare7 => svr4ToLinux

/-- `signal_invmap` of the exec domain. -/
def Personality.signalInvmap : Personality → List (BitVec 32)
  | openServer => linuxToSco
  | xenix => linuxToXenix
  | solaris => linuxToSvr4
  | wyse => linuxToSvr4
  | isc => linuxToIsc
  | unixWare7 => linuxToSvr4

/-- A Linux signal number. -/
structure Signal where
  number : Fin 65
  pos : 0 < number
  deriving DecidableEq

/-- The signal number as a word. -/
def Signal.word (signal : Signal) : BitVec 32 := BitVec.ofNat 32 signal.number

/-- The emulated system's number for a Linux signal, where it has one. -/
def Personality.number (personality : Personality) (signal : Signal) :
    Option (BitVec 32) :=
  personality.signalInvmap[signal.number.val]?.filter fun number =>
    0 < number ∧ number < 0x7f

theorem signalMap_length (personality : Personality) :
    personality.signalMap.length = nsignals + 1 := by
  cases personality <;> rfl

theorem signalInvmap_length (personality : Personality) :
    personality.signalInvmap.length = nsignals + 1 := by
  cases personality <;> rfl

end IbcsUs.Signals
