import Mathlib.Data.BitVec
import Mathlib.Data.Nat.Cast.Order.Ring
import Mathlib.Order.Nat
import IbcsUs.Core.Runs

/-!
# Changing the effective ids

SVR4 and UnixWare change an effective id with a call of its own.  Linux has none,
so the calls are emulated with the 16-bit `setreuid` and `setregid`, the real id
left alone by `-1`.  These set the saved id too whenever the new effective id
differs from the real one.  What the capabilities of a process are, and how a
change of the user ids changes them, is a parameter.
-/

namespace IbcsUs.EffectiveIds

open IbcsUs.Runs

abbrev Id := BitVec 32

/-- The three ids of one kind. -/
structure Ids where
  real : Id
  effective : Id
  saved : Id
  deriving DecidableEq

structure Credentials (Caps : Type*) where
  uid : Ids
  gid : Ids
  caps : Caps
  deriving DecidableEq

/-- Which capabilities let a process take any id, and what becomes of them when
the user ids change. -/
structure Kernel (Caps : Type*) where
  capSetuid : Caps → Bool
  capSetgid : Caps → Bool
  fixup : Ids → Ids → Caps → Caps

/-! ## The kernel's calls -/

/-- An id as the 16-bit calls take it; `none` is `-1`. -/
def low2high (wanted : Id) : Option Id :=
  if wanted.setWidth 16 = 0xffff then none
  else some ((wanted.setWidth 16).setWidth 32)

def Ids.Holds (ids : Ids) (id : Id) : Prop :=
  id = ids.real ∨ id = ids.effective ∨ id = ids.saved

instance (ids : Ids) (id : Id) : Decidable (ids.Holds id) :=
  inferInstanceAs (Decidable (_ ∨ _ ∨ _))

/-- The ids once `id` has become the effective one. -/
def Ids.setEffective (ids : Ids) (id : Id) : Ids :=
  { ids with effective := id, saved := if id ≠ ids.real then id else ids.saved }

/-- The ids after `setreuid(-1, id)` or `setregid(-1, id)`, `none` when the
process may not take the id. -/
def Ids.setre (capable : Bool) (ids : Ids) : Option Id → Option Ids
  | none => some ids
  | some id =>
      if ids.Holds id ∨ capable = true then some (ids.setEffective id) else none

inductive Errno where
  | eperm
  | einval
  deriving DecidableEq

variable {Caps : Type*} (kernel : Kernel Caps)

/-- `setreuid(-1, euid)`. -/
def setreuid (euid : Id) (creds : Credentials Caps) :
    Except Errno (Credentials Caps) :=
  match creds.uid.setre (kernel.capSetuid creds.caps) (low2high euid) with
  | some uid =>
      .ok { creds with uid := uid, caps := kernel.fixup creds.uid uid creds.caps }
  | none => .error .eperm

/-- `setregid(-1, egid)`. -/
def setregid (egid : Id) (creds : Credentials Caps) :
    Except Errno (Credentials Caps) :=
  match creds.gid.setre (kernel.capSetgid creds.caps) (low2high egid) with
  | some gid => .ok { creds with gid := gid }
  | none => .error .eperm

/-! ## The calls of the program -/

def svr4Seteuid (uid : Id) (creds : Credentials Caps) :
    Except Errno (Credentials Caps) :=
  setreuid kernel uid creds

def svr4Setegid (gid : Id) (creds : Credentials Caps) :
    Except Errno (Credentials Caps) :=
  setregid kernel gid creds

def uw7Maxuid : ℤ := 60002

def uw7Seteuid (uid : Id) (creds : Credentials Caps) :
    Except Errno (Credentials Caps) :=
  if uid.toInt < 0 ∨ uid.toInt > uw7Maxuid then .error .einval
  else setreuid kernel uid creds

def uw7Setegid (gid : Id) (creds : Credentials Caps) :
    Except Errno (Credentials Caps) :=
  if gid.toInt < 0 ∨ gid.toInt > uw7Maxuid then .error .einval
  else setreuid kernel gid creds

inductive Changer where
  | svr4Seteuid
  | svr4Setegid
  | uw7Seteuid
  | uw7Setegid
  deriving DecidableEq

def runChanger : Changer → Id → Credentials Caps →
    Except Errno (Credentials Caps)
  | .svr4Seteuid => svr4Seteuid kernel
  | .svr4Setegid => svr4Setegid kernel
  | .uw7Seteuid => uw7Seteuid kernel
  | .uw7Setegid => uw7Setegid kernel

/-- The credentials a call leaves. -/
def after (creds : Credentials Caps) (call : Changer × Id) : Credentials Caps :=
  match runChanger kernel call.1 call.2 creds with
  | .ok next => next
  | .error _ => creds

def step (creds : Credentials Caps) (call : Changer × Id) :
    Option (Credentials Caps) :=
  some (after kernel creds call)

/-! ## What the calls should do -/

/-- The ids the call is about, and the others. -/
def Changer.target (changer : Changer) (creds : Credentials Caps) : Ids :=
  match changer with
  | .svr4Seteuid | .uw7Seteuid => creds.uid
  | .svr4Setegid | .uw7Setegid => creds.gid

def Changer.others (changer : Changer) (creds : Credentials Caps) : Ids :=
  match changer with
  | .svr4Seteuid | .uw7Seteuid => creds.gid
  | .svr4Setegid | .uw7Setegid => creds.uid

/-- The effective id becomes the one that was asked for and the five other ids
stay; a call that fails changes nothing. -/
def CallRight (creds : Credentials Caps) (call : Changer × Id) : Prop :=
  match runChanger kernel call.1 call.2 creds with
  | .ok next =>
      call.1.target next =
          { call.1.target creds with
            effective :=
              (low2high call.2).getD (call.1.target creds).effective } ∧
        call.1.others next = call.1.others creds
  | .error _ => after kernel creds call = creds

/-- Once the call has been granted, asking for the id that was saved before it
is granted too and makes that id the effective one. -/
def CanRaise (creds : Credentials Caps) (call : Changer × Id) : Prop :=
  ∀ lowered, runChanger kernel call.1 call.2 creds = .ok lowered →
    ∃ raised,
      runChanger kernel call.1 (call.1.target creds).saved lowered =
          .ok raised ∧
        (call.1.target raised).effective = (call.1.target creds).saved

/-! ## When they do it -/

/-- The ids that the call passes on to the kernel. -/
def Changer.Accepts (changer : Changer) (id : Id) : Prop :=
  match changer with
  | .svr4Seteuid | .svr4Setegid => True
  | .uw7Seteuid | .uw7Setegid => 0 ≤ id.toInt ∧ id.toInt ≤ uw7Maxuid

/-- The ids that the call changes. -/
def Changer.changed (changer : Changer) (creds : Credentials Caps) : Ids :=
  match changer with
  | .svr4Seteuid | .uw7Seteuid | .uw7Setegid => creds.uid
  | .svr4Setegid => creds.gid

/-- Whether the process may give these any value. -/
def Changer.capable (changer : Changer) (caps : Caps) : Bool :=
  match changer with
  | .svr4Seteuid | .uw7Seteuid | .uw7Setegid => kernel.capSetuid caps
  | .svr4Setegid => kernel.capSetgid caps

/-- An id that is granted is the real or the saved one.  For `uw7_setegid`, which
changes the user id, it must be the effective id of both kinds already. -/
def CallMeets (creds : Credentials Caps) (call : Changer × Id) : Prop :=
  ∀ id, call.1.Accepts call.2 → low2high call.2 = some id →
    ((call.1.changed creds).Holds id ∨
      call.1.capable kernel creds.caps = true) →
    (id = (call.1.changed creds).real ∨ id = (call.1.changed creds).saved) ∧
      (call.1 = .uw7Setegid →
        id = creds.uid.effective ∧ id = creds.gid.effective)

/-- The capabilities after a change of the ids to `id`. -/
def Changer.capsAfter (changer : Changer) (creds : Credentials Caps) (id : Id) :
    Caps :=
  match changer with
  | .svr4Seteuid | .uw7Seteuid | .uw7Setegid =>
      kernel.fixup creds.uid (creds.uid.setEffective id) creds.caps
  | .svr4Setegid => creds.caps

/-- The id saved at first is one that the 16-bit call can name, and the process
still holds it: it is the real id, or the id that was granted, or that one is the
real id, or a capability is left.  For `uw7_setegid` the effective group must be
the saved one all along, and it is the user ids that must allow for the value. -/
def RaiseMeets (creds : Credentials Caps) (call : Changer × Id) : Prop :=
  call.1.Accepts call.2 →
    match low2high call.2 with
    | none =>
        low2high (call.1.target creds).saved =
            some (call.1.target creds).saved ∨
          low2high (call.1.target creds).saved = none ∧
            (call.1.target creds).effective = (call.1.target creds).saved
    | some id =>
        (call.1.changed creds).Holds id ∨
            call.1.capable kernel creds.caps = true →
          call.1.Accepts (call.1.target creds).saved ∧
            low2high (call.1.target creds).saved =
              some (call.1.target creds).saved ∧
            ((call.1.target creds).saved = (call.1.changed creds).real ∨
              (call.1.target creds).saved = id ∨
              (id = (call.1.changed creds).real ∧
                (call.1.target creds).saved = (call.1.changed creds).saved) ∨
              call.1.capable kernel (call.1.capsAfter kernel creds id) =
                true) ∧
            (call.1 = .uw7Setegid →
              creds.gid.effective = creds.gid.saved)

/-! ## One call -/

/-- The credentials once the ids a call changes are `ids`. -/
def Changer.put (changer : Changer) (creds : Credentials Caps) (ids : Ids) :
    Credentials Caps :=
  match changer with
  | .svr4Seteuid | .uw7Seteuid | .uw7Setegid =>
      { creds with uid := ids, caps := kernel.fixup creds.uid ids creds.caps }
  | .svr4Setegid => { creds with gid := ids }

@[simp]
theorem Changer.changed_put (changer : Changer) (creds : Credentials Caps)
    (ids : Ids) : changer.changed (changer.put kernel creds ids) = ids := by
  cases changer <;> rfl

instance (changer : Changer) (id : Id) : Decidable (changer.Accepts id) := by
  cases changer <;> unfold Changer.Accepts <;> infer_instance

/-- All four calls check their argument and hand it to a kernel call. -/
theorem runChanger_eq (changer : Changer) (wanted : Id)
    (creds : Credentials Caps) :
    runChanger kernel changer wanted creds =
      if changer.Accepts wanted then
        match (changer.changed creds).setre (changer.capable kernel creds.caps)
            (low2high wanted) with
        | some ids => .ok (changer.put kernel creds ids)
        | none => .error .eperm
      else .error .einval := by
  have hrange : ∀ id : Id, (id.toInt < 0 ∨ id.toInt > uw7Maxuid) ↔
      ¬(0 ≤ id.toInt ∧ id.toInt ≤ uw7Maxuid) := by
    intro id
    omega
  cases changer with
  | svr4Seteuid => simp [runChanger, svr4Seteuid, setreuid, Changer.Accepts,
      Changer.changed, Changer.capable, Changer.put]
  | svr4Setegid => simp [runChanger, svr4Setegid, setregid, Changer.Accepts,
      Changer.changed, Changer.capable, Changer.put]
  | uw7Seteuid =>
      simp only [runChanger, uw7Seteuid, setreuid, Changer.Accepts, hrange,
        Changer.changed, Changer.capable, Changer.put, ite_not]
  | uw7Setegid =>
      simp only [runChanger, uw7Setegid, setreuid, Changer.Accepts, hrange,
        Changer.changed, Changer.capable, Changer.put, ite_not]

theorem Ids.setEffective_eq_iff (ids : Ids) (id : Id) :
    ids.setEffective id = { ids with effective := id } ↔
      id = ids.real ∨ id = ids.saved := by
  by_cases hreal : id = ids.real <;> simp [Ids.setEffective, hreal]

theorem Ids.setEffective_eq_self (ids : Ids) (id : Id) :
    ids.setEffective id = ids ↔
      (id = ids.real ∨ id = ids.saved) ∧ id = ids.effective := by
  obtain ⟨real, effective, saved⟩ := ids
  by_cases hreal : id = real
  · simp [Ids.setEffective, hreal]
  · simp [Ids.setEffective, hreal, and_comm]

theorem eq_with_effective_iff (ids : Ids) (id : Id) :
    ids = { ids with effective := id } ↔ id = ids.effective := by
  obtain ⟨real, effective, saved⟩ := ids
  simp [eq_comm]

/-- The ids that a call has left are as they should be exactly when an id that
was granted keeps the saved one, and touches nothing of the other kind. -/
theorem put_right_iff (changer : Changer) (creds : Credentials Caps) (id : Id) :
    (changer.target (changer.put kernel creds
          ((changer.changed creds).setEffective id)) =
        { changer.target creds with effective := id } ∧
      changer.others (changer.put kernel creds
          ((changer.changed creds).setEffective id)) =
        changer.others creds) ↔
      (id = (changer.changed creds).real ∨
          id = (changer.changed creds).saved) ∧
        (changer = .uw7Setegid →
          id = creds.uid.effective ∧ id = creds.gid.effective) := by
  cases changer with
  | svr4Seteuid => simp [Changer.target, Changer.others, Changer.put,
      Changer.changed, Ids.setEffective_eq_iff]
  | svr4Setegid => simp [Changer.target, Changer.others, Changer.put,
      Changer.changed, Ids.setEffective_eq_iff]
  | uw7Seteuid => simp [Changer.target, Changer.others, Changer.put,
      Changer.changed, Ids.setEffective_eq_iff]
  | uw7Setegid =>
      simp only [Changer.target, Changer.others, Changer.put, Changer.changed,
        Ids.setEffective_eq_self, eq_with_effective_iff]
      tauto

/-- A call of which nothing is asked leaves all ids. -/
theorem put_changed (changer : Changer) (creds : Credentials Caps) :
    changer.target (changer.put kernel creds (changer.changed creds)) =
        changer.target creds ∧
      changer.others (changer.put kernel creds (changer.changed creds)) =
        changer.others creds := by
  cases changer <;> exact ⟨rfl, rfl⟩

theorem idCallRight_iff (creds : Credentials Caps) (call : Changer × Id) :
    CallRight kernel creds call ↔ CallMeets kernel creds call := by
  obtain ⟨changer, wanted⟩ := call
  rw [CallRight, CallMeets, after]
  simp only [runChanger_eq]
  by_cases haccepts : changer.Accepts wanted
  · cases hlow : low2high wanted with
    | none => simpa [haccepts, Ids.setre] using put_changed kernel changer creds
    | some id =>
        by_cases hgranted : (changer.changed creds).Holds id ∨
            changer.capable kernel creds.caps = true
        · simpa [haccepts, Ids.setre, hgranted] using
            put_right_iff kernel changer creds id
        · simp [haccepts, Ids.setre, hgranted]
  · simp [haccepts]

/-! ## Lowering and raising -/

/-- An id is held after a change if it is the real id, the id that was granted, or
the saved one when the real id was granted. -/
theorem holds_setEffective_iff (ids : Ids) (id other : Id) :
    (ids.setEffective id).Holds other ↔
      other = ids.real ∨ other = id ∨ (id = ids.real ∧ other = ids.saved) := by
  by_cases hreal : id = ids.real
  · simp [Ids.Holds, Ids.setEffective, hreal]
  · simp [Ids.Holds, Ids.setEffective, hreal]

theorem capable_put (changer : Changer) (creds : Credentials Caps) (id : Id) :
    changer.capable kernel (changer.put kernel creds
        ((changer.changed creds).setEffective id)).caps =
      changer.capable kernel (changer.capsAfter kernel creds id) := by
  cases changer <;> rfl

theorem low2high_ne_of_some {wanted id : Id} (hlow : low2high wanted = some id) :
    id.setWidth 16 ≠ 0xffff := by
  rw [low2high] at hlow
  split at hlow
  · cases hlow
  · rename_i hwide
    simp only [Option.some.injEq] at hlow
    subst hlow
    simpa using hwide

/-- The range of UnixWare is within what the 16-bit call can name. -/
theorem low2high_of_accepted {id : Id}
    (haccepts : 0 ≤ id.toInt ∧ id.toInt ≤ uw7Maxuid) :
    low2high id = some id := by
  have hsmall : id.toNat ≤ 60002 := by
    have hmax : id.toInt ≤ 60002 := haccepts.2
    have hnonneg := haccepts.1
    have hlt := id.isLt
    rw [BitVec.toInt_eq_toNat_cond] at hmax hnonneg
    split at hmax <;> omega
  have hne : id.setWidth 16 ≠ 0xffff := by
    intro heq
    have hnat := congrArg BitVec.toNat heq
    have hall : (0xffff : BitVec 16).toNat = 65535 := rfl
    rw [BitVec.toNat_setWidth, hall] at hnat
    omega
  rw [low2high, if_neg hne, Option.some.injEq]
  apply BitVec.eq_of_toNat_eq
  simp only [BitVec.toNat_setWidth]
  omega

/-- A second call, for the id `saved`, that is granted and gives it. -/
def Regains (changer : Changer) (saved : Id) (lowered : Credentials Caps) : Prop :=
  ∃ raised, runChanger kernel changer saved lowered = .ok raised ∧
    (changer.target raised).effective = saved

/-- The effective id of the kind a call is about, once an id has been granted. -/
theorem effective_put (changer : Changer) (creds : Credentials Caps) (id : Id) :
    (changer.target (changer.put kernel creds
        ((changer.changed creds).setEffective id))).effective =
      if changer = .uw7Setegid then creds.gid.effective else id := by
  cases changer <;> rfl

/-- A second call gives the id `saved` where it is accepted, granted, and the one that
the kernel takes it for. -/
theorem regains_iff (changer : Changer) (saved : Id)
    (lowered : Credentials Caps) :
    Regains kernel changer saved lowered ↔
      changer.Accepts saved ∧
        ((low2high saved = none ∧ (changer.target lowered).effective = saved) ∨
          (low2high saved = some saved ∧
            ((changer.changed lowered).Holds saved ∨
              changer.capable kernel lowered.caps = true) ∧
            (changer = .uw7Setegid → lowered.gid.effective = saved))) := by
  rw [Regains]
  rw [runChanger_eq]
  by_cases haccepts : changer.Accepts saved
  · rw [if_pos haccepts, and_iff_right haccepts]
    cases hlow : low2high saved with
    | none =>
        have hsame := (put_changed kernel changer lowered).1
        simp [Ids.setre, hsame]
    | some id =>
        by_cases hgranted : (changer.changed lowered).Holds id ∨
            changer.capable kernel lowered.caps = true
        · simp only [Ids.setre, if_pos hgranted, Except.ok.injEq, exists_eq_left',
            effective_put, reduceCtorEq, false_and, false_or, Option.some.injEq]
          by_cases hchanger : changer = .uw7Setegid
          · subst hchanger
            have hid : id = saved := by
              have hown := low2high_of_accepted haccepts
              rw [hlow, Option.some.injEq] at hown
              exact hown
            rw [if_pos rfl]
            exact ⟨fun heffective => ⟨hid, hid ▸ hgranted, fun _ => heffective⟩,
              fun hall => hall.2.2 rfl⟩
          · rw [if_neg hchanger]
            constructor
            · rintro rfl
              exact ⟨rfl, hgranted, fun hsame => absurd hsame hchanger⟩
            · exact And.left
        · simp only [Ids.setre, if_neg hgranted, reduceCtorEq, false_and, exists_false,
            false_or, Option.some.injEq, false_iff]
          rintro ⟨rfl, hheld, -⟩
          exact hgranted hheld
  · rw [if_neg haccepts]
    simp [haccepts]

/-- What is kept of a call that asks for nothing: the saved id is held. -/
theorem regains_unchanged_iff {changer : Changer} {wanted : Id}
    (haccepts : changer.Accepts wanted) (hlow : low2high wanted = none)
    (creds : Credentials Caps) :
    Regains kernel changer (changer.target creds).saved
        (changer.put kernel creds (changer.changed creds)) ↔
      low2high (changer.target creds).saved =
          some (changer.target creds).saved ∨
        low2high (changer.target creds).saved = none ∧
          (changer.target creds).effective = (changer.target creds).saved := by
  rw [regains_iff, (put_changed kernel changer creds).1, Changer.changed_put]
  cases changer with
  | svr4Seteuid =>
      simp only [Changer.Accepts, Changer.changed, Changer.target, Ids.Holds]
      tauto
  | svr4Setegid =>
      simp only [Changer.Accepts, Changer.changed, Changer.target, Ids.Holds]
      tauto
  | uw7Seteuid => simp [low2high_of_accepted haccepts] at hlow
  | uw7Setegid => simp [low2high_of_accepted haccepts] at hlow

/-- After an id has been granted the effective id is one the 16-bit call can
name, so the saved one must be asked for by its name. -/
theorem regains_granted_iff (changer : Changer) {wanted id : Id}
    (hlow : low2high wanted = some id) (creds : Credentials Caps) (saved : Id) :
    Regains kernel changer saved
        (changer.put kernel creds ((changer.changed creds).setEffective id)) ↔
      changer.Accepts saved ∧ low2high saved = some saved ∧
        (saved = (changer.changed creds).real ∨ saved = id ∨
          (id = (changer.changed creds).real ∧
            saved = (changer.changed creds).saved) ∨
          changer.capable kernel (changer.capsAfter kernel creds id) = true) ∧
        (changer = .uw7Setegid → creds.gid.effective = saved) := by
  have hname : (changer.target (changer.put kernel creds
        ((changer.changed creds).setEffective id))).effective = saved →
      changer.Accepts saved → low2high saved ≠ none := by
    intro heffective haccepts
    have hid : low2high id ≠ none := by
      rw [low2high, if_neg (low2high_ne_of_some hlow)]
      exact Option.some_ne_none _
    cases changer with
    | svr4Seteuid =>
        have hsaved : id = saved := heffective
        exact hsaved ▸ hid
    | svr4Setegid =>
        have hsaved : id = saved := heffective
        exact hsaved ▸ hid
    | uw7Seteuid => simp [low2high_of_accepted haccepts]
    | uw7Setegid => simp [low2high_of_accepted haccepts]
  have hgid : changer = .uw7Setegid → (changer.put kernel creds
      ((changer.changed creds).setEffective id)).gid = creds.gid := by
    rintro rfl
    rfl
  rw [regains_iff, Changer.changed_put, holds_setEffective_iff, capable_put]
  apply and_congr_right
  intro haccepts
  rw [or_iff_right fun hboth => hname hboth.2 haccepts hboth.1]
  apply and_congr_right
  intro _
  apply and_congr
  · rw [or_assoc, or_assoc]
  · apply imp_congr_right
    intro hchanger
    rw [hgid hchanger]

theorem canRaise_iff (creds : Credentials Caps) (call : Changer × Id) :
    CanRaise kernel creds call ↔ RaiseMeets kernel creds call := by
  obtain ⟨changer, wanted⟩ := call
  have hregains : CanRaise kernel creds (changer, wanted) ↔
      ∀ lowered, runChanger kernel changer wanted creds = .ok lowered →
        Regains kernel changer (changer.target creds).saved lowered := Iff.rfl
  rw [hregains, runChanger_eq]
  rw [RaiseMeets]
  by_cases haccepts : changer.Accepts wanted
  · cases hlow : low2high wanted with
    | none =>
        simpa [haccepts, Ids.setre] using
          regains_unchanged_iff kernel haccepts hlow creds
    | some id =>
        by_cases hgranted : (changer.changed creds).Holds id ∨
            changer.capable kernel creds.caps = true
        · have hthen := regains_granted_iff kernel changer hlow creds
            (changer.target creds).saved
          simp only [haccepts, Ids.setre, hgranted, if_true, forall_const,
            Except.ok.injEq, forall_eq']
          rw [hthen]
          cases changer <;> simp [Changer.target]
        · simp [haccepts, Ids.setre, hgranted]
  · simp [haccepts]

/-! ## The main result -/

/-- In every sequence of calls each one changes its effective id alone, and a
refused one nothing, exactly when each id that is granted is the real or the saved
one, with `uw7_setegid` changing nothing at all; and an effective id that has been
lowered can be raised to the saved one exactly when the process still holds that
id. -/
theorem effectiveIds_right_iff :
    (∀ (creds : Credentials Caps) (calls : List (Changer × Id)),
      Always (step kernel) (fun _ => True) (CallRight kernel) creds calls ↔
        StepsMeet (step kernel) (CallMeets kernel) creds calls) ∧
      ∀ (creds : Credentials Caps) (call : Changer × Id),
        CanRaise kernel creds call ↔ RaiseMeets kernel creds call := by
  refine ⟨fun creds calls => ?_, canRaise_iff kernel⟩
  exact @always_iff_stepsMeet _ _ _ (fun _ => True) _ _ _
    (fun _ _ => trivial) (fun _ _ _ _ _ _ => trivial)
    (fun creds call _ hmeets => (idCallRight_iff kernel creds call).mpr hmeets)
    (fun creds call _ hright _ => (idCallRight_iff kernel creds call).mp hright)
    creds trivial calls

/-- The process may take any id exactly while its effective user is root. -/
def rootCaps : Kernel Bool where
  capSetuid := id
  capSetgid := id
  fixup before after effective :=
    if before.effective = 0 ∧ after.effective ≠ 0 then false
    else if before.effective ≠ 0 ∧ after.effective = 0 then true
    else effective

/-- A set-user-id root program of user 1000. -/
def setuidRoot : Credentials Bool :=
  ⟨⟨1000, 0, 0⟩, ⟨100, 100, 100⟩, true⟩

/-- The program becomes user 33 and cannot become root again, and what it asks for
as its group becomes its user. -/
theorem effectiveIds_wrong :
    ¬ CallRight rootCaps setuidRoot (.svr4Seteuid, 33) ∧
      ¬ CanRaise rootCaps setuidRoot (.svr4Seteuid, 33) ∧
      ¬ CanRaise rootCaps setuidRoot (.uw7Seteuid, 33) ∧
      runChanger rootCaps .uw7Setegid 33 setuidRoot =
        .ok ⟨⟨1000, 33, 33⟩, ⟨100, 100, 100⟩, false⟩ := by
  refine ⟨fun hright => ?_, fun hraise => ?_, fun hraise => ?_, rfl⟩
  · obtain ⟨htarget, -⟩ := hright
    have hsaved := congrArg Ids.saved htarget
    exact absurd hsaved (by decide)
  · obtain ⟨raised, hraised, -⟩ := hraise _ rfl
    cases hraised
  · obtain ⟨raised, hraised, -⟩ := hraise _ rfl
    cases hraised

end IbcsUs.EffectiveIds
