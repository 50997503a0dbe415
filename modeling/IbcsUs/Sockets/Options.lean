import IbcsUs.Syscalls.Dispatch

/-!
# Socket options of SVR4 and Wyse

Both personalities translate the arguments of `socket`, `setsockopt` and
`getsockopt` by the maps of the emulated system, refuse some options, answer others
themselves and hand the rest to the kernel.  Wyse has a copy of the SVR4 code with
`goto` and fall through in the place of some of its `break`s.
-/

namespace IbcsUs.Sockets

open IbcsUs.Sysent

/-! ## The maps -/

/-- The maps of a personality for the arguments of socket calls. -/
structure SocketMaps where
  af : Option (List Segment)
  socktype : Option (List Segment)
  sockopt : Option (List Segment)

/-- `map_value(map, val, 0)`; without a map the number stays. -/
def mapInt (map : Option (List Segment)) (val : BitVec 32) : BitVec 32 :=
  match map with
  | none => val
  | some segments => BitVec.ofInt 32 (mapValue segments val.toInt 0)

/-! ## Creating a socket -/

/-- The request for a socket. -/
structure SocketRequest where
  family : BitVec 32
  type : BitVec 32
  protocol : BitVec 32
  deriving DecidableEq

/-- The request of `socksys_socket`. -/
def socksysSocketRequest (maps : SocketMaps)
    (family type protocol : BitVec 32) : SocketRequest :=
  ⟨mapInt maps.af family, mapInt maps.socktype type, protocol⟩

/-- The request of `wyse_socket`, which looks up the translated family in the map of
the types. -/
def wyseSocketRequest (maps : SocketMaps)
    (family _type protocol : BitVec 32) : SocketRequest :=
  let family := mapInt maps.af family
  let type := mapInt maps.socktype family
  ⟨family, type, protocol⟩

/-! ## Options -/

def solSocket : BitVec 32 := 1
def soLinger : BitVec 32 := 13
def soRcvlowat : BitVec 32 := 18
def soSndlowat : BitVec 32 := 19
def soRcvtimeo : BitVec 32 := 20
def soSndtimeo : BitVec 32 := 21
def soUseloopback : BitVec 32 := 0xff02
def soOrdrel : BitVec 32 := 0xff03
def soImasocket : BitVec 32 := 0xff04
def soPrototype : BitVec 32 := 0xff09

def enoprotoopt : ℤ := 92

/-- What the emulator answers itself: the result, a number for so many bytes at
`optval`, and a new length at `optlen`. -/
structure OptionAnswer where
  result : ℤ
  value : Option (BitVec 32 × ℕ)
  length : Option (BitVec 32)
  deriving DecidableEq

/-- An answer that is a result only. -/
def OptionAnswer.plain (result : ℤ) : OptionAnswer := ⟨result, none, none⟩

/-- What becomes of an option: the emulator answers, or the kernel is asked. -/
inductive Decision where
  | answered (answer : OptionAnswer)
  | request (level optname : BitVec 32)
  deriving DecidableEq

/-- The numbers of the options of `IPPROTO_IP`; `none` is refused. -/
def ipOption (optname : BitVec 32) : Option (BitVec 32) :=
  let optname := optname - 1
  let optname := if optname = 0 then 4 else optname
  if 4 < optname.toInt then
    let optname := optname + 24
    let optname := if optname.toInt ≤ 33 then optname - 1 else optname
    if optname.toInt < 32 ∨ 36 < optname.toInt then none else some optname
  else some optname

/-- The options of `SOL_SOCKET` that both `setsockopt`s answer. -/
def fakedSetsockopt (optname optlen : BitVec 32) : Option OptionAnswer :=
  if optname = soLinger then
    if optlen = 4 then some (.plain 0) else none
  else if optname = soPrototype ∨ optname = soOrdrel ∨ optname = soSndtimeo ∨
      optname = soRcvtimeo then some (.plain (-enoprotoopt))
  else if optname = soUseloopback ∨ optname = soSndlowat ∨
      optname = soRcvlowat then some (.plain 0)
  else if optname = soImasocket then some (.plain (-enoprotoopt))
  else none

/-- The answer of `abi_do_getsockopt` for an option of the value. -/
def abiFakedValue (value len : BitVec 32) : OptionAnswer :=
  if len.toNat < 4 then .plain (-einval) else ⟨0, some (value, 4), some 4⟩

/-- The options of `SOL_SOCKET` that `abi_do_getsockopt` answers. -/
def abiFakedGetsockopt (optname len : BitVec 32) : Option OptionAnswer :=
  if optname = soLinger then
    if len = 4 then some ⟨0, some (0, 4), none⟩ else none
  else if optname = soPrototype then some (abiFakedValue 0 len)
  else if optname = soOrdrel ∨ optname = soSndtimeo ∨ optname = soRcvtimeo then
    some (.plain (-enoprotoopt))
  else if optname = soUseloopback ∨ optname = soSndlowat ∨
      optname = soRcvlowat ∨ optname = soImasocket then
    some (abiFakedValue 1 len)
  else none

/-- The end of `wyse_getsockopt` for an option of the value. -/
def wyseFakedValue (value len : BitVec 32) : OptionAnswer :=
  let len := if 4 < len.toNat then 4 else len
  ⟨0, some (value, len.toNat), some len⟩

/-- The options of `SOL_SOCKET` that `wyse_getsockopt` answers. -/
def wyseFakedGetsockopt (optname len : BitVec 32) : Option OptionAnswer :=
  if optname = soLinger then
    if len ≠ 4 then none else some (wyseFakedValue 0 len)
  else if optname = soPrototype then some (wyseFakedValue 0 len)
  else if optname = soOrdrel ∨ optname = soSndtimeo ∨ optname = soRcvtimeo then
    some (.plain (-enoprotoopt))
  else if optname = soUseloopback ∨ optname = soSndlowat ∨
      optname = soRcvlowat then some (.plain 0)
  else if optname = soImasocket then some (wyseFakedValue 1 len)
  else none

/-- What is left of an option after the faked answers. -/
def handOn (faked : Option OptionAnswer) (level optname : BitVec 32) :
    Decision :=
  match faked with
  | some answer => .answered answer
  | none => .request level optname

section Code

variable (maps : SocketMaps) (level optname : BitVec 32)

/-- The switch of `abi_do_setsockopt` and `abi_do_getsockopt`. -/
def abiOption (faked : BitVec 32 → Option OptionAnswer) : Decision :=
  if level = 0 then
    match ipOption optname with
    | none => .answered (.plain (-einval))
    | some optname => .request level optname
  else if level = 0xffff then
    let optname := mapInt maps.sockopt optname
    handOn (faked optname) solSocket optname
  else .request level optname

/-- The switch of `wyse_setsockopt` and `wyse_getsockopt`, where the options up to 4
of `IPPROTO_IP` fall through to `SOL_SOCKET`. -/
def wyseOption (faked : BitVec 32 → Option OptionAnswer) : Decision :=
  let socket (optname : BitVec 32) : Decision :=
    let optname := mapInt maps.sockopt optname
    handOn (faked optname) solSocket optname
  if level = 0 then
    let optname := optname - 1
    let optname := if optname = 0 then 4 else optname
    if 4 < optname.toInt then
      let optname := optname + 24
      let optname := if optname.toInt ≤ 33 then optname - 1 else optname
      if optname.toInt < 32 ∨ 36 < optname.toInt then
        .answered (.plain (-einval))
      else .request level optname
    else socket optname
  else if level = 0xffff then socket optname
  else .request level optname

/-- `abi_do_setsockopt`. -/
def abiDoSetsockopt (optlen : BitVec 32) : Decision :=
  abiOption maps level optname (fakedSetsockopt · optlen)

/-- `abi_do_getsockopt`; `len` is the length at `optlen`. -/
def abiDoGetsockopt (len : BitVec 32) : Decision :=
  abiOption maps level optname (abiFakedGetsockopt · len)

/-- `wyse_setsockopt`. -/
def wyseSetsockopt (optlen : BitVec 32) : Decision :=
  wyseOption maps level optname (fakedSetsockopt · optlen)

/-- `wyse_getsockopt`; `len` is the length at `optlen`. -/
def wyseGetsockopt (len : BitVec 32) : Decision :=
  if len = 0 then .answered (.plain (-einval))
  else wyseOption maps level optname (wyseFakedGetsockopt · len)

end Code

/-! ## Agreement -/

/-- Both answer, or both ask the kernel for the same option. -/
def Decision.Agrees : Decision → Decision → Prop
  | .answered _, .answered _ => True
  | .request level optname, .request level' optname' =>
      level = level' ∧ optname = optname'
  | _, _ => False

/-- An option of `IPPROTO_IP` that Wyse takes for one of `SOL_SOCKET`. -/
def FallsThrough (level optname : BitVec 32) : Prop :=
  level = 0 ∧ (optname - 1).toInt ≤ 4

/-- An option that `abi_do_getsockopt` answers whatever its length. -/
def AlwaysAnswered (maps : SocketMaps) (level optname : BitVec 32) : Prop :=
  level = 0 ∧ ipOption optname = none ∨
    level = 0xffff ∧ mapInt maps.sockopt optname ∈
      [soPrototype, soOrdrel, soSndtimeo, soRcvtimeo, soUseloopback, soSndlowat,
        soRcvlowat, soImasocket]

theorem Decision.agrees_refl (decision : Decision) : decision.Agrees decision := by
  cases decision with
  | answered => trivial
  | request => exact ⟨rfl, rfl⟩

/-- Faked answers for the same options agree. -/
theorem handOn_agrees_iff {faked faked' : Option OptionAnswer}
    (level optname : BitVec 32) :
    (handOn faked level optname).Agrees (handOn faked' level optname) ↔
      faked.isSome = faked'.isSome := by
  cases faked <;> cases faked' <;> simp [handOn, Decision.Agrees]

theorem ipOption_low {optname : BitVec 32} (hlow : (optname - 1).toInt ≤ 4) :
    ipOption optname =
      some (if optname - 1 = 0 then 4 else optname - 1) := by
  have hsmall : ¬ 4 < (if optname - 1 = 0 then 4 else optname - 1).toInt := by
    split
    · decide
    · exact not_lt.mpr hlow
  rw [ipOption, if_neg hsmall]

/-- Where nothing falls through the two switches agree if their faked answers are for
the same options. -/
theorem wyseOption_agrees {maps : SocketMaps} {level optname : BitVec 32}
    {faked faked' : BitVec 32 → Option OptionAnswer}
    (hthrough : ¬ FallsThrough level optname)
    (hfaked : ∀ optname, (faked optname).isSome = (faked' optname).isSome) :
    (wyseOption maps level optname faked).Agrees
      (abiOption maps level optname faked') := by
  simp only [wyseOption, abiOption]
  by_cases hzero : level = 0
  · rw [if_pos hzero, if_pos hzero]
    have hbig : 4 < (if optname - 1 = 0 then 4 else optname - 1).toInt := by
      have hlow : ¬ (optname - 1).toInt ≤ 4 := fun hlow => hthrough ⟨hzero, hlow⟩
      rw [if_neg]
      · exact not_le.mp hlow
      · intro hone
        rw [hone] at hlow
        exact hlow (by decide)
    simp only [ipOption, if_pos hbig]
    split_ifs
    all_goals exact Decision.agrees_refl _
  · rw [if_neg hzero, if_neg hzero]
    by_cases hsocket : level = 0xffff
    · rw [if_pos hsocket, if_pos hsocket]
      exact (handOn_agrees_iff solSocket _).mpr (hfaked _)
    · rw [if_neg hsocket, if_neg hsocket]
      exact Decision.agrees_refl _

/-- Where an option falls through, the kernel is asked about another level. -/
theorem not_wyseOption_agrees {maps : SocketMaps} {level optname : BitVec 32}
    {faked faked' : BitVec 32 → Option OptionAnswer}
    (hthrough : FallsThrough level optname) :
    ¬ (wyseOption maps level optname faked).Agrees
      (abiOption maps level optname faked') := by
  obtain ⟨rfl, hlow⟩ := hthrough
  have hsmall : ¬ 4 < (if optname - 1 = 0 then 4 else optname - 1).toInt := by
    split
    · decide
    · exact not_lt.mpr hlow
  simp only [wyseOption, abiOption, if_pos, if_neg hsmall, ipOption_low hlow]
  cases faked (mapInt maps.sockopt (if optname - 1 = 0 then 4 else optname - 1))
    with
  | some answer => exact fun hagrees => hagrees
  | none => exact fun hagrees => absurd hagrees.1 (by decide)

theorem abiOption_of_fallsThrough (maps : SocketMaps) {level optname : BitVec 32}
    (hthrough : FallsThrough level optname)
    (faked : BitVec 32 → Option OptionAnswer) :
    ∃ optname', abiOption maps level optname faked = .request level optname' := by
  rw [abiOption, if_pos hthrough.1, ipOption_low hthrough.2]
  exact ⟨_, rfl⟩

theorem isSome_fakedGetsockopt (optname len : BitVec 32) :
    (wyseFakedGetsockopt optname len).isSome =
      (abiFakedGetsockopt optname len).isSome := by
  rw [wyseFakedGetsockopt, abiFakedGetsockopt]
  split_ifs <;> simp_all

/-- `setsockopt`. -/
theorem wyseSetsockopt_agrees_iff (maps : SocketMaps)
    (level optname optlen : BitVec 32) :
    (wyseSetsockopt maps level optname optlen).Agrees
      (abiDoSetsockopt maps level optname optlen) ↔
      ¬ FallsThrough level optname := by
  constructor
  · exact fun hagrees hthrough => not_wyseOption_agrees hthrough hagrees
  · exact fun hthrough => wyseOption_agrees hthrough fun _ => rfl

/-- The options answered with a length of 0. -/
theorem abiDoGetsockopt_zero_iff (maps : SocketMaps)
    (level optname : BitVec 32) :
    (∃ answer, abiDoGetsockopt maps level optname 0 = .answered answer) ↔
      AlwaysAnswered maps level optname := by
  have hfaked : ∀ optname, (∃ answer, handOn (abiFakedGetsockopt optname 0)
      solSocket optname = .answered answer) ↔
      optname ∈ [soPrototype, soOrdrel, soSndtimeo, soRcvtimeo, soUseloopback,
        soSndlowat, soRcvlowat, soImasocket] := by
    intro optname
    by_cases hlinger : optname = soLinger
    · subst hlinger
      simp [abiFakedGetsockopt, handOn, soLinger, soPrototype, soOrdrel,
        soSndtimeo, soRcvtimeo, soUseloopback, soSndlowat, soRcvlowat,
        soImasocket]
    · rw [abiFakedGetsockopt, if_neg hlinger]
      simp only [List.mem_cons, List.not_mem_nil, or_false]
      split_ifs with hprototype hrefused hvalue
      · simp [handOn, hprototype]
      · simp only [handOn, Decision.answered.injEq, exists_eq', true_iff]
        tauto
      · simp only [handOn, Decision.answered.injEq, exists_eq', true_iff]
        tauto
      · simp only [handOn, reduceCtorEq, exists_false, false_iff]
        tauto
  rw [abiDoGetsockopt, abiOption, AlwaysAnswered]
  by_cases hzero : level = 0
  · subst hzero
    rw [if_pos rfl]
    cases hoption : ipOption optname with
    | none => simp
    | some optname' => simp
  · rw [if_neg hzero]
    by_cases hsocket : level = 0xffff
    · rw [if_pos hsocket]
      refine (hfaked _).trans ⟨fun hmem => .inr ⟨hsocket, hmem⟩, ?_⟩
      rintro (⟨hlevel, -⟩ | ⟨-, hmem⟩)
      · exact absurd hlevel hzero
      · exact hmem
    · rw [if_neg hsocket]
      refine iff_of_false (fun ⟨_, hanswered⟩ => nomatch hanswered) ?_
      rintro (⟨hlevel, -⟩ | ⟨hlevel, -⟩)
      · exact hzero hlevel
      · exact hsocket hlevel

/-- `getsockopt`. -/
theorem wyseGetsockopt_agrees_iff (maps : SocketMaps)
    (level optname len : BitVec 32) :
    (wyseGetsockopt maps level optname len).Agrees
      (abiDoGetsockopt maps level optname len) ↔
      ¬ FallsThrough level optname ∧
        (len = 0 → AlwaysAnswered maps level optname) := by
  rw [wyseGetsockopt]
  by_cases hlen : len = 0
  · subst hlen
    rw [if_pos rfl, ← abiDoGetsockopt_zero_iff]
    constructor
    · intro hagrees
      cases hdecision : abiDoGetsockopt maps level optname 0 with
      | answered answer =>
        refine ⟨fun hthrough => ?_, fun _ => ⟨answer, rfl⟩⟩
        obtain ⟨optname', hrequest⟩ :=
          abiOption_of_fallsThrough maps hthrough
            (abiFakedGetsockopt · 0)
        exact nomatch hdecision.symm.trans hrequest
      | request =>
        rw [hdecision] at hagrees
        exact hagrees.elim
    · rintro ⟨-, hanswered⟩
      obtain ⟨answer, hdecision⟩ := hanswered rfl
      rw [hdecision]
      trivial
  · rw [if_neg hlen]
    constructor
    · exact fun hagrees =>
        ⟨fun hthrough => not_wyseOption_agrees hthrough hagrees,
          fun hzero => absurd hzero hlen⟩
    · rintro ⟨hthrough, -⟩
      exact wyseOption_agrees hthrough (isSome_fakedGetsockopt · len)

/-- `socket`. -/
theorem wyseSocket_agrees_iff (maps : SocketMaps)
    (family type protocol : BitVec 32) :
    wyseSocketRequest maps family type protocol =
      socksysSocketRequest maps family type protocol ↔
      mapInt maps.socktype (mapInt maps.af family) =
        mapInt maps.socktype type := by
  rw [wyseSocketRequest, socksysSocketRequest, SocketRequest.mk.injEq]
  exact ⟨fun hsame => hsame.2.1, fun htype => ⟨rfl, htype, rfl⟩⟩

/-- When the socket calls of Wyse are those of SVR4. -/
theorem wyseSockets_agree_iff (maps : SocketMaps)
    (family type protocol level optname len : BitVec 32) :
    (wyseSocketRequest maps family type protocol =
      socksysSocketRequest maps family type protocol ↔
      mapInt maps.socktype (mapInt maps.af family) =
        mapInt maps.socktype type) ∧
    ((wyseSetsockopt maps level optname len).Agrees
      (abiDoSetsockopt maps level optname len) ↔
      ¬ FallsThrough level optname) ∧
    ((wyseGetsockopt maps level optname len).Agrees
      (abiDoGetsockopt maps level optname len) ↔
      ¬ FallsThrough level optname ∧
        (len = 0 → AlwaysAnswered maps level optname)) :=
  ⟨wyseSocket_agrees_iff maps family type protocol,
    wyseSetsockopt_agrees_iff maps level optname len,
    wyseGetsockopt_agrees_iff maps level optname len⟩

/-- `socket(AF_INET, SOCK_STREAM, 0)` without maps, for which Wyse asks for the type
2, which is that of datagrams. -/
theorem wyse_stream_socket :
    ¬ ∀ (maps : SocketMaps)
      (family type protocol level optname len : BitVec 32),
      wyseSocketRequest maps family type protocol =
        socksysSocketRequest maps family type protocol ∧
      (wyseSetsockopt maps level optname len).Agrees
        (abiDoSetsockopt maps level optname len) ∧
      (wyseGetsockopt maps level optname len).Agrees
        (abiDoGetsockopt maps level optname len) := by
  intro hall
  obtain ⟨hsocket, -⟩ := hall ⟨none, none, none⟩ 2 1 0 6 1 4
  exact absurd hsocket (by decide)

end IbcsUs.Sockets
