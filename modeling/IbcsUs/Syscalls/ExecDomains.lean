import Mathlib.Data.Nat.Bitwise
import IbcsUs.Core.Refinement
import IbcsUs.Core.Walks

/-!
# The list of execution domains

An execution domain is registered in a list that is linked through its own `next` field, at
the front, and unregistered by a walk with a pointer to the link.  Over any run of
registrations the emulator answers as a list of domains would, and a personality selects
the domain that was registered last among those for it.
-/

namespace IbcsUs.ExecDomains

open IbcsUs.Core IbcsUs.Refinement

/-- The personalities of a `struct exec_domain`. -/
structure ExecDomain where
  persLow : ℕ
  persHigh : ℕ

/-- `PER_MASK`. -/
def perMask : ℕ := 0x00ff

/-- `personality`. -/
def personality (pers : ℕ) : ℕ := pers &&& perMask

def ExecDomain.Covers (domain : ExecDomain) (pers : ℕ) : Prop :=
  domain.persLow ≤ pers ∧ pers ≤ domain.persHigh

instance (domain : ExecDomain) (pers : ℕ) : Decidable (domain.Covers pers) :=
  inferInstanceAs (Decidable (_ ∧ _))

/-- `exec_domains`, and the `next` field of the domain at each address. -/
structure Registry where
  next : ℕ → ℕ
  execDomains : ℕ

/-- Before any domain is registered. -/
def Registry.start : Registry := ⟨fun _ => 0, 0⟩

/-- The walk of `lookup_exec_domain` from `ep` on, `none` when it does not end. -/
def lookupFrom (domains : ℕ → ExecDomain) (next : ℕ → ℕ) (pers : ℕ) : ℕ → ℕ → Option ℕ
  | 0, _ => none
  | fuel + 1, ep =>
      if ep = 0 then some 0
      else if (domains ep).Covers pers then some ep
      else lookupFrom domains next pers fuel (next ep)

def lookupExecDomain (domains : ℕ → ExecDomain) (fuel : ℕ) (registry : Registry) (pers : ℕ) :
    Option ℕ :=
  lookupFrom domains registry.next (personality pers) fuel registry.execDomains

/-- The walk of `register_exec_domain`: whether it meets `ep`. -/
def meetsFrom (next : ℕ → ℕ) (ep : ℕ) : ℕ → ℕ → Option Bool
  | 0, _ => none
  | fuel + 1, tmp =>
      if tmp = 0 then some false
      else if tmp = ep then some true
      else meetsFrom next ep fuel (next tmp)

/-- `register_exec_domain`, with its result. -/
def registerExecDomain (fuel : ℕ) (registry : Registry) (ep : ℕ) : Option (Registry × ℤ) :=
  if ep = 0 then some (registry, -22)
  else if registry.next ep ≠ 0 then some (registry, -16)
  else
    match meetsFrom registry.next ep fuel registry.execDomains with
    | none => none
    | some true => some (registry, -16)
    | some false =>
        some (⟨Function.update registry.next ep registry.execDomains, ep⟩, 0)

/-- A pointer to a link: to the start of the list, or to the field of a domain. -/
inductive Link where
  | head
  | behind (ep : ℕ)

def Registry.follow (registry : Registry) : Link → ℕ
  | .head => registry.execDomains
  | .behind ep => registry.next ep

def Registry.write (registry : Registry) (target : ℕ) : Link → Registry
  | .head => { registry with execDomains := target }
  | .behind ep => { registry with next := Function.update registry.next ep target }

/-- The walk of `unregister_exec_domain`: the link that points to `ep`, if there is one. -/
def linkFrom (registry : Registry) (ep : ℕ) : ℕ → Link → Option (Option Link)
  | 0, _ => none
  | fuel + 1, epp =>
      if registry.follow epp = ep then some (some epp)
      else if registry.follow epp = 0 then some none
      else linkFrom registry ep fuel (.behind (registry.follow epp))

/-- `unregister_exec_domain`; a null pointer is found at the end of the list, and then
followed. -/
def unregisterExecDomain (fuel : ℕ) (registry : Registry) (ep : ℕ) : Option (Registry × ℤ) :=
  match linkFrom registry ep fuel .head with
  | none => none
  | some none => some (registry, -22)
  | some (some epp) =>
      if ep = 0 then none
      else
        let registry := registry.write (registry.next ep) epp
        some ({ registry with next := Function.update registry.next ep 0 }, 0)

/-- The calls, with the domain that `set_personality` puts into the task as its answer. -/
inductive DomainCall where
  | register (ep : ℕ)
  | unregister (ep : ℕ)
  | setPersonality (pers : ℕ)

def domainStep (domains : ℕ → ExecDomain) (fuel : ℕ) (registry : Registry) :
    DomainCall → Option (Registry × ℤ)
  | .register ep => registerExecDomain fuel registry ep
  | .unregister ep => unregisterExecDomain fuel registry ep
  | .setPersonality pers =>
      (lookupExecDomain domains fuel registry pers).map fun ep => (registry, (ep : ℤ))

/-! ## What the list is for -/

/-- The domains that are registered, the last one first. -/
def specStep (domains : ℕ → ExecDomain) (registered : List ℕ) : DomainCall → List ℕ × ℤ
  | .register ep =>
      if ep = 0 then (registered, -22)
      else if ep ∈ registered then (registered, -16)
      else (ep :: registered, 0)
  | .unregister ep => if ep ∈ registered then (registered.erase ep, 0) else (registered, -22)
  | .setPersonality pers =>
      (registered,
        (((registered.find? fun ep => decide ((domains ep).Covers (personality pers))).getD 0 :
          ℕ) : ℤ))

/-- The call does not unregister a null pointer, and the walks end. -/
def DomainMeets (fuel : ℕ) (registered : List ℕ) (call : DomainCall) : Prop :=
  registered.length < fuel ∧
    match call with
    | .unregister ep => ep ≠ 0
    | _ => True

/-- The links hold the registered domains, and those of any other one are null. -/
structure Holds (registry : Registry) (registered : List ℕ) : Prop where
  walks : Walks registry.next 0 registry.execDomains registered
  others : ∀ ep, ep ∉ registered → registry.next ep = 0

section Walk

variable {domains : ℕ → ExecDomain} {fuel first ep pers : ℕ} {next : ℕ → ℕ}
variable {registered : List ℕ} {registry : Registry}

theorem lookupFrom_eq (hwalk : Walks next 0 first registered) (hfuel : registered.length < fuel) :
    lookupFrom domains next pers fuel first =
      some ((registered.find? fun ep => decide ((domains ep).Covers pers)).getD 0) := by
  induction registered generalizing first fuel with
  | nil =>
      obtain ⟨fuel, rfl⟩ := Nat.exists_eq_succ_of_ne_zero (Nat.ne_of_gt hfuel)
      rw [lookupFrom, if_pos (Walks.nil_iff.mp hwalk)]
      rfl
  | cons head registered ih =>
      obtain ⟨rfl, hne, hrest⟩ := hwalk
      obtain ⟨fuel, rfl⟩ := Nat.exists_eq_succ_of_ne_zero (Nat.ne_of_gt (Nat.zero_lt_of_lt hfuel))
      rw [List.length_cons, Nat.succ_lt_succ_iff] at hfuel
      rw [lookupFrom, if_neg hne, List.find?_cons]
      by_cases hcovers : (domains first).Covers pers
      · rw [if_pos hcovers, decide_eq_true hcovers]
        rfl
      · rw [if_neg hcovers, decide_eq_false hcovers]
        exact ih hrest hfuel

theorem meetsFrom_eq (hwalk : Walks next 0 first registered) (hfuel : registered.length < fuel) :
    meetsFrom next ep fuel first = some (decide (ep ∈ registered)) := by
  induction registered generalizing first fuel with
  | nil =>
      obtain ⟨fuel, rfl⟩ := Nat.exists_eq_succ_of_ne_zero (Nat.ne_of_gt hfuel)
      rw [meetsFrom, if_pos (Walks.nil_iff.mp hwalk)]
      rfl
  | cons head registered ih =>
      obtain ⟨rfl, hne, hrest⟩ := hwalk
      obtain ⟨fuel, rfl⟩ := Nat.exists_eq_succ_of_ne_zero (Nat.ne_of_gt (Nat.zero_lt_of_lt hfuel))
      rw [List.length_cons, Nat.succ_lt_succ_iff] at hfuel
      rw [meetsFrom, if_neg hne]
      by_cases hsame : first = ep
      · rw [if_pos hsame, hsame, decide_eq_true List.mem_cons_self]
      · rw [if_neg hsame, ih hrest hfuel]
        congr 2
        rw [List.mem_cons, or_iff_right (Ne.symm hsame)]

/-- The link before an entry of the list. -/
theorem linkFrom_of_mem {front back : List ℕ} {epp : Link}
    (hwalk : Walks registry.next 0 (registry.follow epp) (front ++ ep :: back))
    (hout : ep ∉ front) (hfuel : front.length < fuel) :
    ∃ link, linkFrom registry ep fuel epp = some (some link) ∧
      ((front = [] ∧ link = epp) ∨ ∃ init before, front = init ++ [before] ∧
        link = .behind before) := by
  induction front generalizing epp fuel with
  | nil =>
      obtain ⟨fuel, rfl⟩ := Nat.exists_eq_succ_of_ne_zero (Nat.ne_of_gt hfuel)
      refine ⟨epp, ?_, .inl ⟨rfl, rfl⟩⟩
      rw [linkFrom, if_pos hwalk.1]
  | cons head front ih =>
      obtain ⟨hfirst, hne, hrest⟩ := hwalk
      obtain ⟨fuel, rfl⟩ := Nat.exists_eq_succ_of_ne_zero (Nat.ne_of_gt (Nat.zero_lt_of_lt hfuel))
      rw [List.length_cons, Nat.succ_lt_succ_iff] at hfuel
      rw [List.mem_cons, not_or] at hout
      have hhead : registry.follow epp ≠ ep := hfirst ▸ Ne.symm hout.1
      obtain ⟨link, hlink, hplace⟩ :=
        @ih fuel (.behind (registry.follow epp)) (hfirst ▸ hrest) hout.2 hfuel
      refine ⟨link, ?_, .inr ?_⟩
      · rw [linkFrom, if_neg hhead, if_neg (hfirst ▸ hne)]
        exact hlink
      · rcases hplace with ⟨rfl, rfl⟩ | ⟨init, before, rfl, rfl⟩
        · exact ⟨[], head, rfl, congrArg _ hfirst⟩
        · exact ⟨head :: init, before, rfl, rfl⟩

theorem linkFrom_of_notMem {epp : Link} (hwalk : Walks registry.next 0 (registry.follow epp)
    registered) (hout : ep ∉ registered) (hne : ep ≠ 0) (hfuel : registered.length < fuel) :
    linkFrom registry ep fuel epp = some none := by
  induction registered generalizing epp fuel with
  | nil =>
      obtain ⟨fuel, rfl⟩ := Nat.exists_eq_succ_of_ne_zero (Nat.ne_of_gt hfuel)
      rw [Walks.nil_iff] at hwalk
      rw [linkFrom, if_neg (hwalk ▸ Ne.symm hne), if_pos hwalk]
  | cons head registered ih =>
      obtain ⟨hfirst, hstop, hrest⟩ := hwalk
      obtain ⟨fuel, rfl⟩ := Nat.exists_eq_succ_of_ne_zero (Nat.ne_of_gt (Nat.zero_lt_of_lt hfuel))
      rw [List.length_cons, Nat.succ_lt_succ_iff] at hfuel
      rw [List.mem_cons, not_or] at hout
      rw [linkFrom, if_neg (hfirst ▸ Ne.symm hout.1), if_neg (hfirst ▸ hstop)]
      exact ih (hfirst ▸ hrest) hout.2 hfuel

end Walk

/-! ## One call -/

section Calls

variable {domains : ℕ → ExecDomain} {fuel ep : ℕ} {registered : List ℕ} {registry : Registry}

theorem holds_start : Holds Registry.start [] := ⟨rfl, fun _ _ => rfl⟩

theorem Holds.register (hholds : Holds registry registered) (hne : ep ≠ 0)
    (hout : ep ∉ registered) :
    Holds ⟨Function.update registry.next ep registry.execDomains, ep⟩ (ep :: registered) := by
  refine ⟨hholds.walks.push hne hout, fun other hother => ?_⟩
  rw [List.mem_cons, not_or] at hother
  exact (Function.update_of_ne hother.1 _ _).trans (hholds.others other hother.2)

theorem registerExecDomain_eq (hholds : Holds registry registered)
    (hfuel : registered.length < fuel) (ep : ℕ) :
    ∃ after, registerExecDomain fuel registry ep =
        some (after, (specStep domains registered (.register ep)).2) ∧
      Holds after (specStep domains registered (.register ep)).1 := by
  rw [registerExecDomain, specStep]
  by_cases hnull : ep = 0
  · rw [if_pos hnull, if_pos hnull]
    exact ⟨registry, rfl, hholds⟩
  rw [if_neg hnull, if_neg hnull, meetsFrom_eq hholds.walks hfuel]
  by_cases hmem : ep ∈ registered
  · rw [if_pos hmem, decide_eq_true hmem, ite_self]
    exact ⟨registry, rfl, hholds⟩
  · rw [if_neg hmem, decide_eq_false hmem, if_neg (not_not.mpr (hholds.others ep hmem))]
    exact ⟨_, rfl, hholds.register hnull hmem⟩

theorem Holds.unregister {front back : List ℕ}
    (hholds : Holds registry (front ++ ep :: back)) {link : Link}
    (hlink : (front = [] ∧ link = .head) ∨ ∃ init before, front = init ++ [before] ∧
      link = .behind before) :
    Holds { registry.write (registry.next ep) link with
      next := Function.update (registry.write (registry.next ep) link).next ep 0 }
      (front ++ back) := by
  have hnodup := hholds.walks.nodup
  have hout : ep ∉ front ++ back := (List.nodup_middle.mp hnodup |> List.nodup_cons.mp).1
  have hrest : Walks (registry.write (registry.next ep) link).next 0
      (registry.write (registry.next ep) link).execDomains (front ++ back) := by
    rcases hlink with ⟨rfl, rfl⟩ | ⟨init, before, rfl, rfl⟩
    · obtain ⟨-, -, hwalk⟩ := hholds.walks
      exact hwalk
    · have hwalk := hholds.walks
      rw [List.append_assoc, List.singleton_append] at hwalk ⊢
      exact hwalk.bypass
  refine ⟨hrest.update hout, fun other hother => ?_⟩
  by_cases hsame : other = ep
  · rw [hsame]
    exact Function.update_self _ _ _
  · refine (Function.update_of_ne hsame _ _).trans ?_
    have hothers := hholds.others other fun hmem => hother (by
      rw [List.mem_append, List.mem_cons] at hmem
      rw [List.mem_append]
      rcases hmem with hmem | heq | hmem
      · exact .inl hmem
      · exact absurd heq hsame
      · exact .inr hmem)
    rcases hlink with ⟨-, rfl⟩ | ⟨init, before, rfl, rfl⟩
    · exact hothers
    · have hbefore : other ≠ before := by
        rintro rfl
        exact hother (by simp)
      exact (Function.update_of_ne hbefore _ _).trans hothers

theorem unregisterExecDomain_eq (hholds : Holds registry registered)
    (hfuel : registered.length < fuel) (hne : ep ≠ 0) :
    ∃ after, unregisterExecDomain fuel registry ep =
        some (after, (specStep domains registered (.unregister ep)).2) ∧
      Holds after (specStep domains registered (.unregister ep)).1 := by
  rw [unregisterExecDomain, specStep]
  by_cases hmem : ep ∈ registered
  · obtain ⟨front, back, rfl⟩ := List.append_of_mem hmem
    have hfront : ep ∉ front := fun h =>
      (List.nodup_cons.mp (List.nodup_middle.mp hholds.walks.nodup)).1
        (List.mem_append_left _ h)
    have hshort : front.length < fuel := by
      rw [List.length_append] at hfuel
      omega
    obtain ⟨link, hlink, hplace⟩ :=
      @linkFrom_of_mem fuel ep registry front back .head hholds.walks hfront hshort
    rw [hlink, if_pos hmem, List.erase_append_right _ hfront, List.erase_cons_head]
    dsimp only
    rw [if_neg hne]
    exact ⟨_, rfl, hholds.unregister hplace⟩
  · have hlink := @linkFrom_of_notMem fuel ep registered registry .head hholds.walks hmem hne hfuel
    rw [hlink, if_neg hmem]
    exact ⟨registry, rfl, hholds⟩

/-- A null pointer is found at the end of the list if at all. -/
theorem linkFrom_null (registry : Registry) (fuel : ℕ) (epp : Link) :
    linkFrom registry 0 fuel epp ≠ some none := by
  induction fuel generalizing epp with
  | zero => simp [linkFrom]
  | succ fuel ih =>
      rw [linkFrom]
      split_ifs with hend
      · simp
      · exact ih _

/-- Unregistering a null pointer follows it, whatever is registered. -/
theorem unregister_null (registry : Registry) (fuel : ℕ) :
    unregisterExecDomain fuel registry 0 = none := by
  have hlink := linkFrom_null registry fuel .head
  rw [unregisterExecDomain]
  split
  · rfl
  · next heq => exact absurd heq hlink
  · rfl

/-- Every call is answered as the list of domains answers it. -/
theorem simulates_domains (domains : ℕ → ExecDomain) (fuel : ℕ) :
    Simulates (domainStep domains fuel) (specStep domains) (DomainMeets fuel) Holds := by
  intro registry registered call hholds hmeets
  obtain ⟨hfuel, hcall⟩ := hmeets
  cases call with
  | register ep => exact registerExecDomain_eq hholds hfuel ep
  | unregister ep => exact unregisterExecDomain_eq hholds hfuel hcall
  | setPersonality pers =>
      refine ⟨registry, ?_, hholds⟩
      rw [domainStep, lookupExecDomain, lookupFrom_eq hholds.walks hfuel]
      rfl

/-- A call adds one domain at most. -/
theorem length_specStep (registered : List ℕ) (call : DomainCall) :
    (specStep domains registered call).1.length ≤ registered.length + 1 := by
  cases call with
  | register ep =>
      rw [specStep]
      split_ifs
      · exact Nat.le_succ _
      · exact Nat.le_succ _
      · exact le_rfl
  | unregister ep =>
      rw [specStep]
      split_ifs
      · exact List.length_erase_le.trans (Nat.le_succ _)
      · exact Nat.le_succ _
  | setPersonality pers => exact Nat.le_succ _

theorem ready_domains {calls : List DomainCall} (hfuel : registered.length + calls.length < fuel)
    (hnull : DomainCall.unregister 0 ∉ calls) :
    Ready (specStep domains) (DomainMeets fuel) registered calls := by
  induction calls generalizing registered with
  | nil => trivial
  | cons call calls ih =>
      rw [List.mem_cons, not_or] at hnull
      rw [List.length_cons] at hfuel
      have hlength := @length_specStep domains registered call
      refine ⟨⟨by omega, ?_⟩, ih (by omega) hnull.2⟩
      cases call with
      | register ep => trivial
      | unregister ep => exact fun heq => hnull.1 (congrArg _ heq.symm)
      | setPersonality pers => trivial

end Calls

/-! ## Any run of calls -/

/-- Any run of registrations and lookups that does not unregister a null pointer is answered
as the list of registered domains answers it, which the links then hold; no walk goes on
without an end. -/
theorem execDomains_serve (domains : ℕ → ExecDomain) (calls : List DomainCall) (fuel : ℕ)
    (hfuel : calls.length < fuel) (hnull : DomainCall.unregister 0 ∉ calls) :
    ∃ final, serve (domainStep domains fuel) Registry.start calls =
        some (final, (serveSpec (specStep domains) [] calls).2) ∧
      Holds final (serveSpec (specStep domains) [] calls).1 :=
  (simulates_domains domains fuel).serve_eq holds_start
    (ready_domains (by rw [List.length_nil, Nat.zero_add]; exact hfuel) hnull)

/-- Two domains for the same personalities: the later one is found, then the earlier one. -/
theorem execDomains_serve_two :
    ∃ final, serve (domainStep (fun _ => ⟨3, 5⟩) 6) Registry.start
        [.register 8, .register 16, .setPersonality 0x104, .unregister 16, .setPersonality 4] =
        some (final, [0, 0, 16, 0, 8]) ∧ Holds final [8] :=
  execDomains_serve (fun _ => ⟨3, 5⟩) [.register 8, .register 16, .setPersonality 0x104,
    .unregister 16, .setPersonality 4] 6 (by decide) (by simp)

end IbcsUs.ExecDomains
