import Mathlib.Data.List.Pairwise
import IbcsUs.Loaders.Xout

/-!
# The image of an x.out file

A file that is loaded in the second way has its bytes in memory, unless a
segment without a memory image is read over one that has one.  A file that is
loaded in the first way has only zeros in memory.
-/

namespace IbcsUs.Loaders

open IbcsUs.Addresses IbcsUs.Memory

/-- The text and data segments that have a memory image. -/
def imageSegments (file : Image) : List Xseg :=
  (inMemory (seglist file)).filter fun sp => sp.IsTextOrData

/-- What the segment says is at an offset of it. -/
def Xseg.byte (sp : Xseg) (file : Image) (offset : ℕ) : UInt8 :=
  if offset < sp.xsPsize then file (sp.xsFilpos + offset) else 0

/-- Memory holds every segment. -/
def XoutImageRight (file : Image) (space : Space UInt8) : Prop :=
  ∀ sp ∈ imageSegments file, ∀ offset < sp.xsVsize,
    space (sp.xsRbase + offset) = some (sp.byte file offset)

/-- The last segment of a list that is read over an address. -/
def lastRead : List Xseg → ℕ → Option Xseg
  | [], _ => none
  | sp :: segs, address =>
      (lastRead segs address).or
        (if sp.IsRead ∧ InRange sp.xsRbase sp.xsPsize address then some sp
        else none)

/-- Where a segment without a memory image is the last to be read over one that
has one, it brings the byte that is to be there. -/
def ReadsAgree (file : Image) : Prop :=
  ∀ sp ∈ imageSegments file, ∀ offset < sp.xsVsize,
    ∀ other, lastRead (seglist file) (sp.xsRbase + offset) = some other →
      ¬ other.InMemory →
        other.byte file (sp.xsRbase + offset - other.xsRbase) =
          sp.byte file offset

/-- The files that `xout_load_object` loads as they say. -/
def XoutMeets (file : Image) : Prop :=
  if ndata (seglist file) = 0 then ∀ sp ∈ imageSegments file, sp.xsVsize = 0
  else if xoutPageable (seglist file) then
    ∀ sp ∈ imageSegments file, ∀ offset < sp.xsPsize,
      file (sp.xsFilpos + offset) = 0
  else ReadsAgree file

/-- The sizes that a segment with a memory image is to have. -/
def SizesOk (file : Image) : Prop :=
  ∀ sp ∈ imageSegments file,
    sp.xsPsize ≤ sp.xsVsize ∧ sp.xsVsize < 2 ^ 31

/-- No address is in two ranges. -/
def Xseg.DisjointFrom (sp other : Xseg) : Prop :=
  ∀ address, InRange sp.xsRbase sp.xsVsize address →
    ¬ InRange other.xsRbase other.xsVsize address

variable {kernel : Kernel} {state after : LoadState} {sp : Xseg}
  {pageable : Bool} {segs : List Xseg} {file : Image} {address : ℕ}

section Mappings

theorem isSome_mapPieces {pieces : List (ℕ × ℕ)} :
    ((state.mapPieces pieces).space address).isSome ↔
      (state.space address).isSome ∨
        ∃ piece ∈ pieces, InRange piece.1 (pageAlign piece.2) address := by
  induction pieces generalizing state with
  | nil => simp [LoadState.mapPieces]
  | cons piece pieces ih =>
      have hstep : state.mapPieces (piece :: pieces) =
          (state.mapped none piece.1 piece.2 0).mapPieces pieces := rfl
      rw [hstep, ih, LoadState.mapped, isSome_mapRange,
        List.exists_mem_cons_iff,
        or_comm (b := (state.space address).isSome = true), or_assoc]

theorem isSome_amenAll :
    ((state.amenAll pageable segs).space address).isSome ↔
      (state.space address).isSome ∨
        ∃ sp ∈ inMemory segs, ∃ piece ∈ sp.pieces pageable,
          InRange piece.1 (pageAlign piece.2) address := by
  simp only [LoadState.amenAll]
  induction inMemory segs generalizing state with
  | nil => simp
  | cons sp segs ih =>
      have hraised : (state.raised sp).space = state.space := rfl
      rw [List.foldl_cons, ih, LoadState.amen, isSome_mapPieces, hraised,
        List.exists_mem_cons_iff, or_assoc]

theorem amenAll_constant (hconstant : Constant state.space 0) :
    Constant (state.amenAll pageable segs).space 0 := by
  simp only [LoadState.amenAll]
  induction inMemory segs generalizing state with
  | nil => exact hconstant
  | cons sp segs ih => exact ih (LoadState.amen_constant hconstant pageable sp)

/-- The fields of a segment are words. -/
structure Xseg.Words (sp : Xseg) : Prop where
  psize_lt : sp.xsPsize < 2 ^ 32
  vsize_lt : sp.xsVsize < 2 ^ 32
  rbase_lt : sp.xsRbase < 2 ^ 32

theorem words_of_mem (hmem : sp ∈ seglist file) : sp.Words := by
  obtain ⟨index, -, rfl⟩ := List.mem_map.1 hmem
  exact ⟨le32_lt _ _, le32_lt _ _, le32_lt _ _⟩

/-- The pages of a piece hold it. -/
theorem inRange_pages {piece : ℕ × ℕ} (hpiece : PieceOk kernel piece)
    (hword : piece.2 < 2 ^ 32) (hin : InRange piece.1 piece.2 address) :
    InRange piece.1 (pageAlign piece.2) address := by
  have hlen := le_pageAlign hpiece.1.2.2.1 hword
  exact ⟨hin.1, hin.2.trans_le (Nat.add_le_add_left hlen _)⟩

/-- A segment that is mapped from the file is one piece, or two, of which the
second ends where the segment does. -/
theorem pieces_cases (hwords : sp.Words)
    (hfirst : PieceOk kernel (sp.xsRbase, sp.xsPsize)) :
    (sp.xsVsize = sp.xsPsize ∧
      sp.pieces true = [(sp.xsRbase, sp.xsPsize)]) ∨
    ∃ start len, sp.pieces true = [(sp.xsRbase, sp.xsPsize), (start, len)] ∧
      sp.xsRbase + sp.xsPsize ≤ start ∧
      start ≤ sp.xsRbase + pageAlign sp.xsPsize ∧
      len < 2 ^ 32 ∧ (start + len) % 2 ^ 32 = sp.limit := by
  have hpsize := hwords.psize_lt
  have hvsize := hwords.vsize_lt
  have hend : sp.xsRbase + sp.xsPsize ≤ 2 ^ 32 - 8192 :=
    hfirst.1.end_le hpsize
  have haligned : sp.xsRbase % 4096 = 0 := hfirst.1.2.1
  have hpages : sp.xsPsize ≤ pageAlign sp.xsPsize :=
    le_pageAlign hfirst.1.2.2.1 hpsize
  have hbase : wordAdd sp.xsRbase sp.xsPsize = sp.xsRbase + sp.xsPsize :=
    Nat.mod_eq_of_lt (by omega)
  have hnext : pageAlign (sp.xsRbase + sp.xsPsize) =
      sp.xsRbase + pageAlign sp.xsPsize := by
    simp only [pageAlign, pageMask, wordAdd] at *
    omega
  simp only [Xseg.pieces, if_true, hbase, hnext, Xseg.limit]
  by_cases hbss : wordSub sp.xsVsize sp.xsPsize = 0
  · refine .inl ⟨?_, by rw [if_pos hbss]⟩
    simp only [wordSub] at hbss
    omega
  rw [if_neg hbss]
  right
  by_cases hmask : pageMask (sp.xsRbase + sp.xsPsize) = 0
  · rw [if_neg (not_not.2 hmask)]
    refine ⟨_, _, rfl, le_rfl, by omega, ?_, ?_⟩
    all_goals
      simp only [wordSub, wordAdd]
      omega
  · rw [if_pos hmask]
    refine ⟨_, _, rfl, by omega, le_rfl, ?_, ?_⟩
    all_goals
      simp only [wordSub, wordAdd]
      omega

/-- The pieces of a segment cover it. -/
theorem exists_piece (hwords : sp.Words)
    (hpieces : ∀ piece ∈ sp.pieces pageable, PieceOk kernel piece)
    (hin : InRange sp.xsRbase sp.xsVsize address) :
    ∃ piece ∈ sp.pieces pageable,
      InRange piece.1 (pageAlign piece.2) address := by
  cases pageable with
  | false =>
      have hmem : (sp.xsRbase, sp.xsVsize) ∈ sp.pieces false := by
        simp [Xseg.pieces]
      exact ⟨_, hmem, inRange_pages (hpieces _ hmem) hwords.vsize_lt hin⟩
  | true =>
      have hmem : (sp.xsRbase, sp.xsPsize) ∈ sp.pieces true := by
        simp [Xseg.pieces]
      have hfirst := hpieces _ hmem
      by_cases hpages : InRange sp.xsRbase (pageAlign sp.xsPsize) address
      · exact ⟨_, hmem, hpages⟩
      obtain ⟨hsizes, -⟩ | ⟨start, len, hlist, hlow, hhigh, hlen, hlimit⟩ :=
        pieces_cases hwords hfirst
      · rw [hsizes] at hin
        exact absurd (inRange_pages hfirst hwords.psize_lt hin) hpages
      · have hsecond := hpieces (start, len) (by simp [hlist])
        refine ⟨(start, len), by simp [hlist], inRange_pages hsecond hlen ?_⟩
        have hend := hsecond.1.end_le hlen
        have hrbase := hwords.rbase_lt
        have hvsize := hwords.vsize_lt
        simp only [InRange, taskSize, Xseg.limit, wordAdd] at *
        omega

/-- All of a segment is mapped once its pieces are. -/
theorem isSome_amenAll_of_mem (hmem : sp ∈ inMemory segs) (hwords : sp.Words)
    (hpieces : ∀ piece ∈ sp.pieces pageable, PieceOk kernel piece)
    (hin : InRange sp.xsRbase sp.xsVsize address) :
    ((state.amenAll pageable segs).space address).isSome :=
  isSome_amenAll.2 (.inr ⟨sp, hmem, exists_piece hwords hpieces hin⟩)

end Mappings

section Reads

theorem readSegments_eq_ok (hread : readSegments file segs state = .ok after) :
    after.mm = state.mm ∧ ∀ address, after.space address =
      (lastRead segs address).elim (state.space address) fun sp =>
        some (sp.byte file (address - sp.xsRbase)) := by
  induction segs generalizing state with
  | nil =>
      obtain rfl := Except.ok.inj hread
      exact ⟨rfl, fun _ => rfl⟩
  | cons sp segs ih =>
      simp only [readSegments] at hread
      split at hread
      · next hsp =>
        split at hread
        · nomatch hread
        · next hwhole =>
          obtain ⟨hmm, hspace⟩ := ih hread
          refine ⟨hmm, fun address => ?_⟩
          rw [hspace address, lastRead]
          cases lastRead segs address with
          | some last => rfl
          | none =>
              simp only [Option.elim_none, Option.none_or]
              rw [fileRead_whole hsp.2 (not_not.1 hwhole)]
              by_cases hin : InRange sp.xsRbase sp.xsPsize address
              · have hoffset : address - sp.xsRbase < sp.xsPsize :=
                  Nat.sub_lt_left_of_lt_add hin.1 hin.2
                rw [mapRange_inside hin, if_pos ⟨hsp, hin⟩, Option.elim_some,
                  Xseg.byte, if_pos hoffset]
              · rw [mapRange_outside hin, if_neg fun hboth => hin hboth.2,
                  Option.elim_none]
      · next hsp =>
        obtain ⟨hmm, hspace⟩ := ih hread
        refine ⟨hmm, fun address => ?_⟩
        rw [hspace address, lastRead, if_neg fun hboth => hsp hboth.1,
          Option.or_none]

theorem lastRead_spec {last : Xseg}
    (hlast : lastRead segs address = some last) :
    last ∈ segs ∧ last.IsRead ∧
      InRange last.xsRbase last.xsPsize address := by
  induction segs with
  | nil => nomatch hlast
  | cons sp segs ih =>
      rw [lastRead, Option.or_eq_some_iff] at hlast
      obtain hlater | ⟨-, hfirst⟩ := hlast
      · obtain ⟨hmem, hrest⟩ := ih hlater
        exact ⟨List.mem_cons_of_mem sp hmem, hrest⟩
      · obtain ⟨hcovers, hsp⟩ := Option.ite_none_right_eq_some.1 hfirst
        obtain rfl := Option.some.inj hsp
        exact ⟨List.mem_cons_self, hcovers⟩

/-- A segment that is read over an address is not missed. -/
theorem lastRead_ne_none (hmem : sp ∈ segs) (hread : sp.IsRead)
    (hin : InRange sp.xsRbase sp.xsPsize address) :
    lastRead segs address ≠ none := by
  induction segs with
  | nil => nomatch hmem
  | cons first segs ih =>
      rw [lastRead, Ne, Option.or_eq_none_iff]
      rintro ⟨hlater, hfirst⟩
      obtain rfl | hmem := List.mem_cons.1 hmem
      · rw [if_pos ⟨hread, hin⟩] at hfirst
        nomatch hfirst
      · exact ih hmem hlater

end Reads

section Images

theorem mem_imageSegments : sp ∈ imageSegments file ↔
    sp ∈ seglist file ∧ sp.InMemory ∧ sp.IsTextOrData := by
  simp only [imageSegments, inMemory, List.mem_filter, decide_eq_true_eq,
    and_assoc]

theorem mem_inMemory (hmem : sp ∈ imageSegments file) :
    sp ∈ inMemory (seglist file) := List.mem_of_mem_filter hmem

theorem words_of_image (hmem : sp ∈ imageSegments file) : sp.Words :=
  words_of_mem (mem_imageSegments.1 hmem).1

instance : Std.Symm Xseg.DisjointFrom where
  symm _ _ hdisjoint address hother hsp := hdisjoint address hsp hother

/-- Two segments of a disjoint list that share an address are the same. -/
theorem eq_of_inRange {list : List Xseg} {other : Xseg}
    (hdisjoint : list.Pairwise Xseg.DisjointFrom)
    (hsp : sp ∈ list) (hother : other ∈ list)
    (hin : InRange sp.xsRbase sp.xsVsize address)
    (hin' : InRange other.xsRbase other.xsVsize address) : other = sp := by
  by_contra hne
  exact hdisjoint.forall hother hsp hne address hin' hin

/-- After the first scan there are zeros wherever a segment is. -/
theorem amenAll_image (hpieces : ∀ sp ∈ inMemory (seglist file),
      ∀ piece ∈ sp.pieces pageable, PieceOk kernel piece)
    (hmem : sp ∈ imageSegments file) {offset : ℕ}
    (hoffset : offset < sp.xsVsize) :
    ((xoutStart file).amenAll pageable (seglist file)).space
      (sp.xsRbase + offset) = some 0 := by
  refine (amenAll_constant (xoutStart_constant file)).eq_some ?_
  exact isSome_amenAll_of_mem (mem_inMemory hmem) (words_of_image hmem)
    (hpieces sp (mem_inMemory hmem))
    ⟨Nat.le_add_right _ _, Nat.add_lt_add_left hoffset _⟩

/-- Zeros are what the segments say just if their bytes in the file are zeros.
-/
theorem zeros_right_iff (hsizes : SizesOk file)
    {space : Space UInt8} (hzeros : ∀ sp ∈ imageSegments file,
      ∀ offset < sp.xsVsize, space (sp.xsRbase + offset) = some 0) :
    XoutImageRight file space ↔ ∀ sp ∈ imageSegments file,
      ∀ offset < sp.xsPsize, file (sp.xsFilpos + offset) = 0 := by
  refine forall₂_congr fun sp hmem => ?_
  constructor
  · intro hright offset hoffset
    have hvsize := hoffset.trans_le (hsizes sp hmem).1
    have hbyte := hright offset hvsize
    rw [hzeros sp hmem offset hvsize, Xseg.byte, if_pos hoffset] at hbyte
    exact (Option.some.inj hbyte).symm
  · intro hfile offset hoffset
    rw [hzeros sp hmem offset hoffset, Xseg.byte]
    split
    · next hpsize => rw [hfile offset hpsize]
    · rfl

/-- What is read over zeros is what the segments say just if no other segment is
in the way. -/
theorem reads_right_iff (hsizes : SizesOk file)
    (hdisjoint : (imageSegments file).Pairwise Xseg.DisjointFrom)
    {space : Space UInt8} (hspace : ∀ sp ∈ imageSegments file,
      ∀ offset < sp.xsVsize, space (sp.xsRbase + offset) =
        (lastRead (seglist file) (sp.xsRbase + offset)).elim (some 0)
          fun last => some
            (last.byte file (sp.xsRbase + offset - last.xsRbase))) :
    XoutImageRight file space ↔ ReadsAgree file := by
  refine forall₂_congr fun sp hmem => forall₂_congr fun offset hoffset => ?_
  have hin : InRange sp.xsRbase sp.xsVsize (sp.xsRbase + offset) :=
    ⟨Nat.le_add_right _ _, Nat.add_lt_add_left hoffset _⟩
  obtain ⟨hlisted, hmemory, htype⟩ := mem_imageSegments.1 hmem
  rw [hspace sp hmem offset hoffset]
  cases hlast : lastRead (seglist file) (sp.xsRbase + offset) with
  | none =>
      -- no byte of the file belongs here, else the segment itself were read
      have hrest : ¬ offset < sp.xsPsize := fun hpsize =>
        lastRead_ne_none hlisted
          ⟨htype, (hsizes sp hmem).1.trans_lt (hsizes sp hmem).2⟩
          ⟨Nat.le_add_right _ _, Nat.add_lt_add_left hpsize _⟩ hlast
      simp [Xseg.byte, hrest]
  | some last =>
      obtain ⟨hlastListed, hlastRead, hlastIn⟩ := lastRead_spec hlast
      simp only [Option.elim_some, Option.some.injEq, forall_eq']
      by_cases hlastMemory : last.InMemory
      · have hlastMem : last ∈ imageSegments file :=
          mem_imageSegments.2 ⟨hlastListed, hlastMemory, hlastRead.1⟩
        have hlastEnd := (hsizes last hlastMem).1
        have hsame : last = sp :=
          eq_of_inRange hdisjoint hmem hlastMem hin
            ⟨hlastIn.1, hlastIn.2.trans_le (Nat.add_le_add_left hlastEnd _)⟩
        subst hsame
        simp [hlastMemory]
      · simp [hlastMemory]

/-- A file with one data segment of one byte at 0x1000. -/
def smallXout (filpos : UInt8 × UInt8) : Image := fun pos =>
  if pos = 4096 then 0xc3
  else
    [0x06, 0x02, 44, 0, 0, 0, 0, 0, 1, 0, 0, 0, 0, 0, 0, 0,
      0, 0, 0, 0, 0, 0, 0, 0, 0, 0, 0, 0, 0x4a, 0, 0x01, 0x08,
      0, 0, 0, 0, 0, 0, 0, 0, 0, 0, 0, 0, 0, 0, 0, 0, 0, 0, 0, 0, 76, 0, 0, 0,
      32, 0, 0, 0, 0, 0, 0, 0, 0, 0, 0, 0, 0, 0, 0, 0, 0, 0, 0, 0,
      2, 0, 0x00, 0x80, 0, 0, 0, 0, filpos.1, filpos.2, 0, 0, 1, 0, 0, 0,
      1, 0, 0, 0, 0, 0x10, 0, 0, 0, 0, 0, 0, 0, 0, 0, 0].getD pos 0

end Images

end IbcsUs.Loaders
