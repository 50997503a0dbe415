import IbcsUs.Core.Strings

/-!
# Looking up a mount

`inode_to_path` goes through `/proc/mounts` for the mount of an inode.  It keeps
a piece of the file in a buffer, takes one line after the other from it and
splits the line into words; the loop ends when the device that was last stat'ed
is that of the inode.  After a refill and after a line that is passed over
`continue` goes to this very test, which the first time finds what the stack
held.
-/

namespace IbcsUs.Files

open IbcsUs.Strings

/-- The fields of `struct kstat` that `kstat_to_inode` copies. -/
structure Kstat where
  ino : BitVec 64
  dev : BitVec 32
  rdev : BitVec 32
  mode : BitVec 16
  deriving DecidableEq

/-- What `inode_to_path` works with: the results of `vfs_stat` and `statfs` for
a name, and the number of bytes each `read` would give. -/
structure MountWorld where
  vfsStat : List Char → Option Kstat
  statfs : List Char → ℤ
  split : ℕ → ℕ

/-- `sizeof(buf)`. -/
def mountBufSize : ℕ := 4096 * 3

/-- `-ENOENT`. -/
def noEntry : ℤ := -2

/-- The string in a piece of the buffer. -/
def cString (piece : List Char) : List Char := piece.takeWhile (· ≠ nul)

/-- `memchr`. -/
def memchr (piece : List Char) (letter : Char) : Option ℕ := piece.idxOf? letter

/-- `words[0]` to `words[count - 1]`, where the line has a space behind each. -/
def splitWords : ℕ → List Char → Option (List (List Char))
  | 0, _ => some []
  | count + 1, p =>
      match memchr p ' ' with
      | none => none
      | some space =>
          (splitWords count (p.drop (space + 1))).map fun words =>
            p.take space :: words

/-- `MS_RDONLY` in `s_flags` and `MNT_NOSUID` in `mnt_flags`. -/
structure MountFlags where
  rdonly : Bool
  nosuid : Bool
  deriving DecidableEq

def MountFlags.setOption (flags : MountFlags) (mntOpt : List Char) :
    MountFlags where
  rdonly := flags.rdonly || mntOpt = ['r', 'o']
  nosuid := flags.nosuid || mntOpt = ['n', 'o', 's', 'u', 'i', 'd']

/-- The loop over the mount options. -/
def scanOptions : List Char → MountFlags → MountFlags
  | [], flags => flags
  | c :: rest, flags =>
      match memchr (c :: rest) ',' with
      | none => flags.setOption (c :: rest)
      | some comma =>
          scanOptions ((c :: rest).drop (comma + 1))
            (flags.setOption ((c :: rest).take comma))
  termination_by mntOpt => mntOpt.length
  decreasing_by
    simp only [List.length_drop, List.length_cons]
    omega

/-- What `inode_to_path` fills in for the mount. -/
structure Mount where
  root : Kstat
  typeName : List Char
  flags : MountFlags
  deriving DecidableEq

inductive MountResult where
  | failed (errno : ℤ)
  | mounted (mount : Mount) (retval : ℤ)
  /-- The loop has ended with words that have not been set. -/
  | unset
  deriving DecidableEq

/-- The locals of the loop: the part of `buf` from `pos` on, what has not been
read of the file, the number of reads, and `sb_kstat`. -/
structure MountScan where
  pending : List Char
  unread : List Char
  reads : ℕ
  sbKstat : Kstat

section Loop

variable (world : MountWorld) (iDev : BitVec 32)

/-- The bytes that a `read` gives: at least one where there is one. -/
def mountReadSize (scan : MountScan) : ℕ :=
  min (max 1 (world.split scan.reads))
    (min (mountBufSize - scan.pending.length) scan.unread.length)

/-- The part of `inode_to_path` behind the loop. -/
def foundMount (sbKstat : Kstat) (words : List (List Char)) : MountResult :=
  match words with
  | [_, dir, type, options] =>
      .mounted
        { root := sbKstat
          typeName := (cString type).take 15
          flags := scanOptions (cString options) ⟨false, false⟩ }
        (world.statfs (cString dir))
  | _ => .unset

/-- The loop of `inode_to_path`, `none` when the fuel runs out. -/
def mountLoop : ℕ → MountScan → Option MountResult
  | 0, _ => none
  | fuel + 1, scan =>
      match memchr scan.pending '\n' with
      | none =>
          if scan.pending.length = mountBufSize then some (.failed noEntry)
          else
            let got := mountReadSize world scan
            if got = 0 then some (.failed noEntry)
            else
              let scan :=
                { scan with
                  pending := scan.pending ++ scan.unread.take got
                  unread := scan.unread.drop got
                  reads := scan.reads + 1 }
              if scan.sbKstat.dev ≠ iDev then mountLoop fuel scan
              else some .unset
      | some nl =>
          let line := scan.pending.take nl
          let scan := { scan with pending := scan.pending.drop (nl + 1) }
          match splitWords 4 line with
          | none =>
              if scan.sbKstat.dev ≠ iDev then mountLoop fuel scan
              else some .unset
          | some words =>
              let scan :=
                { scan with
                  sbKstat :=
                    (world.vfsStat (cString (words.getD 1 []))).getD
                      scan.sbKstat }
              if scan.sbKstat.dev ≠ iDev then mountLoop fuel scan
              else some (foundMount world scan.sbKstat words)

/-- `inode_to_path` for an inode on the device, with what the stack holds in
`sb_kstat`. -/
def inodeToPath (content : List Char) (garbage : Kstat) : Option MountResult :=
  mountLoop world iDev (2 * content.length + 1) ⟨[], content, 0, garbage⟩

end Loop

/-! ## The mount that is meant -/

/-- A line of `/proc/mounts`. -/
structure MountLine where
  chars : List Char
  noNewline : '\n' ∉ chars
  short : chars.length < mountBufSize

/-- The file: every line is terminated. -/
def mountContent (lines : List MountLine) : List Char :=
  lines.flatMap fun line => line.chars ++ ['\n']

def MountLine.words (line : MountLine) : List (List Char) :=
  line.chars.splitOn ' '

/-- The string in a word of the line. -/
def MountLine.word (line : MountLine) (index : ℕ) : List Char :=
  cString (line.words.getD index [])

section Spec

variable (world : MountWorld) (iDev : BitVec 32)

/-- What is found at the mount point of a line with five words, when it can be
stat'ed and is on the device. -/
def MountLine.root (line : MountLine) : Option Kstat :=
  if 5 ≤ line.words.length then
    (world.vfsStat (line.word 1)).filter fun kstat => kstat.dev = iDev
  else none

/-- What the line says of its mount. -/
def MountLine.mounted (line : MountLine) (kstat : Kstat) : MountResult :=
  let options := (line.word 3).splitOn ','
  .mounted
    { root := kstat
      typeName := (line.word 2).take 15
      flags :=
        ⟨['r', 'o'] ∈ options, ['n', 'o', 's', 'u', 'i', 'd'] ∈ options⟩ }
    (world.statfs (line.word 1))

/-- The first line of the device decides. -/
def firstMount : List MountLine → MountResult
  | [] => .failed noEntry
  | line :: lines =>
      match line.root world iDev with
      | none => firstMount lines
      | some kstat => line.mounted world kstat

end Spec

/-! ## Words and options -/

/-- `memchr` cuts a piece at the first place of the letter. -/
theorem memchr_cases (piece : List Char) (letter : Char) :
    (memchr piece letter = none ∧ letter ∉ piece) ∨
      ∃ front rest, piece = front ++ letter :: rest ∧ letter ∉ front ∧
        memchr piece letter = some front.length := by
  by_cases hmem : letter ∈ piece
  · obtain ⟨front, rest, rfl, hfront⟩ := List.eq_append_cons_of_mem hmem
    exact .inr ⟨front, rest, rfl, hfront, idxOf_append_cons hfront⟩
  · exact .inl ⟨List.idxOf?_eq_none_iff.2 hmem, hmem⟩

theorem memchr_lt {piece : List Char} {letter : Char} {index : ℕ}
    (hfound : memchr piece letter = some index) : index < piece.length := by
  obtain ⟨hnone, -⟩ | ⟨front, rest, hsplit, -, hsome⟩ := memchr_cases piece letter
  · rw [hnone] at hfound
    cases hfound
  · rw [hsome] at hfound
    rw [← Option.some.inj hfound, hsplit, List.length_append, List.length_cons]
    omega

theorem take_front (front rest : List Char) (letter : Char) :
    (front ++ letter :: rest).take front.length = front :=
  List.take_left

theorem drop_front (front rest : List Char) (letter : Char) :
    (front ++ letter :: rest).drop (front.length + 1) = rest := by
  rw [List.append_cons, List.drop_left' (by simp)]

/-- The words are those between the spaces. -/
theorem splitWords_eq (count : ℕ) (p : List Char) :
    splitWords count p =
      if count < (p.splitOn ' ').length then some ((p.splitOn ' ').take count)
      else none := by
  induction count generalizing p with
  | zero =>
    rw [if_pos (List.length_pos_of_ne_nil (List.splitOn_ne_nil _ _))]
    rfl
  | succ count ih =>
    rw [splitWords]
    obtain ⟨hnone, hmem⟩ | ⟨front, rest, rfl, hfront, hsome⟩ :=
      memchr_cases p ' '
    · rw [hnone, List.splitOn_eq_singleton hmem, if_neg (by simp)]
    · simp only [hsome, take_front, drop_front, ih,
        List.splitOn_append_cons_self_of_not_mem hfront, List.length_cons,
        Nat.add_lt_add_iff_right, List.take_succ_cons]
      split <;> rfl

/-- The flags are set by the options between the commas. -/
theorem scanOptions_eq (mntOpt : List Char) (flags : MountFlags) :
    scanOptions mntOpt flags =
      ⟨flags.rdonly || ['r', 'o'] ∈ mntOpt.splitOn ',',
        flags.nosuid ||
          ['n', 'o', 's', 'u', 'i', 'd'] ∈ mntOpt.splitOn ','⟩ := by
  induction mntOpt, flags using scanOptions.induct with
  | case1 flags => simp [scanOptions]
  | case2 c rest flags hnone =>
    have hmem : ',' ∉ c :: rest := List.idxOf?_eq_none_iff.1 hnone
    rw [scanOptions, hnone, List.splitOn_eq_singleton hmem]
    simp [MountFlags.setOption, eq_comm]
  | case3 c rest flags comma hsome ih =>
    obtain ⟨hnone, -⟩ | ⟨front, tail, hsplit, hfront, hfound⟩ :=
      memchr_cases (c :: rest) ','
    · rw [hnone] at hsome
      cases hsome
    · obtain rfl := Option.some.inj (hsome.symm.trans hfound)
      rw [scanOptions, hsome]
      simp only [ih]
      simp only [hsplit, take_front, drop_front,
        List.splitOn_append_cons_self_of_not_mem hfront]
      simp [MountFlags.setOption, Bool.or_assoc, eq_comm]

/-! ## The loop -/

section Scan

variable {world : MountWorld} {iDev : BitVec 32} {scan : MountScan}

theorem exists_five {words : List (List Char)} (hfive : 5 ≤ words.length) :
    ∃ a b c d e rest, words = a :: b :: c :: d :: e :: rest := by
  match words, hfive with
  | a :: b :: c :: d :: e :: rest, _ => exact ⟨a, b, c, d, e, rest, rfl⟩

/-- A line in the buffer of another mount, or of none, is passed over. -/
theorem mountLoop_line (fuel : ℕ) {line : MountLine} {rest : List Char}
    (hpending : scan.pending = line.chars ++ '\n' :: rest)
    (hdev : scan.sbKstat.dev ≠ iDev) :
    match line.root world iDev with
    | none => ∃ sbKstat : Kstat, sbKstat.dev ≠ iDev ∧
        mountLoop world iDev (fuel + 1) scan =
          mountLoop world iDev fuel
            { scan with pending := rest, sbKstat := sbKstat }
    | some kstat =>
        mountLoop world iDev (fuel + 1) scan =
          some (line.mounted world kstat) := by
  have hnl : memchr scan.pending '\n' = some line.chars.length := by
    rw [hpending]
    exact idxOf_append_cons line.noNewline
  have htake : scan.pending.take line.chars.length = line.chars := by
    rw [hpending, take_front]
  have hdrop : scan.pending.drop (line.chars.length + 1) = rest := by
    rw [hpending, drop_front]
  rw [MountLine.root, mountLoop]
  simp only [hnl, htake, hdrop, splitWords_eq]
  by_cases hfive : 5 ≤ line.words.length
  · have hfour : 4 < (line.chars.splitOn ' ').length := hfive
    obtain ⟨device, dir, type, options, last, others, hwords⟩ :=
      exists_five hfive
    have htaken : (line.chars.splitOn ' ').take 4 =
        [device, dir, type, options] := by
      rw [show line.chars.splitOn ' ' = _ from hwords]
      rfl
    have hdir : line.word 1 = cString dir := by rw [MountLine.word, hwords]; rfl
    have htype : line.word 2 = cString type := by
      rw [MountLine.word, hwords]
      rfl
    have hoptions : line.word 3 = cString options := by
      rw [MountLine.word, hwords]
      rfl
    have hgetD : [device, dir, type, options].getD 1 [] = dir := rfl
    simp only [if_pos hfive, if_pos hfour, htaken, hdir, hgetD]
    cases hstat : world.vfsStat (cString dir) with
    | none =>
      simp only [Option.filter_none, Option.getD_none, if_pos hdev]
      exact ⟨scan.sbKstat, hdev, rfl⟩
    | some kstat =>
      by_cases hsame : kstat.dev = iDev
      · simp only [Option.filter_some, hsame, decide_true, if_true,
          Option.getD_some, ne_eq, not_true, if_false, foundMount,
          scanOptions_eq, MountLine.mounted, hdir, htype, hoptions,
          Bool.false_or]
      · simp only [Option.filter_some, hsame, decide_false, Option.getD_some,
          ne_eq, not_false_iff, if_true]
        exact ⟨kstat, hsame, rfl⟩
  · have hfour : ¬ 4 < (line.chars.splitOn ' ').length := hfive
    simp only [if_neg hfive, if_neg hfour, if_pos hdev]
    exact ⟨scan.sbKstat, hdev, rfl⟩

/-- A read gives something that fits. -/
theorem mountReadSize_bounds (hroom : scan.pending.length < mountBufSize)
    (hunread : scan.unread ≠ []) :
    0 < mountReadSize world scan ∧
      mountReadSize world scan ≤ scan.unread.length ∧
      scan.pending.length + mountReadSize world scan ≤ mountBufSize := by
  have hpos := List.length_pos_of_ne_nil hunread
  rw [mountReadSize]
  omega

/-- A buffer without a whole line is filled up further. -/
theorem mountLoop_refill (fuel : ℕ) (hnone : '\n' ∉ scan.pending)
    (hroom : scan.pending.length < mountBufSize) (hunread : scan.unread ≠ []) :
    mountLoop world iDev (fuel + 1) scan =
      if scan.sbKstat.dev ≠ iDev then
        mountLoop world iDev fuel
          { scan with
            pending := scan.pending ++
              scan.unread.take (mountReadSize world scan)
            unread := scan.unread.drop (mountReadSize world scan)
            reads := scan.reads + 1 }
      else some .unset := by
  have hnl : memchr scan.pending '\n' = none := List.idxOf?_eq_none_iff.2 hnone
  have hgot := (@mountReadSize_bounds world scan hroom hunread).1
  rw [mountLoop, hnl]
  simp only [if_neg hroom.ne, if_neg hgot.ne']

/-- At the end of the file there is no mount. -/
theorem mountLoop_end (fuel : ℕ) (hpending : scan.pending = [])
    (hunread : scan.unread = []) :
    mountLoop world iDev (fuel + 1) scan = some (.failed noEntry) := by
  have hgot : mountReadSize world scan = 0 := by
    rw [mountReadSize, hunread, List.length_nil, Nat.min_zero, Nat.min_zero]
  have hroom : scan.pending.length ≠ mountBufSize := by
    rw [hpending]
    decide
  rw [mountLoop, show memchr scan.pending '\n' = none by rw [hpending]; rfl]
  simp only [if_neg hroom, if_pos hgot]

/-- What is in the buffer of a file whose first line is known: a part of that
line, or all of it. -/
theorem pending_cases {pending unread later chars : List Char}
    (hsplit : pending ++ unread = chars ++ '\n' :: later)
    (hline : '\n' ∉ chars) :
    ('\n' ∉ pending ∧ pending.length ≤ chars.length ∧ unread ≠ []) ∨
      ∃ rest, pending = chars ++ '\n' :: rest ∧ rest ++ unread = later := by
  obtain ⟨more, hchars, hunread⟩ | ⟨more, hpending, hlater⟩ :=
    List.append_eq_append_iff.1 hsplit
  · refine .inl ⟨fun hmem => hline ?_, ?_, ?_⟩
    · rw [hchars]
      exact List.mem_append_left _ hmem
    · rw [hchars, List.length_append]
      omega
    · rw [hunread]
      simp
  · cases more with
    | nil =>
      rw [List.append_nil] at hpending
      refine .inl ⟨hpending ▸ hline, hpending ▸ le_rfl, ?_⟩
      rw [List.nil_append] at hlater
      simp [← hlater]
    | cons c rest =>
      obtain ⟨rfl, hrest⟩ := List.cons_eq_cons.1 hlater
      exact .inr ⟨rest, hpending, hrest.symm⟩

/-- The loop finds the first mount, however the reads split the file. -/
theorem mountLoop_eq {fuel : ℕ} {lines : List MountLine}
    (hcontent : scan.pending ++ scan.unread = mountContent lines)
    (hdev : scan.sbKstat.dev ≠ iDev)
    (hfuel : 2 * scan.unread.length + scan.pending.length < fuel) :
    mountLoop world iDev fuel scan = some (firstMount world iDev lines) := by
  induction fuel generalizing scan lines with
  | zero => omega
  | succ fuel ih =>
    cases lines with
    | nil =>
      obtain ⟨hpending, hunread⟩ := List.append_eq_nil_iff.1 hcontent
      exact mountLoop_end fuel hpending hunread
    | cons line lines =>
      rw [mountContent, List.flatMap_cons, List.append_assoc] at hcontent
      obtain ⟨hnone, hlength, hunread⟩ | ⟨rest, hpending, hrest⟩ :=
        pending_cases hcontent line.noNewline
      -- a read, and the same lines are left
      · have hroom := hlength.trans_lt line.short
        obtain ⟨hgot, hle, -⟩ :=
          @mountReadSize_bounds world scan hroom hunread
        rw [mountLoop_refill fuel hnone hroom hunread, if_pos hdev]
        refine ih ?_ hdev ?_
        · simp only [List.append_assoc, List.take_append_drop, hcontent,
            mountContent, List.flatMap_cons]
        · simp only [List.length_append, List.length_take, List.length_drop]
          omega
      -- the line is looked at, and the others are left
      · have hturn := @mountLoop_line world iDev scan fuel line rest hpending
          hdev
        rw [firstMount]
        split at hturn
        · obtain ⟨sbKstat, hdev', hloop⟩ := hturn
          rw [hloop]
          refine ih hrest hdev' ?_
          have hpendingLength := congrArg List.length hpending
          rw [List.length_append, List.length_cons] at hpendingLength
          simp only
          omega
        · exact hturn

end Scan

theorem firstMount_ne_unset {world : MountWorld} {iDev : BitVec 32}
    {lines : List MountLine} : firstMount world iDev lines ≠ .unset := by
  induction lines with
  | nil => exact nofun
  | cons line lines ih =>
    rw [firstMount]
    split
    · exact ih
    · exact nofun

/-- `inode_to_path` finds the first line of the inode's device, however the
reads split the file, exactly when the file is empty or what the stack holds in
`sb_kstat` is not that device. -/
theorem inodeToPath_eq_iff (world : MountWorld) (iDev : BitVec 32)
    (lines : List MountLine) (garbage : Kstat) :
    inodeToPath world iDev (mountContent lines) garbage =
        some (firstMount world iDev lines) ↔
      lines = [] ∨ garbage.dev ≠ iDev := by
  have hfuel : ∀ content : List Char,
      2 * content.length + 0 < 2 * content.length + 1 := fun _ => by omega
  cases lines with
  | nil =>
    refine iff_of_true ?_ (.inl rfl)
    exact mountLoop_end _ rfl rfl
  | cons line lines =>
    by_cases hdev : garbage.dev = iDev
    · refine iff_of_false (fun hfound => ?_) ?_
      · have hunread : mountContent (line :: lines) ≠ [] := by
          simp [mountContent]
        have hroom : 0 < mountBufSize := by decide
        have hturn := @mountLoop_refill world iDev
          ⟨[], mountContent (line :: lines), 0, garbage⟩
          (2 * (mountContent (line :: lines)).length) List.not_mem_nil hroom
          hunread
        rw [inodeToPath, hturn, if_neg (not_not.2 hdev)] at hfound
        exact firstMount_ne_unset (Option.some.inj hfound).symm
      · rintro (hnil | hne)
        · cases hnil
        · exact hne hdev
    · exact iff_of_true (mountLoop_eq rfl hdev (hfuel _)) (.inr hdev)

/-- `/proc/mounts` with one line. -/
def rootMount : MountLine :=
  ⟨"/dev/sda1 / ext4 ro,nosuid 0 0".toList, by decide, by decide⟩

/-- A file on device 1 and a stack that holds a 1 where `sb_kstat.dev` stands.
-/
theorem inodeToPath_reads_stack :
    ∃ world : MountWorld,
      inodeToPath world 1 (mountContent [rootMount]) ⟨0, 1, 0, 0⟩ =
        some .unset ∧
      firstMount world 1 [rootMount] =
        .mounted ⟨⟨2, 1, 0, 0⟩, "ext4".toList, ⟨true, true⟩⟩ 0 := by
  refine ⟨⟨fun _ => some ⟨2, 1, 0, 0⟩, fun _ => 0, fun _ => 4096⟩, ?_, ?_⟩ <;>
    decide

end IbcsUs.Files
