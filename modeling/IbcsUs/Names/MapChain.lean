import Mathlib.Data.List.Chain
import IbcsUs.Names.Filemap
import IbcsUs.Names.MapFile

/-!
# The chain of records

What `filemap_parse` leaves in memory is a chain of records, each where the token of
its line was, with the distances to its names and to the next record in 16 bits.
`filemap_map` walks it.  The walk meets the mappings of the file, in their order, as
long as no distance is cut off.
-/

namespace IbcsUs.Names

open IbcsUs.Paths IbcsUs.Strings

/-! ## The walk -/

/-- The loop of `filemap_map` over the chain: where each record and its names are. -/
def walkChain (memory : Memory) : ℕ → ℕ → Option (List (ℕ × ℕ × ℕ))
  | 0, _ => none
  | fuel + 1, map =>
      let here := (map, map + readShort memory map,
        map + readShort memory (map + 2))
      let nextOff := readShort memory (map + 4)
      if nextOff = 0 then some [here]
      else (walkChain memory fuel (map + nextOff)).map (here :: ·)

/-- The walk from `filemap` on. -/
def walkFilemap (memory : Memory) (fuel : ℕ) :
    Option ℕ → Option (List (ℕ × ℕ × ℕ))
  | none => some []
  | some map => walkChain memory fuel map

/-- The names that the walk reads. -/
def readEntries (memory : Memory) (places : List (ℕ × ℕ × ℕ)) :
    List (Text × Text) :=
  places.map fun place => (stringAt memory place.2.1, stringAt memory place.2.2)

/-! ## The mappings of a file -/

/-- The mappings of a file, in their order. -/
def mapEntries (text : Text) : List (Text × Text) :=
  (mapLines text).filterMap fun line =>
    (splitLine line).map fun parts => (parts.source, parts.target)

/-- What a file maps are entries as `filemap_map` takes them. -/
theorem mapEntries_mapping {text : Text} :
    ∀ entry ∈ mapEntries text, ∃ mapping : Mapping,
      entry = (mapping.source, mapping.target) := by
  intro entry hmem
  obtain ⟨line, _, hline⟩ := List.mem_filterMap.1 hmem
  obtain ⟨parts, hsplit, rfl⟩ := Option.map_eq_some_iff.1 hline
  have hwell := (splitLine_sound hsplit).1
  exact ⟨⟨parts.source, parts.target, hwell.source_absolute,
    hwell.target_absolute, hwell.same_end⟩, rfl⟩

/-- Where a mapping comes to lie. -/
structure Placed where
  map : ℕ
  sourceAt : ℕ
  targetAt : ℕ
  source : Text
  target : Text
  map_before : map + 5 < sourceAt
  source_before : sourceAt + source.length < targetAt

namespace Placed

/-- The address of the last terminator. -/
def stop (record : Placed) : ℕ := record.targetAt + record.target.length

/-- The addresses of a record and its names. -/
def places (record : Placed) : ℕ × ℕ × ℕ :=
  (record.map, record.sourceAt, record.targetAt)

/-- The names of a record. -/
def entry (record : Placed) : Text × Text := (record.source, record.target)

/-- The distances to the names fit. -/
def Short (record : Placed) : Prop :=
  record.sourceAt - record.map < 65536 ∧ record.targetAt - record.map < 65536

end Placed

/-- Where the mapping of a line at `b` comes to lie. -/
def LineParts.placed (parts : LineParts) (buffer b : ℕ) : Placed where
  map := parts.mapAt buffer b
  sourceAt := parts.sourceAt b
  targetAt := parts.targetAt b
  source := parts.source
  target := parts.target
  map_before := (parts.bounds buffer b).2.1
  source_before := by
    have hbounds := parts.bounds buffer b
    omega

/-- Where the mappings of lines from `b` on come to lie. -/
def placedLines (buffer : ℕ) : ℕ → List Text → List Placed
  | _, [] => []
  | b, line :: lines =>
      ((splitLine line).map (·.placed buffer b)).toList ++
        placedLines buffer (b + line.length + 1) lines

instance decidableShort (record : Placed) : Decidable record.Short :=
  inferInstanceAs (Decidable (_ ∧ _))

/-- No distance that is stored is cut off. -/
def ShortChain (records : List Placed) : Prop :=
  (∀ record ∈ records, record.Short) ∧
    records.IsChain fun record next => next.map - record.map < 65536

instance decidableShortChain (records : List Placed) :
    Decidable (ShortChain records) :=
  inferInstanceAs (Decidable (_ ∧ _))

/-! ## What is in memory -/

/-- A record and its names are in memory. -/
structure Stored (memory : Memory) (record : Placed) : Prop where
  from_off : readShort memory record.map =
    (record.sourceAt - record.map) % 65536
  to_off : readShort memory (record.map + 2) =
    (record.targetAt - record.map) % 65536
  source : Holds memory record.sourceAt record.source
  target : Holds memory record.targetAt record.target

/-- A record lies before another. -/
def Placed.Before (record next : Placed) : Prop := record.stop < next.map

/-- The distance stored in a record leads to the next. -/
def LinksTo (memory : Memory) (record next : Placed) : Prop :=
  record.Before next ∧
    readShort memory (record.map + 4) = (next.map - record.map) % 65536

/-- The chain built so far, before the line at `b`. -/
structure ChainInv (state : ParseState) (b : ℕ)
    (records : List Placed) : Prop where
  stored : ∀ record ∈ records, Stored state.memory record
  linked : records.IsChain (LinksTo state.memory)
  last : ∀ record ∈ records.getLast?,
    readShort state.memory (record.map + 4) = 0
  before : ∀ record ∈ records, record.stop < b
  head : state.filemap = records.head?.map Placed.map
  prev : state.prev = records.getLast?.map Placed.map

theorem Placed.map_lt_stop (record : Placed) :
    record.map + 5 < record.stop := by
  have hmap := record.map_before
  have hsource := record.source_before
  rw [Placed.stop]
  omega

instance isTransBefore : IsTrans Placed Placed.Before where
  trans := by
    intro first second third hfirst hsecond
    have hmiddle := second.map_lt_stop
    rw [Placed.Before] at hfirst hsecond ⊢
    omega

/-- All records but the last lie before it. -/
theorem ChainInv.before_last {state : ParseState} {b : ℕ} {front : List Placed}
    {last : Placed} (hinv : ChainInv state b (front ++ [last])) :
    ∀ record ∈ front, record.Before last := by
  have hordered : (front ++ [last]).Pairwise Placed.Before :=
    (hinv.linked.imp fun _ _ hlinks => hlinks.1).pairwise
  intro record hmem
  exact (List.pairwise_append.1 hordered).2.2 record hmem last
    List.mem_cons_self

section Frame

variable {buffer b other value : ℕ} {memory : Memory} {letter : Char}
variable {parts : LineParts} {record next : Placed} {rest : Text}

theorem Stored.set (hstored : Stored memory record)
    (houtside : other < record.map ∨ record.stop < other) :
    Stored (memory.set other letter) record := by
  have hmap := record.map_before
  have hsource := record.source_before
  rw [Placed.stop] at houtside
  exact
    { from_off := by
        rw [readShort_set_of_ne (by omega) (by omega)]
        exact hstored.from_off
      to_off := by
        rw [readShort_set_of_ne (by omega) (by omega)]
        exact hstored.to_off
      source := hstored.source.set (by omega)
      target := hstored.target.set (by omega) }

/-- A word written outside a record, or over its distance to the next. -/
theorem Stored.writeShort (hstored : Stored memory record)
    (houtside : other + 1 < record.map ∨ record.stop < other ∨
      other = record.map + 4) :
    Stored (writeShort memory other value) record := by
  have hmap := record.map_before
  have hsource := record.source_before
  rw [Placed.stop] at houtside
  exact
    { from_off := by
        rw [readShort_writeShort_of_disjoint (by omega)]
        exact hstored.from_off
      to_off := by
        rw [readShort_writeShort_of_disjoint (by omega)]
        exact hstored.to_off
      source := hstored.source.writeShort (by omega)
      target := hstored.target.writeShort (by omega) }

/-- A new record leaves those before its line. -/
theorem Stored.recordMemory (hstored : Stored memory record)
    (hbefore : record.stop < b) :
    Stored (recordMemory buffer memory b parts) record := by
  have hbounds := parts.bounds buffer b
  apply Stored.writeShort _ (by omega)
  apply Stored.set _ (by omega)
  apply Stored.writeShort _ (by omega)
  apply Stored.set _ (by omega)
  exact hstored.writeShort (by omega)

theorem readShort_recordMemory (hbefore : other + 1 < b) :
    readShort (Names.recordMemory buffer memory b parts) other =
      readShort memory other := by
  have hbounds := parts.bounds buffer b
  simp only [Names.recordMemory]
  rw [readShort_writeShort_of_disjoint (by omega),
    readShort_set_of_ne (by omega) (by omega),
    readShort_writeShort_of_disjoint (by omega),
    readShort_set_of_ne (by omega) (by omega),
    readShort_writeShort_of_disjoint (by omega)]

end Frame

section New

variable {buffer b : ℕ} {memory : Memory} {parts : LineParts} {rest : Text}

theorem InMemory.length_lt {line : Text} (hline : InMemory memory b line rest) :
    b + line.length < memory.length := by
  obtain ⟨stop, tail, rfl⟩ := hline.rest_eq_cons
  have hlength := congrArg List.length hline.drop_eq
  rw [List.length_drop, List.length_append, List.length_cons] at hlength
  omega

/-- The first name stands where the pieces say. -/
theorem InMemory.source (hline : InMemory memory b parts.text rest) :
    InMemory memory (parts.sourceAt b) (parts.source ++ (parts.left ++
      (arrow ++ (parts.right ++ (parts.target ++ parts.tail))))) rest := by
  have hadvance := hline.advance
  rw [List.length_append, List.length_append, ← Nat.add_assoc, ← Nat.add_assoc]
    at hadvance
  simpa [LineParts.body, LineParts.sourceAt] using hadvance

/-- The second name stands where the pieces say. -/
theorem InMemory.target (hline : InMemory memory b parts.text rest) :
    InMemory memory (parts.targetAt b) (parts.target ++ parts.tail) rest := by
  have hsource := hline.source
  rw [← List.append_assoc, ← List.append_assoc, ← List.append_assoc] at hsource
  have hadvance := hsource.advance
  have hlength : (parts.source ++ parts.left ++ arrow ++ parts.right).length =
      (parts.source ++ parts.left).length + 3 + parts.right.length := by
    rw [List.length_append, @List.length_append _ _ arrow]
    rfl
  rwa [hlength, ← Nat.add_assoc, ← Nat.add_assoc] at hadvance

/-- Terminating a name that something follows. -/
theorem InMemory.holds {address : ℕ} {name behind : Text}
    (hline : InMemory memory address (name ++ behind) rest) :
    Holds (memory.set (address + name.length) nul) address name := by
  have hdrop := hline.drop_eq
  obtain ⟨letter, tail, htail⟩ :
      ∃ letter tail, behind ++ rest = letter :: tail := by
    obtain ⟨stop, tail, rfl⟩ := hline.rest_eq_cons
    exact List.exists_cons_of_ne_nil (by simp)
  rw [List.append_assoc, htail] at hdrop
  exact holds_set hdrop fun hmem => hline.no_nul (List.mem_append_left _ hmem)

theorem fromOff_recordMemory (hline : InMemory memory b parts.text rest) :
    readShort (recordMemory buffer memory b parts) (parts.mapAt buffer b) =
      (parts.sourceAt b - parts.mapAt buffer b) % 65536 := by
  have hbounds := parts.bounds buffer b
  have hlength := hline.length_lt
  simp only [recordMemory]
  rw [readShort_writeShort_of_disjoint (by omega),
    readShort_set_of_ne (by omega) (by omega),
    readShort_writeShort_of_disjoint (by omega),
    readShort_set_of_ne (by omega) (by omega), readShort_writeShort (by omega)]

theorem toOff_recordMemory (hline : InMemory memory b parts.text rest) :
    readShort (recordMemory buffer memory b parts) (parts.mapAt buffer b + 2) =
      (parts.targetAt b - parts.mapAt buffer b) % 65536 := by
  have hbounds := parts.bounds buffer b
  have hlength := hline.length_lt
  simp only [recordMemory]
  rw [readShort_writeShort_of_disjoint (by omega),
    readShort_set_of_ne (by omega) (by omega), readShort_writeShort]
  rw [List.length_set, length_writeShort]
  omega

/-- The new record is in memory. -/
theorem stored_recordMemory (hline : InMemory memory b parts.text rest) :
    Stored (recordMemory buffer memory b parts) (parts.placed buffer b) where
  from_off := fromOff_recordMemory hline
  to_off := toOff_recordMemory hline
  source := by
    have hbounds := parts.bounds buffer b
    change Holds _ (parts.sourceAt b) parts.source
    apply Holds.writeShort _ (.inl (by omega))
    apply Holds.set _ (.inr (by omega))
    apply Holds.writeShort _ (.inl (by omega))
    exact (hline.source.writeShort (by omega)).holds
  target := by
    have hbounds := parts.bounds buffer b
    change Holds _ (parts.targetAt b) parts.target
    apply Holds.writeShort _ (.inl (by omega))
    exact (((hline.target.writeShort (by omega)).set (by omega)).writeShort
      (by omega)).holds

/-- The new record is the last. -/
theorem next_recordMemory (hline : InMemory memory b parts.text rest) :
    readShort (recordMemory buffer memory b parts)
      (parts.mapAt buffer b + 4) = 0 := by
  have hbounds := parts.bounds buffer b
  have hlength := hline.length_lt
  simp only [recordMemory]
  rw [readShort_writeShort]
  simp only [List.length_set, length_writeShort]
  omega

end New

/-! ## The chain as it is built -/

section Build

variable {buffer b : ℕ} {state : ParseState} {records : List Placed}
variable {parts : LineParts} {line rest : Text}

theorem chainInv_start (memory : Memory) (b : ℕ) :
    ChainInv ⟨memory, none, none⟩ b [] where
  stored := fun _ hmem => absurd hmem List.not_mem_nil
  linked := List.isChain_nil
  last := fun _ hmem => absurd hmem (Option.not_mem_none _)
  before := fun _ hmem => absurd hmem List.not_mem_nil
  head := rfl
  prev := rfl

/-- The next line is further on. -/
theorem ChainInv.mono (hinv : ChainInv state b records) {other : ℕ}
    (hle : b ≤ other) : ChainInv state other records :=
  { hinv with
    before := fun record hmem =>
      Nat.lt_of_lt_of_le (hinv.before record hmem) hle }

theorem placed_stop_lt (parts : LineParts) (buffer b : ℕ) :
    (parts.placed buffer b).stop < b + parts.text.length + 1 := by
  have hbounds := parts.bounds buffer b
  change parts.targetAt b + parts.target.length < _
  omega

/-- The first record. -/
theorem ChainInv.first (hinv : ChainInv state b [])
    (hline : InMemory state.memory b parts.text rest) :
    ChainInv (storeRecord buffer state b parts) (b + parts.text.length + 1)
      [parts.placed buffer b] := by
  have hstore : storeRecord buffer state b parts =
      ⟨recordMemory buffer state.memory b parts, some (parts.mapAt buffer b),
        some (parts.mapAt buffer b)⟩ := by
    rw [storeRecord, linkRecord, hinv.prev]
    rfl
  rw [hstore]
  exact
    { stored := by
        intro record hmem
        obtain rfl := List.mem_singleton.1 hmem
        exact stored_recordMemory hline
      linked := List.isChain_singleton _
      last := by
        intro record hmem
        obtain rfl := Option.some.inj hmem
        exact next_recordMemory hline
      before := by
        intro record hmem
        obtain rfl := List.mem_singleton.1 hmem
        exact placed_stop_lt parts buffer b
      head := rfl
      prev := rfl }

theorem length_recordMemory {memory : Memory} :
    (recordMemory buffer memory b parts).length = memory.length := by
  simp only [recordMemory, length_writeShort, List.length_set]

/-- A new record and the distance to it leave the links between the others. -/
theorem ChainInv.linked_write {front : List Placed} {last : Placed} {value : ℕ}
    (hinv : ChainInv state b (front ++ [last])) :
    (front ++ [last]).IsChain (LinksTo
      (writeShort (recordMemory buffer state.memory b parts)
        (last.map + 4) value)) := by
  apply hinv.linked.imp_of_mem_imp
  intro record next _ hnext hlinks
  have hle : next.map ≤ last.map := by
    rcases List.mem_append.1 hnext with hfront | hlast
    · have horder := hinv.before_last next hfront
      have hstop := next.map_lt_stop
      rw [Placed.Before] at horder
      omega
    · exact Nat.le_of_eq (congrArg Placed.map (List.mem_singleton.1 hlast))
  have hstop := record.map_lt_stop
  have horder := hlinks.1
  have hbefore := hinv.before last (by simp)
  have hlast := last.map_lt_stop
  rw [Placed.Before] at horder
  refine ⟨hlinks.1, ?_⟩
  rw [readShort_writeShort_of_disjoint (by omega),
    readShort_recordMemory (by omega)]
  exact hlinks.2

/-- A record behind others. -/
theorem ChainInv.snoc {front : List Placed} {last : Placed}
    (hinv : ChainInv state b (front ++ [last]))
    (hline : InMemory state.memory b parts.text rest) :
    ChainInv (storeRecord buffer state b parts) (b + parts.text.length + 1)
      (front ++ [last] ++ [parts.placed buffer b]) := by
  have hstore : storeRecord buffer state b parts =
      ⟨writeShort (recordMemory buffer state.memory b parts) (last.map + 4)
          (parts.mapAt buffer b - last.map), state.filemap,
        some (parts.mapAt buffer b)⟩ := by
    rw [storeRecord, linkRecord, hinv.prev, List.getLast?_concat]
    rfl
  have hmap := (parts.bounds buffer b).1
  have hlast := last.map_lt_stop
  have hbefore := hinv.before last (by simp)
  rw [hstore]
  exact
    { stored := by
        intro record hmem
        simp only [List.mem_append, List.mem_singleton] at hmem
        rcases hmem with (hfront | rfl) | rfl
        · have horder := hinv.before_last record hfront
          rw [Placed.Before] at horder
          have hstored := hinv.stored record (by simp [hfront])
          exact (hstored.recordMemory (by omega)).writeShort (by omega)
        · have hstored := hinv.stored record (by simp)
          exact (hstored.recordMemory (by omega)).writeShort (by omega)
        · apply (stored_recordMemory hline).writeShort
          left
          change last.map + 4 + 1 < parts.mapAt buffer b
          omega
      linked := by
        rw [List.isChain_append]
        refine ⟨hinv.linked_write, List.isChain_singleton _, ?_⟩
        intro record hrecord next hnext
        rw [List.getLast?_concat] at hrecord
        obtain rfl := Option.some.inj hrecord
        obtain rfl := Option.some.inj hnext
        exact ⟨Nat.lt_of_lt_of_le hbefore hmap, readShort_writeShort
          (by rw [length_recordMemory]; have := hline.length_lt; omega)⟩
      last := by
        intro record hmem
        rw [List.getLast?_concat] at hmem
        obtain rfl := Option.some.inj hmem
        change readShort _ (parts.mapAt buffer b + 4) = 0
        rw [readShort_writeShort_of_disjoint (by omega)]
        exact next_recordMemory hline
      before := by
        intro record hmem
        rcases List.mem_append.1 hmem with hmem | hmem
        · have hold := hinv.before record hmem
          omega
        · obtain rfl := List.mem_singleton.1 hmem
          exact placed_stop_lt parts buffer b
      head := by
        rw [hinv.head]
        simp
      prev := by
        rw [List.getLast?_concat]
        rfl }

/-- A line adds its record, if it has one. -/
theorem ChainInv.afterLine (hinv : ChainInv state b records)
    (hline : InMemory state.memory b line rest) :
    ChainInv (lineEffect buffer state b line) (b + line.length + 1)
      (records ++ ((splitLine line).map (·.placed buffer b)).toList) := by
  rw [lineEffect]
  cases hsplit : splitLine line with
  | none =>
      rw [Option.map_none, Option.toList_none, List.append_nil]
      exact hinv.mono (by omega)
  | some parts =>
      obtain ⟨_, rfl⟩ := splitLine_sound hsplit
      obtain rfl | ⟨front, last, rfl⟩ := List.eq_nil_or_concat' records
      · exact hinv.first hline
      · exact hinv.snoc hline

/-- All lines add their records. -/
theorem ChainInv.afterLines (buffer : ℕ) {text : Text}
    (hinv : ChainInv state b records) (hat : AtLine state b text) :
    ∃ stop, ChainInv (linesEffect buffer state b (mapLines text)) stop
      (records ++ placedLines buffer b (mapLines text)) := by
  generalize hlines : mapLines text = lines
  induction lines generalizing state b records text with
  | nil => exact absurd hlines (List.splitOn_ne_nil _ _)
  | cons first lines ih =>
      rw [linesEffect, placedLines, ← List.append_assoc]
      rcases split_cases '\n' text with hlast | ⟨line, later, hline, rfl⟩
      · rw [mapLines_last hlast] at hlines
        obtain ⟨rfl, rfl⟩ := List.cons.inj hlines
        rw [linesEffect, placedLines, List.append_nil]
        exact ⟨_, hinv.afterLine (hat.last hlast)⟩
      · rw [mapLines_append hline] at hlines
        obtain ⟨rfl, rfl⟩ := List.cons.inj hlines
        exact ih (hinv.afterLine (hat.first hline)) (hat.next buffer) rfl

end Build

/-! ## The walk meets the records -/

section Walk

variable {memory : Memory} {record next : Placed} {records : List Placed}
variable {fuel map : ℕ}

/-- The place the walk finds at an address. -/
theorem walkChain_succ :
    walkChain memory (fuel + 1) map =
      if readShort memory (map + 4) = 0 then
        some [(map, map + readShort memory map,
          map + readShort memory (map + 2))]
      else (walkChain memory fuel (map + readShort memory (map + 4))).map
        ((map, map + readShort memory map,
          map + readShort memory (map + 2)) :: ·) := rfl

theorem walkChain_head {place : ℕ × ℕ × ℕ} {places : List (ℕ × ℕ × ℕ)}
    (hwalk : walkChain memory fuel map = some (place :: places)) :
    place.1 = map := by
  cases fuel with
  | zero => cases hwalk
  | succ fuel =>
      rw [walkChain_succ] at hwalk
      split at hwalk
      · obtain ⟨rfl, _⟩ := List.cons.inj (Option.some.inj hwalk)
        rfl
      · obtain ⟨tail, _, htail⟩ := Option.map_eq_some_iff.1 hwalk
        obtain ⟨rfl, _⟩ := List.cons.inj htail
        rfl

/-- The place of a record is read as it is when its distances fit. -/
theorem places_eq_iff (hstored : Stored memory record) :
    (record.map, record.map + readShort memory record.map,
      record.map + readShort memory (record.map + 2)) = record.places ↔
        record.Short := by
  have hmap := record.map_before
  have hsource := record.source_before
  rw [hstored.from_off, hstored.to_off, Placed.places, Placed.Short]
  simp only [Prod.mk.injEq, true_and]
  omega

/-- A record that another follows: the walk goes on there when the distance fits. -/
theorem walkChain_cons_iff {places : List (ℕ × ℕ × ℕ)}
    (hstored : Stored memory record)
    (hlinks : LinksTo memory record next) :
    walkChain memory (fuel + 1) record.map =
        some (record.places :: next.places :: places) ↔
      record.Short ∧ next.map - record.map < 65536 ∧
        walkChain memory fuel next.map = some (next.places :: places) := by
  have hbefore := hlinks.1
  have hstop := record.map_lt_stop
  rw [Placed.Before] at hbefore
  rw [walkChain_succ, hlinks.2]
  by_cases hzero : (next.map - record.map) % 65536 = 0
  · rw [if_pos hzero]
    constructor
    · intro hone
      have htail := (List.cons.inj (Option.some.inj hone)).2
      exact absurd htail.symm (List.cons_ne_nil _ _)
    · rintro ⟨_, hshort, _⟩
      rw [Nat.mod_eq_of_lt hshort] at hzero
      omega
  · rw [if_neg hzero, Option.map_eq_some_iff]
    constructor
    · rintro ⟨tail, htail, hcons⟩
      obtain ⟨hhere, rfl⟩ := List.cons.inj hcons
      have hnext : next.map = record.map + (next.map - record.map) % 65536 :=
        walkChain_head htail
      refine ⟨(places_eq_iff hstored).1 hhere, by omega, ?_⟩
      rw [hnext]
      exact htail
    · rintro ⟨hshort, hdistance, htail⟩
      have hnext : record.map + (next.map - record.map) % 65536 = next.map := by
        rw [Nat.mod_eq_of_lt hdistance]
        omega
      rw [hnext]
      exact ⟨_, htail, by rw [(places_eq_iff hstored).2 hshort]⟩

theorem shortChain_cons_iff :
    ShortChain (record :: next :: records) ↔
      record.Short ∧ next.map - record.map < 65536 ∧
        ShortChain (next :: records) := by
  simp only [ShortChain, List.forall_mem_cons, List.isChain_cons_cons]
  tauto

/-- The walk finds the records where they are exactly when no distance is cut off. -/
theorem walkChain_iff
    (hstored : ∀ other ∈ record :: records, Stored memory other)
    (hlinked : (record :: records).IsChain (LinksTo memory))
    (hlast : ∀ other ∈ (record :: records).getLast?,
      readShort memory (other.map + 4) = 0) :
    (∃ fuel, walkChain memory fuel record.map =
        some ((record :: records).map Placed.places)) ↔
          ShortChain (record :: records) := by
  induction records generalizing record with
  | nil =>
      have hend := hlast record rfl
      have hplaces := places_eq_iff (hstored record List.mem_cons_self)
      have hshort : ShortChain [record] ↔ record.Short := by
        simp [ShortChain]
      rw [hshort, ← hplaces]
      constructor
      · rintro ⟨fuel, hwalk⟩
        cases fuel with
        | zero => cases hwalk
        | succ fuel =>
            rw [walkChain_succ, if_pos hend] at hwalk
            exact (List.cons.inj (Option.some.inj hwalk)).1
      · intro hhere
        refine ⟨1, ?_⟩
        rw [walkChain_succ, if_pos hend, hhere]
        rfl
  | cons next records ih =>
      obtain ⟨hlinks, hrest⟩ := List.isChain_cons_cons.1 hlinked
      have hhere := hstored record List.mem_cons_self
      have htail := ih
        (fun other hmem => hstored other (List.mem_cons_of_mem _ hmem)) hrest
        (by simpa using hlast)
      rw [shortChain_cons_iff, ← htail]
      constructor
      · rintro ⟨fuel, hwalk⟩
        cases fuel with
        | zero => cases hwalk
        | succ fuel =>
            obtain ⟨hshort, hdistance, hnext⟩ :=
              (walkChain_cons_iff hhere hlinks).1 hwalk
            exact ⟨hshort, hdistance, fuel, hnext⟩
      · rintro ⟨hshort, hdistance, fuel, hnext⟩
        exact ⟨fuel + 1,
          (walkChain_cons_iff hhere hlinks).2 ⟨hshort, hdistance, hnext⟩⟩

end Walk

/-! ## The file and its chain -/

/-- The walk finds the records and their names where they have been put. -/
def PlacesFound (outcome : ParseOutcome) (records : List Placed) : Prop :=
  ∃ fuel, walkFilemap outcome.memory fuel outcome.filemap =
    some (records.map Placed.places)

/-- The walk yields these mappings. -/
def ChainYields (outcome : ParseOutcome) (entries : List (Text × Text)) :
    Prop :=
  ∃ fuel places, walkFilemap outcome.memory fuel outcome.filemap = some places ∧
    readEntries outcome.memory places = entries

section File

variable {buffer : ℕ} {mapFilename : String} {text : Text}
    {outcome : ParseOutcome}

theorem placedLines_entries (buffer b : ℕ) (lines : List Text) :
    (placedLines buffer b lines).map Placed.entry = lines.filterMap fun line =>
      (splitLine line).map fun parts => (parts.source, parts.target) := by
  induction lines generalizing b with
  | nil => rfl
  | cons line lines ih =>
      rw [placedLines, List.map_append, ih, List.filterMap_cons]
      cases splitLine line <;> rfl

/-- What a file that is accepted leaves in memory. -/
theorem chainInv_of_accepted (hnul : nul ∉ text)
    (hparse : filemapParse mapFilename buffer text = some outcome)
    (haccepted : outcome.finish = .returned 0) :
    ∃ prev b, ChainInv ⟨outcome.memory, outcome.filemap, prev⟩ b
      (placedLines buffer 0 (mapLines text)) := by
  obtain ⟨other, hother, hreturns⟩ :=
    @filemapParse_returns_iff buffer mapFilename text hnul
  rw [hparse] at hother
  obtain rfl := Option.some.inj hother
  have hgood := hreturns.1 haccepted
  by_cases hne : text = []
  · subst hne
    obtain rfl := Option.some.inj hparse
    exact ⟨none, 0, chainInv_start [] 0⟩
  · rw [filemapParse_good hnul hne hgood] at hparse
    obtain rfl := Option.some.inj hparse
    obtain ⟨b, hinv⟩ :=
      (chainInv_start (text ++ [nul]) 0).afterLines buffer (atLine_start hnul)
    exact ⟨_, b, hinv⟩

theorem readEntries_places {memory : Memory} {records : List Placed}
    (hstored : ∀ record ∈ records, Stored memory record) :
    readEntries memory (records.map Placed.places) =
      records.map Placed.entry := by
  rw [readEntries, List.map_map]
  apply List.map_congr_left
  intro record hmem
  have hrecord := hstored record hmem
  exact Prod.ext hrecord.source.stringAt_eq hrecord.target.stringAt_eq

/-- The walk from the head of the chain. -/
theorem placesFound_iff {prev : Option ℕ} {b : ℕ} {records : List Placed}
    (hinv : ChainInv ⟨outcome.memory, outcome.filemap, prev⟩ b records) :
    PlacesFound outcome records ↔ ShortChain records := by
  have hhead : outcome.filemap = records.head?.map Placed.map := hinv.head
  rw [PlacesFound]
  rw [hhead]
  cases records with
  | nil =>
      apply iff_of_true
      · exact ⟨0, rfl⟩
      · exact ⟨fun _ hmem => absurd hmem List.not_mem_nil, List.isChain_nil⟩
  | cons record records => exact walkChain_iff hinv.stored hinv.linked hinv.last

end File

/-- The walk of a map file that is accepted finds the records where they have been
put exactly when no distance is cut off, and then it yields the mappings of the file
in their order. -/
theorem mapChain_right (mapFilename : String) (buffer : ℕ) (text : Text)
    (outcome : ParseOutcome) (hnul : nul ∉ text)
    (hparse : filemapParse mapFilename buffer text = some outcome)
    (haccepted : outcome.finish = .returned 0) :
    (PlacesFound outcome (placedLines buffer 0 (mapLines text)) ↔
        ShortChain (placedLines buffer 0 (mapLines text))) ∧
      (ShortChain (placedLines buffer 0 (mapLines text)) →
        ChainYields outcome (mapEntries text)) := by
  obtain ⟨prev, b, hinv⟩ := chainInv_of_accepted hnul hparse haccepted
  refine ⟨placesFound_iff hinv, ?_⟩
  intro hshort
  obtain ⟨fuel, hwalk⟩ := (placesFound_iff hinv).2 hshort
  refine ⟨fuel, _, hwalk, ?_⟩
  rw [readEntries_places hinv.stored, placedLines_entries]
  rfl

/-- The line `prefixmap: /x --> /y`. -/
def shortParts (x y : Char) : LineParts where
  lead := []
  gap := [' ']
  source := ['/', x]
  left := [' ']
  right := [' ']
  target := ['/', y]
  tail := []

/-- Two mappings on consecutive lines. -/
theorem mapChain_right_two_lines :
    ∃ outcome, filemapParse "map" 0
        ((shortParts 'a' 'b').text ++ '\n' :: (shortParts 'c' 'd').text) =
          some outcome ∧
      ChainYields outcome
        [(['/', 'a'], ['/', 'b']), (['/', 'c'], ['/', 'd'])] := by
  obtain ⟨outcome, hparse, hreturns⟩ := @filemapParse_returns_iff 0 "map"
    ((shortParts 'a' 'b').text ++ '\n' :: (shortParts 'c' 'd').text) (by decide)
  have haccepted : outcome.finish = .returned 0 :=
    hreturns.2 (by decide)
  have hright := mapChain_right "map" 0 _ outcome (by decide) hparse haccepted
  have hentries : mapEntries ((shortParts 'a' 'b').text ++
      '\n' :: (shortParts 'c' 'd').text) =
      [(['/', 'a'], ['/', 'b']), (['/', 'c'], ['/', 'd'])] := by decide
  exact ⟨outcome, hparse, hentries ▸ hright.2 (by decide)⟩

/-- A file with a comment of the given length between two mappings. -/
def commentedFile (length : ℕ) : Text :=
  (shortParts 'a' 'b').text ++ '\n' ::
    ('#' :: List.replicate length 'x' ++ '\n' :: (shortParts 'c' 'd').text)

theorem mapLines_commentedFile (length : ℕ) :
    mapLines (commentedFile length) =
      [(shortParts 'a' 'b').text, '#' :: List.replicate length 'x',
        (shortParts 'c' 'd').text] := by
  rw [commentedFile, mapLines_append (by decide), mapLines_append,
    mapLines_last (by decide)]
  simp [List.mem_replicate]

theorem nul_notMem_commentedFile (length : ℕ) : nul ∉ commentedFile length := by
  have hfirst : nul ∉ (shortParts 'a' 'b').text := by decide
  have hlast : nul ∉ (shortParts 'c' 'd').text := by decide
  simp only [commentedFile, List.mem_append, List.mem_cons, List.mem_replicate,
    hfirst, hlast, false_or, or_false, not_or, not_and]
  exact ⟨by decide, ⟨by decide, fun _ => by decide⟩, by decide⟩

theorem lineOk_commentedFile (length : ℕ) :
    ∀ line ∈ mapLines (commentedFile length), LineOk line := by
  rw [mapLines_commentedFile, List.forall_mem_cons, List.forall_mem_cons,
    List.forall_mem_singleton]
  refine ⟨by decide, .inl (.inr ⟨[], _, ?_, rfl⟩), by decide +kernel⟩
  exact fun _ hmem => absurd hmem List.not_mem_nil

/-- Where the two mappings of the file come to lie. -/
theorem placedLines_commentedFile (length : ℕ) :
    placedLines 0 0 (mapLines (commentedFile length)) =
      [(shortParts 'a' 'b').placed 0 0,
        (shortParts 'c' 'd').placed 0 (length + 23)] := by
  have hfirst : splitLine (shortParts 'a' 'b').text =
    some (shortParts 'a' 'b') := by
    decide
  have hlast : splitLine (shortParts 'c' 'd').text =
    some (shortParts 'c' 'd') := by
    decide
  have hcomment : splitLine ('#' :: List.replicate length 'x') = none := by
    apply splitLine_of_isComment
    exact .inr ⟨[], _, fun _ hmem => absurd hmem List.not_mem_nil, rfl⟩
  have hlength : (shortParts 'a' 'b').text.length = 20 := rfl
  simp only [mapLines_commentedFile, placedLines, hfirst, hcomment, hlast,
    hlength, Option.map_some, Option.map_none, Option.toList_some,
    Option.toList_none, List.length_cons, List.length_replicate,
    List.nil_append, List.append_nil, List.singleton_append]
  congr 3
  omega

/-- The chain ends before a mapping that lies 65536 bytes further on: its distance is
stored as zero. -/
theorem chain_loses_mapping :
    ∃ outcome, filemapParse "map" 0 (commentedFile 65513) = some outcome ∧
      outcome.finish = .returned 0 ∧
      mapEntries (commentedFile 65513) =
        [(['/', 'a'], ['/', 'b']), (['/', 'c'], ['/', 'd'])] ∧
      ¬ ChainYields outcome (mapEntries (commentedFile 65513)) := by
  obtain ⟨outcome, hparse, hreturns⟩ := @filemapParse_returns_iff 0 "map"
    (commentedFile 65513) (nul_notMem_commentedFile _)
  have haccepted := hreturns.2 (lineOk_commentedFile _)
  obtain ⟨prev, b, hinv⟩ :=
    chainInv_of_accepted (nul_notMem_commentedFile _) hparse haccepted
  have hentries : mapEntries (commentedFile 65513) =
      [(['/', 'a'], ['/', 'b']), (['/', 'c'], ['/', 'd'])] := by
    rw [mapEntries, ← placedLines_entries 0 0, placedLines_commentedFile]
    rfl
  rw [placedLines_commentedFile] at hinv
  have hhead : outcome.filemap = some 0 := hinv.head
  have hdistance : ((shortParts 'c' 'd').placed 0 (65513 + 23)).map -
      ((shortParts 'a' 'b').placed 0 0).map = 65536 := rfl
  have hnext : readShort outcome.memory (0 + 4) = 0 := by
    have hlinks := (List.isChain_cons_cons.1 hinv.linked).1.2
    rwa [hdistance] at hlinks
  refine ⟨outcome, hparse, haccepted, hentries, ?_⟩
  rintro ⟨fuel, places, hwalk, hread⟩
  rw [hhead, walkFilemap] at hwalk
  cases fuel with
  | zero => cases hwalk
  | succ fuel =>
      rw [walkChain_succ, if_pos hnext] at hwalk
      obtain rfl := Option.some.inj hwalk
      rw [hentries] at hread
      have hlength := congrArg List.length hread
      cases hlength

end IbcsUs.Names
