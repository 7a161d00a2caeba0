import RabiRoute.Collections.BitFilter
import RabiRoute.MessageContext.Records

/-!
# Archives and their hints

An archive is immutable.  The catalog notes the bounds of its times and sequences and a filter of its
identities; both hold for one version of the file only.
-/

open Collections

namespace RabiRoute.MessageContext

/-- `messageHistoryFileVersion` -/
structure FileVersion where
  inode : Nat
  size : Nat
  mtimeMs : Nat
  ctimeMs : Nat
deriving DecidableEq

structure QueryBounds where
  minTime : ℚ
  maxTime : ℚ
  minSequence : Nat
  maxSequence : Nat

structure DuplicateFilter where
  schemaVersion : Nat
  bits : List Nat
  sha256 : List Nat
  byteLength : Nat
  mtimeMs : Nat
  sourceVersion : Option FileVersion
  queryBounds : Option QueryBounds

/-- SHA-256 of the UTF-8 of a key, and of the bytes of a filter. -/
structure Hashes where
  ofKey : JsString → List Nat
  ofBits : List Nat → List Nat

structure Archive where
  lines : List MessageContextRecord
  version : FileVersion
  duplicateFilter : Option DuplicateFilter

section

variable (hashes : Hashes)

def readUInt32LE (bytes : List Nat) (offset : Nat) : Nat :=
  bytes.getD offset 0 + 256 * (bytes.getD (offset + 1) 0 + 256 * (bytes.getD (offset + 2) 0 +
    256 * bytes.getD (offset + 3) 0))

def duplicateFilterPositions (key : JsString) (byteLength : Nat) : List Nat :=
  [0, 4, 8, 12].map fun offset ↦ readUInt32LE (hashes.ofKey key) offset % (byteLength * 8)

def boundsOf : List MessageContextRecord → Option QueryBounds
  | [] => none
  | record :: records =>
    let sequence := record.sequence.getD 0
    match boundsOf records with
    | none => some ⟨record.time, record.time, sequence, sequence⟩
    | some bounds =>
      some ⟨min record.time bounds.minTime, max record.time bounds.maxTime,
        min sequence bounds.minSequence, max sequence bounds.maxSequence⟩

def addKey (bits : List Nat) (record : MessageContextRecord) : List Nat :=
  BitFilter.setBits bits (duplicateFilterPositions hashes (dedupeKey record) bits.length)

def buildDuplicateFilter (records : List MessageContextRecord) (sourceVersion : FileVersion) : DuplicateFilter :=
  let bits := records.foldl (addKey hashes) (List.replicate (min (1024 * 1024) (max 128 (records.length * 2))) 0)
  { schemaVersion := 1
    bits
    sha256 := hashes.ofBits bits
    byteLength := sourceVersion.size
    mtimeMs := sourceVersion.mtimeMs
    sourceVersion := some sourceVersion
    queryBounds := boundsOf records }

namespace Archive

variable (archive : Archive)

def archiveIdentityProbe (key : JsString) : Bool :=
  match archive.duplicateFilter with
  | none => true
  | some filter =>
    if filter.schemaVersion ≠ 1 then true
    else if archive.version.size ≠ filter.byteLength ∨ archive.version.mtimeMs ≠ filter.mtimeMs then true
    else if filter.sourceVersion ≠ some archive.version then true
    else if filter.bits = [] ∨ hashes.ofBits filter.bits ≠ filter.sha256 then true
    else (duplicateFilterPositions hashes key filter.bits.length).all (BitFilter.hasBit filter.bits)

/-- The noted bounds, when they are of this version of the file. -/
def verifiedBounds : Option QueryBounds :=
  archive.duplicateFilter.bind fun filter ↦
    if filter.sourceVersion = some archive.version then filter.queryBounds else none

end Archive

/-! ## Who writes the hints -/

/-- `prepareArchiveDuplicateFilters` of one archive: a hint that is missing or of another version is made anew. -/
def prepareArchiveDuplicateFilter (clock : ℚ) (archive : Archive) : Archive :=
  if archive.duplicateFilter.any fun filter ↦
      decide (filter.schemaVersion = 1 ∧ filter.byteLength = archive.version.size ∧
        filter.mtimeMs = archive.version.mtimeMs ∧ filter.sourceVersion = some archive.version ∧
        hashes.ofBits filter.bits = filter.sha256) then archive
  else { archive with
    duplicateFilter := some (buildDuplicateFilter hashes (recordsFromFile clock archive.lines) archive.version) }

structure ArchiveOptions where
  archiveCheck : Bool := true
  nowMs : ℚ
  triggerOlderThanHours : ℚ := 72
  includeOlderThanHours : ℚ := 24

/-- `archiveEligiblePrefix`: the new archive, as a file of this version, and the records that remain.  The
archive is the last of the catalog. -/
def archiveEligiblePrefix (options : ArchiveOptions) (version : FileVersion) (archives : List Archive)
    (records : List MessageContextRecord) : List Archive × List MessageContextRecord :=
  let triggerBefore := (options.nowMs - max 1 options.triggerOlderThanHours * 60 * 60 * 1000) / 1000
  let includeBefore := (options.nowMs - max 1 options.includeOlderThanHours * 60 * 60 * 1000) / 1000
  let archived := records.takeWhile fun item ↦ decide (item.time ≤ includeBefore)
  if !options.archiveCheck || !(records.any fun item ↦ decide (item.time ≤ triggerBefore)) then (archives, records)
  else if (archived.head?.bind MessageContextRecord.sequence).isNone ||
      (archived.getLast?.bind MessageContextRecord.sequence).isNone then (archives, records)
  else (archives ++ [⟨archived, version, some (buildDuplicateFilter hashes archived version)⟩],
    records.drop archived.length)

end

/-- The hint was made from the records of the file, or from those that were written to it; these had been read
from the current file, with their times. -/
def Archive.Written (hashes : Hashes) (archive : Archive) : Prop :=
  (∀ line ∈ archive.lines, 0 < line.time) ∧
    ∀ filter, archive.duplicateFilter = some filter → filter.sourceVersion = some archive.version →
      ∃ noted, filter = buildDuplicateFilter hashes noted archive.version ∧
        ((∃ clock, noted = recordsFromFile clock archive.lines) ∨
          (archive.lines = noted ∧ ∀ record ∈ noted, ∃ clock line, 0 < line.time ∧ storedRecord clock line = some record))

variable {hashes : Hashes}

theorem written_archiveEligiblePrefix {options : ArchiveOptions} {version : FileVersion} {archives : List Archive}
    {clock : ℚ} {lines : List MessageContextRecord} (harchives : ∀ archive ∈ archives, archive.Written hashes)
    (hlines : ∀ line ∈ lines, 0 < line.time) :
    ∀ archive ∈ (archiveEligiblePrefix hashes options version archives (recordsFromFile clock lines)).1,
      archive.Written hashes := by
  unfold archiveEligiblePrefix
  dsimp only
  split
  · exact harchives
  split
  · exact harchives
  intro archive harchive
  cases List.mem_append.mp harchive with
  | inl hold => exact harchives archive hold
  | inr hnew =>
    rw [List.mem_singleton.mp hnew]
    have hread : ∀ record ∈ (recordsFromFile clock lines).takeWhile
        (fun item => decide (item.time ≤ (options.nowMs - max 1 options.includeOlderThanHours * 60 * 60 * 1000) / 1000)),
        ∃ clock line, 0 < line.time ∧ storedRecord clock line = some record := by
      intro record hrecord
      obtain ⟨line, hline, hstored⟩ := List.mem_filterMap.mp ((List.takeWhile_sublist _).subset hrecord)
      exact ⟨clock, line, hlines line hline, hstored⟩
    constructor
    · intro record hrecord
      obtain ⟨clock, line, hpos, hstored⟩ := hread record hrecord
      exact storedRecord_pos hpos hstored
    · intro filter hfilter _
      cases hfilter
      exact ⟨_, rfl, Or.inr ⟨rfl, hread⟩⟩

/-! ## What the hints say -/

theorem boundsOf_mem {records : List MessageContextRecord} {bounds : QueryBounds} {record : MessageContextRecord}
    (h : boundsOf records = some bounds) (hmem : record ∈ records) :
    bounds.minTime ≤ record.time ∧ record.time ≤ bounds.maxTime ∧
      bounds.minSequence ≤ record.sequence.getD 0 ∧ record.sequence.getD 0 ≤ bounds.maxSequence := by
  induction records generalizing bounds with
  | nil => cases hmem
  | cons first records ih =>
    unfold boundsOf at h
    cases hrest : boundsOf records with
    | none =>
      rw [hrest] at h
      cases h
      cases List.mem_cons.mp hmem with
      | inl heq => rw [heq]; exact ⟨le_refl _, le_refl _, le_refl _, le_refl _⟩
      | inr hin =>
        cases records with
        | nil => cases hin
        | cons second records =>
          unfold boundsOf at hrest
          dsimp only at hrest
          split at hrest <;> cases hrest
    | some rest =>
      rw [hrest] at h
      cases h
      cases List.mem_cons.mp hmem with
      | inl heq =>
        rw [heq]
        exact ⟨min_le_left _ _, le_max_left _ _, min_le_left _ _, le_max_left _ _⟩
      | inr hin =>
        obtain ⟨hmin, hmax, hfirst, hlast⟩ := ih hrest hin
        exact ⟨min_le_of_right_le hmin, le_max_of_le_right hmax, min_le_of_right_le hfirst, le_max_of_le_right hlast⟩

theorem length_foldl_addKey (bits : List Nat) (records : List MessageContextRecord) :
    (records.foldl (addKey hashes) bits).length = bits.length := by
  induction records generalizing bits with
  | nil => rfl
  | cons record records ih =>
    rw [List.foldl_cons, ih]
    exact BitFilter.length_setBits

theorem hasBit_foldl_addKey {bits : List Nat} {position : Nat} (records : List MessageContextRecord) (h :
    BitFilter.hasBit bits position = true) : BitFilter.hasBit (records.foldl (addKey hashes) bits) position = true := by
  induction records generalizing bits with
  | nil => exact h
  | cons record records ih => exact ih (BitFilter.hasBit_setBits_of_hasBit h)

/-- Every position of a record's key is set. -/
theorem hasBit_of_mem {bits : List Nat} {records : List MessageContextRecord} {record : MessageContextRecord} {position
    : Nat} (hbits : bits ≠ []) (hmem : record ∈ records) (hposition : position ∈ duplicateFilterPositions hashes
    (dedupeKey record) bits.length) : BitFilter.hasBit (records.foldl (addKey hashes) bits) position = true := by
  have hlt : position < 8 * bits.length := by
    have hpos := List.length_pos_iff.mpr hbits
    obtain ⟨offset, _, hoffset⟩ := List.mem_map.mp hposition
    have hmod := Nat.mod_lt (readUInt32LE (hashes.ofKey (dedupeKey record)) offset)
      (show 0 < bits.length * 8 by omega)
    omega
  induction records generalizing bits with
  | nil => cases hmem
  | cons first records ih =>
    rw [List.foldl_cons]
    have hlength : (addKey hashes bits first).length = bits.length := BitFilter.length_setBits
    cases List.mem_cons.mp hmem with
    | inl heq =>
      apply hasBit_foldl_addKey
      rw [heq] at hposition
      exact BitFilter.hasBit_setBits hposition hlt
    | inr hin =>
      apply ih _ hin
      · rw [hlength]; exact hposition
      · rw [hlength]; exact hlt
      · intro hnil
        rw [hnil] at hlength
        exact hbits (List.length_eq_zero_iff.mp hlength.symm)

/-- The filter takes every identity of the records that it was made from. -/
theorem probe_of_mem {archive : Archive} {noted : List MessageContextRecord} {record : MessageContextRecord}
    (h : archive.duplicateFilter = some (buildDuplicateFilter hashes noted archive.version)) (hmem : record ∈ noted) :
    archive.archiveIdentityProbe hashes (dedupeKey record) = true := by
  unfold Archive.archiveIdentityProbe
  rw [h]
  unfold buildDuplicateFilter
  dsimp only
  split
  · rfl
  split
  · rfl
  split
  · rfl
  split
  · rfl
  rw [List.all_eq_true]
  intro position hposition
  rw [length_foldl_addKey] at hposition
  apply hasBit_of_mem ?_ hmem hposition
  rw [ne_eq, List.replicate_eq_nil_iff]
  omega

/-- A probe that does not take an identity has met a filter of this version. -/
theorem filter_of_probe {archive : Archive} {key : JsString} (h : archive.archiveIdentityProbe hashes key = false) :
    ∃ filter, archive.duplicateFilter = some filter ∧ filter.sourceVersion = some archive.version := by
  unfold Archive.archiveIdentityProbe at h
  cases hfilter : archive.duplicateFilter with
  | none => rw [hfilter] at h; cases h
  | some filter =>
    rw [hfilter] at h
    dsimp only at h
    split at h
    · cases h
    split at h
    · cases h
    split at h
    · cases h
    rename_i hversion
    exact ⟨filter, rfl, not_not.mp hversion⟩

/-- A record of the file is one of those that the hint was made from, read again. -/
theorem Archive.Written.noted {archive : Archive} {clock : ℚ} {filter : DuplicateFilter} {record : MessageContextRecord}
    (h : archive.Written hashes) (hfilter : archive.duplicateFilter = some filter)
    (hversion : filter.sourceVersion = some archive.version) (hmem : record ∈ recordsFromFile clock archive.lines) :
    ∃ noted first, filter = buildDuplicateFilter hashes noted archive.version ∧ first ∈ noted ∧
      ReadAgain first record ∧ (first ∈ archive.lines ∨ first = record) := by
  obtain ⟨noted, hbuild, hor⟩ := h.2 filter hfilter hversion
  obtain ⟨line, hline, hstored⟩ := List.mem_filterMap.mp hmem
  cases hor with
  | inl hfile =>
    obtain ⟨clock', hnoted⟩ := hfile
    refine ⟨noted, record, hbuild, ?_, ⟨rfl, rfl, le_refl _, fun _ => rfl⟩, Or.inr rfl⟩
    rw [hnoted]
    apply List.mem_filterMap.mpr
    exact ⟨line, hline, by rw [storedRecord_clock (h.1 line hline), hstored]⟩
  | inr hwritten =>
    have hnoted := hwritten.1 ▸ hline
    obtain ⟨clock', source, hpos, hread⟩ := hwritten.2 line hnoted
    exact ⟨noted, line, hbuild, hnoted, readAgain hpos hread hstored, Or.inl hline⟩

/-- An archive's probe takes the identities of its records. -/
theorem Archive.Written.probe {archive : Archive} {clock : ℚ} {record : MessageContextRecord}
    (h : archive.Written hashes) (hmem : record ∈ recordsFromFile clock archive.lines) :
    archive.archiveIdentityProbe hashes (dedupeKey record) = true := by
  cases hprobe : archive.archiveIdentityProbe hashes (dedupeKey record) with
  | true => rfl
  | false =>
    obtain ⟨filter, hfilter, hversion⟩ := filter_of_probe hprobe
    obtain ⟨noted, first, hbuild, hfirst, hagain, _⟩ := h.noted hfilter hversion hmem
    rw [hbuild] at hfilter
    have htrue := probe_of_mem hfilter hfirst
    unfold dedupeKey at hprobe htrue
    rw [← hagain.id, hprobe] at htrue
    cases htrue

/-- The noted bounds hold the records of the file, but for the earliest time. -/
theorem Archive.Written.bounds {archive : Archive} {clock : ℚ} {bounds : QueryBounds} {record : MessageContextRecord}
    (h : archive.Written hashes) (hbounds : archive.verifiedBounds = some bounds)
    (hmem : record ∈ recordsFromFile clock archive.lines) :
    record.time ≤ bounds.maxTime ∧ bounds.minSequence ≤ record.sequence.getD 0 ∧
      record.sequence.getD 0 ≤ bounds.maxSequence := by
  unfold Archive.verifiedBounds at hbounds
  obtain ⟨filter, hfilter, hif⟩ := Option.bind_eq_some_iff.mp hbounds
  split at hif
  · rename_i hversion
    obtain ⟨noted, first, hbuild, hfirst, hagain, _⟩ := h.noted hfilter hversion hmem
    rw [hbuild] at hif
    obtain ⟨_, hmax, hmin, hlast⟩ := boundsOf_mem hif hfirst
    rw [hagain.sequence]
    exact ⟨le_trans hagain.time_le hmax, hmin, hlast⟩
  · cases hif

/-- With times in seconds, also the earliest one. -/
theorem Archive.Written.minTime_le {archive : Archive} {clock : ℚ} {bounds : QueryBounds} {record : MessageContextRecord}
    (h : archive.Written hashes) (hseconds : ∀ line ∈ archive.lines, line.time < 100000000000)
    (hbounds : archive.verifiedBounds = some bounds) (hmem : record ∈ recordsFromFile clock archive.lines) :
    bounds.minTime ≤ record.time := by
  unfold Archive.verifiedBounds at hbounds
  obtain ⟨filter, hfilter, hif⟩ := Option.bind_eq_some_iff.mp hbounds
  split at hif
  · rename_i hversion
    obtain ⟨noted, first, hbuild, hfirst, hagain, hor⟩ := h.noted hfilter hversion hmem
    rw [hbuild] at hif
    have hmin := (boundsOf_mem hif hfirst).1
    cases hor with
    | inl hline => rw [hagain.time_eq (hseconds first hline)]; exact hmin
    | inr heq => rw [← heq]; exact hmin
  · cases hif

end RabiRoute.MessageContext
