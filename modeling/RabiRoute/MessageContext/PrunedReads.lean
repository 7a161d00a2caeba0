import RabiRoute.MessageContext.Recent

/-!
# Pruned reads

An archive is left out when its bounds leave no record for the query and it takes no identity of what is read;
the result is that of reading every archive, unless the bounds leave out a record of the archive itself.
-/

open Collections

namespace RabiRoute.MessageContext

variable {hashes : Hashes} {clock : ℚ} {toLocaleLowerCase : JsString → JsString}

/-! ## Leaving archives out -/

/-- The archives that are read. -/
def readArchives (clock : ℚ) (read : Archive → Bool) (archives : List Archive) : List MessageContextRecord :=
  archives.flatMap fun archive ↦ if read archive then archive.records clock else []

/-- Archives without a record of interest, and without the identity of a later one, can be left out. -/
theorem filter_firsts_readArchives {p : MessageContextRecord → Bool} {read : Archive → Bool} {archives : List Archive}
    {rest : List MessageContextRecord} (before : List MessageContextRecord)
    (hskipped : ∀ archive ∈ archives, read archive = false → ∀ record ∈ archive.records clock, p record = false)
    (howned : ∀ archive ∈ archives, read archive = false → ∀ record ∈ allArchiveRecords clock archives ++ rest,
      p record = true → dedupeKey record ∉ (archive.records clock).map dedupeKey) :
    (firsts dedupeKey (before ++ (readArchives clock read archives ++ rest))).filter p =
      (firsts dedupeKey (before ++ (allArchiveRecords clock archives ++ rest))).filter p := by
  induction archives generalizing before with
  | nil => rfl
  | cons archive archives ih =>
    have hall : allArchiveRecords clock (archive :: archives) =
        archive.records clock ++ allArchiveRecords clock archives := List.flatMap_cons
    have hread : readArchives clock read (archive :: archives) =
        (if read archive then archive.records clock else []) ++ readArchives clock read archives := List.flatMap_cons
    have hlater : ∀ record ∈ allArchiveRecords clock archives ++ rest,
        record ∈ allArchiveRecords clock (archive :: archives) ++ rest := by
      intro record hrecord
      rw [hall, List.append_assoc]
      exact List.mem_append_right _ hrecord
    have ih' := fun before => ih before
      (fun other hother => hskipped other (List.mem_cons_of_mem _ hother))
      (fun other hother hunread record hrecord =>
        howned other (List.mem_cons_of_mem _ hother) hunread record (hlater record hrecord))
    rw [hall, hread]
    cases harchive : read archive with
    | true =>
      simp only [if_true, List.append_assoc]
      rw [← List.append_assoc before, ← List.append_assoc before]
      exact ih' (before ++ archive.records clock)
    | false =>
      simp only [Bool.false_eq_true, if_false, List.nil_append, List.append_assoc]
      rw [ih' before]
      apply (filter_firsts_skip _ _).symm
      · exact hskipped archive List.mem_cons_self harchive
      · exact fun record hrecord => howned archive List.mem_cons_self harchive record (hlater record hrecord)

/-! ## Bounds -/

/-- What a query that takes the record says of its time and sequence. -/
theorem bounds_of_matches {item : MessageContextRecord} {query : RecentMessageContextQuery} {terms : List JsString}
    (h : matchesMessageQuery toLocaleLowerCase item query terms = true) :
    (∀ bound, query.fromTime = some bound → bound ≤ item.time) ∧
      (∀ bound, query.toTime = some bound → item.time ≤ bound) ∧
      (∀ bound, query.afterSequence = some bound → bound < item.sequence.getD 0) ∧
      (∀ bound, query.beforeSequence = some bound → (item.sequence.getD 0 : ℚ) ≤ bound) := by
  unfold matchesMessageQuery at h
  simp only [Bool.and_eq_true, Bool.not_eq_true'] at h
  obtain ⟨⟨⟨⟨⟨⟨_, hafter⟩, hbefore⟩, _⟩, hfrom⟩, hto⟩, _⟩ := h
  refine ⟨fun bound heq => ?_, fun bound heq => ?_, fun bound heq => ?_, fun bound heq => ?_⟩
  · rw [heq] at hfrom
    simpa using hfrom
  · rw [heq] at hto
    simpa using hto
  · rw [heq] at hafter
    simpa using hafter
  · rw [heq] at hbefore
    simpa using hbefore

/-- The bounds leave out no record of an archive for its time. -/
def Directory.Bounded (clock : ℚ) (dir : Directory) : Prop :=
  ∀ archive ∈ dir.archives, ∀ bounds, archive.verifiedBounds = some bounds →
    ∀ record ∈ archive.records clock, bounds.minTime ≤ record.time

/-- The hints are the store's own; without a catalog there are none. -/
structure Directory.Written (hashes : Hashes) (dir : Directory) : Prop where
  archives : ∀ archive ∈ dir.archives, archive.Written hashes
  catalog : dir.indexExists = false → ∀ archive ∈ dir.archives, archive.duplicateFilter = none

theorem Directory.Written.bounded {dir : Directory} (h : dir.Written hashes)
    (hseconds : ∀ archive ∈ dir.archives, ∀ line ∈ archive.lines, line.time < 100000000000) : dir.Bounded clock :=
  fun archive harchive _ hbounds _ hrecord =>
    (h.archives archive harchive).minTime_le (hseconds archive harchive) hbounds hrecord

/-- No record of an archive that is outside matches the query. -/
theorem not_matches_of_outside {archive : Archive} {query : RecentMessageContextQuery} {terms : List JsString}
    {record : MessageContextRecord} (hwritten : archive.Written hashes)
    (hbounded : ∀ bounds, archive.verifiedBounds = some bounds → bounds.minTime ≤ record.time)
    (hmem : record ∈ archive.records clock) (houtside : archive.outside query = true) :
    matchesMessageQuery toLocaleLowerCase record query terms = false := by
  rw [← Bool.not_eq_true]
  intro hmatches
  obtain ⟨hfrom, hto, hafter, hbefore⟩ := bounds_of_matches hmatches
  unfold Archive.outside at houtside
  obtain ⟨bounds, hbounds, hor⟩ := (Option.any_eq_true _ _).mp houtside
  obtain ⟨hmax, hfirst, hlast⟩ := hwritten.bounds hbounds hmem
  have hmin := hbounded bounds hbounds
  have hfirst' : (bounds.minSequence : ℚ) ≤ record.sequence.getD 0 := by exact_mod_cast hfirst
  have hlast' : (record.sequence.getD 0 : ℚ) ≤ bounds.maxSequence := by exact_mod_cast hlast
  simp only [Bool.or_eq_true, Option.any_eq_true, decide_eq_true_eq] at hor
  rcases hor with ((hcase | hcase) | hcase) | hcase
  · obtain ⟨bound, heq, hlt⟩ := hcase
    have := hfrom bound heq
    linarith
  · obtain ⟨bound, heq, hlt⟩ := hcase
    have := hto bound heq
    linarith
  · obtain ⟨bound, heq, hle⟩ := hcase
    have := hafter bound heq
    linarith
  · obtain ⟨bound, heq, hlt⟩ := hcase
    have := hbefore bound heq
    linarith

/-! ## One directory -/

theorem archiveRecords_eq (archives : List Archive) (outside : Archive → Bool) (current : List MessageContextRecord) :
    archiveRecords hashes clock archives outside current = readArchives clock (fun archive => !outside archive ||
      (current.map dedupeKey ++ (archives.filter fun archive => !outside archive).flatMap fun archive =>
        (archive.records clock).map dedupeKey).any (archive.archiveIdentityProbe hashes)) archives := by
  unfold archiveRecords readArchives
  apply List.flatMap_congr
  intro archive _
  by_cases houtside : outside archive = true
  · simp [houtside]
  · simp [houtside]

/-- What matches the query is the same with and without the archives that are left out. -/
theorem filter_archiveRecords {dir : Directory} {query : RecentMessageContextQuery} {terms : List JsString}
    (hwritten : dir.Written hashes) (hbounded : dir.Bounded clock) :
    (firsts dedupeKey (dir.records clock
        (fun current => archiveRecords hashes clock dir.archives (fun archive => archive.outside query) current)
        true)).filter (fun item => matchesMessageQuery toLocaleLowerCase item query terms) =
      (firsts dedupeKey (dir.records clock (fun _ => allArchiveRecords clock dir.archives) true)).filter
        fun item => matchesMessageQuery toLocaleLowerCase item query terms := by
  unfold Directory.records
  dsimp only
  rw [if_pos rfl, if_pos rfl, archiveRecords_eq]
  have hnone : ∀ archive ∈ dir.archives, archive.outside query = true →
      ∀ record ∈ archive.records clock, matchesMessageQuery toLocaleLowerCase record query terms = false :=
    fun archive harchive houtside record hrecord => not_matches_of_outside (hwritten.archives archive harchive)
      (fun bounds hbounds => hbounded archive harchive bounds hbounds record hrecord) hrecord houtside
  apply filter_firsts_readArchives []
  · intro archive harchive hunread record hrecord
    rw [Bool.or_eq_false_iff, Bool.not_eq_false'] at hunread
    exact hnone archive harchive hunread.1 record hrecord
  · intro archive harchive hunread record hrecord hmatches hmem
    rw [Bool.or_eq_false_iff, Bool.not_eq_false', List.any_eq_false] at hunread
    -- a record that matches is one whose identity is a candidate
    have hcandidate : dedupeKey record ∈ (recordsFromFile clock dir.current).map dedupeKey ++
        (dir.archives.filter fun archive => !archive.outside query).flatMap fun archive =>
          (archive.records clock).map dedupeKey := by
      rw [List.mem_append]
      cases List.mem_append.mp hrecord with
      | inl harchived =>
        obtain ⟨other, hother, hin⟩ := List.mem_flatMap.mp harchived
        have hinside : archive.outside query = true := hunread.1
        refine Or.inr (List.mem_flatMap.mpr ⟨other, List.mem_filter.mpr ⟨hother, ?_⟩, List.mem_map_of_mem hin⟩)
        cases hout : other.outside query with
        | false => rfl
        | true =>
          rw [hnone other hother hout record hin] at hmatches
          cases hmatches
      | inr hcurrent =>
        split at hcurrent
        · exact Or.inl (List.mem_map_of_mem hcurrent)
        · -- without a catalog no archive is outside
          rename_i hindex
          have hcatalog : dir.indexExists = false ∧ recordsFromFile clock dir.current = [] := by simpa using hindex
          have hfilter := hwritten.catalog hcatalog.1 archive harchive
          have hinside := hunread.1
          unfold Archive.outside Archive.verifiedBounds at hinside
          rw [hfilter] at hinside
          cases hinside
    obtain ⟨owner, howner, hkey⟩ := List.mem_map.mp hmem
    have hprobe := (hwritten.archives archive harchive).probe howner
    rw [hkey] at hprobe
    exact hunread.2 _ hcandidate hprobe

/-! ## Every list of directories -/

theorem foldl_addFirst_nil (records : List MessageContextRecord) :
    records.foldl (addFirst dedupeKey) [] = firsts dedupeKey records := by
  rw [foldl_addFirst]
  simp

/-- Two ways to read the archives that give the same matching records give the same result. -/
theorem recentItems_congr {archived archived' : Directory → List MessageContextRecord → List MessageContextRecord}
    {dirs : List Directory} {query : RecentMessageContextQuery}
    (h : (firsts dedupeKey (dirs.flatMap fun dir => dir.records clock (archived dir) query.includeArchives)).filter
        (fun item => matchesMessageQuery toLocaleLowerCase item query (queryTerms toLocaleLowerCase query)) =
      (firsts dedupeKey (dirs.flatMap fun dir => dir.records clock (archived' dir) query.includeArchives)).filter
        fun item => matchesMessageQuery toLocaleLowerCase item query (queryTerms toLocaleLowerCase query)) :
    recentItems clock toLocaleLowerCase archived dirs query = recentItems clock toLocaleLowerCase archived' dirs query := by
  unfold recentItems
  dsimp only
  rw [foldl_addFirst_nil, foldl_addFirst_nil, h]

/-- With several directories no archive is left out. -/
theorem archiveRecords_inside (archives : List Archive) (current : List MessageContextRecord) :
    archiveRecords hashes clock archives (fun _ => false) current = allArchiveRecords clock archives := by
  unfold archiveRecords allArchiveRecords
  apply List.flatMap_congr
  intro archive _
  rfl

theorem recent_eq_unpruned {dirs : List Directory} (hwritten : ∀ dir ∈ dirs, dir.Written hashes)
    (hbounded : ∀ dir, dirs = [dir] → dir.Bounded clock) (query : RecentMessageContextQuery) :
    recentMessageContextItems hashes clock toLocaleLowerCase dirs query =
      unprunedMessageContextItems clock toLocaleLowerCase dirs query := by
  apply recentItems_congr
  cases hincluded : query.includeArchives with
  | false => rfl
  | true =>
    cases dirs with
    | nil => rfl
    | cons dir dirs =>
      cases dirs with
      | nil =>
        simp only [List.flatMap_cons, List.flatMap_nil, List.append_nil]
        exact filter_archiveRecords (hwritten dir List.mem_cons_self) (hbounded dir rfl)
      | cons dir' dirs =>
        have hseveral : 1 < (dir :: dir' :: dirs).length := by
          show 1 < dirs.length + 1 + 1
          omega
        simp only [hseveral, decide_true, Bool.not_true, Bool.false_and, archiveRecords_inside]

/-! ## A record outside its archive's bounds -/

/-- Nothing is left out when the limits are wide enough. -/
theorem selectFromEnd_all {limit : Nat} {maxChars : ℚ} {items selected : List MessageContextRecord} {chars : Nat}
    (hlimit : selected.length + items.length ≤ limit) (hchars : ((chars + (items.map charCost).sum : ℕ) : ℚ) ≤ maxChars)
    : selectFromEnd limit maxChars items selected chars = selected ++ items := by
  induction items generalizing selected chars with
  | nil => simp [selectFromEnd]
  | cons item items ih =>
    rw [List.length_cons] at hlimit
    rw [List.map_cons, List.sum_cons] at hchars
    have hcost : ¬maxChars < (chars + charCost item : ℕ) := by
      rw [not_lt]
      refine le_trans ?_ hchars
      exact_mod_cast (show chars + charCost item ≤ chars + (charCost item + (items.map charCost).sum) by omega)
    rw [selectFromEnd, if_neg (by omega), if_neg (fun hand => hcost hand.2), ih]
    · rw [List.append_assoc, List.singleton_append]
    · rw [List.length_append, List.length_singleton]
      omega
    · rw [add_assoc]
      exact hchars

/-- A query for everything up to a time, with room for all of it. -/
def upTo (time : ℚ) (records : List MessageContextRecord) : RecentMessageContextQuery where
  limit := (records.length + 1 : ℕ)
  includeArchives := true
  toTime := some time
  maxChars := some ((records.map charCost).sum + 1 : ℕ)

theorem upTo_limit {time : ℚ} {records : List MessageContextRecord} :
    max 0 ⌊(upTo time records).limit⌋ = records.length + 1 := by
  have hfloor : ⌊((records.length + 1 : ℕ) : ℚ)⌋ = (records.length + 1 : ℕ) := Int.floor_natCast _
  unfold upTo
  rw [hfloor]
  omega

theorem upTo_maxChars {time : ℚ} {records : List MessageContextRecord} :
    ⌊(upTo time records).maxChars.getD defaultMaxChars⌋ = (records.map charCost).sum + 1 := by
  have hfloor : ⌊(((records.map charCost).sum + 1 : ℕ) : ℚ)⌋ = ((records.map charCost).sum + 1 : ℕ) :=
    Int.floor_natCast _
  unfold upTo
  rw [Option.getD_some, hfloor]
  omega

/-- Such a query takes every record that is read and not later. -/
theorem mem_recentItems {archived : Directory → List MessageContextRecord → List MessageContextRecord} {dirs : List
    Directory} {time : ℚ} {records : List MessageContextRecord} {record : MessageContextRecord} (hrecords : records =
    firsts dedupeKey (dirs.flatMap fun dir => dir.records clock (archived dir) true)) (hmem : record ∈ records) (htime :
    record.time ≤ time) : record ∈ recentItems clock toLocaleLowerCase archived dirs (upTo time records) := by
  have hmatches : matchesMessageQuery toLocaleLowerCase record (upTo time records)
      (queryTerms toLocaleLowerCase (upTo time records)) = true := by
    have hterms : queryTerms toLocaleLowerCase (upTo time records) = [] := by
      unfold queryTerms upTo
      rfl
    rw [hterms]
    unfold matchesMessageQuery upTo admits
    simp [htime]
  have hsublist : (records.filter fun item => matchesMessageQuery toLocaleLowerCase item (upTo time records)
      (queryTerms toLocaleLowerCase (upTo time records))).Sublist records := List.filter_sublist
  unfold recentItems
  rw [upTo_limit, upTo_maxChars, if_neg (by omega)]
  dsimp only
  rw [foldl_addFirst_nil, show (upTo time records).includeArchives = true from rfl, ← hrecords, selectFromEnd_all]
  · rw [List.nil_append, List.reverse_reverse]
    exact List.mem_filter.mpr ⟨hmem, hmatches⟩
  · have := hsublist.length_le
    rw [List.length_reverse, List.length_nil]
    omega
  · have hsum := (hsublist.map charCost).sum_le_sum (fun _ _ => Nat.zero_le _)
    have hsum' : ((0 + ((records.filter fun item => matchesMessageQuery toLocaleLowerCase item (upTo time records)
        (queryTerms toLocaleLowerCase (upTo time records))).map charCost).sum : ℕ) : ℚ) ≤
        ((records.map charCost).sum : ℕ) := by
      rw [zero_add]
      exact Nat.cast_le.mpr hsum
    rw [List.map_reverse, List.sum_reverse]
    refine le_trans hsum' (le_trans ?_ (le_max_right _ _))
    rw [Int.cast_add, Int.cast_natCast, Int.cast_one]
    exact le_add_of_nonneg_right zero_le_one

theorem selectFromEnd_subset {limit : Nat} {maxChars : ℚ} {items selected : List MessageContextRecord} {chars : Nat}
    {record : MessageContextRecord} (h : record ∈ selectFromEnd limit maxChars items selected chars) :
    record ∈ selected ∨ record ∈ items := by
  induction items generalizing selected chars with
  | nil => exact Or.inl h
  | cons item items ih =>
    unfold selectFromEnd at h
    split at h
    · exact Or.inl h
    split at h
    · cases ih h with
      | inl hin => exact Or.inl hin
      | inr hin => exact Or.inr (List.mem_cons_of_mem _ hin)
    · cases ih h with
      | inl hin =>
        cases List.mem_append.mp hin with
        | inl hold => exact Or.inl hold
        | inr hnew => exact Or.inr (List.mem_singleton.mp hnew ▸ List.mem_cons_self)
      | inr hin => exact Or.inr (List.mem_cons_of_mem _ hin)

/-- What is returned was read. -/
theorem read_of_mem_recentItems {archived : Directory → List MessageContextRecord → List MessageContextRecord}
    {dirs : List Directory} {query : RecentMessageContextQuery} {record : MessageContextRecord}
    (h : record ∈ recentItems clock toLocaleLowerCase archived dirs query) :
    record ∈ dirs.flatMap fun dir => dir.records clock (archived dir) query.includeArchives := by
  unfold recentItems at h
  dsimp only at h
  split at h
  · cases h
  · rw [List.mem_reverse] at h
    cases selectFromEnd_subset h with
    | inl hin => cases hin
    | inr hin =>
      rw [List.mem_reverse, List.mem_filter, foldl_addFirst_nil] at hin
      exact mem_of_mem_firsts hin.1

/-- The archive's probe takes no identity of the current file or of another archive. -/
structure Archive.Apart (hashes : Hashes) (clock : ℚ) (dir : Directory) (archive : Archive) : Prop where
  current : ∀ record ∈ recordsFromFile clock dir.current,
    archive.archiveIdentityProbe hashes (dedupeKey record) = false
  others : ∀ other ∈ dir.archives, other ≠ archive → ∀ record ∈ other.records clock,
    archive.archiveIdentityProbe hashes (dedupeKey record) = false

/-- What is read up to a time before the archive's earliest one has no identity that its probe takes. -/
theorem Archive.Apart.not_probed {dir : Directory} {archive : Archive} {bounds : QueryBounds} {time : ℚ}
    {records : List MessageContextRecord} {record : MessageContextRecord} (h : archive.Apart hashes clock dir)
    (hbounds : archive.verifiedBounds = some bounds) (hearly : time < bounds.minTime)
    (hcatalog : dir.indexExists = false → archive.duplicateFilter = none)
    (hread : record ∈ [dir].flatMap fun dir => dir.records clock (fun current => archiveRecords hashes clock dir.archives
      (fun archive => !decide (1 < [dir].length) && archive.outside (upTo time records)) current) true) :
    archive.archiveIdentityProbe hashes (dedupeKey record) = false := by
  have houtside : archive.outside (upTo time records) = true := by
    unfold Archive.outside upTo
    rw [hbounds]
    simp [hearly]
  rw [List.flatMap_singleton] at hread
  unfold Directory.records at hread
  dsimp only [List.length_singleton] at hread
  rw [if_pos rfl] at hread
  cases List.mem_append.mp hread with
  | inr hcurrent =>
    split at hcurrent
    · exact h.current record hcurrent
    · -- without a catalog there are no bounds
      rename_i hindex
      have hmissing : dir.indexExists = false ∧ recordsFromFile clock dir.current = [] := by simpa using hindex
      unfold Archive.verifiedBounds at hbounds
      rw [hcatalog hmissing.1] at hbounds
      cases hbounds
  | inl harchived =>
    unfold archiveRecords at harchived
    obtain ⟨other, hother, hin⟩ := List.mem_flatMap.mp harchived
    by_cases heq : other = archive
    · exfalso
      rw [heq, if_neg (by simp [houtside])] at hin
      split at hin
      · rename_i hhit
        obtain ⟨key, hkey, hprobe⟩ := List.any_eq_true.mp hhit
        cases List.mem_append.mp hkey with
        | inl hcurrent =>
          obtain ⟨current, hcurrent, heq⟩ := List.mem_map.mp hcurrent
          rw [← heq, h.current current hcurrent] at hprobe
          cases hprobe
        | inr hloaded =>
          obtain ⟨third, hthird, hkey⟩ := List.mem_flatMap.mp hloaded
          obtain ⟨owner, howner, heq⟩ := List.mem_map.mp hkey
          have hinside := (List.mem_filter.mp hthird).2
          have hne : third ≠ archive := fun heq => by simp [heq, houtside] at hinside
          rw [← heq, h.others third (List.mem_filter.mp hthird).1 hne owner howner] at hprobe
          cases hprobe
      · cases hin
    · apply h.others other hother heq record
      split at hin
      · exact hin
      split at hin
      · exact hin
      · cases hin

/-- A record that its archive's bounds leave out is missing from a pruned read. -/
theorem exists_query_of_early {dir : Directory} {archive : Archive} {bounds : QueryBounds}
    {record : MessageContextRecord} (hwritten : dir.Written hashes) (harchive : archive ∈ dir.archives)
    (hbounds : archive.verifiedBounds = some bounds) (hmem : record ∈ archive.records clock)
    (hfirst : record ∈ firsts dedupeKey (allArchiveRecords clock dir.archives))
    (hearly : record.time < bounds.minTime) (hapart : archive.Apart hashes clock dir) :
    ∃ query, query.includeArchives = true ∧ recentMessageContextItems hashes clock toLocaleLowerCase [dir] query ≠
      unprunedMessageContextItems clock toLocaleLowerCase [dir] query := by
  let records := firsts dedupeKey ([dir].flatMap fun dir =>
    dir.records clock (fun _ => allArchiveRecords clock dir.archives) true)
  have hread : record ∈ records := by
    show record ∈ firsts dedupeKey _
    rw [List.flatMap_singleton]
    unfold Directory.records
    dsimp only
    rw [if_pos rfl, firsts_append]
    exact List.mem_append_left _ hfirst
  refine ⟨upTo record.time records, rfl, fun heq => ?_⟩
  have hshown : record ∈ recentMessageContextItems hashes clock toLocaleLowerCase [dir] (upTo record.time records) := by
    rw [heq]
    exact mem_recentItems rfl hread (le_refl _)
  have howned := (hwritten.archives archive harchive).probe hmem
  have hnot := hapart.not_probed hbounds hearly (hwritten.catalog · archive harchive)
    (read_of_mem_recentItems hshown)
  rw [howned] at hnot
  cases hnot

/-- Reads of one directory agree with reading every archive when no archived record, as it is read back, is earlier
than the noted bounds; one that is, and whose identity brings in no other read, is missed.  Reads of several
directories always agree. -/
theorem pruned_reads_agree {dirs : List Directory} (hwritten : ∀ dir ∈ dirs, dir.Written hashes) :
    ((∀ dir, dirs = [dir] → dir.Bounded clock) →
      ∀ query, recentMessageContextItems hashes clock toLocaleLowerCase dirs query =
        unprunedMessageContextItems clock toLocaleLowerCase dirs query) ∧
    ∀ dir archive bounds record, dirs = [dir] → archive ∈ dir.archives → archive.verifiedBounds = some bounds →
      record ∈ archive.records clock → record ∈ firsts dedupeKey (allArchiveRecords clock dir.archives) →
      record.time < bounds.minTime → archive.Apart hashes clock dir →
      ∃ query, query.includeArchives = true ∧
        recentMessageContextItems hashes clock toLocaleLowerCase dirs query ≠
          unprunedMessageContextItems clock toLocaleLowerCase dirs query := by
  constructor
  · exact recent_eq_unpruned hwritten
  · intro dir archive bounds record hdirs harchive hbounds hmem hfirst hearly hapart
    subst hdirs
    exact exists_query_of_early (hwritten dir List.mem_cons_self) harchive hbounds hmem hfirst hearly hapart

/-! ## A time that is scaled once more -/

/-- A line of a current file. -/
def sentLine (time : ℚ) : MessageContextRecord :=
  { id := js "m1", sequence := some 1, time, adapter := js "napcat", channel := js "message",
    conversationKey := js "k", text := js "hi" }

/-- Any hash will do. -/
def plainHashes : Hashes := ⟨fun key ↦ key.map UInt16.toNat, id⟩

/-- The directory after the line has been rotated into an archive. -/
def rotated (time : ℚ) : Directory :=
  let (archives, current) := archiveEligiblePrefix plainHashes { nowMs := 1000000000000000 } ⟨1, 90, 5, 5⟩ []
    (recordsFromFile 0 [sentLine time])
  { archives, current, indexExists := true, legacyItems := [] }

theorem rotated_written {time : ℚ} (h : 0 < time) : (rotated time).Written plainHashes where
  archives := by
    apply written_archiveEligiblePrefix
    · intro archive harchive
      cases harchive
    · intro line hline
      rw [List.mem_singleton.mp hline]
      exact h
  catalog := fun hmissing => by cases hmissing

theorem pruned_reads_agree_of_seconds :
    recentMessageContextItems plainHashes 0 id [rotated 1500] (upTo 2000 []) =
      unprunedMessageContextItems 0 id [rotated 1500] (upTo 2000 []) := by
  apply (pruned_reads_agree fun dir hdir ↦ List.mem_singleton.mp hdir ▸ rotated_written (by decide)).1
  intro dir hdir
  rw [← List.singleton_inj.mp hdir]
  apply (rotated_written (by decide)).bounded
  decide +kernel

theorem pruned_read_misses_rotated :
    ¬∀ (hashes : Hashes) (clock : ℚ) (toLocaleLowerCase : JsString → JsString) (dirs : List Directory)
      (query : RecentMessageContextQuery), (∀ dir ∈ dirs, dir.Written hashes) → query.includeArchives = true →
      recentMessageContextItems hashes clock toLocaleLowerCase dirs query =
        unprunedMessageContextItems clock toLocaleLowerCase dirs query := by
  intro h
  have heq := h plainHashes 0 id [rotated 100000000000000000]
    { limit := 10, includeArchives := true, toTime := some 200000000 }
    (fun dir hdir ↦ List.mem_singleton.mp hdir ▸ rotated_written (by decide)) rfl
  revert heq
  decide +kernel

end RabiRoute.MessageContext
