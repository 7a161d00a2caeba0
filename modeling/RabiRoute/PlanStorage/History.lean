import RabiRoute.Collections.InsertionMap
import RabiRoute.Collections.Sorting
import RabiRoute.Shared.Fallible
import RabiRoute.Shared.JsString

/-!
# The history files of a plan

The history of a plan is `history.jsonl` and the numbered files behind it, which are read as one.  A record is appended to
the last file, or to a new one when the last is full.
-/

open Collections Fallible

namespace RabiRoute.PlanHistory

abbrev Bytes := List UInt8
abbrev Files := InsertionMap JsString Bytes

def planHistoryFile : JsString := js "history.jsonl"
def planHistoryFileLimit : Nat := 16 * 1024 * 1024
def historyDirectory : JsString := js "history/"

/-! ## The files in order -/

/-- `String(n).padStart(6, "0")`, for a number of at most six digits. -/
def sixDigits (n : Nat) : JsString := [100000, 10000, 1000, 100, 10, 1].map fun place ↦ (48 + n / place % 10).toUInt16

def shardName (n : Nat) : JsString := historyDirectory ++ (sixDigits n ++ js ".jsonl")

def isShard (file : JsString) : Bool := historyDirectory.isPrefixOf file

def isDigit (u : UInt16) : Bool := 48 ≤ u && u ≤ 57

/-- `SHARD_NAME.exec(file)`, and the number that it finds. -/
def shardNumber (file : JsString) : Option Nat :=
  let digits := (file.drop 8).take 6
  if isShard file && digits.length = 6 && digits.all isDigit && file.drop 14 = js ".jsonl" then
    some (digits.foldl (fun number u ↦ 10 * number + (u.toNat - 48)) 0)
  else none

def numbered (file : JsString) : Except JsString (JsString × Nat) :=
  match (shardNumber file).filter fun number ↦ 1 ≤ number with
  | none => .error (js "Invalid plan history shard: " ++ file)
  | some number => .ok (file, number)

/-- The numbers of the sorted shards follow `index` without a gap. -/
def checkNumbers : Nat → List (JsString × Nat) → Except JsString Unit
  | _, [] => .ok ()
  | index, (file, number) :: rest =>
    if number ≠ index + 1 then .error (js "Plan history shard is missing or duplicated before: " ++ file)
    else checkNumbers (index + 1) rest

def sortShards : List (JsString × Nat) → List (JsString × Nat) := sortBy fun left right ↦ compare left.2 right.2

def orderedPlanHistoryPaths (all : List JsString) : Except JsString (List JsString) :=
  if planHistoryFile ∉ all then
    if all.filter isShard = [] then .ok [] else .error (js "Plan history shards require history.jsonl.")
  else do
    let numbered ← (all.filter isShard).mapM numbered
    checkNumbers 0 (sortShards numbered)
    return planHistoryFile :: (sortShards numbered).map Prod.fst

/-! ## Reading and appending -/

/-- The line feed between a chunk that does not end with one and the next. -/
def separator (bytes : Bytes) : Bytes := if bytes ≠ [] ∧ bytes.getLast? ≠ some 10 then [10] else []

/-- The chunks behind the chunk `previous`. -/
def concat : Bytes → List Bytes → Bytes
  | _, [] => []
  | previous, chunk :: rest => separator previous ++ chunk ++ concat chunk rest

def chunksOf (files : Files) (paths : List JsString) : List Bytes := paths.map fun file ↦ (files.get? file).getD []

def readPlanHistoryBytes (files : Files) : Except JsString Bytes :=
  (orderedPlanHistoryPaths files.keys).map fun paths ↦ concat [] (chunksOf files paths)

/-- `record` is the UTF-8 text of `JSON.stringify`. -/
def appendPlanHistoryRecord (files : Files) (record : Bytes) : Except JsString Files :=
  if planHistoryFileLimit < (record ++ [10]).length then
    .error (js "Plan history record exceeds the per-file limit.")
  else do
    let paths ← orderedPlanHistoryPaths files.keys
    let latest := paths.getLast?.getD planHistoryFile
    let current := (files.get? latest).getD []
    if current.length + (separator current).length + (record ++ [10]).length ≤ planHistoryFileLimit then
      return files.set latest (current ++ separator current ++ (record ++ [10]))
    else if current = [] then .error (js "Plan history base must contain a complete record.")
    else if 999999 < paths.length || files.has (shardName paths.length) then
      .error (js "Plan history shard capacity exceeded.")
    else return files.set (shardName paths.length) (record ++ [10])

/-! ## Names -/

theorem isShard_shardName (n : Nat) : isShard (shardName n) = true :=
  List.isPrefixOf_iff_prefix.mpr (List.prefix_append _ _)

theorem shardNumber_shardName {n : Nat} (h : n ≤ 999999) : shardNumber (shardName n) = some n := by
  have hdirectory : historyDirectory.length = 8 := by decide
  have hdigits : (sixDigits n).length = 6 := rfl
  have hdrop : (shardName n).drop 8 = sixDigits n ++ js ".jsonl" := by
    rw [shardName, ← hdirectory, List.drop_left]
  have htake : ((shardName n).drop 8).take 6 = sixDigits n := by
    rw [hdrop, ← hdigits, List.take_left]
  have hrest : (shardName n).drop 14 = js ".jsonl" := by
    rw [← List.drop_drop (i := 6) (j := 8), hdrop, ← hdigits, List.drop_left]
  have hdigit (d : Nat) : (48 + d % 10).toUInt16.toNat = 48 + d % 10 := by
    rw [Nat.toUInt16, UInt16.toNat_ofNat_of_lt']
    exact Nat.lt_of_lt_of_le (Nat.add_lt_add_left (Nat.mod_lt d (by decide)) 48) (by decide)
  have hall : (sixDigits n).all isDigit = true := by
    rw [List.all_eq_true]
    intro u hu
    obtain ⟨place, -, rfl⟩ := List.mem_map.mp hu
    simp only [isDigit, Bool.and_eq_true, decide_eq_true_eq, UInt16.le_iff_toNat_le, hdigit]
    exact ⟨Nat.le_add_right _ _, Nat.add_le_add_left (Nat.le_of_lt_succ (Nat.mod_lt _ (by decide))) 48⟩
  have hvalue : (sixDigits n).foldl (fun number u => 10 * number + (u.toNat - 48)) 0 = n := by
    simp only [sixDigits, List.map_cons, List.map_nil, List.foldl_cons, List.foldl_nil, hdigit]
    omega
  simp only [shardNumber, htake, hrest, isShard_shardName, hall, hdigits, hvalue, decide_true, Bool.and_self, if_true]

theorem isShard_planHistoryFile : isShard planHistoryFile = false := by decide

/-! ## Ordered files -/

theorem checkNumbers_ok {index : Nat} {shards : List (JsString × Nat)} :
    checkNumbers index shards = .ok () ↔ shards.map Prod.snd = List.range' (index + 1) shards.length := by
  induction shards generalizing index with
  | nil => exact iff_of_true rfl rfl
  | cons shard shards ih =>
    rw [checkNumbers, List.map_cons, List.length_cons, List.range'_succ, List.cons.injEq, ← ih]
    split
    case isTrue hne => exact ⟨fun h => (by cases h), fun h => absurd h.1 hne⟩
    case isFalse heq => exact ⟨fun h => ⟨not_not.mp heq, h⟩, And.right⟩

theorem numbered_fst {file : JsString} {shard : JsString × Nat} (h : numbered file = .ok shard) : shard.1 = file := by
  unfold numbered at h
  split at h
  · cases h
  · cases h
    rfl

/-- The files that are read in order: none, or `history.jsonl` and the shards with the numbers from 1 on. -/
inductive Ordered (all : List JsString) : List JsString → Prop where
  | none : planHistoryFile ∉ all → all.filter isShard = [] → Ordered all []
  | some {shards : List (JsString × Nat)} : planHistoryFile ∈ all → (all.filter isShard).mapM numbered = .ok shards →
      (sortShards shards).map Prod.snd = List.range' 1 shards.length →
      Ordered all (planHistoryFile :: (sortShards shards).map Prod.fst)

theorem length_sortShards (shards : List (JsString × Nat)) : (sortShards shards).length = shards.length :=
  (sortBy_perm shards).length_eq

theorem ordered_iff {all paths : List JsString} : orderedPlanHistoryPaths all = .ok paths ↔ Ordered all paths := by
  unfold orderedPlanHistoryPaths
  constructor
  · intro h
    split at h
    case isTrue hnone =>
      split at h
      case isTrue hempty =>
        cases h
        exact .none hnone hempty
      case isFalse => cases h
    case isFalse hsome =>
      obtain ⟨shards, hshards, hrest⟩ := bind_ok.mp h
      obtain ⟨⟨⟩, hcheck, hpaths⟩ := bind_ok.mp hrest
      cases hpaths
      rw [checkNumbers_ok, length_sortShards] at hcheck
      exact .some (not_not.mp hsome) hshards hcheck
  · intro h
    cases h with
    | none hnone hempty => rw [if_pos hnone, if_pos hempty]
    | some hsome hshards hcheck =>
      rw [if_neg (not_not.mpr hsome), hshards]
      have hok : checkNumbers 0 (sortShards _) = .ok () := checkNumbers_ok.mpr (length_sortShards _ ▸ hcheck)
      show (checkNumbers 0 _ >>= fun _ => _) = _
      rw [hok]
      rfl

theorem map_fst_numbered {files : List JsString} {shards : List (JsString × Nat)} (h : files.mapM numbered = .ok shards) :
    shards.map Prod.fst = files := by
  have hall := mapM_ok h
  clear h
  induction hall with
  | nil => rfl
  | cons hfile _ ih => rw [List.map_cons, ih, numbered_fst hfile]

/-- The shards that are read are those that stand there. -/
theorem sortShards_perm {all : List JsString} {shards : List (JsString × Nat)} (h : (all.filter isShard).mapM numbered =
    .ok shards) : ((sortShards shards).map Prod.fst).Perm (all.filter isShard) :=
  map_fst_numbered h ▸ (sortBy_perm shards).map Prod.fst

theorem Ordered.subset {all paths : List JsString} (h : Ordered all paths) : ∀ file ∈ paths, file ∈ all := by
  cases h with
  | none => exact fun _ hfile => absurd hfile List.not_mem_nil
  | some hsome hshards =>
    intro file hfile
    rcases List.mem_cons.mp hfile with rfl | hfile
    · exact hsome
    · exact List.mem_of_mem_filter ((sortShards_perm hshards).mem_iff.mp hfile)

theorem Ordered.nodup {all paths : List JsString} (hall : all.Nodup) (h : Ordered all paths) : paths.Nodup := by
  cases h with
  | none => exact List.nodup_nil
  | some hsome hshards =>
    refine List.nodup_cons.mpr ⟨fun hmem => ?_, ?_⟩
    · have hshard := (List.mem_filter.mp ((sortShards_perm hshards).mem_iff.mp hmem)).2
      rw [isShard_planHistoryFile] at hshard
      cases hshard
    · exact (sortShards_perm hshards).nodup_iff.mpr (hall.filter _)

/-- A shard with the next number comes last. -/
theorem Ordered.append {all paths : List JsString} (h : Ordered all paths) (hsome : paths ≠ []) (hcapacity :
    paths.length ≤ 999999) : Ordered (all ++ [shardName paths.length]) (paths ++ [shardName paths.length]) := by
  cases h with
  | none => exact absurd rfl hsome
  | @some shards hbase hshards hcheck =>
    rw [List.length_cons, List.length_map, length_sortShards] at hcapacity ⊢
    have hnumbered : numbered (shardName (shards.length + 1)) = .ok (shardName (shards.length + 1), shards.length + 1) := by
      unfold numbered
      rw [shardNumber_shardName hcapacity, Option.filter_some, if_pos (decide_eq_true (Nat.le_add_left 1 _))]
    have hlast : sortShards (shards ++ [(shardName (shards.length + 1), shards.length + 1)]) =
        sortShards shards ++ [(shardName (shards.length + 1), shards.length + 1)] := by
      refine sortBy_append_last fun shard hshard => Nat.isLE_compare.mpr ?_
      have hnumber : shard.2 ∈ List.range' 1 shards.length := hcheck ▸ List.mem_map_of_mem (mem_sortBy.mpr hshard)
      rw [List.mem_range'_1] at hnumber
      omega
    have hmapM : ((all ++ [shardName (shards.length + 1)]).filter isShard).mapM numbered =
        .ok (shards ++ [(shardName (shards.length + 1), shards.length + 1)]) := by
      rw [List.filter_append, List.filter_singleton, isShard_shardName, cond_true, List.mapM_append, hshards]
      show (List.mapM numbered [_] >>= fun last => pure (shards ++ last)) = _
      rw [List.mapM_cons, hnumbered]
      rfl
    have hnext := Ordered.some (List.mem_append_left _ hbase) hmapM (by
      rw [hlast, List.map_append, hcheck, List.length_append, List.length_singleton, List.range'_concat]
      simp [Nat.add_comm])
    rw [hlast, List.map_append] at hnext
    exact hnext

theorem Ordered.absent {all : List JsString} (h : Ordered all []) : planHistoryFile ∉ all := by
  cases h with
  | none hnone => exact hnone

theorem Ordered.first {all : List JsString} (h : Ordered all []) : Ordered (all ++ [planHistoryFile]) [planHistoryFile] := by
  cases h with
  | none hnone hempty =>
    have hmapM : ((all ++ [planHistoryFile]).filter isShard).mapM numbered = .ok [] := by
      rw [List.filter_append, hempty, List.filter_singleton, isShard_planHistoryFile, cond_false]
      rfl
    exact Ordered.some (List.mem_append_right _ List.mem_cons_self) hmapM rfl

/-! ## Chunks -/

theorem separator_ne_nil {bytes : Bytes} (h : bytes ≠ []) (previous : Bytes) :
    separator (previous ++ bytes) = separator bytes := by
  unfold separator
  rw [List.getLast?_append_of_ne_nil _ h]
  simp [h]

/-- Nothing stands between a complete chunk and the next. -/
theorem separator_complete (bytes : Bytes) : separator (bytes ++ separator bytes) = [] := by
  by_cases h : bytes ≠ [] ∧ bytes.getLast? ≠ some 10
  · have hline : separator bytes = [10] := if_pos h
    rw [hline, separator_ne_nil (List.cons_ne_nil _ _)]
    rfl
  · have hnone : separator bytes = [] := if_neg h
    rw [hnone, List.append_nil, hnone]

theorem concat_last (previous : Bytes) (chunks : List Bytes) (chunk : Bytes) :
    concat previous (chunks ++ [chunk]) = concat previous chunks ++ separator (chunks.getLast?.getD previous) ++ chunk := by
  induction chunks generalizing previous with
  | nil => simp [concat]
  | cons first chunks ih => simp [concat, ih, List.getLast?_cons]

/-- The chunks together end as the last of them. -/
theorem separator_concat (chunks : List Bytes) : separator (concat [] chunks) = separator (chunks.getLast?.getD []) := by
  induction chunks using List.reverseRecOn with
  | nil => rfl
  | append_singleton chunks chunk ih =>
    rw [concat_last, List.getLast?_concat, Option.getD_some, ← ih]
    by_cases h : chunk = []
    · rw [h, List.append_nil, separator_complete]
      rfl
    · exact separator_ne_nil h _

/-- Appending to the last chunk is appending to all of them. -/
theorem concat_extend (chunks : List Bytes) (chunk row : Bytes) : concat [] (chunks ++ [chunk ++ separator chunk ++ row]) =
    concat [] (chunks ++ [chunk]) ++ separator (concat [] (chunks ++ [chunk])) ++ row := by
  rw [separator_concat, List.getLast?_concat, Option.getD_some, concat_last, concat_last]
  simp only [List.append_assoc]

/-! ## Appending -/

/-- Each file is kept, or has grown within the limit. -/
def Grown (files files' : Files) : Prop :=
  ∀ file, files'.get? file = files.get? file ∨
    ∃ more, files'.get? file = some ((files.get? file).getD [] ++ more) ∧
      ((files.get? file).getD [] ++ more).length ≤ planHistoryFileLimit

theorem grown_set {files : Files} {file : JsString} {bytes more : Bytes} (hmore : (files.get? file).getD [] ++ more = bytes)
    (h : bytes.length ≤ planHistoryFileLimit) : Grown files (files.set file bytes) := by
  intro other
  by_cases hfile : other = file
  · subst hfile hmore
    exact .inr ⟨more, InsertionMap.get?_set_self, h⟩
  · exact .inl (InsertionMap.get?_set_of_ne hfile)

theorem Grown.trans {files files' files'' : Files} (h : Grown files files') (h' : Grown files' files'') :
    Grown files files'' := by
  intro file
  rcases h' file with hsame | ⟨more, hmore, hlimit⟩
  · rw [hsame]
    exact h file
  · rcases h file with hsame | ⟨first, hfirst, -⟩
    · rw [hsame] at hmore hlimit
      exact .inr ⟨more, hmore, hlimit⟩
    · rw [hfirst, Option.getD_some, List.append_assoc] at hmore hlimit
      exact .inr ⟨first ++ more, hmore, hlimit⟩

/-- The history with one more record. -/
def withRecord (content record : Bytes) : Bytes := content ++ separator content ++ (record ++ [10])

theorem readPlanHistoryBytes_ok {files : Files} {content : Bytes} : readPlanHistoryBytes files = .ok content ↔
    ∃ paths, Ordered files.keys paths ∧ concat [] (chunksOf files paths) = content := by
  unfold readPlanHistoryBytes
  simp only [map_ok, ordered_iff]

theorem chunksOf_set {files : Files} {paths : List JsString} {file : JsString} {bytes : Bytes} (h : file ∉ paths) :
    chunksOf (files.set file bytes) (paths ++ [file]) = chunksOf files paths ++ [bytes] := by
  unfold chunksOf
  rw [List.map_append, List.map_singleton, InsertionMap.get?_set_self, Option.getD_some]
  refine congrArg (· ++ [bytes]) (List.map_congr_left fun other hother => ?_)
  have hne : other ≠ file := fun heq => h (heq ▸ hother)
  rw [InsertionMap.get?_set_of_ne hne]

/-- A record in a new file. -/
theorem read_set_next {files : Files} {paths : List JsString} {file : JsString} {row : Bytes}
    (hpaths : Ordered files.keys paths) (hnew : file ∉ files.keys)
    (hnext : Ordered (files.keys ++ [file]) (paths ++ [file])) : readPlanHistoryBytes (files.set file row) =
      .ok (concat [] (chunksOf files paths) ++ separator (concat [] (chunksOf files paths)) ++ row) := by
  refine readPlanHistoryBytes_ok.mpr ⟨paths ++ [file], ?_, ?_⟩
  · rw [InsertionMap.keys_set, if_neg hnew]
    exact hnext
  · rw [chunksOf_set fun hmem => hnew (hpaths.subset file hmem), concat_last, separator_concat]

/-- A record in the last file. -/
theorem read_set_last {files : Files} {paths : List JsString} {file : JsString} {row : Bytes}
    (hpaths : Ordered files.keys (paths ++ [file])) :
    readPlanHistoryBytes (files.set file ((files.get? file).getD [] ++ separator ((files.get? file).getD []) ++ row)) =
      .ok (concat [] (chunksOf files (paths ++ [file])) ++ separator (concat [] (chunksOf files (paths ++ [file]))) ++ row) := by
  refine readPlanHistoryBytes_ok.mpr ⟨paths ++ [file], ?_, ?_⟩
  · rw [InsertionMap.keys_set, if_pos (hpaths.subset file (List.mem_append_right _ List.mem_cons_self))]
    exact hpaths
  · have hfile : file ∉ paths := fun hmem =>
      (List.nodup_append.mp (hpaths.nodup files.nodup)).2.2 file hmem file List.mem_cons_self rfl
    have hold : chunksOf files (paths ++ [file]) = chunksOf files paths ++ [(files.get? file).getD []] := List.map_append
    rw [chunksOf_set hfile, hold, concat_extend]

theorem append_record {files files' : Files} {record content : Bytes} (hread : readPlanHistoryBytes files = .ok content)
    (happend : appendPlanHistoryRecord files record = .ok files') :
    readPlanHistoryBytes files' = .ok (withRecord content record) ∧ Grown files files' := by
  obtain ⟨paths, hpaths, rfl⟩ := readPlanHistoryBytes_ok.mp hread
  unfold appendPlanHistoryRecord at happend
  split at happend
  case isTrue => cases happend
  case isFalse hrow =>
    rw [ordered_iff.mpr hpaths] at happend
    have hbase (hnone : paths = []) : files.get? planHistoryFile = none := InsertionMap.has_eq_false.mp
      (Bool.eq_false_iff.mpr (mt InsertionMap.has_iff.mp (hnone ▸ hpaths).absent))
    dsimp only [bind, Except.bind] at happend
    split at happend
    case isTrue hfits =>
      cases happend
      refine ⟨?_, grown_set (List.append_assoc _ _ _).symm (by simpa only [List.length_append] using hfits)⟩
      rcases List.eq_nil_or_concat' paths with rfl | ⟨init, latest, rfl⟩
      · rw [List.getLast?_nil, Option.getD_none, hbase rfl]
        exact read_set_next hpaths hpaths.absent hpaths.first
      · rw [List.getLast?_concat]
        exact read_set_last hpaths
    case isFalse hfull =>
      split at happend
      case isTrue => cases happend
      case isFalse hcurrent =>
        split at happend
        case isTrue => cases happend
        case isFalse hcapacity =>
          cases happend
          simp only [Bool.or_eq_true, decide_eq_true_eq, not_or, not_lt, Bool.not_eq_true] at hcapacity
          obtain ⟨hcapacity, hnew⟩ := hcapacity
          have hsome : paths ≠ [] := by
            rintro rfl
            exact hcurrent (by rw [List.getLast?_nil, Option.getD_none, hbase rfl, Option.getD_none])
          exact ⟨read_set_next hpaths (mt InsertionMap.has_iff.mpr (by simp [hnew])) (hpaths.append hsome hcapacity),
            grown_set (by rw [InsertionMap.has_eq_false.mp hnew]; rfl) (not_lt.mp hrow)⟩

/-- Records that are appended are read back in order behind the history that was there, each with its line feed; no byte of
a file is lost, and a file that was written stays within the limit. -/
theorem appended_history_reads_back {files files' : Files} {records : List Bytes} {content : Bytes} (hread :
    readPlanHistoryBytes files = .ok content) (happend : records.foldlM appendPlanHistoryRecord files = .ok files') :
    readPlanHistoryBytes files' = .ok (records.foldl withRecord content) ∧ Grown files files' := by
  induction records generalizing files content with
  | nil =>
    cases happend
    exact ⟨hread, fun _ => .inl rfl⟩
  | cons record records ih =>
    rw [List.foldlM_cons] at happend
    obtain ⟨next, hnext, hrest⟩ := bind_ok.mp happend
    obtain ⟨hcontent, hgrown⟩ := append_record hread hnext
    obtain ⟨hread', hgrown'⟩ := ih hcontent hrest
    exact ⟨hread', hgrown.trans hgrown'⟩

def twoFiles : Files := (InsertionMap.empty.set (shardName 1) [123, 125, 10]).set planHistoryFile [123, 125]

/-- A record behind a base without a line feed at its end and a shard. -/
theorem history_of_two_files : ∃ files, Grown twoFiles files ∧
    readPlanHistoryBytes files = .ok [123, 125, 10, 123, 125, 10, 91, 93, 10] := by
  have hread : readPlanHistoryBytes twoFiles = .ok [123, 125, 10, 123, 125, 10] := by rfl
  obtain ⟨files, happend⟩ : ∃ files, [[91, 93]].foldlM appendPlanHistoryRecord twoFiles = .ok files := ⟨_, rfl⟩
  obtain ⟨hcontent, hgrown⟩ := appended_history_reads_back hread happend
  exact ⟨files, hgrown, hcontent⟩

end RabiRoute.PlanHistory
