import RabiRoute.MessageProcessing.Board

/-!
# What the operations do to the requirements

An operation changes requirements where they are and adds at most one; only pruning and a restart
remove any.  Each operation is unfolded here once.
-/

open Collections Transitions

namespace RabiRoute.MessageProcessing

variable {functions : Functions} {clock : Clock} {board : Board} {id : JsString} {r r' : Requirement}

/-- What the operation makes of the requirement `id`. -/
def touched (functions : Functions) (clock : Clock) (operation : Operation) (id : JsString) (r : Requirement) :
    Requirement :=
  match operation with
  | .recordDispatch target worker => if id = target then (recordDispatch clock worker r).1 else r
  | .recordWorkerReference target worker => if id = target then (recordWorkerReference clock worker r).1 else r
  | .replaceWorkerReferences previousThreadId worker =>
    match normalizedWorker worker with
    | none => r
    | some worker =>
      if r.worker.any fun previous ↦ previous.threadId = previousThreadId then
        { r with worker := some worker, updatedAt := clock.reading 0 }
      else r
  | .recordDispatchFailure target error => if id = target then (recordDispatchFailure clock error r).1 else r
  | .recordHandoffReturned target returnedBy =>
    if id = target then (recordHandoffReturned clock returnedBy r).1 else r
  | .submitOutcome target input => if id = target then (submitOutcome clock input r).1 else r
  | .recordReply target result deliveryId => if id = target then (recordReply clock result deliveryId r).1 else r
  | .recordSend target result deliveryId =>
    if id = target then (recordSend functions clock result deliveryId r).1 else r
  | .recordKnowledgeCallback target input =>
    if id = target then (recordKnowledgeCallback functions clock input r).1 else r
  | .recordKnowledgeReminder target => if id = target then (recordKnowledgeReminder clock r).1 else r
  | _ => r

/-! ## Changes in place -/

theorem get?_changeRequirement (change : Requirement → Requirement × Change) (target : JsString) :
    (changeRequirement target change board).1.requirements.get? id =
      (board.requirements.get? id).map fun r => if id = target then (change r).1 else r := by
  have hset : ∀ r, board.requirements.get? target = some r →
      (board.requirements.set target (change r).1).get? id =
        (board.requirements.get? id).map fun r => if id = target then (change r).1 else r := by
    intro r hr
    rw [InsertionMap.get?_set]
    by_cases hid : id = target
    · rw [if_pos hid, hid, hr, Option.map_some, if_pos rfl]
    · rw [if_neg hid]
      simp only [hid, if_false, Option.map_id']
  unfold changeRequirement
  split
  case h_1 hnone =>
    by_cases hid : id = target
    · rw [hid, hnone, Option.map_none]
    · simp only [hid, if_false, Option.map_id']
  case h_2 r hr =>
    dsimp only
    split <;> exact hset r hr

theorem dedupeRecords_changeRequirement (change : Requirement → Requirement × Change) (target : JsString) :
    (changeRequirement target change board).1.dedupeRecords = board.dedupeRecords := by
  unfold changeRequirement
  split
  · rfl
  · dsimp only
    split <;> rfl

/-- A requirement that an operation adds: the one of `created`, or the notification of a plan. -/
def Added (functions : Functions) (clock : Clock) (operation : Operation) (result : Body) (r : Requirement) : Prop :=
  (r.kind = .plan_progress_notification ∧ r.criticalFacts = []) ∨
    ∃ input source, operation = .registerMessageGroup input ∧ normalizeSource input.source = some source ∧
      r = newRequirement functions clock input source ∧ result.2 = .persists (.created r)

/-- The requirements after an operation: the old ones as it has touched them, and perhaps a new one. -/
structure Operated (functions : Functions) (clock : Clock) (operation : Operation) (board : Board) (result : Body) :
    Prop where
  kept : ∀ id r, board.requirements.get? id = some r →
    result.1.requirements.get? id = some (touched functions clock operation id r)
  new : ∀ id r', board.requirements.get? id = none → result.1.requirements.get? id = some r' →
    r'.id = id ∧ Added functions clock operation result r'
  records : result.1.dedupeRecords = board.dedupeRecords
  created : ∀ r, result.2 = .persists (.created r) → result.1.requirements.get? r.id = some r ∧
    ∃ input source, operation = .registerMessageGroup input ∧ normalizeSource input.source = some source ∧
      r = newRequirement functions clock input source
  returned : ∀ r, result.2 ≠ .returns (.created r)

theorem changeRequirement_ending (change : Requirement → Requirement × Change) (target : JsString) (r : Requirement) :
    (changeRequirement target change board).2 ≠ .persists (.created r) ∧
      (changeRequirement target change board).2 ≠ .returns (.created r) := by
  unfold changeRequirement
  split
  · exact ⟨by simp, by simp⟩
  · dsimp only
    split <;> exact ⟨by simp, by simp⟩

theorem Operated.change {operation : Operation} {change : Requirement → Requirement × Change} {target : JsString}
    (htouched : ∀ id r, touched functions clock operation id r = if id = target then (change r).1 else r) :
    Operated functions clock operation board (changeRequirement target change board) where
  kept id r hr := by rw [get?_changeRequirement, hr, htouched, Option.map_some]
  new id r' hnone hr' := by
    rw [get?_changeRequirement, hnone] at hr'
    cases hr'
  records := dedupeRecords_changeRequirement change target
  created r h := absurd h (changeRequirement_ending change target r).1
  returned r := (changeRequirement_ending change target r).2

/-- The operation leaves the requirements and the records. -/
theorem Operated.same {operation : Operation} {result : Body}
    (htouched : ∀ id r, touched functions clock operation id r = r)
    (hrequirements : result.1.requirements = board.requirements)
    (hrecords : result.1.dedupeRecords = board.dedupeRecords)
    (hending : ∀ r, result.2 ≠ .persists (.created r) ∧ result.2 ≠ .returns (.created r)) :
    Operated functions clock operation board result where
  kept id r hr := by rw [hrequirements, hr, htouched]
  new id r' hnone hr' := by
    rw [hrequirements, hnone] at hr'
    cases hr'
  records := hrecords
  created r h := absurd h (hending r).1
  returned r := (hending r).2

/-! ## Each operation -/

theorem operated_register (input : RegisterInput) :
    Operated functions clock (.registerMessageGroup input) board
      (registerMessageGroup functions clock input board) := by
  unfold registerMessageGroup
  split
  · exact .same (fun _ _ => rfl) rfl rfl fun r => ⟨by simp, by simp⟩
  case h_2 hnone =>
    split
    · exact .same (fun _ _ => rfl) rfl rfl fun r => ⟨by simp, by simp⟩
    case h_2 source hsource =>
      split
      · exact .same (fun _ _ => rfl) rfl rfl fun r => ⟨by simp, by simp⟩
      · dsimp only
        split
        · exact .same (fun _ _ => rfl) rfl rfl fun r => ⟨by simp, by simp⟩
        · split
          · exact .same (fun _ _ => rfl) rfl rfl fun r => ⟨by simp, by simp⟩
          · have hid : (newRequirement functions clock input source).id = input.requirementId := rfl
            refine ⟨fun id r hr => ?_, fun id r' hnone' hr' => ?_, rfl, fun r hr => ?_, by simp⟩
            · have hne : id ≠ input.requirementId := by
                rintro rfl
                rw [hnone] at hr
                cases hr
              exact (InsertionMap.get?_set_of_ne hne).trans hr
            · rw [InsertionMap.get?_set] at hr'
              split at hr'
              case isTrue heq =>
                obtain rfl := Option.some.inj hr'
                exact ⟨heq.symm, .inr ⟨input, source, rfl, hsource, rfl, rfl⟩⟩
              case isFalse =>
                rw [hnone'] at hr'
                cases hr'
            · obtain rfl : newRequirement functions clock input source = r := by simpa using hr
              exact ⟨InsertionMap.get?_set_self, input, source, rfl, hsource, rfl⟩

theorem operated_replace (previousThreadId : JsString) (worker : WorkerInput) :
    Operated functions clock (.replaceWorkerReferences previousThreadId worker) board
      (replaceWorkerReferences clock previousThreadId worker board) := by
  unfold replaceWorkerReferences
  split
  case h_1 hnone =>
    exact .same (fun id r => by simp only [touched, hnone]) rfl rfl fun r => ⟨by simp, by simp⟩
  case h_2 next hnext =>
    refine ⟨fun id r hr => ?_, fun id r' hnone hr' => ?_, rfl, fun r hr => ?_, fun r hr => ?_⟩
    · rw [InsertionMap.get?_mapValues, hr]
      simp only [touched, hnext]
      rfl
    · rw [InsertionMap.get?_mapValues, hnone] at hr'
      cases hr'
    · dsimp only at hr
      split at hr <;> cases hr
    · dsimp only at hr
      split at hr <;> cases hr

theorem operated_announce {operation : Operation} {uuid : JsString} {origin : PlanOrigin}
    {beforeUpdatedAt : Option JsString} {plan : PlanItem} {changes : List JsString}
    (htouched : ∀ id r, touched functions clock operation id r = r)
    (hfresh : board.requirements.get? (js "message-requirement-" ++ uuid) = none) :
    Operated functions clock operation board
      (announcePlanChange clock uuid origin beforeUpdatedAt plan changes board) := by
  unfold announcePlanChange
  dsimp only
  split
  · exact .same htouched rfl rfl fun r => ⟨by simp, by simp⟩
  · split
    · exact .same htouched rfl rfl fun r => ⟨by simp, by simp⟩
    · refine ⟨fun id r hr => ?_, fun id r' hnone hr' => ?_, rfl, by simp, by simp⟩
      · have hne : id ≠ js "message-requirement-" ++ uuid := by
          rintro rfl
          rw [hfresh] at hr
          cases hr
        exact (InsertionMap.get?_set_of_ne hne).trans (hr.trans (congrArg some (htouched id r).symm))
      · rw [InsertionMap.get?_set] at hr'
        split at hr'
        case isTrue heq =>
          obtain rfl := Option.some.inj hr'
          exact ⟨heq.symm, .inl ⟨rfl, rfl⟩⟩
        case isFalse =>
          rw [hnone] at hr'
          cases hr'

theorem operated_body {operation : Operation} (hfresh : freshUuid operation board = true) (hprune : operation ≠
    .pruneExpired) : Operated functions clock operation board (body functions clock operation board) := by
  cases operation with
  | registerMessageGroup input => exact operated_register input
  | recordDispatch | recordWorkerReference | recordDispatchFailure | recordHandoffReturned | submitOutcome
  | recordReply | recordSend | recordKnowledgeCallback | recordKnowledgeReminder =>
    unfold body
    exact .change fun _ _ => rfl
  | replaceWorkerReferences previousThreadId worker => exact operated_replace previousThreadId worker
  | registerPlanChange uuid roleId before after =>
    unfold body registerPlanChange
    dsimp only
    split
    · exact .same (fun _ _ => rfl) rfl rfl fun r => ⟨by simp, by simp⟩
    · exact operated_announce (fun _ _ => rfl) (Option.isNone_iff_eq_none.mp hfresh)
  | setPlanBaseline roleId plan =>
    unfold body setPlanBaseline
    dsimp only
    split
    · exact .same (fun _ _ => rfl) rfl rfl fun r => ⟨by simp, by simp⟩
    · exact .same (fun _ _ => rfl) rfl rfl fun r => ⟨by simp, by simp⟩
  | reconcilePlan uuid originKey plan =>
    unfold body reconcilePlan
    dsimp only
    split
    · exact .same (fun _ _ => rfl) rfl rfl fun r => ⟨by simp, by simp⟩
    · split
      · exact .same (fun _ _ => rfl) rfl rfl fun r => ⟨by simp, by simp⟩
      · exact operated_announce (fun _ _ => rfl) (Option.isNone_iff_eq_none.mp hfresh)
  | pruneExpired => exact absurd rfl hprune

/-! ## Pruning -/

/-- Each record lasts at least as long as before. -/
def Lasts (records records' : InsertionMap JsString Time) : Prop :=
  ∀ key e, records.get? key = some e → ∃ e', e ≤ e' ∧ records'.get? key = some e'

theorem Lasts.refl (records : InsertionMap JsString Time) : Lasts records records :=
  fun _ e h => ⟨e, Nat.le_refl e, h⟩

theorem Lasts.trans {a b c : InsertionMap JsString Time} (h : Lasts a b) (h' : Lasts b c) : Lasts a c := by
  intro key e he
  obtain ⟨e', hle, he'⟩ := h key e he
  obtain ⟨e'', hle', he''⟩ := h' key e' he'
  exact ⟨e'', Nat.le_trans hle hle', he''⟩

theorem lasts_retainDedupeKey {key : JsString} {createdAt now : Time} {records : InsertionMap JsString Time} :
    Lasts records (retainDedupeKey key createdAt now records) := by
  unfold retainDedupeKey
  dsimp only
  split
  · exact .refl _
  · split
    case h_1 existing hexisting =>
      split
      case isTrue hlt =>
        intro key' e he
        rw [InsertionMap.get?_set]
        split
        case isTrue hkey =>
          rw [hkey, hexisting] at he
          obtain rfl := Option.some.inj he
          exact ⟨_, Nat.le_of_lt hlt, rfl⟩
        case isFalse => exact ⟨e, Nat.le_refl e, he⟩
      case isFalse => exact .refl _
    case h_2 hnone =>
      intro key' e he
      rw [InsertionMap.get?_set]
      split
      case isTrue hkey =>
        rw [hkey, hnone] at he
        cases he
      case isFalse => exact ⟨e, Nat.le_refl e, he⟩

/-- A key that is retained lasts for the retention of its requirement, unless that has passed. -/
theorem retained {key : JsString} {createdAt now : Time} (records : InsertionMap JsString Time)
    (hkey : isDedupeKey key = true) (hnow : now < createdAt + dedupeRetentionMs) :
    ∃ e, createdAt + dedupeRetentionMs ≤ e ∧ (retainDedupeKey key createdAt now records).get? key = some e := by
  unfold retainDedupeKey
  dsimp only
  rw [if_neg (by simp [hkey, hnow])]
  split
  case h_1 existing hexisting =>
    split
    · exact ⟨_, Nat.le_refl _, InsertionMap.get?_set_self⟩
    case isFalse hlt => exact ⟨existing, Nat.le_of_not_lt hlt, hexisting⟩
  case h_2 => exact ⟨_, Nat.le_refl _, InsertionMap.get?_set_self⟩

theorem lasts_pruneRequirement {now : Time} {entry : JsString × Requirement} :
    Lasts board.dedupeRecords (pruneRequirement now board entry).dedupeRecords := by
  unfold pruneRequirement
  split
  · dsimp only
    split
    · exact lasts_retainDedupeKey
    · exact .refl _
  · exact .refl _

theorem lasts_pruneAll {now : Time} (entries : List (JsString × Requirement)) :
    Lasts board.dedupeRecords (entries.foldl (pruneRequirement now) board).dedupeRecords := by
  induction entries generalizing board with
  | nil => exact .refl _
  | cons entry entries ih => exact lasts_pruneRequirement.trans ih

theorem get?_pruneRequirement {now : Time} {entry : JsString × Requirement} :
    (pruneRequirement now board entry).requirements.get? id =
      if expired now entry.2 ∧ id = entry.1 then none else board.requirements.get? id := by
  unfold pruneRequirement
  split
  case isTrue hexpired =>
    rw [InsertionMap.get?_erase]
    simp only [hexpired, true_and]
  case isFalse hexpired => simp only [hexpired, false_and, if_false, Bool.false_eq_true]

/-- A requirement stays until it expires. -/
theorem get?_pruneAll_of_not_expired {now : Time} (entries : List (JsString × Requirement))
    (h : ∀ entry ∈ entries, entry.1 = id → expired now entry.2 = false) :
    (entries.foldl (pruneRequirement now) board).requirements.get? id = board.requirements.get? id := by
  induction entries generalizing board with
  | nil => rfl
  | cons entry entries ih =>
    rw [List.foldl_cons, ih fun e he => h e (List.mem_cons_of_mem _ he), get?_pruneRequirement, if_neg]
    rintro ⟨hexpired, hid⟩
    rw [h entry List.mem_cons_self hid.symm] at hexpired
    cases hexpired

theorem get?_of_pruneAll {now : Time} (entries : List (JsString × Requirement)) (h : (entries.foldl (pruneRequirement
    now) board).requirements.get? id = some r) : board.requirements.get? id = some r := by
  induction entries generalizing board with
  | nil => exact h
  | cons entry entries ih =>
    have hnext := ih h
    rw [get?_pruneRequirement] at hnext
    split at hnext
    · cases hnext
    · exact hnext

/-- A requirement that expires leaves its key behind. -/
theorem retained_pruneAll {now : Time} (entries : List (JsString × Requirement)) (hmem : (id, r) ∈ entries)
    (hkind : r.kind = .message_reply) (hexpired : expired now r = true) (hkey : isDedupeKey r.dedupeKey = true)
    (hnow : now < r.createdAt + dedupeRetentionMs) :
    ∃ e, r.createdAt + dedupeRetentionMs ≤ e ∧
      (entries.foldl (pruneRequirement now) board).dedupeRecords.get? r.dedupeKey = some e := by
  induction entries generalizing board with
  | nil => cases hmem
  | cons entry entries ih =>
    rcases List.mem_cons.mp hmem with rfl | hrest
    · obtain ⟨e, hle, he⟩ := retained board.dedupeRecords hkey hnow
      have hstep : (pruneRequirement now board (id, r)).dedupeRecords.get? r.dedupeKey = some e := by
        unfold pruneRequirement
        rw [if_pos hexpired]
        dsimp only
        rw [if_pos hkind]
        exact he
      obtain ⟨e', hle', he'⟩ := lasts_pruneAll entries r.dedupeKey e hstep
      exact ⟨e', Nat.le_trans hle hle', he'⟩
    · exact ih hrest

theorem get?_of_pruneExpiredState {now : Time} (h : (pruneExpiredState now board).requirements.get? id = some r) :
    board.requirements.get? id = some r := by
  have hstart := get?_of_pruneAll board.requirements.entries h
  exact hstart

theorem get?_pruneExpiredState {now : Time} (h : board.requirements.get? id = some r) (hnot : expired now r = false) :
    (pruneExpiredState now board).requirements.get? id = some r := by
  refine (get?_pruneAll_of_not_expired _ fun entry he hid => ?_).trans h
  obtain rfl : entry.2 = r := InsertionMap.entry_unique (hid ▸ he) (InsertionMap.get?_eq_some.mp h)
  exact hnot

/-- A record that has not expired lasts. -/
theorem lasts_pruneExpiredState {now : Time} {key : JsString} {e : Time} (h : board.dedupeRecords.get? key = some e)
    (hnow : now < e) : ∃ e', e ≤ e' ∧ (pruneExpiredState now board).dedupeRecords.get? key = some e' := by
  refine lasts_pruneAll board.requirements.entries key e ?_
  show (board.dedupeRecords.keepIf _).get? key = some e
  rw [InsertionMap.get?_keepIf, h, Option.filter_some, if_pos (decide_eq_true hnow)]

theorem retained_pruneExpiredState {now : Time} (h : board.requirements.get? id = some r)
    (hkind : r.kind = .message_reply) (hexpired : expired now r = true) (hkey : isDedupeKey r.dedupeKey = true)
    (hnow : now < r.createdAt + dedupeRetentionMs) :
    ∃ e, r.createdAt + dedupeRetentionMs ≤ e ∧
      (pruneExpiredState now board).dedupeRecords.get? r.dedupeKey = some e :=
  retained_pruneAll _ (InsertionMap.get?_eq_some.mp h) hkind hexpired hkey hnow

/-! ## What the state file holds -/

/-- Each requirement stands under its id, and each record under a digest. -/
structure WellKeyed (board : Board) : Prop where
  ids : ∀ id r, board.requirements.get? id = some r → r.id = id
  records : ∀ key e, board.dedupeRecords.get? key = some e → isDedupeKey key = true

theorem loadRequirement_eq {item : Requirement} (h : loadRequirement functions item = some r) :
    r.id = item.id ∧ r.kind = item.kind ∧ r.createdAt = item.createdAt ∧
      normalizeSource item.source.toInput = some r.source ∧
      (r.kind = .message_reply → r.dedupeKey = messageSourceDedupeKey functions r.source) := by
  obtain ⟨n, hn, rfl⟩ := Option.map_eq_some_iff.mp h
  unfold normalizeRequirement at hn
  split at hn
  · cases hn
  case h_2 source hsource =>
    split at hn
    · cases hn
    · obtain rfl := Option.some.inj hn
      split
      · exact ⟨rfl, rfl, rfl, hsource, fun _ => rfl⟩
      case isFalse hkind => exact ⟨rfl, rfl, rfl, hsource, fun h => absurd h hkind⟩

theorem get?_of_loadBoard {persisted : Board} (h : (loadBoard functions persisted).requirements.get? id = some r) :
    ∃ item ∈ persisted.requirements.values, loadRequirement functions item = some r ∧ r.id = id := by
  rcases InsertionMap.get?_of_setAll h with hmem | hempty
  · obtain ⟨r', hr', heq⟩ := List.mem_map.mp hmem
    obtain ⟨rfl, rfl⟩ := Prod.mk.inj heq
    obtain ⟨item, hitem, hload⟩ := List.mem_filterMap.mp hr'
    exact ⟨item, hitem, hload, rfl⟩
  · rw [InsertionMap.get?_empty] at hempty
    cases hempty

theorem sublist_filterMap {α β γ : Type} {f : α → Option β} {g : α → γ} {g' : β → γ}
    (h : ∀ a b, f a = some b → g' b = g a) (l : List α) : ((l.filterMap f).map g').Sublist (l.map g) := by
  induction l with
  | nil => exact List.Sublist.refl _
  | cons a l ih =>
    rw [List.filterMap_cons, List.map_cons]
    split
    · exact ih.cons _
    case h_2 b hb =>
      rw [List.map_cons, h a b hb]
      exact ih.cons_cons _

theorem WellKeyed.map_id (h : WellKeyed board) :
    board.requirements.values.map Requirement.id = board.requirements.keys := by
  unfold InsertionMap.values InsertionMap.keys
  rw [List.map_map]
  exact List.map_congr_left fun e he => h.ids e.1 e.2 (InsertionMap.get?_eq_some.mpr he)

theorem get?_loadBoard {persisted : Board} {item : Requirement} (h : WellKeyed persisted)
    (hitem : persisted.requirements.get? id = some item) (hload : loadRequirement functions item = some r) :
    (loadBoard functions persisted).requirements.get? id = some r := by
  have hid : r.id = id := (loadRequirement_eq hload).1.trans (h.ids id item hitem)
  refine InsertionMap.get?_setAll_of_mem ?_ ?_
  · rw [List.map_map]
    have hids : ∀ a b, loadRequirement functions a = some b → b.id = a.id := fun _ _ hb => (loadRequirement_eq hb).1
    have hsublist := sublist_filterMap hids persisted.requirements.values
    rw [h.map_id] at hsublist
    exact persisted.requirements.nodup.sublist hsublist
  · refine List.mem_map.mpr ⟨r, List.mem_filterMap.mpr ⟨item, ?_, hload⟩, Prod.ext hid rfl⟩
    exact InsertionMap.mem_values.mpr ⟨id, hitem⟩

end RabiRoute.MessageProcessing
