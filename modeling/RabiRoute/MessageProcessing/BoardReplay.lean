import RabiRoute.MessageProcessing.BoardFacts

/-!
# Replays of a message are suppressed

A message that was registered is remembered: by its requirement, after that by a dedupe record, on the
board and in the state file.  A text that was cut after white space, or a list of ids that was cut, is
not the same text or list when it is read back or sent again; `Representable` excludes them.
-/

open Collections Fallible Transitions

namespace RabiRoute.MessageProcessing

variable {functions : Functions} {clock : Clock} {board : Board} {id : JsString} {r r' : Requirement}
variable {identity : SourceIdentity} {t now : Time}

/-! ## Sources that are read back unchanged -/

/-- Cleaning the source again leaves what its key is made of. -/
structure Stable (source : Source) : Prop where
  routeId : cleanText 200 (some source.routeId) = some source.routeId
  endpoint : cleanText 120 (some source.endpoint) = some source.endpoint
  conversationKey : cleanText 500 (some source.conversationKey) = some source.conversationKey
  sender : (cleanText 500 (some source.sender)).isSome = true
  messageIds : stringList 100 source.messageIds = source.messageIds

theorem normalizeSource_eq {input : SourceInput} {source : Source} (h : normalizeSource input = some source) :
    cleanText 200 input.routeId = some source.routeId ∧ cleanText 120 input.endpoint = some source.endpoint ∧
      cleanText 500 input.conversationKey = some source.conversationKey ∧
      cleanText 500 input.sender = some source.sender ∧ source.messageIds = stringList 100 input.messageIds := by
  simp only [normalizeSource, Option.bind_eq_bind, Option.pure_def] at h
  obtain ⟨routeId, hrouteId, h⟩ := Option.bind_eq_some_iff.mp h
  obtain ⟨endpoint, hendpoint, h⟩ := Option.bind_eq_some_iff.mp h
  obtain ⟨conversationKey, hconversationKey, h⟩ := Option.bind_eq_some_iff.mp h
  obtain ⟨sender, hsender, h⟩ := Option.bind_eq_some_iff.mp h
  obtain rfl := Option.some.inj h
  exact ⟨hrouteId, hendpoint, hconversationKey, hsender, rfl⟩

theorem exists_normalizeSource {input : SourceInput} {routeId endpoint conversationKey sender : JsString}
    (hrouteId : cleanText 200 input.routeId = some routeId) (hendpoint : cleanText 120 input.endpoint = some endpoint)
    (hconversationKey : cleanText 500 input.conversationKey = some conversationKey)
    (hsender : cleanText 500 input.sender = some sender) : ∃ source, normalizeSource input = some source := by
  simp only [normalizeSource, hrouteId, hendpoint, hconversationKey, hsender, Option.bind_eq_bind, Option.bind_some,
    Option.pure_def]
  exact ⟨_, rfl⟩

/-- A stable source is read back with the same identity. -/
theorem Stable.readBack {source : Source} (h : Stable source) :
    ∃ source', normalizeSource source.toInput = some source' ∧ Stable source' ∧
      sourceIdentity source' = sourceIdentity source := by
  obtain ⟨sender, hsender⟩ := Option.isSome_iff_exists.mp h.sender
  obtain ⟨source', hsource'⟩ : ∃ source', normalizeSource source.toInput = some source' :=
    exists_normalizeSource h.routeId h.endpoint h.conversationKey hsender
  obtain ⟨hrouteId, hendpoint, hconversationKey, hsender', hmessageIds⟩ := normalizeSource_eq hsource'
  have hroute : source'.routeId = source.routeId := (Option.some.inj (h.routeId.symm.trans hrouteId)).symm
  have hend : source'.endpoint = source.endpoint := (Option.some.inj (h.endpoint.symm.trans hendpoint)).symm
  have hkey : source'.conversationKey = source.conversationKey :=
    (Option.some.inj (h.conversationKey.symm.trans hconversationKey)).symm
  have hids : source'.messageIds = source.messageIds := hmessageIds.trans h.messageIds
  refine ⟨source', hsource', ⟨?_, ?_, ?_, ?_, ?_⟩, ?_⟩
  · rw [hroute]; exact h.routeId
  · rw [hend]; exact h.endpoint
  · rw [hkey]; exact h.conversationKey
  · exact cleanText_again (by decide) hsender'
  · rw [hids]; exact h.messageIds
  · simp only [sourceIdentity, hroute, hend, hkey, hids]

/-! ## What is remembered -/

/-- The message stands on the board, or its key is kept until its retention has passed. -/
def Remembers (functions : Functions) (board : Board) (identity : SourceIdentity) (t now : Time) : Prop :=
  (∃ id r, board.requirements.get? id = some r ∧ r.kind = .message_reply ∧
    r.dedupeKey = functions.digest identity ∧ sourceIdentity r.source = identity ∧ Stable r.source ∧
    id ≠ [] ∧ t ≤ r.createdAt) ∨
  (∃ e, board.dedupeRecords.get? (functions.digest identity) = some e ∧ t + dedupeRetentionMs ≤ e) ∨
  t + dedupeRetentionMs ≤ now

theorem Remembers.mono {later : Time} (h : Remembers functions board identity t now) (hle : now ≤ later) :
    Remembers functions board identity t later :=
  h.imp_right fun h' => h'.imp_right fun hpast => Nat.le_trans hpast hle

theorem Remembers.prune {later : Time} (hdigest : isDedupeKey (functions.digest identity) = true)
    (h : Remembers functions board identity t now) (hle : now ≤ later) :
    Remembers functions (pruneExpiredState later board) identity t later := by
  by_cases hpast : t + dedupeRetentionMs ≤ later
  · exact .inr (.inr hpast)
  have hlater : later < t + dedupeRetentionMs := Nat.lt_of_not_le hpast
  rcases h with ⟨id, r, hr, hkind, hkey, hidentity, hstable, hid, hcreated⟩ | ⟨e, he, hlast⟩ | hnow
  · have hlong : t + dedupeRetentionMs ≤ r.createdAt + dedupeRetentionMs := Nat.add_le_add_right hcreated _
    cases hexpired : expired later r with
    | false =>
      exact .inl ⟨id, r, get?_pruneExpiredState hr hexpired, hkind, hkey, hidentity, hstable, hid, hcreated⟩
    | true =>
      -- the requirement leaves its key behind, which lasts longer than the retention counted from `t`
      obtain ⟨e, hle', he⟩ :=
        retained_pruneExpiredState hr hkind hexpired (hkey ▸ hdigest) (Nat.lt_of_lt_of_le hlater hlong)
      rw [hkey] at he
      exact .inr (.inl ⟨e, he, Nat.le_trans hlong hle'⟩)
  · obtain ⟨e', hle', he'⟩ := lasts_pruneExpiredState he (Nat.lt_of_lt_of_le hlater hlast)
    exact .inr (.inl ⟨e', he', Nat.le_trans hlast hle'⟩)
  · exact absurd (Nat.le_trans hnow hle) hpast

/-! ## What operations leave -/

/-- The parts of a requirement that its key and its age are made of. -/
structure SameOrigin (r r' : Requirement) : Prop where
  id : r'.id = r.id
  kind : r'.kind = r.kind
  dedupeKey : r'.dedupeKey = r.dedupeKey
  source : r'.source = r.source
  createdAt : r'.createdAt = r.createdAt

theorem SameOrigin.refl (r : Requirement) : SameOrigin r r := ⟨rfl, rfl, rfl, rfl, rfl⟩

theorem SameOrigin.trans {r'' : Requirement} (h : SameOrigin r r') (h' : SameOrigin r' r'') : SameOrigin r r'' where
  id := h'.id.trans h.id
  kind := h'.kind.trans h.kind
  dedupeKey := h'.dedupeKey.trans h.dedupeKey
  source := h'.source.trans h.source
  createdAt := h'.createdAt.trans h.createdAt

theorem sameOrigin_assess (a : Option ProjectFactAssessment) : SameOrigin r (assess a r) := by
  unfold assess
  split <;> exact ⟨rfl, rfl, rfl, rfl, rfl⟩

theorem sameOrigin_decideOutcome {input : OutcomeInput} (h : decideOutcome clock input r = .ok r') :
    SameOrigin r r' := by
  unfold decideOutcome at h
  dsimp only at h
  split at h
  · obtain ⟨-, -, rfl⟩ := map_ok.mp h
    exact ⟨rfl, rfl, rfl, rfl, rfl⟩
  · split at h
    · cases h
    · obtain rfl := Except.ok.inj h
      exact ⟨rfl, rfl, rfl, rfl, rfl⟩
  · obtain rfl := Except.ok.inj h
    exact ⟨rfl, rfl, rfl, rfl, rfl⟩

theorem sameOrigin_applyOutcome {input : OutcomeInput} {disposition : Option CriticalProjectFactDisposition} :
    SameOrigin r (applyOutcome clock input disposition r).1 := by
  unfold applyOutcome
  split
  · exact ⟨rfl, rfl, rfl, rfl, rfl⟩
  · split
    · split
      · exact .refl r
      · split
        · exact .refl r
        · exact ⟨rfl, rfl, rfl, rfl, rfl⟩
    · split
      · exact .refl r
      case h_2 decided hdecided =>
        have h := sameOrigin_decideOutcome hdecided
        dsimp only
        split
        · exact ⟨h.id, h.kind, h.dedupeKey, h.source, h.createdAt⟩
        · split <;> exact ⟨h.id, h.kind, h.dedupeKey, h.source, h.createdAt⟩

theorem sameOrigin_submitOutcome {input : OutcomeInput} : SameOrigin r (submitOutcome clock input r).1 := by
  unfold submitOutcome
  split
  · exact .refl r
  split
  · exact .refl r
  case h_2 review _ =>
    dsimp only
    split
    · exact ⟨rfl, rfl, rfl, rfl, rfl⟩
    case h_2 assessment _ =>
      have hreview : SameOrigin r { r with sourceEvidenceReview := review.or r.sourceEvidenceReview } :=
        ⟨rfl, rfl, rfl, rfl, rfl⟩
      have hassess := hreview.trans (sameOrigin_assess assessment)
      split
      · exact hassess
      split
      · exact hassess.trans ⟨rfl, rfl, rfl, rfl, rfl⟩
      · refine .trans ?_ sameOrigin_applyOutcome
        exact hassess.trans ⟨rfl, rfl, rfl, rfl, rfl⟩

/-- Operations leave what the key of a requirement is made of. -/
theorem sameOrigin_touched (operation : Operation) (id : JsString) (r : Requirement) :
    SameOrigin r (touched functions clock operation id r) := by
  have hif : ∀ (target : JsString) (r' : Requirement), SameOrigin r r' →
      SameOrigin r (if id = target then r' else r) := by
    intro target r' h
    split
    · exact h
    · exact .refl r
  cases operation with
  | recordDispatch target worker =>
    refine hif target _ ?_
    unfold recordDispatch
    split <;> exact ⟨rfl, rfl, rfl, rfl, rfl⟩
  | recordWorkerReference target worker =>
    refine hif target _ ?_
    unfold recordWorkerReference
    split <;> exact ⟨rfl, rfl, rfl, rfl, rfl⟩
  | replaceWorkerReferences previousThreadId worker =>
    unfold touched
    dsimp only
    split
    · exact .refl r
    · split <;> exact ⟨rfl, rfl, rfl, rfl, rfl⟩
  | recordDispatchFailure target error => exact hif target _ ⟨rfl, rfl, rfl, rfl, rfl⟩
  | recordHandoffReturned target returnedBy =>
    refine hif target _ ?_
    unfold recordHandoffReturned
    split
    · exact .refl r
    · split
      · split <;> exact ⟨rfl, rfl, rfl, rfl, rfl⟩
      · exact ⟨rfl, rfl, rfl, rfl, rfl⟩
  | submitOutcome target input => exact hif target _ sameOrigin_submitOutcome
  | recordReply target result deliveryId => exact hif target _ ⟨rfl, rfl, rfl, rfl, rfl⟩
  | recordSend target result deliveryId => exact hif target _ ⟨rfl, rfl, rfl, rfl, rfl⟩
  | recordKnowledgeCallback target input =>
    refine hif target _ ?_
    unfold recordKnowledgeCallback
    split
    · exact .refl r
    · dsimp only
      split
      · exact .refl r
      · split <;> exact ⟨rfl, rfl, rfl, rfl, rfl⟩
  | recordKnowledgeReminder target => exact hif target _ ⟨rfl, rfl, rfl, rfl, rfl⟩
  | registerMessageGroup | registerPlanChange | setPlanBaseline | reconcilePlan | pruneExpired => exact .refl r

theorem Remembers.operated (h : Remembers functions board identity t now) {operation : Operation} {result : Body}
    (hresult : Operated functions clock operation board result) : Remembers functions result.1 identity t now := by
  rcases h with ⟨id, r, hr, hkind, hkey, hidentity, hstable, hid, hcreated⟩ | ⟨e, he, hlast⟩ | hnow
  · have hsame : SameOrigin r (touched functions clock operation id r) := sameOrigin_touched operation id r
    refine .inl ⟨id, _, hresult.kept id r hr, hsame.kind.trans hkind, hsame.dedupeKey.trans hkey, ?_, ?_, hid, ?_⟩
    · rw [hsame.source]; exact hidentity
    · rw [hsame.source]; exact hstable
    · rw [hsame.createdAt]; exact hcreated
  · exact .inr (.inl ⟨e, by rw [hresult.records]; exact he, hlast⟩)
  · exact .inr (.inr hnow)

/-! ## Well-keyed boards -/

theorem WellKeyed.empty : WellKeyed {} :=
  ⟨fun _ _ h => (by cases h), fun _ _ h => (by cases h)⟩

theorem WellKeyed.operated (h : WellKeyed board) {operation : Operation} {result : Body}
    (hresult : Operated functions clock operation board result) : WellKeyed result.1 where
  ids id r' hr' := by
    cases hr : board.requirements.get? id with
    | some r =>
      rw [hresult.kept id r hr] at hr'
      have hsame : SameOrigin r (touched functions clock operation id r) := sameOrigin_touched operation id r
      rw [← Option.some.inj hr', hsame.id]
      exact h.ids id r hr
    | none => exact (hresult.new id r' hr hr').1
  records := hresult.records ▸ h.records

theorem isDedupeKey_of_retained {key key' : JsString} {createdAt : Time} {records : InsertionMap JsString Time}
    (h : ∀ key e, records.get? key = some e → isDedupeKey key = true) {e : Time}
    (he : (retainDedupeKey key' createdAt now records).get? key = some e) : isDedupeKey key = true := by
  have hset : isDedupeKey key' = true → (records.set key' (createdAt + dedupeRetentionMs)).get? key = some e →
      isDedupeKey key = true := by
    intro hkey' hget
    rw [InsertionMap.get?_set] at hget
    split at hget
    case isTrue hkey => rw [hkey]; exact hkey'
    case isFalse => exact h key e hget
  unfold retainDedupeKey at he
  dsimp only at he
  split at he
  · exact h key e he
  case isFalse hnot =>
    have hkey' : isDedupeKey key' = true := by
      simp only [Bool.or_eq_true, Bool.not_eq_true', not_or, Bool.not_eq_false] at hnot
      exact hnot.1
    split at he
    · split at he
      · exact hset hkey' he
      · exact h key e he
    · exact hset hkey' he

theorem WellKeyed.pruneRequirement (h : WellKeyed board) (entry : JsString × Requirement) :
    WellKeyed (pruneRequirement now board entry) where
  ids id r hr := by
    rw [get?_pruneRequirement] at hr
    split at hr
    · cases hr
    · exact h.ids id r hr
  records := by
    unfold MessageProcessing.pruneRequirement
    split
    · dsimp only
      split
      · exact fun key e he => isDedupeKey_of_retained h.records he
      · exact h.records
    · exact h.records

theorem WellKeyed.prune (h : WellKeyed board) : WellKeyed (pruneExpiredState now board) := by
  have hall : ∀ (entries : List (JsString × Requirement)) (board : Board), WellKeyed board →
      WellKeyed (entries.foldl (MessageProcessing.pruneRequirement now) board) := by
    intro entries
    induction entries with
    | nil => exact fun _ h => h
    | cons entry entries ih => exact fun board h => ih _ (h.pruneRequirement entry)
  refine hall _ _ ⟨h.ids, fun key e he => ?_⟩
  rw [InsertionMap.get?_keepIf, Option.filter_eq_some_iff] at he
  exact h.records key e he.1

theorem isDedupeKey_of_load {record loaded : JsString × Time} (h : loadDedupeRecord record = some loaded) :
    isDedupeKey loaded.1 = true := by
  obtain ⟨key, -, h⟩ := Option.bind_eq_some_iff.mp h
  split at h
  case isTrue hkey =>
    obtain rfl := Option.some.inj h
    exact hkey
  case isFalse => cases h

theorem WellKeyed.load (persisted : Board) : WellKeyed (loadBoard functions persisted) where
  ids id r hr := by
    obtain ⟨-, -, -, hid⟩ := get?_of_loadBoard hr
    exact hid
  records key e he := by
    rcases InsertionMap.get?_of_setAll he with hmem | hempty
    · obtain ⟨record, -, hload⟩ := List.mem_filterMap.mp hmem
      exact isDedupeKey_of_load hload
    · cases hempty

/-! ## Reading back -/

theorem ne_nil_of_isDedupeKey {key : JsString} (h : isDedupeKey key = true) : key ≠ [] := by
  rintro rfl
  cases h

theorem normalizeRequirement_eq {source : Source} (hsource : normalizeSource r.source.toInput = some source)
    (hid : r.id ≠ []) (hkey : r.dedupeKey ≠ []) :
    ∃ n, normalizeRequirement r = some n ∧ n.id = r.id ∧ n.kind = r.kind ∧ n.source = source ∧
      n.createdAt = r.createdAt := by
  have hnone : (r.id.isEmpty || r.dedupeKey.isEmpty) = false := by
    simpa using And.intro hid hkey
  simp only [normalizeRequirement, hsource, hnone, Bool.false_eq_true, if_false]
  exact ⟨_, rfl, rfl, rfl, rfl, rfl⟩

theorem isHexDigit_not_whitespace {u : UInt16} (h : isHexDigit u = true) : JsString.isWhitespace u = false := by
  simp only [isHexDigit, JsString.isWhitespace, Bool.or_eq_true, Bool.and_eq_true, decide_eq_true_eq,
    UInt16.le_iff_toNat_le, Bool.or_eq_false_iff, Bool.and_eq_false_iff, decide_eq_false_iff_not, beq_eq_false_iff_ne,
    ne_eq, ← UInt16.toNat_inj] at h ⊢
  simp at h ⊢
  omega

/-- A text without white space is cleaned to its start. -/
theorem cleanText_of_not_whitespace {n : Nat} {text : JsString} (hne : text ≠ []) (hlength : text.length ≤ n)
    (h : ∀ u ∈ text, JsString.isWhitespace u = false) : cleanText n (some text) = some text := by
  have hstart : ∀ s : JsString, (∀ u ∈ s, JsString.isWhitespace u = false) → JsString.trimStart s = s :=
    fun s hs => JsString.Headed.trimStart fun u t hut => hs u (hut ▸ List.mem_cons_self)
  have hreverse : text.reverse.dropWhile JsString.isWhitespace = text.reverse :=
    hstart text.reverse fun u hu => h u (List.mem_reverse.mp hu)
  have htrim : JsString.trim text = text := by
    rw [JsString.trim, hstart text h, JsString.trimEnd, hreverse, List.reverse_reverse]
  simp only [cleanText, Option.getD_some, htrim, List.isEmpty_iff, hne, if_false, List.take_of_length_le hlength]

/-- A key of a record is read back as it is. -/
theorem loadDedupeRecord_eq {key : JsString} {e : Time} (h : isDedupeKey key = true) :
    loadDedupeRecord (key, e) = some (key, e) := by
  have hne := ne_nil_of_isDedupeKey h
  simp only [isDedupeKey, Bool.and_eq_true, decide_eq_true_eq, List.all_eq_true] at h
  have hclean : cleanText 128 (some key) = some key :=
    cleanText_of_not_whitespace hne (by omega) fun u hu => isHexDigit_not_whitespace (h.2 u hu)
  simp only [loadDedupeRecord, hclean, Option.bind_some]
  rw [if_pos]
  simpa [isDedupeKey] using h

theorem get?_dedupeRecords_loadBoard {persisted : Board} (h : WellKeyed persisted) {key : JsString} {e : Time} (he :
    persisted.dedupeRecords.get? key = some e) : (loadBoard functions persisted).dedupeRecords.get? key = some e := by
  have hmem : (key, e) ∈ persisted.dedupeRecords.entries := InsertionMap.get?_eq_some.mp he
  refine InsertionMap.get?_setAll_of_mem ?_ (List.mem_filterMap.mpr ⟨_, hmem, loadDedupeRecord_eq (h.records key e he)⟩)
  have hall : persisted.dedupeRecords.entries.filterMap loadDedupeRecord = persisted.dedupeRecords.entries := by
    have hsame : ∀ entry ∈ persisted.dedupeRecords.entries, loadDedupeRecord entry = some entry :=
      fun entry hentry => loadDedupeRecord_eq (h.records entry.1 entry.2 (InsertionMap.get?_eq_some.mpr hentry))
    rw [List.filterMap_congr hsame, List.filterMap_some]
  rw [hall]
  exact persisted.dedupeRecords.nodup

theorem Remembers.load {persisted : Board} (hkeyed : WellKeyed persisted)
    (hdigest : isDedupeKey (functions.digest identity) = true) (h : Remembers functions persisted identity t now) :
    Remembers functions (loadBoard functions persisted) identity t now := by
  rcases h with ⟨id, r, hr, hkind, hkey, hidentity, hstable, hid, hcreated⟩ | ⟨e, he, hlast⟩ | hnow
  · obtain ⟨source, hsource, hstable', hsame⟩ := hstable.readBack
    obtain ⟨n, hn, -, hkind', -, hcreated'⟩ := normalizeRequirement_eq hsource
      (by rw [hkeyed.ids id r hr]; exact hid) (by rw [hkey]; exact ne_nil_of_isDedupeKey hdigest)
    obtain ⟨r', hload⟩ : ∃ r', loadRequirement functions r = some r' := by
      simp only [loadRequirement, hn, Option.map_some, Option.some.injEq, exists_eq']
    obtain ⟨-, hkind'', hcreated'', hsource', hkey'⟩ := loadRequirement_eq hload
    obtain rfl : source = r'.source := Option.some.inj (hsource.symm.trans hsource')
    have hreply : r'.kind = .message_reply := hkind''.trans hkind
    refine .inl ⟨id, r', get?_loadBoard hkeyed hr hload, hreply, ?_, hsame.trans hidentity, hstable', hid, ?_⟩
    · rw [hkey' hreply, messageSourceDedupeKey, hsame, hidentity]
    · rw [hcreated'']; exact hcreated
  · exact .inr (.inl ⟨e, get?_dedupeRecords_loadBoard hkeyed he, hlast⟩)
  · exact .inr (.inr hnow)

/-! ## Runs -/

/-- Cleaning the source twice cleans it once, and no message id is cut off. -/
structure CleanSource (source : SourceInput) : Prop where
  routeId : cleanText 200 (cleanText 200 source.routeId) = cleanText 200 source.routeId
  endpoint : cleanText 120 (cleanText 120 source.endpoint) = cleanText 120 source.endpoint
  conversationKey : cleanText 500 (cleanText 500 source.conversationKey) = cleanText 500 source.conversationKey
  messageIds : ((source.messageIds.map JsString.trim).filter fun item ↦ !item.isEmpty).length ≤ 100

/-- The condition on the events of a run: the messages that it registers have an id, and sources that
are clean. -/
def Representable : Event → Prop
  | .call (.registerMessageGroup input) _ _ => input.requirementId ≠ [] ∧ CleanSource input.source
  | _ => True

/-- The sources have the same route, endpoint, conversation and set of messages. -/
structure SameSource (source source' : SourceInput) : Prop where
  routeId : source'.routeId = source.routeId
  endpoint : source'.endpoint = source.endpoint
  conversationKey : source'.conversationKey = source.conversationKey
  messageIds : ∀ id, id ∈ source'.messageIds ↔ id ∈ source.messageIds

theorem CleanSource.stable {input : SourceInput} {source : Source} (h : CleanSource input)
    (hsource : normalizeSource input = some source) : Stable source := by
  obtain ⟨hrouteId, hendpoint, hconversationKey, hsender, hmessageIds⟩ := normalizeSource_eq hsource
  refine ⟨?_, ?_, ?_, cleanText_again (by decide) hsender, ?_⟩
  · rw [← hrouteId]; exact h.routeId
  · rw [← hendpoint]; exact h.endpoint
  · rw [← hconversationKey]; exact h.conversationKey
  · rw [hmessageIds]; exact stringList_again 100 _

theorem mergeSort_textLe_congr {l l' : List JsString} (h : ∀ id, id ∈ l' ↔ id ∈ l) :
    l'.dedup.mergeSort textLe = l.dedup.mergeSort textLe := by
  have htrans : ∀ a b c : JsString, textLe a b = true → textLe b c = true → textLe a c = true := by
    intro a b c hab hbc
    simp only [textLe, decide_eq_true_eq] at hab hbc ⊢
    exact List.le_trans hab hbc
  have htotal : ∀ a b : JsString, (textLe a b || textLe b a) = true := by
    intro a b
    simp only [textLe, Bool.or_eq_true, decide_eq_true_eq]
    exact List.le_total a b
  have hperm : l'.dedup.Perm l.dedup := by
    rw [List.perm_ext_iff_of_nodup (List.nodup_dedup _) (List.nodup_dedup _)]
    intro id
    rw [List.mem_dedup, List.mem_dedup]
    exact h id
  have hsorted := ((List.mergeSort_perm l'.dedup textLe).trans hperm).trans (List.mergeSort_perm l.dedup textLe).symm
  refine hsorted.eq_of_pairwise ?_ (List.pairwise_mergeSort htrans htotal _) (List.pairwise_mergeSort htrans htotal _)
  intro a b _ _ hab hba
  simp only [textLe, decide_eq_true_eq] at hab hba
  exact List.le_antisymm hab hba

theorem mem_stringList_iff {n : Nat} {value : List JsString} {id : JsString}
    (h : ((value.map JsString.trim).filter fun item => !item.isEmpty).length ≤ n) :
    id ∈ stringList n value ↔ id ≠ [] ∧ ∃ text ∈ value, JsString.trim text = id := by
  unfold stringList
  rw [sliceLast_of_le h, List.mem_filter, List.mem_map]
  simp only [Bool.not_eq_true', List.isEmpty_eq_false_iff, and_comm]

/-- Clean sources that are the same have the same identity. -/
theorem SameSource.sourceIdentity_eq {input input' : SourceInput} {source source' : Source} (h : SameSource input
    input') (hclean : CleanSource input) (hclean' : CleanSource input') (hsource : normalizeSource input = some source)
    (hsource' : normalizeSource input' = some source') : sourceIdentity source' = sourceIdentity source := by
  obtain ⟨hrouteId, hendpoint, hconversationKey, -, hmessageIds⟩ := normalizeSource_eq hsource
  obtain ⟨hrouteId', hendpoint', hconversationKey', -, hmessageIds'⟩ := normalizeSource_eq hsource'
  rw [h.routeId] at hrouteId'
  rw [h.endpoint] at hendpoint'
  rw [h.conversationKey] at hconversationKey'
  have hids : ∀ id, id ∈ source'.messageIds ↔ id ∈ source.messageIds := by
    intro id
    rw [hmessageIds, hmessageIds', mem_stringList_iff hclean.messageIds, mem_stringList_iff hclean'.messageIds]
    simp only [h.messageIds]
  simp only [sourceIdentity, SourceIdentity.mk.injEq]
  exact ⟨Option.some.inj (hrouteId'.symm.trans hrouteId), Option.some.inj (hendpoint'.symm.trans hendpoint),
    Option.some.inj (hconversationKey'.symm.trans hconversationKey), mergeSort_textLe_congr hids⟩

/-- The message is remembered on the board and in the state file. -/
structure Guarded (functions : Functions) (s : Store) (message : SourceInput × Time) : Prop where
  clean : CleanSource message.1
  remembered : ∃ source, normalizeSource message.1 = some source ∧
    Remembers functions s.board (sourceIdentity source) message.2 s.now ∧
    ∃ p, s.persisted = some p ∧ Remembers functions p (sourceIdentity source) message.2 s.now

structure Guarding (functions : Functions) (s : Store) : Prop where
  board : WellKeyed s.board
  persisted : ∀ p, s.persisted = some p → WellKeyed p
  created : ∀ message ∈ s.created, Guarded functions s message

variable {s s' : Store} {write : Write} {result : Body} {answer : Except JsString Result}

/-- The end of an operation guards what the operation has left on the board. -/
theorem Guarding.finish (hdigest : ∀ identity, isDedupeKey (functions.digest identity) = true)
    (h : Guarding functions s) (hnow : s.now ≤ clock.reading 0) (hkeyed : WellKeyed result.1)
    (hresult : ∀ message ∈ s.created, ∀ source, normalizeSource message.1 = some source →
      Remembers functions result.1 (sourceIdentity source) message.2 (clock.reading 0))
    (hs : s.finish clock write result = (answer, s')) : Guarding functions s' := by
  have hlate : clock.reading 0 ≤ clock.reading 6 := clock.mono 0 6 (by omega)
  have hmono : ∀ {board : Board} {identity : SourceIdentity} {t : Time},
      Remembers functions board identity t s.now → Remembers functions board identity t (clock.reading 6) :=
    fun hr => hr.mono (Nat.le_trans hnow hlate)
  -- the board stays as it is
  have hstays : Guarding functions { s with now := clock.reading 6, board := result.1 } := by
    refine ⟨hkeyed, h.persisted, fun message hmessage => ?_⟩
    obtain ⟨source, hsource, -, p, hp, hpr⟩ := (h.created message hmessage).remembered
    exact ⟨(h.created message hmessage).clean, source, hsource, (hresult message hmessage source hsource).mono hlate,
      p, hp, hmono hpr⟩
  -- the board is pruned, and perhaps written
  have hpruned : ∀ message ∈ s.created, ∀ source, normalizeSource message.1 = some source →
      Remembers functions (pruneExpiredState (clock.reading 5) result.1) (sourceIdentity source) message.2
        (clock.reading 6) :=
    fun message hmessage source hsource =>
      ((hresult message hmessage source hsource).prune (hdigest _) (clock.mono 0 5 (by omega))).mono
        (clock.mono 5 6 (by omega))
  unfold Store.finish at hs
  dsimp only at hs
  split at hs
  · obtain ⟨-, rfl⟩ := Prod.mk.inj hs
    exact hstays
  · obtain ⟨-, rfl⟩ := Prod.mk.inj hs
    exact hstays
  · split at hs
    · obtain ⟨-, rfl⟩ := Prod.mk.inj hs
      refine ⟨hkeyed.prune, h.persisted, fun message hmessage => ?_⟩
      obtain ⟨source, hsource, -, p, hp, hpr⟩ := (h.created message hmessage).remembered
      exact ⟨(h.created message hmessage).clean, source, hsource, hpruned message hmessage source hsource,
        p, hp, hmono hpr⟩
    · obtain ⟨-, rfl⟩ := Prod.mk.inj hs
      refine ⟨hkeyed.prune, fun p hp => Option.some.inj hp ▸ hkeyed.prune, fun message hmessage => ?_⟩
      obtain ⟨source, hsource, -⟩ := (h.created message hmessage).remembered
      have hremembers := hpruned message hmessage source hsource
      exact ⟨(h.created message hmessage).clean, source, hsource, hremembers, _, rfl, hremembers⟩

theorem finish_created (hs : s.finish clock write result = (answer, s')) : s'.created = s.created := by
  unfold Store.finish at hs
  dsimp only at hs
  split at hs
  · exact (Prod.mk.inj hs).2 ▸ rfl
  · exact (Prod.mk.inj hs).2 ▸ rfl
  · split at hs <;> exact (Prod.mk.inj hs).2 ▸ rfl

/-- An operation that answers `created` has made the requirement and written the board. -/
theorem finish_answer_created (hreturned : ∀ r, result.2 ≠ .returns (.created r))
    (hs : s.finish clock write result = (.ok (.created r), s')) :
    result.2 = .persists (.created r) ∧ s'.board = pruneExpiredState (clock.reading 5) result.1 ∧
      s'.persisted = some s'.board ∧ s'.now = clock.reading 6 := by
  unfold Store.finish at hs
  dsimp only at hs
  split at hs
  case h_1 answer heq =>
    obtain ⟨hanswer, -⟩ := Prod.mk.inj hs
    obtain rfl := Except.ok.inj hanswer
    exact absurd heq (hreturned r)
  case h_2 => cases (Prod.mk.inj hs).1
  case h_3 answer heq =>
    split at hs
    · cases (Prod.mk.inj hs).1
    · obtain ⟨hanswer, rfl⟩ := Prod.mk.inj hs
      obtain rfl := Except.ok.inj hanswer
      exact ⟨heq, rfl, rfl, rfl⟩

/-- The message that an operation has created is guarded. -/
theorem guarded_created (hdigest : ∀ identity, isDedupeKey (functions.digest identity) = true) {operation : Operation}
    (hrepresentable : Representable (.call operation clock write)) (hoperated : Operated functions clock operation board
    result) (hs : s.finish clock write result = (answer, s')) {message : SourceInput × Time} (hmessage : message ∈
    created operation answer) : Guarded functions s' message := by
  unfold created at hmessage
  split at hmessage
  case h_2 => cases hmessage
  case h_1 input r =>
    obtain rfl := List.mem_singleton.mp hmessage
    obtain ⟨hending, hboard, hpersisted, hnow⟩ := finish_answer_created hoperated.returned hs
    obtain ⟨hr, input', source, hinput, hsource, hnew⟩ := hoperated.created r hending
    obtain rfl := Operation.registerMessageGroup.inj hinput
    have hremembers : Remembers functions result.1 (sourceIdentity source) r.createdAt (clock.reading 5) := by
      refine .inl ⟨r.id, r, hr, ?_⟩
      rw [hnew]
      exact ⟨rfl, rfl, rfl, hrepresentable.2.stable hsource, hrepresentable.1, Nat.le_refl _⟩
    have hafter := (hremembers.prune (hdigest _) (Nat.le_refl _)).mono (clock.mono 5 6 (by omega))
    rw [← hboard, ← hnow] at hafter
    exact ⟨hrepresentable.2, source, hsource, hafter, s'.board, hpersisted, hafter⟩

theorem Guarding.step (hdigest : ∀ identity, isDedupeKey (functions.digest identity) = true) {e : Event}
    (h : Guarding functions s) (hrepresentable : Representable e) (hs : step functions e s = some (answer, s')) :
    Guarding functions s' := by
  unfold MessageProcessing.step at hs
  split at hs
  · cases hs
  case isFalse hnow =>
    have hle : s.now ≤ e.clock.reading 0 := Nat.le_of_not_lt hnow
    cases e with
    | call operation clock write =>
      dsimp only at hs
      split at hs
      case isTrue hfresh =>
        generalize hf : s.finish clock write (MessageProcessing.body functions clock operation s.board) = finished at hs
        obtain ⟨-, rfl⟩ := Prod.mk.inj (Option.some.inj hs)
        by_cases hprune : operation = .pruneExpired
        · subst hprune
          have hfinish : Guarding functions finished.2 := by
            refine h.finish hdigest hle h.board.prune (fun message hmessage source hsource => ?_) hf
            obtain ⟨source', hsource', hr, -⟩ := (h.created message hmessage).remembered
            obtain rfl := Option.some.inj (hsource'.symm.trans hsource)
            exact hr.prune (hdigest _) hle
          refine ⟨hfinish.board, hfinish.persisted, fun message hmessage => ?_⟩
          have hold : message ∈ s.created ++ [] := hmessage
          rw [List.append_nil, ← finish_created hf] at hold
          obtain ⟨hclean, hremembered⟩ := hfinish.created message hold
          exact ⟨hclean, hremembered⟩
        · have hoperated : Operated functions clock operation s.board (body functions clock operation s.board) :=
            operated_body hfresh hprune
          have hfinish : Guarding functions finished.2 := by
            refine h.finish hdigest hle (h.board.operated hoperated) (fun message hmessage source hsource => ?_) hf
            obtain ⟨source', hsource', hr, -⟩ := (h.created message hmessage).remembered
            obtain rfl := Option.some.inj (hsource'.symm.trans hsource)
            exact (hr.operated hoperated).mono hle
          refine ⟨hfinish.board, hfinish.persisted, fun message hmessage => ?_⟩
          have hguarded : Guarded functions finished.2 message := by
            rcases List.mem_append.mp hmessage with hold | hnew
            · rw [← finish_created hf] at hold
              exact hfinish.created message hold
            · exact guarded_created hdigest hrepresentable hoperated hf hnew
          exact ⟨hguarded.clean, hguarded.remembered⟩
      case isFalse => cases hs
    | restart clock write =>
      dsimp only at hs
      split at hs
      case h_2 => cases hs
      case h_1 answer' store hf =>
        obtain ⟨-, rfl⟩ := Prod.mk.inj (Option.some.inj hs)
        have hkeyed : WellKeyed (construct functions clock s.persisted).1 := by
          refine WellKeyed.prune ?_
          split
          · exact .load _
          · exact .empty
        refine h.finish hdigest hle hkeyed (fun message hmessage source hsource => ?_) hf
        obtain ⟨source', hsource', -, p, hp, hpr⟩ := (h.created message hmessage).remembered
        obtain rfl := Option.some.inj (hsource'.symm.trans hsource)
        rw [hp]
        exact (hpr.load (h.persisted p hp) (hdigest _)).prune (hdigest _) hle

/-- A message that is remembered is not created again before its retention has passed. -/
theorem Remembers.not_created {input : RegisterInput} {source : Source} (hsource : normalizeSource input.source = some source)
    (h : Remembers functions board (sourceIdentity source) t now) (hnow : now ≤ clock.reading 0)
    (ht : clock.reading 0 < t + dedupeRetentionMs) :
    (registerMessageGroup functions clock input board).2 ≠ .persists (.created r) := by
  unfold registerMessageGroup
  split
  · simp
  simp only [hsource]
  split
  · simp
  split
  · simp
  case h_2 hnone =>
    rcases h with ⟨id, r', hr', hkind, hkey, -⟩ | ⟨e, he, hlast⟩ | hpast
    · have hmem := InsertionMap.mem_values.mpr ⟨id, hr'⟩
      have hnot := List.find?_eq_none.mp hnone r' hmem
      simp [hkind, hkey, messageSourceDedupeKey] at hnot
    · have hlater : clock.reading 0 < e := Nat.lt_of_lt_of_le ht hlast
      rw [messageSourceDedupeKey, he, if_pos (by simpa using hlater)]
      simp
    · exact absurd (Nat.le_trans hpast hnow) (Nat.not_le_of_lt ht)

/-- In a run whose messages have an id and clean sources, a source that was created is not created again
before its retention has passed. -/
theorem replay_suppressed (functions : Functions)
    (hdigest : ∀ identity, isDedupeKey (functions.digest identity) = true) {s s' : Store}
    (h : (system functions).ReachUnder (fun e _ ↦ Representable e) {} s) {source : SourceInput} {t : Time}
    (hcreated : (source, t) ∈ s.created) {input : RegisterInput} {clock : Clock} {write : Write}
    (hinput : Representable (.call (.registerMessageGroup input) clock write))
    (hsame : SameSource source input.source) (ht : clock.reading 0 < t + dedupeRetentionMs)
    {answer : Except JsString Result}
    (hstep : (system functions).step (.call (.registerMessageGroup input) clock write) s = some (answer, s')) :
    ∀ r, answer ≠ .ok (.created r) := by
  have hguarding : Guarding functions s := by
    refine h.invariant ⟨.empty, fun p hp ↦ (by cases hp), fun message hmessage ↦ (by cases hmessage)⟩
      fun e s a s' hs hrepresentable hstep ↦ ?_
    exact hs.step hdigest hrepresentable hstep
  obtain ⟨hclean, first, hfirst, hremembers, -⟩ := hguarding.created _ hcreated
  rintro r rfl
  simp only [system, MessageProcessing.step] at hstep
  split at hstep
  · cases hstep
  case isFalse hnow =>
    have hle : s.now ≤ clock.reading 0 := Nat.le_of_not_lt hnow
    split at hstep
    case isFalse => cases hstep
    case isTrue hfresh =>
      generalize hf : s.finish clock write
        (body functions clock (.registerMessageGroup input) s.board) = finished at hstep
      obtain ⟨hanswer, -⟩ := Prod.mk.inj (Option.some.inj hstep)
      have hoperated : Operated functions clock (.registerMessageGroup input) s.board
          (registerMessageGroup functions clock input s.board) := operated_register input
      have hfinish : s.finish clock write (registerMessageGroup functions clock input s.board) =
          (.ok (.created r), finished.2) := hf.trans (Prod.ext hanswer rfl)
      obtain ⟨hending, -⟩ := finish_answer_created hoperated.returned hfinish
      obtain ⟨-, input', second, hinput', hsecond, -⟩ := hoperated.created r hending
      obtain rfl := Operation.registerMessageGroup.inj hinput'
      have hidentity := hsame.sourceIdentity_eq hclean hinput.2 hfirst hsecond
      rw [← hidentity] at hremembers
      exact hremembers.not_created hsecond hle ht hending

section

instance (source : SourceInput) : Decidable (CleanSource source) :=
  decidable_of_iff
    (cleanText 200 (cleanText 200 source.routeId) = cleanText 200 source.routeId ∧
      cleanText 120 (cleanText 120 source.endpoint) = cleanText 120 source.endpoint ∧
      cleanText 500 (cleanText 500 source.conversationKey) = cleanText 500 source.conversationKey ∧
      ((source.messageIds.map JsString.trim).filter fun item ↦ !item.isEmpty).length ≤ 100)
    ⟨fun ⟨hrouteId, hendpoint, hconversationKey, hmessageIds⟩ ↦
        ⟨hrouteId, hendpoint, hconversationKey, hmessageIds⟩,
      fun h ↦ ⟨h.routeId, h.endpoint, h.conversationKey, h.messageIds⟩⟩

instance (e : Event) : Decidable (Representable e) :=
  match e with
  | .call (.registerMessageGroup input) _ _ =>
    inferInstanceAs (Decidable (input.requirementId ≠ [] ∧ CleanSource input.source))
  | .call (.recordDispatch ..) _ _ | .call (.recordWorkerReference ..) _ _ | .call (.replaceWorkerReferences ..) _ _
  | .call (.recordDispatchFailure ..) _ _ | .call (.recordHandoffReturned ..) _ _ | .call (.submitOutcome ..) _ _
  | .call (.recordReply ..) _ _ | .call (.recordSend ..) _ _ | .call (.recordKnowledgeCallback ..) _ _
  | .call (.recordKnowledgeReminder ..) _ _ | .call (.registerPlanChange ..) _ _ | .call (.setPlanBaseline ..) _ _
  | .call (.reconcilePlan ..) _ _ | .call .pruneExpired _ _ | .restart _ _ => isTrue trivial

def registers (requirementId : String) (source : SourceInput) (now : Time) : Event :=
  .call (.registerMessageGroup { requirementId := js requirementId, messageGroupId := js "g", source })
    (clockAt now) none

theorem SameSource.refl (source : SourceInput) : SameSource source source := ⟨rfl, rfl, rfl, fun _ => Iff.rfl⟩

/-- A message comes again after a restart. -/
theorem replay_suppressed_restarted : ∃ s, (system plainFunctions).ReachUnder (fun e _ ↦ Representable e) {} s ∧
    (chatSource, 1) ∈ s.created ∧ ∃ answer s', (system plainFunctions).step (registers "q2" chatSource 3) s =
      some (answer, s') ∧ ∀ r, answer ≠ .ok (.created r) := by
  have hrun : ((system plainFunctions).runUnder (fun e _ ↦ Representable e) {}
      [registers "q" chatSource 1, .restart (clockAt 2) none]).any
      (fun s ↦ decide ((chatSource, 1) ∈ s.created) &&
        ((system plainFunctions).step (registers "q2" chatSource 3) s).isSome) = true := by
    decide +kernel
  obtain ⟨s, hs, hend⟩ := (Option.any_eq_true _ _).mp hrun
  simp only [Bool.and_eq_true, decide_eq_true_eq] at hend
  obtain ⟨⟨answer, s'⟩, hstep⟩ := Option.isSome_iff_exists.mp hend.2
  have hreach := System.runUnder_reach hs
  exact ⟨s, hreach, hend.1, answer, s', hstep,
    replay_suppressed plainFunctions (fun _ ↦ rfl) hreach hend.1 (by decide) (.refl _) (by decide) hstep⟩

/-- A digest that tells apart conversation keys of different lengths. -/
def lengthFunctions : Functions :=
  { plainFunctions with
    digest := fun identity ↦ List.replicate 64 (if identity.conversationKey.length = 500 then 97 else 98) }

/-- A conversation key whose 500th code unit is a space. -/
def spacedSource : SourceInput :=
  { chatSource with conversationKey := some (List.replicate 499 97 ++ js " b") }

def isCreated : Except JsString Result → Bool
  | .ok (.created _) => true
  | _ => false

/-- The key of the source is cut after a space.  The restart cleans it again, which makes another key, and
the message is created once more. -/
theorem replay_not_suppressed : ∃ s, (system lengthFunctions).Reach {} s ∧ (spacedSource, 1) ∈ s.created ∧
    (clockAt 3).reading 0 < 1 + dedupeRetentionMs ∧ ∃ r s', (system lengthFunctions).step (registers "q2" spacedSource 3) s = some (.ok (.created r), s') := by
  have hrun : ((system lengthFunctions).run {} [registers "q" spacedSource 1, .restart (clockAt 2) none]).any
      (fun s ↦ decide ((spacedSource, 1) ∈ s.created) &&
        ((system lengthFunctions).step (registers "q2" spacedSource 3) s).any fun answer ↦
          isCreated answer.1) = true := by
    decide +kernel
  obtain ⟨s, hs, hend⟩ := (Option.any_eq_true _ _).mp hrun
  simp only [Bool.and_eq_true, decide_eq_true_eq] at hend
  obtain ⟨⟨answer, s'⟩, hstep, hanswer⟩ := (Option.any_eq_true _ _).mp hend.2
  unfold isCreated at hanswer
  split at hanswer
  case h_1 r hcreated =>
    obtain rfl : answer = .ok (.created r) := hcreated
    exact ⟨s, System.run_reach hs, hend.1, by decide, r, s', hstep⟩
  case h_2 => cases hanswer

end

end RabiRoute.MessageProcessing
