import RabiRoute.IdentityRelations.Learning
import RabiRoute.IdentityRelations.ObservationSafety

/-!
# Automatic learning leaves reviewed records

A call decides by the state that it has read.  A record that was settled by then it leaves alone; one that a
review settles between the read and the write it overrides.
-/

open Collections Interleave Transitions.System

namespace RabiRoute.IdentityRelations

open IdentityRecord

/-! ## What an update writes -/

section Kind

variable {T : Type} [IdentityRecord T] [DecidableEq T] [LawfulIdentityRecord T] {functions : Functions}
  {log log' : IdentityLog} {fresh : Fresh} {updated : Viewed T → UpdatedRecord} {record : T} {result : UpdateResult}

/-- The answer shows a view of the record, and an event that is appended is one of the record. -/
theorem appendRecord_key (h : WellFormed functions (eventsOf T log))
    (happend : appendRecord functions log fresh updated record = (result, log')) :
    (∃ v : Viewed T, result.record = updated v ∧ recordId v.record = recordId record) ∧
      (log' = log ∨ ∃ e, log' = log ++ [e] ∧ e.key = (kind T, recordId record)) := by
  unfold appendRecord at happend
  cases hstate : getState functions T log (recordId record) with
  | none =>
    rw [hstate] at happend
    cases happend
    exact ⟨⟨_, rfl, rfl⟩, .inr ⟨_, rfl, LawfulIdentityRecord.key_logged _⟩⟩
  | some existing =>
    rw [hstate] at happend
    dsimp only at happend
    split at happend
    · cases happend
      have hrecord : getRecord functions T log (recordId record) = some existing.record := by
        unfold getRecord
        rw [hstate]
        rfl
      exact ⟨⟨_, rfl, getRecord_recordId h hrecord⟩, .inl rfl⟩
    · cases happend
      exact ⟨⟨_, rfl, rfl⟩, .inr ⟨_, rfl, LawfulIdentityRecord.key_logged _⟩⟩

/-- What is settled in the answer is settled in the view of the record. -/
theorem appendRecord_viewed {settled : T → Bool} (hsettled : ∀ r, settled (conflictComparable r) = settled r) (hupdated
    : ∀ v, (updated v).isSettled = (!v.conflicted && settled v.record)) (h : WellFormed functions (eventsOf T log)) (h'
    : WellFormed functions (eventsOf T log')) (happend : appendRecord functions log fresh updated record = (result,
    log')) (hresult : result.record.isSettled = true) : ∃ v, getRecord functions T log' (recordId record) = some v ∧
    (updated v).isSettled = true := by
  have hnew : ∀ {e : IdentityRelationEvent T}, log' = log ++ [logged e] → e.record = record →
      result.record = updated ⟨record, false, none⟩ →
      (∀ head ∈ headsOf (groupOf (eventsOf T log) (recordId record)), e.replaces head.id = true) →
      ∃ v, getRecord functions T log' (recordId record) = some v ∧ (updated v).isSettled = true := by
    intro e hlog hrecord hanswer hheads
    subst hlog hrecord
    obtain ⟨v, hv, hconflicted, hcomparable⟩ := getRecord_append h h' hheads
    refine ⟨v, hv, ?_⟩
    rw [hanswer, hupdated] at hresult
    have hrecord : settled e.record = true := (Bool.and_eq_true_iff.mp hresult).2
    rw [hupdated, hconflicted, ← hsettled, hcomparable, hsettled, hrecord]
    rfl
  unfold appendRecord at happend
  cases hstate : getState functions T log (recordId record) with
  | none =>
    rw [hstate] at happend
    cases happend
    refine hnew rfl rfl rfl ?_
    rw [headsOf_eq_nil_of_getState hstate]
    intro head hhead
    cases hhead
  | some existing =>
    rw [hstate] at happend
    dsimp only at happend
    split at happend
    · cases happend
      refine ⟨existing.record, ?_, hresult⟩
      unfold getRecord
      rw [hstate]
      rfl
    · cases happend
      refine hnew rfl rfl rfl fun head hhead => replaces_nextEvent ?_
      rw [getState_eq] at hstate
      obtain ⟨view, -, rfl⟩ := Option.map_eq_some_iff.mp hstate
      exact hhead

end Kind

theorem requiredText_ok {limit : Nat} {value : Raw} {label : String} {t : JsString}
    (h : requiredText value label limit = .ok t) : (text limit value).getD [] = t := by
  unfold requiredText at h
  cases htext : text limit value with
  | none =>
    rw [htext] at h
    cases h
  | some t' =>
    rw [htext] at h
    exact Except.ok.inj h

section Written

variable {functions : Functions} {log : IdentityLog} {fresh : Fresh} {patch : IdentityRelationPatch}

theorem accountRecord_id {record : IdentityEndpointAccount} (h : accountRecord functions log fresh patch = .ok record) :
    record.id = endpointAccountId functions ((text 100 (given patch.platform)).getD [])
      ((text 300 (given patch.endpointIdentityNamespace)).getD []) ((text 300 (given patch.senderStableId)).getD []) := by
  unfold accountRecord at h
  obtain ⟨platform, hplatform, h⟩ := Fallible.bind_ok.mp h
  obtain ⟨endpointIdentityNamespace, hnamespace, h⟩ := Fallible.bind_ok.mp h
  obtain ⟨senderStableId, hsender, h⟩ := Fallible.bind_ok.mp h
  obtain ⟨-, -, h⟩ := Fallible.bind_ok.mp h
  obtain ⟨links, -, h⟩ := Fallible.bind_ok.mp h
  obtain ⟨-, -, h⟩ := Fallible.bind_ok.mp h
  rw [requiredText_ok hplatform, requiredText_ok hnamespace, requiredText_ok hsender]
  cases Except.ok.inj h
  rfl

theorem participantRecord_id {record : IdentityParticipant}
    (h : participantRecord functions log fresh patch = .ok record) : record.id = participantKey fresh patch := by
  unfold participantRecord at h
  obtain ⟨-, -, h⟩ := Fallible.bind_ok.mp h
  obtain ⟨kind, -, h⟩ := Fallible.bind_ok.mp h
  obtain ⟨aliases, -, h⟩ := Fallible.bind_ok.mp h
  obtain ⟨habits, -, h⟩ := Fallible.bind_ok.mp h
  obtain ⟨status, -, h⟩ := Fallible.bind_ok.mp h
  obtain ⟨refs, -, h⟩ := Fallible.bind_ok.mp h
  cases Except.ok.inj h
  rfl

theorem cardRecord_id {record : IdentityRelationCard} (h : cardRecord functions log fresh patch = .ok record) :
    record.id = cardKey fresh patch := by
  unfold cardRecord at h
  obtain ⟨-, -, h⟩ := Fallible.bind_ok.mp h
  obtain ⟨subject, -, h⟩ := Fallible.bind_ok.mp h
  obtain ⟨targetKind, -, h⟩ := Fallible.bind_ok.mp h
  obtain ⟨targetId, -, h⟩ := Fallible.bind_ok.mp h
  obtain ⟨relationship, -, h⟩ := Fallible.bind_ok.mp h
  obtain ⟨status, -, h⟩ := Fallible.bind_ok.mp h
  obtain ⟨scope, -, h⟩ := Fallible.bind_ok.mp h
  obtain ⟨refs, -, h⟩ := Fallible.bind_ok.mp h
  obtain ⟨-, -, h⟩ := Fallible.bind_ok.mp h
  cases Except.ok.inj h
  rfl

/-- What an update that succeeds says of the record it writes. -/
structure Updates (functions : Functions) (log log' : IdentityLog) (result : UpdateResult) : Prop where
  log : log' = log ∨ ∃ e, log' = log ++ [e] ∧ e.key = result.record.key
  viewed : result.record.isSettled = true → (viewed functions log' result.record.key).any (·.isSettled) = true

theorem settled_comparable_account (r : IdentityEndpointAccount) : (conflictComparable r).isSettled = r.isSettled := rfl

theorem settled_comparable_participant (r : IdentityParticipant) : (conflictComparable r).isSettled = r.isSettled := by
  show (if r.isObserved then _ else _ : IdentityParticipant).isSettled = r.isSettled
  split
  · rfl
  · rfl

theorem settled_comparable_card (r : IdentityRelationCard) : (conflictComparable r).isSettled = r.isSettled := rfl

theorem updateIdentityRelation_updates {log' : IdentityLog} {result : UpdateResult} (hwell : WellFormedLog functions
    log) (hwell' : WellFormedLog functions log') (h : updateIdentityRelation functions log fresh patch = .ok (result,
    log')) : writtenKey functions fresh patch = some result.record.key ∧ Updates functions log log' result := by
  unfold updateIdentityRelation at h
  unfold writtenKey
  cases hkind : patch.kind with
  | none =>
    rw [hkind] at h
    cases h
  | some kind =>
    rw [hkind] at h
    cases kind with
    | endpointAccount =>
      obtain ⟨record, hrecord, hok⟩ := Fallible.bind_ok.mp h
      have happend := Except.ok.inj hok
      obtain ⟨⟨v, hresult, hid⟩, hlog⟩ := appendRecord_key hwell.accounts happend
      have hkey : result.record.key = (.endpointAccount, record.id) := by
        rw [hresult]
        exact congrArg (RecordKind.endpointAccount, ·) hid
      refine ⟨?_, hkey ▸ hlog, fun hsettled => ?_⟩
      · rw [hkey, accountRecord_id hrecord]
        rfl
      · obtain ⟨v, hv, hvsettled⟩ := appendRecord_viewed settled_comparable_account (fun _ => rfl)
          hwell.accounts hwell'.accounts happend hsettled
        rw [hkey]
        show ((getRecord functions IdentityEndpointAccount log' record.id).map _).any _ = true
        rw [show getRecord functions IdentityEndpointAccount log' record.id = some v from hv]
        exact hvsettled
    | participant =>
      obtain ⟨record, hrecord, hok⟩ := Fallible.bind_ok.mp h
      have happend := Except.ok.inj hok
      obtain ⟨⟨v, hresult, hid⟩, hlog⟩ := appendRecord_key hwell.participants happend
      have hkey : result.record.key = (.participant, record.id) := by
        rw [hresult]
        exact congrArg (RecordKind.participant, ·) hid
      refine ⟨?_, hkey ▸ hlog, fun hsettled => ?_⟩
      · rw [hkey, participantRecord_id hrecord]
        rfl
      · obtain ⟨v, hv, hvsettled⟩ := appendRecord_viewed settled_comparable_participant (fun _ => rfl)
          hwell.participants hwell'.participants happend hsettled
        rw [hkey]
        show ((getRecord functions IdentityParticipant log' record.id).map _).any _ = true
        rw [show getRecord functions IdentityParticipant log' record.id = some v from hv]
        exact hvsettled
    | relationCard =>
      obtain ⟨record, hrecord, hok⟩ := Fallible.bind_ok.mp h
      have happend := Except.ok.inj hok
      obtain ⟨⟨v, hresult, hid⟩, hlog⟩ := appendRecord_key hwell.cards happend
      have hkey : result.record.key = (.relationCard, record.id) := by
        rw [hresult]
        exact congrArg (RecordKind.relationCard, ·) hid
      refine ⟨?_, hkey ▸ hlog, fun hsettled => ?_⟩
      · rw [hkey, cardRecord_id hrecord]
        rfl
      · obtain ⟨v, hv, hvsettled⟩ := appendRecord_viewed settled_comparable_card (fun _ => rfl)
          hwell.cards hwell'.cards happend hsettled
        rw [hkey]
        show ((getRecord functions IdentityRelationCard log' record.id).map _).any _ = true
        rw [show getRecord functions IdentityRelationCard log' record.id = some v from hv]
        exact hvsettled

end Written

/-! ## Views of a log that has grown elsewhere -/

section Elsewhere

variable {functions : Functions} {log : IdentityLog}

theorem getRecord_append_elsewhere {T : Type} [IdentityRecord T] [DecidableEq T] [LawfulIdentityRecord T]
    {e : LogEvent} {rid : JsString} (h : e.key ≠ (kind T, rid)) :
    getRecord functions T (log ++ [e]) rid = getRecord functions T log rid := by
  cases hevent : (event e : Option (IdentityRelationEvent T)) with
  | none =>
    have hevents : eventsOf T (log ++ [e]) = eventsOf T log := by
      unfold eventsOf
      rw [List.filterMap_append, List.filterMap_cons_none hevent, List.filterMap_nil, List.append_nil]
    rw [getRecord_eq, getRecord_eq, hevents]
  | some logged =>
    obtain rfl := LawfulIdentityRecord.event_eq_some.mp hevent
    rw [LawfulIdentityRecord.key_logged] at h
    exact getRecord_append_ne fun hrid => h (congrArg _ hrid)

theorem viewed_append {e : LogEvent} {key : RecordKind × JsString} (h : e.key ≠ key) :
    viewed functions (log ++ [e]) key = viewed functions log key := by
  obtain ⟨kind, id⟩ := key
  cases kind with
  | endpointAccount =>
    exact congrArg (Option.map _) (getRecord_append_elsewhere (show e.key ≠ (kind IdentityEndpointAccount, id) from h))
  | participant =>
    exact congrArg (Option.map _) (getRecord_append_elsewhere (show e.key ≠ (kind IdentityParticipant, id) from h))
  | relationCard =>
    exact congrArg (Option.map _) (getRecord_append_elsewhere (show e.key ≠ (kind IdentityRelationCard, id) from h))

theorem viewed_append_all (functions : Functions) (log : IdentityLog) {more : List LogEvent} {key : RecordKind × JsString} (h : ∀ e ∈ more, e.key ≠ key) :
    viewed functions (log ++ more) key = viewed functions log key := by
  induction more generalizing log with
  | nil => rw [List.append_nil]
  | cons e more ih =>
    rw [← List.singleton_append, ← List.append_assoc, ih _ fun e' he' => h e' (List.mem_cons_of_mem _ he'),
      viewed_append (h e List.mem_cons_self)]

end Elsewhere

/-! ## What a call has read -/

section Seen

variable {functions : Functions} {log : IdentityLog}

theorem viewed_account (log : IdentityLog) (id : JsString) : viewed functions log (.endpointAccount, id) =
    (getRecord functions IdentityEndpointAccount log id).map .endpointAccount := rfl

theorem viewed_participant (log : IdentityLog) (id : JsString) : viewed functions log (.participant, id) =
    (getRecord functions IdentityParticipant log id).map .participant := rfl

theorem viewed_card (log : IdentityLog) (id : JsString) : viewed functions log (.relationCard, id) =
    (getRecord functions IdentityRelationCard log id).map .relationCard := rfl

/-- The view is not that of a settled record. -/
def isOpen (functions : Functions) (log : IdentityLog) (key : RecordKind × JsString) : Bool :=
  !(viewed functions log key).any (·.isSettled)

theorem isOpen_participant {id : JsString} (h : isLearnable (getRecord functions IdentityParticipant log id) = true) :
    isOpen functions log (.participant, id) = true := by
  rw [isOpen, viewed_participant]
  cases hview : getRecord functions IdentityParticipant log id with
  | none => rfl
  | some view =>
    rw [hview] at h
    have hcandidate : view.record.status = .candidate := eq_of_beq (Bool.and_eq_true_iff.mp h).2
    show (!(!view.conflicted && view.record.status != .candidate)) = true
    rw [hcandidate]
    exact (congrArg (! ·) (Bool.and_false _)).trans rfl

theorem isOpen_account {id : JsString} (h : isReserved (getRecord functions IdentityEndpointAccount log id) = false) :
    isOpen functions log (.endpointAccount, id) = true := by
  rw [isOpen, viewed_account]
  cases hview : getRecord functions IdentityEndpointAccount log id with
  | none => rfl
  | some view =>
    rw [hview] at h
    obtain ⟨hfirst, hlinks⟩ := Bool.or_eq_false_iff.mp (show (view.conflicted || view.record.isSelf == some true ||
      view.record.participantLinks.any (·.status.isAuthoritative)) = false from h)
    show (!(!view.conflicted && (view.record.isSelf == some true ||
      view.record.participantLinks.any (·.status.isAuthoritative)))) = true
    rw [hlinks, (Bool.or_eq_false_iff.mp hfirst).2, Bool.or_false, Bool.and_false]
    rfl

theorem isOpen_card {id : JsString} (h : (getRecord functions IdentityRelationCard log id).any
    (fun card => card.conflicted || card.record.status != .candidate) = false) :
    isOpen functions log (.relationCard, id) = true := by
  rw [isOpen, viewed_card]
  cases hview : getRecord functions IdentityRelationCard log id with
  | none => rfl
  | some view =>
    rw [hview] at h
    obtain ⟨-, hcandidate⟩ := Bool.or_eq_false_iff.mp (show (view.conflicted ||
      view.record.status != .candidate) = false from h)
    show (!(!view.conflicted && view.record.status != .candidate)) = true
    rw [hcandidate, Bool.and_false]
    rfl

/-- The records of an observation that has passed are open. -/
theorem prepareObservation_open {observation : IdentityCandidateObservation} {p : PreparedObservation}
    (hwell : WellFormedLog functions log) (h : prepareObservation functions log observation = .ok p) :
    isOpen functions log (.participant, p.participant.id) = true ∧
      ∀ r ∈ p.relations, isOpen functions log (.relationCard, r.relationId) = true := by
  unfold prepareObservation at h
  obtain ⟨account, -, h⟩ := Fallible.bind_ok.mp h
  obtain ⟨participant, hparticipant, h⟩ := Fallible.bind_ok.mp h
  obtain ⟨evidence, -, h⟩ := Fallible.bind_ok.mp h
  obtain ⟨relations, hrelations, h⟩ := Fallible.bind_ok.mp h
  cases Except.ok.inj h
  constructor
  · unfold candidateParticipant at hparticipant
    split at hparticipant
    · cases hparticipant
    · split at hparticipant
      · cases hparticipant
      · rename_i view hview
        split at hparticipant
        · cases hparticipant
        · rename_i hlearnable
          cases Except.ok.inj hparticipant
          have hid : view.record.id = _ := getRecord_recordId hwell.participants hview
          rw [hid]
          apply isOpen_participant
          rw [hview]
          simpa [isLearnable] using hlearnable
  · intro r hr
    obtain ⟨raw, -, hraw⟩ := Fallible.exists_of_mem_mapM hrelations hr
    unfold prepareRelation at hraw
    obtain ⟨scope, -, hraw⟩ := Fallible.bind_ok.mp hraw
    obtain ⟨targetKind, -, hraw⟩ := Fallible.bind_ok.mp hraw
    obtain ⟨targetId, -, hraw⟩ := Fallible.bind_ok.mp hraw
    obtain ⟨relationship, -, hraw⟩ := Fallible.bind_ok.mp hraw
    dsimp only at hraw
    split at hraw
    · cases hraw
    · rename_i hopen
      cases Except.ok.inj hraw
      exact isOpen_card (Bool.eq_false_iff.mpr hopen)

end Seen

/-! ## Reviewed records -/

section Runs

variable {Tid : Type} {functions : Functions}

/-- Since the review that has settled a record no event of it was written. -/
structure Kept (functions : Functions) (s : Role Tid) (key : RecordKind × JsString) (n : Nat) : Prop where
  length : n ≤ s.log.length
  untouched : ∀ e ∈ s.log.drop n, e.key ≠ key
  settled : (viewed functions (s.log.take n) key).any (·.isSettled) = true

structure Sound (functions : Functions) (s : Role Tid) : Prop where
  held : Held ⟨[s.log], s.history⟩
  kept : ∀ key n, s.reviewed key = some n → Kept functions s key n

theorem Sound.wellFormed {s : Role Tid} (h : Sound functions s) (hf : functions.Lawful) :
    WellFormedLog functions s.log :=
  h.held.written.wellFormedLog hf (h.held.lines _ (List.mem_singleton.mpr rfl))

/-- The view of the record is the one that the review left. -/
theorem Kept.viewed_eq {s : Role Tid} {key : RecordKind × JsString} {n : Nat} (h : Kept functions s key n) :
    viewed functions s.log key = viewed functions (s.log.take n) key := by
  have hview := viewed_append_all functions (s.log.take n) h.untouched
  rw [List.take_append_drop] at hview
  exact hview

/-- A call that read the log after the review saw the record settled. -/
theorem Kept.seen {s : Role Tid} {key : RecordKind × JsString} {n : Nat} (h : Kept functions s key n) {before :
    IdentityLog} (hbefore : before <+: s.log) (hn : n ≤ before.length) : isOpen functions before key = false := by
  obtain ⟨more, hmore⟩ := hbefore
  have htake : s.log.take n = before.take n := by
    rw [← hmore, List.take_append_of_le_length hn]
  have huntouched : ∀ e ∈ before.drop n, e.key ≠ key := by
    intro e he
    apply h.untouched e
    rw [← hmore, List.drop_append_of_le_length hn]
    exact List.mem_append_left _ he
  have hview := viewed_append_all functions (before.take n) huntouched
  rw [List.take_append_drop, ← htake] at hview
  unfold isOpen
  rw [hview, h.settled]
  rfl

theorem Kept.append {s s' : Role Tid} {key : RecordKind × JsString} {n : Nat} (h : Kept functions s key n)
    {more : List LogEvent} (hlog : s'.log = s.log ++ more) (hmore : ∀ e ∈ more, e.key ≠ key) :
    Kept functions s' key n where
  length := by
    rw [hlog, List.length_append]
    exact Nat.le_add_right_of_le h.length
  untouched e he := by
    rw [hlog, List.drop_append_of_le_length h.length] at he
    cases List.mem_append.mp he with
    | inl hold => exact h.untouched e hold
    | inr hnew => exact hmore e hnew
  settled := by
    rw [hlog, List.take_append_of_le_length h.length]
    exact h.settled

/-- What one update under the lock leaves. -/
theorem Sound.update {s : Role Tid} (h : Sound functions s) (hf : functions.Lawful) {fresh : Fresh}
    (hfresh : fresh.suits s.history) {patch : IdentityRelationPatch} {result : UpdateResult} {log : IdentityLog}
    (hok : updateIdentityRelation functions s.log fresh patch = .ok (result, log)) :
    Held ⟨[log], s.history ++ log.drop s.log.length⟩ ∧ writtenKey functions fresh patch = some result.record.key ∧
      (∃ more, log = s.log ++ more ∧ ∀ e ∈ more, e.key = result.record.key) ∧
      (result.record.isSettled = true → (viewed functions log result.record.key).any (·.isSettled) = true) := by
  have hstep : (copies functions).step (.update 0 fresh patch) ⟨[s.log], s.history⟩ =
      some (some result, ⟨[log], s.history ++ log.drop s.log.length⟩) := by
    show (if fresh.suits s.history then _ else none) = _
    rw [if_pos hfresh, List.getElem?_cons_zero, Option.map_some, hok]
    rfl
  have hheld := step_held h.held hstep
  have hwell : WellFormedLog functions log :=
    hheld.written.wellFormedLog hf (hheld.lines _ (List.mem_singleton.mpr rfl))
  obtain ⟨hkey, hupdates⟩ := updateIdentityRelation_updates (h.wellFormed hf) hwell hok
  refine ⟨hheld, hkey, ?_, hupdates.viewed⟩
  obtain rfl | ⟨e, rfl, he⟩ := hupdates.log
  · exact ⟨[], (List.append_nil _).symm, fun e he => by cases he⟩
  · exact ⟨[e], rfl, fun e' he' => by rw [List.mem_singleton.mp he', he]⟩

/-- Calls append to the log, and only the call itself changes what it has read. -/
def discipline (functions : Functions) (Tid : Type) : Discipline (Role Tid) Tid where
  inv := Sound functions
  rely t s s' := s'.reads t = s.reads t ∧ s.log <+: s'.log
  rely_refl _ _ := ⟨rfl, List.prefix_rfl⟩
  rely_trans _ _ _ _ h h' := ⟨h'.1.trans h.1, h.2.trans h'.2⟩

/-- The call has read the log. -/
structure Seen (t : Tid) (before : IdentityLog) (s : Role Tid) : Prop where
  reads : s.reads t = before.length
  before : before <+: s.log

variable [DecidableEq Tid]

section Rules

variable {t : Tid} {ok : Tid → Command → Fresh → Role Tid → Prop} {E : String → Role Tid → Prop} {s : Role Tid}

theorem wp_read {Q : IdentityLog → Role Tid → Prop} (hs : Sound functions s)
    (h : ∀ before s', Sound functions s' → Seen t before s' → WellFormedLog functions before → Q before s')
    (hf : functions.Lawful) : wp (learning functions) ok (discipline functions Tid) t read Q E s := by
  apply wp_performOrThrow
  intro fresh r s' _ hexec
  cases Option.some.inj hexec
  refine ⟨⟨⟨hs.held, fun key n hn => ⟨(hs.kept key n hn).length, (hs.kept key n hn).untouched,
    (hs.kept key n hn).settled⟩⟩, fun u hu => ⟨Function.update_of_ne hu _ _, List.prefix_rfl⟩⟩, fun s'' hlater =>
      ⟨fun before hbefore => ?_, fun e he => by cases he⟩⟩
  cases Except.ok.inj hbefore
  refine h _ s'' hlater.inv ?_ (hs.wellFormed hf)
  exact ⟨hlater.rely.1.trans (Function.update_self t _ _), hlater.rely.2⟩

/-- An automatic call may write a record that was open when it read the log. -/
theorem wp_learn {Q : UpdateResult → Role Tid → Prop} {before : IdentityLog} {patch : IdentityRelationPatch}
    {key : RecordKind × JsString} (hf : functions.Lawful) (hs : Sound functions s) (hseen : Seen t before s)
    (hkey : namedKey functions patch = some key) (hopen : isOpen functions before key = true)
    (hQ : ∀ result s', Sound functions s' → Seen t before s' → Q result s') (hE : ∀ e s', E e s') :
    wp (learning functions) (Timely functions) (discipline functions Tid) t (learn patch) Q E s := by
  apply wp_performOrThrow
  intro fresh r s' htimely hexec
  obtain ⟨hnamed, htime⟩ := htimely
  have hexec : (if fresh.suits s.history then some (s.update functions fresh patch) else none) = some (r, s') := hexec
  split at hexec
  · rename_i hfresh
    unfold Role.update at hexec
    cases hupdate : updateIdentityRelation functions s.log fresh patch with
    | error message =>
      rw [hupdate] at hexec
      cases Option.some.inj hexec
      exact ⟨⟨hs, fun u hu => (discipline functions Tid).rely_refl u s⟩, fun s'' hlater =>
        ⟨fun result hresult => (by cases hresult), fun e _ => hE e s''⟩⟩
    | ok updated =>
      obtain ⟨result, log⟩ := updated
      rw [hupdate] at hexec
      cases Option.some.inj hexec
      obtain ⟨hheld, hwritten, ⟨more, hlog, hmore⟩, -⟩ := hs.update hf hfresh hupdate
      have hresult : result.record.key = key := Option.some.inj (hwritten.symm.trans (hnamed.trans hkey))
      -- a review that had settled the record before the call read the log would have been seen
      have hunreviewed : ∀ n, s.reviewed key ≠ some n := by
        intro n hn
        have hread := htime key hkey n hn
        rw [hseen.reads] at hread
        rw [(hs.kept key n hn).seen hseen.before hread] at hopen
        cases hopen
      have hgrown : s.log <+: log := hlog ▸ List.prefix_append _ _
      refine ⟨⟨⟨hheld, fun key' n hn => (hs.kept key' n hn).append hlog fun e he heq => ?_⟩,
        fun u _ => ⟨rfl, hgrown⟩⟩, fun s'' hlater => ⟨fun result' _ => ?_, fun e he => by cases he⟩⟩
      · rw [hmore e he, hresult] at heq
        exact hunreviewed n (heq ▸ hn)
      · exact hQ result' s'' hlater.inv ⟨hlater.rely.1.trans hseen.reads,
          hseen.before.trans (hgrown.trans hlater.rely.2)⟩
  · cases hexec

/-- A reviewer may write any record. -/
theorem wp_review {Q : UpdateResult → Role Tid → Prop} {patch : IdentityRelationPatch} (hf : functions.Lawful)
    (hs : Sound functions s) (hQ : ∀ result s', Q result s') (hE : ∀ e s', E e s') :
    wp (learning functions) ok (discipline functions Tid) t (review patch) Q E s := by
  apply wp_performOrThrow
  intro fresh r s' _ hexec
  have hexec : (if fresh.suits s.history then
    some ((s.update functions fresh patch).1, (s.update functions fresh patch).2.review
      (s.update functions fresh patch).1) else none) = some (r, s') := hexec
  split at hexec
  · rename_i hfresh
    unfold Role.update at hexec
    cases hupdate : updateIdentityRelation functions s.log fresh patch with
    | error message =>
      rw [hupdate] at hexec
      cases Option.some.inj hexec
      exact ⟨⟨hs, fun u hu => (discipline functions Tid).rely_refl u s⟩, fun s'' hlater =>
        ⟨fun result hresult => (by cases hresult), fun e _ => hE e s''⟩⟩
    | ok updated =>
      obtain ⟨result, log⟩ := updated
      rw [hupdate] at hexec
      cases Option.some.inj hexec
      obtain ⟨hheld, -, ⟨more, hlog, hmore⟩, hviewed⟩ := hs.update hf hfresh hupdate
      have hgrown : s.log <+: log := hlog ▸ List.prefix_append _ _
      refine ⟨⟨⟨hheld, fun key n hn => ?_⟩, fun u _ => ⟨rfl, hgrown⟩⟩, fun s'' hlater =>
        ⟨fun result' _ => hQ result' s'', fun e he => by cases he⟩⟩
      have hn : Function.update s.reviewed result.record.key
        (if result.record.isSettled then some log.length else none) key = some n := hn
      by_cases hkey : key = result.record.key
      · subst hkey
        rw [Function.update_self] at hn
        split at hn
        · rename_i hsettled
          cases Option.some.inj hn
          constructor
          · exact Nat.le_refl _
          · intro e he
            have he : e ∈ log.drop log.length := he
            rw [List.drop_length] at he
            cases he
          · show (viewed functions (log.take log.length) result.record.key).any _ = true
            rw [List.take_length]
            exact hviewed hsettled
        · cases hn
      · rw [Function.update_of_ne hkey] at hn
        refine (hs.kept key n hn).append hlog fun e he heq => hkey ?_
        rw [← heq, hmore e he]
  · cases hexec

/-! ## The calls -/

variable {before : IdentityLog}

theorem wp_untouched (hf : functions.Lawful) (hs : Sound functions s) (lookup : IdentityEndpointLookup)
    (participantId : Option JsString) :
    wp (learning functions) (Timely functions) (discipline functions Tid) t
      (untouched functions lookup participantId) (fun _ _ => True) E s := by
  unfold untouched
  apply wp_bind
  exact wp_read hs (fun _ _ _ _ _ => trivial) hf

theorem wp_learnParticipant (hf : functions.Lawful) (hs : Sound functions s) (hseen : Seen t before s)
    (participantId : JsString) (observedName : Option JsString) (evidence : List IdentityEvidenceRef)
    (hE : ∀ e s', E e s') :
    wp (learning functions) (Timely functions) (discipline functions Tid) t
      (learnParticipant participantId (getRecord functions IdentityParticipant before participantId) observedName
        evidence) (fun _ s' => Sound functions s' ∧ Seen t before s') E s := by
  unfold learnParticipant
  split
  · rename_i hlearnable
    exact wp_bind (wp_learn hf hs hseen rfl (isOpen_participant hlearnable) (fun _ _ hs hseen => ⟨hs, hseen⟩) hE)
  · exact ⟨hs, hseen⟩

theorem wp_learnCandidate (hf : functions.Lawful) (hs : Sound functions s) (hseen : Seen t before s)
    (lookup : IdentityEndpointLookup) {platform endpointIdentityNamespace senderStableId : JsString}
    {account : Option (Viewed IdentityEndpointAccount)}
    (haccount : isOpen functions before (.endpointAccount,
      endpointAccountId functions platform endpointIdentityNamespace senderStableId) = true)
    (participantId : JsString) (hE : ∀ e s', E e s') :
    wp (learning functions) (Timely functions) (discipline functions Tid) t
      (learnCandidate functions lookup platform endpointIdentityNamespace senderStableId before account participantId)
      (fun _ _ => True) E s := by
  unfold learnCandidate
  apply wp_bind
  refine wp_mono (wp_learnParticipant hf hs hseen participantId _ _ hE) (fun _ s' h => ?_) (fun _ _ h => h)
  apply wp_bind
  refine wp_learn hf h.1 h.2 rfl haccount (fun _ s' hs _ => ?_) hE
  apply wp_bind
  exact wp_read hs (fun _ _ _ _ _ => trivial) hf

theorem wp_observeIdentityEndpoint (hf : functions.Lawful) (hs : Sound functions s) (uuid : JsString)
    (lookup : IdentityEndpointLookup) (hE : ∀ e s', E e s') :
    wp (learning functions) (Timely functions) (discipline functions Tid) t
      (observeIdentityEndpoint functions lookup uuid) (fun _ _ => True) E s := by
  unfold observeIdentityEndpoint
  split
  · apply wp_bind
    refine wp_read hs (fun before s' hs hseen _ => ?_) hf
    unfold observeAccount
    dsimp only
    split
    · exact wp_untouched hf hs lookup _
    · rename_i hreserved
      have haccount := isOpen_account (Bool.eq_false_iff.mpr hreserved)
      split
      · exact wp_untouched hf hs lookup _
      · exact wp_learnCandidate hf hs hseen lookup haccount _ hE
  · trivial

theorem wp_orThrow {α : Type} {Q : α → Role Tid → Prop} (x : Except String α) (hQ : ∀ a, x = .ok a → Q a s)
    (hE : ∀ e s', E e s') : wp (learning functions) ok (discipline functions Tid) t (orThrow x) Q E s := by
  cases x with
  | error message => exact hE message s
  | ok a => exact hQ a rfl

theorem wp_learnRelations (hf : functions.Lawful) (hs : Sound functions s) (hseen : Seen t before s)
    (p : PreparedObservation) {relations : List PreparedRelation}
    (hopen : ∀ r ∈ relations, isOpen functions before (.relationCard, r.relationId) = true) (hE : ∀ e s', E e s') :
    wp (learning functions) (Timely functions) (discipline functions Tid) t (learnRelations p relations)
      (fun _ _ => True) E s := by
  induction relations generalizing s with
  | nil => trivial
  | cons r relations ih =>
    unfold learnRelations
    apply wp_bind
    refine wp_orThrow _ (fun refs _ => ?_) hE
    apply wp_bind
    refine wp_learn hf hs hseen rfl (hopen r List.mem_cons_self) (fun _ s' hs hseen => ?_) hE
    apply wp_bind
    exact wp_mono (ih hs hseen fun r hr => hopen r (List.mem_cons_of_mem _ hr)) (fun _ _ _ => trivial) fun _ _ h => h

theorem wp_learnObservation (hf : functions.Lawful) (hs : Sound functions s)
    (observation : IdentityCandidateObservation) (hE : ∀ e s', E e s') :
    wp (learning functions) (Timely functions) (discipline functions Tid) t (learnObservation functions observation)
      (fun _ _ => True) E s := by
  unfold learnObservation
  apply wp_bind
  refine wp_read hs (fun before s' hs hseen hwell => ?_) hf
  apply wp_bind
  refine wp_orThrow _ (fun p hp => ?_) hE
  obtain ⟨hparticipant, hrelations⟩ := prepareObservation_open hwell hp
  apply wp_bind
  refine wp_learn hf hs hseen rfl hparticipant (fun _ s' hs hseen => ?_) hE
  apply wp_bind
  exact wp_mono (wp_learnRelations hf hs hseen p hrelations hE) (fun _ _ _ => trivial) fun _ _ h => h

theorem wp_task (hf : functions.Lawful) (hs : Sound functions s) (task : Task) :
    wp (learning functions) (Timely functions) (discipline functions Tid) t (task.run functions) (fun _ _ => True)
      (fun _ _ => True) s := by
  cases task with
  | observe uuid lookup =>
    exact wp_bind (wp_mono (wp_observeIdentityEndpoint hf hs uuid lookup fun _ _ => trivial) (fun _ _ _ => trivial)
      fun _ _ h => h)
  | record observation =>
    exact wp_bind (wp_mono (wp_learnObservation hf hs observation fun _ _ => trivial) (fun _ _ _ => trivial)
      fun _ _ h => h)
  | review patch => exact wp_bind (wp_review hf hs (fun _ _ => trivial) fun _ _ => trivial)

end Rules

omit [DecidableEq Tid] in
theorem sound_start {history log : IdentityLog} (hheld : Held ⟨[log], history⟩) (tasks : Tid → Task) :
    Sound functions (Role.start functions log history tasks).shared :=
  ⟨hheld, fun _ _ hn => by cases hn⟩

/-- As long as the updates of automatic calls are timely, a record that a review has settled stays as the review
left it, until the next review of it. -/
theorem learning_keeps_reviewed (functions : Functions) (hf : functions.Lawful) (copies' : Copies)
    (hcopies : (copies functions).Reach Copies.initial copies') (log : IdentityLog) (hlog : log ∈ copies'.logs)
    (tasks : Tid → Task) (cfg : Config (Role Tid) Command (Program.Fallible String Value) Tid String Unit)
    (hreach : (learning functions).ReachUnder (Timely functions)
      (Role.start functions log copies'.history tasks) cfg) :
    ∀ key n, cfg.shared.reviewed key = some n →
      (∀ e ∈ cfg.shared.log.drop n, e.key ≠ key) ∧
        viewed functions cfg.shared.log key = viewed functions (cfg.shared.log.take n) key ∧
        (viewed functions cfg.shared.log key).any (·.isSettled) = true := by
  have hheld := hcopies.invariant held_initial fun event s a s' h _ hstep ↦ step_held h hstep
  have hone : Held ⟨[log], copies'.history⟩ :=
    ⟨hheld.written, fun l hl ↦ List.mem_singleton.mp hl ▸ hheld.lines log hlog⟩
  have hverified : Verified (learning functions) (Timely functions) (discipline functions Tid) (fun _ _ _ ↦ True)
      (fun _ _ _ ↦ True) cfg := by
    refine Verified.reach (fun e ↦ nomatch e) ⟨sound_start hone tasks, fun t s hlater ↦ ?_⟩ hreach
    exact wp_task hf hlater.inv (tasks t)
  intro key n hn
  have hkept := hverified.1.kept key n hn
  refine ⟨hkept.untouched, hkept.viewed_eq, ?_⟩
  rw [hkept.viewed_eq]
  exact hkept.settled

end Runs

/-! ## A review between the read and the write -/

section Confirmed

/-- `false` sees the account of `introduced` again, and `true` confirms its participant. -/
def confirming : Bool → Task
  | false => .observe [] ⟨.text (js "qq"), .text (js "main"), .text (js "alice"), .text (js "Cotton"), none, none⟩
  | true => .review { kind := some .participant, participantId := some (.text (js "cotton")),
                      status := some (.text (js "confirmed")) }

/-- Where the review is first, the participant stays confirmed. -/
theorem learning_keeps_reviewed_confirmed :
    ∃ s, (copies nobodyFunctions).Reach Copies.initial s ∧ ∃ log ∈ s.logs,
      ∃ cfg, (learning nobodyFunctions).ReachUnder (Timely nobodyFunctions)
        (Role.start nobodyFunctions log s.history confirming) cfg ∧ log.length = 2 ∧ cfg.shared.log.length = 4 ∧
        (viewed nobodyFunctions cfg.shared.log (.participant, js "cotton")).any (·.isSettled) = true := by
  have hrun : ((copies nobodyFunctions).run Copies.initial introduced).any (fun s ↦ decide
      (∃ log ∈ s.logs, log.length = 2 ∧ ((learning nobodyFunctions).runUnder (Timely nobodyFunctions)
        (Role.start nobodyFunctions log s.history confirming) [.run true (drawn 51), .run false (drawn 52),
          .run false (drawn 53)]).any (fun cfg ↦ decide (cfg.shared.log.length = 4 ∧
            cfg.shared.reviewed (.participant, js "cotton") = some 3)) = true)) = true := by
    decide +kernel
  obtain ⟨s, hs, hlogs⟩ := (Option.any_eq_true _ _).mp hrun
  obtain ⟨log, hlog, hlength, hcfg⟩ := of_decide_eq_true hlogs
  obtain ⟨cfg, hcfg, hfinal⟩ := (Option.any_eq_true _ _).mp hcfg
  obtain ⟨hfinal, hreviewed⟩ := of_decide_eq_true hfinal
  have hreach := Machine.runUnder_reach hcfg
  exact ⟨s, run_reach hs, log, hlog, cfg, hreach, hlength, hfinal, (learning_keeps_reviewed nobodyFunctions
    lawful_nobodyFunctions s (run_reach hs) log hlog confirming cfg hreach _ _ hreviewed).2.2⟩

/-- Where the call has read the log before the review, it makes the confirmed participant a candidate again. -/
theorem learning_overrides_review :
    ∃ s, (copies nobodyFunctions).Reach Copies.initial s ∧ ∃ log ∈ s.logs,
      ∃ cfg, (learning nobodyFunctions).Reach (Role.start nobodyFunctions log s.history confirming) cfg ∧
        cfg.shared.reviewed (.participant, js "cotton") = some 3 ∧
        (∃ e ∈ cfg.shared.log.drop 3, e.key = (.participant, js "cotton")) ∧
        (listIdentityParticipants nobodyFunctions (cfg.shared.log.take 3)).map (·.record.status) = [.confirmed] ∧
        (listIdentityParticipants nobodyFunctions cfg.shared.log).map (·.record.status) = [.candidate] := by
  have hrun : ((copies nobodyFunctions).run Copies.initial introduced).any (fun s ↦ decide
      (∃ log ∈ s.logs, ((learning nobodyFunctions).run
        (Role.start nobodyFunctions log s.history confirming) [.run false (drawn 52), .run true (drawn 51),
          .run false (drawn 53)]).any (fun cfg ↦ decide (
            cfg.shared.reviewed (.participant, js "cotton") = some 3 ∧
            (∃ e ∈ cfg.shared.log.drop 3, e.key = (.participant, js "cotton")) ∧
            (listIdentityParticipants nobodyFunctions (cfg.shared.log.take 3)).map (·.record.status) = [.confirmed] ∧
            (listIdentityParticipants nobodyFunctions cfg.shared.log).map (·.record.status) = [.candidate])) =
              true)) = true := by
    decide +kernel
  obtain ⟨s, hs, hlogs⟩ := (Option.any_eq_true _ _).mp hrun
  obtain ⟨log, hlog, hcfg⟩ := of_decide_eq_true hlogs
  obtain ⟨cfg, hcfg, hfinal⟩ := (Option.any_eq_true _ _).mp hcfg
  exact ⟨s, run_reach hs, log, hlog, cfg, Machine.run_reach hcfg, of_decide_eq_true hfinal⟩

end Confirmed

end RabiRoute.IdentityRelations
