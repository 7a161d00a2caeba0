import RabiRoute.AgentRequests.WithdrawalEffects

/-!
# What `reconcileOpenParties` does

This operation puts nothing back.  When it throws, the requests that it has come to keep what it made of
them, so its effect is a relation between each request before and after, for both outcomes.
-/

open Collections Interleave

namespace RabiRoute.AgentRequests

open AgentRequestState

variable {functions : Functions} {env : Env} {s s' : AgentRequestState} {id : JsString} {α : Type}

/-- One party follows its replacement, or an error stops it once the history is written. -/
inductive Followed (functions : Functions) (role : PartyRole) (party : AgentRequestParty)
    (history : Option (List AgentRequestParty)) : AgentRequestParty → Option (List AgentRequestParty) → Prop where
  | kept : Followed functions role party history party history
  | noted {rows : List AgentRequestParty} : appendPartyHistory functions history party role = .ok rows →
      Followed functions role party history party (some rows)
  | moved {rows : List AgentRequestParty} {next party' : AgentRequestParty} :
      appendPartyHistory functions history party role = .ok rows →
      normalizedParty functions next role = .ok party' → Followed functions role party history party' (some rows)

/-- What becomes of a request. -/
inductive Rebound (functions : Functions) (env : Env) (record : AgentRequestRecord) : AgentRequestRecord → Prop where
  | kept : Rebound functions env record record
  | withdrawn : fixedParties record = false → Rebound functions env record (withdrawn env (some poolChanged) record)
  | followed {source target : AgentRequestParty} {sourceHistory targetHistory : Option (List AgentRequestParty)} :
      fixedParties record = false → record.status ≠ .pending_delivery →
      Followed functions .source record.source record.sourceHistory source sourceHistory →
      Followed functions .target record.target record.targetHistory target targetHistory →
      Rebound functions env record { record with source, sourceHistory, target, targetHistory }
  | released {source target : AgentRequestParty} {sourceHistory targetHistory : Option (List AgentRequestParty)} :
      fixedParties record = false → record.status ≠ .pending_delivery →
      Followed functions .source record.source record.sourceHistory source sourceHistory →
      Followed functions .target record.target record.targetHistory target targetHistory →
      Rebound functions env record (released env { record with source, sourceHistory, target, targetHistory })

/-- The ledger `s'` has this record in the place of another one. -/
structure Rewritten (id : JsString) (record : AgentRequestRecord) (s s' : AgentRequestState) : Prop where
  frame : OnlyRecords s s'
  deliveries : s'.deliveries = s.deliveries
  requests : ∀ id', s'.requests.get? id' = if id' = id then some record else s.requests.get? id'

theorem Rewritten.refl {record : AgentRequestRecord} (h : s.requests.get? id = some record) :
    Rewritten id record s s := by
  refine ⟨.refl s, rfl, fun id' => ?_⟩
  split
  case isTrue hid => rw [hid, h]
  case isFalse => rfl

/-- An assignment to the record in its place. -/
theorem Rewritten.assign {record : AgentRequestRecord} (h : Rewritten id record s s') (change : AgentRequestRecord →
    AgentRequestRecord) : Rewritten id (change record) s (s'.assignRequest id change) := by
  have hrecord : s'.requests.get? id = some record := (h.requests id).trans (if_pos rfl)
  rw [assignRequest_eq hrecord]
  refine ⟨h.frame.trans ⟨rfl, rfl, rfl, rfl, rfl⟩, h.deliveries, fun id' => ?_⟩
  show (s'.requests.set id (change record)).get? id' = _
  rw [InsertionMap.get?_set, h.requests]
  split <;> rfl

/-! ## One request -/

/-- The steps that `moveSource` and `moveTarget` share. -/
theorem after_follow {role : PartyRole} (party : AgentRequestParty) {history : Option (List AgentRequestParty)}
    {resolution : Resolution} {writeHistory : List AgentRequestParty → AgentRequestRecord → AgentRequestRecord}
    {writeParty : AgentRequestParty → AgentRequestRecord → AgentRequestRecord} {f : Bool → Operation α}
    {post : Except Failure α → AgentRequestState → Prop} {current : AgentRequestRecord}
    (h : Rewritten id current s s') (hkept : After (f false) s' post)
    (hnoted : ∀ rows s'', appendPartyHistory functions history party role = .ok rows →
      Rewritten id (writeHistory rows current) s s'' → ∀ failure, post (.error failure) s'')
    (hmoved : ∀ rows next party' s'', appendPartyHistory functions history party role = .ok rows →
      normalizedParty functions next role = .ok party' →
      Rewritten id (writeParty party' (writeHistory rows current)) s s'' → After (f true) s'' post)
    (hthrow : ∀ failure, post (.error failure) s') :
    After ((match movedTo resolution party with
      | none => return false
      | some next => do
          let rows ← Operation.ofExcept (appendPartyHistory functions history party role)
          Operation.assignRequest id (writeHistory rows)
          let party' ← Operation.ofExcept (normalizedParty functions next role)
          Operation.assignRequest id (writeParty party')
          return true) >>= f) s' post := by
  split
  · exact hkept
  case h_2 next hnext =>
    rw [bind_assoc, after_ofExcept]
    split
    case h_2 failure hfailure => exact hthrow failure
    case h_1 rows hrows =>
      have hwritten := h.assign (writeHistory rows)
      rw [bind_assoc, after_assignRequest, bind_assoc, after_ofExcept]
      split
      case h_2 failure hfailure => exact hnoted rows _ hrows hwritten failure
      case h_1 party' hparty =>
        rw [bind_assoc, after_assignRequest, pure_bind]
        exact hmoved rows next party' _ hrows hparty (hwritten.assign _)

/-- What `reconcileRequest` may leave of one request. -/
def Reconciles (functions : Functions) (env : Env) (id : JsString) (record : AgentRequestRecord) (reconciled : Reconciled)
    (s : AgentRequestState) (outcome : Except Failure Reconciled) (s' : AgentRequestState) : Prop :=
  ∃ record', Rebound functions env record record' ∧ Rewritten id record' s s' ∧
    ∀ reconciled', outcome = .ok reconciled' → reconciled'.changed = false → reconciled.changed = false ∧ s' = s

theorem Reconciles.ok {record : AgentRequestRecord} {reconciled : Reconciled} (h : s.requests.get? id = some record) :
    Reconciles functions env id record reconciled s (.ok reconciled) s := by
  refine ⟨record, .kept, .refl h, fun reconciled' hok hchanged => ?_⟩
  obtain rfl := Except.ok.inj hok
  exact ⟨hchanged, rfl⟩

theorem Reconciles.error {record record' : AgentRequestRecord} {reconciled : Reconciled} {failure : Failure}
    (h : Rebound functions env record record') (hs' : Rewritten id record' s s') :
    Reconciles functions env id record reconciled s (.error failure) s' :=
  ⟨record', h, hs', fun _ hok => nomatch hok⟩

/-- The second half of `reconcileRequest`, once the source has followed its replacement or not. -/
theorem after_followTarget {record : AgentRequestRecord} {reconciled : Reconciled} {resolution : Resolution}
    {sourceMoved : Bool} {source : AgentRequestParty} {sourceHistory : Option (List AgentRequestParty)}
    (hrecord : s.requests.get? id = some record) (hfixed : fixedParties record = false)
    (hstatus : record.status ≠ .pending_delivery)
    (hsource : Followed functions .source record.source record.sourceHistory source sourceHistory)
    (h : Rewritten id { record with source, sourceHistory } s s') (hkept : sourceMoved = false → s' = s) :
    After (do
      let targetMoved ← moveTarget functions id record resolution
      if sourceMoved || targetMoved then do
        Operation.assignRequest id (released env)
        let current ← Operation.getRequest id
        return { reconciled with reassigned := reconciled.reassigned ++ current.toList }
      else return reconciled) s' (Reconciles functions env id record reconciled s) := by
  have htell : ∀ {s'' target targetHistory},
      Followed functions .target record.target record.targetHistory target targetHistory →
      Rewritten id { record with source, sourceHistory, target, targetHistory } s s'' →
      After (do
        Operation.assignRequest id (released env)
        let current ← Operation.getRequest id
        return { reconciled with reassigned := reconciled.reassigned ++ current.toList }) s''
        (Reconciles functions env id record reconciled s) := by
    intro s'' target targetHistory htarget hs''
    rw [after_assignRequest, after_getRequest]
    have hreleased := hs''.assign (released env)
    refine ⟨_, .released hfixed hstatus hsource htarget, hreleased, fun reconciled' hok hchanged => ?_⟩
    obtain rfl := Except.ok.inj hok
    rw [hreleased.requests, if_pos rfl] at hchanged
    simp [Reconciled.changed] at hchanged
  refine after_follow record.target h ?_ ?_ ?_ fun failure =>
    .error (.followed hfixed hstatus hsource .kept) h
  · rw [Bool.or_false]
    split
    case isTrue => exact htell .kept h
    case isFalse hmoved =>
      obtain rfl := hkept (Bool.eq_false_iff.mpr hmoved)
      exact .ok hrecord
  · intro rows s'' hrows hs'' failure
    exact .error (.followed hfixed hstatus hsource (.noted hrows)) hs''
  · intro rows next party' s'' hrows hparty hs''
    rw [Bool.or_true, if_pos rfl]
    exact htell (.moved hrows hparty) hs''

/-- The request of an entry after `reconcileRequest`, whether it returns or throws. -/
theorem after_reconcileRequest {resolve : AgentRequestParty → AgentRequestRecord → PartyRole → Resolution}
    {record : AgentRequestRecord} {reconciled : Reconciled} (h : s.requests.get? id = some record) :
    After (reconcileRequest functions env resolve (id, record) reconciled) s
      (Reconciles functions env id record reconciled s) := by
  unfold reconcileRequest
  dsimp only
  split
  · exact .ok h
  case isFalse hfixed =>
    rw [Bool.not_eq_true] at hfixed
    split
    · exact .ok h
    · split
      · rw [after_assignRequest]
        refine ⟨_, .withdrawn hfixed, Rewritten.assign (.refl h) _, fun reconciled' hok hchanged => ?_⟩
        obtain rfl := Except.ok.inj hok
        simp [Reconciled.changed] at hchanged
      case isFalse hawaiting =>
        have hstatus : record.status ≠ .pending_delivery := by
          intro hpending
          simp [hpending] at hawaiting
        refine after_follow record.source (.refl h) ?_ ?_ ?_ fun failure => .error .kept (.refl h)
        · exact after_followTarget h hfixed hstatus .kept (.refl h) fun _ => rfl
        · intro rows s'' hrows hs'' failure
          exact .error (.followed hfixed hstatus (.noted hrows) .kept) hs''
        · intro rows next party' s'' hrows hparty hs''
          exact after_followTarget h hfixed hstatus (.moved hrows hparty) hs'' fun hmoved => nomatch hmoved

/-! ## All requests -/

/-- The same ledger but for requests that were rebound. -/
structure ReboundAll (functions : Functions) (env : Env) (s s' : AgentRequestState) : Prop where
  frame : OnlyRecords s s'
  deliveries : s'.deliveries = s.deliveries
  requests : ∀ id, Option.Rel (Rebound functions env) (s.requests.get? id) (s'.requests.get? id)

theorem ReboundAll.refl (s : AgentRequestState) : ReboundAll functions env s s := by
  refine ⟨.refl s, rfl, fun id => ?_⟩
  cases s.requests.get? id with
  | none => exact .none
  | some record => exact .some .kept

/-- The entries that `reconcileRequests` has still to visit stand in the ledger as they did at its start. -/
def Unvisited (s s' : AgentRequestState) (entries : List (JsString × AgentRequestRecord)) : Prop :=
  (entries.map Prod.fst).Nodup ∧
    ∀ entry ∈ entries, s.requests.get? entry.1 = some entry.2 ∧ s'.requests.get? entry.1 = some entry.2

theorem ReboundAll.rewritten {s'' : AgentRequestState} {record record' : AgentRequestRecord} (h : ReboundAll functions
    env s s') (hrecord : s.requests.get? id = some record) (hrebound : Rebound functions env record record') (hs'' :
    Rewritten id record' s' s'') : ReboundAll functions env s s'' := by
  refine ⟨h.frame.trans hs''.frame, hs''.deliveries.trans h.deliveries, fun id' => ?_⟩
  rw [hs''.requests]
  split
  case isTrue hid =>
    rw [hid, hrecord]
    exact .some hrebound
  case isFalse => exact h.requests id'

theorem after_reconcileRequests {resolve : AgentRequestParty → AgentRequestRecord → PartyRole → Resolution}
    {entries : List (JsString × AgentRequestRecord)} {reconciled : Reconciled} (h : ReboundAll functions env s s')
    (hentries : Unvisited s s' entries) (hsame : reconciled.changed = false → s' = s) :
    After (reconcileRequests functions env resolve entries reconciled) s' fun outcome s'' =>
      ReboundAll functions env s s'' ∧
        ∀ reconciled', outcome = .ok reconciled' → reconciled'.changed = false → s'' = s := by
  induction entries generalizing s' reconciled with
  | nil =>
    refine ⟨h, fun reconciled' hok hchanged => ?_⟩
    obtain rfl := Except.ok.inj hok
    exact hsame hchanged
  | cons entry entries ih =>
    obtain ⟨hnodup, hstands⟩ := hentries
    rw [List.map_cons, List.nodup_cons] at hnodup
    obtain ⟨hrecord, hcurrent⟩ := hstands entry List.mem_cons_self
    refine after_bind.mpr ((after_reconcileRequest hcurrent).mono fun outcome s'' hs'' => ?_)
    obtain ⟨record', hrebound, hwritten, hunchanged⟩ := hs''
    have hall := h.rewritten hrecord hrebound hwritten
    cases outcome with
    | error failure => exact ⟨hall, fun _ hok => nomatch hok⟩
    | ok reconciled' =>
      refine ih hall ⟨hnodup.2, fun entry' hentry' => ?_⟩ fun hchanged => ?_
      · obtain ⟨hrecord', hcurrent'⟩ := hstands entry' (List.mem_cons_of_mem entry hentry')
        refine ⟨hrecord', (hwritten.requests entry'.1).trans ?_⟩
        have hne : entry'.1 ≠ entry.1 := fun hid => hnodup.1 (hid ▸ List.mem_map_of_mem hentry')
        rw [if_neg hne]
        exact hcurrent'
      · obtain ⟨hbefore, rfl⟩ := hunchanged reconciled' rfl hchanged
        exact hsame hbefore

/-- What `reconcileOpenParties` does when it returns and when it throws. -/
def PartiesReconciled (functions : Functions) (env : Env) (s : AgentRequestState) :
    Except Failure Reconciled → AgentRequestState → Prop
  | .ok _, s' => s' = s ∨ ∃ s₁, ReboundAll functions env s s₁ ∧ s' = s₁.written
  | .error _, s' => ReboundAll functions env s s'

theorem after_reconcileOpenParties {resolve : AgentRequestParty → AgentRequestRecord → PartyRole → Resolution} :
    After (reconcileOpenParties functions env resolve) s (PartiesReconciled functions env s) := by
  unfold reconcileOpenParties
  rw [after_requestEntries]
  have hentries : Unvisited s s s.requests.entries :=
    ⟨s.requests.nodup, fun entry hentry =>
      ⟨InsertionMap.get?_eq_some.mpr hentry, InsertionMap.get?_eq_some.mpr hentry⟩⟩
  refine after_bind.mpr ((after_reconcileRequests (.refl s) hentries fun _ => rfl).mono fun outcome s' hs' => ?_)
  obtain ⟨hall, hunchanged⟩ := hs'
  cases outcome with
  | error failure => exact hall
  | ok reconciled =>
    dsimp only
    cases hchanged : reconciled.changed with
    | false => exact .inl (hunchanged reconciled rfl hchanged)
    | true => exact after_persistOr (fun _ => .inr ⟨s', hall, rfl⟩) fun failure => hall

end RabiRoute.AgentRequests
