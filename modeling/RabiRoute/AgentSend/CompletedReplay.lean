import RabiRoute.AgentSend.SendProgram

/-!
# Retries of a completed send

A retry is answered by the recent reply to the quoted message, if there is one, and else by its own receipt.
-/

open Collections Interleave Transitions

namespace RabiRoute.AgentSend

variable {authority : Nat → Except JsString Unit} {t : Nat} {s s' s'' : Sends} {α β : Type}

/-! ## The checks of a turn -/

/-- The next checks pass. -/
def Admits (authority : Nat → Except JsString Unit) (s : Sends) (checks : Nat) : Prop :=
  ∀ i < checks, authority (s.checks + i) = .ok ()

theorem admits_add {n m : Nat} (h : s'.checks = s.checks + n) :
    Admits authority s (n + m) ↔ Admits authority s n ∧ Admits authority s' m := by
  constructor
  · intro hall
    refine ⟨fun i hi => hall i (by omega), fun i hi => ?_⟩
    rw [h, Nat.add_assoc]
    exact hall (n + i) (by omega)
  · intro hboth i hi
    by_cases hin : i < n
    · exact hboth.1 i hin
    · have hlate := hboth.2 (i - n) (by omega)
      rwa [h, show s.checks + n + (i - n) = s.checks + i by omega] at hlate

/-- The program ends in its turn if so many checks pass, and not otherwise; with `a`, and leaving `s'`. -/
structure Yields (authority : Nat → Except JsString Unit) (t : Nat) (p : Prog α) (s : Sends) (checks : Nat) (a : α)
    (s' : Sends) : Prop where
  asked : s'.checks = s.checks + checks
  ends : ∀ Q : α → Sends → Prop, (sends authority).Ends t p s Q ↔ Admits authority s checks ∧ Q a s'

theorem yields_ret (a : α) : Yields authority t (.ret a : Prog α) s 0 a s where
  asked := rfl
  ends Q := by
    rw [Thread.ends_ret]
    exact ⟨fun hQ => ⟨fun i hi => absurd hi (Nat.not_lt_zero i), hQ⟩, fun hboth => hboth.2⟩

theorem yields_sys {c : Command} (hc : c.awaits = false)
    (hchecks : (Sends.exec authority t c s).2.checks = s.checks) :
    Yields authority t (sys c) s 0 (Sends.exec authority t c s).1 (Sends.exec authority t c s).2 where
  asked := hchecks
  ends Q := by
    rw [sys, Program.perform, Thread.ends_step hc]
    rw [(yields_ret _ : Yields authority t _ _ 0 _ _).ends]
    exact ⟨fun h => ⟨fun i hi => absurd hi (Nat.not_lt_zero i), h.2⟩,
      fun h => ⟨fun i hi => absurd hi (Nat.not_lt_zero i), h.2⟩⟩

theorem Yields.bind {p : Prog β} {f : β → Prog α} {n m : Nat} {b : β} {a : α} (hp : Yields authority t p s n b s')
    (hf : Yields authority t (f b) s' m a s'') : Yields authority t (p >>= f) s (n + m) a s'' where
  asked := by rw [hf.asked, hp.asked, Nat.add_assoc]
  ends Q := by
    rw [Thread.ends_bind, hp.ends, hf.ends, admits_add hp.asked, and_assoc]

def Sends.asked (s : Sends) (checks : Nat) : Sends := { s with checks := s.checks + checks }

theorem asked_asked (s : Sends) (n m : Nat) : (s.asked n).asked m = s.asked (n + m) := by
  unfold Sends.asked
  rw [Nat.add_assoc]

theorem yields_requestAuthority : Yields authority t requestAuthority s 1 () (s.asked 1) where
  asked := rfl
  ends Q := by
    rw [requestAuthority, Thread.ends_bind, sys, Program.perform, Thread.ends_step rfl, Thread.ends_ret]
    show (sends authority).Ends t (orThrow (authority s.checks)) (s.asked 1) Q ↔ _
    have hone : Admits authority s 1 ↔ authority s.checks = .ok () := by
      constructor
      · intro h
        exact h 0 Nat.zero_lt_one
      · intro h i hi
        rw [show i = 0 by omega]
        exact h
    rw [hone]
    cases hcheck : authority s.checks with
    | ok _ =>
      rw [orThrow, Thread.ends_ret]
      exact ⟨fun hQ => ⟨rfl, hQ⟩, fun hboth => hboth.2⟩
    | error e =>
      rw [orThrow, Thread.ends_raise]
      exact ⟨False.elim, fun hboth => by cases hboth.1⟩

/-- A check before the rest. -/
theorem Yields.authorized {p : Prog α} {n : Nat} {a : α} (h : Yields authority t p (s.asked 1) n a s') :
    Yields authority t (requestAuthority >>= fun _ => p) s (1 + n) a s' :=
  yields_requestAuthority.bind h

/-- A command that asks nothing before the rest. -/
theorem Yields.after {c : Command} {f : c.Answer → Prog α} {r : c.Answer} {n : Nat} {a : α} (hc : c.awaits = false)
    (hexec : Sends.exec authority t c s = (r, s')) (hchecks : s'.checks = s.checks)
    (h : Yields authority t (f r) s' n a s'') : Yields authority t (sys c >>= f) s n a s'' := by
  have hsys : Yields authority t (sys c) s 0 (Sends.exec authority t c s).1 (Sends.exec authority t c s).2 :=
    yields_sys hc (by rw [hexec]; exact hchecks)
  rw [hexec] at hsys
  have hboth := hsys.bind h
  rwa [Nat.zero_add] at hboth

/-! ## Reading the recent reply -/

/-- What a program that only reads and caches leaves alone. -/
structure SameSends (s s' : Sends) : Prop where
  receipts : s'.receipts = s.receipts
  promises : s'.promises = s.promises

theorem yields_checkFiles (files : Nat) : Yields authority t (checkFiles files) s files () (s.asked files) := by
  induction files generalizing s with
  | zero => exact yields_ret ()
  | succ files ih =>
    have h := (ih (s := s.asked 1)).authorized
    rw [asked_asked, Nat.add_comm 1 files] at h
    exact h

def hydrateChecks (s : Sends) : Nat := if s.hydrated then 1 else 1 + (s.receipts.keys.length + 1)

theorem hydrate_asked (n : Nat) :
    hydrateRecentSuccessfulReplies (s.asked n) = (hydrateRecentSuccessfulReplies s).asked n := by
  unfold hydrateRecentSuccessfulReplies
  show (if s.hydrated then s.asked n else _) = _
  split <;> rfl

theorem hydrate_checks (s : Sends) : (hydrateRecentSuccessfulReplies s).checks = s.checks := by
  unfold hydrateRecentSuccessfulReplies
  split <;> rfl

theorem hydrate_same : SameSends s (hydrateRecentSuccessfulReplies s) := by
  unfold hydrateRecentSuccessfulReplies
  split
  · exact ⟨rfl, rfl⟩
  · exact ⟨rfl, rfl⟩

theorem yields_hydrateReplies : Yields authority t hydrateReplies s (hydrateChecks s) ()
    ((hydrateRecentSuccessfulReplies s).asked (hydrateChecks s)) := by
  unfold hydrateReplies hydrateChecks
  cases hhydrated : s.hydrated with
  | true =>
    rw [hydrateRecentSuccessfulReplies, if_pos hhydrated, if_pos rfl, ← Nat.add_zero 1]
    apply Yields.authorized
    refine Yields.after rfl (?_ : Sends.exec authority t .isHydrated _ = (true, s.asked 1)) rfl (yields_ret ())
    rw [← hhydrated]
    rfl
  | false =>
    rw [if_neg Bool.false_ne_true]
    apply Yields.authorized
    refine Yields.after rfl (?_ : Sends.exec authority t .isHydrated _ = (false, s.asked 1)) rfl ?_
    · rw [← hhydrated]
      rfl
    · refine Yields.after rfl (rfl : Sends.exec authority t .countReceiptFiles _ = (s.receipts.keys.length, s.asked 1)) rfl ?_
      apply (yields_checkFiles _).bind
      rw [← Nat.add_zero 1]
      apply Yields.authorized
      rw [asked_asked, asked_asked, ← Nat.add_assoc, ← hydrate_asked]
      exact yields_sys rfl (hydrate_checks _)

def replyChecks (s : Sends) (prepared : NormalizedAgentSend) : Nat :=
  if prepared.allowAdditionalReply then 0
  else
    match recentReplyTargetKey prepared with
    | none => 1
    | some _ => 1 + (hydrateChecks s + (1 + 0))

/-- The recent reply that a send meets. -/
def recentReply (s : Sends) (prepared : NormalizedAgentSend) : Option RecentSuccessfulReply :=
  if prepared.allowAdditionalReply then none
  else (recentReplyTargetKey prepared).bind (liveReply (hydrateRecentSuccessfulReplies s))

theorem yields_readReply (key : ReplyKey) :
    ∃ s', Yields authority t (sys (.readReply key)) s 0 (liveReply s key) s' ∧ SameSends s s' := by
  cases hlive : liveReply s key with
  | none =>
    have hexec : Sends.exec authority t (.readReply key) s = (none, { s with replies := s.replies.erase key }) := by
      simp only [Sends.exec, hlive]
    have h := Yields.after (c := .readReply key) rfl hexec rfl (yields_ret none)
    exact ⟨_, h, rfl, rfl⟩
  | some existing =>
    have hexec : Sends.exec authority t (.readReply key) s = (some existing, s) := by
      simp only [Sends.exec, hlive]
    have h := Yields.after (c := .readReply key) rfl hexec rfl (yields_ret _)
    exact ⟨_, h, rfl, rfl⟩

theorem yields_consultReplies (prepared : NormalizedAgentSend) :
    ∃ s', Yields authority t (consultReplies prepared) s (replyChecks s prepared) (recentReply s prepared) s' ∧
      SameSends s s' := by
  unfold consultReplies replyChecks recentReply
  cases prepared.allowAdditionalReply with
  | true => exact ⟨s, yields_ret none, rfl, rfl⟩
  | false =>
    simp only [Bool.false_eq_true, if_false]
    cases recentReplyTargetKey prepared with
    | none => exact ⟨s.asked 1, Yields.authorized (yields_ret none), rfl, rfl⟩
    | some key =>
      let s₁ := (hydrateRecentSuccessfulReplies (s.asked 1)).asked (hydrateChecks s)
      obtain ⟨s', hread, hsame⟩ : ∃ s', Yields authority t (sys (.readReply key)) (s₁.asked 1) 0
          (liveReply (s₁.asked 1) key) s' ∧ SameSends (s₁.asked 1) s' := yields_readReply key
      have hlive : liveReply (s₁.asked 1) key = liveReply (hydrateRecentSuccessfulReplies s) key := by
        show liveReply (hydrateRecentSuccessfulReplies (s.asked 1)) key = _
        rw [hydrate_asked]
        rfl
      rw [hlive] at hread
      have hhydrated := hydrate_same (s := s.asked 1)
      refine ⟨s', ?_, hsame.receipts.trans hhydrated.receipts, hsame.promises.trans hhydrated.promises⟩
      apply Yields.authorized
      exact yields_hydrateReplies.bind hread.authorized

/-! ## The receipt of a completed send -/

theorem has_of_readReceipt {deliveryId : JsString} {receipt : Receipt} (h : s.readReceipt deliveryId = some receipt) :
    s.receipts.has deliveryId = true := by
  unfold Sends.readReceipt at h
  unfold InsertionMap.has
  cases hget : s.receipts.get? deliveryId with
  | none =>
    rw [hget] at h
    cases h
  | some file => rfl

theorem yields_executeDurableDelivery {x : Execution} {receipt : Receipt} {result : AgentSendResult}
    (hreceipt : s.readReceipt x.deliveryId = some receipt) (hdigest : receipt.requestDigest = x.requestDigest)
    (hstate : receipt.state = .completed result) :
    Yields authority t x.executeDurableDelivery s 4 (.completed true result) (s.asked 4) := by
  have hreserve : Yields authority t x.reserveReceipt (s.asked 1) 2 (some (some receipt)) (s.asked 3) := by
    apply Yields.authorized (n := 1)
    apply Yields.authorized (n := 0)
    refine Yields.after rfl (?_ : Sends.exec authority t (.openReceipt x.deliveryId) _ = (false, s.asked 3)) rfl ?_
    · show (if s.receipts.has x.deliveryId then _ else _) = _
      rw [if_pos (has_of_readReceipt hreceipt)]
      rfl
    · exact Yields.after rfl (Prod.ext hreceipt rfl) rfl (yields_ret _)
  have houtcome : Yields authority t (x.receiptOutcome receipt (x.awaitReceipt receipt)) (s.asked 4) 0
      (.completed true result) (s.asked 4) := by
    rw [Execution.receiptOutcome, if_neg (not_not.mpr hdigest), hstate]
    exact yields_ret _
  have hlast : Yields authority t (requestAuthority >>= fun _ => x.answerReservation (some (some receipt)))
      (s.asked 3) 1 (.completed true result) (s.asked 4) :=
    Yields.authorized (s := s.asked 3) (n := 0) houtcome
  exact Yields.authorized (n := 3)
    (hreserve.bind (f := fun reservation => requestAuthority >>= fun _ => x.answerReservation reservation) hlast)

theorem yields_rememberSuccessfulReply (key : Option ReplyKey) (deliveryId content : JsString)
    (result : AgentSendResult) :
    ∃ s', Yields authority t (rememberSuccessfulReply key deliveryId content result) s 1 () s' ∧
      s'.promises = s.promises := by
  cases key with
  | none => exact ⟨s.asked 1, Yields.authorized (yields_ret ()), rfl⟩
  | some key =>
    have hlast : ∃ s', Yields authority t
        (if result.status = .sent then sys (.rememberReply key deliveryId content result) else return ())
        (s.asked 1) 0 () s' ∧ s'.promises = s.promises := by
      by_cases hsent : result.status = .sent
      · rw [if_pos hsent]
        exact ⟨_, yields_sys rfl rfl, rfl⟩
      · rw [if_neg hsent]
        exact ⟨_, yields_ret (), rfl⟩
    obtain ⟨s', hyields, hpromises⟩ := hlast
    exact ⟨s', hyields.authorized, hpromises⟩

theorem yields_answerOutcome (request : AgentSendRequest) (prepared : NormalizedAgentSend) (deliveryId : JsString)
    (result : AgentSendResult) :
    ∃ s', Yields authority t (answerOutcome request prepared deliveryId (.completed true result)) s 2
      (completedResponse deliveryId result true) s' ∧ s'.promises = s.promises := by
  obtain ⟨s', hyields, hpromises⟩ : ∃ s', Yields authority t
      (rememberSuccessfulReply (recentReplyTargetKey prepared) deliveryId request.content result) s 1 () s' ∧
        s'.promises = s.promises := yields_rememberSuccessfulReply _ deliveryId request.content result
  have hlast : Yields authority t
      (do return completedResponse deliveryId result (true || (← sys .contentDuplicate))) (s'.asked 1) 0
      (completedResponse deliveryId result true) (s'.asked 1) :=
    Yields.after rfl rfl rfl (yields_ret _)
  exact ⟨s'.asked 1, hyields.bind (f := fun _ => requestAuthority >>= fun _ => _) hlast.authorized, hpromises⟩

/-! ## Retries -/

/-- The send is answered in its turn, without `options.deliver`, as the completed send that it repeats. -/
def Replays (authority : Nat → Except JsString Unit) (t : Nat) (request : AgentSendRequest) (s : Sends)
    (deliveryId : JsString) (result : AgentSendResult) : Prop :=
  (sends authority).Ends t (executeIdempotentAgentSend t request) s fun response s' ↦
    s'.promises = s.promises ∧ response.idempotency = ⟨deliveryId, .completed, true⟩ ∧
      response.body.status = result.status ∧ response.body.ok = result.ok ∧
      response.body.sentMessageId = result.sentMessageId

/-- The recent reply has the content of the send, and a result that agrees with the stored one. -/
def Agrees (recentReply : RecentSuccessfulReply) (request : AgentSendRequest) (result : AgentSendResult) : Prop :=
  recentReply.fingerprint = some request.content ∧ recentReply.result.status = result.status ∧
    recentReply.result.ok = result.ok ∧ recentReply.result.sentMessageId = result.sentMessageId

instance (recentReply : RecentSuccessfulReply) (request : AgentSendRequest) (result : AgentSendResult) :
    Decidable (Agrees recentReply request result) :=
  inferInstanceAs (Decidable (_ ∧ _))

/-- The request is valid, its authority admits it, and no recent reply to the quoted message says otherwise. -/
def ReplayableAs (authority : Nat → Except JsString Unit) (s : Sends) (request : AgentSendRequest)
    (result : AgentSendResult) : Prop :=
  ∃ prepared, request.prepared = .ok prepared ∧
    ((recentReply s prepared = none ∧ Admits authority s (replyChecks s prepared + (4 + 2))) ∨
      ∃ existing, recentReply s prepared = some existing ∧ Admits authority s (replyChecks s prepared) ∧
        Agrees existing request result)

theorem ends_executeIdempotentAgentSend {request : AgentSendRequest} {deliveryId : JsString}
    {Q : IdempotentAgentSendResponse → Sends → Prop} (hid : normalizeDurableDeliveryId request.deliveryId = .ok deliveryId) :
    (sends authority).Ends t (executeIdempotentAgentSend t request) s Q ↔
      ∃ prepared, request.prepared = .ok prepared ∧
        (sends authority).Ends t (consultReplies prepared >>= answerSend t request prepared deliveryId) s Q := by
  unfold executeIdempotentAgentSend
  rw [Thread.ends_bind]
  cases hprepared : request.prepared with
  | error e =>
    rw [orThrow, Thread.ends_raise]
    exact ⟨False.elim, fun ⟨_, h, _⟩ => by cases h⟩
  | ok prepared =>
    rw [orThrow, Thread.ends_ret, hid, Thread.ends_bind, orThrow, Thread.ends_ret]
    constructor
    · intro h
      exact ⟨prepared, rfl, h⟩
    · rintro ⟨_, hp, h⟩
      cases hp
      exact h

theorem retry_replays_iff (authority : Nat → Except JsString Unit) (t : Nat) (request : AgentSendRequest) (s : Sends)
    (deliveryId : JsString) (receipt : Receipt) (result : AgentSendResult)
    (hid : normalizeDurableDeliveryId request.deliveryId = .ok deliveryId)
    (hreceipt : s.readReceipt deliveryId = some receipt) (hdigest : receipt.requestDigest = request.requestDigest)
    (hstate : receipt.state = .completed result) :
    Replays authority t request s deliveryId result ↔ ReplayableAs authority s request result := by
  unfold Replays ReplayableAs
  rw [ends_executeIdempotentAgentSend hid]
  apply exists_congr
  intro prepared
  apply and_congr_right
  intro hprepared
  obtain ⟨s', hread, hsame⟩ : ∃ s', Yields authority t (consultReplies prepared) s (replyChecks s prepared)
      (recentReply s prepared) s' ∧ SameSends s s' := yields_consultReplies prepared
  cases hreply : recentReply s prepared with
  | some existing =>
    rw [hreply] at hread
    have hall := hread.bind (f := answerSend t request prepared deliveryId) (yields_ret _)
    rw [hall.ends, Nat.add_zero]
    constructor
    · rintro ⟨hadmits, -, hid, hstatus, hok, hmessage⟩
      refine .inr ⟨existing, rfl, hadmits, ?_⟩
      unfold recentReplyResponse at hid hstatus hok hmessage
      by_cases hsame : existing.fingerprint = some request.content
      · rw [if_pos hsame] at hstatus hok hmessage
        exact ⟨hsame, hstatus, hok, hmessage⟩
      · rw [if_neg hsame] at hid
        cases hid
    · rintro (⟨hnone, -⟩ | ⟨_, hsome, hadmits, hcontent, hstatus, hok, hmessage⟩)
      · cases hnone
      · cases hsome
        refine ⟨hadmits, hsame.promises, ?_⟩
        unfold recentReplyResponse
        rw [if_pos hcontent]
        exact ⟨rfl, hstatus, hok, hmessage⟩
  | none =>
    rw [hreply] at hread
    have hread' : s'.readReceipt deliveryId = some receipt := by
      unfold Sends.readReceipt at hreceipt ⊢
      rw [hsame.receipts]
      exact hreceipt
    have hdelivery : Yields authority t (sendExecution t request prepared deliveryId).executeDurableDelivery s' 4
        (.completed true result) (s'.asked 4) := yields_executeDurableDelivery hread' hdigest hstate
    obtain ⟨s'', hanswer, hpromises⟩ : ∃ s'', Yields authority t
        (answerOutcome request prepared deliveryId (.completed true result)) (s'.asked 4) 2
          (completedResponse deliveryId result true) s'' ∧ s''.promises = (s'.asked 4).promises :=
      yields_answerOutcome request prepared deliveryId result
    have hall := hread.bind (f := answerSend t request prepared deliveryId) (hdelivery.bind hanswer)
    rw [hall.ends]
    constructor
    · intro h
      exact .inl ⟨rfl, h.1⟩
    · rintro (⟨-, hadmits⟩ | ⟨_, hsome, -⟩)
      · exact ⟨hadmits, hpromises.trans hsame.promises, rfl, rfl, rfl, rfl⟩
      · cases hsome

/-- A reply to a quoted group message. -/
def quotedPrepared : NormalizedAgentSend where
  sender := ⟨js "codex", js "s1"⟩
  routeId := js "r1"
  channel := js "napcat"
  allowAdditionalReply := false
  target := ⟨some (js "group"), some (js "7"), some (js "42")⟩

def quotedReply : AgentSendRequest where
  deliveryId := js "d1"
  prepared := .ok quotedPrepared
  requestDigest := js "p1"
  content := js "c1"
  recovers := false
  waitForCompletionMs := 0

def noRefusal : Nat → Except JsString Unit := fun _ ↦ .ok ()

def sentReply : AgentSendResult where
  ok := true
  status := .sent
  reason := none
  sentMessageId := some (js "m1")
  deliveryId := none
  sender := none
  channel := none
  routeId := none
  target := none

/-- The first call is answered. -/
def replySent : List (Round Nat Choice) :=
  [.run (.start 0), .run (.answer 0 {}), .run (.answer 0 {}), .run (.answer 0 { delivered := .ok sentReply }),
    .run (.answer 0 {})]

def answered : Prog α → Option α
  | .ret a => some a
  | _ => none

/-- The result of the receipt of the reply. -/
def storedReply (s : Sends) : Option AgentSendResult :=
  (s.readReceipt (js "d1")).bind fun receipt ↦
    match receipt.state with
    | .completed result => if receipt.requestDigest = quotedReply.requestDigest then some result else none
    | _ => none

theorem receipt_of_storedReply {result : AgentSendResult} (h : storedReply s = some result) :
    ∃ receipt, s.readReceipt (js "d1") = some receipt ∧ receipt.requestDigest = quotedReply.requestDigest ∧
      receipt.state = .completed result := by
  obtain ⟨receipt, hread, hresult⟩ := Option.bind_eq_some_iff.mp h
  refine ⟨receipt, hread, ?_⟩
  cases hstate : receipt.state with
  | completed stored =>
    rw [hstate] at hresult
    dsimp only at hresult
    by_cases hdigest : receipt.requestDigest = quotedReply.requestDigest
    · rw [if_pos hdigest] at hresult
      cases hresult
      exact ⟨hdigest, rfl⟩
    · rw [if_neg hdigest] at hresult
      cases hresult
  | sending owner =>
    rw [hstate] at hresult
    cases hresult
  | uncertain error =>
    rw [hstate] at hresult
    cases hresult

/-- A retry in the same process is answered by the recent reply. -/
theorem retry_replays_iff_cached :
    ∃ s : State, (system noRefusal fun _ ↦ quotedReply).Reach State.initial s ∧ ∃ result,
      storedReply s.shared = some result ∧ Replays noRefusal 1 quotedReply s.shared (js "d1") result := by
  have hrun : ((system noRefusal fun _ ↦ quotedReply).run State.initial replySent).bind (fun s ↦
      (storedReply s.shared).bind fun result ↦
        ((recentReply s.shared quotedPrepared).map fun existing ↦ decide (Agrees existing quotedReply result))) =
      some true := by
    decide +kernel
  obtain ⟨s, hs, hrest⟩ := Option.bind_eq_some_iff.mp hrun
  obtain ⟨result, hstored, hrest⟩ := Option.bind_eq_some_iff.mp hrest
  obtain ⟨existing, hexisting, hagrees⟩ := Option.map_eq_some_iff.mp hrest
  obtain ⟨receipt, hread, hdigest, hstate⟩ := receipt_of_storedReply hstored
  refine ⟨s, System.run_reach hs, result, hstored, ?_⟩
  exact (retry_replays_iff noRefusal 1 quotedReply s.shared (js "d1") receipt result rfl hread hdigest hstate).mpr
    ⟨quotedPrepared, rfl, .inr ⟨existing, hexisting, fun _ _ ↦ rfl, of_decide_eq_true hagrees⟩⟩

/-- After a restart the recent reply has no content, and the retry is a conflict. -/
theorem retry_conflicts_after_restart :
    ∃ s : State, (system noRefusal fun _ ↦ quotedReply).Reach State.initial s ∧ ∃ result,
      storedReply s.shared = some result ∧ ¬Replays noRefusal 1 quotedReply s.shared (js "d1") result := by
  have hrun : ((system noRefusal fun _ ↦ quotedReply).run State.initial (replySent ++ [.die none])).bind (fun s ↦
      (storedReply s.shared).bind fun _ ↦
        (answered ((sends noRefusal).advance 1 (executeIdempotentAgentSend 1 quotedReply) s.shared).1).map
          (·.idempotency)) = some ⟨js "d1", .conflict, true⟩ := by
    decide +kernel
  obtain ⟨s, hs, hrest⟩ := Option.bind_eq_some_iff.mp hrun
  obtain ⟨result, hstored, hrest⟩ := Option.bind_eq_some_iff.mp hrest
  obtain ⟨response, hanswered, hconflict⟩ := Option.map_eq_some_iff.mp hrest
  refine ⟨s, System.run_reach hs, result, hstored, ?_⟩
  rintro ⟨replayed, s', hadvance, -, hcompleted, -⟩
  rw [hadvance] at hanswered
  cases hanswered
  rw [hcompleted] at hconflict
  cases hconflict

end RabiRoute.AgentSend
