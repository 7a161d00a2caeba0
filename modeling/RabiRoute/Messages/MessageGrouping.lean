import RabiRoute.Collections.InsertionMap
import RabiRoute.Shared.JsString
import RabiRoute.Transitions.System

/-!
# Grouping messages before their delivery

The queue of `messageGrouping.ts`.  A message is known by its identity.  It joins the group of its
key, or the only pending group of its sender, and its group is delivered after a pause; the groups
and the identities delivered last are written to the state file.
-/

open Collections

namespace RabiRoute.MessageGrouping

/-- A time in milliseconds. -/
abbrev Time := Rat

abbrev Identity := JsString

def defaultMessageGroupRetrySeconds : Rat := 5
def maxMessageGroupDeliveredIdentities : Nat := 2000

/-- `record` and `extraValues` are JSON values that the queue does not look into. -/
structure MessageGroupPayload (D : Type) where
  routeKind : JsString
  record : D
  extraValues : D

structure MessageGroupItem (D : Type) where
  identity : Identity
  receivedAt : Time
  incomplete : Bool
  payload : MessageGroupPayload D

inductive GroupStatus where
  | pending
  | delivering
deriving DecidableEq

structure PendingMessageGroup (D : Type) where
  groupId : JsString
  key : JsString
  baseKey : JsString
  endpoint : JsString
  conversationKey : JsString
  sender : JsString
  replyToMessageId : Option JsString
  createdAt : Time
  updatedAt : Time
  deadlineAt : Time
  maxDeadlineAt : Time
  status : GroupStatus
  attempts : Nat
  lastError : Option JsString
  items : List (MessageGroupItem D)

/-- What the state file holds. -/
structure MessageGroupingState (D : Type) where
  pending : List (PendingMessageGroup D)
  deliveredIdentities : List Identity

/-- The seconds of a policy; `none` is a number that is not finite. -/
structure MessageGroupingPolicy where
  enabled : Bool
  settleSeconds : Option Rat
  incompleteSettleSeconds : Option Rat
  maxWaitSeconds : Option Rat

structure EnqueueMessageGroupInput (D : Type) where
  key : JsString
  baseKey : JsString
  endpoint : JsString
  conversationKey : JsString
  sender : JsString
  replyToMessageId : Option JsString
  identity : Identity
  text : JsString
  policy : MessageGroupingPolicy
  payload : MessageGroupPayload D

variable {D : Type}

/-! ## Policies and fragments -/

def normalizedSeconds (value : Option Rat) (fallback : Rat) : Rat :=
  match value with
  | some number => if 0 < number then max 1 (min 300 number) else fallback
  | none => fallback

structure NormalizedPolicy where
  settleSeconds : Rat
  incompleteSettleSeconds : Rat
  maxWaitSeconds : Rat

def normalizedPolicy (policy : MessageGroupingPolicy) : NormalizedPolicy :=
  let settleSeconds := normalizedSeconds policy.settleSeconds 6
  let incompleteSettleSeconds := max settleSeconds (normalizedSeconds policy.incompleteSettleSeconds 12)
  ⟨settleSeconds, incompleteSettleSeconds,
    max incompleteSettleSeconds (normalizedSeconds policy.maxWaitSeconds 20)⟩

def incompleteMarks : JsString := js "，,：:、…~—-"

def incompleteWords : List JsString :=
  ["还有", "然后", "另外", "以及", "而且", "但是", "不过", "就是", "这个", "那个", "等下", "稍等", "and", "then",
    "also", "but", "because"].map js

def messageFragmentLooksIncomplete (value : JsString) : Bool :=
  let text := value.trim
  text.getLast?.any (fun u ↦ decide (u ∈ incompleteMarks)) ||
    incompleteWords.any fun word ↦ decide (word <:+ text.map JsString.lower)

/-! ## The state file -/

/-- `normalizeItem`, on an item that the queue has written. -/
def normalizeItem (item : MessageGroupItem D) : Option (MessageGroupItem D) :=
  if item.identity = [] ∨ item.payload.routeKind = [] then none else some item

/-- `normalizeGroup`, on a group that the queue has written. -/
def normalizeGroup (group : PendingMessageGroup D) : Option (PendingMessageGroup D) :=
  let items := group.items.filterMap normalizeItem
  if group.groupId = [] ∨ group.key = [] ∨ group.baseKey = [] ∨ group.endpoint = [] ∨
      group.conversationKey = [] ∨ group.sender = [] ∨ items.isEmpty then none
  else some { group with
    maxDeadlineAt := max group.deadlineAt group.maxDeadlineAt
    status := .pending
    lastError := group.lastError.filter fun e ↦ decide (e ≠ [])
    items }

/-- `slice(-n)` -/
def takeLast {α : Type} (n : Nat) (l : List α) : List α := l.drop (l.length - n)

def readState (file : MessageGroupingState D) : MessageGroupingState D :=
  ⟨file.pending.filterMap normalizeGroup,
    takeLast maxMessageGroupDeliveredIdentities
      (file.deliveredIdentities.filter fun identity ↦ decide (identity ≠ []))⟩

/-! ## The queue -/

/-- A call of `deliver` that has not settled, and the identities of the group it was given. -/
structure Flight where
  key : JsString
  identities : List Identity

structure QueueState (D : Type) where
  groups : InsertionMap JsString (PendingMessageGroup D)
  deliveredIdentities : List Identity
  /-- The keys whose timer is armed. -/
  timers : List JsString
  flights : List Flight
  disk : Option (MessageGroupingState D)
  -- from here on: what has happened, which the queue does not read
  /-- Accepted, and in no delivery that has resolved since. -/
  owed : Identity → Bool
  /-- The identities of the deliveries that have resolved, in order, as far as this queue knows. -/
  resolved : List Identity
  /-- The same when the state file was written last. -/
  persisted : List Identity

/-- `Set.add` -/
def addIdentity (set : List Identity) (identity : Identity) : List Identity :=
  if identity ∈ set then set else set ++ [identity]

/-- The `while` that drops the oldest identities. -/
def evict : List Identity → List Identity
  | [] => []
  | oldest :: rest =>
    if maxMessageGroupDeliveredIdentities < (oldest :: rest).length ∧ oldest ≠ [] then evict rest
    else oldest :: rest

namespace QueueState

variable (s : QueueState D)

def snapshot : MessageGroupingState D := ⟨s.groups.values, s.deliveredIdentities⟩

def persist : QueueState D := { s with disk := some s.snapshot, persisted := s.resolved }

def arm (key : JsString) : QueueState D :=
  { s with timers := if key ∈ s.timers then s.timers else s.timers ++ [key] }

def disarm (key : JsString) : QueueState D := { s with timers := s.timers.filter (· ≠ key) }

def setGroup (group : PendingMessageGroup D) : QueueState D :=
  { s with groups := s.groups.set group.key group }

/-- The pending groups of the input's sender, unless the input answers a message. -/
def baseCandidates (input : EnqueueMessageGroupInput D) : List (PendingMessageGroup D) :=
  if input.replyToMessageId.any (fun id ↦ decide (id ≠ [])) then []
  else s.groups.values.filter fun group ↦
    decide (group.baseKey = input.baseKey ∧ group.status = .pending)

/-- The group that the input joins, the only one whose items `enqueue` compares with it. -/
def existing (input : EnqueueMessageGroupInput D) : Option (PendingMessageGroup D) :=
  (s.groups.get? input.key).or
    (match s.baseCandidates input with
      | [group] => some group
      | _ => none)

end QueueState

def PendingMessageGroup.holds (group : PendingMessageGroup D) (identity : Identity) : Bool :=
  group.items.any fun item ↦ decide (item.identity = identity)

inductive Answer where
  /-- The message is not one that is grouped. -/
  | ignored
  | refused (groupId : JsString) (itemCount : Nat)
  | accepted (identity : Identity) (groupId : JsString) (itemCount : Nat)
  /-- `flushNow` has called `deliver` with a group of these identities. -/
  | started (identities : List Identity)
  | skipped
  | delivered
  | retained
  | closed
  | restarted
  /-- Writing the state file has thrown. -/
  | failed

def newGroup (input : EnqueueMessageGroupInput D) (groupId : JsString) (now : Time) :
    PendingMessageGroup D where
  groupId
  key := input.key
  baseKey := input.baseKey
  endpoint := input.endpoint
  conversationKey := input.conversationKey
  sender := input.sender
  replyToMessageId := input.replyToMessageId
  createdAt := now
  updatedAt := now
  deadlineAt := now
  maxDeadlineAt := now + (normalizedPolicy input.policy).maxWaitSeconds * 1000
  status := .pending
  attempts := 0
  lastError := none
  items := []

/-- The group after the input has joined it. -/
def PendingMessageGroup.push (group : PendingMessageGroup D) (input : EnqueueMessageGroupInput D)
    (now : Time) : PendingMessageGroup D :=
  let policy := normalizedPolicy input.policy
  let incomplete := messageFragmentLooksIncomplete input.text
  let waitSeconds := if incomplete then policy.incompleteSettleSeconds else policy.settleSeconds
  let maxDeadlineAt :=
    if group.status = .delivering then max group.maxDeadlineAt (now + policy.maxWaitSeconds * 1000)
    else group.maxDeadlineAt
  { group with
    updatedAt := now
    lastError := none
    items := group.items ++ [⟨input.identity, now, incomplete, input.payload⟩]
    maxDeadlineAt
    deadlineAt := min maxDeadlineAt (now + waitSeconds * 1000) }

/-- `persists` says whether the write of the state file succeeds. -/
def enqueue (input : EnqueueMessageGroupInput D) (now : Time) (uuid : JsString) (persists : Bool)
    (s : QueueState D) : Answer × QueueState D :=
  if input.identity ∈ s.deliveredIdentities then (.refused [] 0, s)
  else
    match s.existing input with
    | some group =>
      if group.holds input.identity then (.refused group.groupId group.items.length, s)
      else join group
    | none => join (newGroup input (js "message-group-" ++ uuid) now)
where
  join (group : PendingMessageGroup D) : Answer × QueueState D :=
    let joined := group.push input now
    let s' := s.setGroup joined
    if persists then
      let s'' := s'.persist
      (.accepted input.identity joined.groupId joined.items.length,
        { (if group.status = .delivering then s'' else s''.arm joined.key) with
          owed := fun identity ↦ if identity = input.identity then true else s.owed identity })
    else (.failed, s')

/-- `flushNow` until it awaits `deliver`. -/
def flushNow (key : JsString) (persists : Bool) (s : QueueState D) : Answer × QueueState D :=
  match s.groups.get? key with
  | none => (.skipped, s)
  | some group =>
    if group.status = .delivering then (.skipped, s)
    else
      let s' := (s.disarm key).setGroup
        { group with status := .delivering, attempts := group.attempts + 1, lastError := none }
      if persists then
        let identities := (group.items.map (·.identity)).foldl addIdentity []
        (.started identities, { s'.persist with flights := s.flights ++ [⟨key, identities⟩] })
      else (.failed, s')

def retrySeconds (attempts : Nat) : Rat :=
  min 60 (defaultMessageGroupRetrySeconds *
    if attempts = 0 then 1 / 2 else ((2 ^ min 4 (attempts - 1) : Nat) : Rat))

/-- The `catch` of `flushNow`. -/
def retain (key : JsString) (error : JsString) (now : Time) (persists : Bool) (s : QueueState D) :
    Answer × QueueState D :=
  let s' := match s.groups.get? key with
    | none => s
    | some group =>
      let deadlineAt := now + retrySeconds group.attempts * 1000
      s.setGroup { group with
        status := .pending
        lastError := some error
        deadlineAt
        maxDeadlineAt := max group.maxDeadlineAt deadlineAt }
  if persists then (.retained, s'.persist.arm key) else (.failed, s')

def QueueState.land (s : QueueState D) (key : JsString) : QueueState D :=
  { s with flights := s.flights.filter (·.key ≠ key) }

/-- The rest of the `try` of `flushNow`, after `deliver` has resolved. -/
def finish (flight : Flight) (group : PendingMessageGroup D) (s : QueueState D) : QueueState D :=
  let items := group.items.filter fun item ↦ decide (item.identity ∉ flight.identities)
  let s' := { s with
    deliveredIdentities := evict (flight.identities.foldl addIdentity s.deliveredIdentities)
    owed := fun identity ↦ s.owed identity && decide (identity ∉ flight.identities)
    resolved := s.resolved ++ flight.identities }
  match items with
  | [] => { s' with groups := s.groups.erase flight.key }
  | first :: _ =>
    (s'.setGroup { group with
      items
      status := .pending
      attempts := 0
      lastError := none
      createdAt := first.receivedAt }).arm flight.key

/-- `deliver` has resolved; `persists'` is about the write in the `catch`. -/
def resolve (flight : Flight) (now : Time) (persists persists' : Bool) (s : QueueState D) :
    Answer × QueueState D :=
  match s.groups.get? flight.key with
  | none => (.skipped, s)
  | some group =>
    let s' := finish flight group (s.land flight.key)
    if persists then (.delivered, s'.persist)
    else retain flight.key (js "write failed") now persists' s'

def loadGroup (groups : InsertionMap JsString (PendingMessageGroup D)) (group : PendingMessageGroup D) :
    InsertionMap JsString (PendingMessageGroup D) :=
  groups.set group.key group

/-- The constructor of the queue of a new process. -/
def restart (s : QueueState D) : QueueState D :=
  let state := (s.disk.map readState).getD ⟨[], []⟩
  let groups := state.pending.foldl loadGroup .empty
  { s with
    groups
    deliveredIdentities := state.deliveredIdentities.foldl addIdentity []
    timers := groups.keys
    flights := []
    resolved := s.persisted }

/-! ## The messages that are forwarded -/

/-- What `messageContextScopeForForward` finds out about a message. -/
structure ForwardScope where
  endpoint : Option JsString
  conversationKey : JsString
  sender : JsString
  replyToMessageId : Option JsString

structure ForwardRecord (D : Type) where
  messageId : Option JsString
  time : JsString
  rawMessage : JsString
  data : D

/-- The functions of the other modules that `messageGroupEnqueueInputForForward` calls. -/
structure ForwardLookups (D : Type) where
  messageContextScopeForForward : JsString → ForwardRecord D → Option ForwardScope
  stableSenderGroupingKey : JsString → ForwardRecord D → Option JsString
  /-- The first 24 digits of the SHA-256 of a text. -/
  digest : JsString → JsString

def conversationalRouteKinds : List JsString :=
  ["private", "group_message", "direct_at", "direct_reply", "indirect_reply", "role_panel_message",
    "voice_transcript", "rabilink", "wecom_message", "weixin_message", "feishu_message"].map js

def stableIdentity (lookups : ForwardLookups D) (endpoint conversationKey : JsString)
    (record : ForwardRecord D) : Identity :=
  let messageId := (record.messageId.getD []).trim
  if messageId ≠ [] then endpoint ++ js "|" ++ conversationKey ++ js "|message:" ++ messageId
  else endpoint ++ js "|" ++ conversationKey ++ js "|content:" ++
    lookups.digest (record.time ++ js "|" ++ record.rawMessage)

/-- The input of a message whose scope and whose sender are known. -/
def scopedInput (lookups : ForwardLookups D) (scope : ForwardScope) (endpoint senderKey : JsString)
    (routeKind : JsString) (record : ForwardRecord D) (extraValues : D)
    (policy : MessageGroupingPolicy) : EnqueueMessageGroupInput D :=
  let sender := JsString.trim (if scope.sender = [] then js "unknown" else scope.sender)
  let replyToMessageId := (scope.replyToMessageId.map JsString.trim).filter fun id ↦ decide (id ≠ [])
  let baseKey := endpoint ++ js "|" ++ scope.conversationKey ++ js "|sender:" ++ senderKey
  { key := baseKey ++ js "|reply:" ++ replyToMessageId.getD (js "none")
    baseKey
    endpoint
    conversationKey := scope.conversationKey
    sender := if sender = [] then js "unknown" else sender
    replyToMessageId
    identity := stableIdentity lookups endpoint scope.conversationKey record
    text := record.rawMessage
    policy
    payload := ⟨routeKind, record.data, extraValues⟩ }

def messageGroupEnqueueInputForForward (lookups : ForwardLookups D) (routeKind : JsString)
    (record : ForwardRecord D) (extraValues : D) (policy : MessageGroupingPolicy) :
    Option (EnqueueMessageGroupInput D) :=
  if policy.enabled = false ∨ routeKind ∉ conversationalRouteKinds then none
  else
    match lookups.messageContextScopeForForward routeKind record with
    | none => none
    | some scope =>
      match scope.endpoint, lookups.stableSenderGroupingKey routeKind record with
      | some endpoint, some senderKey =>
        if endpoint = [] ∨ scope.conversationKey = [] ∨ senderKey = [] then none
        else some (scopedInput lookups scope endpoint senderKey routeKind record extraValues policy)
      | _, _ => none

/-! ## Runs -/

inductive Event (D : Type) where
  | enqueue (routeKind : JsString) (record : ForwardRecord D) (extraValues : D)
      (policy : MessageGroupingPolicy) (now : Time) (uuid : JsString) (persists : Bool)
  | fire (key : JsString) (persists : Bool)
  | flushNow (key : JsString) (persists : Bool)
  | resolve (key : JsString) (now : Time) (persists persists' : Bool)
  | reject (key : JsString) (error : JsString) (now : Time) (persists : Bool)
  | close (persists : Bool)
  | restart

def step (lookups : ForwardLookups D) : Event D → QueueState D → Option (Answer × QueueState D)
  | .enqueue routeKind record extraValues policy now uuid persists, s =>
    match messageGroupEnqueueInputForForward lookups routeKind record extraValues policy with
    | none => some (.ignored, s)
    | some input => some (MessageGrouping.enqueue input now uuid persists s)
  | .fire key persists, s =>
    if key ∈ s.timers then some (MessageGrouping.flushNow key persists (s.disarm key)) else none
  | .flushNow key persists, s => some (MessageGrouping.flushNow key persists s)
  | .resolve key now persists persists', s =>
    (s.flights.find? (·.key = key)).map fun flight ↦
      MessageGrouping.resolve flight now persists persists' s
  | .reject key error now persists, s =>
    (s.flights.find? (·.key = key)).map fun flight ↦
      retain flight.key error now persists (s.land flight.key)
  | .close persists, s =>
    let s' := { s with timers := [] }
    some (if persists then (.closed, s'.persist) else (.failed, s'))
  | .restart, s => some (.restarted, MessageGrouping.restart s)

def system (lookups : ForwardLookups D) : Transitions.System (QueueState D) (Event D) Answer :=
  ⟨step lookups⟩

/-- There is no state file. -/
def initial : QueueState D :=
  ⟨.empty, [], [], [], none, fun _ ↦ false, [], []⟩

end RabiRoute.MessageGrouping
