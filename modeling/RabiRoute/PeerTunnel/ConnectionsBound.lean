import RabiRoute.PeerTunnel.Connections

/-!
# The bound on establishments

`active` counts what is past its admission.  A call that has been woken has left the queue, but is not
counted yet; `Regular` counts it with the others, as long as nobody takes its place.
-/

open Collections Transitions

namespace RabiRoute.PeerTunnel

variable {Peer : Type} [DecidableEq Peer]

namespace ConnectionCall

/-- Past its admission. -/
def isAdmitted : ConnectionCall Peer → Bool
  | .establishing .. | .upgrading .. => true
  | _ => false

/-- Past its admission, or about to be. -/
def isOccupying : ConnectionCall Peer → Bool
  | .woken _ | .establishing .. | .upgrading .. => true
  | _ => false

/-- The peer whose establishment the call runs. -/
def flightOf : ConnectionCall Peer → Option Peer
  | .waiting peer | .woken peer | .establishing peer _ => some peer.id
  | _ => none

end ConnectionCall

namespace PeerConnections

variable {c c' : PeerConnections Peer} {call : Nat} {state old : ConnectionCall Peer} {peer : TunnelCandidate Peer}
  {p : ConnectionCall Peer → Bool}

def count (p : ConnectionCall Peer → Bool) (c : PeerConnections Peer) : Nat :=
  c.calls.total fun _ state ↦ if p state then 1 else 0

def flight (id : Peer) (c : PeerConnections Peer) : Option Nat := (c.entryOf id).bind ConnectionEntry.flight

/-- At most two are past their admission, `active` is their number, and a peer has one flight. -/
structure Bounded (c : PeerConnections Peer) : Prop where
  atMostTwo : c.active ≤ 2
  counted : c.active = c.count ConnectionCall.isAdmitted
  settled : (∀ state ∈ c.calls.values, state.isAdmitted = false) → c.active = 0
  oneFlight : ∀ id call call' state state', c.calls.get? call = some state → c.calls.get? call' = some state' →
    state.flightOf = some id → state'.flightOf = some id → call = call'

/-! ## When nobody takes the place of a call that was woken -/

/-- The peer for which the event begins an establishment, as the state is when it begins. -/
def begins (e : ConnectionEvent Peer) (c : PeerConnections Peer) : Option Peer :=
  match e with
  | .get peer _ _ =>
    let c' := c.entry peer
    if !c.aborted && peer.supported && peer.trusted && (c'.flight peer.id).isNone && (c'.liveSession peer.id).isNone then
      some peer.id
    else none
  | .probed call =>
    match c.calls.get? call with
    | some (.probing peer) => if (c.liveSession peer.id).isNone then some peer.id else none
    | _ => none
  | _ => none

/-- Whether the event admits an establishment or an upgrade that has not waited. -/
def admits (e : ConnectionEvent Peer) (c : PeerConnections Peer) : Bool :=
  !c.aborted && decide (c.active < 2) &&
    match e with
    | .reconsider peer => ((c.entry peer).upgradable peer).isSome
    | e => (c.begins e).isSome

/-- What is admitted leaves room for the calls that have been woken. -/
def Uncrowded (e : ConnectionEvent Peer) (c : PeerConnections Peer) : Prop :=
  c.admits e = true → c.count ConnectionCall.isOccupying < 2

/-- An establishment begins when the flight of its peer, if there is one, has settled.  A `get` that has not
probed sees to that itself. -/
def Alone (e : ConnectionEvent Peer) (c : PeerConnections Peer) : Prop :=
  ∀ id ∈ c.begins e, ∀ flight ∈ c.flight id, ∀ state ∈ c.calls.get? flight, state.flightOf ≠ some id

/-- The invariant. -/
structure Regular (c : PeerConnections Peer) : Prop where
  counted : c.active = c.count ConnectionCall.isAdmitted
  bound : c.count ConnectionCall.isAdmitted ≤ 2
  room : c.aborted = false → c.count ConnectionCall.isOccupying ≤ 2
  fresh : ∀ call, c.started ≤ call → c.calls.get? call = none
  known : ∀ call peer, c.calls.get? call = some (.probing peer) → (c.entryOf peer.id).isSome = true
  flights : ∀ call state id, c.calls.get? call = some state → state.flightOf = some id → c.flight id = some call

/-! ## Counting -/

def indicator (p : ConnectionCall Peer → Bool) (state : Option (ConnectionCall Peer)) : Nat :=
  if state.any p then 1 else 0

omit [DecidableEq Peer] in
theorem indicator_true (h : p state = true) : indicator p (some state) = 1 := if_pos h

omit [DecidableEq Peer] in
theorem indicator_false (h : p state = false) : indicator p (some state) = 0 :=
  if_neg (by rw [Option.any_some, h]; decide)

omit [DecidableEq Peer] in
theorem count_set (p : ConnectionCall Peer → Bool) (calls : InsertionMap Nat (ConnectionCall Peer)) (call : Nat)
    (state : ConnectionCall Peer) :
    (calls.set call state).total (fun _ state => if p state then 1 else 0) + indicator p (calls.get? call) =
      calls.total (fun _ state => if p state then 1 else 0) + indicator p (some state) := by
  have htotal := InsertionMap.total_set (m := calls) (k := call) (a := state) fun _ state => if p state then 1 else 0
  have hold : InsertionMap.measureAt (fun _ state => if p state then 1 else 0) calls call =
      indicator p (calls.get? call) := by
    unfold InsertionMap.measureAt indicator
    cases calls.get? call <;> rfl
  rw [hold] at htotal
  exact htotal

omit [DecidableEq Peer] in
theorem count_eq_zero (h : ∀ state ∈ c.calls.values, p state = false) : c.count p = 0 := by
  unfold count InsertionMap.total
  apply List.sum_eq_zero
  intro n hn
  obtain ⟨e, he, rfl⟩ := List.mem_map.mp hn
  have hp := h e.2 (List.mem_map_of_mem he)
  simp only [hp, Bool.false_eq_true, if_false]

omit [DecidableEq Peer] in
theorem count_admitted_le : c.count ConnectionCall.isAdmitted ≤ c.count ConnectionCall.isOccupying := by
  unfold count InsertionMap.total
  apply List.sum_le_sum
  intro e _
  cases e.2 <;> simp [ConnectionCall.isAdmitted, ConnectionCall.isOccupying]

/-! ## Changes of one call -/

/-- One call goes on to `state`, with `active` as the source changes it. -/
theorem Regular.setCall (h : Regular c) (active : Int) (started : Nat)
    (hactive : active + indicator ConnectionCall.isAdmitted (c.calls.get? call) =
      c.active + indicator ConnectionCall.isAdmitted (some state))
    (hroom : c.aborted = false →
      indicator ConnectionCall.isOccupying (some state) ≤ indicator ConnectionCall.isOccupying (c.calls.get? call) ∨
        c.count ConnectionCall.isOccupying < 2)
    (hbound : c.aborted = true →
      indicator ConnectionCall.isAdmitted (some state) ≤ indicator ConnectionCall.isAdmitted (c.calls.get? call))
    (hstarted : c.started ≤ started ∧ call < started)
    (hknown : ∀ peer, state = .probing peer → (c.entryOf peer.id).isSome = true)
    (hflight : ∀ id, state.flightOf = some id → c.flight id = some call) :
    Regular { c with active, started, calls := c.calls.set call state } := by
  have hcount : ∀ p : ConnectionCall Peer → Bool,
      count p { c with active, started, calls := c.calls.set call state } + indicator p (c.calls.get? call) =
        c.count p + indicator p (some state) := fun p => count_set p c.calls call state
  have hadmitted := hcount ConnectionCall.isAdmitted
  have hoccupying := hcount ConnectionCall.isOccupying
  have hone : indicator ConnectionCall.isOccupying (some state) ≤ 1 := by
    unfold indicator
    split <;> omega
  have hcounted := h.counted
  have hroom' : c.aborted = false →
      count ConnectionCall.isOccupying { c with active, started, calls := c.calls.set call state } ≤ 2 := by
    intro haborted
    have hle := h.room haborted
    rcases hroom haborted with hless | hless <;> omega
  refine ⟨?_, ?_, hroom', ?_, ?_, ?_⟩
  · show active = _
    omega
  · rcases Bool.eq_false_or_eq_true c.aborted with haborted | haborted
    · have hle := h.bound
      have hless := hbound haborted
      omega
    · exact Nat.le_trans count_admitted_le (hroom' haborted)
  · intro call' hcall'
    have hge : started ≤ call' := hcall'
    show (c.calls.set call state).get? call' = none
    rw [InsertionMap.get?_set, if_neg (by omega)]
    exact h.fresh call' (by omega)
  · intro call' peer hcall'
    have hget : (c.calls.set call state).get? call' = some (.probing peer) := hcall'
    rw [InsertionMap.get?_set] at hget
    split at hget
    · exact hknown peer (Option.some.inj hget)
    · exact h.known call' peer hget
  · intro call' state' id hcall' hid
    have hget : (c.calls.set call state).get? call' = some state' := hcall'
    rw [InsertionMap.get?_set] at hget
    split at hget
    case isTrue heq =>
      obtain rfl := Option.some.inj hget
      rw [heq]
      exact hflight id hid
    case isFalse => exact h.flights call' state' id hget hid

omit [DecidableEq Peer] in
theorem started_lt [DecidableEq Peer] (h : Regular c) {call : Nat} (hcall : c.calls.get? call = some old) :
    call < c.started := by
  by_contra hge
  rw [h.fresh call (Nat.le_of_not_lt hge)] at hcall
  cases hcall

/-- A change of the entries, the sessions and the queue that keeps the flights. -/
structure SameCalls (c c' : PeerConnections Peer) : Prop where
  calls : c'.calls = c.calls
  active : c'.active = c.active
  aborted : c'.aborted = c.aborted
  started : c'.started = c.started
  flight : ∀ id, c'.flight id = c.flight id
  known : ∀ id, (c.entryOf id).isSome = true → (c'.entryOf id).isSome = true

theorem SameCalls.refl (c : PeerConnections Peer) : SameCalls c c :=
  ⟨rfl, rfl, rfl, rfl, fun _ => rfl, fun _ h => h⟩

theorem SameCalls.trans {c₁ c₂ c₃ : PeerConnections Peer} (h : SameCalls c₁ c₂) (h' : SameCalls c₂ c₃) :
    SameCalls c₁ c₃ where
  calls := h'.calls.trans h.calls
  active := h'.active.trans h.active
  aborted := h'.aborted.trans h.aborted
  started := h'.started.trans h.started
  flight id := (h'.flight id).trans (h.flight id)
  known id hid := h'.known id (h.known id hid)

theorem SameCalls.count (h : SameCalls c c') : c'.count p = c.count p := by
  unfold PeerConnections.count
  rw [h.calls]

theorem Regular.same (h : Regular c) (hsame : SameCalls c c') : Regular c' where
  counted := by rw [hsame.active, hsame.count, h.counted]
  bound := by rw [hsame.count]; exact h.bound
  room haborted := by
    rw [hsame.aborted] at haborted
    rw [hsame.count]
    exact h.room haborted
  fresh call hcall := by
    rw [hsame.started] at hcall
    rw [hsame.calls]
    exact h.fresh call hcall
  known call peer hcall := by
    rw [hsame.calls] at hcall
    exact hsame.known _ (h.known call peer hcall)
  flights call state id hcall hid := by
    rw [hsame.calls] at hcall
    rw [hsame.flight]
    exact h.flights call state id hcall hid

theorem sameCalls_closeSession (session : Nat) : SameCalls c (c.closeSession session) := by
  unfold closeSession
  split
  · exact .refl c
  · have hentry : ∀ id, (c.entries.mapValues fun entry =>
        if entry.session = some session then { entry with session := none, transport := none } else entry).get? id =
          (c.entries.get? id).map fun entry =>
            if entry.session = some session then { entry with session := none, transport := none } else entry :=
      fun id => InsertionMap.get?_mapValues
    refine ⟨rfl, rfl, rfl, rfl, fun id => ?_, fun id hid => ?_⟩
    · show ((InsertionMap.get? _ id).bind ConnectionEntry.flight) = (c.entries.get? id).bind ConnectionEntry.flight
      rw [hentry, Option.bind_map]
      congr 1
      funext entry
      show (if _ then _ else _ : ConnectionEntry).flight = _
      split <;> rfl
    · show (InsertionMap.get? _ id).isSome = true
      rw [hentry, Option.isSome_map]
      exact hid

theorem sameCalls_closeAll (sessions : List Nat) : SameCalls c (c.closeAll sessions) := by
  unfold closeAll
  induction sessions generalizing c with
  | nil => exact .refl c
  | cons session sessions ih => exact (sameCalls_closeSession session).trans ih

theorem sameCalls_setEntry {change : ConnectionEntry → ConnectionEntry}
    (hchange : ∀ entry, (change entry).flight = entry.flight) (id : Peer) : SameCalls c (c.setEntry id change) := by
  unfold setEntry
  split
  case h_1 entry hentry =>
    refine ⟨rfl, rfl, rfl, rfl, fun id' => ?_, fun id' hid' => ?_⟩
    · show ((InsertionMap.get? _ id').bind ConnectionEntry.flight) = (c.entries.get? id').bind ConnectionEntry.flight
      rw [InsertionMap.get?_set]
      split
      case isTrue heq =>
        rw [heq, show c.entries.get? id = some entry from hentry]
        exact hchange entry
      case isFalse => rfl
    · show (InsertionMap.get? _ id').isSome = true
      rw [InsertionMap.get?_set]
      split
      · rfl
      · exact hid'
  case h_2 => exact .refl c

/-- The status is reset before an establishment and after one that fails. -/
theorem sameCalls_clearTransport (id : Peer) :
    SameCalls c (c.setEntry id fun entry => { entry with transport := none }) := by
  apply sameCalls_setEntry
  intro entry
  rfl

/-- The entry takes over a session. -/
theorem sameCalls_setSession (id : Peer) (session : Nat) (transport : TunnelTransport) :
    SameCalls c (c.setEntry id fun entry => { entry with session := some session, transport := some transport }) := by
  apply sameCalls_setEntry
  intro entry
  rfl

theorem sameCalls_entry (peer : TunnelCandidate Peer) : SameCalls c (c.entry peer) := by
  have hset : SameCalls c { c with
      entries := c.entries.set peer.id { (c.entries.get? peer.id).getD
        { supported := peer.supported, trusted := peer.trusted } with
          supported := peer.supported, trusted := peer.trusted } } := by
    refine ⟨rfl, rfl, rfl, rfl, fun id => ?_, fun id hid => ?_⟩
    · show ((InsertionMap.get? _ id).bind ConnectionEntry.flight) = (c.entries.get? id).bind ConnectionEntry.flight
      rw [InsertionMap.get?_set]
      split
      case isTrue heq =>
        rw [heq]
        cases c.entries.get? peer.id <;> rfl
      case isFalse => rfl
    · show (InsertionMap.get? _ id).isSome = true
      rw [InsertionMap.get?_set]
      split
      · rfl
      · exact hid
  unfold entry
  dsimp only
  split
  · exact hset
  · exact hset.trans (sameCalls_closeAll _)

/-! ## Waking and leaving -/

theorem Regular.wake (h : Regular c) (hroom : c.aborted = false → c.count ConnectionCall.isOccupying < 2) :
    Regular (c.wake call) := by
  unfold PeerConnections.wake
  split
  case h_1 peer hcall =>
    apply h.setCall c.active c.started
    · rw [hcall]
      rfl
    · exact fun haborted => .inr (hroom haborted)
    · intro _
      rw [hcall]
      exact Nat.le_refl _
    · exact ⟨Nat.le_refl _, started_lt h hcall⟩
    · intro peer' hstate
      cases hstate
    · intro id hid
      exact h.flights call _ id hcall hid
  case h_2 => exact h

omit [DecidableEq Peer] in
theorem aborted_wake : (c.wake call).aborted = c.aborted := by
  unfold wake
  split <;> rfl

theorem Regular.wakeNext (h : Regular c) (hroom : c.aborted = false → c.count ConnectionCall.isOccupying < 2) :
    Regular c.wakeNext := by
  unfold PeerConnections.wakeNext
  split
  case h_1 => exact h
  case h_2 next queue hqueue =>
    have hsame : SameCalls c { c with queue } := ⟨rfl, rfl, rfl, rfl, fun _ => rfl, fun _ hid => hid⟩
    apply (h.same hsame).wake
    intro haborted
    rw [hsame.count]
    exact hroom haborted

omit [DecidableEq Peer] in
theorem isOccupying_of_isAdmitted (h : state.isAdmitted = true) : state.isOccupying = true := by
  cases state with
  | establishing => rfl
  | upgrading => rfl
  | _ => cases h

/-- An admitted call leaves, and the next one that waits is woken. -/
theorem Regular.leave (h : Regular c) (hcall : c.calls.get? call = some old) (hold : old.isAdmitted = true)
    (hstate : state.isOccupying = false) (hprobing : ∀ peer, state ≠ .probing peer) (hflight : state.flightOf = none) :
    Regular ({ c with active := c.active - 1 }.setCall call state).wakeNext := by
  have hadmitted : state.isAdmitted = false := by
    cases hstate' : state.isAdmitted with
    | false => rfl
    | true =>
      rw [isOccupying_of_isAdmitted hstate'] at hstate
      cases hstate
  have hindicator : indicator ConnectionCall.isAdmitted (c.calls.get? call) = 1 ∧
      indicator ConnectionCall.isOccupying (c.calls.get? call) = 1 := by
    rw [hcall]
    exact ⟨indicator_true hold, indicator_true (isOccupying_of_isAdmitted hold)⟩
  have hnone : indicator ConnectionCall.isAdmitted (some state) = 0 ∧
      indicator ConnectionCall.isOccupying (some state) = 0 :=
    ⟨indicator_false hadmitted, indicator_false hstate⟩
  have hleft : Regular ({ c with active := c.active - 1 }.setCall call state) := by
    apply h.setCall (c.active - 1) c.started
    · rw [hindicator.1, hnone.1]
      omega
    · intro _
      rw [hnone.2]
      exact .inl (Nat.zero_le _)
    · intro _
      rw [hnone.1]
      exact Nat.zero_le _
    · exact ⟨Nat.le_refl _, started_lt h hcall⟩
    · exact fun peer heq => absurd heq (hprobing peer)
    · intro id hid
      rw [hflight] at hid
      cases hid
  apply hleft.wakeNext
  intro haborted
  have hcount := count_set ConnectionCall.isOccupying c.calls call state
  have hroom : c.calls.total (fun _ state => if state.isOccupying then 1 else 0) ≤ 2 := h.room haborted
  show (c.calls.set call state).total _ < 2
  rw [hindicator.2, hnone.2] at hcount
  omega

theorem Regular.settle (h : Regular c) (hcall : c.calls.get? call = some old) (hold : old.isAdmitted = true) :
    Regular (c.settle call peer) :=
  h.leave hcall hold rfl (fun peer heq => by cases heq) rfl

theorem Regular.fail (h : Regular c) (hcall : c.calls.get? call = some old) (hold : old.isAdmitted = true) :
    Regular (c.fail call peer) := by
  have hsame : SameCalls c (c.setEntry peer.id fun entry => { entry with transport := none }) :=
    sameCalls_clearTransport peer.id
  apply (h.same hsame).settle _ hold
  rw [hsame.calls]
  exact hcall

theorem Regular.endUpgrade (h : Regular c) (hcall : c.calls.get? call = some old) (hold : old.isAdmitted = true) :
    Regular (c.endUpgrade call peer) := by
  have hsame : SameCalls c { c with upgrading := c.upgrading.filter fun id => decide (id ≠ peer.id) } :=
    ⟨rfl, rfl, rfl, rfl, fun _ => rfl, fun _ hid => hid⟩
  exact (h.same hsame).leave hcall hold rfl (fun peer heq => by cases heq) rfl

/-- A call past its admission goes on to its next await. -/
theorem Regular.awaits (h : Regular c) (hcall : c.calls.get? call = some old) (hold : old.isAdmitted = true)
    (hstate : state.isAdmitted = true) (hflight : ∀ id, state.flightOf = some id → old.flightOf = some id) :
    Regular (c.setCall call state) := by
  have hadmitted : indicator ConnectionCall.isAdmitted (c.calls.get? call) =
      indicator ConnectionCall.isAdmitted (some state) := by
    rw [hcall]
    exact (indicator_true hold).trans (indicator_true hstate).symm
  have hoccupying : indicator ConnectionCall.isOccupying (c.calls.get? call) =
      indicator ConnectionCall.isOccupying (some state) := by
    rw [hcall]
    exact (indicator_true (isOccupying_of_isAdmitted hold)).trans
      (indicator_true (isOccupying_of_isAdmitted hstate)).symm
  apply h.setCall c.active c.started
  · rw [hadmitted]
  · intro _
    rw [hoccupying]
    exact .inl (Nat.le_refl _)
  · intro _
    rw [hadmitted]
  · exact ⟨Nat.le_refl _, started_lt h hcall⟩
  · intro peer heq
    rw [heq] at hstate
    cases hstate
  · exact fun id hid => h.flights call old id hcall (hflight id hid)

theorem Regular.establishNext (h : Regular c) {attempt : Attempt} {rest : List TunnelTransport}
    (hcall : c.calls.get? call = some (.establishing peer attempt)) : Regular (c.establishNext call peer rest) := by
  unfold PeerConnections.establishNext
  split
  · exact h.fail hcall rfl
  · split
    · exact h.awaits hcall rfl rfl fun id hid => hid
    · exact h.fail hcall rfl

theorem Regular.upgradeNext (h : Regular c) {previous : Nat} {attempt : Attempt} {rest : List TunnelTransport} (hcall :
    c.calls.get? call = some (.upgrading peer previous attempt)) : Regular (c.upgradeNext call peer previous rest) := by
  unfold PeerConnections.upgradeNext
  split
  · exact h.awaits hcall rfl rfl fun id hid => hid
  · exact h.endUpgrade hcall rfl

/-! ## Admissions -/

omit [DecidableEq Peer] in
theorem nextAttempt_priority (lan : Bool) : ∃ attempt, nextAttempt lan peerTransportPriority = some attempt := by
  cases lan
  · exact ⟨.connecting .p2p [.relay], rfl⟩
  · exact ⟨.connecting .lan [.p2p, .relay], rfl⟩

/-- An admission leaves the call at its first attempt. -/
theorem occupySlot_eq (call : Nat) (peer : TunnelCandidate Peer) (haborted : c.aborted = false) : ∃ attempt, c.occupySlot call peer =
    { c.setEntry peer.id fun entry => { entry with transport := none } with
      active := c.active + 1
      calls := c.calls.set call (.establishing peer attempt) } := by
  obtain ⟨attempt, hattempt⟩ := nextAttempt_priority peer.lan
  refine ⟨attempt, ?_⟩
  unfold occupySlot establishNext
  rw [hattempt]
  unfold setEntry setCall entryOf
  cases c.entries.get? peer.id <;> simp [haborted]

/-- A call that was woken is admitted, or finds that the manager has stopped. -/
theorem Regular.continued (h : Regular c) (hcall : c.calls.get? call = some (.woken peer)) :
    Regular (c.occupySlot call peer) := by
  rcases Bool.eq_false_or_eq_true c.aborted with haborted | haborted
  · unfold occupySlot
    rw [if_pos haborted]
    apply h.setCall c.active c.started
    · rw [hcall]
      rfl
    · exact fun _ => .inl (Nat.zero_le _)
    · exact fun _ => Nat.zero_le _
    · exact ⟨Nat.le_refl _, started_lt h hcall⟩
    · exact fun peer heq => by cases heq
    · exact fun id hid => by cases hid
  · obtain ⟨attempt, hslot⟩ := occupySlot_eq call peer haborted
    have hsame : SameCalls c (c.setEntry peer.id fun entry => { entry with transport := none }) :=
      sameCalls_clearTransport peer.id
    have hcall' := hcall
    rw [← hsame.calls] at hcall'
    rw [hslot, ← hsame.calls, ← hsame.active]
    apply (h.same hsame).setCall _ (c.setEntry peer.id fun entry => { entry with transport := none }).started
    · rw [hcall', show indicator ConnectionCall.isAdmitted (some (.woken peer)) = 0 from rfl,
        show indicator ConnectionCall.isAdmitted (some (.establishing peer attempt)) = 1 from rfl]
      omega
    · rw [hcall']
      exact fun _ => .inl (Nat.le_refl _)
    · rw [hsame.aborted, haborted]
      exact fun h => by cases h
    · exact ⟨Nat.le_refl _, started_lt (h.same hsame) hcall'⟩
    · exact fun peer heq => by cases heq
    · exact fun id hid => (h.same hsame).flights call _ id hcall' hid

/-- The entry takes the flight of a call, when no other flight of the peer runs. -/
theorem Regular.setFlight (h : Regular c) (call : Nat) (hknown : (c.entryOf peer.id).isSome = true)
    (halone : ∀ call' state, c.calls.get? call' = some state → state.flightOf ≠ some peer.id) :
    Regular (c.setEntry peer.id fun entry => { entry with flight := some call }) ∧
      (c.setEntry peer.id fun entry => { entry with flight := some call }).flight peer.id = some call := by
  obtain ⟨entry, hentry⟩ := Option.isSome_iff_exists.mp hknown
  have hset : c.setEntry peer.id (fun entry => { entry with flight := some call }) =
      { c with entries := c.entries.set peer.id { entry with flight := some call } } := by
    unfold setEntry
    rw [hentry]
  have hget : ∀ id, PeerConnections.entryOf id
      { c with entries := c.entries.set peer.id { entry with flight := some call } } =
        if id = peer.id then some { entry with flight := some call } else c.entryOf id := fun id => InsertionMap.get?_set
  rw [hset]
  refine ⟨⟨h.counted, h.bound, h.room, h.fresh, fun call' peer' hcall' => ?_, fun call' state id hcall' hid => ?_⟩, ?_⟩
  · rw [hget]
    split
    · rfl
    · exact h.known call' peer' hcall'
  · have hother : id ≠ peer.id := by
      intro heq
      exact halone call' state hcall' (heq ▸ hid)
    unfold flight
    rw [hget, if_neg hother]
    exact h.flights call' state id hcall' hid
  · unfold flight
    rw [hget, if_pos rfl]
    rfl

theorem setEntry_eq {id : Peer} {entry : ConnectionEntry} (hentry : c.entryOf id = some entry)
    (change : ConnectionEntry → ConnectionEntry) :
    c.setEntry id change = { c with entries := c.entries.set id (change entry) } := by
  unfold setEntry
  rw [hentry]

/-- A `get` whose call has not been admitted becomes the flight of the entry. -/
theorem Regular.flies (h : Regular c) (active : Int) {started : Nat} (state : ConnectionCall Peer)
    (hknown : (c.entryOf peer.id).isSome = true)
    (halone : ∀ call' state, c.calls.get? call' = some state → state.flightOf ≠ some peer.id)
    (hold : ∀ state, c.calls.get? call = some state → state.isOccupying = false)
    (hstarted : c.started ≤ started ∧ call < started)
    (hactive : active = c.active + indicator ConnectionCall.isAdmitted (some state))
    (hroom : c.aborted = false → state.isOccupying = true → c.count ConnectionCall.isOccupying < 2)
    (hadmitted : state.isAdmitted = true → c.aborted = false) (hprobing : ∀ peer, state ≠ .probing peer)
    (hflight : ∀ id, state.flightOf = some id → id = peer.id) :
    Regular { c.setEntry peer.id fun entry => { entry with flight := some call } with
      active, started, calls := c.calls.set call state } := by
  have hzero : indicator ConnectionCall.isAdmitted (c.calls.get? call) = 0 := by
    cases hget : c.calls.get? call with
    | none => rfl
    | some old =>
      apply indicator_false
      cases hstate : old.isAdmitted with
      | false => rfl
      | true =>
        have hoccupying := isOccupying_of_isAdmitted hstate
        rw [hold old hget] at hoccupying
        cases hoccupying
  obtain ⟨hregular, hset⟩ := h.setFlight call hknown halone
  obtain ⟨entry, hentry⟩ := Option.isSome_iff_exists.mp hknown
  rw [setEntry_eq hentry] at hregular hset ⊢
  apply hregular.setCall active started
  · show active + indicator ConnectionCall.isAdmitted (c.calls.get? call) = c.active + _
    rw [hzero, hactive]
    omega
  · intro hrunning
    cases hstate : state.isOccupying with
    | true => exact .inr (hroom hrunning hstate)
    | false =>
      left
      rw [indicator_false hstate]
      exact Nat.zero_le _
  · intro hstopped
    cases hstate : state.isAdmitted with
    | true => exact absurd ((hadmitted hstate).symm.trans hstopped) (by decide)
    | false =>
      rw [indicator_false hstate]
      exact Nat.zero_le _
  · exact hstarted
  · exact fun peer heq => absurd heq (hprobing peer)
  · intro id hid
    rw [hflight id hid]
    exact hset

/-- A `get` begins an establishment. -/
theorem Regular.startFlight (h : Regular c) {started : Nat} (hknown : (c.entryOf peer.id).isSome = true)
    (halone : ∀ call' state, c.calls.get? call' = some state → state.flightOf ≠ some peer.id)
    (hold : ∀ state, c.calls.get? call = some state → state.isOccupying = false)
    (hstarted : c.started ≤ started ∧ call < started)
    (hroom : c.aborted = false → c.active < 2 → c.count ConnectionCall.isOccupying < 2) :
    Regular ({ c with started }.startFlight call peer) := by
  obtain ⟨entry, hentry⟩ := Option.isSome_iff_exists.mp hknown
  have hget : c.entries.get? peer.id = some entry := hentry
  unfold PeerConnections.startFlight establish
  split
  case isTrue hfull =>
    have hsame : SameCalls c { c with
        queue := if c.selected = some peer.id then call :: c.queue else c.queue ++ [call] } :=
      ⟨rfl, rfl, rfl, rfl, fun _ => rfl, fun _ hid => hid⟩
    have hflies := (h.same hsame).flies c.active (.waiting peer) hknown halone hold hstarted
      (Int.add_zero _).symm (fun _ hstate => by cases hstate) (fun hstate => by cases hstate)
      (fun _ heq => by cases heq) fun id hid => (Option.some.inj hid).symm
    simp only [setEntry, entryOf, hget, PeerConnections.setCall] at hflies ⊢
    exact hflies
  case isFalse hfree =>
    have hactive : c.active < 2 := Int.not_le.mp hfree
    rcases Bool.eq_false_or_eq_true c.aborted with haborted | haborted
    · have hslot : PeerConnections.occupySlot call peer { c with started } =
          PeerConnections.setCall call (.landing peer) { c with started } := if_pos haborted
      have hflies := h.flies c.active (.landing peer) hknown halone hold hstarted
        (Int.add_zero _).symm (fun _ hstate => by cases hstate) (fun hstate => by cases hstate)
        (fun _ heq => by cases heq) fun id hid => by cases hid
      rw [hslot]
      simp only [setEntry, entryOf, hget, PeerConnections.setCall] at hflies ⊢
      exact hflies
    · obtain ⟨attempt, hslot⟩ := occupySlot_eq (c := { c with started }) call peer haborted
      have hsame : SameCalls c (c.setEntry peer.id fun entry => { entry with transport := none }) :=
        sameCalls_clearTransport peer.id
      have hregular := h.same hsame
      have hknown' := hsame.known _ hknown
      rw [setEntry_eq hentry] at hregular hknown'
      have hflies := hregular.flies (c.active + 1) (.establishing peer attempt) hknown' halone hold hstarted rfl
        (fun hrunning _ => hroom hrunning hactive) (fun _ => haborted) (fun _ heq => by cases heq)
        fun id hid => (Option.some.inj hid).symm
      rw [hslot]
      simp only [setEntry, entryOf, hget, InsertionMap.get?_set_self] at hflies ⊢
      exact hflies

/-! ## Each event -/

theorem known_entry : ((c.entry peer).entryOf peer.id).isSome = true := by
  have hset : (PeerConnections.entryOf peer.id { c with
      entries := c.entries.set peer.id { (c.entries.get? peer.id).getD
        { supported := peer.supported, trusted := peer.trusted } with
          supported := peer.supported, trusted := peer.trusted } }).isSome = true := by
    unfold entryOf
    rw [InsertionMap.get?_set_self]
    rfl
  unfold entry
  dsimp only
  split
  · exact hset
  · exact (sameCalls_closeAll _).known _ hset

theorem Regular.get (h : Regular c) {probe stale : Bool} (huncrowded : Uncrowded (.get peer probe stale) c) :
    Regular (c.get peer probe stale) := by
  have hsame : SameCalls c (c.entry peer) := sameCalls_entry peer
  have hregular := h.same hsame
  unfold PeerConnections.get
  split
  case isTrue => exact h
  case isFalse haborted =>
    dsimp only
    split
    case isTrue => exact hregular
    case isFalse hcandidate =>
      rw [Bool.or_eq_true, Bool.not_eq_true', Bool.not_eq_true', not_or, Bool.not_eq_false, Bool.not_eq_false]
        at hcandidate
      split
      case isTrue => exact hregular
      case isFalse hflight =>
        have hnone : ((c.entry peer).flight peer.id).isNone = true := by
          unfold flight
          rw [Option.isNone_iff_eq_none, ← Option.not_isSome_iff_eq_none]
          exact hflight
        split
        case isTrue hlive =>
          split
          case isTrue =>
            apply hregular.setCall (c.entry peer).active ((c.entry peer).started + 1)
            · rw [hregular.fresh _ (Nat.le_refl _)]
              rfl
            · exact fun _ => .inl (Nat.zero_le _)
            · exact fun _ => Nat.zero_le _
            · exact ⟨Nat.le_succ _, Nat.lt_succ_self _⟩
            · intro peer' heq
              obtain rfl := ConnectionCall.probing.inj heq
              exact known_entry
            · exact fun id hid => by cases hid
          case isFalse => exact hregular
        case isFalse hlive =>
          apply hregular.startFlight known_entry
          · intro call' state hcall' hid
            have hsome := hregular.flights call' state peer.id hcall' hid
            rw [hsome] at hnone
            cases hnone
          · intro state hcall'
            rw [hregular.fresh _ (Nat.le_refl _)] at hcall'
            cases hcall'
          · exact ⟨Nat.le_succ _, Nat.lt_succ_self _⟩
          · intro _ hactive
            rw [hsame.active] at hactive
            rw [hsame.count]
            apply huncrowded
            have hdead : ((c.entry peer).liveSession peer.id).isNone = true := by
              rw [Option.isNone_iff_eq_none, ← Option.not_isSome_iff_eq_none]
              exact hlive
            unfold admits begins
            simp [haborted, hactive, hcandidate.1, hcandidate.2, hnone, hdead]

theorem Regular.probed (h : Regular c) (hcall : c.calls.get? call = some (.probing peer))
    (huncrowded : Uncrowded (.probed call) c) (halone : Alone (.probed call) c) : Regular (c.probed call peer) := by
  unfold PeerConnections.probed
  split
  case isTrue =>
    apply h.setCall c.active c.started
    · rw [hcall]
      rfl
    · exact fun _ => .inl (Nat.zero_le _)
    · exact fun _ => Nat.zero_le _
    · exact ⟨Nat.le_refl _, started_lt h hcall⟩
    · exact fun peer heq => by cases heq
    · exact fun id hid => by cases hid
  case isFalse hlive =>
    have hbegins : c.begins (.probed call) = some peer.id := by
      have hdead : (c.liveSession peer.id).isNone = true := by
        rw [Option.isNone_iff_eq_none, ← Option.not_isSome_iff_eq_none]
        exact hlive
      unfold begins
      dsimp only
      rw [hcall]
      exact if_pos hdead
    apply h.startFlight (h.known call peer hcall)
    · intro call' state hcall' hid
      exact halone peer.id hbegins call' (h.flights call' state peer.id hcall' hid) state hcall' hid
    · intro state hcall'
      rw [hcall] at hcall'
      obtain rfl := Option.some.inj hcall'
      rfl
    · exact ⟨Nat.le_refl _, started_lt h hcall⟩
    · intro haborted hactive
      apply huncrowded
      unfold admits
      simp [haborted, hactive, hbegins]

/-- A `reconsider` begins an upgrade, or ends it at once when there is no transport to try. -/
theorem Regular.upgrades (h : Regular c) {upgrading : List Peer} {previous : Nat} {rest : List TunnelTransport}
    (haborted : c.aborted = false) (hroom : c.count ConnectionCall.isOccupying < 2) :
    Regular ({ c with started := c.started + 1, active := c.active + 1, upgrading }.upgradeNext c.started peer previous
      rest) := by
  have hnew : c.calls.get? c.started = none := h.fresh _ (Nat.le_refl _)
  unfold PeerConnections.upgradeNext
  split
  case h_1 attempt _ =>
    have hsame : SameCalls c { c with upgrading } := ⟨rfl, rfl, rfl, rfl, fun _ => rfl, fun _ hid => hid⟩
    apply (h.same hsame).setCall (c.active + 1) (c.started + 1)
    · show c.active + 1 + (indicator ConnectionCall.isAdmitted (c.calls.get? c.started) : Nat) = c.active + 1
      rw [hnew]
      exact Int.add_zero _
    · exact fun _ => .inr hroom
    · exact fun hstopped => absurd (haborted.symm.trans hstopped) (by decide)
    · exact ⟨Nat.le_succ _, Nat.lt_succ_self _⟩
    · exact fun peer heq => by cases heq
    · exact fun id hid => by cases hid
  case h_2 =>
    have hsame : SameCalls c { c with upgrading := upgrading.filter fun id => decide (id ≠ peer.id) } :=
      ⟨rfl, rfl, rfl, rfl, fun _ => rfl, fun _ hid => hid⟩
    unfold PeerConnections.endUpgrade
    apply Regular.wakeNext
    · apply (h.same hsame).setCall (c.active + 1 - 1) (c.started + 1)
      · show c.active + 1 - 1 + (indicator ConnectionCall.isAdmitted (c.calls.get? c.started) : Nat) = c.active + 0
        rw [hnew, show indicator ConnectionCall.isAdmitted (none : Option (ConnectionCall Peer)) = 0 from rfl]
        omega
      · exact fun _ => .inl (Nat.zero_le _)
      · exact fun _ => Nat.zero_le _
      · exact ⟨Nat.le_succ _, Nat.lt_succ_self _⟩
      · exact fun peer heq => by cases heq
      · exact fun id hid => by cases hid
    · intro _
      have hcount := count_set ConnectionCall.isOccupying c.calls c.started .finished
      have hfinished : indicator ConnectionCall.isOccupying (some (.finished : ConnectionCall Peer)) = 0 := rfl
      have hroom' : c.calls.total (fun _ state => if state.isOccupying then 1 else 0) < 2 := hroom
      show (c.calls.set c.started .finished).total _ < 2
      omega

theorem upgradable_active {previous : Nat} (h : c.upgradable peer = some previous) : c.active < 2 := by
  unfold upgradable at h
  split at h
  case isTrue hcondition =>
    rw [Bool.and_eq_true] at hcondition
    exact of_decide_eq_true hcondition.2
  case isFalse => cases h

theorem Regular.reconsider (h : Regular c) (huncrowded : Uncrowded (.reconsider peer) c) :
    Regular (c.reconsider peer) := by
  have hsame : SameCalls c (c.entry peer) := sameCalls_entry peer
  have hregular := h.same hsame
  unfold PeerConnections.reconsider
  split
  case isTrue => exact h
  case isFalse haborted =>
    have hrunning : c.aborted = false := Bool.eq_false_iff.mpr haborted
    dsimp only
    split
    case h_1 => exact hregular
    case h_2 previous hupgradable =>
      apply hregular.upgrades (hsame.aborted.trans hrunning)
      rw [hsame.count]
      apply huncrowded
      have hactive := upgradable_active hupgradable
      rw [hsame.active] at hactive
      unfold admits
      simp [hrunning, hactive, hupgradable]

/-- A change of an entry that leaves the flights that run. -/
theorem Regular.changeEntry (h : Regular c) {id : Peer} {change : ConnectionEntry → ConnectionEntry}
    (hchange : ∀ entry call state, c.calls.get? call = some state → state.flightOf = some id →
      entry.flight = some call → (change entry).flight = some call) : Regular (c.setEntry id change) := by
  cases hentry : c.entryOf id with
  | none =>
    have hsame : c.setEntry id change = c := by
      unfold setEntry
      rw [hentry]
    rw [hsame]
    exact h
  | some entry =>
    rw [setEntry_eq hentry]
    have hget : ∀ id', PeerConnections.entryOf id' { c with entries := c.entries.set id (change entry) } =
        if id' = id then some (change entry) else c.entryOf id' := fun id' => InsertionMap.get?_set
    refine ⟨h.counted, h.bound, h.room, h.fresh, fun call peer hcall => ?_, fun call state id' hcall hid' => ?_⟩
    · rw [hget]
      split
      · rfl
      · exact h.known call peer hcall
    · have hflight := h.flights call state id' hcall hid'
      unfold flight at hflight ⊢
      rw [hget]
      split
      case isTrue heq =>
        rw [heq, hentry] at hflight
        exact hchange entry call state hcall (heq ▸ hid') hflight
      case isFalse => exact hflight

theorem Regular.landed (h : Regular c) (hcall : c.calls.get? call = some (.landing peer)) :
    Regular (c.landed call peer) := by
  have hfinished : Regular (c.setCall call .finished) := by
    apply h.setCall c.active c.started
    · rw [hcall]
      rfl
    · exact fun _ => .inl (Nat.zero_le _)
    · exact fun _ => Nat.zero_le _
    · exact ⟨Nat.le_refl _, started_lt h hcall⟩
    · exact fun peer heq => by cases heq
    · exact fun id hid => by cases hid
  apply hfinished.changeEntry
  intro entry call' state hcall' hid hflight
  have hother : call' ≠ call := by
    rintro rfl
    have hget : (c.calls.set call' .finished).get? call' = some state := hcall'
    rw [InsertionMap.get?_set_self] at hget
    obtain rfl := Option.some.inj hget
    cases hid
  rw [hflight, if_neg fun heq => hother (Option.some.inj heq)]
  exact hflight

theorem Regular.stop (h : Regular c) : Regular c.stop := by
  have hwake : ∀ (queue : List Nat) (c : PeerConnections Peer), Regular c → c.aborted = true →
      Regular (queue.foldl (fun c call => c.wake call) c) := by
    intro queue
    induction queue with
    | nil => exact fun c hc _ => hc
    | cons call queue ih =>
      intro c hc hstopped
      apply ih
      · exact hc.wake fun hrunning => absurd (hstopped.symm.trans hrunning) (by decide)
      · rw [aborted_wake]
        exact hstopped
  unfold PeerConnections.stop
  split
  case isTrue => exact h
  case isFalse =>
    dsimp only
    have haborted : Regular { c with aborted := true } :=
      ⟨h.counted, h.bound, fun hrunning => (by cases hrunning), h.fresh, h.known, h.flights⟩
    have hclosed := sameCalls_closeAll (c := { c with aborted := true })
      (c.entries.values.filterMap ConnectionEntry.session)
    have hqueue : ∀ c : PeerConnections Peer, SameCalls c { c with queue := [] } :=
      fun c => ⟨rfl, rfl, rfl, rfl, fun _ => rfl, fun _ hid => hid⟩
    apply hwake
    · exact (haborted.same hclosed).same (hqueue _)
    · exact hclosed.aborted

/-- A session is given up, and the call awaits that it closes. -/
theorem Regular.givesUp (h : Regular c) (hcall : c.calls.get? call = some old) (hold : old.isAdmitted = true)
    (session sessions : Nat) (hstate : state.isAdmitted = true)
    (hflight : ∀ id, state.flightOf = some id → old.flightOf = some id) :
    Regular ((PeerConnections.closeSession session { c with sessions }).setCall call state) := by
  have hnew : SameCalls c { c with sessions } := ⟨rfl, rfl, rfl, rfl, fun _ => rfl, fun _ hid => hid⟩
  have hsame := hnew.trans (sameCalls_closeSession session)
  rw [← hsame.calls] at hcall
  exact (h.same hsame).awaits hcall hold hstate hflight

theorem Regular.establishConnected (h : Regular c) {attempt : Attempt} {transport : TunnelTransport} {rest : List
    TunnelTransport} {result : ConnectResult} {expired : Bool} (hcall : c.calls.get? call = some (.establishing peer
    attempt)) : Regular (c.establishConnected call peer transport rest result expired) := by
  unfold PeerConnections.establishConnected
  cases result with
  | failed => exact h.establishNext hcall
  | denied => exact h.fail hcall rfl
  | session =>
    have hnew : SameCalls c { c with sessions := c.sessions + 1 } :=
      ⟨rfl, rfl, rfl, rfl, fun _ => rfl, fun _ hid => hid⟩
    dsimp only
    split
    · exact h.givesUp hcall rfl _ _ rfl fun id hid => hid
    · split
      · exact h.givesUp hcall rfl _ _ rfl fun id hid => hid
      · exact (h.same hnew).awaits hcall rfl rfl fun id hid => hid

theorem Regular.establishMeasured (h : Regular c) {attempt : Attempt} {transport : TunnelTransport} {rest : List
    TunnelTransport} {session : Nat} {answered expired : Bool} (hcall : c.calls.get? call = some (.establishing peer
    attempt)) : Regular (c.establishMeasured call peer transport rest session answered expired) := by
  unfold PeerConnections.establishMeasured
  split
  · exact h.givesUp hcall rfl session c.sessions rfl fun id hid => hid
  · split
    · exact h.givesUp hcall rfl session c.sessions rfl fun id hid => hid
    · have hsame := sameCalls_setSession (c := c) peer.id session transport
      rw [← hsame.calls] at hcall
      exact (h.same hsame).settle hcall rfl

theorem Regular.upgradeConnected (h : Regular c) {previous : Nat} {attempt : Attempt} {transport : TunnelTransport}
    {rest : List TunnelTransport} {result : ConnectResult} {expired : Bool}
    (hcall : c.calls.get? call = some (.upgrading peer previous attempt)) :
    Regular (c.upgradeConnected call peer previous transport rest result expired) := by
  unfold PeerConnections.upgradeConnected
  cases result with
  | failed => exact h.upgradeNext hcall
  | denied => exact h.endUpgrade hcall rfl
  | session =>
    have hnew : SameCalls c { c with sessions := c.sessions + 1 } :=
      ⟨rfl, rfl, rfl, rfl, fun _ => rfl, fun _ hid => hid⟩
    dsimp only
    split
    · exact (h.same hnew).awaits hcall rfl rfl fun id hid => hid
    · exact h.givesUp hcall rfl _ _ rfl fun id hid => hid

theorem Regular.upgradeMeasured (h : Regular c) {previous : Nat} {attempt : Attempt} {transport : TunnelTransport} {rest
    : List TunnelTransport} {session : Nat} {answered expired : Bool} (hcall : c.calls.get? call = some (.upgrading peer
    previous attempt)) : Regular (c.upgradeMeasured call peer previous transport rest session answered expired) := by
  unfold PeerConnections.upgradeMeasured
  split
  · exact h.givesUp hcall rfl session c.sessions rfl fun id hid => hid
  · split
    · have hsame := sameCalls_setSession (c := c) peer.id session transport
      rw [← hsame.calls] at hcall
      exact (h.same hsame).endUpgrade hcall rfl
    · exact h.givesUp hcall rfl session c.sessions rfl fun id hid => hid

theorem Regular.step (h : Regular c) {e : ConnectionEvent Peer} (huncrowded : Uncrowded e c) (halone : Alone e c)
    (hstep : c.step e = some c') : Regular c' := by
  unfold PeerConnections.step at hstep
  cases e with
  | get peer probe stale =>
    obtain rfl := Option.some.inj hstep
    exact h.get huncrowded
  | reconsider peer =>
    obtain rfl := Option.some.inj hstep
    exact h.reconsider huncrowded
  | snapshot peer =>
    obtain rfl := Option.some.inj hstep
    exact h.same (sameCalls_entry peer)
  | select peer =>
    obtain rfl := Option.some.inj hstep
    exact h.same ⟨rfl, rfl, rfl, rfl, fun _ => rfl, fun _ hid => hid⟩
  | stop =>
    obtain rfl := Option.some.inj hstep
    exact h.stop
  | sessionCloses session =>
    obtain rfl := Option.some.inj hstep
    exact h.same (sameCalls_closeSession session)
  | probed call =>
    dsimp only at hstep
    split at hstep
    case h_1 peer hcall =>
      obtain rfl := Option.some.inj hstep
      exact h.probed hcall huncrowded halone
    case h_2 => cases hstep
  | continued call =>
    dsimp only at hstep
    split at hstep
    case h_1 peer hcall =>
      obtain rfl := Option.some.inj hstep
      exact h.continued hcall
    case h_2 => cases hstep
  | connected call result expired =>
    dsimp only at hstep
    split at hstep
    case h_1 peer transport rest hcall =>
      obtain rfl := Option.some.inj hstep
      exact h.establishConnected hcall
    case h_2 peer previous transport rest hcall =>
      obtain rfl := Option.some.inj hstep
      exact h.upgradeConnected hcall
    case h_3 => cases hstep
  | measured call answered expired =>
    dsimp only at hstep
    split at hstep
    case h_1 peer transport rest session hcall =>
      obtain rfl := Option.some.inj hstep
      exact h.establishMeasured hcall
    case h_2 peer previous transport rest session hcall =>
      obtain rfl := Option.some.inj hstep
      exact h.upgradeMeasured hcall
    case h_3 => cases hstep
  | sessionClosed call closed =>
    dsimp only at hstep
    split at hstep
    case h_1 peer ends rest hcall =>
      obtain rfl := Option.some.inj hstep
      split
      · exact h.fail hcall rfl
      · exact h.establishNext hcall
    case h_2 peer previous ends rest hcall =>
      obtain rfl := Option.some.inj hstep
      split
      · exact h.endUpgrade hcall rfl
      · exact h.upgradeNext hcall
    case h_3 => cases hstep
  | landed call =>
    dsimp only at hstep
    split at hstep
    case h_1 peer hcall =>
      obtain rfl := Option.some.inj hstep
      exact h.landed hcall
    case h_2 => cases hstep

theorem Regular.empty : Regular ({} : PeerConnections Peer) where
  counted := rfl
  bound := Nat.zero_le _
  room _ := Nat.zero_le _
  fresh _ _ := rfl
  known _ _ hcall := by cases hcall
  flights _ _ _ hcall := by cases hcall

theorem Regular.bounded (h : Regular c) : Bounded c where
  atMostTwo := by
    have hcounted := h.counted
    have hbound := h.bound
    omega
  counted := h.counted
  settled hsettled := by
    rw [h.counted, count_eq_zero hsettled]
    rfl
  oneFlight id call call' state state' hcall hcall' hid hid' := by
    have hsame := (h.flights call state id hcall hid).symm.trans (h.flights call' state' id hcall' hid')
    exact Option.some.inj hsame

/-- Two are past their admission at most, and a peer has one flight, as long as nobody takes the place of a
call that was woken and no `get` overlooks a flight that began during its probe. -/
theorem establishments_bounded
    (h : system.ReachUnder (fun e c ↦ Uncrowded e c ∧ Alone e c) ({} : PeerConnections Peer) c) : Bounded c := by
  have hregular : Regular c := by
    refine h.invariant .empty fun e c a c' hc hok hstep ↦ ?_
    obtain ⟨c'', hnext, heq⟩ := Option.map_eq_some_iff.mp hstep
    obtain rfl : c'' = c' := congrArg Prod.snd heq
    exact hc.step hok.1 hok.2 hnext
  exact hregular.bounded

section

instance (e : ConnectionEvent Peer) (c : PeerConnections Peer) : Decidable (Uncrowded e c) :=
  inferInstanceAs (Decidable (c.admits e = true → c.count ConnectionCall.isOccupying < 2))

instance (e : ConnectionEvent Peer) (c : PeerConnections Peer) : Decidable (Alone e c) :=
  inferInstanceAs (Decidable
    (∀ id ∈ c.begins e, ∀ flight ∈ c.flight id, ∀ state ∈ c.calls.get? flight, state.flightOf ≠ some id))

/-- A peer that can be reached over the relay. -/
def remotePeer (id : Nat) : TunnelCandidate Nat := ⟨id, true, true, false⟩

/-- The events of a first attempt that connects. -/
def connects (call : Nat) : List (ConnectionEvent Nat) := [.connected call .session false, .measured call true false]

/-- A third establishment waits for the first, and takes its place. -/
theorem establishments_bounded_waiting : ∃ c : PeerConnections Nat, Bounded c ∧ c.active = 2 := by
  have hrun : (system.runUnder (fun e c ↦ Uncrowded e c ∧ Alone e c) {}
      ([.get (remotePeer 0) false false, .get (remotePeer 1) false false, .get (remotePeer 2) false false] ++
        connects 0 ++ [.landed 0, .continued 2])).any (fun c ↦ decide (c.active = 2)) = true := by
    decide +kernel
  obtain ⟨c, hc, hend⟩ := (Option.any_eq_true _ _).mp hrun
  exact ⟨c, establishments_bounded (System.runUnder_reach hc), of_decide_eq_true hend⟩

/-- A fourth establishment is admitted between the end of the first and the turn of the third, which was
woken.  And two calls come back from their probes after their session has closed. -/
theorem establishments_unbounded :
    (∃ c : PeerConnections Nat, system.Reach {} c ∧ ¬ c.active ≤ 2) ∧
      ∃ c : PeerConnections Nat, system.Reach {} c ∧ ¬ Bounded c ∧ c.active ≤ 2 := by
  constructor
  · have hrun : (system.run {}
        ([.get (remotePeer 0) false false, .get (remotePeer 1) false false, .get (remotePeer 2) false false] ++
          connects 0 ++ [.get (remotePeer 3) false false, .continued 2])).any
        (fun c ↦ decide (c.active = 3)) = true := by
      decide +kernel
    obtain ⟨c, hc, hend⟩ := (Option.any_eq_true _ _).mp hrun
    have hactive := of_decide_eq_true hend
    exact ⟨c, System.run_reach hc, by omega⟩
  · have hrun : (system.run {}
        ([.get (remotePeer 0) false false] ++ connects 0 ++
          [.landed 0, .get (remotePeer 0) true true, .get (remotePeer 0) true true, .sessionCloses 0, .probed 1,
            .probed 2])).any
        (fun c ↦ decide (c.active = 2) && (c.calls.get? 1).any (fun state ↦ decide (state.flightOf = some 0)) &&
          (c.calls.get? 2).any fun state ↦ decide (state.flightOf = some 0)) = true := by
      decide +kernel
    obtain ⟨c, hc, hend⟩ := (Option.any_eq_true _ _).mp hrun
    simp only [Bool.and_eq_true] at hend
    obtain ⟨⟨hactive, hfirst⟩, hsecond⟩ := hend
    obtain ⟨state, hstate, hid⟩ := (Option.any_eq_true _ _).mp hfirst
    obtain ⟨state', hstate', hid'⟩ := (Option.any_eq_true _ _).mp hsecond
    refine ⟨c, System.run_reach hc, fun h ↦ ?_, le_of_eq (of_decide_eq_true hactive)⟩
    have hsame := h.oneFlight 0 1 2 state state' hstate hstate' (of_decide_eq_true hid) (of_decide_eq_true hid')
    cases hsame

end

end PeerConnections

end RabiRoute.PeerTunnel
