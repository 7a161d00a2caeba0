import RabiRoute.Collections.InsertionMap
import RabiRoute.Transitions.System

/-!
# Connections to peers

`PeerConnections` of `connections.ts`.  A call runs from one `await` to the next; what is awaited ends at
any later time.  The counter `active` admits two establishments or upgrades at once; a third
establishment waits in the queue until one of them wakes it.
-/

open Collections Transitions

namespace RabiRoute.PeerTunnel

inductive TunnelTransport where
  | lan
  | p2p
  | relay
deriving DecidableEq

def peerTransportPriority : List TunnelTransport := [.lan, .p2p, .relay]

/-- `lan` says that the peer has URLs. -/
structure TunnelCandidate (Peer : Type) where
  id : Peer
  supported : Bool
  trusted : Bool
  lan : Bool

/-- Sessions and calls are named by their numbers; a flight is the call that has started it. -/
structure ConnectionEntry where
  session : Option Nat := none
  transport : Option TunnelTransport := none
  supported : Bool
  trusted : Bool
  flight : Option Nat := none

/-- What the loop over the transports awaits: `connect`, the first `ping` of a session, or the `close` of a
session that is given up.  After `closing true` the loop ends. -/
inductive Attempt where
  | connecting (transport : TunnelTransport) (rest : List TunnelTransport)
  | measuring (transport : TunnelTransport) (rest : List TunnelTransport) (session : Nat)
  | closing (ends : Bool) (rest : List TunnelTransport)

/-- Where a call stands.  `waiting` is in the queue, `woken` has been taken out of it and has not run yet;
`landing` has its establishment settled, and `get` has still to take the flight out of the entry. -/
inductive ConnectionCall (Peer : Type) where
  | probing (peer : TunnelCandidate Peer)
  | waiting (peer : TunnelCandidate Peer)
  | woken (peer : TunnelCandidate Peer)
  | establishing (peer : TunnelCandidate Peer) (attempt : Attempt)
  | landing (peer : TunnelCandidate Peer)
  | upgrading (peer : TunnelCandidate Peer) (previous : Nat) (attempt : Attempt)
  | finished

structure PeerConnections (Peer : Type) where
  entries : InsertionMap Peer ConnectionEntry := .empty
  aborted : Bool := false
  active : Int := 0
  queue : List Nat := []
  selected : Option Peer := none
  upgrading : List Peer := []
  closed : List Nat := []
  sessions : Nat := 0
  calls : InsertionMap Nat (ConnectionCall Peer) := .empty
  started : Nat := 0

inductive ConnectResult where
  | session
  | denied
  | failed

namespace PeerConnections

variable {Peer : Type} [DecidableEq Peer]

/-- `session.close()`, and the handlers of its `close` event. -/
def closeSession (session : Nat) (c : PeerConnections Peer) : PeerConnections Peer :=
  if session ∈ c.closed then c
  else
    { c with
      closed := session :: c.closed
      entries := c.entries.mapValues fun entry ↦
        if entry.session = some session then { entry with session := none, transport := none } else entry }

def closeAll (sessions : List Nat) (c : PeerConnections Peer) : PeerConnections Peer :=
  sessions.foldl (fun c session ↦ c.closeSession session) c

/-- `entry`: a peer that is not supported and trusted loses its session. -/
def entry (peer : TunnelCandidate Peer) (c : PeerConnections Peer) : PeerConnections Peer :=
  let known : ConnectionEntry := (c.entries.get? peer.id).getD { supported := peer.supported, trusted := peer.trusted }
  let c := { c with
    entries := c.entries.set peer.id { known with supported := peer.supported, trusted := peer.trusted } }
  if peer.supported && peer.trusted then c else closeAll known.session.toList c

def entryOf (peer : Peer) (c : PeerConnections Peer) : Option ConnectionEntry := c.entries.get? peer

/-- The session of the entry, if there is one that is not closed. -/
def liveSession (peer : Peer) (c : PeerConnections Peer) : Option Nat :=
  ((c.entryOf peer).bind ConnectionEntry.session).filter fun session ↦ decide (session ∉ c.closed)

def setEntry (peer : Peer) (change : ConnectionEntry → ConnectionEntry) (c : PeerConnections Peer) :
    PeerConnections Peer :=
  match c.entryOf peer with
  | some entry => { c with entries := c.entries.set peer (change entry) }
  | none => c

def setCall (call : Nat) (state : ConnectionCall Peer) (c : PeerConnections Peer) : PeerConnections Peer :=
  { c with calls := c.calls.set call state }

/-- Resolve the promise that the call awaits in the queue. -/
def wake (call : Nat) (c : PeerConnections Peer) : PeerConnections Peer :=
  match c.calls.get? call with
  | some (.waiting peer) => c.setCall call (.woken peer)
  | _ => c

/-- `this.queue.shift()?.()` -/
def wakeNext (c : PeerConnections Peer) : PeerConnections Peer :=
  match c.queue with
  | [] => c
  | call :: queue => { c with queue }.wake call

/-- The next transport of the loop; without URLs of the peer, `lan` is left out. -/
def nextAttempt (lan : Bool) : List TunnelTransport → Option Attempt
  | [] => none
  | transport :: rest => if transport = .lan && !lan then nextAttempt lan rest else some (.connecting transport rest)

/-! ## Establishments -/

/-- The `finally` of an establishment. -/
def settle (call : Nat) (peer : TunnelCandidate Peer) (c : PeerConnections Peer) : PeerConnections Peer :=
  { c with active := c.active - 1 }.setCall call (.landing peer) |>.wakeNext

/-- The `catch` of an establishment, and its `finally`. -/
def fail (call : Nat) (peer : TunnelCandidate Peer) (c : PeerConnections Peer) : PeerConnections Peer :=
  c.setEntry peer.id (fun entry ↦ { entry with transport := none }) |>.settle call peer

/-- The next round of the loop. -/
def establishNext (call : Nat) (peer : TunnelCandidate Peer) (rest : List TunnelTransport) (c : PeerConnections Peer) :
    PeerConnections Peer :=
  if c.aborted then c.fail call peer
  else
    match nextAttempt peer.lan rest with
    | some attempt => c.setCall call (.establishing peer attempt)
    | none => c.fail call peer

/-- `establish`, when it does not or no longer wait. -/
def occupySlot (call : Nat) (peer : TunnelCandidate Peer) (c : PeerConnections Peer) : PeerConnections Peer :=
  if c.aborted then c.setCall call (.landing peer)
  else
    { c with active := c.active + 1 }.setEntry peer.id (fun entry ↦ { entry with transport := none })
      |>.establishNext call peer peerTransportPriority

def establish (call : Nat) (peer : TunnelCandidate Peer) (c : PeerConnections Peer) : PeerConnections Peer :=
  if 2 ≤ c.active then
    { c with queue := if c.selected = some peer.id then call :: c.queue else c.queue ++ [call] }.setCall call
      (.waiting peer)
  else c.occupySlot call peer

/-- The end of `get`: the establishment becomes the flight of the entry. -/
def startFlight (call : Nat) (peer : TunnelCandidate Peer) (c : PeerConnections Peer) : PeerConnections Peer :=
  (c.establish call peer).setEntry peer.id fun entry ↦ { entry with flight := some call }

/-- `stale` says that the last measurement is older than five seconds. -/
def get (peer : TunnelCandidate Peer) (probe stale : Bool) (c : PeerConnections Peer) : PeerConnections Peer :=
  if c.aborted then c
  else
    let c := c.entry peer
    if !peer.supported || !peer.trusted then c
    else if ((c.entryOf peer.id).bind ConnectionEntry.flight).isSome then c
    else if (c.liveSession peer.id).isSome then
      if probe && stale then { c with started := c.started + 1 }.setCall c.started (.probing peer) else c
    else { c with started := c.started + 1 }.startFlight c.started peer

/-- `get` after the probe, whatever the measurement was. -/
def probed (call : Nat) (peer : TunnelCandidate Peer) (c : PeerConnections Peer) : PeerConnections Peer :=
  if (c.liveSession peer.id).isSome then c.setCall call .finished else c.startFlight call peer

/-- The `finally` of `get`. -/
def landed (call : Nat) (peer : TunnelCandidate Peer) (c : PeerConnections Peer) : PeerConnections Peer :=
  c.setCall call .finished |>.setEntry peer.id fun entry ↦
    if entry.flight = some call then { entry with flight := none } else entry

def admitted (peer : Peer) (c : PeerConnections Peer) : Bool :=
  (c.entryOf peer).any fun entry ↦ entry.trusted && entry.supported

/-- `establish` after `connect`; `expired` says that the time of the attempt is over. -/
def establishConnected (call : Nat) (peer : TunnelCandidate Peer) (transport : TunnelTransport)
    (rest : List TunnelTransport) (result : ConnectResult) (expired : Bool) (c : PeerConnections Peer) :
    PeerConnections Peer :=
  match result with
  | .failed => c.establishNext call peer rest
  | .denied => c.fail call peer
  | .session =>
    let session := c.sessions
    let c := { c with sessions := c.sessions + 1 }
    if expired || c.aborted then (c.closeSession session).setCall call (.establishing peer (.closing false rest))
    else if !c.admitted peer.id then
      (c.closeSession session).setCall call (.establishing peer (.closing true rest))
    else c.setCall call (.establishing peer (.measuring transport rest session))

/-- `establish` after the measurement. -/
def establishMeasured (call : Nat) (peer : TunnelCandidate Peer) (transport : TunnelTransport)
    (rest : List TunnelTransport) (session : Nat) (answered expired : Bool) (c : PeerConnections Peer) :
    PeerConnections Peer :=
  if !answered || expired || c.aborted then
    (c.closeSession session).setCall call (.establishing peer (.closing false rest))
  else if !c.admitted peer.id then
    (c.closeSession session).setCall call (.establishing peer (.closing true rest))
  else
    c.setEntry peer.id (fun entry ↦ { entry with session := some session, transport := some transport })
      |>.settle call peer

/-! ## Upgrades -/

/-- The `finally` of an upgrade. -/
def endUpgrade (call : Nat) (peer : TunnelCandidate Peer) (c : PeerConnections Peer) : PeerConnections Peer :=
  { c with active := c.active - 1, upgrading := c.upgrading.filter fun id ↦ decide (id ≠ peer.id) }.setCall call
    .finished |>.wakeNext

def upgradeNext (call : Nat) (peer : TunnelCandidate Peer) (previous : Nat) (rest : List TunnelTransport)
    (c : PeerConnections Peer) : PeerConnections Peer :=
  match nextAttempt peer.lan rest with
  | some attempt => c.setCall call (.upgrading peer previous attempt)
  | none => c.endUpgrade call peer

/-- The session that `reconsiderCurrent` is to replace, if it goes on. -/
def upgradable (peer : TunnelCandidate Peer) (c : PeerConnections Peer) : Option Nat :=
  if peer.trusted && peer.supported && decide ((c.entryOf peer.id).bind ConnectionEntry.transport ≠ some .lan) &&
      decide (peer.id ∉ c.upgrading) && decide (c.active < 2) then
    c.liveSession peer.id
  else none

def reconsider (peer : TunnelCandidate Peer) (c : PeerConnections Peer) : PeerConnections Peer :=
  if c.aborted then c
  else
    let c := c.entry peer
    match c.upgradable peer with
    | none => c
    | some previous =>
      let transports : List TunnelTransport :=
        if (c.entryOf peer.id).bind ConnectionEntry.transport = some .p2p then [.lan] else [.lan, .p2p]
      { c with
        started := c.started + 1
        active := c.active + 1
        upgrading := peer.id :: c.upgrading }.upgradeNext c.started peer previous transports

/-- Whether the upgrade may still replace the session that it found. -/
def current (peer : Peer) (previous : Nat) (expired : Bool) (c : PeerConnections Peer) : Bool :=
  !expired && !c.aborted && decide ((c.entryOf peer).bind ConnectionEntry.session = some previous)

def upgradeConnected (call : Nat) (peer : TunnelCandidate Peer) (previous : Nat) (transport : TunnelTransport)
    (rest : List TunnelTransport) (result : ConnectResult) (expired : Bool) (c : PeerConnections Peer) :
    PeerConnections Peer :=
  match result with
  | .failed => c.upgradeNext call peer previous rest
  | .denied => c.endUpgrade call peer
  | .session =>
    let session := c.sessions
    let c := { c with sessions := c.sessions + 1 }
    if c.current peer.id previous expired then
      c.setCall call (.upgrading peer previous (.measuring transport rest session))
    else (c.closeSession session).setCall call (.upgrading peer previous (.closing true rest))

def upgradeMeasured (call : Nat) (peer : TunnelCandidate Peer) (previous : Nat) (transport : TunnelTransport)
    (rest : List TunnelTransport) (session : Nat) (answered expired : Bool) (c : PeerConnections Peer) :
    PeerConnections Peer :=
  if !answered then (c.closeSession session).setCall call (.upgrading peer previous (.closing false rest))
  else if c.current peer.id previous expired then
    c.setEntry peer.id (fun entry ↦ { entry with session := some session, transport := some transport })
      |>.endUpgrade call peer
  else (c.closeSession session).setCall call (.upgrading peer previous (.closing true rest))

/-! ## The system -/

/-- `stop`: every session that an entry holds is closed, and everything that waits is woken. -/
def stop (c : PeerConnections Peer) : PeerConnections Peer :=
  if c.aborted then c
  else
    let c := { c with aborted := true }.closeAll (c.entries.values.filterMap ConnectionEntry.session)
    c.queue.foldl (fun c call ↦ c.wake call) { c with queue := [] }

end PeerConnections

/-- The calls from outside, and the ends of what the calls await.  A session may close at any time. -/
inductive ConnectionEvent (Peer : Type) where
  | get (peer : TunnelCandidate Peer) (probe stale : Bool)
  | reconsider (peer : TunnelCandidate Peer)
  | snapshot (peer : TunnelCandidate Peer)
  | select (peer : Peer)
  | stop
  | sessionCloses (session : Nat)
  | probed (call : Nat)
  | continued (call : Nat)
  | connected (call : Nat) (result : ConnectResult) (expired : Bool)
  | measured (call : Nat) (answered expired : Bool)
  | sessionClosed (call : Nat) (closed : Bool)
  | landed (call : Nat)

namespace PeerConnections

variable {Peer : Type} [DecidableEq Peer]

def step (e : ConnectionEvent Peer) (c : PeerConnections Peer) : Option (PeerConnections Peer) :=
  match e with
  | .get peer probe stale => some (c.get peer probe stale)
  | .reconsider peer => some (c.reconsider peer)
  | .snapshot peer => some (c.entry peer)
  | .select peer => some { c with selected := some peer }
  | .stop => some c.stop
  | .sessionCloses session => some (c.closeSession session)
  | .probed call =>
    match c.calls.get? call with
    | some (.probing peer) => some (c.probed call peer)
    | _ => none
  | .continued call =>
    match c.calls.get? call with
    | some (.woken peer) => some (c.occupySlot call peer)
    | _ => none
  | .connected call result expired =>
    match c.calls.get? call with
    | some (.establishing peer (.connecting transport rest)) =>
      some (c.establishConnected call peer transport rest result expired)
    | some (.upgrading peer previous (.connecting transport rest)) =>
      some (c.upgradeConnected call peer previous transport rest result expired)
    | _ => none
  | .measured call answered expired =>
    match c.calls.get? call with
    | some (.establishing peer (.measuring transport rest session)) =>
      some (c.establishMeasured call peer transport rest session answered expired)
    | some (.upgrading peer previous (.measuring transport rest session)) =>
      some (c.upgradeMeasured call peer previous transport rest session answered expired)
    | _ => none
  | .sessionClosed call closed =>
    match c.calls.get? call with
    | some (.establishing peer (.closing ends rest)) =>
      some (if ends && closed then c.fail call peer else c.establishNext call peer rest)
    | some (.upgrading peer previous (.closing ends rest)) =>
      some (if ends && closed then c.endUpgrade call peer else c.upgradeNext call peer previous rest)
    | _ => none
  | .landed call =>
    match c.calls.get? call with
    | some (.landing peer) => some (c.landed call peer)
    | _ => none

def system : System (PeerConnections Peer) (ConnectionEvent Peer) Unit where
  step e c := (c.step e).map fun c ↦ ((), c)

end PeerConnections

end RabiRoute.PeerTunnel
