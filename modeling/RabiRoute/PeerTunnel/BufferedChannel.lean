import RabiRoute.Transitions.System

/-!
# Buffered channels

`BufferedChannel` of `channel.ts`: an event emitter that keeps its data until somebody listens.  A
listener runs inside the emission that calls it, and may listen, stop to listen or emit in turn.  A
microtask that drains the backlog starts when nothing else runs.
-/

open Transitions

namespace RabiRoute.PeerTunnel

def maxPendingBytes : Nat := 65536

/-- A data emission; `number` is a history, its place among all of them. -/
structure Emission where
  number : Nat
  bytes : List UInt8
deriving DecidableEq

/-- What runs: `super.emit` on data, with the listeners that it has still to call, or on `close`. -/
inductive Activation where
  | data (emission : Emission) (listeners : List Nat)
  | close

/-- The calls that an activation has still to make. -/
def Activation.toCall : Activation → List (Nat × Emission)
  | .data e listeners => listeners.map fun listener ↦ (listener, e)
  | .close => []

/-- `draining` is what the loop of a drain has still to emit; the activations run on top of it.  A listener
is named by the number of its registration.  The last four fields are histories. -/
structure BufferedChannel where
  pending : List Emission := []
  pendingBytes : Nat := 0
  listeners : List Nat := []
  microtasks : Nat := 0
  draining : Option (List Emission) := none
  running : List Activation := []
  registrations : Nat := 0
  emitted : List Emission := []
  deliveries : List (Emission × List Nat) := []
  calls : List (Nat × Emission) := []

namespace BufferedChannel

/-- `emit("data", …)` -/
def emit (e : Emission) (c : BufferedChannel) : BufferedChannel :=
  match c.listeners with
  | [] =>
    let pendingBytes := c.pendingBytes + e.bytes.length
    if maxPendingBytes < pendingBytes then
      { c with pendingBytes, pending := [], running := .close :: c.running }
    else { c with pendingBytes, pending := c.pending ++ [e] }
  | listener :: listeners =>
    -- `super.emit` calls the listeners that there are now, whatever they do to the list
    { c with
      deliveries := c.deliveries ++ [(e, c.listeners)]
      calls := c.calls ++ [(listener, e)]
      running := .data e listeners :: c.running }

/-- `on("data", …)` -/
def on (c : BufferedChannel) : BufferedChannel :=
  { c with
    listeners := c.listeners ++ [c.registrations]
    registrations := c.registrations + 1
    microtasks := if c.pending.isEmpty then c.microtasks else c.microtasks + 1 }

def removeListener (listener : Nat) (c : BufferedChannel) : BufferedChannel :=
  { c with listeners := c.listeners.erase listener }

/-- The microtask that `on` has queued. -/
def drain (c : BufferedChannel) : BufferedChannel :=
  { c with pending := [], pendingBytes := 0, microtasks := c.microtasks - 1, draining := some c.pending }

/-- What runs goes on: the next listener is called, or the next message of the drain is emitted. -/
def resume (c : BufferedChannel) : Option BufferedChannel :=
  match c.running, c.draining with
  | .data e (listener :: listeners) :: rest, _ =>
    some { c with calls := c.calls ++ [(listener, e)], running := .data e listeners :: rest }
  | .data _ [] :: rest, _ | .close :: rest, _ => some { c with running := rest }
  | [], some (e :: queued) => some (emit e { c with draining := some queued })
  | [], some [] => some { c with draining := none }
  | [], none => none

/-- Other code can act: a listener is running, or nothing is. -/
def free (c : BufferedChannel) : Bool := !c.running.isEmpty || c.draining.isNone

end BufferedChannel

inductive ChannelEvent where
  | emit (bytes : List UInt8)
  | on
  | removeListener (listener : Nat)
  | resume
  | microtask

namespace BufferedChannel

def step : ChannelEvent → BufferedChannel → Option BufferedChannel
  | .emit bytes, c =>
    let e : Emission := ⟨c.emitted.length, bytes⟩
    if c.free then some (emit e { c with emitted := c.emitted ++ [e] }) else none
  | .on, c => if c.free then some c.on else none
  | .removeListener listener, c => if c.free then some (c.removeListener listener) else none
  | .resume, c => c.resume
  | .microtask, c => if c.running = [] ∧ c.draining = none ∧ 0 < c.microtasks then some c.drain else none

def system : System BufferedChannel ChannelEvent Unit where
  step e c := (step e c).map fun c ↦ ((), c)

/-! ## The order of the messages -/

def totalBytes (messages : List Emission) : Nat := (messages.map fun e ↦ e.bytes.length).sum

/-- What the drain has still to emit. -/
def queued (c : BufferedChannel) : List Emission := c.draining.getD []

def toCall (c : BufferedChannel) : List (Nat × Emission) := c.running.flatMap Activation.toCall

/-- All calls that the deliveries make, in order. -/
def audience (deliveries : List (Emission × List Nat)) : List (Nat × Emission) :=
  deliveries.flatMap fun delivery ↦ delivery.2.map fun listener ↦ (listener, delivery.1)

/-- The listeners together see the messages in the order of their emission, each once, and nothing stays
behind when a listener is there and nothing is left to run. -/
structure InOrder (c : BufferedChannel) : Prop where
  deliveries : c.deliveries.map Prod.fst <+: c.emitted
  calls : c.calls <+: audience c.deliveries
  settled : c.running = [] → c.draining = none → c.microtasks = 0 → c.listeners ≠ [] →
    c.deliveries.map Prod.fst = c.emitted ∧ c.calls = audience c.deliveries

/-- The unread backlog does not exceed the limit. -/
def WithinBacklog : ChannelEvent → BufferedChannel → Prop
  | .emit bytes, c => c.listeners = [] → totalBytes (c.pending ++ c.queued) + bytes.length ≤ maxPendingBytes
  | _, _ => True

/-- A message that comes while somebody listens finds no earlier one unread, and a drain that puts a message
back finds no later one in the backlog. -/
def Undisturbed : ChannelEvent → BufferedChannel → Prop
  | .emit _, c => c.listeners ≠ [] → c.pending = [] ∧ c.queued = [] ∧ c.toCall = []
  | .resume, c => c.running = [] → c.listeners = [] → ∀ e ∈ c.queued.head?, ∀ e' ∈ c.pending, e'.number < e.number
  | _, _ => True

/-! ## The invariant -/

/-- The backlog is what the drain has put back, then what was emitted since the drain began. -/
structure Ordered (c : BufferedChannel) : Prop where
  numbers : c.emitted.map Emission.number = List.range c.emitted.length
  messages : ∃ back later, c.pending = back ++ later ∧
    c.deliveries.map Prod.fst ++ back ++ c.queued ++ later = c.emitted ∧ (c.queued = [] → later = []) ∧
      (back ≠ [] → c.queued ≠ [] → c.running = [] ∧ c.listeners = [])
  calls : c.calls ++ c.toCall = audience c.deliveries
  pendingBytes : c.pendingBytes = totalBytes c.pending
  backlog : totalBytes (c.pending ++ c.queued) ≤ maxPendingBytes
  drains : c.pending ≠ [] → c.listeners ≠ [] → 0 < c.microtasks

theorem totalBytes_append (l l' : List Emission) : totalBytes (l ++ l') = totalBytes l + totalBytes l' := by
  unfold totalBytes
  rw [List.map_append, List.sum_append]

theorem totalBytes_cons (e : Emission) (l : List Emission) : totalBytes (e :: l) = e.bytes.length + totalBytes l := rfl

theorem totalBytes_nil : totalBytes [] = 0 := rfl

variable {c c' : BufferedChannel} {e : Emission}

/-! ## One emission -/

theorem emit_buffers (hlisteners : c.listeners = []) (hbytes : c.pendingBytes + e.bytes.length ≤ maxPendingBytes) :
    emit e c = { c with pendingBytes := c.pendingBytes + e.bytes.length, pending := c.pending ++ [e] } := by
  unfold emit
  rw [hlisteners]
  exact if_neg (Nat.not_lt.mpr hbytes)

theorem emit_delivers (hlisteners : c.listeners ≠ []) : ∃ listener listeners, c.listeners = listener :: listeners ∧
    emit e c = { c with
      deliveries := c.deliveries ++ [(e, c.listeners)]
      calls := c.calls ++ [(listener, e)]
      running := .data e listeners :: c.running } := by
  unfold emit
  cases hc : c.listeners with
  | nil => exact absurd hc hlisteners
  | cons listener listeners => exact ⟨listener, listeners, rfl, rfl⟩

theorem audience_snoc (deliveries : List (Emission × List Nat)) (listeners : List Nat) :
    audience (deliveries ++ [(e, listeners)]) =
      audience deliveries ++ listeners.map fun listener => (listener, e) := by
  unfold audience
  rw [List.flatMap_append, List.flatMap_cons, List.flatMap_nil, List.append_nil]

/-- The later messages of the backlog have the higher numbers. -/
theorem Ordered.number_lt (h : Ordered c) {before after : List Emission} {e' : Emission}
    (hsplit : c.emitted = before ++ e :: after) (hmem : e' ∈ after) : e.number < e'.number := by
  have hsorted : (c.emitted.map Emission.number).Pairwise (· < ·) := by
    rw [h.numbers]
    exact List.pairwise_lt_range
  rw [hsplit, List.map_append, List.map_cons] at hsorted
  have htail := (List.pairwise_append.mp hsorted).2.1
  exact (List.pairwise_cons.mp htail).1 _ (List.mem_map_of_mem hmem)

/-- A delivery calls the first listener, and the others after it. -/
theorem Ordered.calls_delivered (h : Ordered c) (htoCall : c.toCall = []) {listener : Nat} {listeners : List Nat}
    (hlist : c.listeners = listener :: listeners) :
    c.calls ++ [(listener, e)] ++ (listeners.map (fun listener => (listener, e)) ++ c.toCall) =
      audience (c.deliveries ++ [(e, c.listeners)]) := by
  have hcalls := h.calls
  rw [htoCall, List.append_nil] at hcalls
  rw [audience_snoc, htoCall, List.append_nil, hcalls, List.append_assoc, hlist]
  rfl

/-- A message comes from outside. -/
theorem Ordered.emitted (h : Ordered c) {bytes : List UInt8}
    (hwithin : WithinBacklog (.emit bytes) c) (hundisturbed : Undisturbed (.emit bytes) c) :
    Ordered (emit ⟨c.emitted.length, bytes⟩ { c with emitted := c.emitted ++ [⟨c.emitted.length, bytes⟩] }) := by
  obtain ⟨back, later, hpending, hmessages, hlater, hback⟩ := h.messages
  have hnumbers : (c.emitted ++ [(⟨c.emitted.length, bytes⟩ : Emission)]).map Emission.number =
      List.range (c.emitted ++ [(⟨c.emitted.length, bytes⟩ : Emission)]).length := by
    rw [List.map_append, h.numbers, List.length_append, List.length_singleton, List.range_succ]
    rfl
  by_cases hlisteners : c.listeners = []
  · have htotal : totalBytes (c.pending ++ c.queued) + bytes.length ≤ maxPendingBytes := hwithin hlisteners
    have hbacklog := htotal
    rw [totalBytes_append, ← h.pendingBytes] at hbacklog
    have hbytes : c.pendingBytes + bytes.length ≤ maxPendingBytes := by omega
    rw [emit_buffers (c := { c with emitted := c.emitted ++ [⟨c.emitted.length, bytes⟩] }) hlisteners hbytes]
    refine ⟨hnumbers, ?_, h.calls, ?_, ?_, fun _ hsome => absurd hlisteners hsome⟩
    · by_cases hqueued : c.queued = []
      · refine ⟨back ++ [⟨c.emitted.length, bytes⟩], [], ?_, ?_, fun _ => rfl, fun _ hsome => absurd hqueued hsome⟩
        · show c.pending ++ _ = _
          rw [hpending, hlater hqueued, List.append_nil, List.append_nil]
        · show c.deliveries.map Prod.fst ++ _ ++ c.queued ++ _ = c.emitted ++ _
          rw [hqueued, hlater hqueued, List.append_nil, List.append_nil] at hmessages
          rw [hqueued, List.append_nil, List.append_nil, ← List.append_assoc, hmessages]
      · refine ⟨back, later ++ [⟨c.emitted.length, bytes⟩], ?_, ?_, fun hnone => absurd hnone hqueued, hback⟩
        · show c.pending ++ _ = _
          rw [hpending, List.append_assoc]
        · show c.deliveries.map Prod.fst ++ back ++ c.queued ++ _ = c.emitted ++ _
          rw [← List.append_assoc, hmessages]
    · show c.pendingBytes + bytes.length = totalBytes (c.pending ++ _)
      rw [totalBytes_append, ← h.pendingBytes]
      rfl
    · show totalBytes ((c.pending ++ [⟨c.emitted.length, bytes⟩]) ++ c.queued) ≤ _
      rw [totalBytes_append, totalBytes_append] at *
      have hone : totalBytes [(⟨c.emitted.length, bytes⟩ : Emission)] = bytes.length := rfl
      omega
  · obtain ⟨hnone, hqueued, htoCall⟩ := hundisturbed hlisteners
    have hall : c.deliveries.map Prod.fst = c.emitted := by
      rw [hnone] at hpending
      obtain ⟨rfl, rfl⟩ := List.append_eq_nil_iff.mp hpending.symm
      rw [hqueued, List.append_nil, List.append_nil, List.append_nil] at hmessages
      exact hmessages
    obtain ⟨listener, listeners, hlist, hemit⟩ :=
      emit_delivers (c := { c with emitted := c.emitted ++ [⟨c.emitted.length, bytes⟩] })
        (e := ⟨c.emitted.length, bytes⟩) hlisteners
    rw [hemit]
    refine ⟨hnumbers, ⟨[], [], hnone, ?_, fun _ => rfl, fun hsome => absurd rfl hsome⟩, ?_, h.pendingBytes, h.backlog,
      h.drains⟩
    · show (c.deliveries ++ [(_, c.listeners)]).map Prod.fst ++ [] ++ c.queued ++ [] = c.emitted ++ _
      rw [List.map_append, hall, hqueued, List.append_nil, List.append_nil, List.append_nil]
      rfl
    · exact h.calls_delivered htoCall hlist

/-! ## The other steps -/

/-- While other code can act, nothing that a drain has put back waits behind it. -/
theorem running_of_free (hfree : c.free = true) (hqueued : c.queued ≠ []) : c.running ≠ [] := by
  intro hrunning
  unfold free at hfree
  rw [hrunning] at hfree
  apply hqueued
  unfold queued
  cases hdraining : c.draining with
  | none => rfl
  | some queued =>
    rw [hdraining] at hfree
    cases hfree

theorem Ordered.on (h : Ordered c) (hfree : c.free = true) : Ordered c.on := by
  obtain ⟨back, later, hpending, hmessages, hlater, hback⟩ := h.messages
  refine ⟨h.numbers, ⟨back, later, hpending, hmessages, hlater, fun hsome hqueued => ?_⟩, h.calls, h.pendingBytes,
    h.backlog, fun hsome _ => ?_⟩
  · exact absurd (hback hsome hqueued).1 (running_of_free hfree hqueued)
  · have hne : ¬ c.pending.isEmpty = true := fun hempty => hsome (List.isEmpty_iff.mp hempty)
    show 0 < if c.pending.isEmpty then c.microtasks else c.microtasks + 1
    rw [if_neg hne]
    exact Nat.succ_pos _

theorem Ordered.removeListener (h : Ordered c) (listener : Nat) (hfree : c.free = true) :
    Ordered (c.removeListener listener) := by
  obtain ⟨back, later, hpending, hmessages, hlater, hback⟩ := h.messages
  refine ⟨h.numbers, ⟨back, later, hpending, hmessages, hlater, fun hsome hqueued => ?_⟩, h.calls, h.pendingBytes,
    h.backlog, fun hsome hlisteners => h.drains hsome fun hnone => hlisteners ?_⟩
  · exact absurd (hback hsome hqueued).1 (running_of_free hfree hqueued)
  · show c.listeners.erase listener = []
    rw [hnone]
    rfl

/-- A drain begins; it takes over the whole backlog. -/
theorem Ordered.drain (h : Ordered c) (hdraining : c.draining = none) : Ordered c.drain := by
  obtain ⟨back, later, hpending, hmessages, hlater, -⟩ := h.messages
  have hqueued : c.queued = [] := by
    unfold queued
    rw [hdraining]
    rfl
  refine ⟨h.numbers, ⟨[], [], rfl, ?_, fun _ => rfl, fun hsome => absurd rfl hsome⟩, h.calls, rfl, ?_,
    fun hsome => absurd rfl hsome⟩
  · show c.deliveries.map Prod.fst ++ [] ++ c.pending ++ [] = c.emitted
    rw [hqueued, hlater hqueued, List.append_nil, List.append_nil] at hmessages
    rw [hpending, hlater hqueued, List.append_nil, List.append_nil, List.append_nil, hmessages]
  · have hbacklog := h.backlog
    rw [hqueued, List.append_nil] at hbacklog
    exact hbacklog

/-- A running emission calls its next listener, or ends. -/
theorem Ordered.running (h : Ordered c) {a : Activation} {rest : List Activation} (hrunning : c.running = a :: rest)
    {calls : List (Nat × Emission)} {running : List Activation}
    (hcalls : c.calls ++ c.toCall = calls ++ running.flatMap Activation.toCall) :
    Ordered { c with calls, running } := by
  obtain ⟨back, later, hpending, hmessages, hlater, hback⟩ := h.messages
  refine ⟨h.numbers, ⟨back, later, hpending, hmessages, hlater, fun hsome hqueued => ?_⟩, hcalls.symm.trans h.calls,
    h.pendingBytes, h.backlog, h.drains⟩
  have hnone := (hback hsome hqueued).1
  rw [hrunning] at hnone
  cases hnone

/-- The loop of a drain emits the next message. -/
theorem Ordered.drained (h : Ordered c) {queued : List Emission} (hrunning : c.running = [])
    (hdraining : c.draining = some (e :: queued)) (hundisturbed : Undisturbed .resume c) :
    Ordered (emit e { c with draining := some queued }) := by
  obtain ⟨back, later, hpending, hmessages, -, hback⟩ := h.messages
  have hqueued : c.queued = e :: queued := by
    unfold BufferedChannel.queued
    rw [hdraining]
    rfl
  have hne : c.queued ≠ [] := by
    rw [hqueued]
    exact List.cons_ne_nil _ _
  have htoCall : c.toCall = [] := by
    unfold toCall
    rw [hrunning]
    rfl
  have hbacklog := h.backlog
  rw [hqueued, totalBytes_append, totalBytes_cons] at hbacklog
  rw [hqueued] at hmessages
  by_cases hlisteners : c.listeners = []
  · have hbytes : c.pendingBytes + e.bytes.length ≤ maxPendingBytes := by
      rw [h.pendingBytes]
      omega
    have hlater : later = [] := by
      apply List.eq_nil_iff_forall_not_mem.mpr
      intro e' hmem
      have holder : e'.number < e.number := by
        apply hundisturbed hrunning hlisteners e
        · rw [hqueued]
          rfl
        · rw [hpending]
          exact List.mem_append_right _ hmem
      have hsplit : c.emitted = c.deliveries.map Prod.fst ++ back ++ e :: (queued ++ later) := by
        rw [← hmessages, List.append_assoc _ (e :: queued)]
        rfl
      have hnewer := h.number_lt hsplit (List.mem_append_right _ hmem)
      omega
    rw [emit_buffers (c := { c with draining := some queued }) hlisteners hbytes]
    refine ⟨h.numbers, ⟨back ++ [e], [], ?_, ?_, fun _ => rfl, fun _ _ => ⟨hrunning, hlisteners⟩⟩, h.calls, ?_, ?_,
      fun _ hsome => absurd hlisteners hsome⟩
    · show c.pending ++ [e] = _
      rw [hpending, hlater, List.append_nil, List.append_nil]
    · show c.deliveries.map Prod.fst ++ (back ++ [e]) ++ queued ++ [] = c.emitted
      rw [hlater] at hmessages
      rw [← hmessages]
      simp only [List.append_assoc, List.singleton_append, List.append_nil]
    · show c.pendingBytes + e.bytes.length = totalBytes (c.pending ++ [e])
      rw [totalBytes_append, ← h.pendingBytes]
      rfl
    · show totalBytes ((c.pending ++ [e]) ++ queued) ≤ _
      rw [totalBytes_append, totalBytes_append, totalBytes_cons, totalBytes_nil]
      omega
  · obtain rfl : back = [] := by
      by_contra hsome
      exact hlisteners (hback hsome hne).2
    obtain ⟨listener, listeners, hlist, hemit⟩ := emit_delivers (c := { c with draining := some queued }) (e := e) hlisteners
    rw [hemit]
    refine ⟨h.numbers, ?_, ?_, h.pendingBytes, ?_, h.drains⟩
    · by_cases hrest : queued = []
      · refine ⟨later, [], ?_, ?_, fun _ => rfl, fun _ hsome => absurd hrest hsome⟩
        · show c.pending = _
          rw [hpending, List.nil_append, List.append_nil]
        · show (c.deliveries ++ [(e, c.listeners)]).map Prod.fst ++ later ++ queued ++ [] = c.emitted
          rw [hrest] at hmessages
          rw [← hmessages, hrest, List.map_append]
          simp only [List.append_nil, List.append_assoc, List.map_cons, List.map_nil]
      · refine ⟨[], later, hpending, ?_, fun hnone => absurd hnone hrest, fun hsome => absurd rfl hsome⟩
        show (c.deliveries ++ [(e, c.listeners)]).map Prod.fst ++ [] ++ queued ++ later = c.emitted
        rw [← hmessages, List.map_append]
        simp only [List.append_nil, List.append_assoc, List.map_cons, List.map_nil, List.singleton_append]
    · exact h.calls_delivered htoCall hlist
    · show totalBytes (c.pending ++ queued) ≤ _
      rw [totalBytes_append]
      omega

/-- The loop of a drain ends. -/
theorem Ordered.drainEnds (h : Ordered c) (hdraining : c.draining = some []) : Ordered { c with draining := none } := by
  have hqueued : c.queued = [] := by
    unfold queued
    rw [hdraining]
    rfl
  obtain ⟨back, later, hpending, hmessages, hlater, hback⟩ := h.messages
  have hbacklog := h.backlog
  rw [hqueued] at hmessages hlater hback hbacklog
  exact ⟨h.numbers, ⟨back, later, hpending, hmessages, hlater, hback⟩, h.calls, h.pendingBytes, hbacklog, h.drains⟩

theorem Ordered.resume (h : Ordered c) (hundisturbed : Undisturbed .resume c) (hstep : c.resume = some c') :
    Ordered c' := by
  unfold BufferedChannel.resume at hstep
  split at hstep
  case h_1 e listener listeners rest hrunning =>
    obtain rfl := Option.some.inj hstep
    apply h.running hrunning
    unfold toCall
    rw [hrunning, List.flatMap_cons, List.flatMap_cons, List.append_assoc]
    rfl
  case h_2 e rest hrunning =>
    obtain rfl := Option.some.inj hstep
    apply h.running hrunning
    unfold toCall
    rw [hrunning, List.flatMap_cons]
    rfl
  case h_3 rest hrunning =>
    obtain rfl := Option.some.inj hstep
    apply h.running hrunning
    unfold toCall
    rw [hrunning, List.flatMap_cons]
    rfl
  case h_4 e queued hrunning hdraining =>
    obtain rfl := Option.some.inj hstep
    exact h.drained hrunning hdraining hundisturbed
  case h_5 hrunning hdraining =>
    obtain rfl := Option.some.inj hstep
    exact h.drainEnds hdraining
  case h_6 => cases hstep

theorem Ordered.step (h : Ordered c) {event : ChannelEvent} (hwithin : WithinBacklog event c)
    (hundisturbed : Undisturbed event c) (hstep : step event c = some c') : Ordered c' := by
  cases event with
  | emit bytes =>
    simp only [BufferedChannel.step, Option.ite_none_right_eq_some, Option.some.injEq] at hstep
    obtain ⟨-, rfl⟩ := hstep
    exact h.emitted hwithin hundisturbed
  | on =>
    simp only [BufferedChannel.step, Option.ite_none_right_eq_some, Option.some.injEq] at hstep
    obtain ⟨hfree, rfl⟩ := hstep
    exact h.on hfree
  | removeListener listener =>
    simp only [BufferedChannel.step, Option.ite_none_right_eq_some, Option.some.injEq] at hstep
    obtain ⟨hfree, rfl⟩ := hstep
    exact h.removeListener listener hfree
  | resume => exact h.resume hundisturbed hstep
  | microtask =>
    simp only [BufferedChannel.step, Option.ite_none_right_eq_some, Option.some.injEq] at hstep
    obtain ⟨⟨-, hdraining, -⟩, rfl⟩ := hstep
    exact h.drain hdraining

theorem Ordered.empty : Ordered {} :=
  ⟨rfl, ⟨[], [], rfl, rfl, fun _ => rfl, fun hsome => absurd rfl hsome⟩, rfl, rfl, Nat.zero_le _,
    fun hsome => absurd rfl hsome⟩

theorem Ordered.inOrder (h : Ordered c) : InOrder c where
  deliveries := by
    obtain ⟨back, later, -, hmessages, -⟩ := h.messages
    rw [← hmessages, List.append_assoc, List.append_assoc]
    exact List.prefix_append _ _
  calls := by
    rw [← h.calls]
    exact List.prefix_append _ _
  settled hrunning hdraining hmicrotasks hlisteners := by
    have hpending : c.pending = [] := by
      by_contra hsome
      have hdrains := h.drains hsome hlisteners
      omega
    have htoCall : c.toCall = [] := by
      unfold toCall
      rw [hrunning]
      rfl
    have hqueued : c.queued = [] := by
      unfold queued
      rw [hdraining]
      rfl
    obtain ⟨back, later, hsplit, hmessages, -⟩ := h.messages
    obtain ⟨rfl, rfl⟩ := List.append_eq_nil_iff.mp (hsplit.symm.trans hpending)
    have hcalls := h.calls
    rw [htoCall, List.append_nil] at hcalls
    rw [hqueued, List.append_nil, List.append_nil, List.append_nil] at hmessages
    exact ⟨hmessages, hcalls⟩

/-- The messages are seen in order as long as none comes between a listener and the backlog that waits
for it. -/
theorem data_in_order (h : system.ReachUnder (fun e c ↦ WithinBacklog e c ∧ Undisturbed e c) {} c) : InOrder c := by
  have hordered : Ordered c := by
    refine h.invariant .empty fun e c a c' hc hok hstep ↦ ?_
    obtain ⟨c'', hnext, heq⟩ := Option.map_eq_some_iff.mp hstep
    obtain rfl : c'' = c' := congrArg Prod.snd heq
    exact hc.step hok.1 hok.2 hnext
  exact hordered.inOrder

section

instance (e : ChannelEvent) (c : BufferedChannel) : Decidable (WithinBacklog e c) :=
  match e with
  | .emit bytes =>
    inferInstanceAs (Decidable (c.listeners = [] →
      totalBytes (c.pending ++ c.queued) + bytes.length ≤ maxPendingBytes))
  | .on | .removeListener _ | .resume | .microtask => isTrue trivial

instance (e : ChannelEvent) (c : BufferedChannel) : Decidable (Undisturbed e c) :=
  match e with
  | .emit _ => inferInstanceAs (Decidable (c.listeners ≠ [] → c.pending = [] ∧ c.queued = [] ∧ c.toCall = []))
  | .resume =>
    inferInstanceAs (Decidable (c.running = [] → c.listeners = [] →
      ∀ e ∈ c.queued.head?, ∀ e' ∈ c.pending, e'.number < e.number))
  | .on | .removeListener _ | .microtask => isTrue trivial

/-- A handshake takes the first message of a backlog; the session that it makes takes the others. -/
theorem data_in_order_handshake : ∃ c : BufferedChannel, InOrder c ∧
    c.calls.map Prod.snd = [⟨0, [1]⟩, ⟨1, [2]⟩] := by
  have hrun : (system.runUnder (fun e c ↦ WithinBacklog e c ∧ Undisturbed e c) {}
      [.emit [1], .emit [2], .on, .microtask, .resume, .removeListener 0, .on, .resume, .resume, .resume, .resume]).any
      (fun c ↦ decide (c.calls.map Prod.snd = [⟨0, [1]⟩, ⟨1, [2]⟩])) = true := by
    decide
  obtain ⟨c, hc, hend⟩ := (Option.any_eq_true _ _).mp hrun
  exact ⟨c, data_in_order (System.runUnder_reach hc), of_decide_eq_true hend⟩

/-- A second message comes after the listener and before the microtask: it overtakes the first. -/
theorem data_overtaken : ∃ c, system.ReachUnder WithinBacklog {} c ∧ ¬ InOrder c := by
  have hrun : (system.runUnder WithinBacklog {} [.emit [1], .on, .emit [2]]).any
      (fun c ↦ !decide (c.deliveries.map Prod.fst <+: c.emitted)) = true := by
    decide
  obtain ⟨c, hc, hend⟩ := (Option.any_eq_true _ _).mp hrun
  refine ⟨c, System.runUnder_reach hc, fun h ↦ ?_⟩
  rw [decide_eq_true h.deliveries] at hend
  cases hend

end

end BufferedChannel

end RabiRoute.PeerTunnel
