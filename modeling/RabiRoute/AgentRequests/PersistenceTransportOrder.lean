import RabiRoute.AgentRequests.PersistenceTransport

/-!
# The transport loses and reorders nothing

Each direction has at most one frame between its posting and its acknowledgement, and `Stage` says where that frame is
and what both ends hold meanwhile.  An event moves the frame of one direction on by one stage and leaves the other
direction alone, so the stages that are left bound what the transport can still do by itself.
-/

namespace RabiRoute.PersistenceTransport

open Collections Transitions

variable {V : Type} {v8 : V8 V} {o : Outgoing V} {i : Incoming V} {f : Flight} {frames : List Frame}
  {acks : List (JsString × Nat)}

/-! ## Where the frame of a direction is -/

/-- The first `n` frames of the value have been received. -/
def Holds (f : Flight) (n : Nat) (incoming : InsertionMap JsString Receiver) : Prop :=
  n = 0 ∧ incoming.entries = [] ∨
    0 < n ∧ ∃ chunks, incoming.entries = [(f.id, ⟨n, chunks⟩)] ∧ chunks.flatten = f.bytes.take (chunkSize * n)

/-- The frame itself has been received. -/
def HoldsAfter (f : Flight) (incoming : InsertionMap JsString Receiver) : Prop :=
  if f.frame.last then incoming.entries = [] else Holds f (f.sequence + 1) incoming

/-- `sendValue` runs for the first call that has not settled. -/
structure Sending (v8 : V8 V) (o : Outgoing V) (f : Flight) (v : V) : Prop where
  current : o.current = some f
  call : o.sends[o.outcomes.length]? = some (f.id, v)
  bytes : f.bytes = v8.serialize v
  offset : f.offset = chunkSize * f.sequence
  inside : f.offset < f.bytes.length

inductive Stage (v8 : V8 V) (o : Outgoing V) (i : Incoming V) : List Frame → List (JsString × Nat) → Prop where
  | idle : o.current = none → o.acknowledgements.entries = [] → i.incoming.entries = [] → i.yielding = [] →
      i.values = o.sends.take o.outcomes.length → Stage v8 o i [] []
  | flying (f : Flight) (v : V) : Sending v8 o f v → f.acknowledged = false →
      o.acknowledgements.entries = [(ackKey f.id f.sequence, f.waiter)] → Holds f f.sequence i.incoming →
      i.yielding = [] → i.values = o.sends.take o.outcomes.length → Stage v8 o i [f.frame] []
  | received (f : Flight) (v : V) : Sending v8 o f v → f.acknowledged = false →
      o.acknowledgements.entries = [(ackKey f.id f.sequence, f.waiter)] → HoldsAfter f i.incoming →
      i.yielding = [(f.frame, if f.frame.last then some v else none)] →
      i.values = o.sends.take o.outcomes.length → Stage v8 o i [] []
  | acked (f : Flight) (v : V) : Sending v8 o f v → f.acknowledged = false →
      o.acknowledgements.entries = [(ackKey f.id f.sequence, f.waiter)] → HoldsAfter f i.incoming →
      i.yielding = [] → i.values = o.sends.take (o.outcomes.length + if f.frame.last then 1 else 0) →
      Stage v8 o i [] [(f.id, f.sequence)]
  | resumed (f : Flight) (v : V) : Sending v8 o f v → f.acknowledged = true → o.acknowledgements.entries = [] →
      HoldsAfter f i.incoming → i.yielding = [] →
      i.values = o.sends.take (o.outcomes.length + if f.frame.last then 1 else 0) → Stage v8 o i [] []

/-- One direction: its sender, its receiver, and what is on the way between them. -/
structure Direction (v8 : V8 V) (o : Outgoing V) (i : Incoming V) (frames : List Frame)
    (acks : List (JsString × Nat)) : Prop where
  stage : Stage v8 o i frames acks
  resolved : ∀ outcome ∈ o.outcomes, outcome = .resolved
  settled : o.outcomes.length ≤ o.sends.length
  errors : i.errors = 0
  fits : ∀ call ∈ o.sends, Fits v8 call.1

/-! ## What is left to do -/

def frameCount (bytes : Bytes) : Nat := (bytes.length + (chunkSize - 1)) / chunkSize

/-- Five stages for each frame that is not finished. -/
def Flight.left (f : Flight) (i : Incoming V) (acks : List (JsString × Nat)) : Nat :=
  5 * (frameCount f.bytes - f.sequence) -
    if f.acknowledged then 3 else if acks ≠ [] then 2 else if i.yielding ≠ [] then 1 else 0

def callWeight (v8 : V8 V) (call : JsString × V) : Nat := 5 * frameCount (v8.serialize call.2) + 1

/-- The calls whose `sendValue` has not started. -/
def Outgoing.waiting (o : Outgoing V) : List (JsString × V) :=
  o.sends.drop (o.outcomes.length + if o.current.isSome then 1 else 0)

def left (v8 : V8 V) (o : Outgoing V) (i : Incoming V) (acks : List (JsString × Nat)) : Nat :=
  (o.waiting.map (callWeight v8)).sum + o.current.elim 0 fun f ↦ f.left i acks

theorem left_free (h : o.current = none) :
    left v8 o i acks = ((o.sends.drop o.outcomes.length).map (callWeight v8)).sum := by
  unfold left Outgoing.waiting
  rw [h]
  rfl

theorem left_busy (h : o.current = some f) :
    left v8 o i acks = ((o.sends.drop (o.outcomes.length + 1)).map (callWeight v8)).sum + f.left i acks := by
  unfold left Outgoing.waiting
  rw [h]
  rfl

theorem Flight.left_resumed (h : f.acknowledged = true) :
    f.left i acks = 5 * (frameCount f.bytes - f.sequence) - 3 := by
  unfold Flight.left
  rw [if_pos h]

theorem Flight.left_acked (h : f.acknowledged = false) (ack : JsString × Nat) :
    f.left i (ack :: acks) = 5 * (frameCount f.bytes - f.sequence) - 2 := by
  unfold Flight.left
  rw [h, if_neg Bool.false_ne_true, if_pos (List.cons_ne_nil _ _)]

theorem Flight.left_received (h : f.acknowledged = false) (hyielding : i.yielding ≠ []) :
    f.left i [] = 5 * (frameCount f.bytes - f.sequence) - 1 := by
  unfold Flight.left
  rw [h, if_neg Bool.false_ne_true, if_neg (fun hne => hne rfl), if_pos hyielding]

theorem Flight.left_flying (h : f.acknowledged = false) (hyielding : i.yielding = []) :
    f.left i [] = 5 * (frameCount f.bytes - f.sequence) := by
  unfold Flight.left
  rw [h, if_neg Bool.false_ne_true, if_neg (fun hne => hne rfl), if_neg (fun hne => hne hyielding), Nat.sub_zero]

/-! ## Frames -/

theorem sequence_lt {v : V} (h : Sending v8 o f v) : f.sequence < frameCount f.bytes := by
  have hinside := h.inside
  rw [h.offset] at hinside
  unfold frameCount
  unfold chunkSize at hinside ⊢
  omega

theorem sequence_safe {v : V} (h : Sending v8 o f v) : f.sequence < 2 ^ 53 := by
  have hinside := h.inside
  have hbounded := v8.bounded v
  rw [h.offset, h.bytes] at hinside
  unfold chunkSize at hinside
  omega

theorem last_iff {v : V} (h : Sending v8 o f v) : f.frame.last = true ↔ f.sequence + 1 = frameCount f.bytes := by
  have hinside := h.inside
  show decide (f.bytes.length ≤ f.offset + chunkSize) = true ↔ _
  rw [decide_eq_true_iff]
  rw [h.offset] at hinside ⊢
  unfold frameCount
  unfold chunkSize at hinside ⊢
  omega

theorem frame_fits {v : V} (h : Sending v8 o f v) (hfits : ∀ call ∈ o.sends, Fits v8 call.1) :
    ¬ wireBound < v8.frameSize f.frame + 4 := by
  have hfit : Fits v8 f.id := hfits (f.id, v) (List.mem_of_getElem? h.call)
  exact Nat.not_lt.mpr (hfit _ _ _ (sequence_safe h) (List.length_take_le _ _))

/-- The bytes up to and with this frame. -/
theorem take_frame {v : V} (h : Sending v8 o f v) :
    f.bytes.take (chunkSize * f.sequence) ++ f.frame.bytes = f.bytes.take (chunkSize * (f.sequence + 1)) := by
  show f.bytes.take (chunkSize * f.sequence) ++ (f.bytes.drop f.offset).take chunkSize = _
  rw [h.offset, Nat.mul_succ, List.take_add]

theorem take_last {v : V} (h : Sending v8 o f v) (hlast : f.frame.last = true) :
    f.bytes.take (chunkSize * (f.sequence + 1)) = f.bytes := by
  have hle : f.bytes.length ≤ f.offset + chunkSize := of_decide_eq_true hlast
  apply List.take_of_length_le
  rw [Nat.mul_succ, ← h.offset]
  exact hle

/-! ## What is on the way -/

def Message.frame? : Message → Option Frame
  | .value frame => some frame
  | .ack _ _ => none

def Message.ack? : Message → Option (JsString × Nat)
  | .value _ => none
  | .ack id sequence => some (id, sequence)

def framesOf (messages : List Message) : List Frame := messages.filterMap Message.frame?

def acksOf (messages : List Message) : List (JsString × Nat) := messages.filterMap Message.ack?

theorem framesOf_append (a b : List Message) : framesOf (a ++ b) = framesOf a ++ framesOf b := List.filterMap_append

theorem acksOf_append (a b : List Message) : acksOf (a ++ b) = acksOf a ++ acksOf b := List.filterMap_append

/-! ## A call of `send` -/

theorem take_snoc {calls : List (JsString × V)} {call : JsString × V} {n : Nat} (h : n ≤ calls.length) :
    (calls ++ [call]).take n = calls.take n := List.take_append_of_le_length h

theorem Sending.snoc {v : V} (h : Sending v8 o f v) (call : JsString × V) :
    Sending v8 { o with sends := o.sends ++ [call] } f v := by
  refine ⟨h.current, ?_, h.bytes, h.offset, h.inside⟩
  show (o.sends ++ [call])[o.outcomes.length]? = _
  rw [List.getElem?_append_left (List.getElem?_eq_some_iff.mp h.call).1, h.call]

theorem Sending.length_lt {v : V} (h : Sending v8 o f v) : o.outcomes.length < o.sends.length :=
  (List.getElem?_eq_some_iff.mp h.call).1

theorem Sending.take_snoc {v : V} (h : Sending v8 o f v) (call : JsString × V) (last : Bool) :
    (o.sends ++ [call]).take (o.outcomes.length + if last then 1 else 0) =
      o.sends.take (o.outcomes.length + if last then 1 else 0) := by
  have hlt := h.length_lt
  apply PersistenceTransport.take_snoc
  split <;> omega

theorem Direction.send (h : Direction v8 o i frames acks) {id : JsString} (value : V) (hfits : Fits v8 id) :
    Direction v8 { o with sends := o.sends ++ [(id, value)] } i frames acks := by
  refine ⟨?_, h.resolved, ?_, h.errors, ?_⟩
  · cases h.stage with
    | idle hcurrent hacks hincoming hyielding hvalues =>
      exact .idle hcurrent hacks hincoming hyielding (by rw [hvalues]; exact (take_snoc h.settled).symm)
    | flying f v hs hack hacks hholds hyielding hvalues =>
      exact .flying f v (hs.snoc _) hack hacks hholds hyielding
        (by rw [hvalues]; exact (take_snoc h.settled).symm)
    | received f v hs hack hacks hholds hyielding hvalues =>
      exact .received f v (hs.snoc _) hack hacks hholds hyielding
        (by rw [hvalues]; exact (take_snoc h.settled).symm)
    | acked f v hs hack hacks hholds hyielding hvalues =>
      exact .acked f v (hs.snoc _) hack hacks hholds hyielding
        (by rw [hvalues]; exact (hs.take_snoc _ _).symm)
    | resumed f v hs hack hacks hholds hyielding hvalues =>
      exact .resumed f v (hs.snoc _) hack hacks hholds hyielding
        (by rw [hvalues]; exact (hs.take_snoc _ _).symm)
  · show _ ≤ (o.sends ++ [(id, value)]).length
    rw [List.length_append]
    exact Nat.le_trans h.settled (Nat.le_add_right _ _)
  · intro call hcall
    rcases List.mem_append.mp hcall with hold | hnew
    · exact h.fits call hold
    · rw [List.mem_singleton.mp hnew]
      exact hfits

/-! ## The sender goes on -/

theorem entries_set_empty {κ α : Type} [DecidableEq κ] {m : InsertionMap κ α} (h : m.entries = []) (k : κ) (a : α) :
    (m.set k a).entries = [(k, a)] := by
  show InsertionMap.setEntries k a m.entries = _
  rw [h]
  rfl

theorem entries_set_single {κ α : Type} [DecidableEq κ] {m : InsertionMap κ α} {k : κ} {b : α}
    (h : m.entries = [(k, b)]) (a : α) : (m.set k a).entries = [(k, a)] := by
  show InsertionMap.setEntries k a m.entries = _
  rw [h]
  unfold InsertionMap.setEntries
  rw [if_pos (by simp)]
  simp

theorem entries_erase_single {κ α : Type} [DecidableEq κ] {m : InsertionMap κ α} {k : κ} {b : α}
    (h : m.entries = [(k, b)]) : (m.erase k).entries = [] := by
  show m.entries.filter _ = _
  rw [h]
  simp

theorem get?_single {κ α : Type} [DecidableEq κ] {m : InsertionMap κ α} {k : κ} {b : α} (h : m.entries = [(k, b)]) :
    m.get? k = some b :=
  InsertionMap.get?_eq_some.mpr (by rw [h]; exact List.mem_singleton_self _)

theorem get?_nothing {κ α : Type} [DecidableEq κ] {m : InsertionMap κ α} (h : m.entries = []) (k : κ) :
    m.get? k = none :=
  InsertionMap.get?_eq_none.mpr fun a ha => by rw [h] at ha; cases ha

/-- The next frame is posted. -/
theorem Direction.loop_inside {v : V} (h : Direction v8 o i frames acks)
    (hcall : o.sends[o.outcomes.length]? = some (f.id, v)) (hbytes : f.bytes = v8.serialize v)
    (hoffset : f.offset = chunkSize * f.sequence) (hinside : f.offset < f.bytes.length)
    (hacks : o.acknowledgements.entries = []) (hholds : Holds f f.sequence i.incoming) (hyielding : i.yielding = [])
    (hvalues : i.values = o.sends.take o.outcomes.length) :
    ∃ frame o', o.loop v8 f = ([.value frame], o') ∧ Direction v8 o' i [frame] [] ∧
      left v8 o' i [] = ((o.sends.drop (o.outcomes.length + 1)).map (callWeight v8)).sum +
        5 * (frameCount f.bytes - f.sequence) := by
  have hfit : ¬ wireBound < v8.frameSize f.frame + 4 := by
    have hs : Sending v8 { o with current := some f } f v := ⟨rfl, hcall, hbytes, hoffset, hinside⟩
    exact frame_fits hs h.fits
  refine ⟨f.frame, _, by rw [Outgoing.loop, if_pos hinside, if_neg hfit], ?_, ?_⟩
  rotate_left
  · rw [left_busy rfl, Flight.left_flying rfl hyielding]
  refine ⟨?_, h.resolved, h.settled, h.errors, h.fits⟩
  exact .flying { f with waiter := o.waiters, acknowledged := false } v ⟨rfl, hcall, hbytes, hoffset, hinside⟩ rfl
    (entries_set_empty hacks _ _) hholds hyielding hvalues

theorem drop_of_call {calls : List (JsString × V)} {n : Nat} {call : JsString × V} (h : calls[n]? = some call) :
    calls.drop n = call :: calls.drop (n + 1) := by
  obtain ⟨hn, rfl⟩ := List.getElem?_eq_some_iff.mp h
  exact List.drop_eq_getElem_cons hn

theorem Direction.begin {ms : List Message} {o' : Outgoing V} (h : Direction v8 o i frames acks)
    (hb : o.begin v8 = some (ms, o')) :
    Direction v8 o' i (frames ++ framesOf ms) acks ∧ acksOf ms = [] ∧ left v8 o' i acks < left v8 o i acks := by
  unfold Outgoing.begin at hb
  split at hb
  case isTrue => cases hb
  case isFalse hnone =>
    obtain ⟨⟨id, v⟩, hcall, hloop⟩ := Option.map_eq_some_iff.mp hb
    have hbusy : ∀ f v, ¬ Sending v8 o f v := by
      intro f v hs
      rw [hs.current] at hnone
      exact hnone rfl
    cases h.stage with
    | idle hcurrent hacks hincoming hyielding hvalues =>
      have hinside : 0 < (v8.serialize v).length := List.length_pos_iff.mpr (v8.nonempty v)
      obtain ⟨frame, o'', hloop', hdir, hleft⟩ :=
        h.loop_inside (f := { id, bytes := v8.serialize v, offset := 0, sequence := 0 }) hcall rfl rfl hinside hacks
          (.inl ⟨rfl, hincoming⟩) hyielding hvalues
      rw [hloop'] at hloop
      cases hloop
      refine ⟨hdir, rfl, ?_⟩
      rw [hleft, left_free hcurrent, drop_of_call hcall, List.map_cons, List.sum_cons]
      show _ + 5 * (frameCount (v8.serialize v) - 0) < 5 * frameCount (v8.serialize v) + 1 + _
      omega
    | flying f v hs => exact absurd hs (hbusy f v)
    | received f v hs => exact absurd hs (hbusy f v)
    | acked f v hs => exact absurd hs (hbusy f v)
    | resumed f v hs => exact absurd hs (hbusy f v)

theorem mem_snoc_resolved {outcomes : List Outcome} (h : ∀ outcome ∈ outcomes, outcome = .resolved) :
    ∀ outcome ∈ outcomes ++ [Outcome.resolved], outcome = .resolved := by
  intro outcome hmem
  rcases List.mem_append.mp hmem with hold | hnew
  · exact h outcome hold
  · exact List.mem_singleton.mp hnew

theorem Direction.resume {ms : List Message} {o' : Outgoing V} (h : Direction v8 o i frames acks)
    (hb : o.resume v8 = some (ms, o')) :
    Direction v8 o' i (frames ++ framesOf ms) acks ∧ acksOf ms = [] ∧ left v8 o' i acks < left v8 o i acks := by
  unfold Outgoing.resume at hb
  obtain ⟨f, hf, hloop⟩ := Option.bind_eq_some_iff.mp hb
  split at hloop
  case isFalse => cases hloop
  case isTrue hacknowledged =>
    have hopen : ∀ g v, Sending v8 o g v → g.acknowledged = false → False := by
      intro g v hs hg
      have heq := hs.current.symm.trans hf
      cases heq
      rw [hacknowledged] at hg
      cases hg
    cases h.stage with
    | idle hcurrent =>
      rw [hcurrent] at hf
      cases hf
    | flying g v hs hg => exact absurd hg fun hg => hopen g v hs hg
    | received g v hs hg => exact absurd hg fun hg => hopen g v hs hg
    | acked g v hs hg => exact absurd hg fun hg => hopen g v hs hg
    | resumed g v hs hg hacks hholds hyielding hvalues =>
      have heq := hs.current.symm.trans hf
      cases heq
      have hsequence := sequence_lt hs
      rw [left_busy hs.current, Flight.left_resumed hg]
      by_cases hinside : f.offset + chunkSize < f.bytes.length
      · have hnotLast : f.frame.last = false := decide_eq_false (Nat.not_le.mpr hinside)
        have hnext : f.sequence + 1 < frameCount f.bytes := by
          have hne : ¬ f.sequence + 1 = frameCount f.bytes := by
            rw [← last_iff hs, hnotLast]
            exact Bool.false_ne_true
          omega
        rw [HoldsAfter, hnotLast, if_neg Bool.false_ne_true] at hholds
        rw [hnotLast] at hvalues
        obtain ⟨frame, o'', hloop', hdir, hleft⟩ :=
          h.loop_inside (f := { f with offset := f.offset + chunkSize, sequence := f.sequence + 1 }) hs.call hs.bytes
            (by rw [Nat.mul_succ, ← hs.offset]) hinside hacks hholds hyielding hvalues
        rw [hloop'] at hloop
        cases hloop
        refine ⟨hdir, rfl, ?_⟩
        rw [hleft]
        show _ + 5 * (frameCount f.bytes - (f.sequence + 1)) < _
        omega
      · have hlast : f.frame.last = true := decide_eq_true (Nat.not_lt.mp hinside)
        rw [HoldsAfter, if_pos hlast] at hholds
        rw [hlast, if_pos rfl] at hvalues
        rw [Outgoing.loop, if_neg hinside] at hloop
        cases hloop
        have hlength : (o.outcomes ++ [Outcome.resolved]).length = o.outcomes.length + 1 := List.length_append
        refine ⟨⟨.idle rfl hacks hholds hyielding ?_, mem_snoc_resolved h.resolved, ?_, h.errors, h.fits⟩, rfl, ?_⟩
        · rw [hvalues]
          exact congrArg (fun n => o.sends.take n) hlength.symm
        · show (o.outcomes ++ [Outcome.resolved]).length ≤ _
          rw [hlength]
          exact hs.length_lt
        · rw [left_free rfl]
          show ((o.sends.drop (o.outcomes ++ [Outcome.resolved]).length).map _).sum < _
          rw [hlength]
          omega

/-- The acknowledgement of the frame reaches its sender. -/
theorem Direction.receiveAck {id : JsString} {sequence : Nat} (h : Direction v8 o i frames ((id, sequence) :: acks)) :
    Direction v8 (o.receiveAck id sequence) i frames acks ∧
      left v8 (o.receiveAck id sequence) i acks < left v8 o i ((id, sequence) :: acks) := by
  cases h.stage with
  | acked f v hs hack hacks hholds hyielding hvalues =>
    have heq : o.receiveAck f.id f.sequence = { o with
        acknowledgements := o.acknowledgements.erase (ackKey f.id f.sequence)
        current := some { f with acknowledged := true } } := by
      unfold Outgoing.receiveAck
      rw [get?_single hacks, hs.current]
      dsimp only
      rw [Option.map_some, if_pos rfl]
    have hsequence := sequence_lt hs
    rw [heq]
    refine ⟨⟨.resumed { f with acknowledged := true } v ⟨rfl, hs.call, hs.bytes, hs.offset, hs.inside⟩ rfl
      (entries_erase_single hacks) hholds hyielding hvalues, h.resolved, h.settled, h.errors, h.fits⟩, ?_⟩
    rw [left_busy rfl, left_busy hs.current, Flight.left_resumed rfl, Flight.left_acked hack]
    show ((o.sends.drop (o.outcomes.length + 1)).map _).sum + (5 * (frameCount f.bytes - f.sequence) - 3) < _
    omega

/-! ## The receiver goes on -/

theorem receive_eq {v : V} (h : Sending v8 o f v) (hfits : ∀ call ∈ o.sends, Fits v8 call.1)
    (hholds : Holds f f.sequence i.incoming) :
    ∃ incoming, HoldsAfter f incoming ∧ i.receive v8 f.frame = { i with
      incoming := incoming
      yielding := i.yielding ++ [(f.frame, if f.frame.last then some v else none)] } := by
  have hsafe : ¬ 2 ^ 53 ≤ f.frame.sequence := Nat.not_le.mpr (sequence_safe h)
  -- What the receiver has of the value already.
  have hreceiver : ∃ chunks, (i.incoming.get? f.frame.id).getD ⟨0, []⟩ = ⟨f.sequence, chunks⟩ ∧
      chunks.flatten = f.bytes.take (chunkSize * f.sequence) ∧
      ∀ r : Receiver, (i.incoming.set f.frame.id r).entries = [(f.id, r)] := by
    rcases hholds with ⟨hzero, hnone⟩ | ⟨-, chunks, hone, hflatten⟩
    · refine ⟨[], by rw [get?_nothing hnone, hzero]; rfl, ?_, fun r => entries_set_empty hnone _ r⟩
      rw [hzero, Nat.mul_zero]
      rfl
    · exact ⟨chunks, by rw [show f.frame.id = f.id from rfl, get?_single hone]; rfl, hflatten,
        fun r => entries_set_single hone r⟩
  obtain ⟨chunks, hget, hflatten, hset⟩ := hreceiver
  have hall : (chunks ++ [f.frame.bytes]).flatten = f.bytes.take (chunkSize * (f.sequence + 1)) := by
    rw [List.flatten_append, hflatten, List.flatten_singleton]
    exact take_frame h
  have hsame : ¬ f.frame.sequence ≠ f.sequence := fun hne => hne rfl
  unfold Incoming.receive
  rw [if_neg hsafe, if_neg (frame_fits h hfits), hget]
  dsimp only
  rw [if_neg hsame]
  by_cases hlast : f.frame.last = true
  · rw [if_pos hlast, hall, take_last h hlast, h.bytes, v8.deserialize_serialize]
    refine ⟨_, ?_, by rw [if_pos hlast]⟩
    rw [HoldsAfter, if_pos hlast]
    exact entries_erase_single (hset _)
  · rw [if_neg hlast]
    refine ⟨_, ?_, by rw [if_neg hlast]⟩
    rw [HoldsAfter, if_neg hlast]
    exact .inr ⟨Nat.succ_pos _, _, hset _, hall⟩

theorem Direction.receive {frame : Frame} (h : Direction v8 o i (frame :: frames) acks) :
    Direction v8 o (i.receive v8 frame) frames acks ∧
      left v8 o (i.receive v8 frame) acks < left v8 o i acks := by
  cases h.stage with
  | flying f v hs hack hacks hholds hyielding hvalues =>
    obtain ⟨incoming, hafter, heq⟩ := receive_eq hs h.fits hholds
    rw [hyielding, List.nil_append] at heq
    have hsequence := sequence_lt hs
    rw [heq]
    refine ⟨⟨.received f v hs hack hacks hafter rfl hvalues, h.resolved, h.settled, h.errors, h.fits⟩, ?_⟩
    rw [left_busy hs.current, left_busy hs.current, Flight.left_received hack (List.cons_ne_nil _ _),
      Flight.left_flying hack hyielding]
    omega

theorem Direction.yielded {m : Message} {i' : Incoming V} (h : Direction v8 o i frames acks)
    (hy : i.yielded = some (m, i')) :
    framesOf [m] = [] ∧ Direction v8 o i' frames (acks ++ acksOf [m]) ∧
      left v8 o i' (acks ++ acksOf [m]) < left v8 o i acks := by
  have hnone : i.yielding = [] → False := by
    intro hnil
    unfold Incoming.yielded at hy
    rw [hnil] at hy
    cases hy
  cases h.stage with
  | idle _ _ _ hyielding => exact (hnone hyielding).elim
  | flying f v _ _ _ _ hyielding => exact (hnone hyielding).elim
  | acked f v _ _ _ _ hyielding => exact (hnone hyielding).elim
  | resumed f v _ _ _ _ hyielding => exact (hnone hyielding).elim
  | received f v hs hack hacks hholds hyielding hvalues =>
    unfold Incoming.yielded at hy
    rw [hyielding] at hy
    cases hy
    have hsequence := sequence_lt hs
    refine ⟨rfl, ⟨.acked f v hs hack hacks hholds rfl ?_, h.resolved, h.settled, h.errors, h.fits⟩, ?_⟩
    · dsimp only
      rw [hvalues]
      by_cases hlast : f.frame.last = true
      · rw [if_pos hlast, if_pos hlast, List.take_add_one, hs.call]
        rfl
      · rw [if_neg hlast, if_neg hlast]
        exact List.append_nil _
    · show left v8 o _ [(f.id, f.sequence)] < _
      rw [left_busy hs.current, left_busy hs.current, Flight.left_acked hack,
        Flight.left_received hack (by rw [hyielding]; exact List.cons_ne_nil _ _)]
      omega

/-! ## Both directions -/

theorem Peer.other_other (p : Peer) : p.other.other = p := by
  cases p <;> rfl

theorem Peer.other_ne (p : Peer) : p.other ≠ p := by
  cases p <;> decide

/-- What the direction from `p` consists of. -/
structure View (V : Type) where
  outgoing : Outgoing V
  incoming : Incoming V
  frames : List Frame
  acks : List (JsString × Nat)

def State.view (s : State V) (p : Peer) : View V :=
  ⟨s.outgoing p, s.incoming p.other, framesOf (s.port p.other), acksOf (s.port p)⟩

def View.Ok (v8 : V8 V) (w : View V) : Prop := Direction v8 w.outgoing w.incoming w.frames w.acks

def View.left (v8 : V8 V) (w : View V) : Nat := PersistenceTransport.left v8 w.outgoing w.incoming w.acks

def Inv (v8 : V8 V) (s : State V) : Prop := ∀ p, (s.view p).Ok v8

/-- The stages that are left in both directions. -/
def State.work (v8 : V8 V) (s : State V) : Nat := (s.view .host).left v8 + (s.view .worker).left v8

/-- An event that changes the direction from `p` only. -/
theorem Inv.change {s s' : State V} (h : Inv v8 s) (p : Peer) (hok : (s'.view p).Ok v8)
    (hother : s'.view p.other = s.view p.other) : Inv v8 s' := by
  intro q
  by_cases hq : q = p
  · rw [hq]
    exact hok
  · have hqp : q = p.other := by
      cases q <;> cases p
      · exact absurd rfl hq
      · rfl
      · rfl
      · exact absurd rfl hq
    rw [hqp, hother]
    exact h p.other

theorem work_lt {s s' : State V} (p : Peer) (hlt : (s'.view p).left v8 < (s.view p).left v8)
    (hother : s'.view p.other = s.view p.other) : s'.work v8 < s.work v8 := by
  unfold State.work
  cases p with
  | host =>
    rw [show s'.view .worker = s.view .worker from hother]
    omega
  | worker =>
    rw [show s'.view .host = s.view .host from hother]
    omega

theorem view_eq {s s' : State V} {q : Peer} (houtgoing : s'.outgoing q = s.outgoing q) (hincoming : s'.incoming q.other
    = s.incoming q.other) (hframes : framesOf (s'.port q.other) = framesOf (s.port q.other)) (hacks : acksOf (s'.port q)
    = acksOf (s.port q)) : s'.view q = s.view q := by
  unfold State.view
  rw [houtgoing, hincoming, hframes, hacks]

/-- `p` posts frames. -/
theorem view_posted (s : State V) (p : Peer) (o' : Outgoing V) {ms : List Message} (hms : acksOf ms = []) :
    ((s.setOutgoing p o').post p ms).view p =
        ⟨o', s.incoming p.other, framesOf (s.port p.other) ++ framesOf ms, acksOf (s.port p)⟩ ∧
      ((s.setOutgoing p o').post p ms).view p.other = s.view p.other := by
  constructor
  · unfold State.view State.post State.setOutgoing
    dsimp only
    rw [Function.update_self, Function.update_self, Function.update_of_ne p.other_ne.symm, framesOf_append]
  · apply view_eq
    · exact Function.update_of_ne p.other_ne _ _
    · rfl
    · show framesOf (Function.update s.port p.other (s.port p.other ++ ms) p.other.other) = _
      rw [p.other_other, Function.update_of_ne p.other_ne.symm]
    · show acksOf (Function.update s.port p.other (s.port p.other ++ ms) p.other) = _
      rw [Function.update_self, acksOf_append, hms, List.append_nil]

/-- A message has left the port of `p`. -/
theorem port_popped {s : State V} {p : Peer} {rest : List Message} :
    Function.update s.port p rest p = rest ∧ Function.update s.port p rest p.other = s.port p.other :=
  ⟨Function.update_self _ _ _, Function.update_of_ne p.other_ne _ _⟩

theorem Inv.deliver {s s' : State V} {p : Peer} (h : Inv v8 s) (hs : s.deliver v8 p = some s') :
    Inv v8 s' ∧ s'.work v8 < s.work v8 := by
  unfold State.deliver at hs
  split at hs
  case h_1 => cases hs
  case h_2 id sequence rest hport =>
    cases hs
    have hview : s.view p =
        ⟨s.outgoing p, s.incoming p.other, framesOf (s.port p.other), (id, sequence) :: acksOf rest⟩ := by
      unfold State.view
      rw [hport]
      rfl
    have hdir := h p
    rw [hview] at hdir
    obtain ⟨hok, hlt⟩ := Direction.receiveAck hdir
    have hnew : State.view { s with
        outgoing := Function.update s.outgoing p ((s.outgoing p).receiveAck id sequence)
        port := Function.update s.port p rest } p =
          ⟨(s.outgoing p).receiveAck id sequence, s.incoming p.other, framesOf (s.port p.other), acksOf rest⟩ := by
      unfold State.view
      dsimp only
      rw [Function.update_self, port_popped.1, port_popped.2]
    have hother : State.view { s with
        outgoing := Function.update s.outgoing p ((s.outgoing p).receiveAck id sequence)
        port := Function.update s.port p rest } p.other = s.view p.other := by
      apply view_eq
      · exact Function.update_of_ne p.other_ne _ _
      · rfl
      · dsimp only
        rw [p.other_other, port_popped.1, hport]
        rfl
      · exact congrArg acksOf port_popped.2
    refine ⟨h.change p ?_ hother, work_lt p ?_ hother⟩
    · rw [hnew]
      exact hok
    · rw [hnew, hview]
      exact hlt
  case h_3 frame rest hport =>
    cases hs
    have hview : s.view p.other =
        ⟨s.outgoing p.other, s.incoming p, frame :: framesOf rest, acksOf (s.port p.other)⟩ := by
      unfold State.view
      rw [p.other_other, hport]
      rfl
    have hdir := h p.other
    rw [hview] at hdir
    obtain ⟨hok, hlt⟩ := Direction.receive hdir
    have hnew : State.view { s with
        incoming := Function.update s.incoming p ((s.incoming p).receive v8 frame)
        port := Function.update s.port p rest } p.other =
          ⟨s.outgoing p.other, (s.incoming p).receive v8 frame, framesOf rest, acksOf (s.port p.other)⟩ := by
      unfold State.view
      dsimp only
      rw [p.other_other, Function.update_self, port_popped.1, port_popped.2]
    have hother : State.view { s with
        incoming := Function.update s.incoming p ((s.incoming p).receive v8 frame)
        port := Function.update s.port p rest } p.other.other = s.view p.other.other := by
      rw [p.other_other]
      apply view_eq
      · rfl
      · exact Function.update_of_ne p.other_ne _ _
      · exact congrArg framesOf port_popped.2
      · dsimp only
        rw [port_popped.1, hport]
        rfl
    refine ⟨h.change p.other ?_ hother, work_lt p.other ?_ hother⟩
    · rw [hnew]
      exact hok
    · rw [hnew, hview]
      exact hlt

theorem Inv.yielded {s : State V} {p : Peer} {m : Message} {i' : Incoming V} (h : Inv v8 s)
    (hy : (s.incoming p).yielded = some (m, i')) :
    Inv v8 (State.post { s with incoming := Function.update s.incoming p i' } p [m]) ∧
      (State.post { s with incoming := Function.update s.incoming p i' } p [m]).work v8 < s.work v8 := by
  have hview : s.view p.other = ⟨s.outgoing p.other, s.incoming p, framesOf (s.port p), acksOf (s.port p.other)⟩ := by
    unfold State.view
    rw [p.other_other]
  have hdir := h p.other
  rw [hview] at hdir
  obtain ⟨hframes, hok, hlt⟩ := Direction.yielded hdir hy
  have hnew : (State.post { s with incoming := Function.update s.incoming p i' } p [m]).view p.other =
      ⟨s.outgoing p.other, i', framesOf (s.port p), acksOf (s.port p.other) ++ acksOf [m]⟩ := by
    unfold State.view State.post
    dsimp only
    rw [p.other_other, Function.update_self, Function.update_self, Function.update_of_ne p.other_ne.symm, acksOf_append]
  have hother : (State.post { s with incoming := Function.update s.incoming p i' } p [m]).view p.other.other =
      s.view p.other.other := by
    rw [p.other_other]
    apply view_eq
    · rfl
    · exact Function.update_of_ne p.other_ne _ _
    · show framesOf (Function.update s.port p.other (s.port p.other ++ [m]) p.other) = _
      rw [Function.update_self, framesOf_append, hframes, List.append_nil]
    · show acksOf (Function.update s.port p.other (s.port p.other ++ [m]) p) = _
      rw [Function.update_of_ne p.other_ne.symm]
  refine ⟨h.change p.other ?_ hother, work_lt p.other ?_ hother⟩
  · rw [hnew]
    exact hok
  · rw [hnew, hview]
    exact hlt

/-- An event keeps both directions, and an internal one leaves less to do. -/
theorem Inv.step {s s' : State V} {e : Event V} (h : Inv v8 s) (hids : ShortIds v8 e s)
    (hs : e.next v8 s = some s') : Inv v8 s' ∧ (e.isInternal = true → s'.work v8 < s.work v8) := by
  cases e with
  | send p id value =>
    cases hs
    have hother : (s.setOutgoing p { s.outgoing p with
        sends := (s.outgoing p).sends ++ [(id, value)] }).view p.other = s.view p.other :=
      view_eq (Function.update_of_ne p.other_ne _ _) rfl rfl rfl
    refine ⟨h.change p ?_ hother, fun hi => by cases hi⟩
    unfold State.view State.setOutgoing
    dsimp only
    rw [Function.update_self]
    exact (h p).send value hids
  | begin p =>
    obtain ⟨⟨ms, o'⟩, hb, rfl⟩ := Option.map_eq_some_iff.mp hs
    obtain ⟨hok, hms, hlt⟩ := (h p).begin hb
    obtain ⟨hnew, hother⟩ := view_posted s p o' hms
    refine ⟨h.change p ?_ hother, fun _ => work_lt p ?_ hother⟩
    · rw [hnew]
      exact hok
    · rw [hnew]
      exact hlt
  | resume p =>
    obtain ⟨⟨ms, o'⟩, hb, rfl⟩ := Option.map_eq_some_iff.mp hs
    obtain ⟨hok, hms, hlt⟩ := (h p).resume hb
    obtain ⟨hnew, hother⟩ := view_posted s p o' hms
    refine ⟨h.change p ?_ hother, fun _ => work_lt p ?_ hother⟩
    · rw [hnew]
      exact hok
    · rw [hnew]
      exact hlt
  | deliver p =>
    obtain ⟨hok, hlt⟩ := h.deliver hs
    exact ⟨hok, fun _ => hlt⟩
  | yielded p =>
    obtain ⟨⟨m, i'⟩, hy, rfl⟩ := Option.map_eq_some_iff.mp hs
    obtain ⟨hok, hlt⟩ := h.yielded hy
    exact ⟨hok, fun _ => hlt⟩

theorem inv_initial (v8 : V8 V) : Inv v8 State.initial :=
  fun _ => ⟨.idle rfl rfl rfl rfl rfl, fun _ h => absurd h List.not_mem_nil, Nat.le_refl _, rfl,
    fun _ h => absurd h List.not_mem_nil⟩

theorem inv_reached {s : State V} (h : (transport v8).ReachUnder (ShortIds v8) .initial s) : Inv v8 s := by
  refine h.invariant (inv_initial v8) fun e t _ t' ht hok hstep => ?_
  obtain ⟨t'', hnext, heq⟩ := Option.map_eq_some_iff.mp hstep
  cases heq
  exact (ht.step hok hnext).1

/-! ## The transport -/

/-- Everything that was sent has been handed on, and every promise of `send` has resolved. -/
def Done (s : State V) : Prop :=
  ∀ p, (s.incoming p.other).values = (s.outgoing p).sends ∧
    (s.outgoing p).outcomes = List.replicate (s.outgoing p).sends.length .resolved

/-- What holds in every state, before a stop. -/
structure Reliable (s : State V) : Prop where
  /-- The values are handed on once each, intact, and in the order of the calls. -/
  inOrder : ∀ p, (s.incoming p.other).values <+: (s.outgoing p).sends
  resolved : ∀ p, ∀ outcome ∈ (s.outgoing p).outcomes, outcome = .resolved
  noErrors : ∀ p, (s.incoming p).errors = 0
  /-- A frame, a frame that waits for its acknowledgement to be posted, or an acknowledgement: at most one. -/
  oneFrame : ∀ p, (s.outgoing p).acknowledgements.entries.length ≤ 1 ∧
    (framesOf (s.port p.other)).length + (s.incoming p.other).yielding.length + (acksOf (s.port p)).length ≤ 1

theorem Direction.inOrder (h : Direction v8 o i frames acks) : i.values <+: o.sends := by
  cases h.stage with
  | idle _ _ _ _ hvalues | flying _ _ _ _ _ _ _ hvalues | received _ _ _ _ _ _ _ hvalues
  | acked _ _ _ _ _ _ _ hvalues | resumed _ _ _ _ _ _ _ hvalues =>
    rw [hvalues]
    exact List.take_prefix _ _

theorem Direction.oneFrame (h : Direction v8 o i frames acks) :
    o.acknowledgements.entries.length ≤ 1 ∧ frames.length + i.yielding.length + acks.length ≤ 1 := by
  cases h.stage with
  | idle _ hacks _ hyielding _ | resumed _ _ _ _ hacks _ hyielding _ =>
    rw [hacks, hyielding]
    exact ⟨Nat.zero_le _, Nat.zero_le _⟩
  | flying _ _ _ _ hacks _ hyielding _ | received _ _ _ _ hacks _ hyielding _ | acked _ _ _ _ hacks _ hyielding _ =>
    rw [hacks, hyielding]
    exact ⟨Nat.le_refl _, Nat.le_refl _⟩

theorem Inv.reliable {s : State V} (h : Inv v8 s) : Reliable s := by
  refine ⟨fun p => (h p).inOrder, fun p => (h p).resolved, fun p => ?_, fun p => (h p).oneFrame⟩
  have herrors := (h p.other).errors
  unfold State.view at herrors
  rwa [p.other_other] at herrors

/-- Where nothing goes on by itself, everything is done. -/
theorem Inv.done {s : State V} (h : Inv v8 s) (hquiet : ∀ e : Event V, e.isInternal = true → e.next v8 s = none) :
    Done s := by
  have hport : ∀ p, s.port p = [] := by
    intro p
    have hnone := hquiet (.deliver p) rfl
    unfold Event.next State.deliver at hnone
    dsimp only at hnone
    split at hnone
    case h_1 hport => exact hport
    case h_2 => cases hnone
    case h_3 => cases hnone
  intro p
  have hyielding : (s.incoming p.other).yielding = [] := by
    have hnone := Option.map_eq_none_iff.mp (hquiet (.yielded p.other) rfl)
    unfold Incoming.yielded at hnone
    split at hnone
    case h_1 hyielding => exact hyielding
    case h_2 => cases hnone
  have hframes : (s.view p).frames = [] := congrArg framesOf (hport p.other)
  have hacks : (s.view p).acks = [] := congrArg acksOf (hport p)
  have hdir := h p
  have hbusy : ∀ f v, Sending v8 (s.outgoing p) f v → f.acknowledged = true → False := by
    intro f v hs hf
    have hnone := Option.map_eq_none_iff.mp (hquiet (.resume p) rfl)
    unfold Outgoing.resume at hnone
    rw [hs.current] at hnone
    dsimp only [Option.bind_some] at hnone
    rw [if_pos hf] at hnone
    cases hnone
  unfold View.Ok at hdir
  rw [hframes, hacks] at hdir
  have hstage := hdir.stage
  cases hstage with
  | received f v _ _ _ _ hpending =>
    have hpending' : (s.incoming p.other).yielding = _ := hpending
    rw [hyielding] at hpending'
    cases hpending'
  | resumed f v hs hf => exact (hbusy f v hs hf).elim
  | idle hcurrent _ _ _ hvalues =>
    have hnone := Option.map_eq_none_iff.mp (hquiet (.begin p) rfl)
    have hcurrent' : (s.outgoing p).current = none := hcurrent
    unfold Outgoing.begin at hnone
    rw [hcurrent', Option.isSome_none, if_neg Bool.false_ne_true] at hnone
    have hall : (s.outgoing p).sends.length ≤ (s.outgoing p).outcomes.length :=
      List.getElem?_eq_none_iff.mp (Option.map_eq_none_iff.mp hnone)
    have hlength : (s.outgoing p).outcomes.length = (s.outgoing p).sends.length := Nat.le_antisymm hdir.settled hall
    refine ⟨?_, List.eq_replicate_iff.mpr ⟨hlength, hdir.resolved⟩⟩
    show (s.view p).incoming.values = _
    rw [hvalues]
    exact List.take_of_length_le hall

/-- Before a stop the transport delivers what is sent, in its order, and what it does by itself comes to an end in a
state where everything is delivered and acknowledged. -/
theorem transport_reliable {s : State V} (h : (transport v8).ReachUnder (ShortIds v8) .initial s) :
    Reliable s ∧
      (∀ (e : Event V) (s' : State V), e.isInternal = true → e.next v8 s = some s' → s'.work v8 < s.work v8) ∧
      ((∀ e : Event V, e.isInternal = true → e.next v8 s = none) → Done s) := by
  have hinv := inv_reached h
  refine ⟨hinv.reliable, fun e s' hi hs ↦ ?_, hinv.done⟩
  have hids : ShortIds v8 e s := by
    cases e with
    | send => cases hi
    | begin | resume | deliver | yielded => trivial
  exact (hinv.step hids hs).2 hi

/-- Booleans, with the header and the tags of the format. -/
def booleans : V8 Bool where
  serialize b := [255, 15, if b then 84 else 70]
  deserialize bytes := decide (bytes = [255, 15, 84])
  frameSize frame := 2 * frame.id.length + frame.bytes.length + 80
  deserialize_serialize := by decide
  nonempty := by decide
  bounded := by decide

theorem booleans_fits : Fits booleans (js "a") := by
  intro sequence bytes last _ hbytes
  show 2 * 1 + bytes.length + 80 + 4 ≤ wireBound
  unfold chunkSize at hbytes
  unfold wireBound
  omega

/-- Both ends send under one id, and the first value of the host arrives. -/
def crossingEvents : List (Event Bool) :=
  [.send .host (js "a") true, .send .worker (js "a") false, .begin .worker, .begin .host, .send .host (js "a") false,
    .deliver .worker, .deliver .host, .yielded .worker, .deliver .host]

def crossed : State Bool := ((transport booleans).run .initial crossingEvents).getD .initial

theorem crossing_run : (transport booleans).run .initial crossingEvents = some crossed := rfl

theorem transport_reliable_crossing : (crossed.incoming .worker).values = [(js "a", true)] ∧
    Reliable crossed ∧
      (∀ (e : Event Bool) (s' : State Bool), e.isInternal = true → e.next booleans crossed = some s' →
        s'.work booleans < crossed.work booleans) ∧
      ((∀ e : Event Bool, e.isInternal = true → e.next booleans crossed = none) → Done crossed) := by
  have hids : ∀ e ∈ crossingEvents, ∀ s, ShortIds booleans e s := by
    intro e he s
    simp only [crossingEvents, List.mem_cons, List.not_mem_nil, or_false] at he
    rcases he with rfl | rfl | rfl | rfl | rfl | rfl | rfl | rfl | rfl
    · exact booleans_fits
    · exact booleans_fits
    · trivial
    · trivial
    · exact booleans_fits
    · trivial
    · trivial
    · trivial
    · trivial
  exact ⟨rfl, transport_reliable (System.run_reachUnder hids crossing_run)⟩

end RabiRoute.PersistenceTransport
