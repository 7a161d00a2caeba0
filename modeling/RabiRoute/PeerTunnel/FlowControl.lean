import RabiRoute.PeerTunnel.StreamCredit
import RabiRoute.Transitions.System

/-!
# Flow control of a tunnel

Two sessions over a reliable ordered channel.  For each direction of each stream, the credit of the
sender, the data in flight, the bytes that the receiver has not credited yet and the credit in
flight add up to the window.  What a receiver credits may still be in its buffer, so that the sum
does not bound the buffer, which is what `receive` checks.
-/

open Collections Transitions

namespace RabiRoute.PeerTunnel

inductive Side where
  | caller
  | receiver
deriving DecidableEq

namespace Side

def other : Side → Side
  | .caller => .receiver
  | .receiver => .caller

@[simp] theorem other_other (x : Side) : x.other.other = x := by cases x <;> rfl

theorem other_ne (x : Side) : x.other ≠ x := by cases x <;> decide

theorem eq_or_eq_other (x y : Side) : y = x ∨ y = x.other := by cases x <;> cases y <;> decide

end Side

/-- `wire x` are the frames on their way to `x`, `ids` all that `randomUUID` has given. -/
structure Tunnel where
  session : Side → TunnelSession
  wire : Side → List Frame
  ids : List JsString

namespace Tunnel

def init : Tunnel :=
  { session := fun x ↦ { caller := x = .caller }, wire := fun _ ↦ [], ids := [] }

inductive Event where
  | turn (x : Side) (e : TunnelSession.Event)
  | deliver (x : Side)

/-- The id that `randomUUID` gives in a turn. -/
def newId : TunnelSession.Event → Option JsString
  | .open_ id | .ping id => some id
  | _ => none

def uuidLength : Nat := 36

def fresh (e : TunnelSession.Event) (t : Tunnel) : Bool :=
  match newId e with
  | none => true
  | some id => id ∉ t.ids && id.length == uuidLength

/-- A turn of `x` that leaves the session `s` and hands `out` to the channel. -/
def afterTurn (x : Side) (e : TunnelSession.Event) (out : Option Frame) (s : TunnelSession)
    (t : Tunnel) : Tunnel :=
  { session := Function.update t.session x s
    wire := Function.update t.wire x.other (t.wire x.other ++ out.toList)
    ids := (newId e).toList ++ t.ids }

/-- `x` receives the first frame on its wire. -/
def afterDeliver (x : Side) (frame : Frame) (rest : List Frame) (t : Tunnel) : Tunnel :=
  { t with
    session := Function.update t.session x ((t.session x).receive frame)
    wire := Function.update t.wire x rest }

def system : System Tunnel Event Unit where
  step e t :=
    match e with
    | .turn x e =>
      if t.fresh e then ((t.session x).step e).map fun r ↦ ((), t.afterTurn x e r.1 r.2) else none
    | .deliver x =>
      match t.wire x with
      | [] => none
      | frame :: rest => some ((), t.afterDeliver x frame rest)

end Tunnel

/-! ## What flow control promises -/

namespace Tunnel

/-- The frames of `x` that its peer has not received: those on the wire and those that wait for
their turn. -/
def outbox (t : Tunnel) (x : Side) : List Frame :=
  t.wire x.other ++ (t.session x).serial.map Job.frame

def stream (t : Tunnel) (x : Side) (id : JsString) : Option TunnelStream :=
  (t.session x).streams.get? id

/-- No frame that the channel brings is an error, and no credit is lost or made. -/
structure FlowControlled (t : Tunnel) : Prop where
  data_accepted : ∀ x f rest, t.wire x = f :: rest → (t.session x).closed = false →
    f.type = .data → ((t.session x).accept f).isSome
  credit_accepted : ∀ x f rest, t.wire x = f :: rest → (t.session x).closed = false →
    f.type = .window → ((t.session x).accept f).isSome
  conserved : ∀ x id sender receiver, t.stream x id = some sender →
    t.stream x.other id = some receiver → receiver.uncredited ≤ receiver.readableLength ∧
      sender.credit + dataBytes id (t.outbox x) + receiver.uncredited +
        creditBytes id (t.outbox x.other) = streamWindowBytes

/-- No data arrive at a stream whose consumer is more than a window and a frame behind. -/
def ReadersKeepUp (t : Tunnel) : Prop :=
  ∀ x f rest, t.wire x = f :: rest → f.type = .data → ∀ stream, t.stream x f.id = some stream →
    stream.readableLength + f.data.getD 0 ≤ streamWindowBytes + dataFrameBytes

/-! ## The invariant -/

def uncreditedOf (t : Tunnel) (x : Side) (id : JsString) : Nat :=
  ((t.stream x id).map TunnelStream.uncredited).getD 0

/-- The window of the direction from `x`, whose stream is `sender`. -/
def total (t : Tunnel) (x : Side) (id : JsString) (sender : TunnelStream) : Nat :=
  sender.credit + dataBytes id (t.outbox x) + t.uncreditedOf x.other id +
    creditBytes id (t.outbox x.other)

/-- The peer of `x` does not know the stream `id` yet. -/
structure NotYet (t : Tunnel) (x : Side) (id : JsString) : Prop where
  stream : t.stream x.other id = none
  no_data : dataBytes id (t.outbox x.other) = 0
  no_credit : creditBytes id (t.outbox x.other) = 0
  credited : t.uncreditedOf x id = 0
  no_credit_back : creditBytes id (t.outbox x) = 0

/-- The peer of `x` has the stream `id`, or its `open` is on the way. -/
def Shared (t : Tunnel) (x : Side) (id : JsString) : Prop :=
  (t.stream x.other id).isSome ∨ ∃ f ∈ t.outbox x, f.type = .open_ ∧ f.id = id

structure Inv (t : Tunnel) : Prop where
  sound : ∀ x, (t.session x).Sound
  uuid : ∀ id ∈ t.ids, id.length = uuidLength
  known : ∀ x, ∀ f ∈ t.outbox x, f.id ∈ t.ids
  live : ∀ x id st, t.stream x id = some st → id ∈ t.ids
  honest : ∀ x, ∀ f ∈ t.outbox x, f.Honest
  order : ∀ x, (t.outbox x).Pairwise fun g f ↦ f.type = .open_ → g.id ≠ f.id
  opening : ∀ x, ∀ f ∈ t.outbox x, f.type = .open_ → t.NotYet x f.id
  bounded : ∀ x id st, t.stream x id = some st → t.total x id st ≤ streamWindowBytes
  balanced : ∀ x id st, t.stream x id = some st → t.Shared x id →
    t.total x id st = streamWindowBytes

variable {t t' : Tunnel} {x : Side} {id : JsString} {got : List Frame}

theorem Inv.init : Inv init where
  sound _ := ⟨fun h => (by cases h), fun _ _ h => (by cases h), fun _ h => (by cases h)⟩
  uuid _ h := by cases h
  known _ _ h := by cases h
  live _ _ _ h := by cases h
  honest _ _ h := by cases h
  order _ := .nil
  opening _ _ h := by cases h
  bounded _ _ _ h := by cases h
  balanced _ _ _ h := by cases h

/-- A step of `x`, which has received `got` from its peer: what the peer has in flight is what it
had without `got`. -/
structure StepOf (x : Side) (got : List Frame) (t t' : Tunnel) : Prop where
  ids : ∀ id ∈ t.ids, id ∈ t'.ids
  uuid : ∀ id ∈ t'.ids, id.length = uuidLength
  peer : t'.session x.other = t.session x.other
  received : t.outbox x.other = got ++ t'.outbox x.other
  kept : TunnelSession.Kept t'.ids got (t.session x) (t.outbox x) (t'.session x) (t'.outbox x)
  sound : (t'.session x).Sound

namespace StepOf

theorem peer_stream (h : StepOf x got t t') : t'.stream x.other id = t.stream x.other id := by
  rw [stream, h.peer, stream]

theorem peer_uncredited (h : StepOf x got t t') : t'.uncreditedOf x.other id = t.uncreditedOf x.other id := by
  rw [uncreditedOf, h.peer_stream, uncreditedOf]

theorem peer_data (h : StepOf x got t t') (id : JsString) :
    dataBytes id (t.outbox x.other) = dataBytes id got + dataBytes id (t'.outbox x.other) := by
  rw [h.received, dataBytes_append]

theorem peer_credit (h : StepOf x got t t') (id : JsString) :
    creditBytes id (t.outbox x.other) = creditBytes id got + creditBytes id (t'.outbox x.other) := by
  rw [h.received, creditBytes_append]

theorem not_live (h : StepOf x got t t') (hx : t.stream x id = none) : t'.stream x id = none := by
  cases hx' : t'.stream x id with
  | none => rfl
  | some st =>
    obtain ⟨y, hy, -⟩ := h.kept.live id st hx'
    rw [stream, hy] at hx
    cases hx

/-- The account of what `x` has not credited, whether or not the step ended the stream. -/
theorem uncredited_le (h : StepOf x got t t') (id : JsString) :
    t'.uncreditedOf x id + creditBytes id (t'.outbox x) ≤
      t.uncreditedOf x id + creditBytes id (t.outbox x) + dataBytes id got := by
  cases hx' : t'.stream x id with
  | none =>
    have hgone := (h.kept.gone id hx').2
    simp only [uncreditedOf, hx', Option.map_none, Option.getD_none]
    omega
  | some st =>
    obtain ⟨y, hy, -, hcredit⟩ := h.kept.live id st hx'
    have hold : t.uncreditedOf x id = y.uncredited := by rw [uncreditedOf, stream, hy]; rfl
    rw [hold, uncreditedOf, hx']
    exact hcredit.le

theorem notYet (h : StepOf x got t t') (hnot : t.NotYet x id) : t'.NotYet x id := by
  have hdata := h.peer_data id
  have hcredit := h.peer_credit id
  have hle := h.uncredited_le id
  rw [hnot.no_data] at hdata
  rw [hnot.no_credit] at hcredit
  rw [hnot.credited, hnot.no_credit_back] at hle
  exact ⟨h.peer_stream.trans hnot.stream, by omega, by omega, by omega, by omega⟩

theorem notYet_peer (h : StepOf x got t t') (hnot : t.NotYet x.other id) : t'.NotYet x.other id := by
  have hgone : t'.stream x.other.other id = none := x.other_other.symm ▸ h.not_live (x.other_other ▸ hnot.stream)
  have hle := h.kept.gone id (by rwa [Side.other_other] at hgone)
  have hdata := hnot.no_data
  have hcredit := hnot.no_credit
  have hback := h.peer_credit id
  rw [hnot.no_credit_back] at hback
  rw [Side.other_other] at hdata hcredit
  refine ⟨hgone, ?_, ?_, h.peer_uncredited.trans hnot.credited, by omega⟩ <;> rw [Side.other_other] <;> omega

/-- The total of the direction from `x` stays as it is. -/
theorem total_own {st : TunnelStream} (h : StepOf x got t t') (hst : t'.stream x id = some st) :
    ∃ old, t.stream x id = some old ∧ t'.total x id st = t.total x id old := by
  obtain ⟨old, hold, hdata, -⟩ := h.kept.live id st hst
  refine ⟨old, hold, ?_⟩
  unfold total
  rw [h.peer_uncredited, h.peer_credit]
  omega

/-- The total of the direction to `x` shrinks when `x` loses its stream. -/
theorem total_peer_le {st : TunnelStream} (h : StepOf x got t t') : t'.total x.other id st ≤ t.total x.other id st := by
  have hle := h.uncredited_le id
  unfold total
  rw [h.peer_data, Side.other_other]
  omega

theorem total_peer {st st' : TunnelStream} (h : StepOf x got t t') (hst : t'.stream x id = some st') :
    t'.total x.other id st = t.total x.other id st := by
  obtain ⟨old, hold, -, hcredit⟩ := h.kept.live id st' hst
  have hnow : t'.uncreditedOf x id = st'.uncredited := by rw [uncreditedOf, hst]; rfl
  have hbefore : t.uncreditedOf x id = old.uncredited := by rw [uncreditedOf, stream, hold]; rfl
  unfold total
  rw [h.peer_data, Side.other_other, hnow, hbefore]
  omega

theorem outbox_peer (h : StepOf x got t t') {f : Frame} (hf : f ∈ t'.outbox x.other) :
    f ∈ t.outbox x.other := h.received ▸ List.mem_append_right _ hf

theorem outbox_own (h : StepOf x got t t') {f : Frame} (hf : f ∈ t'.outbox x) (hopen : f.type = .open_) :
    f ∈ t.outbox x := by
  obtain ⟨old, new, hold, hfs, hnew⟩ := h.kept.frames
  rcases List.mem_append.mp (hfs ▸ hf) with hmem | hmem
  · exact hold.subset hmem
  · exact absurd hopen (hnew f hmem).1

/-- A stream of the peer keeps its whole window as long as `x` has the stream or will open it. -/
theorem balanced_peer {st : TunnelStream} (h : StepOf x got t t') (hinv : t.Inv) (hst : t'.stream x.other id = some st)
    (hshared : t'.Shared x.other id) : t'.total x.other id st = streamWindowBytes := by
  have hold : t.stream x.other id = some st := h.peer_stream ▸ hst
  cases hx : t'.stream x id with
  | some st' =>
    obtain ⟨old, hlive, -⟩ := h.kept.live id st' hx
    rw [h.total_peer hx]
    refine hinv.balanced x.other id st hold (.inl ?_)
    rw [Side.other_other, stream, hlive]
    rfl
  | none =>
    -- `open` has not arrived, and nothing of the stream has gone before it
    obtain ⟨f, hf, htype, rfl⟩ := hshared.resolve_left fun hlive => by
      rw [Side.other_other, hx] at hlive
      cases hlive
    have hnot := hinv.opening x.other f (h.outbox_peer hf) htype
    have horder := hinv.order x.other
    rw [h.received, List.pairwise_append] at horder
    have hgot : dataBytes f.id got = 0 := dataBytes_eq_zero fun g hg =>
      Frame.dataBytes_of_id (horder.2.2 g hg f hf htype).symm
    have hback := hnot.no_credit
    rw [Side.other_other] at hback
    have hgone := (h.kept.gone f.id hx).2
    have hnow : t'.uncreditedOf x f.id = 0 := by rw [uncreditedOf, hx]; rfl
    have hbefore : t.uncreditedOf x f.id = 0 := by
      have := hnot.stream
      rw [Side.other_other] at this
      rw [uncreditedOf, this]
      rfl
    rw [← hinv.balanced x.other f.id st hold (.inr ⟨f, h.outbox_peer hf, htype, rfl⟩)]
    unfold total
    rw [h.peer_data, Side.other_other, hnow, hbefore]
    omega

theorem inv (h : StepOf x got t t') (hinv : t.Inv) : t'.Inv := by
  obtain ⟨old, new, hold, hfs, hnew⟩ := h.kept.frames
  have hsplit : ∀ y, y = x ∨ y = x.other := x.eq_or_eq_other
  refine ⟨fun y => ?_, h.uuid, fun y f hf => ?_, fun y id st hst => ?_, fun y f hf => ?_, fun y => ?_,
    fun y f hf htype => ?_, fun y id st hst => ?_, fun y id st hst hshared => ?_⟩
  case refine_1 =>
    obtain rfl | rfl := hsplit y
    · exact h.sound
    · exact h.peer ▸ hinv.sound _
  case refine_2 =>
    obtain rfl | rfl := hsplit y
    · rcases List.mem_append.mp (hfs ▸ hf) with hmem | hmem
      · exact h.ids _ (hinv.known _ f (hold.subset hmem))
      · exact (hnew f hmem).2.2
    · exact h.ids _ (hinv.known _ f (h.outbox_peer hf))
  case refine_3 =>
    obtain rfl | rfl := hsplit y
    · obtain ⟨st', hst', -⟩ := h.kept.live id st hst
      exact h.ids _ (hinv.live _ id st' hst')
    · exact h.ids _ (hinv.live _ id st (h.peer_stream ▸ hst))
  case refine_4 =>
    obtain rfl | rfl := hsplit y
    · rcases List.mem_append.mp (hfs ▸ hf) with hmem | hmem
      · exact hinv.honest _ f (hold.subset hmem)
      · exact (hnew f hmem).2.1
    · exact hinv.honest _ f (h.outbox_peer hf)
  case refine_5 =>
    obtain rfl | rfl := hsplit y
    · rw [hfs, List.pairwise_append]
      refine ⟨(hinv.order _).sublist hold, ?_, fun g _ f hf htype => absurd htype (hnew f hf).1⟩
      exact List.pairwise_of_forall_mem_list fun g _ f hf htype => absurd htype (hnew f hf).1
    · have horder := hinv.order x.other
      rw [h.received, List.pairwise_append] at horder
      exact horder.2.1
  case refine_6 =>
    obtain rfl | rfl := hsplit y
    · exact h.notYet (hinv.opening _ f (h.outbox_own hf htype) htype)
    · exact h.notYet_peer (hinv.opening _ f (h.outbox_peer hf) htype)
  case refine_7 =>
    obtain rfl | rfl := hsplit y
    · obtain ⟨st', hst', htotal⟩ := h.total_own hst
      exact htotal ▸ hinv.bounded _ id st' hst'
    · exact h.total_peer_le.trans (hinv.bounded _ id st (h.peer_stream ▸ hst))
  case refine_8 =>
    obtain rfl | rfl := hsplit y
    · obtain ⟨st', hst', htotal⟩ := h.total_own hst
      refine htotal ▸ hinv.balanced _ id st' hst' ?_
      rcases hshared with hlive | ⟨f, hf, htype, hid⟩
      · exact .inl (h.peer_stream ▸ hlive)
      · exact .inr ⟨f, h.outbox_own hf htype, htype, hid⟩
    · exact h.balanced_peer hinv hst hshared

end StepOf

/-- A step that gives `x` the stream `id`: `x` opens it and sends `new`, or receives `got`. -/
structure Opens (x : Side) (id : JsString) (new got : List Frame) (t t' : Tunnel) : Prop where
  ids : ∀ j ∈ t.ids, j ∈ t'.ids
  uuid : ∀ j ∈ t'.ids, j.length = uuidLength
  id_known : id ∈ t'.ids
  sound : (t'.session x).Sound
  own_stream : ∀ j, t'.stream x j = if j = id then some {} else t.stream x j
  peer : t'.session x.other = t.session x.other
  sends : t'.outbox x = t.outbox x ++ new
  received : t.outbox x.other = got ++ t'.outbox x.other
  new_open : ∀ f ∈ new, f.type = .open_ ∧ f.id = id
  got_open : ∀ f ∈ got, f.type = .open_
  new_first : ∀ f ∈ new, t.NotYet x id ∧ ∀ g ∈ t.outbox x, g.id ≠ id
  new_once : new.length ≤ 1
  unopened : t.NotYet x.other id
  opened_once : ∀ f ∈ t'.outbox x.other, f.type = .open_ → f.id ≠ id
  peer_balanced : ∀ st, t.stream x.other id = some st → t.total x.other id st = streamWindowBytes

namespace Opens

variable {new : List Frame} {j : JsString}

theorem dataBytes_opens {fs : List Frame} (h : ∀ f ∈ fs, f.type = .open_) : dataBytes j fs = 0 :=
  dataBytes_eq_zero fun f hf => Frame.dataBytes_of_type (by rw [h f hf]; decide)

theorem creditBytes_opens {fs : List Frame} (h : ∀ f ∈ fs, f.type = .open_) : creditBytes j fs = 0 :=
  creditBytes_eq_zero fun f hf => Frame.creditBytes_of_type (by rw [h f hf]; decide)

theorem own_data (h : Opens x id new got t t') : dataBytes j (t'.outbox x) = dataBytes j (t.outbox x) := by
  rw [h.sends, dataBytes_append, dataBytes_opens fun f hf => (h.new_open f hf).1, Nat.add_zero]

theorem own_credit (h : Opens x id new got t t') : creditBytes j (t'.outbox x) = creditBytes j (t.outbox x) := by
  rw [h.sends, creditBytes_append, creditBytes_opens fun f hf => (h.new_open f hf).1, Nat.add_zero]

theorem peer_data (h : Opens x id new got t t') : dataBytes j (t'.outbox x.other) = dataBytes j (t.outbox x.other) := by
  rw [h.received, dataBytes_append, dataBytes_opens h.got_open, Nat.zero_add]

theorem peer_credit (h : Opens x id new got t t') :
    creditBytes j (t'.outbox x.other) = creditBytes j (t.outbox x.other) := by
  rw [h.received, creditBytes_append, creditBytes_opens h.got_open, Nat.zero_add]

theorem peer_stream (h : Opens x id new got t t') : t'.stream x.other j = t.stream x.other j := by
  rw [stream, h.peer, stream]

theorem peer_uncredited (h : Opens x id new got t t') : t'.uncreditedOf x.other j = t.uncreditedOf x.other j := by
  rw [uncreditedOf, h.peer_stream, uncreditedOf]

theorem own_uncredited (h : Opens x id new got t t') : t'.uncreditedOf x j = t.uncreditedOf x j := by
  rw [uncreditedOf, uncreditedOf, h.own_stream]
  split
  · case isTrue hj =>
    have hnone := h.unopened.stream
    rw [Side.other_other] at hnone
    rw [hj, hnone]
    rfl
  · rfl

theorem total_eq (h : Opens x id new got t t') (y : Side) (st : TunnelStream) : t'.total y j st = t.total y j st := by
  unfold total
  obtain rfl | rfl := x.eq_or_eq_other y
  · rw [h.own_data, h.peer_uncredited, h.peer_credit]
  · rw [h.peer_data, Side.other_other, h.own_uncredited, h.own_credit]

theorem total_new (h : Opens x id new got t t') : t.total x id {} = streamWindowBytes := by
  have hdata := h.unopened.no_data
  rw [Side.other_other] at hdata
  unfold total
  rw [hdata, h.unopened.credited, h.unopened.no_credit_back]
  rfl

theorem notYet (h : Opens x id new got t t') (hnot : t.NotYet x j) : t'.NotYet x j :=
  ⟨h.peer_stream.trans hnot.stream, h.peer_data.trans hnot.no_data, h.peer_credit.trans hnot.no_credit,
    h.own_uncredited.trans hnot.credited, h.own_credit.trans hnot.no_credit_back⟩

theorem notYet_peer (h : Opens x id new got t t') (hj : j ≠ id) (hnot : t.NotYet x.other j) : t'.NotYet x.other j := by
  obtain ⟨hstream, hdata, hcredit, huncredited, hback⟩ := hnot
  rw [Side.other_other] at hstream hdata hcredit
  refine ⟨?_, ?_, ?_, h.peer_uncredited.trans huncredited, h.peer_credit.trans hback⟩ <;>
    rw [Side.other_other]
  · rw [h.own_stream, if_neg hj, hstream]
  · exact h.own_data.trans hdata
  · exact h.own_credit.trans hcredit

theorem inv (h : Opens x id new got t t') (hinv : t.Inv) : t'.Inv := by
  have hpeer : ∀ {f : Frame}, f ∈ t'.outbox x.other → f ∈ t.outbox x.other := fun hf =>
    h.received ▸ List.mem_append_right _ hf
  refine ⟨fun y => ?_, h.uuid, fun y f hf => ?_, fun y j st hst => ?_, fun y f hf => ?_, fun y => ?_,
    fun y f hf htype => ?_, fun y j st hst => ?_, fun y j st hst hshared => ?_⟩ <;>
    obtain rfl | rfl := x.eq_or_eq_other y
  · exact h.sound
  · exact h.peer ▸ hinv.sound _
  · rcases List.mem_append.mp (h.sends ▸ hf) with hmem | hmem
    · exact h.ids _ (hinv.known _ f hmem)
    · exact (h.new_open f hmem).2 ▸ h.id_known
  · exact h.ids _ (hinv.known _ f (hpeer hf))
  · rw [h.own_stream] at hst
    split at hst
    · case isTrue hj => exact hj ▸ h.id_known
    · exact h.ids _ (hinv.live _ j st hst)
  · exact h.ids _ (hinv.live _ j st (h.peer_stream ▸ hst))
  · rcases List.mem_append.mp (h.sends ▸ hf) with hmem | hmem
    · exact hinv.honest _ f hmem
    · have htype := (h.new_open f hmem).1
      exact Frame.honest_of_ne (by rw [htype]; decide) (by rw [htype]; decide)
  · exact hinv.honest _ f (hpeer hf)
  · rw [h.sends, List.pairwise_append]
    refine ⟨hinv.order _, ?_, fun g hg f hf _ => (h.new_open f hf).2 ▸ (h.new_first f hf).2 g hg⟩
    rcases hnew : new with _ | ⟨f, _ | ⟨g, rest⟩⟩
    · exact .nil
    · exact List.pairwise_singleton ..
    · have honce := h.new_once
      simp [hnew] at honce
  · have horder := hinv.order x.other
    rw [h.received, List.pairwise_append] at horder
    exact horder.2.1
  · rcases List.mem_append.mp (h.sends ▸ hf) with hmem | hmem
    · exact h.notYet (hinv.opening _ f hmem htype)
    · rw [(h.new_open f hmem).2]
      exact h.notYet (h.new_first f hmem).1
  · exact h.notYet_peer (h.opened_once f hf htype) (hinv.opening _ f (hpeer hf) htype)
  · rw [h.total_eq]
    rw [h.own_stream] at hst
    split at hst
    · case isTrue hj =>
      subst hj
      obtain rfl := Option.some.inj hst
      exact h.total_new.le
    · exact hinv.bounded _ j st hst
  · exact h.total_eq .. ▸ hinv.bounded _ j st (h.peer_stream ▸ hst)
  · rw [h.total_eq]
    rw [h.own_stream] at hst
    split at hst
    · case isTrue hj =>
      subst hj
      obtain rfl := Option.some.inj hst
      exact h.total_new
    · case isFalse hj =>
      refine hinv.balanced _ j st hst ?_
      rcases hshared with hlive | ⟨f, hf, htype, rfl⟩
      · exact .inl (h.peer_stream ▸ hlive)
      · rcases List.mem_append.mp (h.sends ▸ hf) with hmem | hmem
        · exact .inr ⟨f, hmem, htype, rfl⟩
        · exact absurd (h.new_open f hmem).2 hj
  · have hold : t.stream x.other j = some st := h.peer_stream ▸ hst
    rw [h.total_eq]
    by_cases hj : j = id
    · subst hj
      exact h.peer_balanced st hold
    · refine hinv.balanced _ j st hold ?_
      rcases hshared with hlive | ⟨f, hf, htype, hid⟩
      · rw [Side.other_other, h.own_stream, if_neg hj] at hlive
        exact .inl (by rwa [Side.other_other])
      · exact .inr ⟨f, hpeer hf, htype, hid⟩

end Opens

/-! ## Every step keeps the invariant -/

section

variable {e : TunnelSession.Event} {out : Option Frame} {s : TunnelSession} {f : Frame} {rest : List Frame}

theorem outbox_afterTurn : (t.afterTurn x e out s).outbox x = t.wire x.other ++ (out.toList ++ s.pending) := by
  simp [outbox, afterTurn, TunnelSession.pending]

theorem outbox_afterTurn_other : (t.afterTurn x e out s).outbox x.other = t.outbox x.other := by
  simp [outbox, afterTurn, Function.update_of_ne x.other_ne, Function.update_of_ne x.other_ne.symm]

theorem outbox_afterDeliver :
    (t.afterDeliver x f rest).outbox x = t.wire x.other ++ ((t.session x).receive f).pending := by
  simp [outbox, afterDeliver, TunnelSession.pending, Function.update_of_ne x.other_ne]

theorem outbox_afterDeliver_other (hwire : t.wire x = f :: rest) :
    t.outbox x.other = [f] ++ (t.afterDeliver x f rest).outbox x.other := by
  simp [outbox, afterDeliver, hwire, Function.update_of_ne x.other_ne]

/-- An id that `randomUUID` has just given names no stream and no frame. -/
theorem Inv.unused (h : t.Inv) (hid : id ∉ t.ids) (y : Side) : t.stream y id = none ∧ ∀ f ∈ t.outbox y, f.id ≠ id := by
  refine ⟨?_, fun f hf hf' => hid (hf' ▸ h.known y f hf)⟩
  cases hst : t.stream y id with
  | none => rfl
  | some st => exact absurd (h.live y id st hst) hid

theorem Inv.unused_notYet (h : t.Inv) (hid : id ∉ t.ids) (y : Side) : t.NotYet y id := by
  have hdata : ∀ z, dataBytes id (t.outbox z) = 0 := fun z => dataBytes_eq_zero fun f hf =>
    Frame.dataBytes_of_id ((h.unused hid z).2 f hf).symm
  have hcredit : ∀ z, creditBytes id (t.outbox z) = 0 := fun z => creditBytes_eq_zero fun f hf =>
    Frame.creditBytes_of_id ((h.unused hid z).2 f hf).symm
  exact ⟨(h.unused hid _).1, hdata _, hcredit _, by rw [uncreditedOf, (h.unused hid y).1]; rfl, hcredit y⟩

theorem fresh_ids (hinv : t.Inv) (hfresh : t.fresh e) : ∀ id ∈ (newId e).toList ++ t.ids, id.length = uuidLength := by
  intro id hid
  rcases List.mem_append.mp hid with hnew | hold
  · rw [Option.mem_toList] at hnew
    simp only [fresh, hnew, Bool.and_eq_true, beq_iff_eq] at hfresh
    exact hfresh.2
  · exact hinv.uuid id hold

theorem opens_of_turn (hinv : t.Inv) (hfresh : t.fresh (.open_ id)) (h : (t.session x).step (.open_ id) = some (out, s))
    : Opens x id [{ type := .open_, id, request := true }] [] t (t.afterTurn x (.open_ id) out s) := by
  have hunused : id ∉ t.ids := by
    simp only [fresh, newId, Bool.and_eq_true, decide_eq_true_eq] at hfresh
    exact hfresh.1
  have hsound := (hinv.sound x).step h
  obtain ⟨hopen, rfl, rfl⟩ := TunnelSession.step_open h
  refine ⟨fun j hj => List.mem_append_right _ hj, fresh_ids hinv hfresh, ?_, ?_, fun j => ?_, ?_, ?_,
    outbox_afterTurn_other.symm, by simp, fun f hf => (by cases hf), ?_, le_rfl,
    hinv.unused_notYet hunused _, ?_, ?_⟩
  · exact List.mem_append_left _ (List.mem_singleton_self id)
  · simpa only [afterTurn, Function.update_self] using hsound
  · simp only [stream, afterTurn, Function.update_self, TunnelSession.streams_send,
      TunnelSession.streams_setStream, InsertionMap.get?_set]
  · exact Function.update_of_ne x.other_ne ..
  · rw [outbox_afterTurn, TunnelSession.pending_send (s := (t.session x).setStream id {}) hopen]
    exact (List.append_assoc (t.wire x.other) (t.session x).pending _).symm
  · exact fun f _ => ⟨hinv.unused_notYet hunused x, (hinv.unused hunused x).2⟩
  · intro f hf _
    rw [outbox_afterTurn_other] at hf
    exact (hinv.unused hunused _).2 f hf
  · intro st hst
    rw [(hinv.unused hunused _).1] at hst
    cases hst

theorem stepOf_turn (hinv : t.Inv) (hfresh : t.fresh e) (hopen : ∀ id, e ≠ .open_ id)
    (h : (t.session x).step e = some (out, s)) : StepOf x [] t (t.afterTurn x e out s) where
  ids j hj := List.mem_append_right _ hj
  uuid := fresh_ids hinv hfresh
  peer := Function.update_of_ne x.other_ne ..
  received := outbox_afterTurn_other.symm
  kept := by
    rw [outbox_afterTurn]
    have hids : ∀ id st, (t.session x).streams.get? id = some st → id ∈ (t.afterTurn x e out s).ids :=
      fun id st hst => List.mem_append_right _ (hinv.live x id st hst)
    have hkept := (TunnelSession.step_kept (hinv.sound x) hids hopen
      (fun id he => List.mem_append_left _ (by simp [he, newId])) h).prepend (t.wire x.other)
    simpa only [afterTurn, Function.update_self, outbox, TunnelSession.pending] using hkept
  sound := by simpa only [afterTurn, Function.update_self] using (hinv.sound x).step h

theorem stepOf_deliver (hinv : t.Inv) (hwire : t.wire x = f :: rest)
    (hkept : TunnelSession.Kept t.ids [f] (t.session x) (t.session x).pending
      ((t.session x).receive f) ((t.session x).receive f).pending) :
    StepOf x [f] t (t.afterDeliver x f rest) where
  ids _ hj := hj
  uuid := hinv.uuid
  peer := Function.update_of_ne x.other_ne ..
  received := outbox_afterDeliver_other hwire
  kept := by
    rw [outbox_afterDeliver]
    simpa only [afterDeliver, Function.update_self, outbox, TunnelSession.pending] using
      hkept.prepend (t.wire x.other)
  sound := by simpa only [afterDeliver, Function.update_self] using (hinv.sound x).receive

theorem mem_outbox_of_wire (hwire : t.wire x = f :: rest) : f ∈ t.outbox x.other := by
  rw [outbox, Side.other_other, hwire]
  exact List.mem_append_left _ (List.mem_cons_self ..)

theorem opens_of_deliver (hinv : t.Inv) (hwire : t.wire x = f :: rest) (htype : f.type = .open_) (hreceive : (t.session
    x).receive f = (t.session x).setStream f.id {}) : Opens x f.id [] [f] t (t.afterDeliver x f rest) := by
  have hf := mem_outbox_of_wire hwire
  have hsplit := outbox_afterDeliver_other hwire
  refine ⟨fun _ hj => hj, hinv.uuid, hinv.known _ f hf, ?_, fun j => ?_, Function.update_of_ne x.other_ne ..,
    ?_, hsplit, fun g hg => (by cases hg), by simpa using htype, fun g hg => (by cases hg), by simp,
    hinv.opening _ f hf htype, fun g hg hg' => ?_, fun st hst => ?_⟩
  · simpa only [afterDeliver, Function.update_self] using (hinv.sound x).receive
  · simp only [stream, afterDeliver, Function.update_self, hreceive, TunnelSession.streams_setStream,
      InsertionMap.get?_set]
  · rw [outbox_afterDeliver, hreceive, List.append_nil]
    rfl
  · have horder := hinv.order x.other
    rw [hsplit, List.singleton_append, List.pairwise_cons] at horder
    exact (horder.1 g hg hg').symm
  · exact hinv.balanced _ _ st hst (.inr ⟨f, hf, htype, rfl⟩)

theorem Inv.deliver (hinv : t.Inv) (hwire : t.wire x = f :: rest) : (t.afterDeliver x f rest).Inv := by
  have hf := mem_outbox_of_wire hwire
  by_cases htype : f.type = .open_
  · rcases TunnelSession.receive_open (s := t.session x) htype with hclose | ⟨hc, hsame⟩ | ⟨-, hnew⟩
    · refine (stepOf_deliver hinv hwire ?_).inv hinv
      rw [hclose]
      exact TunnelSession.kept_close
    · refine (stepOf_deliver hinv hwire ?_).inv hinv
      rw [hsame]
      exact .closed ((hinv.sound x).closed hc) (.refl _)
    · exact (opens_of_deliver hinv hwire htype hnew).inv hinv
  · exact (stepOf_deliver hinv hwire (TunnelSession.receive_kept (hinv.sound x) (hinv.known _ f hf)
      (hinv.honest _ f hf) htype)).inv hinv

theorem Inv.step {e : Event} {a : Unit} (hinv : t.Inv) (h : system.step e t = some (a, t')) : t'.Inv := by
  cases e with
  | turn x e =>
    simp only [system] at h
    split at h
    case isFalse => cases h
    case isTrue hfresh =>
      obtain ⟨⟨out, s⟩, hstep, hr⟩ := Option.map_eq_some_iff.mp h
      obtain ⟨-, rfl⟩ := Prod.mk.inj hr
      by_cases hopen : ∃ id, e = .open_ id
      · obtain ⟨id, rfl⟩ := hopen
        exact (opens_of_turn hinv hfresh hstep).inv hinv
      · exact (stepOf_turn hinv hfresh (fun id he => hopen ⟨id, he⟩) hstep).inv hinv
  | deliver x =>
    simp only [system] at h
    split at h
    · cases h
    · case h_2 f rest hwire =>
      obtain ⟨-, rfl⟩ := Prod.mk.inj (Option.some.inj h)
      exact hinv.deliver hwire

theorem reach_inv (h : system.Reach init t) : t.Inv :=
  h.invariant Inv.init fun _ _ _ _ hinv _ hstep => hinv.step hstep

/-! ## What is accepted -/

theorem Inv.id_short (hinv : t.Inv) (hwire : t.wire x = f :: rest) : ¬ f.id.length > 80 := by
  have := hinv.uuid _ (hinv.known _ f (mem_outbox_of_wire hwire))
  simp only [uuidLength] at this
  omega

theorem Inv.window_accepted (hinv : t.Inv) (hwire : t.wire x = f :: rest) (htype : f.type = .window) :
    ((t.session x).accept f).isSome := by
  have hf := mem_outbox_of_wire hwire
  unfold TunnelSession.accept
  rw [if_neg (hinv.id_short hwire), htype]
  dsimp only
  cases hst : (t.session x).streams.get? f.id with
  | none => rfl
  | some st =>
    obtain ⟨n, hn, hpos⟩ := (hinv.honest _ f hf).window htype
    have hbound := hinv.bounded x f.id st hst
    have hcredit : n ≤ creditBytes f.id (t.outbox x.other) := by
      rw [outbox, Side.other_other, hwire, List.cons_append, creditBytes_cons]
      have hbytes : f.creditBytes f.id = n := by simp [Frame.creditBytes, htype, hn]
      omega
    unfold total at hbound
    simp only [TunnelSession.receiveOnStream, htype, TunnelStream.replenish, hn]
    rw [if_neg (by omega)]
    rfl

theorem base64Length_le {m n : Nat} (h : m ≤ n) : base64Length m ≤ base64Length n := by
  unfold base64Length
  omega

/-- Data are accepted if and only if the buffer has room. -/
theorem Inv.data_accepted (hinv : t.Inv) (hwire : t.wire x = f :: rest) (htype : f.type = .data) :
    ((t.session x).accept f).isSome ↔ ∀ stream, t.stream x f.id = some stream →
      stream.readableLength + f.data.getD 0 ≤ streamWindowBytes + dataFrameBytes := by
  unfold TunnelSession.accept
  rw [if_neg (hinv.id_short hwire), htype]
  dsimp only
  unfold stream
  cases hst : (t.session x).streams.get? f.id with
  | none => simp
  | some st =>
    obtain ⟨n, hn, hpos, hle⟩ := (hinv.honest _ f (mem_outbox_of_wire hwire)).data htype
    simp only [TunnelSession.receiveOnStream, htype, hn, Option.some.injEq, forall_eq', Option.getD_some]
    rw [if_neg (not_lt.mpr (base64Length_le hle))]
    simp only [TunnelSession.receiveData, TunnelStream.admits, Option.isSome_map]
    split
    · simp only [Option.isSome_none, Bool.false_eq_true, false_iff]
      omega
    · simp only [Option.isSome_some, true_iff]
      omega

theorem Inv.conserved (hinv : t.Inv) {sender receiver : TunnelStream}
    (hsender : t.stream x id = some sender) (hreceiver : t.stream x.other id = some receiver) :
    receiver.uncredited ≤ receiver.readableLength ∧
      sender.credit + dataBytes id (t.outbox x) + receiver.uncredited +
        creditBytes id (t.outbox x.other) = streamWindowBytes := by
  have htotal := hinv.balanced x id sender hsender (.inl (by rw [hreceiver]; rfl))
  have huncredited : t.uncreditedOf x.other id = receiver.uncredited := by
    rw [uncreditedOf, hreceiver]
    rfl
  rw [total, huncredited] at htotal
  refine ⟨?_, htotal⟩
  rcases (hinv.sound x.other).full id receiver hreceiver with hzero | hfull <;> omega

end

/-- In every state of every run, flow control keeps its promise if and only if no reader has fallen
behind. -/
theorem flowControlled_iff (h : system.Reach init t) : t.FlowControlled ↔ t.ReadersKeepUp := by
  have hinv := reach_inv h
  constructor
  · intro hflow x f rest hwire htype stream hst
    have hopen := (hinv.sound x).open_of_stream hst
    exact (hinv.data_accepted hwire htype).mp (hflow.data_accepted x f rest hwire hopen htype) stream hst
  · intro hreaders
    exact ⟨fun x f rest hwire _ htype ↦
        (hinv.data_accepted hwire htype).mpr (hreaders x f rest hwire htype),
      fun x f rest hwire _ htype ↦ hinv.window_accepted hwire htype,
      fun x id sender receiver ↦ hinv.conserved⟩

/-! ## A consumer that does not read -/

def uuid : JsString := List.replicate uuidLength 97

/-- The first send of `x` goes through. -/
def sendOne (x : Side) : List Event := [.turn x (.dispatch true true), .turn x (.sent true)]

/-- A frame of data of the caller, and the credit that the receiver returns at once. -/
def creditedFrame : List Event :=
  [.turn .caller (.writeTurn uuid)] ++ sendOne .caller ++ [.deliver .receiver] ++ sendOne .receiver ++
    [.deliver .caller]

def opened : List Event :=
  [.turn .caller (.open_ uuid)] ++ sendOne .caller ++
    [.deliver .receiver, .turn .caller (.write uuid 84000)]

/-- The receiver credits five frames that nobody has read.  The sixth fills its buffer, and the
seventh, which the credit allows, is an error. -/
theorem stalled_reader_closes : ¬ ∀ t, system.Reach init t → t.FlowControlled := by
  intro hall
  have hrun : (system.run init (opened ++ creditedFrame ++ creditedFrame ++ creditedFrame ++
      creditedFrame ++ creditedFrame ++ [.turn .caller (.writeTurn uuid)] ++ sendOne .caller ++
      [.deliver .receiver, .turn .caller (.writeTurn uuid)] ++ sendOne .caller)).any
      (fun t ↦ match t.wire .receiver with
        | [] => false
        | f :: _ => decide (f.type = .data) && !(t.session .receiver).closed &&
            ((t.session .receiver).accept f).isNone) = true := by
    decide +kernel
  obtain ⟨t, ht, hend⟩ := (Option.any_eq_true _ _).mp hrun
  split at hend
  case h_1 => cases hend
  case h_2 f rest hwire =>
    simp only [Bool.and_eq_true, decide_eq_true_eq, Bool.not_eq_true', Option.isNone_iff_eq_none] at hend
    obtain ⟨⟨htype, hopen⟩, haccept⟩ := hend
    have hsome := (hall t (System.run_reach ht)).data_accepted _ f rest hwire hopen htype
    rw [haccept] at hsome
    cases hsome

theorem flowControlled_iff_opened : ∃ t, system.Reach init t ∧
    (t.stream .receiver uuid).isSome ∧ (t.FlowControlled ↔ t.ReadersKeepUp) := by
  have hrun : (system.run init (opened ++ creditedFrame)).any
      (fun t ↦ (t.stream .receiver uuid).isSome) = true := by
    decide +kernel
  obtain ⟨t, ht, hend⟩ := (Option.any_eq_true _ _).mp hrun
  exact ⟨t, System.run_reach ht, hend, flowControlled_iff (System.run_reach ht)⟩

end Tunnel

end RabiRoute.PeerTunnel
