import RabiRoute.PeerTunnel.FlowControl
import RabiRoute.PeerTunnel.Security

/-!
# The frames that a session accepts

Two sessions with the ciphers of one handshake, and an adversary who brings any bytes to either of
them.  A message that opens under a key was sealed with that key, and its nonce says which message
of its direction it is; so a session accepts the frames of its peer in their order.
-/

open Transitions

namespace RabiRoute.PeerTunnel

/-- `encoded` are the frames that the session has encrypted, `accepted` those that it has decrypted,
`sealed` the nonces and plaintexts of its messages. -/
structure Endpoint where
  session : TunnelSession
  cipher : Cipher
  encoded : List Frame := []
  accepted : List Frame := []
  sealedTexts : List (Bytes × Bytes) := []

namespace Endpoint

variable (node : Node) (stringify : Frame → Bytes) (parse : Bytes → Option Frame)

/-- The turn of the first send: the frame is encrypted once `authorize` has let it pass, and an
error of the cipher closes the session. -/
def dispatch (authorized : Bool) (p : Endpoint) : Option (Option Bytes × Endpoint) :=
  match p.session.dispatch authorized true with
  | none => none
  | some (none, session) => some (none, { p with session })
  | some (some frame, session) =>
    match p.cipher.encode node (stringify frame) with
    | (some bytes, cipher) =>
      some (some bytes, { p with
        session, cipher, encoded := p.encoded ++ [frame],
        sealedTexts := p.sealedTexts ++ [(bytes.take nonceBytes, stringify frame)] })
    | (none, cipher) =>
      (p.session.dispatch authorized false).map fun r ↦ (none, { p with session := r.2, cipher })

def step (e : TunnelSession.Event) (p : Endpoint) : Option (Option Bytes × Endpoint) :=
  match e with
  | .dispatch authorized _ => p.dispatch node stringify authorized
  | e => (p.session.step e).map fun r ↦ (none, { p with session := r.2 })

/-- `receive`: what cannot be decoded closes the session. -/
def receive (bytes : Bytes) (p : Endpoint) : Endpoint :=
  if p.session.closed then p
  else
    match p.cipher.decode node parse bytes with
    | none => { p with session := p.session.close }
    | some (frame, cipher) =>
      { p with session := p.session.receive frame, cipher, accepted := p.accepted ++ [frame] }

end Endpoint

structure SecureTunnel where
  endpoint : Side → Endpoint

namespace SecureTunnel

def start (caller receiver : Cipher) : SecureTunnel where
  endpoint
    | .caller => { session := { caller := true }, cipher := caller }
    | .receiver => { session := { caller := false }, cipher := receiver }

/-- `send` is any call of `TunnelSession.send`, with or without an `authorize` callback. -/
inductive Event where
  | send (x : Side) (frame : Frame) (authorize : Bool)
  | turn (x : Side) (e : TunnelSession.Event)
  | deliver (x : Side) (bytes : Bytes)

def set (x : Side) (p : Endpoint) (t : SecureTunnel) : SecureTunnel :=
  ⟨Function.update t.endpoint x p⟩

variable (node : Node) (stringify : Frame → Bytes) (parse : Bytes → Option Frame)

/-- A step answers the message that it hands to the channel. -/
def system : System SecureTunnel Event (Option Bytes) where
  step e t :=
    match e with
    | .send x frame authorize =>
      let p := t.endpoint x
      some (none, t.set x { p with
        session := p.session.send frame (if authorize then .callback else .none) })
    | .turn x e => ((t.endpoint x).step node stringify e).map fun r ↦ (r.1, t.set x r.2)
    | .deliver x bytes => some (none, t.set x ((t.endpoint x).receive node parse bytes))

/-- One of the sessions has sealed the text with the key and the nonce. -/
def wasSealed (key nonce plain : Bytes) (t : SecureTunnel) : Bool :=
  [Side.caller, .receiver].any fun y ↦
    (t.endpoint y).cipher.tx == key && (t.endpoint y).sealedTexts.contains (nonce, plain)

/-- What the channel brings may be anything that AES-GCM does not exclude: what opens under the key
of a session was sealed with it. -/
def Authentic (e : Event) (t : SecureTunnel) : Prop :=
  match e with
  | .deliver x bytes =>
    let body := bytes.drop nonceBytes
    let key := (t.endpoint x).cipher.rx
    (node.decrypt key (bytes.take nonceBytes) (body.take (body.length - tagBytes))
      (body.drop (body.length - tagBytes))).all
        (t.wasSealed key (bytes.take nonceBytes)) = true
  | _ => True

/-- The send whose turn it is at `x` is rejected: nothing is encrypted, and an open session stays
open. -/
def RejectionHarmless (t : SecureTunnel) : Prop :=
  ∀ x job serial authorized, (t.endpoint x).session.sending = none →
    (t.endpoint x).session.serial = job :: serial → (t.endpoint x).session.closed = false →
    ({ (t.endpoint x).session with serial } : TunnelSession).rejects job authorized = true →
    ∀ encoded, ∃ p, (system node stringify parse).step (.turn x (.dispatch authorized encoded)) t =
        some (none, t.set x p) ∧ p.cipher = (t.endpoint x).cipher ∧
      p.encoded = (t.endpoint x).encoded ∧ p.session.closed = false ∧
      ∃ resets, p.session.serial = serial ++ resets

end SecureTunnel

/-! ## A closed session stays closed -/

namespace TunnelSession

variable {s s' : TunnelSession} {id : JsString} {x : TunnelStream} {f : Frame} {out : Option Frame}

@[simp] theorem closed_destroy : (s.destroy id).closed = s.closed := by
  unfold destroy
  split
  · rfl
  · dsimp only
    split
    · exact closed_send
    · rfl

@[simp] theorem closed_read : (s.read id x).closed = s.closed := by
  unfold read
  split
  · rfl
  · exact closed_send

@[simp] theorem closed_consume {length : Nat} : (s.consume id length x).closed = s.closed := by
  unfold consume
  dsimp only
  split
  · exact closed_read
  · rfl

@[simp] theorem closed_writeTurn {rest : Nat} : (s.writeTurn id rest x).closed = s.closed := by
  unfold writeTurn
  split
  · rfl
  · exact closed_send

@[simp] theorem closed_onSent {job : Job} : (s.onSent job).closed = s.closed := by
  unfold onSent
  split <;> rfl

@[simp] theorem closed_onRejected {job : Job} : (s.onRejected job).closed = s.closed := by
  unfold onRejected
  split
  · rfl
  · rfl
  · exact closed_destroy
  · exact closed_destroy

theorem dispatch_closed {authorized encoded : Bool} (h : s.dispatch authorized encoded = some (out, s')) :
    s.closed = true → s'.closed = true := by
  intro hc
  unfold dispatch at h
  split at h
  case h_2 => cases h
  case h_1 =>
    dsimp only at h
    rw [if_pos hc] at h
    exact (Prod.mk.inj (Option.some.inj h)).2 ▸ hc

/-- Only a send that is let through reaches the cipher. -/
theorem dispatch_frame {authorized : Bool} (h : s.dispatch authorized true = some (some f, s')) :
    s.closed = false ∧ s'.closed = false := by
  unfold dispatch at h
  split at h
  case h_2 => cases h
  case h_1 =>
    dsimp only at h
    split at h
    · cases (Prod.mk.inj (Option.some.inj h)).1
    · case isFalse hc =>
      have hopen : s.closed = false := by simpa using hc
      split at h
      · cases (Prod.mk.inj (Option.some.inj h)).1
      · exact ⟨hopen, (Prod.mk.inj (Option.some.inj h)).2 ▸ hopen⟩

theorem dispatch_failed {authorized : Bool} (h : s.dispatch authorized true = some (some f, s')) {r : Option Frame ×
    TunnelSession} (hr : s.dispatch authorized false = some r) : r.2.closed = true := by
  unfold dispatch at h hr
  split at h
  case h_2 => cases h
  case h_1 hsending hserial =>
    rw [hsending, hserial] at hr
    dsimp only at h hr
    split at h
    · cases (Prod.mk.inj (Option.some.inj h)).1
    · case isFalse hc =>
      rw [if_neg hc] at hr
      split at h
      · cases (Prod.mk.inj (Option.some.inj h)).1
      · case isFalse hrejects =>
        rw [if_neg (by simpa only [hsending] using hrejects)] at hr
        exact Option.some.inj hr ▸ rfl

theorem step_closed {e : Event} (h : s.step e = some (out, s')) : s.closed = true → s'.closed = true := by
  intro hc
  cases e with
  | open_ id => exact absurd ((step_open h).1.symm.trans hc) (by decide)
  | reply id =>
    simp only [step] at h
    split at h
    · obtain ⟨-, rfl⟩ := Prod.mk.inj (Option.some.inj h)
      exact closed_send.trans hc
    · cases h
  | write id length | endRead id =>
    obtain ⟨x, hx, h⟩ := Option.bind_eq_some_iff.mp h
    split at h
    · exact (Prod.mk.inj (Option.some.inj h)).2 ▸ hc
    · cases h
  | writeTurn id =>
    obtain ⟨x, hx, h⟩ := Option.bind_eq_some_iff.mp h
    split at h
    · split at h
      · exact (Prod.mk.inj (Option.some.inj h)).2 ▸ closed_writeTurn.trans hc
      · cases h
    · cases h
  | final id =>
    obtain ⟨x, hx, h⟩ := Option.bind_eq_some_iff.mp h
    split at h
    · exact (Prod.mk.inj (Option.some.inj h)).2 ▸ closed_send.trans hc
    · cases h
  | consume id length =>
    obtain ⟨x, hx, h⟩ := Option.bind_eq_some_iff.mp h
    split at h
    · exact (Prod.mk.inj (Option.some.inj h)).2 ▸ closed_consume.trans hc
    · cases h
  | read id =>
    obtain ⟨x, hx, h⟩ := Option.bind_eq_some_iff.mp h
    split at h
    · exact (Prod.mk.inj (Option.some.inj h)).2 ▸ closed_read.trans hc
    · cases h
  | destroy id =>
    simp only [step] at h
    split at h
    · exact (Prod.mk.inj (Option.some.inj h)).2 ▸ closed_destroy.trans hc
    · cases h
  | ping id =>
    obtain ⟨t, ht, -⟩ := Option.map_eq_some_iff.mp h
    simp only [ping, hc, Bool.true_or, if_true] at ht
    cases ht
  | dispatch authorized encoded => exact dispatch_closed h hc
  | sent ok =>
    obtain ⟨t, ht, hout⟩ := Option.map_eq_some_iff.mp h
    obtain ⟨rfl, rfl⟩ := Prod.mk.inj hout
    obtain ⟨job, -, rfl⟩ := Option.map_eq_some_iff.mp ht
    dsimp only
    split
    · exact closed_onSent.trans hc
    · rfl
  | close => exact (Prod.mk.inj (Option.some.inj h)).2 ▸ rfl

end TunnelSession

/-! ## What a step does to the two logs -/

section

variable {node : Node} {stringify : Frame → Bytes} {parse : Bytes → Option Frame}

namespace Cipher

variable {c c' : Cipher} {plain bytes : Bytes} {frame : Frame}

theorem encode_some (h : c.encode node plain = (some bytes, c')) :
    c' = { c with sent := c.sent + 1 } ∧ iv (c.sent + 1) = some (bytes.take nonceBytes) := by
  unfold encode at h
  split at h
  · cases (Prod.mk.inj h).1
  · obtain ⟨hbytes, hc⟩ := Prod.mk.inj h
    obtain ⟨nonce, hnonce, rfl⟩ := Option.map_eq_some_iff.mp hbytes
    refine ⟨hc.symm, ?_⟩
    rw [List.take_left' (iv_length hnonce)]
    exact hnonce

theorem encode_keys {r : Option Bytes} (h : c.encode node plain = (r, c')) :
    c'.tx = c.tx ∧ c'.rx = c.rx ∧ c'.received = c.received := by
  unfold encode at h
  split at h <;> obtain ⟨-, rfl⟩ := Prod.mk.inj h <;> exact ⟨rfl, rfl, rfl⟩

theorem decode_some (h : c.decode node parse bytes = some (frame, c')) :
    c' = { c with received := c.received + 1 } ∧
      iv (c.received + 1) = some (bytes.take nonceBytes) ∧
      ∃ plain, node.decrypt c.rx (bytes.take nonceBytes)
          ((bytes.drop nonceBytes).take ((bytes.drop nonceBytes).length - tagBytes))
          ((bytes.drop nonceBytes).drop ((bytes.drop nonceBytes).length - tagBytes)) = some plain ∧
        parse plain = some frame := by
  unfold decode at h
  split at h
  · cases h
  · case isFalse hguard =>
    obtain ⟨value, hvalue, hpair⟩ := Option.map_eq_some_iff.mp h
    obtain ⟨rfl, rfl⟩ := Prod.mk.inj hpair
    obtain ⟨plain, hplain, hparse⟩ := Option.bind_eq_some_iff.mp hvalue
    have hnonce : some (bytes.take nonceBytes) = iv (c.received + 1) := not_not.mp fun h => hguard (.inr (.inr h))
    exact ⟨rfl, hnonce.symm, plain, hplain, hparse⟩

end Cipher

namespace Endpoint

/-- A step that neither encrypts nor decrypts a frame. -/
structure Quiet (p p' : Endpoint) : Prop where
  tx : p'.cipher.tx = p.cipher.tx
  rx : p'.cipher.rx = p.cipher.rx
  received : p'.cipher.received = p.cipher.received
  encoded : p'.encoded = p.encoded
  accepted : p'.accepted = p.accepted
  sealedTexts : p'.sealedTexts = p.sealedTexts
  sent : p'.session.closed = false → p.session.closed = false ∧ p'.cipher.sent = p.cipher.sent

/-- A step that encrypts `frame`. -/
structure Encodes (stringify : Frame → Bytes) (frame : Frame) (p p' : Endpoint) : Prop where
  tx : p'.cipher.tx = p.cipher.tx
  rx : p'.cipher.rx = p.cipher.rx
  received : p'.cipher.received = p.cipher.received
  encoded : p'.encoded = p.encoded ++ [frame]
  accepted : p'.accepted = p.accepted
  sealedTexts : ∃ nonce, iv (p.cipher.sent + 1) = some nonce ∧
    p'.sealedTexts = p.sealedTexts ++ [(nonce, stringify frame)]
  open_ : p.session.closed = false
  sent : p'.cipher.sent = p.cipher.sent + 1

/-- A step that decrypts a frame from `bytes`. -/
structure Accepts (node : Node) (parse : Bytes → Option Frame) (bytes : Bytes) (frame : Frame)
    (p p' : Endpoint) : Prop where
  tx : p'.cipher.tx = p.cipher.tx
  rx : p'.cipher.rx = p.cipher.rx
  received : p'.cipher.received = p.cipher.received + 1
  encoded : p'.encoded = p.encoded
  accepted : p'.accepted = p.accepted ++ [frame]
  sealedTexts : p'.sealedTexts = p.sealedTexts
  sent : p'.session.closed = false → p.session.closed = false ∧ p'.cipher.sent = p.cipher.sent
  nonce : iv (p.cipher.received + 1) = some (bytes.take nonceBytes)
  opened : ∃ plain, node.decrypt p.cipher.rx (bytes.take nonceBytes)
      ((bytes.drop nonceBytes).take ((bytes.drop nonceBytes).length - tagBytes))
      ((bytes.drop nonceBytes).drop ((bytes.drop nonceBytes).length - tagBytes)) = some plain ∧
    parse plain = some frame

variable {p p' : Endpoint} {out : Option Bytes} {bytes : Bytes} {s : TunnelSession}

theorem Quiet.session (hs : s.closed = false → p.session.closed = false) :
    Quiet p { p with session := s } :=
  ⟨rfl, rfl, rfl, rfl, rfl, rfl, fun hc => ⟨hs hc, rfl⟩⟩

theorem closed_of_step {s s' : TunnelSession} (h : s.closed = true → s'.closed = true)
    (hc : s'.closed = false) : s.closed = false := by
  cases hs : s.closed with
  | false => rfl
  | true => rw [h hs] at hc; cases hc

theorem dispatch_effect {authorized : Bool} (h : p.dispatch node stringify authorized = some (out, p')) :
    Quiet p p' ∨ ∃ frame, Encodes stringify frame p p' := by
  unfold dispatch at h
  split at h
  case h_1 => cases h
  case h_2 session hsession =>
    obtain ⟨-, rfl⟩ := Prod.mk.inj (Option.some.inj h)
    exact .inl (.session (closed_of_step (TunnelSession.dispatch_closed hsession)))
  case h_3 frame session hsession =>
    split at h
    case h_1 bytes cipher hencode =>
      obtain ⟨-, rfl⟩ := Prod.mk.inj (Option.some.inj h)
      obtain ⟨rfl, hnonce⟩ := Cipher.encode_some hencode
      exact .inr ⟨frame, rfl, rfl, rfl, rfl, rfl, ⟨_, hnonce, rfl⟩, (TunnelSession.dispatch_frame hsession).1, rfl⟩
    case h_2 cipher hencode =>
      obtain ⟨r, hr, hp⟩ := Option.map_eq_some_iff.mp h
      obtain ⟨-, rfl⟩ := Prod.mk.inj hp
      obtain ⟨htx, hrx, hreceived⟩ := Cipher.encode_keys hencode
      have hclosed := TunnelSession.dispatch_failed hsession hr
      exact .inl ⟨htx, hrx, hreceived, rfl, rfl, rfl, fun hc => by rw [hclosed] at hc; cases hc⟩

theorem step_effect {e : TunnelSession.Event} (h : p.step node stringify e = some (out, p')) :
    Quiet p p' ∨ ∃ frame, Encodes stringify frame p p' := by
  unfold step at h
  split at h
  · exact dispatch_effect h
  · obtain ⟨⟨frame, s⟩, hr, hp⟩ := Option.map_eq_some_iff.mp h
    obtain ⟨-, rfl⟩ := Prod.mk.inj hp
    exact .inl (.session (closed_of_step (TunnelSession.step_closed hr)))

theorem receive_effect (node : Node) (parse : Bytes → Option Frame) (p : Endpoint) (bytes : Bytes) : Quiet p (p.receive
    node parse bytes) ∨ ∃ frame, Accepts node parse bytes frame p (p.receive node parse bytes) := by
  unfold receive
  split
  · exact .inl (.session id)
  · case isFalse hc =>
    have hopen : p.session.closed = false := by simpa using hc
    split
    · exact .inl (.session fun _ => hopen)
    · case h_2 frame cipher hdecode =>
      obtain ⟨rfl, hnonce, hplain⟩ := Cipher.decode_some hdecode
      exact .inr ⟨frame, rfl, rfl, rfl, rfl, rfl, rfl, fun _ => ⟨hopen, rfl⟩, hnonce, hplain⟩

end Endpoint

namespace SecureTunnel

/-! ## The invariant -/

variable (stringify parse) in
structure Inv (t : SecureTunnel) : Prop where
  shared : ∀ x, (t.endpoint x).cipher.tx = (t.endpoint x.other).cipher.rx
  separate : ∀ x, (t.endpoint x).cipher.tx ≠ (t.endpoint x).cipher.rx
  numbered : ∀ x, (t.endpoint x).session.closed = false →
    (t.endpoint x).cipher.sent = (t.endpoint x).encoded.length
  texts : ∀ x, ∀ text ∈ (t.endpoint x).sealedTexts, ∃ i frame, (t.endpoint x).encoded[i]? = some frame ∧
    iv (i + 1) = some text.1 ∧ text.2 = stringify frame
  behind : ∀ x, (t.endpoint x).cipher.received ≤ (t.endpoint x.other).encoded.length
  accepted : ∀ x, (t.endpoint x).accepted.map some =
    ((t.endpoint x.other).encoded.take (t.endpoint x).cipher.received).map fun f ↦ parse (stringify f)

variable {t t' : SecureTunnel} {x : Side} {p : Endpoint} {bytes : Bytes} {frame : Frame} {ca cr : Cipher}

theorem Inv.start (h : TunnelHandshake.Paired ca cr) : (start ca cr).Inv stringify parse := by
  obtain ⟨hca, hca', hcr, hcr'⟩ := h.fresh
  refine ⟨fun x => ?_, fun x => ?_, fun x _ => ?_, fun x _ hx => ?_, fun x => ?_, fun x => ?_⟩ <;> cases x
  · exact h.forward
  · exact h.backward.symm
  · exact h.separate
  · show cr.tx ≠ cr.rx
    rw [← h.forward, ← h.backward]
    exact h.separate.symm
  · exact hca
  · exact hcr
  · cases hx
  · cases hx
  · exact hca'.le
  · exact hcr'.le
  · show [] = ([].take ca.received).map _
    rw [List.take_nil, List.map_nil]
  · show [] = ([].take cr.received).map _
    rw [List.take_nil, List.map_nil]

@[simp] theorem set_self : (t.set x p).endpoint x = p := Function.update_self ..

@[simp] theorem set_other : (t.set x p).endpoint x.other = t.endpoint x.other :=
  Function.update_of_ne x.other_ne ..

/-- A step of one side keeps the invariant if both directions that it takes part in stay right. -/
theorem Inv.set (hinv : t.Inv stringify parse) (htx : p.cipher.tx = (t.endpoint x).cipher.tx)
    (hrx : p.cipher.rx = (t.endpoint x).cipher.rx)
    (hnumbered : p.session.closed = false → p.cipher.sent = p.encoded.length)
    (htexts : ∀ text ∈ p.sealedTexts, ∃ i frame, p.encoded[i]? = some frame ∧
      iv (i + 1) = some text.1 ∧ text.2 = stringify frame)
    (hbehind : p.cipher.received ≤ (t.endpoint x.other).encoded.length)
    (haccepted : p.accepted.map some =
      ((t.endpoint x.other).encoded.take p.cipher.received).map fun f => parse (stringify f))
    (hencoded : (t.endpoint x).encoded <+: p.encoded) : (t.set x p).Inv stringify parse := by
  obtain ⟨more, hmore⟩ := hencoded
  have hpeer := hinv.behind x.other
  have hpeer' := hinv.accepted x.other
  rw [Side.other_other] at hpeer hpeer'
  refine ⟨fun y => ?_, fun y => ?_, fun y hc => ?_, fun y text htext => ?_, fun y => ?_, fun y => ?_⟩ <;>
    obtain rfl | rfl := x.eq_or_eq_other y <;>
    simp only [Side.other_other, set_self, set_other] at *
  · rw [htx]; exact hinv.shared _
  · have := hinv.shared x.other
    rw [Side.other_other] at this
    rw [hrx]; exact this
  · rw [htx, hrx]; exact hinv.separate _
  · exact hinv.separate _
  · exact hnumbered hc
  · exact hinv.numbered _ hc
  · exact htexts text htext
  · exact hinv.texts _ text htext
  · exact hbehind
  · rw [← hmore, List.length_append]
    omega
  · exact haccepted
  · rw [← hmore, List.take_append_of_le_length hpeer]
    exact hpeer'

theorem Inv.quiet (hinv : t.Inv stringify parse) (h : Endpoint.Quiet (t.endpoint x) p) :
    (t.set x p).Inv stringify parse := by
  refine hinv.set h.tx h.rx (fun hc => ?_) ?_ ?_ ?_ ?_
  · obtain ⟨hopen, hsent⟩ := h.sent hc
    rw [hsent, h.encoded]
    exact hinv.numbered x hopen
  · rw [h.sealedTexts, h.encoded]
    exact hinv.texts x
  · rw [h.received]
    exact hinv.behind x
  · rw [h.accepted, h.received]
    exact hinv.accepted x
  · exact h.encoded ▸ List.prefix_rfl

theorem Inv.encodes (hinv : t.Inv stringify parse)
    (h : Endpoint.Encodes stringify frame (t.endpoint x) p) : (t.set x p).Inv stringify parse := by
  have hsent := hinv.numbered x h.open_
  refine hinv.set h.tx h.rx (fun _ => ?_) (fun text htext => ?_) ?_ ?_ ?_
  · rw [h.sent, hsent, h.encoded, List.length_append]
    rfl
  · obtain ⟨nonce, hnonce, htexts⟩ := h.sealedTexts
    rcases List.mem_append.mp (htexts ▸ htext) with hold | hnew
    · obtain ⟨i, f, hi, hiv, htext⟩ := hinv.texts x text hold
      refine ⟨i, f, ?_, hiv, htext⟩
      rw [h.encoded, List.getElem?_append_left (List.getElem?_eq_some_iff.mp hi).1]
      exact hi
    · obtain rfl := List.mem_singleton.mp hnew
      refine ⟨(t.endpoint x).encoded.length, frame, ?_, hsent ▸ hnonce, rfl⟩
      rw [h.encoded, List.getElem?_append_right le_rfl, Nat.sub_self]
      rfl
  · rw [h.received]
    exact hinv.behind x
  · rw [h.accepted, h.received]
    exact hinv.accepted x
  · rw [h.encoded]
    exact List.prefix_append ..

/-- What opens at `x` is the next frame of its peer: only the peer seals with that key, and the
nonce is the number of the message. -/
theorem Inv.accepts (hinv : t.Inv stringify parse) (hauthentic : Authentic node (.deliver x bytes) t) (h :
    Endpoint.Accepts node parse bytes frame (t.endpoint x) p) : (t.set x p).Inv stringify parse := by
  obtain ⟨plain, hplain, hparse⟩ := h.opened
  have hsealed : t.wasSealed (t.endpoint x).cipher.rx (bytes.take nonceBytes) plain = true := by
    unfold Authentic at hauthentic
    dsimp only at hauthentic
    rwa [hplain, Option.all_some] at hauthentic
  have hmem : (bytes.take nonceBytes, plain) ∈ (t.endpoint x.other).sealedTexts := by
    have hown := hinv.separate x
    unfold wasSealed at hsealed
    cases x <;>
      simp only [List.any_cons, List.any_nil, Bool.or_false, Bool.or_eq_true, Bool.and_eq_true,
        beq_iff_eq, List.contains_iff_mem] at hsealed
    · exact (hsealed.resolve_left fun h => hown h.1).2
    · exact (hsealed.resolve_right fun h => hown h.1).2
  obtain ⟨i, f, hi, hiv, rfl⟩ := hinv.texts x.other _ hmem
  obtain rfl : (t.endpoint x).cipher.received = i :=
    Nat.succ.inj (iv_injective h.nonce hiv)
  obtain ⟨hlt, hget⟩ := List.getElem?_eq_some_iff.mp hi
  refine hinv.set h.tx h.rx (fun hc => ?_) ?_ ?_ ?_ ?_
  · obtain ⟨hopen, hsent⟩ := h.sent hc
    rw [hsent, h.encoded]
    exact hinv.numbered x hopen
  · rw [h.sealedTexts, h.encoded]
    exact hinv.texts x
  · rw [h.received]
    exact hlt
  · rw [h.accepted, h.received, List.map_append, hinv.accepted x, List.take_succ_eq_append_getElem hlt,
      List.map_append, hget, List.map_singleton, List.map_singleton, hparse]
  · exact h.encoded ▸ List.prefix_rfl

theorem Inv.step {e : Event} {a : Option Bytes} (hinv : t.Inv stringify parse) (hok : Authentic node e t)
    (h : (system node stringify parse).step e t = some (a, t')) : t'.Inv stringify parse := by
  cases e with
  | send x frame authorize =>
    obtain ⟨-, rfl⟩ := Prod.mk.inj (Option.some.inj h)
    exact hinv.quiet (.session fun hc => by rwa [TunnelSession.closed_send] at hc)
  | turn x e =>
    obtain ⟨⟨out, p⟩, hr, hp⟩ := Option.map_eq_some_iff.mp h
    obtain ⟨-, rfl⟩ := Prod.mk.inj hp
    rcases Endpoint.step_effect hr with hquiet | ⟨frame, hencodes⟩
    · exact hinv.quiet hquiet
    · exact hinv.encodes hencodes
  | deliver x bytes =>
    obtain ⟨-, rfl⟩ := Prod.mk.inj (Option.some.inj h)
    rcases Endpoint.receive_effect node parse (t.endpoint x) bytes with hquiet | ⟨frame, haccepts⟩
    · exact hinv.quiet hquiet
    · exact hinv.accepts hok haccepts

theorem reach_inv (hpaired : TunnelHandshake.Paired ca cr) (h : (system node stringify parse).ReachUnder (Authentic
    node) (start ca cr) t) : t.Inv stringify parse :=
  h.invariant (.start hpaired) fun _ _ _ _ hinv hok hstep => hinv.step hok hstep

/-! ## Rejected sends -/

theorem serial_onRejected {s : TunnelSession} {job : Job} :
    ∃ resets, (s.onRejected job).serial = s.serial ++ resets := by
  have hdestroy : ∃ resets, (s.destroy job.frame.id).serial = s.serial ++ resets := by
    unfold TunnelSession.destroy
    split
    · exact ⟨[], (List.append_nil _).symm⟩
    · dsimp only
      split
      · unfold TunnelSession.send
        split
        · exact ⟨[], (List.append_nil _).symm⟩
        · exact ⟨_, rfl⟩
      · exact ⟨[], (List.append_nil _).symm⟩
  unfold TunnelSession.onRejected
  split
  · exact ⟨[], (List.append_nil _).symm⟩
  · exact ⟨[], (List.append_nil _).symm⟩
  · exact hdestroy
  · exact hdestroy

theorem dispatch_rejected {s : TunnelSession} {job : Job} {serial : List Job} {a e : Bool}
    (hsending : s.sending = none) (hserial : s.serial = job :: serial) (hopen : s.closed = false)
    (hrejects : ({ s with serial } : TunnelSession).rejects job a = true) :
    s.dispatch a e = some (none, ({ s with serial } : TunnelSession).onRejected job) := by
  unfold TunnelSession.dispatch
  split
  case h_1 job' serial' _ hserial' =>
    obtain ⟨rfl, rfl⟩ := List.cons.inj (hserial.symm.trans hserial')
    dsimp only
    rw [if_neg (by simp [hopen]), if_pos hrejects]
  case h_2 hno => exact absurd hserial (hno job serial hsending)

theorem rejectionHarmless (t : SecureTunnel) : t.RejectionHarmless node stringify parse := by
  intro x job serial authorized hsending hserial hopen hrejects encoded
  refine ⟨{ t.endpoint x with
    session := ({ (t.endpoint x).session with serial } : TunnelSession).onRejected job }, ?_, rfl, rfl,
    TunnelSession.closed_onRejected.trans hopen, serial_onRejected⟩
  have hdispatch := dispatch_rejected (e := true) hsending hserial hopen hrejects
  simp only [system, Endpoint.step, Endpoint.dispatch, hdispatch, Option.map_some]

/-! ## The frames that are accepted -/

instance (node : Node) (e : Event) (t : SecureTunnel) : Decidable (Authentic node e t) :=
  match e with
  | .send .. | .turn .. => .isTrue trivial
  | .deliver .. => inferInstanceAs (Decidable (_ = true))

/-- A cipher whose tag is the key. -/
def tagNode : Node where
  generateKeyPair seed := ([UInt16.ofNat seed], [UInt16.ofNat seed])
  sign _ privateKey := privateKey
  verify _ publicKey signature := publicKey == signature
  keyType key := some (if key.length = 1 then .x25519 else .ed25519)
  diffieHellman own remote := [UInt8.ofNat ((own ++ remote).map UInt16.toNat).sum]
  hkdf _ _ info := List.replicate 32 (UInt8.ofNat info.length)
  encrypt key _ plain := plain ++ key.take tagBytes
  decrypt key _ text tag := if tag = key.take tagBytes then some text else none
  fieldsBytes _ := []
  transcriptBytes _ _ := []

def pingFrame : Frame := { type := .ping, id := Tunnel.uuid }

def pingBytes : Bytes := [123, 125]

def parsePing (bytes : Bytes) : Option Frame := if bytes = pingBytes then some pingFrame else none

/-- The message that the caller sends with the number `n`. -/
def pingMessage (n : UInt8) : Bytes :=
  List.replicate 11 0 ++ [n] ++ pingBytes ++ List.replicate tagBytes 20

end SecureTunnel

end

end RabiRoute.PeerTunnel
