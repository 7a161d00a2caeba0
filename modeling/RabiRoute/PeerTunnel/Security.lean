import RabiRoute.Shared.JsString

/-!
# The handshake and the cipher of a tunnel

`createTunnelHandshake` of `security.ts`.  Each side signs a hello, and the keys of the two
directions come from the two hellos.  A message is the nonce, the ciphertext and the tag, and the
nonce is the number of the message in its direction.
-/

namespace RabiRoute.PeerTunnel

abbrev Bytes := List UInt8

structure TunnelIdentity where
  deviceId : JsString
  generation : JsString
  publicKey : JsString
  privateKey : JsString

structure TunnelGrant where
  deviceId : JsString
  publicKey : JsString

/-- The fields of a hello that its signature covers. -/
structure HelloFields where
  deviceId : JsString
  generation : JsString
  publicKey : JsString
  ephemeral : JsString
  nonce : JsString
  target : JsString

structure TunnelHello extends HelloFields where
  signature : JsString

inductive KeyType where
  | ed25519
  | x25519
  | other
deriving DecidableEq

/-- What `node:crypto` and `JSON` compute.  `encrypt` gives the ciphertext with its tag and
binds the name of the protocol; `keyType` is `none` for a text that is no key. -/
structure Node where
  generateKeyPair : Nat → JsString × JsString
  sign : Bytes → JsString → JsString
  verify : Bytes → JsString → JsString → Bool
  keyType : JsString → Option KeyType
  diffieHellman : JsString → JsString → Bytes
  hkdf : Bytes → Bytes → JsString → Bytes
  encrypt : Bytes → Bytes → Bytes → Bytes
  decrypt : Bytes → Bytes → Bytes → Bytes → Option Bytes
  fieldsBytes : HelloFields → Bytes
  transcriptBytes : TunnelHello → TunnelHello → Bytes

inductive TunnelDenied where
  | peer_identity_denied
  | peer_signature_denied
  | peer_key_denied
  | invalid_key

def protocol : JsString := js "rabi-tunnel-v1"

/-! ## The cipher -/

structure Cipher where
  tx : Bytes
  rx : Bytes
  sent : Nat := 0
  received : Nat := 0

/-- The `width` last bytes of `n`, the highest first. -/
def bytesBE : Nat → Nat → Bytes
  | 0, _ => []
  | width + 1, n => bytesBE width (n / 256) ++ [UInt8.ofNat n]

/-- The counter in the last eight of twelve bytes; a larger one is a `RangeError`. -/
def iv (n : Nat) : Option Bytes :=
  if n < 2 ^ 64 then some (List.replicate 4 0 ++ bytesBE 8 n) else none

def maxPlainBytes : Nat := 32768
def nonceBytes : Nat := 12
def tagBytes : Nat := 16

variable (node : Node)

/-- `encode`, with the message or none for an error.  A frame that is too large leaves the counter. -/
def Cipher.encode (plain : Bytes) (c : Cipher) : Option Bytes × Cipher :=
  if plain.length > maxPlainBytes then (none, c)
  else
    let c := { c with sent := c.sent + 1 }
    ((iv c.sent).map fun nonce ↦ nonce ++ node.encrypt c.tx nonce plain, c)

/-- `decode`; the counter advances once the message is decrypted and parsed. -/
def Cipher.decode {F : Type} (parse : Bytes → Option F) (bytes : Bytes) (c : Cipher) :
    Option (F × Cipher) :=
  if bytes.length < nonceBytes + tagBytes ∨ bytes.length > maxPlainBytes + nonceBytes + tagBytes ∨
      some (bytes.take nonceBytes) ≠ iv (c.received + 1) then none
  else
    let body := bytes.drop nonceBytes
    ((node.decrypt c.rx (bytes.take nonceBytes) (body.take (body.length - tagBytes))
        (body.drop (body.length - tagBytes))).bind parse).map
      fun value ↦ (value, { c with received := c.received + 1 })

/-! ## The handshake -/

structure TunnelHandshake where
  identity : TunnelIdentity
  ephemeralKey : JsString
  hello : TunnelHello

/-- `seed` and `nonce` are the random choices of the handshake. -/
def createTunnelHandshake (identity : TunnelIdentity) (target : JsString) (seed : Nat) (nonce : JsString) :
    TunnelHandshake :=
  let ephemeral := node.generateKeyPair seed
  let fields : HelloFields :=
    { deviceId := identity.deviceId, generation := identity.generation, publicKey := identity.publicKey,
      ephemeral := ephemeral.1, nonce, target }
  { identity, ephemeralKey := ephemeral.2,
    hello := { fields with signature := node.sign (node.fieldsBytes fields) identity.privateKey } }

def isHex (u : UInt16) : Bool := (48 ≤ u && u ≤ 57) || (97 ≤ u && u ≤ 102)

namespace TunnelHandshake

/-- The key of one direction. -/
def derive (secret transcript : Bytes) (label : String) : Bytes :=
  node.hkdf secret transcript (protocol ++ js label)

def accept (handshake : TunnelHandshake) (remote : TunnelHello) (grant : TunnelGrant) (caller : Bool) :
    Except TunnelDenied Cipher :=
  if remote.deviceId ≠ grant.deviceId ∨ remote.publicKey ≠ grant.publicKey ∨
      remote.target ≠ handshake.identity.deviceId ∨
      ¬ (remote.nonce.length = 48 ∧ remote.nonce.all isHex) ∨ remote.generation.length > 128 then
    .error .peer_identity_denied
  else if node.keyType remote.publicKey = none then .error .invalid_key
  else if node.keyType remote.publicKey ≠ some .ed25519 ∨
      !node.verify (node.fieldsBytes remote.toHelloFields) grant.publicKey remote.signature then
    .error .peer_signature_denied
  else if node.keyType remote.ephemeral = none then .error .invalid_key
  else if node.keyType remote.ephemeral ≠ some .x25519 then .error .peer_key_denied
  else
    let secret := node.diffieHellman handshake.ephemeralKey remote.ephemeral
    let transcript :=
      if caller then node.transcriptBytes handshake.hello remote
      else node.transcriptBytes remote handshake.hello
    .ok { tx := derive node secret transcript (if caller then "caller" else "receiver"),
          rx := derive node secret transcript (if caller then "receiver" else "caller") }

end TunnelHandshake

/-! ## Nonces -/

theorem bytesBE_injective {width m n : Nat} (hm : m < 256 ^ width) (hn : n < 256 ^ width)
    (h : bytesBE width m = bytesBE width n) : m = n := by
  induction width generalizing m n with
  | zero =>
    simp only [Nat.pow_zero, Nat.lt_one_iff] at hm hn
    rw [hm, hn]
  | succ width ih =>
    obtain ⟨hhigh, hlow⟩ := List.append_inj' h rfl
    have hquot : m / 256 = n / 256 := by
      refine ih ?_ ?_ hhigh <;> rw [Nat.pow_succ] at hm hn <;> omega
    have hrem : m % 256 = n % 256 := by
      have hbyte := List.cons.inj hlow
      simpa using congrArg UInt8.toNat hbyte.1
    omega

theorem iv_injective {m n : Nat} {nonce : Bytes} (hm : iv m = some nonce) (hn : iv n = some nonce) : m = n := by
  unfold iv at hm hn
  split at hm
  case isFalse => cases hm
  case isTrue hm64 =>
    split at hn
    case isFalse => cases hn
    case isTrue hn64 =>
      have hbytes := List.append_cancel_left (Option.some.inj (hm.trans hn.symm))
      exact bytesBE_injective (by omega) (by omega) hbytes

theorem bytesBE_length (width n : Nat) : (bytesBE width n).length = width := by
  induction width generalizing n with
  | zero => rfl
  | succ width ih => rw [bytesBE, List.length_append, ih]; rfl

theorem iv_length {n : Nat} {nonce : Bytes} (h : iv n = some nonce) : nonce.length = nonceBytes := by
  unfold iv at h
  split at h
  · rw [← Option.some.inj h, List.length_append, bytesBE_length]
    rfl
  · cases h

/-! ## The two ends agree on their keys -/

namespace TunnelHandshake

/-- The two private keys and the two public keys of a handshake give one secret. -/
def Agrees : Prop :=
  ∀ a b, node.diffieHellman (node.generateKeyPair a).2 (node.generateKeyPair b).1 =
    node.diffieHellman (node.generateKeyPair b).2 (node.generateKeyPair a).1

/-- The labels of the two directions give different keys. -/
def SeparatesLabels : Prop :=
  ∀ secret transcript, derive node secret transcript "caller" ≠ derive node secret transcript "receiver"

variable {node} {handshake : TunnelHandshake} {remote : TunnelHello} {grant : TunnelGrant} {caller : Bool}
  {c : Cipher}

theorem accept_ok (h : handshake.accept node remote grant caller = .ok c) :
    ∃ transcript, transcript = (if caller then node.transcriptBytes handshake.hello remote
        else node.transcriptBytes remote handshake.hello) ∧
      c = { tx := derive node (node.diffieHellman handshake.ephemeralKey remote.ephemeral) transcript
              (if caller then "caller" else "receiver"),
            rx := derive node (node.diffieHellman handshake.ephemeralKey remote.ephemeral) transcript
              (if caller then "receiver" else "caller") } := by
  refine ⟨_, rfl, ?_⟩
  unfold accept at h
  split at h
  · cases h
  split at h
  · cases h
  split at h
  · cases h
  split at h
  · cases h
  split at h
  · cases h
  exact (Except.ok.inj h).symm

/-- The keys that two ends have when each has accepted the other's hello. -/
structure Paired (ca cr : Cipher) : Prop where
  forward : ca.tx = cr.rx
  backward : ca.rx = cr.tx
  separate : ca.tx ≠ ca.rx
  fresh : ca.sent = 0 ∧ ca.received = 0 ∧ cr.sent = 0 ∧ cr.received = 0

theorem accept_paired (hagrees : Agrees node) (hlabels : SeparatesLabels node)
    {callerId receiverId : TunnelIdentity} {callerTarget receiverTarget callerNonce receiverNonce : JsString}
    {callerSeed receiverSeed : Nat} {callerGrant receiverGrant : TunnelGrant} {ca cr : Cipher}
    (hcaller : (createTunnelHandshake node callerId callerTarget callerSeed callerNonce).accept node
      (createTunnelHandshake node receiverId receiverTarget receiverSeed receiverNonce).hello
      callerGrant true = .ok ca)
    (hreceiver : (createTunnelHandshake node receiverId receiverTarget receiverSeed receiverNonce).accept
      node (createTunnelHandshake node callerId callerTarget callerSeed callerNonce).hello
      receiverGrant false = .ok cr) : Paired ca cr := by
  obtain ⟨_, rfl, rfl⟩ := accept_ok hcaller
  obtain ⟨_, rfl, rfl⟩ := accept_ok hreceiver
  have hsecret := hagrees callerSeed receiverSeed
  refine ⟨?_, ?_, ?_, rfl, rfl, rfl, rfl⟩
  · exact congrArg (fun secret => derive node secret _ "caller") hsecret
  · exact congrArg (fun secret => derive node secret _ "receiver") hsecret
  · exact hlabels _ _

end TunnelHandshake

end RabiRoute.PeerTunnel
