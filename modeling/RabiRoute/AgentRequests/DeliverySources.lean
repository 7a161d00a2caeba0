import RabiRoute.AgentRequests.Party
import RabiRoute.JsonText.Bytes
import RabiRoute.Shared.Fallible

/-!
# Delivery ids of different sources

The id of a delivery is the digest of a JSON array.  Whichever of the encodings is chosen, the array tells the caller's
key and who owns the source: two elements or eight, and in the first of two a record that names its kind or none.
-/

namespace RabiRoute.AgentRequests

open JsonText JsonText.JsonTree

/-! ## The JSON texts -/

/-- The texts hold no numbers. -/
abbrev Record := JsonTree Numeral

def noNumbers : NumberFormat Numeral := ⟨id, id, fun _ ↦ rfl⟩

def EndpointKind.name : EndpointKind → JsString
  | .local_ => js "local"
  | .instance_ => js "instance"
  | .device => js "device"
  | .service => js "service"

def ConnectionTransport.name : ConnectionTransport → JsString
  | .lanAgent => js "lan-agent"
  | .rabilink => js "rabilink"
  | .local_ => js "local"
  | .service => js "service"

/-- An object of texts; an undefined property is left out. -/
def record (properties : List (JsString × Option JsString)) : Record :=
  .object (properties.filterMap fun p ↦ p.2.map fun text ↦ (p.1, .string text))

/-- An element of an array; an undefined one becomes `null`. -/
def element (value : Option JsString) : Record := value.elim .null .string

def SourceIdentity.properties : SourceIdentity → List (JsString × Option JsString)
  | .connection managerInstanceId transport id =>
    [(js "kind", some (js "connection")), (js "managerInstanceId", some managerInstanceId),
      (js "transport", some transport.name), (js "id", some id)]
  | .endpoint stable =>
    [(js "kind", some stable.kind.name), (js "managerInstanceId", some stable.managerInstanceId),
      (js "ownerDeviceId", stable.ownerDeviceId), (js "instanceId", stable.instanceId), (js "nodeId", stable.nodeId),
      (js "agentId", stable.agentId), (js "provider", some stable.provider), (js "sessionId", some stable.sessionId),
      (js "authorizationIncarnation", stable.authorizationIncarnation)]
  | .peer managerInstanceId ownerDeviceId provider sessionId =>
    [(js "managerInstanceId", some managerInstanceId), (js "ownerDeviceId", ownerDeviceId),
      (js "provider", some provider), (js "sessionId", some sessionId)]

/-- The text that `agentDeliverySourceIdentity` and `agentDeliveryCallerSourceIdentity` answer. -/
def SourceIdentity.text (identity : SourceIdentity) : JsString := stringify noNumbers (record identity.properties)

def ScopedKey.elements : ScopedKey → List Record
  | .identity source callerDeliveryId => [.string source.text, .string callerDeliveryId]
  | .fields managerInstanceId kind instanceId nodeId agentId provider sessionId callerDeliveryId =>
    [.string managerInstanceId, .string kind.name, element instanceId, element nodeId, element agentId,
      .string provider, .string sessionId, .string callerDeliveryId]

def ScopedKey.text (key : ScopedKey) : JsString := stringify noNumbers (.array key.elements)

/-- `createHash("sha256").update(text).digest("hex")` for the keys of deliveries. -/
def Functions.hashing (functions : Functions) (sha256 : List UInt8 → JsString) : Functions :=
  { functions with scopedDigest := fun key ↦ sha256 (bytes key.text) }

/-! ## Owners -/

/-- Whom a source names. -/
inductive SourceOwner where
  | connection (managerInstanceId : JsString) (transport : ConnectionTransport) (id : JsString)
  | endpoint (managerInstanceId provider sessionId : JsString)

def AgentDeliverySource.owner : AgentDeliverySource → SourceOwner
  | .connection value => .connection value.managerInstanceId value.transport value.id
  | .endpoint value => .endpoint value.managerInstanceId value.provider value.sessionId

def SourceIdentity.owner : SourceIdentity → SourceOwner
  | .connection managerInstanceId transport id => .connection managerInstanceId transport id
  | .endpoint stable => .endpoint stable.managerInstanceId stable.provider stable.sessionId
  | .peer managerInstanceId _ provider sessionId => .endpoint managerInstanceId provider sessionId

def ScopedKey.owner : ScopedKey → SourceOwner
  | .identity source _ => source.owner
  | .fields managerInstanceId _ _ _ _ provider sessionId _ => .endpoint managerInstanceId provider sessionId

def ScopedKey.callerDeliveryId : ScopedKey → JsString
  | .identity _ callerDeliveryId => callerDeliveryId
  | .fields _ _ _ _ _ _ _ callerDeliveryId => callerDeliveryId

/-! ## What a text tells -/

theorem mem_record {properties : List (JsString × Option JsString)} {key : JsString} {v : Record} :
    (key, v) ∈ properties.filterMap (fun p => p.2.map fun text => (p.1, JsonTree.string text)) ↔
      ∃ text, (key, some text) ∈ properties ∧ v = .string text := by
  rw [List.mem_filterMap]
  constructor
  · rintro ⟨⟨k, value⟩, hmem, hp⟩
    obtain ⟨text, rfl, heq⟩ := Option.map_eq_some_iff.mp hp
    cases heq
    exact ⟨text, hmem, rfl⟩
  · rintro ⟨text, hmem, rfl⟩
    exact ⟨(key, some text), hmem, rfl⟩

theorem keys_record (properties : List (JsString × Option JsString)) :
    ((properties.filterMap fun p => p.2.map fun text => (p.1, (JsonTree.string text : Record))).map Prod.fst).Sublist
      (properties.map Prod.fst) := by
  induction properties with
  | nil => exact .slnil
  | cons p properties ih =>
    cases hp : p.2 with
    | none =>
      rw [List.filterMap_cons_none (by rw [hp]; rfl)]
      exact .cons _ ih
    | some text =>
      rw [List.filterMap_cons_some (by rw [hp]; rfl)]
      exact .cons_cons _ ih

theorem proper_record {properties : List (JsString × Option JsString)} (h : (properties.map Prod.fst).Nodup) :
    (record properties).Proper := by
  refine .object _ (h.sublist (keys_record properties)) fun field hfield => ?_
  obtain ⟨text, -, hv⟩ := mem_record.mp (show (field.1, field.2) ∈ _ from hfield)
  rw [hv]
  exact .string text

/-- A property of the one record is a property of the other. -/
theorem mem_of_same {p q : List (JsString × Option JsString)} (h : Same (record p) (record q)) {key text : JsString}
    (hmem : (key, some text) ∈ p) : (key, some text) ∈ q := by
  cases h with
  | object _ _ hkeys hvalues =>
    have hp := mem_record.mpr ⟨text, hmem, rfl⟩
    obtain ⟨⟨k, v⟩, hq, hk⟩ := List.mem_map.mp ((hkeys key).mp (List.mem_map.mpr ⟨_, hp, rfl⟩))
    cases hk
    obtain ⟨text', hmem', rfl⟩ := mem_record.mp hq
    have hsame := hvalues _ _ _ hp hq
    cases hsame
    exact hmem'

/-- One property has one value in both records. -/
theorem value_eq {p q : List (JsString × Option JsString)} (h : Same (record p) (record q))
    (hq : (q.map Prod.fst).Nodup) (key : JsString) {text text' : JsString} (hp : (key, some text) ∈ p)
    (hq' : (key, some text') ∈ q) : text = text' := by
  have hpair := List.inj_on_of_nodup_map hq (mem_of_same h hp) hq' rfl
  exact Option.some.inj (Prod.mk.inj hpair).2

theorem SourceIdentity.nodup (identity : SourceIdentity) : (identity.properties.map Prod.fst).Nodup := by
  cases identity with
  | connection =>
    show [js "kind", js "managerInstanceId", js "transport", js "id"].Nodup
    decide
  | endpoint =>
    show [js "kind", js "managerInstanceId", js "ownerDeviceId", js "instanceId", js "nodeId", js "agentId",
      js "provider", js "sessionId", js "authorizationIncarnation"].Nodup
    decide
  | peer =>
    show [js "managerInstanceId", js "ownerDeviceId", js "provider", js "sessionId"].Nodup
    decide

theorem ConnectionTransport.name_inj {t t' : ConnectionTransport} (h : t.name = t'.name) : t = t' := by
  revert h
  cases t <;> cases t' <;> decide

theorem EndpointKind.name_ne (kind : EndpointKind) : kind.name ≠ js "connection" := by
  cases kind <;> decide

/-- The three properties that name an endpoint. -/
structure Names (p : List (JsString × Option JsString)) (managerInstanceId provider sessionId : JsString) : Prop where
  managerInstanceId : (js "managerInstanceId", some managerInstanceId) ∈ p
  provider : (js "provider", some provider) ∈ p
  sessionId : (js "sessionId", some sessionId) ∈ p

theorem Names.eq {p q : List (JsString × Option JsString)} {m m' pr pr' se se' : JsString} (hp : Names p m pr se)
    (hq : Names q m' pr' se') (h : Same (record p) (record q)) (hnodup : (q.map Prod.fst).Nodup) :
    SourceOwner.endpoint m pr se = .endpoint m' pr' se' := by
  rw [value_eq h hnodup _ hp.managerInstanceId hq.managerInstanceId, value_eq h hnodup _ hp.provider hq.provider,
    value_eq h hnodup _ hp.sessionId hq.sessionId]

theorem names_endpoint (stable : StableEndpoint) : Names (SourceIdentity.endpoint stable).properties
    stable.managerInstanceId stable.provider stable.sessionId := by
  constructor <;> simp [SourceIdentity.properties]

theorem names_peer (managerInstanceId provider sessionId : JsString) (ownerDeviceId : Option JsString) :
    Names (SourceIdentity.peer managerInstanceId ownerDeviceId provider sessionId).properties managerInstanceId
      provider sessionId := by
  constructor <;> simp [SourceIdentity.properties]

theorem connection_kind_endpoint (stable : StableEndpoint) :
    (js "kind", some (js "connection")) ∉ (SourceIdentity.endpoint stable).properties := by
  intro h
  have hpair := List.inj_on_of_nodup_map (SourceIdentity.nodup (.endpoint stable)) h List.mem_cons_self rfl
  exact EndpointKind.name_ne stable.kind (Option.some.inj (Prod.mk.inj hpair).2).symm

theorem connection_kind_peer (managerInstanceId provider sessionId : JsString) (ownerDeviceId : Option JsString) :
    (js "kind", some (js "connection")) ∉
      (SourceIdentity.peer managerInstanceId ownerDeviceId provider sessionId).properties := by
  intro h
  have hkey : js "kind" ∈ [js "managerInstanceId", js "ownerDeviceId", js "provider", js "sessionId"] :=
    List.mem_map_of_mem (f := Prod.fst) h
  exact absurd hkey (by decide)

theorem SourceIdentity.owner_of_same {i i' : SourceIdentity} (h : Same (record i.properties) (record i'.properties)) :
    i.owner = i'.owner := by
  cases i with
  | connection m t id =>
    have hkind : (js "kind", some (js "connection")) ∈ i'.properties := mem_of_same h List.mem_cons_self
    cases i' with
    | connection m' t' id' =>
      have hnodup := SourceIdentity.nodup (.connection m' t' id')
      have hm : m = m' := value_eq h hnodup (js "managerInstanceId") (by simp [properties])
        (by simp [properties])
      have ht : t.name = t'.name := value_eq h hnodup (js "transport") (by simp [properties])
        (by simp [properties])
      have hid : id = id' := value_eq h hnodup (js "id") (by simp [properties]) (by simp [properties])
      rw [hm, ConnectionTransport.name_inj ht, hid]
    | endpoint stable' => exact absurd hkind (connection_kind_endpoint stable')
    | peer m' d' p' s' => exact absurd hkind (connection_kind_peer m' p' s' d')
  | endpoint stable =>
    cases i' with
    | connection m' t' id' =>
      exact absurd (mem_of_same h.symm List.mem_cons_self) (connection_kind_endpoint stable)
    | endpoint stable' => exact (names_endpoint stable).eq (names_endpoint stable') h (SourceIdentity.nodup _)
    | peer m' d' p' s' => exact (names_endpoint stable).eq (names_peer m' p' s' d') h (SourceIdentity.nodup _)
  | peer m d p s =>
    cases i' with
    | connection m' t' id' =>
      exact absurd (mem_of_same h.symm List.mem_cons_self) (connection_kind_peer m p s d)
    | endpoint stable' => exact (names_peer m p s d).eq (names_endpoint stable') h (SourceIdentity.nodup _)
    | peer m' d' p' s' => exact (names_peer m p s d).eq (names_peer m' p' s' d') h (SourceIdentity.nodup _)

theorem SourceIdentity.owner_of_text {i i' : SourceIdentity} (h : i.text = i'.text) : i.owner = i'.owner :=
  owner_of_same (same_of_render (fun _ => .refl _) (proper_record i.nodup) (proper_record i'.nodup) h)

/-! ## What the array tells -/

theorem proper_elements (key : ScopedKey) : (JsonTree.array key.elements).Proper := by
  have helement : ∀ value : Option JsString, (element value).Proper := by
    intro value
    cases value with
    | none => exact .null
    | some text => exact .string text
  apply Proper.array
  cases key with
  | identity source callerDeliveryId =>
    unfold ScopedKey.elements
    simp only [List.forall_mem_cons]
    exact ⟨.string _, .string _, fun _ h => absurd h List.not_mem_nil⟩
  | fields m k i n a p s c =>
    unfold ScopedKey.elements
    simp only [List.forall_mem_cons]
    exact ⟨.string _, .string _, helement i, helement n, helement a, .string _, .string _, .string _,
      fun _ h => absurd h List.not_mem_nil⟩

theorem string_of_same {es es' : List Record} (h : Same (.array es) (.array es')) {i : Nat} {text text' : JsString}
    (he : es[i]? = some (.string text)) (he' : es'[i]? = some (.string text')) : text = text' := by
  cases h with
  | array _ _ _ hall =>
    have hsame := hall i _ _ he he'
    cases hsame
    rfl

/-- The text of a key tells the caller's key and the owner of the source. -/
theorem ScopedKey.text_tells {key key' : ScopedKey} (h : key.text = key'.text) :
    key.callerDeliveryId = key'.callerDeliveryId ∧ key.owner = key'.owner := by
  have hsame := same_of_render (fun _ => .refl _) (proper_elements key) (proper_elements key') h
  have hlength : key.elements.length = key'.elements.length := by
    cases hsame with
    | array _ _ hlength _ => exact hlength
  cases key with
  | identity source c =>
    cases key' with
    | identity source' c' =>
      exact ⟨string_of_same (i := 1) hsame rfl rfl,
        SourceIdentity.owner_of_text (string_of_same (i := 0) hsame rfl rfl)⟩
    | fields m' k' i' n' a' p' s' c' => exact absurd hlength (by decide : (2 : Nat) ≠ 8)
  | fields m k i n a p s c =>
    cases key' with
    | identity source' c' => exact absurd hlength (by decide : (8 : Nat) ≠ 2)
    | fields m' k' i' n' a' p' s' c' =>
      have hm : m = m' := string_of_same (i := 0) hsame rfl rfl
      have hp : p = p' := string_of_same (i := 5) hsame rfl rfl
      have hs : s = s' := string_of_same (i := 6) hsame rfl rfl
      refine ⟨string_of_same (i := 7) hsame rfl rfl, ?_⟩
      show SourceOwner.endpoint m p s = .endpoint m' p' s'
      rw [hm, hp, hs]

/-! ## What the encodings keep of a source -/

theorem normalizeAgentConnectionSource_ok {value normal : AgentConnectionSource}
    (h : normalizeAgentConnectionSource value = .ok normal) : normal = { value with
      ledgerOwnerDeviceId := presentText value.ledgerOwnerDeviceId
      authorizationIncarnation := presentText value.authorizationIncarnation } := by
  obtain ⟨_, -, h⟩ := Fallible.bind_ok.mp h
  obtain ⟨_, -, h⟩ := Fallible.bind_ok.mp h
  exact (Except.ok.inj h).symm

theorem normalizeAgentRequestEndpoint_ok {value normal : AgentRequestEndpoint}
    (h : normalizeAgentRequestEndpoint value = .ok normal) : normal = { value with
      ownerDeviceId := presentText value.ownerDeviceId
      ledgerOwnerDeviceId := presentText value.ledgerOwnerDeviceId
      instanceId := if value.kind = .instance_ || value.kind = .device then value.instanceId else none
      nodeId := if value.kind = .instance_ then value.nodeId else none } := by
  obtain ⟨_, -, h⟩ := Fallible.bind_ok.mp h
  obtain ⟨_, -, h⟩ := Fallible.bind_ok.mp h
  obtain ⟨_, -, h⟩ := Fallible.bind_ok.mp h
  obtain ⟨_, -, h⟩ := Fallible.bind_ok.mp h
  obtain ⟨_, -, h⟩ := Fallible.bind_ok.mp h
  obtain ⟨_, -, h⟩ := Fallible.bind_ok.mp h
  obtain ⟨_, -, h⟩ := Fallible.bind_ok.mp h
  obtain ⟨_, -, h⟩ := Fallible.bind_ok.mp h
  exact (Except.ok.inj h).symm

theorem connectionIdentity_ok {value normal : AgentConnectionSource} (h : normalizeAgentConnectionSource value = .ok
    normal) : connectionIdentity value = .ok (.connection value.managerInstanceId value.transport value.id) := by
  unfold connectionIdentity
  rw [h, normalizeAgentConnectionSource_ok h]
  rfl

/-- The identity of an endpoint that is accepted has the endpoint's owner. -/
theorem endpointIdentity_ok {value normal : AgentRequestEndpoint}
    (h : normalizeAgentRequestEndpoint value = .ok normal) :
    ∃ identity, agentDeliverySourceIdentity (.endpoint value) = .ok identity ∧
      identity.owner = .endpoint value.managerInstanceId value.provider value.sessionId := by
  unfold agentDeliverySourceIdentity stableAgentEndpointIdentity
  dsimp only
  rw [h, normalizeAgentRequestEndpoint_ok h]
  exact ⟨_, rfl, rfl⟩

theorem callerIdentity_ok {value normal : AgentRequestEndpoint}
    (h : normalizeAgentRequestEndpoint value = .ok normal) :
    ∃ identity, agentDeliveryCallerSourceIdentity (.endpoint value) = .ok identity ∧
      identity.owner = .endpoint value.managerInstanceId value.provider value.sessionId := by
  unfold agentDeliveryCallerSourceIdentity
  dsimp only
  split
  · exact endpointIdentity_ok h
  · rw [h, normalizeAgentRequestEndpoint_ok h]
    exact ⟨_, rfl, rfl⟩

/-- An accepted source has a key in each encoding, and the key keeps the caller's key and the owner. -/
theorem scopedKey_ok {source normal : AgentDeliverySource} (h : normalizeAgentDeliverySource source = .ok normal)
    (callerDeliveryId : JsString) (legacyAlias : Bool) :
    ∃ key, scopedKey source callerDeliveryId legacyAlias = .ok key ∧ key.callerDeliveryId = callerDeliveryId ∧
      key.owner = source.owner := by
  cases source with
  | connection value =>
    obtain ⟨normal, hnormal, -⟩ := Fallible.map_ok.mp h
    have hidentity := connectionIdentity_ok hnormal
    show ∃ key, (connectionIdentity value).map (ScopedKey.identity · callerDeliveryId) = .ok key ∧ _
    rw [hidentity]
    exact ⟨_, rfl, rfl, rfl⟩
  | endpoint value =>
    obtain ⟨normal, hnormal, -⟩ := Fallible.map_ok.mp h
    unfold scopedKey
    dsimp only
    split
    · obtain ⟨identity, hidentity, howner⟩ := callerIdentity_ok hnormal
      rw [hidentity]
      exact ⟨_, rfl, rfl, howner⟩
    · split
      · obtain ⟨identity, hidentity, howner⟩ := endpointIdentity_ok hnormal
        rw [hidentity]
        exact ⟨_, rfl, rfl, howner⟩
      · exact ⟨_, rfl, rfl, rfl⟩

/-- If SHA-256 does not collide, accepted sources with one delivery id have one caller's key and one owner. -/
theorem deliveryIds_apart {sha256 : List UInt8 → JsString} (hsha256 : Function.Injective sha256) (functions : Functions)
    {s s' n n' : AgentDeliverySource} (hs : normalizeAgentDeliverySource s = .ok n)
    (hs' : normalizeAgentDeliverySource s' = .ok n') {c c' : JsString} {legacyAlias legacyAlias' : Bool}
    (h : sourceScopedAgentDeliveryId (functions.hashing sha256) s c legacyAlias =
      sourceScopedAgentDeliveryId (functions.hashing sha256) s' c' legacyAlias') : c = c' ∧ s.owner = s'.owner := by
  obtain ⟨key, hkey, hc, howner⟩ := scopedKey_ok hs c legacyAlias
  obtain ⟨key', hkey', hc', howner'⟩ := scopedKey_ok hs' c' legacyAlias'
  unfold sourceScopedAgentDeliveryId at h
  rw [hkey, hkey'] at h
  have hdigest : sha256 (bytes key.text) = sha256 (bytes key'.text) := List.append_cancel_left (Except.ok.inj h)
  have htext : key.text = key'.text :=
    bytes_inj (wellFormed_render _ _ _) (wellFormed_render _ _ _) (hsha256 hdigest)
  obtain ⟨hcaller, howners⟩ := ScopedKey.text_tells htext
  exact ⟨by rw [← hc, ← hc', hcaller], by rw [← howner, ← howner', howners]⟩

/-- A digest of the same length as the bytes. -/
def plainDigest (digested : List UInt8) : JsString := digested.map fun b ↦ UInt16.ofNat b.toNat

theorem plainDigest_injective : Function.Injective plainDigest := by
  apply List.map_injective_iff.mpr
  intro b b' h
  have hb : b.toNat < 256 := b.toNat_lt
  have hb' : b'.toNat < 256 := b'.toNat_lt
  have hnat : b.toNat % 65536 = b'.toNat % 65536 := congrArg UInt16.toNat h
  exact UInt8.toNat_inj.mp (by omega)

def aliasFunctions : Functions :=
  { sha256 := id, optionsDigest := fun _ ↦ [], scopedDigest := fun _ ↦ [], isDate := fun _ ↦ true
    isAgentAdapterType := fun _ ↦ true, sameCodexWorkspace := fun _ _ ↦ true, normalizeRabiMessageContent := id }

/-- A task of another device, as two of its aliases write it. -/
def peerTask (agentId : String) : AgentDeliverySource :=
  .endpoint
    { kind := .local_, managerInstanceId := js "m", ownerDeviceId := some (js "pc")
      ledgerOwnerDeviceId := some (js "hub"), agentId := js agentId, provider := js "p", sessionId := js "s"
      authorizationIncarnation := js "1" }

theorem deliveryIds_apart_aliases : js "c" = js "c" ∧ (peerTask "a").owner = (peerTask "b").owner :=
  deliveryIds_apart plainDigest_injective aliasFunctions
    (show normalizeAgentDeliverySource (peerTask "a") = .ok (peerTask "a") by decide)
    (show normalizeAgentDeliverySource (peerTask "b") = .ok (peerTask "b") by decide)
    (show sourceScopedAgentDeliveryId (aliasFunctions.hashing plainDigest) (peerTask "a") (js "c") =
      sourceScopedAgentDeliveryId (aliasFunctions.hashing plainDigest) (peerTask "b") (js "c") from rfl)

end RabiRoute.AgentRequests
