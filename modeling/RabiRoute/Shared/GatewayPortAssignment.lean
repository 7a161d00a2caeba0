import RabiRoute.Shared.GatewayPorts

/-!
# What the assignment of ports guarantees

The ports of a run are distinct, valid and not the manager's, a port that is valid and free stays, and a second run
changes nothing.  The assignment is not complete: it fails as soon as all ports from a preferred one up to the last are
taken, whatever is free below.
-/

namespace RabiRoute.GatewayPorts

open Fallible

variable {used used' : List Nat} {value : Option Nat} {fallback port : Nat}

/-! ## One port -/

/-- A port that may be given where `used` are taken, to a listener with the port `value`. -/
structure Given (used : List Nat) (value : Option Nat) (port : Nat) : Prop where
  valid : ValidPort port
  fresh : port ∉ used
  keeps : ∀ v, value = some v → ValidPort v → v ∉ used → port = v

/-- The listener can keep its port, or there is a free one from the preferred one on. -/
def RoomFor (used : List Nat) (value : Option Nat) (fallback : Nat) : Prop :=
  (∃ v, value = some v ∧ ValidPort v ∧ v ∉ used) ∨
    ∃ port, preferredPort fallback ≤ port ∧ port ≤ 65535 ∧ port ∉ used

theorem preferredPort_valid (fallback : Nat) : ValidPort (preferredPort fallback) := by
  unfold preferredPort ValidPort
  omega

theorem not_validPort_zero : ¬ValidPort 0 := by
  unfold ValidPort
  omega

/-- A value that is kept. -/
theorem assignIngress_keep {v : Nat} (hvalid : ValidPort v) (hfresh : v ∉ used) (fallback : Nat) :
    assignIngress used (some v) fallback = .ok (v, used ++ [v]) :=
  if_pos ⟨hvalid, hfresh⟩

theorem not_keeps (h : ¬(ValidPort (value.getD 0) ∧ value.getD 0 ∉ used)) :
    ∀ v, value = some v → ValidPort v → v ∉ used → False := by
  rintro v rfl hvalid hfresh
  exact h ⟨hvalid, hfresh⟩

theorem assignIngress_ok (h : assignIngress used value fallback = .ok (port, used')) :
    used' = used ++ [port] ∧ Given used value port := by
  unfold assignIngress at h
  dsimp only at h
  split at h
  · rename_i hkeep
    obtain ⟨rfl, rfl⟩ := Prod.mk.inj (Except.ok.inj h)
    refine ⟨rfl, hkeep.1, hkeep.2, ?_⟩
    rintro v rfl _ _
    rfl
  · rename_i hgone
    unfold nextAvailablePort at h
    rw [if_pos (preferredPort_valid fallback)] at h
    dsimp only at h
    split at h
    · rename_i found hfound
      obtain ⟨rfl, rfl⟩ := Prod.mk.inj (Except.ok.inj h)
      have hrange := List.mem_range'_1.mp (List.mem_of_find?_eq_some hfound)
      have hlow := preferredPort_valid fallback
      refine ⟨rfl, ?_, by simpa using List.find?_some hfound, fun v hv hvalid hfresh => ?_⟩
      · unfold ValidPort at hlow ⊢
        omega
      · exact absurd hfresh fun hfresh => not_keeps hgone v hv hvalid hfresh
    · cases h

theorem assignIngress_error :
    (∃ error, assignIngress used value fallback = .error error) ↔ ¬RoomFor used value fallback := by
  unfold assignIngress RoomFor
  dsimp only
  split
  · rename_i hkeep
    refine iff_of_false (fun ⟨error, h⟩ => by cases h) (not_not.mpr (.inl ?_))
    cases value with
    | none => exact absurd hkeep.1 not_validPort_zero
    | some v => exact ⟨v, rfl, hkeep⟩
  · rename_i hgone
    unfold nextAvailablePort
    rw [if_pos (preferredPort_valid fallback)]
    dsimp only
    split
    · rename_i found hfound
      refine iff_of_false (fun ⟨error, h⟩ => by cases h) (not_not.mpr (.inr ⟨found, ?_⟩))
      have hrange := List.mem_range'_1.mp (List.mem_of_find?_eq_some hfound)
      have hlow := preferredPort_valid fallback
      unfold ValidPort at hlow
      exact ⟨hrange.1, by omega, by simpa using List.find?_some hfound⟩
    · rename_i hnone
      refine iff_of_true ⟨_, rfl⟩ ?_
      rintro (⟨v, hv, hvalid, hfresh⟩ | ⟨port, hlow, hhigh, hfresh⟩)
      · exact not_keeps hgone v hv hvalid hfresh
      · have hin := List.find?_eq_none.mp hnone port (List.mem_range'_1.mpr ⟨hlow, by omega⟩)
        exact hin (decide_eq_true hfresh)

/-! ## Many ports -/

/-- Ports that are given one after the other. -/
inductive Assigned : List Nat → List (Option Nat) → List Nat → Prop
  | nil {used : List Nat} : Assigned used [] []
  | cons {used : List Nat} {value : Option Nat} {values : List (Option Nat)} {port : Nat} {ports : List Nat}
      (given : Given used value port) (rest : Assigned (used ++ [port]) values ports) :
      Assigned used (value :: values) (port :: ports)

section

variable {values values' : List (Option Nat)} {ports ports' : List Nat}

theorem Assigned.append (h : Assigned used values ports) (h' : Assigned (used ++ ports) values' ports') :
    Assigned used (values ++ values') (ports ++ ports') := by
  induction h with
  | nil => rwa [List.append_nil] at h'
  | cons given rest ih =>
    refine .cons given (ih ?_)
    rwa [List.append_assoc]

theorem Assigned.fresh (h : Assigned used values ports) :
    ports.Nodup ∧ ∀ port ∈ ports, ValidPort port ∧ port ∉ used := by
  induction h with
  | nil => exact ⟨List.nodup_nil, fun _ h => absurd h List.not_mem_nil⟩
  | cons given rest ih =>
    refine ⟨List.nodup_cons.mpr ⟨fun hin => ?_, ih.1⟩, fun p hp => ?_⟩
    · exact (ih.2 _ hin).2 (List.mem_append_right _ List.mem_cons_self)
    · rcases List.mem_cons.mp hp with rfl | hin
      · exact ⟨given.valid, given.fresh⟩
      · exact ⟨(ih.2 p hin).1, fun hold => (ih.2 p hin).2 (List.mem_append_left _ hold)⟩

/-- A port that is valid and was not given to a listener before stays. -/
theorem Assigned.keeps (h : Assigned used values ports) {i v : Nat} (hv : values[i]? = some (some v))
    (hvalid : ValidPort v) (hfree : v ∉ used ++ ports.take i) : ports[i]? = some v := by
  induction h generalizing i with
  | nil => cases hv
  | cons given rest ih =>
    cases i with
    | zero =>
      have hvalue := Option.some.inj hv
      rw [List.take_zero, List.append_nil] at hfree
      exact congrArg some (given.keeps v hvalue hvalid hfree)
    | succ i =>
      refine ih hv ?_
      rwa [List.append_assoc]

end

/-! ## Listeners -/

variable {platform : Platform} {gateway gateway' : GatewayDefinition} {listener : Listener} {ls : List Listener}

/-- The gateway and its enabled instance have the same port. -/
def Synced (gateway : GatewayDefinition) : Prop :=
  ∀ item, enabledNapcatInstance gateway = some item → gateway.gatewayPort = item.gatewayPort

/-- The ports of a gateway. -/
structure SamePorts (gateway gateway' : GatewayDefinition) : Prop where
  gatewayPort : gateway'.gatewayPort = gateway.gatewayPort
  webhookPort : gateway'.webhookPort = gateway.webhookPort
  xiaoaiWebhookPort : gateway'.xiaoaiWebhookPort = gateway.xiaoaiWebhookPort
  rabiLinkWebhookPort : gateway'.rabiLinkWebhookPort = gateway.rabiLinkWebhookPort
  feishuWebhookPort : gateway'.feishuWebhookPort = gateway.feishuWebhookPort
  instancePorts : gateway'.napcatInstances.map NapCatInstanceDefinition.gatewayPort =
    gateway.napcatInstances.map NapCatInstanceDefinition.gatewayPort

theorem SamePorts.rfl : SamePorts gateway gateway := by
  constructor <;> rfl

theorem SamePorts.trans {other : GatewayDefinition} (h : SamePorts gateway gateway')
    (h' : SamePorts gateway' other) : SamePorts gateway other :=
  ⟨h'.1.trans h.1, h'.2.trans h.2, h'.3.trans h.3, h'.4.trans h.4, h'.5.trans h.5, h'.6.trans h.6⟩

/-- What a listener's `put` leaves alone. -/
structure KeepsAdapters (gateway gateway' : GatewayDefinition) : Prop where
  adapters : hasAdapter gateway' = hasAdapter gateway
  synced : Synced gateway → Synced gateway'

/-- Listeners that put the port that they are given, each into its own field. -/
structure Lawful (ls : List Listener) : Prop where
  put : ∀ l ∈ ls, ∀ gateway port, ValidPort port → ∃ gateway', l.put gateway port = .ok gateway' ∧
    l.value gateway' = some port ∧ KeepsAdapters gateway gateway' ∧
      (Synced gateway → l.value gateway = some port → hasAdapter gateway l.adapter = true → SamePorts gateway gateway')
  apart : ls.Pairwise fun l l' ↦ ∀ gateway port gateway', ValidPort port →
    (l.put gateway port = .ok gateway' → l'.value gateway' = l'.value gateway) ∧
      (l'.put gateway port = .ok gateway' → l.value gateway' = l.value gateway)

theorem assertValidPort_ok {label : JsString} (h : ValidPort port) : assertValidPort port label = .ok () := if_pos h

theorem orPort_of_valid {other : Nat} (h : ValidPort port) : orPort port other = port := by
  unfold orPort
  rw [if_neg]
  unfold ValidPort at h
  omega

theorem normalizeNapCatInstances_ok (platform : Platform) {item : NapCatInstanceDefinition} (hitem : gateway.napcatInstances = some item)
    (h : ValidPort item.gatewayPort) :
    ∃ primary : NapCatInstanceDefinition, normalizeNapCatInstances platform gateway = .ok (some primary) ∧
      primary.gatewayPort = item.gatewayPort ∧ primary.enabled = some (item.enabled != some false) := by
  unfold normalizeNapCatInstances
  rw [hitem]
  dsimp only
  rw [orPort_of_valid h, assertValidPort_ok h]
  exact ⟨_, rfl, rfl, rfl⟩

/-- Synchronising a gateway with an instance whose port is valid. -/
theorem syncPrimaryNapCatInstanceFields_ok (platform : Platform) (gateway : GatewayDefinition)
    (item : NapCatInstanceDefinition) (h : ValidPort item.gatewayPort) :
    ∃ primary : NapCatInstanceDefinition, primary.gatewayPort = item.gatewayPort ∧
      primary.enabled = some (item.enabled != some false) ∧
      syncPrimaryNapCatInstanceFields platform gateway (some item) = .ok {
        gateway with
        napcatInstances := some primary
        gatewayPort := primary.gatewayPort
        napcatHttpUrl := some primary.httpUrl
        napcatWebuiUrl := primary.webuiUrl
        napcatAccessToken := some (primary.accessToken.getD [])
        napcatWebuiToken := some (primary.webuiToken.getD []) } := by
  obtain ⟨primary, hok, hport, henabled⟩ := normalizeNapCatInstances_ok platform
    (rfl : { gateway with napcatInstances := some item }.napcatInstances = some item) h
  refine ⟨primary, hport, henabled, ?_⟩
  unfold syncPrimaryNapCatInstanceFields
  rw [hok]
  rfl

theorem enabledNapcatInstance_eq_some {item : NapCatInstanceDefinition} :
    enabledNapcatInstance gateway = some item ↔ hasAdapter gateway (js "napcat") = true ∧
      gateway.napcatInstances = some item ∧ item.enabled ≠ some false := by
  unfold enabledNapcatInstance
  split
  · rename_i hnapcat
    rw [Option.filter_eq_some_iff]
    simp [hnapcat]
  · rename_i hnapcat
    simp [hnapcat]

theorem napcatListener_put (platform : Platform) (gateway : GatewayDefinition) (hvalid : ValidPort port) : ∃ gateway', (napcatListener platform).put gateway port =
    .ok gateway' ∧ (napcatListener platform).value gateway' = some port ∧ KeepsAdapters gateway gateway' ∧
      (Synced gateway → (napcatListener platform).value gateway = some port → SamePorts gateway gateway') ∧
      gateway'.webhookPort = gateway.webhookPort ∧ gateway'.xiaoaiWebhookPort = gateway.xiaoaiWebhookPort ∧
      gateway'.rabiLinkWebhookPort = gateway.rabiLinkWebhookPort ∧
      gateway'.feishuWebhookPort = gateway.feishuWebhookPort ∧ Synced gateway' := by
  unfold napcatListener
  dsimp only
  cases hitem : enabledNapcatInstance gateway with
  | none =>
    have hstill : enabledNapcatInstance { gateway with gatewayPort := port } = none := hitem
    have hsynced : Synced { gateway with gatewayPort := port } := by
      intro item hsome
      cases hstill.symm.trans hsome
    refine ⟨_, rfl, ?_, ⟨rfl, fun _ => hsynced⟩, fun _ hvalue => ?_, rfl, rfl, rfl, rfl, hsynced⟩
    · rw [hstill]
      rfl
    · exact ⟨(Option.some.inj hvalue).symm, rfl, rfl, rfl, rfl, rfl⟩
  | some item =>
    obtain ⟨hnapcat, hinstances, henabled⟩ := enabledNapcatInstance_eq_some.mp hitem
    obtain ⟨primary, hport, hon, hsync⟩ := syncPrimaryNapCatInstanceFields_ok platform gateway
      { item with
        gatewayPort := port
        httpUrl := normalizeHttpUrl platform
          (if item.httpUrl = [] then gateway.napcatHttpUrl.getD [] else item.httpUrl) 3000 } hvalid
    dsimp only at hport hon hsync ⊢
    subst hport
    have henabledPrimary : primary.enabled ≠ some false := by
      rw [hon]
      simpa using henabled
    -- the primary instance is the one that is enabled afterwards
    have hprimary (gateway' : GatewayDefinition) (hadapters : hasAdapter gateway' = hasAdapter gateway)
        (hnew : gateway'.napcatInstances = some primary) : enabledNapcatInstance gateway' = some primary :=
      enabledNapcatInstance_eq_some.mpr ⟨hadapters ▸ hnapcat, hnew, henabledPrimary⟩
    have hvalue (gateway' : GatewayDefinition) (hadapters : hasAdapter gateway' = hasAdapter gateway)
        (hnew : gateway'.napcatInstances = some primary) :
        some ((enabledNapcatInstance gateway').elim gateway'.gatewayPort NapCatInstanceDefinition.gatewayPort) =
          some primary.gatewayPort := by
      rw [hprimary gateway' hadapters hnew]
      rfl
    have hsynced (gateway' : GatewayDefinition) (hadapters : hasAdapter gateway' = hasAdapter gateway)
        (hnew : gateway'.napcatInstances = some primary) (hport : gateway'.gatewayPort = primary.gatewayPort) :
        Synced gateway' := by
      intro other hother
      rw [hprimary gateway' hadapters hnew] at hother
      rw [← Option.some.inj hother, hport]
    refine ⟨_, hsync, ?_, ⟨rfl, fun _ => hsynced _ rfl rfl rfl⟩, fun hold hvalue => ?_, rfl, rfl, rfl, rfl,
      hsynced _ rfl rfl rfl⟩
    · apply hvalue
      · rfl
      · rfl
    · have hsame : item.gatewayPort = primary.gatewayPort := Option.some.inj hvalue
      refine ⟨?_, rfl, rfl, rfl, rfl, ?_⟩
      · exact hsame.symm.trans (hold item hitem).symm
      · rw [hinstances]
        exact congrArg some hsame.symm

variable (platform) in
theorem listeners_lawful : Lawful (listeners platform) := by
  have hnapcat : ∀ gateway port gateway', ValidPort port → (napcatListener platform).put gateway port = .ok gateway' →
      gateway'.webhookPort = gateway.webhookPort ∧ gateway'.xiaoaiWebhookPort = gateway.xiaoaiWebhookPort ∧
        gateway'.rabiLinkWebhookPort = gateway.rabiLinkWebhookPort ∧
        gateway'.feishuWebhookPort = gateway.feishuWebhookPort := by
    intro gateway port gateway' hvalid hput
    obtain ⟨found, hok, -, -, -, hwebhook, hxiaoai, hrabilink, hfeishu, -⟩ :=
      napcatListener_put platform gateway hvalid
    obtain rfl := Except.ok.inj (hok.symm.trans hput)
    exact ⟨hwebhook, hxiaoai, hrabilink, hfeishu⟩
  constructor
  · intro l hl gateway port hvalid
    simp only [listeners, List.mem_cons, List.not_mem_nil, or_false] at hl
    rcases hl with rfl | rfl | rfl | rfl | rfl
    · obtain ⟨gateway', hput, hvalue, hkeeps, hsame, -⟩ :=
        napcatListener_put platform gateway hvalid
      exact ⟨gateway', hput, hvalue, hkeeps, fun hsynced hold _ => hsame hsynced hold⟩
    · exact ⟨_, rfl, rfl, ⟨rfl, fun h => h⟩, fun _ hvalue _ => ⟨rfl, hvalue.symm, rfl, rfl, rfl, rfl⟩⟩
    · exact ⟨_, rfl, rfl, ⟨rfl, fun h => h⟩, fun _ hvalue _ => ⟨rfl, rfl, hvalue.symm, rfl, rfl, rfl⟩⟩
    · exact ⟨_, rfl, rfl, ⟨rfl, fun h => h⟩, fun _ hvalue _ => ⟨rfl, rfl, rfl, hvalue.symm, rfl, rfl⟩⟩
    · exact ⟨_, rfl, rfl, ⟨rfl, fun h => h⟩, fun _ hvalue _ => ⟨rfl, rfl, rfl, rfl, hvalue.symm, rfl⟩⟩
  · unfold listeners
    simp only [List.pairwise_cons, List.mem_cons, List.not_mem_nil, or_false, List.Pairwise.nil, and_true,
      forall_eq_or_imp, forall_eq, IsEmpty.forall_iff, implies_true]
    refine ⟨⟨?_, ?_, ?_, ?_⟩, ⟨?_, ?_, ?_⟩, ⟨?_, ?_⟩, ?_⟩
    all_goals
      intro gateway port gateway' hvalid
      refine ⟨fun hput => ?_, fun hput => ?_⟩
    -- the fields of the other listeners are not those that NapCat writes
    · exact (hnapcat gateway port gateway' hvalid hput).1
    · exact Except.ok.inj hput ▸ rfl
    · exact (hnapcat gateway port gateway' hvalid hput).2.1
    · exact Except.ok.inj hput ▸ rfl
    · exact (hnapcat gateway port gateway' hvalid hput).2.2.1
    · exact Except.ok.inj hput ▸ rfl
    · exact (hnapcat gateway port gateway' hvalid hput).2.2.2
    all_goals exact Except.ok.inj hput ▸ rfl

/-! ## A run over the listeners of a gateway -/

theorem Lawful.tail (h : Lawful (listener :: ls)) : Lawful ls :=
  ⟨fun l hl => h.put l (List.mem_cons_of_mem _ hl), (List.pairwise_cons.mp h.apart).2⟩

/-- The ports of the listeners that the gateway has. -/
def valuesOf (ls : List Listener) (gateway : GatewayDefinition) : List (Option Nat) :=
  (ls.filter fun l ↦ hasAdapter gateway l.adapter).map fun l ↦ l.value gateway

theorem valuesOf_cons (h : hasAdapter gateway listener.adapter = true) :
    valuesOf (listener :: ls) gateway = listener.value gateway :: valuesOf ls gateway := by
  unfold valuesOf
  rw [List.filter_cons_of_pos (p := fun l : Listener => hasAdapter gateway l.adapter) h, List.map_cons]

theorem valuesOf_cons_idle (h : hasAdapter gateway listener.adapter = false) :
    valuesOf (listener :: ls) gateway = valuesOf ls gateway := by
  unfold valuesOf
  rw [List.filter_cons_of_neg (p := fun l : Listener => hasAdapter gateway l.adapter) (by rw [h]; decide)]

theorem valuesOf_congr (hadapters : hasAdapter gateway' = hasAdapter gateway)
    (hvalues : ∀ l ∈ ls, l.value gateway' = l.value gateway) : valuesOf ls gateway' = valuesOf ls gateway := by
  unfold valuesOf
  rw [hadapters]
  exact List.map_congr_left fun l hl => hvalues l (List.mem_filter.mp hl).1

/-- What a listener does with the port that it is given. -/
theorem assignListener_cases (h : Lawful ls) (hl : listener ∈ ls) {s s' : List Nat × GatewayDefinition}
    (hok : assignListener s listener = .ok s') :
    (hasAdapter s.2 listener.adapter = false ∧ s' = s) ∨
      (hasAdapter s.2 listener.adapter = true ∧ ∃ port, s'.1 = s.1 ++ [port] ∧
        Given s.1 (listener.value s.2) port ∧ listener.put s.2 port = .ok s'.2 ∧
        listener.value s'.2 = some port ∧ KeepsAdapters s.2 s'.2) := by
  unfold assignListener at hok
  split at hok
  · rename_i hactive
    obtain ⟨⟨port, used⟩, hassign, hok⟩ := bind_ok.mp hok
    obtain ⟨gateway, hput, hok⟩ := bind_ok.mp hok
    obtain rfl := Except.ok.inj hok
    obtain ⟨hused, hgiven⟩ := assignIngress_ok hassign
    obtain ⟨found, hok, hvalue, hkeeps, -⟩ := h.put listener hl s.2 port hgiven.valid
    obtain rfl := Except.ok.inj (hok.symm.trans hput)
    exact .inr ⟨hactive, port, hused, hgiven, hput, hvalue, hkeeps⟩
  · rename_i hactive
    exact .inl ⟨Bool.not_eq_true _ ▸ hactive, (Except.ok.inj hok).symm⟩

/-- Nothing that the listeners leave alone changes. -/
theorem assignListeners_frame {β : Type} (f : GatewayDefinition → β) (h : Lawful ls)
    (hput : ∀ l ∈ ls, ∀ gateway port gateway', ValidPort port → l.put gateway port = .ok gateway' →
      f gateway' = f gateway) {s s' : List Nat × GatewayDefinition} (hok : ls.foldlM assignListener s = .ok s') :
    f s'.2 = f s.2 := by
  induction ls generalizing s with
  | nil => exact congrArg (fun s : List Nat × GatewayDefinition => f s.2) (Except.ok.inj hok).symm
  | cons l rest ih =>
    obtain ⟨middle, hfirst, hrest⟩ := bind_ok.mp hok
    have hlater := ih h.tail (fun l' hl' => hput l' (List.mem_cons_of_mem l hl')) hrest
    rcases assignListener_cases h List.mem_cons_self hfirst with ⟨-, rfl⟩ | ⟨-, port, -, hgiven, hdone, -⟩
    · exact hlater
    · exact hlater.trans (hput l List.mem_cons_self _ port _ hgiven.valid hdone)

theorem assignListeners_ok (h : Lawful ls) {s s' : List Nat × GatewayDefinition}
    (hok : ls.foldlM assignListener s = .ok s') :
    ∃ ports, s'.1 = s.1 ++ ports ∧ valuesOf ls s'.2 = ports.map some ∧ Assigned s.1 (valuesOf ls s.2) ports ∧
      KeepsAdapters s.2 s'.2 := by
  induction ls generalizing s with
  | nil =>
    obtain rfl := Except.ok.inj hok
    exact ⟨[], (List.append_nil _).symm, rfl, .nil, rfl, fun h => h⟩
  | cons l rest ih =>
    obtain ⟨middle, hfirst, hrest⟩ := bind_ok.mp hok
    obtain ⟨ports, hused, hvalues, hassigned, hkeeps⟩ := ih h.tail hrest
    rcases assignListener_cases h List.mem_cons_self hfirst with
      ⟨hidle, rfl⟩ | ⟨hactive, port, hport, hgiven, hput, hvalue, hfirstKeeps⟩
    · refine ⟨ports, hused, ?_, ?_, hkeeps⟩
      · rwa [valuesOf_cons_idle (by rw [hkeeps.adapters, hidle])]
      · rwa [valuesOf_cons_idle hidle]
    · obtain ⟨happart, -⟩ := List.pairwise_cons.mp h.apart
      -- the fields of the other listeners are as they were, and so is this one afterwards
      have hbefore : valuesOf (l :: rest) s.2 = l.value s.2 :: valuesOf rest middle.2 := by
        rw [valuesOf_cons hactive, valuesOf_congr hfirstKeeps.adapters]
        exact fun l' hl' => (happart l' hl' s.2 port middle.2 hgiven.valid).1 hput
      have hlast : valuesOf (l :: rest) s'.2 = some port :: valuesOf rest s'.2 := by
        rw [valuesOf_cons (by rw [hkeeps.adapters, hfirstKeeps.adapters, hactive])]
        refine congrArg (· :: _) ((assignListeners_frame l.value h.tail ?_ hrest).trans hvalue)
        intro l' hl' gateway port gateway' hvalid hput
        exact (happart l' hl' gateway port gateway' hvalid).2 hput
      rw [hport] at hused hassigned
      refine ⟨port :: ports, ?_, ?_, ?_, ?_, ?_⟩
      · rw [hused, List.append_assoc]
        rfl
      · rw [hlast, hvalues, List.map_cons]
      · rw [hbefore]
        exact .cons hgiven hassigned
      · rw [hkeeps.adapters, hfirstKeeps.adapters]
      · exact fun hsynced => hkeeps.synced (hfirstKeeps.synced hsynced)

/-- A run over a gateway whose ports are all valid and free. -/
theorem assignListeners_again (h : Lawful ls) {ports : List Nat} (hsynced : Synced gateway)
    (hvalues : valuesOf ls gateway = ports.map some) (hnodup : ports.Nodup)
    (hfree : ∀ port ∈ ports, ValidPort port ∧ port ∉ used) :
    ∃ gateway', ls.foldlM assignListener (used, gateway) = .ok (used ++ ports, gateway') ∧
      SamePorts gateway gateway' := by
  induction ls generalizing gateway used ports with
  | nil =>
    obtain rfl := List.map_eq_nil_iff.mp hvalues.symm
    exact ⟨gateway, by rw [List.append_nil]; rfl, .rfl⟩
  | cons l rest ih =>
    cases hactive : hasAdapter gateway l.adapter with
    | false =>
      rw [valuesOf_cons_idle hactive] at hvalues
      obtain ⟨gateway', hok, hsame⟩ := ih h.tail hsynced hvalues hnodup hfree
      refine ⟨gateway', ?_, hsame⟩
      rw [List.foldlM_cons, assignListener, if_neg (by rw [hactive]; decide)]
      exact hok
    | true =>
      rw [valuesOf_cons hactive] at hvalues
      cases ports with
      | nil => cases hvalues
      | cons port ports =>
        obtain ⟨hvalue, hrest⟩ := List.cons.inj hvalues
        obtain ⟨hnew, hnodup⟩ := List.nodup_cons.mp hnodup
        obtain ⟨hvalid, hfresh⟩ := hfree port List.mem_cons_self
        obtain ⟨middle, hput, -, hkeeps, hsame⟩ := h.put l List.mem_cons_self gateway port hvalid
        have hsameFirst := hsame hsynced hvalue hactive
        have hvaluesRest : valuesOf rest middle = ports.map some := by
          rw [valuesOf_congr hkeeps.adapters, hrest]
          intro l' hl'
          exact ((List.pairwise_cons.mp h.apart).1 l' hl' gateway port middle hvalid).1 hput
        have hfreeRest : ∀ p ∈ ports, ValidPort p ∧ p ∉ used ++ [port] := by
          refine fun p hp => ⟨(hfree p (List.mem_cons_of_mem _ hp)).1, fun hin => ?_⟩
          rcases List.mem_append.mp hin with hold | hport
          · exact (hfree p (List.mem_cons_of_mem _ hp)).2 hold
          · exact hnew (List.mem_singleton.mp hport ▸ hp)
        obtain ⟨gateway', hok, hsameRest⟩ := ih h.tail (hkeeps.synced hsynced) hvaluesRest hnodup hfreeRest
        refine ⟨gateway', ?_, hsameFirst.trans hsameRest⟩
        rw [List.foldlM_cons, assignListener, if_pos hactive, hvalue, assignIngress_keep hvalid hfresh]
        dsimp only [bind, Except.bind] at hok ⊢
        rw [hput]
        dsimp only
        rw [hok, List.append_assoc]
        rfl

/-! ## A run over all gateways -/

variable {gateways gateways' : List GatewayDefinition}

/-- The ports of all listeners, in the order in which they are assigned. -/
def ingressValues (platform : Platform) (gateways : List GatewayDefinition) : List (Option Nat) :=
  gateways.flatMap (valuesOf (listeners platform))

theorem assignListeners_synced {s s' : List Nat × GatewayDefinition}
    (hok : (listeners platform).foldlM assignListener s = .ok s') : Synced s'.2 := by
  have hlawful := listeners_lawful platform
  obtain ⟨middle, hfirst, hrest⟩ := bind_ok.mp hok
  obtain ⟨-, -, -, -, hkeeps⟩ := assignListeners_ok hlawful.tail hrest
  apply hkeeps.synced
  rcases assignListener_cases hlawful List.mem_cons_self hfirst with ⟨hidle, rfl⟩ | ⟨-, port, -, hgiven, hput, -⟩
  · intro item hitem
    cases hidle.symm.trans (enabledNapcatInstance_eq_some.mp hitem).1
  · obtain ⟨found, hok, -, -, -, -, -, -, -, hsynced⟩ :=
      napcatListener_put platform s.2 hgiven.valid
    obtain rfl := Except.ok.inj (hok.symm.trans hput)
    exact hsynced

theorem assignGateways_ok (hok : assignGateways platform used gateways = .ok (used', gateways')) :
    ∃ ports, used' = used ++ ports ∧ ingressValues platform gateways' = ports.map some ∧
      Assigned used (ingressValues platform gateways) ports ∧ ∀ gateway ∈ gateways', Synced gateway := by
  induction gateways generalizing used used' gateways' with
  | nil =>
    obtain ⟨rfl, rfl⟩ := Prod.mk.inj (Except.ok.inj hok)
    exact ⟨[], (List.append_nil _).symm, rfl, .nil, fun _ h => absurd h List.not_mem_nil⟩
  | cons gateway rest ih =>
    obtain ⟨⟨middle, first⟩, hfirst, hok⟩ := bind_ok.mp hok
    obtain ⟨⟨last, others⟩, hrest, hok⟩ := bind_ok.mp hok
    obtain ⟨rfl, rfl⟩ := Prod.mk.inj (Except.ok.inj hok)
    obtain ⟨ports, hused, hvalues, hassigned, -⟩ := assignListeners_ok (listeners_lawful platform) hfirst
    obtain ⟨more, hmore, hvaluesRest, hassignedRest, hsynced⟩ := ih hrest
    dsimp only at hused hvalues hassigned
    subst hused
    refine ⟨ports ++ more, ?_, ?_, hassigned.append hassignedRest, fun g hg => ?_⟩
    · rw [hmore, List.append_assoc]
    · unfold ingressValues at hvaluesRest ⊢
      rw [List.flatMap_cons, hvalues, hvaluesRest, List.map_append]
    · rcases List.mem_cons.mp hg with rfl | hin
      · exact assignListeners_synced hfirst
      · exact hsynced g hin

/-- A run over gateways whose ports are all valid and distinct. -/
theorem assignGateways_again {ports : List Nat} (hsynced : ∀ gateway ∈ gateways, Synced gateway)
    (hvalues : ingressValues platform gateways = ports.map some) (hnodup : ports.Nodup)
    (hfree : ∀ port ∈ ports, ValidPort port ∧ port ∉ used) :
    ∃ gateways', assignGateways platform used gateways = .ok (used ++ ports, gateways') ∧
      List.Forall₂ SamePorts gateways gateways' := by
  induction gateways generalizing used ports with
  | nil =>
    obtain rfl := List.map_eq_nil_iff.mp hvalues.symm
    exact ⟨[], by rw [List.append_nil]; rfl, .nil⟩
  | cons gateway rest ih =>
    unfold ingressValues at hvalues
    rw [List.flatMap_cons] at hvalues
    obtain ⟨first, more, rfl, hfirst, hmore⟩ := List.append_eq_map_iff.mp hvalues
    obtain ⟨hnodupFirst, hnodupMore, hdisjoint⟩ := List.nodup_append.mp hnodup
    obtain ⟨gateway', hok, hsame⟩ := assignListeners_again (listeners_lawful platform)
      (hsynced gateway List.mem_cons_self) hfirst.symm hnodupFirst
      fun p hp => hfree p (List.mem_append_left _ hp)
    have hfreeMore : ∀ p ∈ more, ValidPort p ∧ p ∉ used ++ first := by
      refine fun p hp => ⟨(hfree p (List.mem_append_right _ hp)).1, fun hin => ?_⟩
      rcases List.mem_append.mp hin with hold | hold
      · exact (hfree p (List.mem_append_right _ hp)).2 hold
      · exact hdisjoint p hold p hp rfl
    obtain ⟨rest', hokRest, hsameRest⟩ := ih (fun g hg => hsynced g (List.mem_cons_of_mem _ hg)) hmore.symm
      hnodupMore hfreeMore
    refine ⟨gateway' :: rest', ?_, .cons hsame hsameRest⟩
    unfold assignGateways
    dsimp only [bind, Except.bind]
    rw [hok]
    dsimp only
    rw [hokRest, List.append_assoc]

/-! ## Claims -/

/-- The claims of listeners; the HTTP endpoint of NapCat is not one. -/
def isIngress (c : GatewayPortClaim) : Bool := c.kind != .napcatHttp

def claimedPorts (claims : List GatewayPortClaim) : List Nat := (claims.filter isIngress).map GatewayPortClaim.port

theorem claimedPorts_append (a b : List GatewayPortClaim) :
    claimedPorts (a ++ b) = claimedPorts a ++ claimedPorts b := by
  unfold claimedPorts
  rw [List.filter_append, List.map_append]

theorem valuesOf_cons_ite : valuesOf (listener :: ls) gateway =
    (if hasAdapter gateway listener.adapter then [listener.value gateway] else []) ++ valuesOf ls gateway := by
  split
  · rename_i hactive
    exact valuesOf_cons hactive
  · rename_i hidle
    exact valuesOf_cons_idle (Bool.not_eq_true _ ▸ hidle)

/-- The claim of a listener whose port is set. -/
theorem claimedPorts_claim {active : Bool} {ports : List Nat} (other : Nat) {label : JsString}
    {kind : GatewayPortClaimKind} {gatewayId instanceId : Option JsString} (hkind : kind ≠ .napcatHttp)
    (h : ports.map some = if active then [value] else []) :
    claimedPorts (if active then claim (some (value.getD other)) label kind gatewayId instanceId else []) = ports := by
  cases active with
  | false => exact (List.map_eq_nil_iff.mp h).symm
  | true =>
    obtain ⟨port, rfl, rfl⟩ := List.map_eq_singleton_iff.mp h
    unfold claimedPorts claim isIngress
    simp [hkind]

theorem mem_claim {c : GatewayPortClaim} {number : Option Nat} {label : JsString} {kind : GatewayPortClaimKind}
    {gatewayId instanceId : Option JsString} (h : c ∈ claim number label kind gatewayId instanceId) :
    c.kind = kind ∧ number = some c.port := by
  unfold claim at h
  rw [Option.mem_toList, Option.map_eq_some_iff] at h
  obtain ⟨port, rfl, rfl⟩ := h
  exact ⟨rfl, rfl⟩

theorem isIngress_of_mem {c : GatewayPortClaim} {active : Bool} {number : Option Nat} {label : JsString}
    {kind : GatewayPortClaimKind} {gatewayId instanceId : Option JsString} (hkind : kind ≠ .napcatHttp)
    (h : c ∈ if active then claim number label kind gatewayId instanceId else []) : isIngress c = true := by
  split at h
  · unfold isIngress
    rw [(mem_claim h).1]
    exact bne_iff_ne.mpr hkind
  · cases h

/-- A claim that is not of a listener is of an HTTP endpoint, whose port is one. -/
theorem claimsOf_other {c : GatewayPortClaim} (h : c ∈ claimsOf platform gateway) (hother : isIngress c = false) :
    ValidPort c.port := by
  unfold claimsOf at h
  dsimp only at h
  simp only [List.mem_append] at h
  rcases h with ((((h | h) | h) | h) | h) | h
  · cases hother.symm.trans (isIngress_of_mem (by decide) h)
  · cases hother.symm.trans (isIngress_of_mem (by decide) h)
  · cases hother.symm.trans (isIngress_of_mem (by decide) h)
  · cases hother.symm.trans (isIngress_of_mem (by decide) h)
  · cases hother.symm.trans (isIngress_of_mem (by decide) h)
  · split at h
    · cases h
    · rcases List.mem_append.mp h with h | h
      · unfold isIngress at hother
        rw [(mem_claim h).1] at hother
        exact absurd hother (by decide)
      · obtain ⟨port, -, hport⟩ := Option.map_eq_some_iff.mp (mem_claim h).2
        exact hport ▸ port.2

/-- A gateway whose listeners have their ports claims these. -/
theorem claimsOf_ports {ports : List Nat} (h : valuesOf (listeners platform) gateway = ports.map some) :
    (claimedPorts (claimsOf platform gateway)).Perm ports := by
  have hpieces := h
  unfold listeners at hpieces
  simp only [valuesOf_cons_ite] at hpieces
  obtain ⟨napcat, rest, rfl, hnapcat, hrest⟩ := List.append_eq_map_iff.mp hpieces
  obtain ⟨webhook, rest, rfl, hwebhook, hrest⟩ := List.append_eq_map_iff.mp hrest.symm
  obtain ⟨xiaoai, rest, rfl, hxiaoai, hrest⟩ := List.append_eq_map_iff.mp hrest.symm
  obtain ⟨rabilink, rest, rfl, hrabilink, hrest⟩ := List.append_eq_map_iff.mp hrest.symm
  obtain ⟨feishu, rest, rfl, hfeishu, hrest⟩ := List.append_eq_map_iff.mp hrest.symm
  obtain rfl : rest = [] := List.map_eq_nil_iff.mp hrest
  change webhook.map some = if hasAdapter gateway (js "webhook") then [gateway.webhookPort] else [] at hwebhook
  change xiaoai.map some = if hasAdapter gateway (js "xiaoai") then [gateway.xiaoaiWebhookPort] else [] at hxiaoai
  change rabilink.map some = if hasAdapter gateway (js "rabilink") then [gateway.rabiLinkWebhookPort] else []
    at hrabilink
  change feishu.map some = if hasAdapter gateway (js "feishu") then [gateway.feishuWebhookPort] else [] at hfeishu
  change napcat.map some = if hasAdapter gateway (js "napcat") then
    [some ((enabledNapcatInstance gateway).elim gateway.gatewayPort NapCatInstanceDefinition.gatewayPort)] else []
    at hnapcat
  unfold claimsOf
  dsimp only
  simp only [claimedPorts_append]
  rw [claimedPorts_claim _ (by decide) hwebhook, claimedPorts_claim _ (by decide) hxiaoai,
    claimedPorts_claim _ (by decide) hrabilink, claimedPorts_claim _ (by decide) hfeishu, List.append_nil]
  cases hitem : enabledNapcatInstance gateway with
  | none =>
    rw [hitem] at hnapcat
    rw [Option.isNone_none, Bool.and_true]
    have hgateway : claimedPorts (if hasAdapter gateway (js "napcat") then claim (some gateway.gatewayPort)
        (gateway.id ++ js " gateway WS") .gatewayWs (some gateway.id) none else []) = napcat :=
      claimedPorts_claim 0 (by decide) hnapcat
    rw [show claimedPorts [] = [] from rfl, List.append_nil, List.append_assoc, List.append_assoc, List.append_assoc]
    exact .of_eq (congrArg (· ++ _) hgateway)
  | some item =>
    rw [hitem, if_pos (enabledNapcatInstance_eq_some.mp hitem).1] at hnapcat
    obtain ⟨port, rfl, hport⟩ := List.map_eq_singleton_iff.mp hnapcat
    obtain rfl : port = item.gatewayPort := Option.some.inj hport
    dsimp only
    have hws : ∀ label gatewayId instanceId, claimedPorts (claim (some item.gatewayPort) label .napcatWs gatewayId
        instanceId) = [item.gatewayPort] := fun _ _ _ => rfl
    have hhttp : ∀ number label gatewayId instanceId, claimedPorts (claim number label .napcatHttp gatewayId
        instanceId) = [] := fun number _ _ _ => by cases number <;> rfl
    rw [Option.isNone_some, Bool.and_false, claimedPorts_append, hws, hhttp, List.append_nil]
    show ([] ++ webhook ++ xiaoai ++ rabilink ++ feishu ++ [item.gatewayPort]).Perm _
    rw [List.nil_append]
    refine List.perm_append_comm.trans ?_
    rw [List.append_assoc, List.append_assoc]

theorem claimedPorts_gateways {ports : List Nat} (h : ingressValues platform gateways = ports.map some) :
    (claimedPorts (gateways.flatMap (claimsOf platform))).Perm ports := by
  induction gateways generalizing ports with
  | nil =>
    obtain rfl := List.map_eq_nil_iff.mp h.symm
    exact .refl []
  | cons gateway rest ih =>
    unfold ingressValues at h
    rw [List.flatMap_cons] at h
    obtain ⟨first, more, rfl, hfirst, hmore⟩ := List.append_eq_map_iff.mp h
    rw [List.flatMap_cons, claimedPorts_append]
    exact (claimsOf_ports hfirst.symm).append (ih hmore.symm)

/-- Gateways whose listeners have valid ports can be claimed. -/
theorem collectGatewayPortClaims_ok {ports : List Nat} (h : ingressValues platform gateways = ports.map some)
    (hvalid : ∀ port ∈ ports, ValidPort port) :
    collectGatewayPortClaims platform gateways none = .ok (gateways.flatMap (claimsOf platform)) := by
  have hall : ∀ c ∈ gateways.flatMap (claimsOf platform), assertValidPort c.port c.label = .ok () := by
    intro c hc
    apply assertValidPort_ok
    cases hkind : isIngress c with
    | false =>
      obtain ⟨gateway, -, hin⟩ := List.mem_flatMap.mp hc
      exact claimsOf_other hin hkind
    | true =>
      apply hvalid
      exact (claimedPorts_gateways h).mem_iff.mp (List.mem_map.mpr ⟨c, List.mem_filter.mpr ⟨hc, hkind⟩, rfl⟩)
  have hforM : ∀ claims : List GatewayPortClaim, (∀ c ∈ claims, assertValidPort c.port c.label = .ok ()) →
      (claims.forM fun c => assertValidPort c.port c.label) = .ok () := by
    intro claims hclaims
    induction claims with
    | nil => rfl
    | cons c rest ih =>
      show (assertValidPort c.port c.label >>= fun _ => rest.forM fun c => assertValidPort c.port c.label) = .ok ()
      rw [hclaims c List.mem_cons_self]
      exact ih fun c' hc' => hclaims c' (List.mem_cons_of_mem c hc')
  unfold collectGatewayPortClaims
  dsimp only [claim, Option.map, Option.toList]
  rw [List.nil_append, hforM _ hall]
  rfl

/-! ## Room for the ports -/

/-- A call of `assignIngress`. -/
structure IngressCall where
  used : List Nat
  value : Option Nat
  fallback : Nat

/-- The calls for the listeners of a gateway, up to the first that fails. -/
def listenerCalls : List Listener → List Nat × GatewayDefinition → List IngressCall
  | [], _ => []
  | l :: rest, s =>
    (if hasAdapter s.2 l.adapter then [⟨s.1, l.value s.2, l.fallback s.2⟩] else []) ++
      match assignListener s l with
      | .ok s => listenerCalls rest s
      | .error _ => []

/-- The calls of `assignIngress` in a run. -/
def ingressCalls (platform : Platform) (used : List Nat) : List GatewayDefinition → List IngressCall
  | [] => []
  | gateway :: rest =>
    listenerCalls (listeners platform) (used, gateway) ++
      match (listeners platform).foldlM assignListener (used, gateway) with
      | .ok s => ingressCalls platform s.1 rest
      | .error _ => []

def IngressCall.HasRoom (call : IngressCall) : Prop := RoomFor call.used call.value call.fallback

theorem assignListener_error (h : Lawful ls) (hl : listener ∈ ls) {s : List Nat × GatewayDefinition} :
    (∃ error, assignListener s listener = .error error) ↔
      hasAdapter s.2 listener.adapter = true ∧ ¬RoomFor s.1 (listener.value s.2) (listener.fallback s.2) := by
  rw [← assignIngress_error]
  unfold assignListener
  split
  · rename_i hactive
    rw [and_iff_right hactive]
    cases hassign : assignIngress s.1 (listener.value s.2) (listener.fallback s.2) with
    | error error => exact iff_of_true ⟨error, rfl⟩ ⟨error, rfl⟩
    | ok assigned =>
      obtain ⟨gateway', hput, -⟩ := h.put listener hl s.2 assigned.1 (assignIngress_ok hassign).2.valid
      refine iff_of_false ?_ fun ⟨error, herror⟩ => by cases herror
      rintro ⟨error, herror⟩
      dsimp only [bind, Except.bind] at herror
      rw [hput] at herror
      cases herror
  · rename_i hidle
    exact iff_of_false (fun ⟨error, herror⟩ => by cases herror) fun hactive => hidle hactive.1

theorem assignListeners_error (h : Lawful ls) {s : List Nat × GatewayDefinition} :
    (∃ error, ls.foldlM assignListener s = .error error) ↔ ∃ call ∈ listenerCalls ls s, ¬call.HasRoom := by
  induction ls generalizing s with
  | nil => exact iff_of_false (fun ⟨error, herror⟩ => by cases herror) fun ⟨call, hcall, _⟩ => by cases hcall
  | cons l rest ih =>
    have hfirst := assignListener_error h List.mem_cons_self (s := s)
    rw [List.foldlM_cons]
    unfold listenerCalls
    cases hassign : assignListener s l with
    | error error =>
      obtain ⟨hactive, hroom⟩ := hfirst.mp ⟨error, hassign⟩
      refine iff_of_true ⟨error, rfl⟩ ⟨⟨s.1, l.value s.2, l.fallback s.2⟩, ?_, hroom⟩
      rw [if_pos hactive]
      exact List.mem_cons_self
    | ok middle =>
      refine (ih h.tail).trans ⟨fun ⟨call, hcall, hroom⟩ => ⟨call, List.mem_append_right _ hcall, hroom⟩, ?_⟩
      rintro ⟨call, hcall, hroom⟩
      refine ⟨call, (List.mem_append.mp hcall).resolve_left fun hhead => ?_, hroom⟩
      -- the call of this listener has succeeded
      split at hhead
      · rename_i hactive
        obtain rfl := List.mem_singleton.mp hhead
        obtain ⟨error, herror⟩ := hfirst.mpr ⟨hactive, hroom⟩
        cases hassign.symm.trans herror
      · cases hhead

/-- The run fails at the first call without room. -/
theorem assignGateways_error : (∃ error, assignGateways platform used gateways = .error error) ↔
    ∃ call ∈ ingressCalls platform used gateways, ¬call.HasRoom := by
  induction gateways generalizing used with
  | nil => exact iff_of_false (fun ⟨error, herror⟩ => by cases herror) fun ⟨call, hcall, _⟩ => by cases hcall
  | cons gateway rest ih =>
    have hfirst := assignListeners_error (listeners_lawful platform) (s := (used, gateway))
    unfold assignGateways ingressCalls
    dsimp only [bind, Except.bind]
    cases hassign : (listeners platform).foldlM assignListener (used, gateway) with
    | error error =>
      obtain ⟨call, hcall, hroom⟩ := hfirst.mp ⟨error, hassign⟩
      exact iff_of_true ⟨error, rfl⟩ ⟨call, List.mem_append_left _ hcall, hroom⟩
    | ok middle =>
      dsimp only
      have hrest : (∃ error, assignGateways platform middle.1 rest = .error error) ↔
          ∃ call ∈ ingressCalls platform middle.1 rest, ¬call.HasRoom := ih
      constructor
      · rintro ⟨error, herror⟩
        obtain ⟨call, hcall, hroom⟩ := hrest.mp (by
          cases hlater : assignGateways platform middle.1 rest with
          | error error => exact ⟨error, rfl⟩
          | ok s =>
            rw [hlater] at herror
            cases herror)
        exact ⟨call, List.mem_append_right _ hcall, hroom⟩
      · rintro ⟨call, hcall, hroom⟩
        rcases List.mem_append.mp hcall with hhead | hlater
        · obtain ⟨error, herror⟩ := hfirst.mpr ⟨call, hhead, hroom⟩
          cases hassign.symm.trans herror
        · obtain ⟨error, herror⟩ := hrest.mpr ⟨call, hlater, hroom⟩
          rw [herror]
          exact ⟨error, rfl⟩

/-! ## The assignment -/

/-- More ports are needed than there are. -/
def Exceeds (platform : Platform) (gateways : List GatewayDefinition) (managerPort : Option Nat) : Prop :=
  65535 < (ingressValues platform gateways).length + (publishedManagerPort managerPort).length

/-- The assignment is free of conflicts and stable, and it fails only when there are not enough ports. -/
structure AssignsPorts (platform : Platform) (gateways : List GatewayDefinition) (managerPort : Option Nat) : Prop where
  /-- The listeners claim distinct ports of the range, and not the manager's. -/
  free : ∀ gateways', autoAssignGatewayPorts platform gateways managerPort = .ok gateways' →
    ∃ claims, collectGatewayPortClaims platform gateways' none = .ok claims ∧ (claimedPorts claims).Nodup ∧
      ∀ port ∈ claimedPorts claims, 1 ≤ port ∧ port ≤ 65535 ∧ some port ≠ managerPort
  /-- Every listener has a port, and one that was valid and not taken by a listener before stays. -/
  stable : ∀ gateways', autoAssignGatewayPorts platform gateways managerPort = .ok gateways' →
    ∃ ports : List Nat, ingressValues platform gateways' = ports.map some ∧
      ∀ i v, (ingressValues platform gateways)[i]? = some (some v) → ValidPort v → some v ≠ managerPort →
        v ∉ ports.take i → ports[i]? = some v
  /-- A second run changes no port. -/
  again : ∀ gateways', autoAssignGatewayPorts platform gateways managerPort = .ok gateways' →
    ∃ gateways'', autoAssignGatewayPorts platform gateways' managerPort = .ok gateways'' ∧
      List.Forall₂ SamePorts gateways' gateways''
  complete : ∀ error, autoAssignGatewayPorts platform gateways managerPort = .error error →
    Exceeds platform gateways managerPort

theorem mem_publishedManagerPort {managerPort : Option Nat} :
    port ∈ publishedManagerPort managerPort ↔ managerPort = some port ∧ ValidPort port := by
  unfold publishedManagerPort
  rw [Option.mem_toList, Option.filter_eq_some_iff, decide_eq_true_eq]

/-- What a run that succeeds has done. -/
theorem autoAssignGatewayPorts_ok {managerPort : Option Nat}
    (h : autoAssignGatewayPorts platform gateways managerPort = .ok gateways') :
    ∃ ports, ingressValues platform gateways' = ports.map some ∧
      Assigned (publishedManagerPort managerPort) (ingressValues platform gateways) ports ∧
      ∀ gateway ∈ gateways', Synced gateway := by
  obtain ⟨⟨used, last⟩, hok, hlast⟩ := bind_ok.mp h
  obtain rfl := Except.ok.inj hlast
  obtain ⟨ports, -, hvalues, hassigned, hsynced⟩ := assignGateways_ok hok
  exact ⟨ports, hvalues, hassigned, hsynced⟩

/-- A gateway on the last port whose webhook has no port yet. -/
def lastPortGateway : GatewayDefinition where
  id := js "main"
  messageAdapters := [js "napcat", js "webhook"]
  gatewayPort := 65535

end RabiRoute.GatewayPorts
