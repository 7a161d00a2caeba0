import RabiRoute.Collections.InsertionMap
import RabiRoute.Shared.GatewayPorts
import RabiRoute.Shared.RouteIdentity

/-!
# The catalog of routes

`ManagerConfigRepository.writeConfig`: each route of the catalog is the file `adapterConfig.json` in a folder with its
config name.  A definition that is renamed deletes the file of its old name before it writes its own, and at the end
the files of names that are not in use are deleted.
-/

namespace RabiRoute.ConfigRepository

open Collections Fallible GatewayPorts RouteNames

/-- A gateway definition as it is given: its identity, and `ρ` for all other fields. -/
structure RawDefinition (ρ : Type) where
  id : JsString
  configName : Option JsString := none
  agentRoleId : Option JsString := none
  rest : ρ

/-- A normalized gateway definition: its identity and its ports, and `ν` for all other fields. -/
structure Definition (ν : Type) extends GatewayDefinition where
  configName : Option JsString := none
  agentRoleId : Option JsString := none
  rest : ν

/-- What the repository does with the fields that are not part of a route's identity. -/
structure Fields (ρ ν ι : Type) where
  /-- The check of the automation rules; it throws where a target is missing or not valid. -/
  checkRules : RawDefinition ρ → Except JsString Unit
  /-- The fields that `normalizeGatewayDefinition` gives for an identity. -/
  normalizeFields : RawDefinition ρ → RouteIdentity → Except JsString (Definition ν)
  /-- What is stored of a definition. -/
  adapterConfigItem : Definition ν → ι

/-- The folders in the route root, with their `adapterConfig.json`. -/
abbrev Disk (ι : Type) := InsertionMap JsString (Option ι)

/-- The scope of a write: one config, and the id under which it was known. -/
structure Scope where
  configName : JsString
  previousId : JsString

section

variable {ρ ν ι : Type} (letters : Letters) (platform : Platform) (fields : Fields ρ ν ι)

/-- The folder of `adapterConfigPath(configName)`. -/
def routeFolder (configName : JsString) : Except JsString JsString :=
  let safeConfigName := sanitizeConfigName letters configName
  if safeConfigName = [] then .error (js "Missing route folder name") else .ok safeConfigName

/-- The `adapterConfig.json` of a folder. -/
def configAt (disk : Disk ι) (folder : JsString) : Option ι := (disk.get? folder).getD none

/-- `if (fs.existsSync(path)) fs.unlinkSync(path)` -/
def unlinkIfExists (disk : Disk ι) (folder : JsString) : Disk ι :=
  if (configAt disk folder).isSome then disk.set folder none else disk

def identityOf (definition : RawDefinition ρ) : RouteIdentity :=
  resolveRouteIdentity letters
    { id := definition.id, agentRoleId := definition.agentRoleId, configName := definition.configName }

def normalize (definition : RawDefinition ρ) : Except JsString (Definition ν) := do
  if sanitizeRoleId letters definition.id = [] then .error (js "Invalid gateway id: " ++ definition.id)
  else
    let identity := identityOf letters definition
    let normalized ← fields.normalizeFields definition identity
    .ok { normalized with
      id := identity.runtimeId
      configName := some identity.configName
      agentRoleId := some identity.roleId }

/-- `autoAssignGatewayPorts` and `validateGatewayPortConflicts` -/
def assignPorts (managerPort : Nat) (definitions : List (Definition ν)) : Except JsString (List (Definition ν)) := do
  let gateways ← autoAssignGatewayPorts platform (definitions.map Definition.toGatewayDefinition) (some managerPort)
  validateGatewayPortConflicts platform gateways
  .ok (definitions.zipWith (fun definition gateway ↦ { definition with toGatewayDefinition := gateway }) gateways)

/-- `routeRuntimeParts(raw.id).configName || sanitizeConfigName(raw.configName)` -/
def oldConfigName (raw : RawDefinition ρ) : JsString :=
  orText (routeRuntimeParts letters raw.id).configName (sanitizeConfigName letters (raw.configName.getD []))

/-- `sanitizeConfigName(definition.configName) || definition.id` -/
def newConfigName (definition : Definition ν) : JsString :=
  orText (sanitizeConfigName letters (definition.configName.getD [])) definition.id

/-- A round of the loop: the file of the old name goes, and the definition's own is written. -/
def writeDefinition (scope : Option Scope) (disk : Disk ι) (raw : RawDefinition ρ) (definition : Definition ν) :
    Except JsString (Disk ι) :=
  let old := oldConfigName letters raw
  let configName := newConfigName letters definition
  if scope.any fun scope ↦ configName ≠ scope.configName then .ok disk
  else do
    let disk ←
      if old ≠ [] ∧ old ≠ configName then (routeFolder letters old).map (unlinkIfExists disk)
      else .ok disk
    let folder ← routeFolder letters configName
    .ok (disk.set folder (some (fields.adapterConfigItem definition)))

/-- A round of `removeConfigFilesMissingFrom`, for a folder. -/
def removeFolder (activeConfigNames : List JsString) (disk : Disk ι) (folder : JsString) : Except JsString (Disk ι) :=
  let configName := sanitizeConfigName letters folder
  if sanitizeRoleId letters folder = [] ∨ configName = [] ∨ configName ∈ activeConfigNames then .ok disk
  else (routeFolder letters configName).map (unlinkIfExists disk)

def removeConfigFilesMissingFrom (activeConfigNames : List JsString) (disk : Disk ι) : Except JsString (Disk ι) :=
  disk.keys.foldlM (removeFolder letters activeConfigNames) disk

/-- The deletions after the loop: of the scope's previous name, or of every name that is not in use. -/
def removeOthers (scope : Option Scope) (activeConfigNames : List JsString) (disk : Disk ι) :
    Except JsString (Disk ι) :=
  match scope with
  | none => removeConfigFilesMissingFrom letters activeConfigNames disk
  | some scope =>
    let previousName := orText (routeRuntimeParts letters scope.previousId).configName
      (sanitizeConfigName letters scope.previousId)
    if previousName ≠ [] ∧ previousName ≠ scope.configName then
      (routeFolder letters previousName).map (unlinkIfExists disk)
    else .ok disk

/-- The config name by which the rules of a definition are checked. -/
def checkedConfigName (gateway : RawDefinition ρ) : JsString :=
  orText (sanitizeConfigName letters (gateway.configName.getD [])) (routeRuntimeParts letters gateway.id).configName

def writeConfig (managerPort : Nat) (gateways : List (RawDefinition ρ)) (scope : Option Scope) (disk : Disk ι) :
    Except JsString (List (Definition ν) × Disk ι) := do
  gateways.forM fun gateway ↦
    if scope.any fun scope ↦ checkedConfigName letters gateway ≠ scope.configName then .ok ()
    else fields.checkRules gateway
  let normalized ← gateways.mapM (normalize letters fields)
  let normalized ← assignPorts platform managerPort normalized
  let disk ← (gateways.zip normalized).foldlM
    (fun disk pair ↦ writeDefinition letters fields scope disk pair.1 pair.2) disk
  let disk ← removeOthers letters scope (normalized.map (newConfigName letters)) disk
  .ok (normalized, disk)

/-- The config name of a definition: of its `configName`, or else of its id. -/
def resolvedName (raw : RawDefinition ρ) : JsString := (identityOf letters raw).configName

end

variable {ρ ν ι : Type} {letters : Letters} {platform : Platform} {fields : Fields ρ ν ι} {disk disk' : Disk ι}
  {name folder : JsString}

/-! ## Single files -/

theorem routeFolder_ok (h : IsConfigName letters name) : routeFolder letters name = .ok name := by
  unfold routeFolder
  dsimp only
  rw [h.1, if_neg h.2]

theorem configAt_set (item : Option ι) : configAt (disk.set folder item) name =
    if name = folder then item else configAt disk name := by
  unfold configAt
  rw [InsertionMap.get?_set]
  split
  · rfl
  · rfl

theorem configAt_unlink : configAt (unlinkIfExists disk folder) name =
    if name = folder then none else configAt disk name := by
  unfold unlinkIfExists
  split
  · exact configAt_set none
  · rename_i habsent
    split
    · rename_i hsame
      rw [hsame]
      exact Option.not_isSome_iff_eq_none.mp habsent
    · rfl

/-- What a round of the loop makes of the disk. -/
def rewrite (disk : Disk ι) (old configName : JsString) (item : ι) : Disk ι :=
  (if old ≠ configName then unlinkIfExists disk old else disk).set configName (some item)

theorem configAt_rewrite (old configName : JsString) (item : ι) : configAt (rewrite disk old configName item) name =
    if name = configName then some item else if name = old then none else configAt disk name := by
  unfold rewrite
  rw [configAt_set]
  by_cases hname : name = configName
  · rw [if_pos hname, if_pos hname]
  · rw [if_neg hname, if_neg hname]
    by_cases hrenamed : old = configName
    · rw [if_neg (not_not.mpr hrenamed), if_neg fun h => hname (h.trans hrenamed)]
    · rw [if_pos hrenamed, configAt_unlink]

theorem orText_of_ne {a b : JsString} (h : a ≠ []) : orText a b = a := if_neg h

theorem isConfigName_old (raw : RawDefinition ρ) : IsConfigName letters (oldConfigName letters raw) := by
  have hparts : IsConfigName letters (routeRuntimeParts letters raw.id).configName := isConfigName_runtimeParts raw.id
  unfold oldConfigName
  rw [orText_of_ne hparts.2]
  exact hparts

theorem isConfigName_resolved (raw : RawDefinition ρ) : IsConfigName letters (resolvedName letters raw) :=
  isConfigName_resolve _

theorem writeDefinition_eq {raw : RawDefinition ρ} {definition : Definition ν}
    (h : newConfigName letters definition = resolvedName letters raw) :
    writeDefinition letters fields none disk raw definition =
      .ok (rewrite disk (oldConfigName letters raw) (resolvedName letters raw)
        (fields.adapterConfigItem definition)) := by
  have hold : IsConfigName letters (oldConfigName letters raw) := isConfigName_old raw
  have hnew : IsConfigName letters (resolvedName letters raw) := isConfigName_resolved raw
  unfold writeDefinition rewrite
  rw [h]
  dsimp only [Option.any_none]
  rw [if_neg Bool.false_ne_true, routeFolder_ok hold, routeFolder_ok hnew]
  by_cases hrenamed : oldConfigName letters raw = resolvedName letters raw
  · rw [if_neg fun hboth => hboth.2 hrenamed, if_neg (not_not.mpr hrenamed)]
    rfl
  · rw [if_pos ⟨hold.2, hrenamed⟩, if_pos hrenamed]
    rfl

/-! ## The loop -/

/-- A write of the loop: the old name, the name and what is stored. -/
structure Write (ι : Type) where
  old : JsString
  configName : JsString
  item : ι

def writeAll (disk : Disk ι) (writes : List (Write ι)) : Disk ι :=
  writes.foldl (fun disk write ↦ rewrite disk write.old write.configName write.item) disk

theorem writeAll_cons {write : Write ι} {writes : List (Write ι)} : writeAll disk (write :: writes) =
    writeAll (rewrite disk write.old write.configName write.item) writes :=
  rfl

/-- A name that is not written keeps its file unless it is given up. -/
theorem configAt_writeAll {writes : List (Write ι)} (h : ∀ write ∈ writes, name ≠ write.configName) :
    configAt (writeAll disk writes) name = if ∃ write ∈ writes, name = write.old then none else configAt disk name := by
  induction writes generalizing disk with
  | nil => exact (if_neg fun ⟨_, hin, _⟩ => by cases hin).symm
  | cons write rest ih =>
    have hfirst : configAt (rewrite disk write.old write.configName write.item) name =
        if name = write.old then none else configAt disk name := by
      rw [configAt_rewrite, if_neg (h write List.mem_cons_self)]
    rw [writeAll_cons, ih fun w hw => h w (List.mem_cons_of_mem _ hw)]
    simp only [List.mem_cons, exists_eq_or_imp]
    by_cases hlater : ∃ w ∈ rest, name = w.old
    · rw [if_pos hlater, if_pos (.inr hlater)]
    · rw [if_neg hlater, hfirst]
      by_cases hold : name = write.old
      · rw [if_pos hold, if_pos (.inl hold)]
      · rw [if_neg hold, if_neg (not_or.mpr ⟨hold, hlater⟩)]

/-- Which writes leave their files: those whose names no later write gives up. -/
theorem configAt_written_iff (disk : Disk ι) {writes : List (Write ι)} (hdistinct : (writes.map Write.configName).Nodup) :
    (∀ write ∈ writes, configAt (writeAll disk writes) write.configName = some write.item) ↔
      writes.Pairwise fun earlier later => later.old ≠ earlier.configName := by
  induction writes generalizing disk with
  | nil => exact ⟨fun _ => .nil, fun _ write hin => by cases hin⟩
  | cons write rest ih =>
    rw [List.map_cons, List.nodup_cons] at hdistinct
    rw [List.forall_mem_cons, List.pairwise_cons]
    refine and_congr ?_ (ih _ hdistinct.2)
    have hnew : ∀ later ∈ rest, write.configName ≠ later.configName := fun later hlater hsame =>
      hdistinct.1 (hsame ▸ List.mem_map_of_mem hlater)
    rw [writeAll_cons, configAt_writeAll hnew, configAt_rewrite, if_pos rfl]
    constructor
    · intro h later hlater hold
      rw [if_pos ⟨later, hlater, hold.symm⟩] at h
      cases h
    · intro h
      exact if_neg fun ⟨later, hlater, hold⟩ => h later hlater hold.symm

/-! ## The deletions -/

theorem removeFolder_ok {active : List JsString} (h : removeFolder letters active disk folder = .ok disk') :
    (∀ name, configAt disk' name = configAt disk name ∨ (configAt disk' name = none ∧ name ∉ active)) ∧
      (IsConfigName letters folder → folder ∉ active → configAt disk' folder = none) := by
  unfold removeFolder at h
  dsimp only at h
  split at h
  · rename_i hkept
    obtain rfl := Except.ok.inj h
    refine ⟨fun name => .inl rfl, fun hname hidle => ?_⟩
    rw [hname.sanitizeRoleId, hname.1] at hkept
    rcases hkept with hempty | hempty | hactive
    · exact absurd hempty hname.2
    · exact absurd hempty hname.2
    · exact absurd hactive hidle
  · rename_i hremoved
    rw [not_or, not_or] at hremoved
    rw [routeFolder_ok (isConfigName_sanitize hremoved.2.1)] at h
    obtain rfl := Except.ok.inj h
    refine ⟨fun name => ?_, fun hname _ => ?_⟩
    · rw [configAt_unlink]
      split
      · rename_i hsame
        exact .inr ⟨rfl, hsame ▸ hremoved.2.2⟩
      · exact .inl rfl
    · rw [configAt_unlink, if_pos hname.1.symm]

theorem removeFolders_ok {active folders : List JsString}
    (h : folders.foldlM (removeFolder letters active) disk = .ok disk') :
    (∀ name, configAt disk' name = configAt disk name ∨ (configAt disk' name = none ∧ name ∉ active)) ∧
      ∀ name ∈ folders, IsConfigName letters name → name ∉ active → configAt disk' name = none := by
  induction folders generalizing disk with
  | nil =>
    obtain rfl := Except.ok.inj h
    exact ⟨fun name => .inl rfl, fun name hin => by cases hin⟩
  | cons folder rest ih =>
    rw [List.foldlM_cons] at h
    obtain ⟨middle, hfirst, hrest⟩ := bind_ok.mp h
    obtain ⟨hkept, hremoved⟩ := removeFolder_ok hfirst
    obtain ⟨hkeptRest, hremovedRest⟩ := ih hrest
    constructor
    · intro name
      rcases hkeptRest name with hsame | hgone
      · rw [hsame]
        exact hkept name
      · exact .inr hgone
    · intro name hin hname hidle
      rcases List.mem_cons.mp hin with rfl | hin
      · rcases hkeptRest name with hsame | hgone
        · rw [hsame]
          exact hremoved hname hidle
        · exact hgone.1
      · exact hremovedRest name hin hname hidle

/-- After the deletions a name has its file if it is in use, and none otherwise. -/
theorem removeConfigFilesMissingFrom_ok {active : List JsString}
    (h : removeConfigFilesMissingFrom letters active disk = .ok disk') (hname : IsConfigName letters name) :
    configAt disk' name = if name ∈ active then configAt disk name else none := by
  obtain ⟨hkept, hremoved⟩ := removeFolders_ok h
  split
  · rename_i hactive
    exact (hkept name).resolve_right fun hgone => hgone.2 hactive
  · rename_i hidle
    by_cases hin : name ∈ disk.keys
    · exact hremoved name hin hname hidle
    · rcases hkept name with hsame | hgone
      · have habsent : disk.get? name = none := by
          rw [← InsertionMap.has_eq_false, ← Bool.not_eq_true, InsertionMap.has_iff]
          exact hin
        rw [hsame]
        unfold configAt
        rw [habsent]
        rfl
      · exact hgone.1

/-! ## The definitions that are written -/

variable {gateways : List (RawDefinition ρ)} {normalized : List (Definition ν)} {managerPort : Nat}

theorem configName_normalize {raw : RawDefinition ρ} {definition : Definition ν} (h : normalize letters fields raw = .ok
    definition) : definition.configName = some (resolvedName letters raw) := by
  unfold normalize at h
  split at h
  · cases h
  · obtain ⟨_, -, h⟩ := bind_ok.mp h
    obtain rfl := Except.ok.inj h
    rfl

theorem newConfigName_of_configName {definition : Definition ν} (h : definition.configName = some name)
    (hname : IsConfigName letters name) : newConfigName letters definition = name := by
  unfold newConfigName
  rw [h, Option.getD_some, hname.1, orText_of_ne hname.2]

theorem assignGateways_length {used used' : List Nat} {definitions assigned : List GatewayDefinition}
    (h : assignGateways platform used definitions = .ok (used', assigned)) : assigned.length = definitions.length := by
  induction definitions generalizing used used' assigned with
  | nil =>
    obtain ⟨-, rfl⟩ := Prod.mk.inj (Except.ok.inj h)
    rfl
  | cons gateway rest ih =>
    obtain ⟨first, -, h⟩ := bind_ok.mp h
    obtain ⟨⟨last, others⟩, hrest, h⟩ := bind_ok.mp h
    obtain ⟨-, rfl⟩ := Prod.mk.inj (Except.ok.inj h)
    rw [List.length_cons, List.length_cons, ih hrest]

/-- The ports change no config name. -/
theorem configNames_assignPorts {definitions assigned : List (Definition ν)} (h : assignPorts platform managerPort
    definitions = .ok assigned) : assigned.map Definition.configName = definitions.map Definition.configName := by
  unfold assignPorts at h
  obtain ⟨gateways, hassigned, h⟩ := bind_ok.mp h
  obtain ⟨-, -, h⟩ := bind_ok.mp h
  obtain rfl := Except.ok.inj h
  unfold autoAssignGatewayPorts at hassigned
  obtain ⟨⟨used, out⟩, hgateways, hout⟩ := bind_ok.mp hassigned
  obtain rfl := Except.ok.inj hout
  have hlength := assignGateways_length hgateways
  rw [List.length_map] at hlength
  rw [List.map_zipWith]
  refine List.ext_getElem ?_ fun i h₁ h₂ => ?_
  · rw [List.length_zipWith, List.length_map, hlength, Nat.min_self]
  · rw [List.getElem_zipWith, List.getElem_map]

/-- The names under which the definitions of a catalog are written. -/
theorem configNames_catalog {definitions assigned : List (Definition ν)} (hnormal : gateways.mapM (normalize letters
    fields) = .ok definitions) (hports : assignPorts platform managerPort definitions = .ok assigned) : assigned.map
    Definition.configName = gateways.map fun raw => some (resolvedName letters raw) := by
  rw [configNames_assignPorts hports]
  have hall := mapM_ok hnormal
  clear hnormal hports
  induction hall with
  | nil => rfl
  | cons hfirst _ ih => rw [List.map_cons, List.map_cons, configName_normalize hfirst, ih]

/-- The writes of a catalog. -/
def writesOf (letters : Letters) (fields : Fields ρ ν ι) (gateways : List (RawDefinition ρ))
    (normalized : List (Definition ν)) : List (Write ι) :=
  (gateways.zip normalized).map fun pair ↦
    ⟨oldConfigName letters pair.1, resolvedName letters pair.1, fields.adapterConfigItem pair.2⟩

theorem writeDefinitions_eq {pairs : List (RawDefinition ρ × Definition ν)}
    (h : ∀ pair ∈ pairs, newConfigName letters pair.2 = resolvedName letters pair.1) :
    pairs.foldlM (fun disk pair => writeDefinition letters fields none disk pair.1 pair.2) disk =
      .ok (writeAll disk (pairs.map fun pair =>
        ⟨oldConfigName letters pair.1, resolvedName letters pair.1, fields.adapterConfigItem pair.2⟩)) := by
  induction pairs generalizing disk with
  | nil => rfl
  | cons pair rest ih =>
    rw [List.foldlM_cons, writeDefinition_eq (h pair List.mem_cons_self), List.map_cons, writeAll_cons]
    dsimp only [bind, Except.bind]
    rw [ih fun p hp => h p (List.mem_cons_of_mem pair hp)]

/-- What a write without scope does to the disk. -/
theorem writeConfig_ok
    (h : writeConfig letters platform fields managerPort gateways none disk = .ok (normalized, disk')) :
    normalized.length = gateways.length ∧
      removeConfigFilesMissingFrom letters (gateways.map (resolvedName letters))
        (writeAll disk (writesOf letters fields gateways normalized)) = .ok disk' := by
  unfold writeConfig at h
  obtain ⟨-, -, h⟩ := bind_ok.mp h
  obtain ⟨definitions, hnormal, h⟩ := bind_ok.mp h
  obtain ⟨assigned, hports, h⟩ := bind_ok.mp h
  obtain ⟨written, hwritten, h⟩ := bind_ok.mp h
  obtain ⟨removed, hremoved, h⟩ := bind_ok.mp h
  obtain ⟨rfl, rfl⟩ := Prod.mk.inj (Except.ok.inj h)
  have hnames := configNames_catalog hnormal hports
  have hlength : assigned.length = gateways.length := by
    simpa only [List.length_map] using congrArg List.length hnames
  have hpair : ∀ (i : Nat) (hraw : i < gateways.length) (hi : i < assigned.length),
      newConfigName letters assigned[i] = resolvedName letters gateways[i] := by
    intro i hraw hi
    have hat := congrArg (·[i]?) hnames
    simp only [List.getElem?_map, List.getElem?_eq_getElem hraw, List.getElem?_eq_getElem hi,
      Option.map_some, Option.some.injEq] at hat
    exact newConfigName_of_configName hat (isConfigName_resolved _)
  refine ⟨hlength, ?_⟩
  rw [writeDefinitions_eq] at hwritten
  · obtain rfl := Except.ok.inj hwritten
    have hactive : assigned.map (newConfigName letters) = gateways.map (resolvedName letters) := by
      refine List.ext_getElem (by simpa only [List.length_map] using hlength) fun i h₁ h₂ => ?_
      rw [List.getElem_map, List.getElem_map]
      exact hpair i (by simpa only [List.length_map] using h₂) (by simpa only [List.length_map] using h₁)
    unfold removeOthers at hremoved
    rwa [hactive] at hremoved
  · intro pair hin
    obtain ⟨i, hi, rfl⟩ := List.getElem_of_mem hin
    rw [List.length_zip, Nat.lt_min] at hi
    rw [List.getElem_zip]
    exact hpair i hi.1 hi.2

/-- What an unscoped write leaves on the disk: a file for each resolved name and for no other, with the item of its
own definition. -/
structure StoresCatalog (letters : Letters) (fields : Fields ρ ν ι) (gateways : List (RawDefinition ρ))
    (normalized : List (Definition ν))
    (disk : Disk ι) : Prop where
  names : ∀ name, IsConfigName letters name →
    ((configAt disk name).isSome = true ↔ name ∈ gateways.map (resolvedName letters))
  items : ∀ pair ∈ gateways.zip normalized,
    configAt disk (resolvedName letters pair.1) = some (fields.adapterConfigItem pair.2)

/-- **When an unscoped write stores what it was given.**  No definition may be known by an old name under which an
earlier one of the list is stored: the file is deleted again. -/
theorem writeConfig_stores_iff
    (hok : writeConfig letters platform fields managerPort gateways none disk = .ok (normalized, disk'))
    (hdistinct : (gateways.map (resolvedName letters)).Nodup) :
    StoresCatalog letters fields gateways normalized disk' ↔
      gateways.Pairwise fun earlier later ↦ oldConfigName letters later ≠ resolvedName letters earlier := by
  obtain ⟨hlength, hremoved⟩ := writeConfig_ok hok
  have hfirsts : (gateways.zip normalized).map Prod.fst = gateways := List.map_fst_zip hlength.ge
  have hwrites : (writesOf letters fields gateways normalized).map Write.configName =
      gateways.map (resolvedName letters) := by
    have hnames := congrArg (List.map (resolvedName letters)) hfirsts
    rw [List.map_map] at hnames
    unfold writesOf
    rw [List.map_map, ← hnames]
    simp only [Function.comp_def]
  have hfinal : ∀ raw ∈ gateways, configAt disk' (resolvedName letters raw) =
      configAt (writeAll disk (writesOf letters fields gateways normalized)) (resolvedName letters raw) := by
    intro raw hin
    rw [removeConfigFilesMissingFrom_ok hremoved (isConfigName_resolved raw), if_pos (List.mem_map_of_mem hin)]
  have hitems : (∀ pair ∈ gateways.zip normalized,
      configAt disk' (resolvedName letters pair.1) = some (fields.adapterConfigItem pair.2)) ↔
      gateways.Pairwise fun earlier later ↦ oldConfigName letters later ≠ resolvedName letters earlier := by
    have hiff := configAt_written_iff disk (hwrites.symm ▸ hdistinct)
    unfold writesOf at hiff
    rw [List.pairwise_map, List.forall_mem_map] at hiff
    dsimp only at hiff
    have hpairs := List.pairwise_map (f := Prod.fst) (l := gateways.zip normalized)
      (R := fun earlier later ↦ oldConfigName letters later ≠ resolvedName letters earlier)
    rw [hfirsts] at hpairs
    refine Iff.trans ?_ (hiff.trans hpairs.symm)
    refine forall₂_congr fun pair hpair ↦ ?_
    rw [hfinal pair.1 (List.of_mem_zip hpair).1]
    rfl
  rw [← hitems]
  constructor
  · exact fun h ↦ h.items
  · intro h
    refine ⟨fun name hname ↦ ⟨fun hsome ↦ ?_, fun hin ↦ ?_⟩, h⟩
    · by_contra hidle
      rw [removeConfigFilesMissingFrom_ok hremoved hname, if_neg hidle] at hsome
      cases hsome
    · obtain ⟨raw, hraw, rfl⟩ := List.mem_map.mp hin
      rw [← hfirsts] at hraw
      obtain ⟨pair, hpair, rfl⟩ := List.mem_map.mp hraw
      rw [h pair hpair]
      rfl

/-! ## Routes that are renamed -/

theorem isAlphanum_visible (c : Char) (h : c.isAlphanum = true) :
    ∀ u ∈ codeUnits c, JsString.isWhitespace u = false := by
  have hrange : 48 ≤ c.toNat ∧ c.toNat ≤ 57 ∨ 65 ≤ c.toNat ∧ c.toNat ≤ 90 ∨ 97 ≤ c.toNat ∧ c.toNat ≤ 122 := by
    change ((decide (c.val ≥ 'A'.val ∧ c.val ≤ 'Z'.val) || (c.val ≥ 'a'.val && c.val ≤ 'z'.val)) ||
      (c.val ≥ '0'.val && c.val ≤ '9'.val)) = true at h
    simp only [Bool.or_eq_true, Bool.and_eq_true, decide_eq_true_eq, UInt32.le_iff_toNat_le] at h
    simp at h
    have hval : c.val.toNat = c.toNat := rfl
    omega
  intro u hu
  unfold codeUnits at hu
  rw [if_pos (by omega), List.mem_singleton] at hu
  have hunit : u.toNat = c.toNat := by
    rw [hu]
    exact UInt16.toNat_ofNat_of_lt (by simp only [UInt16.size]; omega)
  simp only [JsString.isWhitespace, Bool.or_eq_false_iff, Bool.and_eq_false_iff, beq_eq_false_iff_ne,
    decide_eq_false_iff_not, ne_eq, UInt16.le_iff_toNat_le, ← UInt16.toNat_inj, hunit]
  simp
  omega

/-- The letters and digits of ASCII. -/
def asciiLetters : Letters := ⟨Char.isAlphanum, fun _ h ↦ h, isAlphanum_visible⟩

/-- Definitions with a number, which is stored. -/
def numberFields : Fields Nat Nat Nat where
  checkRules _ := .ok ()
  normalizeFields definition _ := .ok { id := [], messageAdapters := [], gatewayPort := 8790, rest := definition.rest }
  adapterConfigItem definition := definition.rest

/-- A definition that is known as `id` and gets the config name `configName`. -/
def route (id configName : String) (number : Nat) : RawDefinition Nat where
  id := js id
  configName := some (js configName)
  rest := number

/-- The routes A and B. -/
def twoRoutes : Disk Nat := ⟨[(js "A", some 1), (js "B", some 2)], by decide⟩

/-- A chain of renames, from its end: B becomes C, and A becomes B. -/
theorem writeConfig_stores_iff_chain : ∃ normalized disk',
    writeConfig asciiLetters plainPlatform numberFields 8780 [route "B" "C" 2, route "A" "B" 1] none twoRoutes =
      .ok (normalized, disk') ∧
    StoresCatalog asciiLetters numberFields [route "B" "C" 2, route "A" "B" 1] normalized disk' := by
  have hwritten : (writeConfig asciiLetters plainPlatform numberFields 8780 [route "B" "C" 2, route "A" "B" 1] none
      twoRoutes).isOk = true := by decide +kernel
  cases hok : writeConfig asciiLetters plainPlatform numberFields 8780 [route "B" "C" 2, route "A" "B" 1] none
      twoRoutes with
  | error e =>
    rw [hok] at hwritten
    cases hwritten
  | ok result => exact ⟨result.1, result.2, rfl, (writeConfig_stores_iff hok (by decide)).mpr (by decide)⟩

/-- Two routes that swap their names: the second deletes the file that the first has just written. -/
theorem swap_loses_route : ∃ normalized disk',
    writeConfig asciiLetters plainPlatform numberFields 8780 [route "A" "B" 1, route "B" "A" 2] none twoRoutes =
      .ok (normalized, disk') ∧
    ([route "A" "B" 1, route "B" "A" 2].map (resolvedName asciiLetters)).Nodup ∧
    ¬StoresCatalog asciiLetters numberFields [route "A" "B" 1, route "B" "A" 2] normalized disk' := by
  have hlost : (writeConfig asciiLetters plainPlatform numberFields 8780 [route "A" "B" 1, route "B" "A" 2] none
      twoRoutes).toOption.map (fun result ↦ configAt result.2 (js "B")) = some none := by decide +kernel
  cases hok : writeConfig asciiLetters plainPlatform numberFields 8780 [route "A" "B" 1, route "B" "A" 2] none
      twoRoutes with
  | error e =>
    rw [hok] at hlost
    cases hlost
  | ok result =>
    rw [hok] at hlost
    refine ⟨result.1, result.2, rfl, by decide, fun h ↦ ?_⟩
    have hname : IsConfigName asciiLetters (js "B") := by
      unfold IsConfigName
      decide
    have hstored := (h.names (js "B") hname).mpr (by decide)
    have hgone : configAt result.2 (js "B") = none := Option.some.inj hlost
    rw [hgone] at hstored
    cases hstored

end RabiRoute.ConfigRepository
