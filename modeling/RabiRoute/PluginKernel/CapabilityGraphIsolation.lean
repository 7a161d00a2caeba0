import RabiRoute.PluginKernel.CapabilityGraph

/-!
# Isolation of the capability graph

`isolateGraph` repairs a graph in rounds, until nothing in it is invalid: an invalid update gives way
to the previous candidate of its id, an invalid newcomer is deleted, and where neither is left to do
all invalid members are deleted.  The strict planner then gets what remains, without the optional
orderings that would close a cycle.
-/

namespace RabiRoute.PluginKernel

open Collections Graphs

/-- What the graph reads of a candidate. -/
class GraphCandidate (α : Type) where
  node : α → CapabilityGraphNode

export GraphCandidate (node)

instance : GraphCandidate CapabilityGraphNode := ⟨id⟩

/-- What the graph reads of a plugin manifest; `web` says that it has a web entry. -/
structure PluginManifest extends GraphManifest where
  id : JsString
  version : JsString
  web : Bool
deriving DecidableEq

/-- A plugin candidate.  `object` stands for its identity as an object, which `!==` compares. -/
structure PluginCandidate where
  object : Nat
  instanceId : InstanceId
  revision : JsString
  manifest : PluginManifest
deriving DecidableEq

instance : GraphCandidate PluginCandidate := ⟨fun candidate ↦ ⟨candidate.instanceId, candidate.manifest.toGraphManifest⟩⟩

section

variable {α : Type} [GraphCandidate α]

def idOf (candidate : α) : InstanceId := (node candidate).instanceId

/-- A map of candidates by their own instance ids. -/
structure Candidates (α : Type) [GraphCandidate α] where
  map : InsertionMap InstanceId α
  keyed : ∀ id candidate, map.get? id = some candidate → idOf candidate = id

namespace Candidates

def empty : Candidates α := ⟨.empty, fun _ _ h ↦ by cases h⟩

/-- `set` with the candidate's own id. -/
def put (candidates : Candidates α) (candidate : α) : Candidates α where
  map := candidates.map.set (idOf candidate) candidate
  keyed id c h := by
    rw [InsertionMap.get?_set] at h
    split at h
    case isTrue hid => exact (Option.some.inj h) ▸ hid.symm
    case isFalse => exact candidates.keyed id c h

/-- `delete` -/
def drop (candidates : Candidates α) (id : InstanceId) : Candidates α where
  map := candidates.map.erase id
  keyed id' c h := by
    rw [InsertionMap.get?_erase] at h
    split at h
    case isTrue => cases h
    case isFalse => exact candidates.keyed id' c h

/-- The candidates in a list, by their ids; a later one takes the place of an earlier one. -/
def ofList (list : List α) : Candidates α := list.foldl put empty

end Candidates

structure PluginGraphDiagnostic (α : Type) where
  candidate : α
  error : JsString
  rejected : Bool
deriving DecidableEq

abbrev Errors := InsertionMap InstanceId JsString

end

/-! ## Shared web resources -/

/-- `sharedWebResourceKey`; the JSON text of a pair of strings tells apart what the pair does. -/
def sharedWebResourceKey (candidate : PluginCandidate) : Option (JsString × JsString) :=
  if candidate.manifest.web then some (candidate.manifest.id, candidate.manifest.version) else none

/-- The candidates by the web resource that they share. -/
def webGroups (candidates : List PluginCandidate) : InsertionMap (JsString × JsString) (List PluginCandidate) :=
  .groupBy sharedWebResourceKey id candidates

/-- The revisions of the previous candidates that share a web resource. -/
def confirmedRevisions (previous : Candidates PluginCandidate) (key : JsString × JsString) : List JsString :=
  addAll [] ((previous.map.values.filter fun candidate ↦ decide (sharedWebResourceKey candidate = some key)).map
    PluginCandidate.revision)

def webConflict (candidate : PluginCandidate) : JsString :=
  js "Shared Web resource has conflicting revisions: " ++ candidate.manifest.id ++ js "@" ++
    candidate.manifest.version ++ js "."

def conflictsOfGroup (previous : Candidates PluginCandidate) (invalid : Errors)
    (group : (JsString × JsString) × List PluginCandidate) : Errors :=
  if (addAll [] (group.2.map PluginCandidate.revision)).length ≤ 1 then invalid
  else
    let confirmed := confirmedRevisions previous group.1
    group.2.foldl (fun invalid candidate ↦
      if confirmed.length = 1 ∧ candidate.revision ∈ confirmed then invalid
      else invalid.set candidate.instanceId (webConflict candidate)) invalid

def conflictingWebResources (candidates previous : Candidates PluginCandidate) : Errors :=
  (webGroups candidates.map.values).entries.foldl (conflictsOfGroup previous) .empty

/-! ## Providers and required cycles -/

def suppliersOf (candidates : List CapabilityGraphNode) : InsertionMap Capability (List InstanceId) :=
  .groupBy (fun p ↦ some p.1) Prod.snd (provisions candidates)

/-- `supplied.get(capability)?.[0]` -/
def firstSupplier (supplied : InsertionMap Capability (List InstanceId)) (capability : Capability) :
    Option InstanceId :=
  (supplied.get? capability).bind List.head?

/-- Some capability that the candidate requires is neither the host's nor available. -/
def lacks (hostCapabilities : List Capability) (supplied : InsertionMap Capability (List InstanceId))
    (unavailable : InstanceId → Bool) (candidate : CapabilityGraphNode) : Option Unit :=
  if candidate.manifest.requires.any fun capability ↦
      !decide (capability ∈ hostCapabilities) &&
        match firstSupplier supplied capability with
        | none => true
        | some provider => unavailable provider
  then some () else none

/-- The other providers of what the candidate requires, in its order. -/
def requiredProviders (supplied : InsertionMap Capability (List InstanceId))
    (candidate : CapabilityGraphNode) : List InstanceId :=
  (candidate.manifest.requires.filterMap (firstSupplier supplied)).filter
    fun provider ↦ decide (provider ≠ candidate.instanceId)

section

variable {α : Type} [GraphCandidate α]

def requiredCycles (candidates : Candidates α) (supplied : InsertionMap Capability (List InstanceId))
    (hostCapabilities : List Capability) : List InstanceId :=
  let nodes := candidates.map.values.map node
  let unavailable := saturate nodes CapabilityGraphNode.instanceId (lacks hostCapabilities supplied)
  findCycles candidates.map.keys
    (fun id ↦ match candidates.map.get? id with
      | none => []
      | some candidate => requiredProviders supplied (node candidate))
    unavailable.has

/-! ## The rounds -/

/-- `confirmedProviders`: who provided a capability before. -/
def confirmedProviders (previous : Candidates α) : InsertionMap Capability InstanceId :=
  (provisions (previous.map.values.map node)).foldl (fun result p ↦ result.set p.1 p.2) .empty

def hostConflict (capability : Capability) : JsString :=
  js "Plugin capability conflicts with host capability: " ++ capability ++ js "."

def multipleProviders (capability : Capability) (ids : List InstanceId) : JsString :=
  js "Capability has multiple providers: " ++ capability ++ js " (" ++ joined (ids.map InstanceId.text) ++ js ")."

def requiredCycle (id : InstanceId) : JsString :=
  js "Plugin required capability dependency cycle: " ++ id.text ++ js "."

/-- One capability and its providers. -/
def conflictsOfCapability (hostCapabilities : List Capability) (confirmed : InsertionMap Capability InstanceId)
    (invalid : Errors) (entry : Capability × List InstanceId) : Errors :=
  if entry.1 ∈ hostCapabilities then
    entry.2.foldl (fun invalid id ↦ invalid.set id (hostConflict entry.1)) invalid
  else if 1 < entry.2.length then
    entry.2.foldl (fun invalid id ↦
      if some id = confirmed.get? entry.1 then invalid
      else invalid.set id (multipleProviders entry.1 entry.2)) invalid
  else invalid

abbrev ResourceConflicts (α : Type) [GraphCandidate α] := Candidates α → Candidates α → Errors

/-- What a round finds invalid. -/
def invalidMembers (resourceConflicts : ResourceConflicts α) (hostCapabilities : List Capability)
    (previous effective : Candidates α) : Errors :=
  let supplied := suppliersOf (effective.map.values.map node)
  let invalid := supplied.entries.foldl
    (conflictsOfCapability hostCapabilities (confirmedProviders previous)) (resourceConflicts effective previous)
  if invalid.entries.isEmpty then
    (requiredCycles effective supplied hostCapabilities).foldl
      (fun invalid id ↦ invalid.set id (requiredCycle id)) invalid
  else invalid

structure IsolationState (α : Type) [GraphCandidate α] where
  effective : Candidates α
  diagnostics : InsertionMap InstanceId (PluginGraphDiagnostic α) := .empty

/-- `if (!diagnostics.has(id)) diagnostics.set(id, …)` -/
def noteFirst (diagnostics : InsertionMap InstanceId (PluginGraphDiagnostic α)) (id : InstanceId)
    (diagnostic : PluginGraphDiagnostic α) : InsertionMap InstanceId (PluginGraphDiagnostic α) :=
  if diagnostics.has id then diagnostics else diagnostics.set id diagnostic

variable [DecidableEq α]

/-- One invalid member; the flag says that the graph changed.  Each invalid id is a key of the graph. -/
def repairMember (previous : Candidates α) (s : IsolationState α × Bool) (entry : InstanceId × JsString) :
    IsolationState α × Bool :=
  match s.1.effective.map.get? entry.1 with
  | none => s
  | some candidate =>
    let diagnostics := noteFirst s.1.diagnostics entry.1 { candidate, error := entry.2, rejected := true }
    match previous.map.get? entry.1 with
    | none => ({ effective := s.1.effective.drop entry.1, diagnostics }, true)
    | some retained =>
      if candidate ≠ retained then ({ effective := s.1.effective.put retained, diagnostics }, true)
      else ({ effective := s.1.effective, diagnostics }, s.2)

/-- One round of the loop; `none` is its end. -/
def isolationRound (resourceConflicts : ResourceConflicts α) (hostCapabilities : List Capability)
    (previous : Candidates α) (s : IsolationState α) : Option (IsolationState α) :=
  let invalid := invalidMembers resourceConflicts hostCapabilities previous s.effective
  if invalid.entries.isEmpty then none
  else
    let repaired := invalid.entries.foldl (repairMember previous) (s, false)
    if repaired.2 then some repaired.1
    -- evaluate the restored graph before removing any previously confirmed participant
    else some { repaired.1 with effective := invalid.keys.foldl Candidates.drop repaired.1.effective }

/-! ## Optional orderings -/

abbrev Edges := InsertionMap InstanceId (List InstanceId)

def requiredEdges (supplied : InsertionMap Capability (List InstanceId)) (valid : List α) : Edges :=
  valid.foldl (fun edges candidate ↦
    edges.set (idOf candidate) (addAll [] (requiredProviders supplied (node candidate)))) .empty

def skippedOrdering (capability : Capability) : JsString :=
  js "Optional capability ordering skipped to avoid a dependency cycle: " ++ capability ++ js "."

structure PlanningState (α : Type) where
  edges : Edges
  diagnostics : InsertionMap InstanceId (PluginGraphDiagnostic α)
  optional : List Capability := []

/-- One optional capability of a candidate: kept, unless its provider comes after the candidate. -/
def orderOptional (supplied : InsertionMap Capability (List InstanceId)) (candidate : α)
    (s : PlanningState α) (capability : Capability) : PlanningState α :=
  let kept := s.optional ++ [capability]
  match firstSupplier supplied capability with
  | none => { s with optional := kept }
  | some provider =>
    let targets := (s.edges.get? (idOf candidate)).getD []
    if provider = idOf candidate ∨ provider ∈ targets then { s with optional := kept }
    else if reaches s.edges provider (idOf candidate) then
      let skipped := { candidate, error := skippedOrdering capability, rejected := false }
      { s with diagnostics := noteFirst s.diagnostics (idOf candidate) skipped }
    else { s with edges := s.edges.set (idOf candidate) (targets ++ [provider]), optional := kept }

/-- The candidate as the planner gets it. -/
def withOptional (candidate : α) (optional : List Capability) : CapabilityGraphNode :=
  { node candidate with manifest := { (node candidate).manifest with optional } }

def orderCandidate (supplied : InsertionMap Capability (List InstanceId))
    (s : PlanningState α × List CapabilityGraphNode) (candidate : α) :
    PlanningState α × List CapabilityGraphNode :=
  let ordered := (node candidate).manifest.optional.foldl (orderOptional supplied candidate)
    { s.1 with optional := [] }
  (ordered, s.2 ++ [withOptional candidate ordered.optional])

structure Isolation (α : Type) where
  candidates : List α
  diagnostics : InsertionMap InstanceId (PluginGraphDiagnostic α)
  plan : CapabilityGraphPlan

/-- What follows the rounds. -/
def planIsolated (hostCapabilities : List Capability) (s : IsolationState α) : Except JsString (Isolation α) := do
  let valid := s.effective.map.values
  let supplied := suppliersOf (valid.map node)
  let start : PlanningState α := { edges := requiredEdges supplied valid, diagnostics := s.diagnostics }
  let planned := valid.foldl (orderCandidate supplied) (start, [])
  let plan ← planCapabilityGraph planned.2 hostCapabilities
  return { candidates := valid, diagnostics := planned.1.diagnostics, plan }

/-- The map of the candidates, in their order. -/
def effectiveOf (candidates : List α) : Except JsString (Candidates α) :=
  candidates.foldlM (fun effective candidate ↦
    if effective.map.has (idOf candidate) then
      .error (js "Plugin instanceId is empty or duplicated: " ++ (idOf candidate).text ++ js ".")
    else .ok (effective.put candidate)) .empty

/-- `isolateGraph`, when its loop may go through so many rounds; `none` means that they were too few. -/
def isolateGraph (resourceConflicts : ResourceConflicts α) (rounds : Nat) (candidates : List α)
    (hostCapabilities : List Capability) (previous : Candidates α) : Option (Except JsString (Isolation α)) :=
  match effectiveOf candidates with
  | .error e => some (.error e)
  | .ok effective =>
    (loopWithin (isolationRound resourceConflicts hostCapabilities previous) rounds { effective }).map
      (planIsolated hostCapabilities)

end

def isolateCapabilityGraph (rounds : Nat) (candidates : List PluginCandidate) (hostCapabilities : List Capability)
    (previous : Candidates PluginCandidate) : Option (Except JsString (Isolation PluginCandidate)) :=
  isolateGraph conflictingWebResources rounds candidates hostCapabilities previous

def isolateCapabilityMetadata (rounds : Nat) (nodes : List CapabilityGraphNode)
    (hostCapabilities : List Capability) : Option (Except JsString (Isolation CapabilityGraphNode)) :=
  isolateGraph (fun _ _ ↦ .empty) rounds nodes hostCapabilities .empty

end RabiRoute.PluginKernel
