import RabiRoute.Graphs.Order
import RabiRoute.Graphs.Saturation
import RabiRoute.Graphs.Search
import RabiRoute.Shared.JsString

/-!
# The strict planner of the capability graph

`planCapabilityGraph` refuses what it cannot order: a second instance of one id, a capability with
two providers or of the host, and a cycle of the instances that do not wait.
-/

namespace RabiRoute.PluginKernel

open Collections Graphs

abbrev Capability := JsString

/-- An instance id as the plugin profile reads it: trimmed, and not empty. -/
structure InstanceId where
  text : JsString
  nonempty : text ≠ []
  trimmed : text.trim = text
deriving DecidableEq

/-- What the graph reads of a manifest. -/
structure GraphManifest where
  provides : List Capability
  requires : List Capability
  optional : List Capability
deriving DecidableEq

structure CapabilityGraphNode where
  instanceId : InstanceId
  manifest : GraphManifest
deriving DecidableEq

structure CapabilityGraphPlan where
  activationOrder : List InstanceId
  waiting : InsertionMap InstanceId (List Capability)
  providers : InsertionMap Capability InstanceId
  dependents : InsertionMap InstanceId (List InstanceId)

/-- `join(", ")` -/
def joined (texts : List JsString) : JsString := List.intercalate (js ", ") texts

/-- `sort()` on instance ids, which compares code units. -/
def byText : Sorting InstanceId where
  sort ids := ids.mergeSort fun a b ↦ decide (a.text ≤ b.text)
  perm ids := List.mergeSort_perm ids _

def uniqueCandidates (candidates : List CapabilityGraphNode) :
    Except JsString (InsertionMap InstanceId CapabilityGraphNode) :=
  candidates.foldlM (fun result candidate ↦
    if result.has candidate.instanceId then
      .error (js "Duplicate plugin instanceId: " ++ candidate.instanceId.text ++ js ".")
    else .ok (result.set candidate.instanceId candidate)) .empty

/-- The pairs that the loops over the candidates and over what each of them provides go through. -/
def provisions (candidates : List CapabilityGraphNode) : List (Capability × InstanceId) :=
  candidates.flatMap fun candidate ↦
    candidate.manifest.provides.map fun capability ↦ (capability, candidate.instanceId)

section

variable (hostCapabilities : List Capability) (providers : InsertionMap Capability InstanceId)

def addProvider (p : Capability × InstanceId) : Except JsString (InsertionMap Capability InstanceId) :=
  if p.1 ∈ hostCapabilities then
    .error (js "Plugin capability conflicts with host capability: " ++ p.1 ++ js ".")
  else match providers.get? p.1 with
    | some existing => .error (js "Capability has multiple providers: " ++ p.1 ++ js " (" ++
        existing.text ++ js ", " ++ p.2.text ++ js ").")
    | none => .ok (providers.set p.1 p.2)

/-- What a candidate lacks as long as the marked instances wait. -/
def missing (waits : InstanceId → Bool) (candidate : CapabilityGraphNode) : Option (List Capability) :=
  let missing := candidate.manifest.requires.filter fun capability ↦
    if capability ∈ hostCapabilities then false
    else match providers.get? capability with
      | none => true
      | some provider => waits provider
  if missing.isEmpty then none else some missing

/-- `dependencyProviders`: the other running instances that a candidate comes after. -/
def dependencyProviders (waits : InstanceId → Bool) (candidate : CapabilityGraphNode) : List InstanceId :=
  addAll [] ((candidate.manifest.requires ++ candidate.manifest.optional).filterMap fun capability ↦
    (providers.get? capability).filter fun provider ↦
      !(decide (provider = candidate.instanceId) || waits provider))

end

abbrev Counts := InsertionMap InstanceId Int × InsertionMap InstanceId (List InstanceId)

/-- One dependency: the degree of the instance goes up, and its provider gets it as a dependent. -/
def countDependency (instanceId : InstanceId) (s : Counts) (provider : InstanceId) : Counts :=
  let values := (s.2.get? provider).getD []
  (s.1.set instanceId ((s.1.get? instanceId).getD 0 + 1),
    s.2.set provider (if instanceId ∈ values then values else values ++ [instanceId]))

def countCandidate (needs : CapabilityGraphNode → List InstanceId) (s : Counts)
    (candidate : CapabilityGraphNode) : Counts :=
  (needs candidate).foldl (countDependency candidate.instanceId) s

def planCapabilityGraph (candidates : List CapabilityGraphNode) (hostCapabilities : List Capability) :
    Except JsString CapabilityGraphPlan := do
  let byId ← uniqueCandidates candidates
  let providers ← (provisions byId.values).foldlM (addProvider hostCapabilities) .empty
  let waiting := saturate byId.values CapabilityGraphNode.instanceId (missing hostCapabilities providers)
  let running := byId.values.filter fun candidate ↦ !waiting.has candidate.instanceId
  let zero := running.foldl (fun indegree candidate ↦ indegree.set candidate.instanceId 0) .empty
  let counts := running.foldl (countCandidate (dependencyProviders providers waiting.has)) (zero, .empty)
  let activationOrder := takeAll byText counts.2 counts.1
  if activationOrder.length ≠ counts.1.entries.length then
    .error (js "Plugin capability dependency cycle: " ++
      joined ((byText.sort (counts.1.keys.filter (· ∉ activationOrder))).map InstanceId.text) ++ js ".")
  else .ok { activationOrder, waiting, providers, dependents := counts.2.mapValues byText.sort }

end RabiRoute.PluginKernel
