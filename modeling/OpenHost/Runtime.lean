import OpenHost.Endpoint
import OpenHost.Registration

/-!
# Runtimes and their table

A participant runs workloads through runtimes, which are arbitrary code. A
table files each runtime under the name and the version that it was
registered for. Two executors of an endpoint run workloads so: one has a
single runtime, the other looks the requested one up in its table.
-/

namespace OpenHost

/-- What a runtime is told about where it runs. -/
structure RuntimeContext where
  /-- Participant that runs the workload. -/
  participantId : Identity
  /-- Node that the workload belongs to. -/
  nodeId : Identity
  /-- Resources of the participant's part. -/
  resources : ResourceFragment F64
  deriving DecidableEq

/-- Make a context for a participant, a node and a part with resources. -/
def RuntimeContext.new (participantId nodeId : Identity) (resources : ResourceFragment F64) :
    Except RuntimeError RuntimeContext := do
  rejectIf (participantId.kind≠.participant) .invalidParticipantIdentity
  rejectIf (nodeId.kind≠.logicalNode) .invalidNodeIdentity
  resources.validateRequirement.mapError fun _ => .invalidResources
  .ok ⟨participantId,nodeId,resources⟩

/-- A workload has a name. -/
def WorkItem.validate (workload : WorkItem) : Except RuntimeError Unit :=
  rejectIf (workload.id="") .emptyWorkloadId

/-- A runtime: its name, and what it makes of a workload. -/
structure Runtime where
  /-- Name that the runtime gives itself. -/
  name : String
  /-- Any routine that runs a workload in a context. -/
  run : RuntimeContext → WorkItem → Outcome RuntimeError Unit

/-- Names with versions, ordered by name and then by version. -/
instance ordNameVersion : Ord (String×String) := lexOrd

/-- The checks of the table on the name and the version asked for. -/
def validateSpec (spec : RuntimeSpec) : Except RuntimeRegistryError Unit := do
  rejectIf (spec.name="") .emptyName
  rejectIf (spec.version="") .emptyVersion

/-- Runtimes by name and version. -/
structure RuntimeRegistry where
  /-- The table. -/
  runtimes : Std.ExtTreeMap (String×String) Runtime
  /-- Nothing is filed without a name and a version. -/
  named : ∀ key ∈ runtimes,validateSpec ⟨key.1,key.2⟩=.ok ()

namespace RuntimeRegistry

/-- A table without runtimes. -/
def empty : RuntimeRegistry := ⟨∅,fun _ hm => (Std.ExtTreeMap.not_mem_empty hm).elim⟩

/-- File a runtime, unless one is filed for the same name and version. -/
def register (registry : RuntimeRegistry) (spec : RuntimeSpec) (runtime : Runtime) :
    Except RuntimeRegistryError RuntimeRegistry :=
  match h : validateSpec spec with
  | .error e => .error e
  | .ok () =>
    if (spec.name,spec.version) ∈ registry.runtimes then .error .duplicateRuntime
    else .ok ⟨registry.runtimes.insert (spec.name,spec.version) runtime,by
      intro key hm
      rcases Std.ExtTreeMap.mem_insert.mp hm with he|hm
      · rw [← Std.compare_eq_iff_eq.mp he]
        exact h
      · exact registry.named key hm⟩

/-- The runtime that is filed for a name and a version. -/
def resolve (registry : RuntimeRegistry) (spec : RuntimeSpec) :
    Except RuntimeRegistryError Runtime := do
  validateSpec spec
  okOr registry.runtimes[(spec.name,spec.version)]? .runtimeNotFound

/-- Whether a runtime is filed for a name and a version. -/
def contains (registry : RuntimeRegistry) (spec : RuntimeSpec) :
    Except RuntimeRegistryError Bool := do
  validateSpec spec
  .ok (registry.runtimes.contains (spec.name,spec.version))

/-- How many runtimes are filed. -/
def len (registry : RuntimeRegistry) : ℕ := registry.runtimes.size

/-- Whether no runtime is filed. -/
def isEmpty (registry : RuntimeRegistry) : Bool := registry.runtimes.isEmpty

end RuntimeRegistry

/-- The executor with one runtime, whatever runtime is asked for. -/
def runtimeAdapter (runtime : Runtime) : ParticipantExecutor :=
  fun participantId nodeId _ resources workload => do
    let context ← (RuntimeContext.new participantId nodeId resources).mapError
      EndpointExecutionError.runtime
    workload.validate.mapError EndpointExecutionError.runtime
    (runtime.run context workload).mapErr .runtime

/-- The executor that looks the runtime up in its table. -/
def registryRuntimeAdapter (registry : RuntimeRegistry) : ParticipantExecutor :=
  fun participantId nodeId runtime resources workload => do
    let runtime ← (registry.resolve runtime).mapError EndpointExecutionError.runtimeRegistry
    let context ← (RuntimeContext.new participantId nodeId resources).mapError
      EndpointExecutionError.runtime
    workload.validate.mapError EndpointExecutionError.runtime
    (runtime.run context workload).mapErr .runtime

/-- A context is made exactly of a participant, a node and a part that passes
as a requirement. -/
theorem RuntimeContext.new_eq_ok {participantId nodeId : Identity}
    {resources : ResourceFragment F64} {context : RuntimeContext} :
    RuntimeContext.new participantId nodeId resources=.ok context ↔
      (participantId.kind=.participant ∧ nodeId.kind=.logicalNode ∧
        resources.validateRequirement=.ok ()) ∧ context=⟨participantId,nodeId,resources⟩ := by
  simp only [RuntimeContext.new,Checks.check_bind_eq_ok,Checks.rejectIf_eq_ok,Checks.mapError_eq_ok,
    not_not,Except.ok.injEq]
  constructor
  · rintro ⟨hp,hn,hr,rfl⟩
    exact ⟨⟨hp,hn,hr⟩,rfl⟩
  · rintro ⟨⟨hp,hn,hr⟩,rfl⟩
    exact ⟨hp,hn,hr,rfl⟩

/-- For a participant's part of a node and a named workload, the executor with
one runtime does what the runtime does. -/
theorem runtimeAdapter_of_valid {participantId nodeId : Identity} {spec : RuntimeSpec}
    {resources : ResourceFragment F64} {workload : WorkItem}
    (hp : participantId.kind=.participant) (hn : nodeId.kind=.logicalNode)
    (hr : resources.validateRequirement=.ok ()) (hw : workload.id≠"") (runtime : Runtime) :
    runtimeAdapter runtime participantId nodeId spec resources workload=
      (runtime.run ⟨participantId,nodeId,resources⟩ workload).mapErr .runtime := by
  have hc := RuntimeContext.new_eq_ok.mpr ⟨⟨hp,hn,hr⟩,rfl⟩
  have hv : workload.validate=.ok () := Checks.rejectIf_eq_ok.mpr hw
  rw [runtimeAdapter,hc,hv]
  rfl

/-- For a participant's part of a node and a named workload, the executor with
a table does what the runtime does that is filed, if one is. -/
theorem registryRuntimeAdapter_of_valid {participantId nodeId : Identity} {spec : RuntimeSpec}
    {resources : ResourceFragment F64} {workload : WorkItem}
    (hp : participantId.kind=.participant) (hn : nodeId.kind=.logicalNode)
    (hr : resources.validateRequirement=.ok ()) (hw : workload.id≠"")
    (registry : RuntimeRegistry) :
    registryRuntimeAdapter registry participantId nodeId spec resources workload=
      match registry.resolve spec with
      | .error e => .err (.runtimeRegistry e)
      | .ok runtime => (runtime.run ⟨participantId,nodeId,resources⟩ workload).mapErr .runtime := by
  have hc := RuntimeContext.new_eq_ok.mpr ⟨⟨hp,hn,hr⟩,rfl⟩
  have hv : workload.validate=.ok () := Checks.rejectIf_eq_ok.mpr hw
  rw [registryRuntimeAdapter]
  cases registry.resolve spec with
  | error e => rfl
  | ok runtime =>
    rw [hc,hv]
    rfl

namespace RuntimeRegistry

/-- A registration is refused for its name or version, or because one is filed. -/
theorem register_cases (registry : RuntimeRegistry) (spec : RuntimeSpec) (runtime : Runtime) :
    (∃ e,validateSpec spec=.error e ∧ registry.register spec runtime=.error e) ∨
      validateSpec spec=.ok () ∧
        ((spec.name,spec.version) ∈ registry.runtimes ∧
            registry.register spec runtime=.error .duplicateRuntime ∨
          (spec.name,spec.version)∉registry.runtimes ∧
            ∃ registered,registry.register spec runtime=.ok registered ∧
              registered.runtimes=registry.runtimes.insert (spec.name,spec.version) runtime) := by
  rw [register]
  split
  · next e he => exact .inl ⟨e,he,rfl⟩
  · next he =>
    refine .inr ⟨he,?_⟩
    split
    · next hm => exact .inl ⟨hm,rfl⟩
    · next hm => exact .inr ⟨hm,_,rfl,rfl⟩

/-- The table behind a registration: a refused one leaves it alone. -/
def registering (registry : RuntimeRegistry) (call : RuntimeSpec×Runtime) : RuntimeRegistry :=
  match registry.register call.1 call.2 with
  | .ok registered => registered
  | .error _ => registry

/-- The table behind registrations, one after the other. -/
def registeringAll (registry : RuntimeRegistry) (calls : List (RuntimeSpec×Runtime)) :
    RuntimeRegistry := calls.foldl registering registry

/-- Registrations with a name and a version, under their keys. -/
def claimsOf (calls : List (RuntimeSpec×Runtime)) : List ((String×String)×Runtime) :=
  (calls.filter fun call => validateSpec call.1=.ok ()).map fun call =>
    ((call.1.name,call.1.version),call.2)

/-- A registration claims its key, if it has a name and a version. -/
theorem registering_runtimes (registry : RuntimeRegistry) (call : RuntimeSpec×Runtime) :
    (registry.registering call).runtimes=
      Registration.run registry.runtimes ((claimsOf [call]).map fun c => .claim c.1 c.2) := by
  rcases registry.register_cases call.1 call.2 with ⟨e,hv,hr⟩|⟨hv,⟨hm,hr⟩|⟨hm,registered,hr,ht⟩⟩
  · rw [registering,hr,claimsOf,List.filter_singleton,hv]
    rfl
  · rw [registering,hr,claimsOf,List.filter_singleton,hv]
    exact (if_pos hm).symm
  · rw [registering,hr,claimsOf,List.filter_singleton,hv]
    exact ht.trans (if_neg hm).symm

/-- Registrations claim their keys one after the other. -/
theorem registeringAll_runtimes (registry : RuntimeRegistry)
    (calls : List (RuntimeSpec×Runtime)) :
    (registry.registeringAll calls).runtimes=
      Registration.run registry.runtimes ((claimsOf calls).map fun c => .claim c.1 c.2) := by
  induction calls generalizing registry with
  | nil => rfl
  | cons call rest ih =>
    have hsplit : claimsOf (call::rest)=claimsOf [call]++claimsOf rest := by
      rw [claimsOf,claimsOf,claimsOf,← List.map_append,← List.filter_append]
      rfl
    rw [hsplit,List.map_append,Registration.run_append,← registering_runtimes,← ih]
    rfl

end RuntimeRegistry

end OpenHost
