import OpenHost.Checks
import OpenHost.Identity
import OpenHost.Resource

/-!
# Logical nodes and leases

A logical node is a composite resource with a runtime bound to it. A lease
reserves one participant's part of a node between two instants. The checks
of a lease run in the order of the program; `Lease.Valid` says what they
amount to together.
-/

namespace OpenHost

/-- Name and version of a runtime. -/
structure RuntimeSpec where
  /-- Runtime name. -/
  name : String
  /-- Runtime version. -/
  version : String
  deriving DecidableEq

/-- Errors of binding a runtime. -/
inductive NodeError where
  | emptyRuntimeName
  | emptyRuntimeVersion
  deriving DecidableEq

namespace RuntimeSpec

/-- The unbound runtime. -/
def default : RuntimeSpec := ⟨"",""⟩

/-- Both texts are present. -/
def validate (runtime : RuntimeSpec) : Except NodeError Unit :=
  if runtime.name="" then .error .emptyRuntimeName
  else if runtime.version="" then .error .emptyRuntimeVersion
  else .ok ()

/-- A runtime passes exactly when both texts are present. -/
theorem validate_eq_ok {runtime : RuntimeSpec} :
    runtime.validate=.ok () ↔ runtime.name≠"" ∧ runtime.version≠"" := by
  rw [validate]
  by_cases hn : runtime.name=""
  · simp [hn]
  · by_cases hv : runtime.version=""
    · simp [hn,hv]
    · simp [hn,hv]

end RuntimeSpec

/-- A logical node: a named composite resource and its runtime. -/
structure LogicalNode (F : Type) where
  /-- Text of the node's identity. -/
  id : String
  /-- Capacity and distribution. -/
  resources : CompositeResource F
  /-- Runtime bound to the node. -/
  runtime : RuntimeSpec
  deriving DecidableEq

/-- Bind a runtime to a node. -/
def LogicalNode.withRuntime {F : Type} (node : LogicalNode F) (runtime : RuntimeSpec) :
    Except NodeError (LogicalNode F) := do
  runtime.validate
  .ok {node with runtime := runtime}

/-- Binding succeeds exactly for a complete runtime and changes nothing else. -/
theorem LogicalNode.withRuntime_eq_ok {F : Type} {node bound : LogicalNode F}
    {runtime : RuntimeSpec} : node.withRuntime runtime=.ok bound ↔
      runtime.validate=.ok () ∧ bound={node with runtime := runtime} := by
  rw [withRuntime]
  cases hv : runtime.validate with
  | error e => simp [bind,Except.bind]
  | ok u => simp [bind,Except.bind,eq_comm]

/-- Reservation of one participant's part of a node. -/
structure Lease (F : Type) where
  /-- Identity of the lease. -/
  id : Identity
  /-- Node that the lease belongs to. -/
  logicalNodeId : Identity
  /-- Participant that is reserved. -/
  participantId : Identity
  /-- Reserved resources. -/
  resources : ResourceFragment F
  /-- First instant of the reservation. -/
  createdAt : SystemTime
  /-- First instant behind the reservation. -/
  expiresAt : SystemTime
  deriving DecidableEq

/-- Errors of the lease checks. -/
inductive LeaseError where
  | invalidLease
  | invalidExpiry
  | invalidLifetime
  | invalidParticipant
  | invalidNode
  deriving DecidableEq

namespace Lease

variable {F : Type}

section Checks

variable [UuidCrate] [Cores F]

/-- The checks of a lease, in the order of the program. -/
def validate (lease : Lease F) : Except LeaseError Unit := do
  rejectIf (lease.id.kind≠.lease ∨ lease.id.validate.isOk=false) .invalidLease
  rejectIf (lease.logicalNodeId.kind≠.logicalNode ∨ lease.logicalNodeId.validate.isOk=false)
    .invalidNode
  rejectIf (lease.participantId.kind≠.participant ∨ lease.participantId.validate.isOk=false)
    .invalidParticipant
  lease.resources.validateRequirement.mapError fun _ => .invalidLease
  rejectIf (lease.createdAt=.unixEpoch ∨ lease.expiresAt ≤ lease.createdAt) .invalidExpiry
  match lease.expiresAt.durationSince lease.createdAt with
  | none => .error .invalidExpiry
  | some duration =>
    rejectIf (lease.resources.lifetime.any (fun l => decide (l<duration))=true) .invalidLifetime

/-- Build a lease from its parts and check it. -/
def new (id logicalNodeId participantId : Identity) (resources : ResourceFragment F)
    (createdAt expiresAt : SystemTime) : Except LeaseError (Lease F) := do
  let lease : Lease F := ⟨id,logicalNodeId,participantId,resources,createdAt,expiresAt⟩
  lease.validate
  .ok lease

/-- What the checks of a lease amount to. -/
structure Valid (lease : Lease F) : Prop where
  /-- The lease is named by a lease identity. -/
  id : lease.id.kind=.lease ∧ IsCanonical lease.id.id
  /-- The node is named by a node identity. -/
  node : lease.logicalNodeId.kind=.logicalNode ∧ IsCanonical lease.logicalNodeId.id
  /-- The participant is named by a participant identity. -/
  participant : lease.participantId.kind=.participant ∧ IsCanonical lease.participantId.id
  /-- The reserved resources are valid and not empty. -/
  resources : lease.resources.validateRequirement=.ok ()
  /-- The reservation does not start at the epoch. -/
  started : lease.createdAt≠.unixEpoch
  /-- The reservation lasts. -/
  lasting : lease.createdAt<lease.expiresAt
  /-- The resources live as long as the reservation. -/
  lifetime : ∀ l duration,lease.resources.lifetime=some l →
    lease.expiresAt.durationSince lease.createdAt=some duration → duration ≤ l

/-- The test of an identity's kind and text that the program writes out. -/
theorem identity_check {identity : Identity} {kind : Kind} :
    ¬(identity.kind≠kind ∨ identity.validate.isOk=false) ↔
      identity.kind=kind ∧ IsCanonical identity.id := by
  rw [← Identity.validate_isOk,not_or,not_not,Bool.not_eq_false]

/-- The checks pass exactly on valid leases. -/
theorem validate_eq_ok {lease : Lease F} : lease.validate=.ok () ↔ lease.Valid := by
  have hlast : (lease.createdAt<lease.expiresAt → ∃ duration,
      lease.expiresAt.durationSince lease.createdAt=some duration) := fun h =>
    ⟨_,if_pos h.le⟩
  simp only [validate,Checks.check_bind_eq_ok,Checks.rejectIf_eq_ok,Checks.mapError_eq_ok,
    identity_check]
  simp only [not_or,not_le]
  constructor
  · rintro ⟨hi,hn,hp,hr,⟨hs,hl⟩,hd⟩
    obtain ⟨duration,he⟩ := hlast hl
    rw [he] at hd
    refine ⟨hi,hn,hp,hr,hs,hl,?_⟩
    intro l d hlife hd'
    rw [he,Option.some.injEq] at hd'
    subst hd'
    simpa [hlife] using hd
  · intro h
    refine ⟨h.id,h.node,h.participant,h.resources,⟨h.started,h.lasting⟩,?_⟩
    obtain ⟨duration,he⟩ := hlast h.lasting
    rw [he]
    simp only [Checks.rejectIf_eq_ok,Option.any_eq_true,decide_eq_true_eq,not_exists,not_and,
      not_lt]
    exact fun l hl => h.lifetime l duration hl he

end Checks

/-- The reservation covers the instant. -/
def activeAt (lease : Lease F) (now : SystemTime) : Bool :=
  decide (lease.createdAt ≤ now) && decide (now<lease.expiresAt)

/-- Time left, zero behind the reservation. -/
def remainingAt (lease : Lease F) (now : SystemTime) : Duration :=
  (lease.expiresAt.durationSince now).getD ⟨0,by decide⟩

end Lease

end OpenHost
