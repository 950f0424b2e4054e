import OpenHost.Lease
import OpenHost.OrderedMap

/-!
# Participants and their registry

A participant can only be made through its checks, so the checks are fields
of the record. The registry files each participant under the text of its
own identity, and offers the resources of those that are active, in the
order of these texts.
-/

namespace OpenHost

/-- What a participant says it can do. -/
structure Capability (F : Type) where
  /-- CPU cores. -/
  cpuCores : F
  /-- GPU units. -/
  gpuUnits : UInt32
  /-- Memory in bytes. -/
  memory : UInt64
  /-- Storage in bytes. -/
  storage : UInt64
  /-- Network in bits per second. -/
  network : UInt64
  /-- Fraction of time for which the participant is available. -/
  availability : F
  /-- Time for which the participant stays; none is unbounded. -/
  lifetime : Option Duration
  deriving DecidableEq

/-- Errors of the capability checks. -/
inductive CapabilityError where
  | invalidCpu
  | invalidAvailability
  | empty
  | zeroLifetime
  deriving DecidableEq

namespace Capability

variable {F : Type} [Cores F]

/-- The checks of a capability, in the order of the program. -/
def validate (c : Capability F) : Except CapabilityError Unit := do
  rejectIf (Cores.isFinite c.cpuCores=false ∨ Cores.lt c.cpuCores Cores.zero=true) .invalidCpu
  rejectIf (¬(Cores.le Cores.zero c.availability=true ∧ Cores.le c.availability Cores.one=true))
    .invalidAvailability
  rejectIf (c.lifetime.any Duration.isZero=true) .zeroLifetime
  rejectIf (Cores.beq c.cpuCores Cores.zero=true ∧ c.gpuUnits=0 ∧ c.memory=0 ∧ c.storage=0 ∧
    c.network=0) .empty

/-- The participant stays long enough for the request. -/
def availableFor (c : Capability F) (requested : Option Duration) : Bool :=
  lifetimeCovers c.lifetime requested

end Capability

/-- Stages of a participant's membership. -/
inductive Participant.State where
  | joining
  | active
  | draining
  | left
  deriving DecidableEq

/-- Errors of the participant operations. -/
inductive ParticipantError where
  | invalid
  | invalidTransition
  | notActive
  deriving DecidableEq

/-- A participant that has passed the checks of its constructor. -/
structure Participant (F : Type) [Cores F] where
  /-- Identity of the participant. -/
  id : Identity
  /-- Advertised capability. -/
  capability : Capability F
  /-- Resources that the participant contributes. -/
  resources : ResourceFragment F
  /-- Current stage. -/
  state : Participant.State
  /-- When the participant was made. -/
  joinedAt : SystemTime
  /-- When the stage last changed. -/
  updatedAt : SystemTime
  /-- The identity names a participant. -/
  idValid : id.kind=.participant ∧ IsCanonical id.id
  /-- The capability has passed its checks. -/
  capabilityValid : capability.validate=.ok ()
  /-- The resources are valid and not empty. -/
  resourcesValid : resources.validate=.ok () ∧ resources.isEmpty=false

namespace Participant

variable {F : Type} [Cores F]

/-- Make a participant that is joining. -/
def new [UuidCrate] (id : Identity) (capability : Capability F) (resources : ResourceFragment F)
    (now : SystemTime) : Except ParticipantError (Participant F) :=
  if h : (id.kind=.participant ∧ id.validate.isOk=true) ∧ capability.validate=.ok () ∧
      resources.validate=.ok () ∧ resources.isEmpty=false then
    .ok ⟨id,capability,resources,.joining,now,now,
      ⟨h.1.1,(Identity.validate_isOk id).mp h.1.2⟩,h.2.1,h.2.2⟩
  else .error .invalid

/-- The stages that may follow each other. -/
def allowed : State → State → Bool
  | .joining,.active => true
  | .joining,.left => true
  | .active,.draining => true
  | .active,.left => true
  | .draining,.left => true
  | _,_ => false

/-- Move to another stage and note the time. -/
def transition (p : Participant F) (next : State) (now : SystemTime) :
    Except ParticipantError (Participant F) :=
  if allowed p.state next then .ok {p with state := next, updatedAt := now}
  else .error .invalidTransition

/-- Begin to offer resources. -/
def activate (p : Participant F) (now : SystemTime) : Except ParticipantError (Participant F) :=
  p.transition .active now

/-- Stop offering resources. -/
def drain (p : Participant F) (now : SystemTime) : Except ParticipantError (Participant F) :=
  p.transition .draining now

/-- End the membership. -/
def leave (p : Participant F) (now : SystemTime) : Except ParticipantError (Participant F) :=
  p.transition .left now

/-- The resources of an active participant. -/
def offer (p : Participant F) : Except ParticipantError (ResourceFragment F) :=
  if p.state≠.active then .error .notActive else .ok p.resources

end Participant

/-- Resources that a participant offers to the scheduler. -/
structure ResourceOffer (F : Type) where
  /-- Text of the participant's identity. -/
  participantId : String
  /-- Offered resources. -/
  resources : ResourceFragment F
  deriving DecidableEq

/-- Errors of the registry. -/
inductive RegistryError where
  | exists
  | notFound
  | invalid
  deriving DecidableEq

/-- The participants, each filed under the text of its own identity. -/
structure Registry (F : Type) [Cores F] where
  /-- Members by the text of their identity. -/
  participants : Std.ExtTreeMap String (Participant F)
  /-- The text under which a member is filed is its own. -/
  keyed : ∀ (k : String) (p : Participant F),participants[k]?=some p → p.id.id=k

namespace Registry

variable {F : Type} [Cores F]

/-- The registry without members. -/
def empty : Registry F := ⟨∅,fun k p h => by simp at h⟩

section Operations

variable [UuidCrate]

/-- Add a member, unless its name is taken. -/
def register (r : Registry F) (participant : Participant F) : Except RegistryError (Registry F) :=
  if participant.id.kind≠.participant ∨ participant.id.validate.isOk=false then .error .invalid
  else if participant.id.id ∈ r.participants then .error .exists
  else .ok ⟨r.participants.insert participant.id.id participant,by
    intro k p h
    rcases OrderedMap.getElem?_insert_eq_some.mp h with ⟨hk,rfl⟩|⟨_,hp⟩
    · exact hk
    · exact r.keyed k p hp⟩

/-- Look a member up. -/
def get (r : Registry F) (id : Identity) : Except RegistryError (Participant F) :=
  if id.kind≠.participant ∨ id.validate.isOk=false then .error .invalid
  else match r.participants[id.id]? with
    | some p => .ok p
    | none => .error .notFound

/-- Take a member out. -/
def remove (r : Registry F) (id : Identity) : Except RegistryError (Registry F) :=
  if id.kind≠.participant ∨ id.validate.isOk=false then .error .invalid
  else if id.id ∈ r.participants then
    .ok ⟨r.participants.erase id.id,fun k p h =>
      r.keyed k p (OrderedMap.getElem?_erase_eq_some.mp h).2⟩
  else .error .notFound

end Operations

/-- What one member offers: nothing unless it is active. -/
def offerOf (p : Participant F) : Option (ResourceOffer F) :=
  if p.state≠.active then none
  else p.offer.toOption.map fun resources => ⟨p.id.id,resources⟩

/-- The offers of the active members, in the order of their names. -/
def offers (r : Registry F) : List (ResourceOffer F) :=
  r.participants.toList.filterMap fun entry => offerOf entry.2

/-- An active member offers all its resources, any other member nothing. -/
theorem offerOf_eq_some {p : Participant F} {o : ResourceOffer F} :
    offerOf p=some o ↔ p.state=.active ∧ o=⟨p.id.id,p.resources⟩ := by
  rw [offerOf,Participant.offer]
  by_cases h : p.state=.active
  · simp [h,Except.toOption,eq_comm]
  · simp [h]

/-- The offers are the resources of the active members. -/
theorem mem_offers {r : Registry F} {o : ResourceOffer F} :
    o ∈ r.offers ↔ ∃ p,r.participants[o.participantId]?=some p ∧ p.state=.active ∧
      o.resources=p.resources := by
  simp only [offers,List.mem_filterMap,offerOf_eq_some,Prod.exists,
    Std.ExtTreeMap.mem_toList_iff_getElem?_eq_some]
  constructor
  · rintro ⟨k,p,hp,ha,rfl⟩
    have hk := r.keyed k p hp
    subst hk
    exact ⟨p,hp,ha,rfl⟩
  · rintro ⟨p,hp,ha,hr⟩
    refine ⟨o.participantId,p,hp,ha,?_⟩
    have hk := r.keyed _ _ hp
    cases o
    simp only at hk hr
    rw [hk,hr]

end Registry

end OpenHost
