import OpenHost.Participant

/-!
# Discovery

Advertisements of remote participants, kept with the local time at which
they were last seen. A newer sequence number replaces an older one; the
freshness of a member is computed from a policy that was checked when the
registry was made.
-/

namespace OpenHost

/-- An advertised capability with its sequence number. -/
structure Advertisement (F : Type) where
  /-- Advertised participant. -/
  participant : Identity
  /-- Advertised capability. -/
  capability : Capability F
  /-- Sender's sequence number. -/
  sequence : UInt64
  /-- Sender's time of observation. -/
  observedAt : SystemTime
  deriving DecidableEq

/-- An advertisement and the local time of its arrival. -/
structure Member (F : Type) where
  /-- The advertisement last accepted. -/
  advertisement : Advertisement F
  /-- Local time of its arrival. -/
  lastSeen : SystemTime
  deriving DecidableEq

/-- How fresh a member is. -/
inductive Discovery.State where
  | active
  | stale
  | expired
  deriving DecidableEq

/-- Ages at which a member becomes stale and expires. -/
structure FreshnessPolicy where
  /-- Age from which a member is stale. -/
  staleAfter : Duration
  /-- Age from which a member is expired. -/
  expireAfter : Duration
  deriving DecidableEq

/-- Errors of discovery. -/
inductive DiscoveryError where
  | invalidAdvertisement
  | invalidTimestamp
  | invalidPolicy
  | staleSequence
  | notFound
  deriving DecidableEq

/-- A policy has a stale stage that comes first. -/
def FreshnessPolicy.validate (policy : FreshnessPolicy) : Except DiscoveryError Unit :=
  rejectIf (policy.staleAfter.isZero=true ∨ policy.expireAfter ≤ policy.staleAfter) .invalidPolicy

/-- The checks of an advertisement. -/
def Advertisement.validate {F : Type} [Cores F] [UuidCrate] (ad : Advertisement F) :
    Except DiscoveryError Unit :=
  rejectIf (ad.participant.kind≠.participant ∨ ad.participant.validate.isOk=false ∨
    ad.capability.validate.isOk=false ∨ ad.observedAt=.unixEpoch) .invalidAdvertisement

/-- Freshness of a member at an instant. -/
def Member.stateAt {F : Type} (member : Member F) (now : SystemTime) (policy : FreshnessPolicy) :
    Except DiscoveryError Discovery.State := do
  policy.validate
  rejectIf (member.lastSeen=.unixEpoch ∨ now < member.lastSeen) .invalidTimestamp
  match now.durationSince member.lastSeen with
  | none => .error .invalidTimestamp
  | some age =>
    if policy.expireAfter ≤ age then .ok .expired
    else if policy.staleAfter ≤ age then .ok .stale
    else .ok .active

/-- The members in memory, and the policy they are judged by. -/
structure MemoryRegistry (F : Type) where
  /-- Members by the text of the participant's identity. -/
  members : Std.ExtTreeMap String (Member F)
  /-- Freshness policy. -/
  policy : FreshnessPolicy
  /-- The policy has passed its check. -/
  policyValid : policy.validate=.ok ()

namespace MemoryRegistry

variable {F : Type}

/-- A registry without members under a checked policy. -/
def new (policy : FreshnessPolicy) : Except DiscoveryError (MemoryRegistry F) :=
  if h : policy.validate=.ok () then .ok ⟨∅,policy,h⟩ else .error .invalidPolicy

/-- Accept an advertisement unless it is invalid or older than the one held. -/
def upsert [Cores F] [UuidCrate] (r : MemoryRegistry F) (ad : Advertisement F)
    (receivedAt : SystemTime) : Except DiscoveryError (MemoryRegistry F) := do
  ad.validate
  rejectIf (receivedAt<ad.observedAt ∨ receivedAt=.unixEpoch) .invalidTimestamp
  rejectIf (r.members[ad.participant.id]?.any
    (fun existing => decide (ad.sequence<existing.advertisement.sequence))=true) .staleSequence
  .ok {r with members := r.members.insert ad.participant.id ⟨ad,receivedAt⟩}

/-- Forget a member. -/
def remove [UuidCrate] (r : MemoryRegistry F) (id : Identity) :
    Except DiscoveryError (MemoryRegistry F) := do
  rejectIf (id.kind≠.participant ∨ id.validate.isOk=false) .invalidAdvertisement
  rejectIf (id.id∉r.members) .notFound
  .ok {r with members := r.members.erase id.id}

/-- Look a member up. -/
def get (r : MemoryRegistry F) (id : Identity) : Except DiscoveryError (Member F) :=
  match r.members[id.id]? with
  | some member => .ok member
  | none => .error .notFound

/-- All members, in the order of their names. -/
def allMembers (r : MemoryRegistry F) : List (Member F) := r.members.toList.map Prod.snd

/-- All members with their freshness; one bad member fails the list. -/
def membersAt (r : MemoryRegistry F) (now : SystemTime) :
    Except DiscoveryError (List (Member F×Discovery.State)) :=
  r.allMembers.mapM fun member => do
    let state ← member.stateAt now r.policy
    .ok (member,state)

end MemoryRegistry

end OpenHost
