import OpenHost.PlanOrder
import OpenHost.Transition

/-!
# Shared participants and what they offer

Participants are shared objects: the registry files references to them, and
whoever holds a reference may move the participant to another stage, whether
or not it is on file. A state keeps every object that was ever made and the
file of references. What the registry offers is read through the references,
at the time of the call.
-/

namespace OpenHost

/-- All participant objects, and the file of those that are registered. -/
structure Membership (F : Type) [Cores F] where
  /-- Every object that was made; a reference is a position in this list. -/
  objects : List (Participant F)
  /-- References on file, by the text of the participant's identity. -/
  participants : Std.ExtTreeMap String ℕ
  /-- A reference on file leads to an object with that text. -/
  keyed : ∀ (k : String) (ref : ℕ),participants[k]?=some ref →
    ∃ p,objects[ref]?=some p ∧ p.id.id=k

namespace Membership

variable {F : Type} [Cores F]

/-- No participant was made yet. -/
def empty : Membership F := ⟨[],∅,fun k ref h => by simp at h⟩

/-- Keep a participant that was made; its reference is the next one. -/
def add (s : Membership F) (p : Participant F) : Membership F where
  objects := s.objects++[p]
  participants := s.participants
  keyed := by
    intro k ref h
    obtain ⟨q,hq,hk⟩ := s.keyed k ref h
    have hl := (List.getElem?_eq_some_iff.mp hq).1
    exact ⟨q,by rw [List.getElem?_append_left hl,hq],hk⟩

/-- Replace an object by one of the same identity. -/
def update (s : Membership F) (ref : ℕ) (p next : Participant F) (hp : s.objects[ref]?=some p)
    (hid : next.id=p.id) : Membership F where
  objects := s.objects.set ref next
  participants := s.participants
  keyed := by
    intro k ref' h
    obtain ⟨q,hq,hk⟩ := s.keyed k ref' h
    by_cases he : ref=ref'
    · subst he
      rw [hp,Option.some.injEq] at hq
      refine ⟨next,?_,by rw [hid,hq,hk]⟩
      exact List.getElem?_set_self (List.getElem?_eq_some_iff.mp hp).1
    · exact ⟨q,by rw [List.getElem?_set_ne he,hq],hk⟩

/-- File a reference under the identity of its object. -/
def file (s : Membership F) (ref : ℕ) (p : Participant F) (hp : s.objects[ref]?=some p) :
    Membership F where
  objects := s.objects
  participants := s.participants.insert p.id.id ref
  keyed := by
    intro k ref' h
    rcases OrderedMap.getElem?_insert_eq_some.mp h with ⟨hk,rfl⟩|⟨_,h⟩
    · exact ⟨p,hp,hk⟩
    · exact s.keyed k ref' h

/-- Take a reference out of the file. -/
def unfile (s : Membership F) (k : String) : Membership F where
  objects := s.objects
  participants := s.participants.erase k
  keyed := fun k' ref h => s.keyed k' ref (OrderedMap.getElem?_erase_eq_some.mp h).2

/-- The calls that change participants or the file. -/
inductive Call (F : Type) where
  /-- Make a participant. -/
  | new (id : Identity) (capability : Capability F) (resources : ResourceFragment F)
    (now : SystemTime)
  /-- Register the participant behind a reference. -/
  | register (ref : ℕ)
  /-- Remove a participant from the file. -/
  | remove (id : Identity)
  /-- Activate the participant behind a reference. -/
  | activate (ref : ℕ) (now : SystemTime)
  /-- Drain the participant behind a reference. -/
  | drain (ref : ℕ) (now : SystemTime)
  /-- Let the participant behind a reference leave. -/
  | leave (ref : ℕ) (now : SystemTime)

/-- A change of stage keeps the identity. -/
theorem transition_id {p next : Participant F} {state : Participant.State} {now : SystemTime}
    (h : p.transition state now=.ok next) : next.id=p.id := by
  rw [Participant.transition] at h
  split at h
  · rw [Except.ok.injEq] at h
    rw [← h]
  · cases h

/-- Move the participant behind a reference to another stage, if it may. -/
def transition (s : Membership F) (ref : ℕ) (state : Participant.State) (now : SystemTime) :
    Membership F :=
  match hp : s.objects[ref]? with
  | none => s
  | some p =>
    match hn : p.transition state now with
    | .error _ => s
    | .ok next => s.update ref p next hp (transition_id hn)

section Calls

variable [UuidCrate]

/-- Register the participant behind a reference, unless its name is taken. -/
def register (s : Membership F) (ref : ℕ) : Membership F :=
  match hp : s.objects[ref]? with
  | none => s
  | some p =>
    if p.id.kind≠.participant ∨ p.id.validate.isOk=false then s
    else if p.id.id ∈ s.participants then s
    else s.file ref p hp

/-- Remove a name from the file, if it names a participant. -/
def remove (s : Membership F) (id : Identity) : Membership F :=
  if id.kind≠.participant ∨ id.validate.isOk=false then s else s.unfile id.id

/-- The state behind a call, which may have failed. -/
def perform (s : Membership F) : Call F → Membership F
  | .new id capability resources now =>
    match Participant.new id capability resources now with
    | .ok p => s.add p
    | .error _ => s
  | .register ref => s.register ref
  | .remove id => s.remove id
  | .activate ref now => s.transition ref .active now
  | .drain ref now => s.transition ref .draining now
  | .leave ref now => s.transition ref .left now

/-- Any number of calls. -/
def Runs (s t : Membership F) : Prop :=
  Transition.Reaches (fun s call t => t=s.perform call) (fun _ _ => True) s t

/-- States that calls lead to. -/
def Reachable (s : Membership F) : Prop := Runs empty s

end Calls

/-- What the registry offers: the file in order of its names, read through
the references. -/
def offers (s : Membership F) : List (ResourceOffer F) :=
  s.participants.toList.filterMap fun entry => s.objects[entry.2]?.bind Registry.offerOf

/-- The registry as one would copy it at this moment. -/
def snapshot (s : Membership F) : Registry F where
  participants := s.participants.filterMap fun _ ref => s.objects[ref]?
  keyed := by
    intro k p h
    rw [Std.ExtTreeMap.getElem?_filterMap',Option.bind_eq_some_iff] at h
    obtain ⟨ref,hr,hp⟩ := h
    obtain ⟨q,hq,hk⟩ := s.keyed k ref hr
    rw [hp,Option.some.injEq] at hq
    rw [hq,hk]

/-- Reading through the references is reading the copy. -/
theorem offers_eq_snapshot (s : Membership F) : s.offers=s.snapshot.offers := by
  rw [offers,Registry.offers,snapshot,Std.ExtTreeMap.toList_filterMap,List.filterMap_filterMap]
  congr 1
  funext entry
  cases s.objects[entry.2]? <;> rfl

/-- The participant behind the reference is on file and active, and this is
all it has. -/
def Publishes (s : Membership F) (ref : ℕ) (o : ResourceOffer F) : Prop :=
  ∃ p,s.objects[ref]?=some p ∧ s.participants[p.id.id]?=some ref ∧ p.state=.active ∧
    o=⟨p.id.id,p.resources⟩

/-- The offers are what the active participants on file have. -/
theorem mem_offers {s : Membership F} {o : ResourceOffer F} :
    o ∈ s.offers ↔ ∃ ref,s.Publishes ref o := by
  rw [offers_eq_snapshot,Registry.mem_offers]
  simp only [snapshot,Std.ExtTreeMap.getElem?_filterMap',Option.bind_eq_some_iff]
  constructor
  · rintro ⟨p,⟨ref,hr,hp⟩,ha,he⟩
    obtain ⟨q,hq,hk⟩ := s.keyed _ _ hr
    rw [hp,Option.some.injEq] at hq
    subst hq
    refine ⟨ref,p,hp,by rw [hk,hr],ha,?_⟩
    cases o
    simp only at hk he
    rw [hk,he]
  · rintro ⟨ref,p,hp,hr,ha,rfl⟩
    exact ⟨p,⟨ref,hr,hp⟩,ha,rfl⟩

/-- The participant behind the reference was drained or has left. -/
def Retired (s : Membership F) (ref : ℕ) : Prop :=
  ∃ p,s.objects[ref]?=some p ∧ (p.state=.draining ∨ p.state=.left)

/-- What follows a retired stage is a retired stage. -/
theorem transition_retired {p next : Participant F} {state : Participant.State}
    {now : SystemTime} (hs : p.state=.draining ∨ p.state=.left)
    (h : p.transition state now=.ok next) : next.state=.draining ∨ next.state=.left := by
  rw [Participant.transition] at h
  split at h
  case isTrue ha =>
    rw [Except.ok.injEq] at h
    rw [← h]
    rcases hs with hs|hs <;> rw [hs] at ha <;> cases state <;> simp_all [Participant.allowed]
  case isFalse => cases h

/-- Another participant that is made leaves a retired one retired. -/
theorem Retired.add {s : Membership F} {ref : ℕ} (h : s.Retired ref) (p : Participant F) :
    (s.add p).Retired ref := by
  obtain ⟨q,hq,hs⟩ := h
  have hl := (List.getElem?_eq_some_iff.mp hq).1
  exact ⟨q,by rw [Membership.add,List.getElem?_append_left hl,hq],hs⟩

/-- Whichever participant moves, a retired one stays retired. -/
theorem Retired.transition {s : Membership F} {ref : ℕ} (h : s.Retired ref) (ref' : ℕ)
    (state : Participant.State) (now : SystemTime) : (s.transition ref' state now).Retired ref := by
  obtain ⟨p,hp,hs⟩ := h
  rw [Membership.transition]
  split
  case h_1 => exact ⟨p,hp,hs⟩
  case h_2 q hq =>
    split
    case h_1 => exact ⟨p,hp,hs⟩
    case h_2 next hn =>
      by_cases he : ref'=ref
      · subst he
        rw [hq,Option.some.injEq] at hp
        subst hp
        refine ⟨next,?_,transition_retired hs hn⟩
        exact List.getElem?_set_self (List.getElem?_eq_some_iff.mp hq).1
      · exact ⟨p,by rw [update,List.getElem?_set_ne he,hp],hs⟩

section Runs

variable [UuidCrate]

/-- No call brings a retired participant back. -/
theorem Retired.perform {s : Membership F} {ref : ℕ} (h : s.Retired ref) (call : Call F) :
    (s.perform call).Retired ref := by
  cases call with
  | new id capability resources now =>
    rw [Membership.perform]
    split
    · exact h.add _
    · exact h
  | register ref' =>
    rw [Membership.perform,Membership.register]
    split
    · exact h
    · split_ifs <;> exact h
  | remove id =>
    rw [Membership.perform,Membership.remove]
    split_ifs <;> exact h
  | activate ref' now => exact h.transition ref' .active now
  | drain ref' now => exact h.transition ref' .draining now
  | leave ref' now => exact h.transition ref' .left now

end Runs

section Sample

end Sample

end Membership

end OpenHost
