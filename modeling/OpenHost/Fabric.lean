import OpenHost.PlanOrder
import OpenHost.PlanExactness
import OpenHost.Registration

/-!
# The fabric in memory

A fabric files the last offer of each participant until it is removed. Each
call is one section under the lock of the fabric, so concurrent callers leave
what their calls leave one after the other, and a scheduler reads the offers
between two of them. What it then plans is decided by the last word about each
participant, whatever came before.
-/

namespace OpenHost

/-- Errors of the fabric. -/
inductive FabricError where
  | emptyParticipant
  | invalidResource
  deriving DecidableEq

/-- The offer names a participant and has valid resources. -/
structure ResourceOffer.Admitted {F : Type} [Cores F] (offer : ResourceOffer F) : Prop where
  /-- There is a name. -/
  named : offer.participantId≠""
  /-- The resources are valid. -/
  valid : offer.resources.validate=.ok ()

/-- Offers, each filed under the name of its participant. -/
structure MemoryFabric (F : Type) [Cores F] where
  /-- The offers by name. -/
  entries : Std.ExtTreeMap String (ResourceOffer F)
  /-- An offer is filed under its own name. -/
  keyed : ∀ (k : String) (o : ResourceOffer F),entries[k]?=some o → o.participantId=k
  /-- Every offer was admitted. -/
  admitted : ∀ (k : String) (o : ResourceOffer F),entries[k]?=some o → o.Admitted

/-- A call that changes a fabric. -/
inductive FabricCall (F : Type) where
  | upsert (offer : ResourceOffer F)
  | remove (participantId : String)

namespace MemoryFabric

variable {F : Type} [Cores F]

/-- The fabric without offers. -/
def new : MemoryFabric F := ⟨∅,fun k o h => by simp at h,fun k o h => by simp at h⟩

/-- File an offer in the place of an earlier one. -/
def upsert (fabric : MemoryFabric F) (offer : ResourceOffer F) :
    Except FabricError (MemoryFabric F) :=
  if hn : offer.participantId="" then .error .emptyParticipant
  else match hv : offer.resources.validate with
    | .error _ => .error .invalidResource
    | .ok _ => .ok ⟨fabric.entries.insert offer.participantId offer,by
        intro k o h
        rcases OrderedMap.getElem?_insert_eq_some.mp h with ⟨hk,rfl⟩|⟨_,hold⟩
        · exact hk
        · exact fabric.keyed k o hold,by
        intro k o h
        rcases OrderedMap.getElem?_insert_eq_some.mp h with ⟨_,rfl⟩|⟨_,hold⟩
        · exact ⟨hn,hv⟩
        · exact fabric.admitted k o hold⟩

/-- Take the offer of a participant away. -/
def remove (fabric : MemoryFabric F) (participantId : String) : MemoryFabric F where
  entries := fabric.entries.erase participantId
  keyed k o h := fabric.keyed k o (OrderedMap.getElem?_erase_eq_some.mp h).2
  admitted k o h := fabric.admitted k o (OrderedMap.getElem?_erase_eq_some.mp h).2

/-- The offers in the order of their participants. -/
def offers (fabric : MemoryFabric F) : List (ResourceOffer F) :=
  fabric.entries.toList.map Prod.snd

/-- What a call leaves, whether it was refused or not. -/
def perform (fabric : MemoryFabric F) : FabricCall F → MemoryFabric F
  | .upsert offer => (fabric.upsert offer).toOption.getD fabric
  | .remove participantId => fabric.remove participantId

/-- What calls leave one after the other. -/
def performAll (fabric : MemoryFabric F) (calls : List (FabricCall F)) : MemoryFabric F :=
  calls.foldl perform fabric

/-- An offer that is admitted is filed, any other is refused. -/
theorem upsert_cases (fabric : MemoryFabric F) (offer : ResourceOffer F) :
    (offer.Admitted ∧ ∃ filed,fabric.upsert offer=.ok filed ∧
      filed.entries=fabric.entries.insert offer.participantId offer) ∨
    (¬offer.Admitted ∧ ∃ e,fabric.upsert offer=.error e) := by
  rw [upsert]
  by_cases hn : offer.participantId=""
  · rw [dif_pos hn]
    exact Or.inr ⟨fun h => h.named hn,_,rfl⟩
  · rw [dif_neg hn]
    split
    · next e hv =>
      refine Or.inr ⟨fun h => ?_,_,rfl⟩
      rw [h.valid] at hv
      cases hv
    · next u hv => exact Or.inl ⟨⟨hn,hv⟩,_,rfl,rfl⟩

/-- The offers are what is filed. -/
theorem mem_offers {fabric : MemoryFabric F} {o : ResourceOffer F} :
    o ∈ fabric.offers ↔ fabric.entries[o.participantId]?=some o := by
  rw [offers,List.mem_map]
  constructor
  · rintro ⟨⟨k,filed⟩,hm,rfl⟩
    have hfiled := Std.ExtTreeMap.mem_toList_iff_getElem?_eq_some.mp hm
    rw [fabric.keyed k filed hfiled]
    exact hfiled
  · intro h
    exact ⟨⟨_,o⟩,Std.ExtTreeMap.mem_toList_iff_getElem?_eq_some.mpr h,rfl⟩

end MemoryFabric

section Words

variable {F : Type} [Cores F]

instance (offer : ResourceOffer F) : Decidable offer.Admitted :=
  decidable_of_iff (offer.participantId≠"" ∧ offer.resources.validate=.ok ())
    ⟨fun h => ⟨h.1,h.2⟩,fun h => ⟨h.named,h.valid⟩⟩

namespace FabricCall

/-- The participant that the call is about. -/
def participantId : FabricCall F → String
  | upsert offer => offer.participantId
  | remove participantId => participantId

/-- The call is not refused. -/
def accepted : FabricCall F → Bool
  | upsert offer => decide offer.Admitted
  | remove _ => true

/-- What is on offer behind the call, if it is not refused. -/
def offer? : FabricCall F → Option (ResourceOffer F)
  | upsert offer => some offer
  | remove _ => none

/-- The call as a command to the store. -/
def command : FabricCall F → Registration.Command String (ResourceOffer F)
  | upsert offer => .assign offer.participantId offer
  | remove participantId => .remove participantId

omit [Cores F] in
/-- The command is for the participant of the call. -/
@[simp] theorem command_key (call : FabricCall F) : call.command.key=call.participantId := by
  cases call <;> rfl

omit [Cores F] in
/-- The command stores what is on offer behind the call. -/
@[simp] theorem command_cell (call : FabricCall F) (held : Option (ResourceOffer F)) :
    call.command.cell held=call.offer? := by
  cases call <;> rfl

omit [Cores F] in
/-- No call depends on what is on offer. -/
theorem command_isWrite (call : FabricCall F) : call.command.isWrite=true := by
  cases call <;> rfl

end FabricCall

/-- The last word about a participant: its offer if the last call about it
that was not refused is an offer, nothing if there is none or it is a removal. -/
def standing (calls : List (FabricCall F)) (participantId : String) : Option (ResourceOffer F) :=
  (calls.filter fun call => call.accepted && call.participantId==participantId).getLast?.bind
    FabricCall.offer?

end Words

namespace AggregatingScheduler

end AggregatingScheduler

namespace MemoryFabric

section Runs

variable {F : Type} [Cores F]

/-- A call that is not refused is its command, any other is none. -/
theorem entries_perform (fabric : MemoryFabric F) (call : FabricCall F) :
    (fabric.perform call).entries=
      if call.accepted=true then Registration.apply fabric.entries call.command
      else fabric.entries := by
  cases call with
  | remove participantId => rfl
  | upsert offer =>
    rw [perform]
    rcases fabric.upsert_cases offer with ⟨ha,filed,hok,he⟩|⟨hn,e,herr⟩
    · have haccepted : (FabricCall.upsert offer).accepted=true := decide_eq_true ha
      rw [hok,if_pos haccepted]
      exact he
    · have hrefused : ¬(FabricCall.upsert offer).accepted=true := by
        simpa [FabricCall.accepted] using hn
      rw [herr,if_neg hrefused]
      rfl

/-- Calls leave what the commands of those that are not refused leave. -/
theorem entries_performAll (fabric : MemoryFabric F) (calls : List (FabricCall F)) :
    (fabric.performAll calls).entries=Registration.run fabric.entries
      ((calls.filter FabricCall.accepted).map FabricCall.command) := by
  induction calls generalizing fabric with
  | nil => rfl
  | cons call rest ih =>
    have hrest := ih (fabric.perform call)
    rw [entries_perform] at hrest
    rw [performAll,List.foldl_cons]
    rw [performAll] at hrest
    rw [hrest,List.filter_cons]
    by_cases ha : call.accepted=true
    · rw [if_pos ha,if_pos ha]
      rfl
    · rw [if_neg ha,if_neg ha]

/-- Behind calls on a new fabric, the last word about a participant is filed. -/
theorem getElem?_performAll (calls : List (FabricCall F)) (participantId : String) :
    ((new : MemoryFabric F).performAll calls).entries[participantId]?=
      standing calls participantId := by
  have hwrites : ∀ c ∈ (calls.filter FabricCall.accepted).map FabricCall.command,
      c.isWrite=true := by
    intro c hc
    obtain ⟨call,_,rfl⟩ := List.mem_map.mp hc
    exact call.command_isWrite
  rw [entries_performAll,Registration.getElem?_run_writes _ hwrites,List.filter_map,
    List.getLast?_map,Option.map_map,List.filter_filter,standing]
  have hsame : (fun call : FabricCall F => ((fun c : Registration.Command String
        (ResourceOffer F) => decide (c.key=participantId))∘FabricCall.command) call &&
        call.accepted)=fun call => call.accepted && call.participantId==participantId := by
    funext call
    rw [Bool.and_comm,Function.comp_apply,FabricCall.command_key]
    rfl
  rw [hsame]
  cases (calls.filter fun call => call.accepted && call.participantId==participantId).getLast? with
  | none => exact Std.ExtTreeMap.getElem?_empty
  | some call => exact call.command_cell none

end Runs

section Plans

open AggregatingScheduler

end Plans

end MemoryFabric

end OpenHost
