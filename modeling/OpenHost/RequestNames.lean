import OpenHost.ParallelDispatch
import OpenHost.Scheduler

/-!
# What the name of a request says

A request is named by its workload and its participant with a colon between
them. The name of a workload may contain colons and identities, but the text
of a participant has a fixed length, so the name of a request says what both
parts are. The scheduler never gives a participant two parts of a node; hence
the requests of one dispatch have distinct names, and a response that answers
one of them answers no other.
-/

namespace OpenHost

/-- Texts that end in parts of one length behind a separator agree in both parts. -/
theorem append_separated_inj {a b separator u v : String}
    (h : a++separator++u=b++separator++v) (hlen : u.toList.length=v.toList.length) : a=b ∧ u=v := by
  have hchars := congrArg String.toList h
  rw [String.toList_append,String.toList_append,String.toList_append,String.toList_append] at hchars
  obtain ⟨hfront,hback⟩ := List.append_inj' hchars hlen
  exact ⟨String.toList_inj.mp (List.append_cancel_right hfront),String.toList_inj.mp hback⟩

/-- A canonical text has 36 characters. -/
theorem IsCanonical.length {s : String} (h : IsCanonical s) : s.toList.length=36 := by
  have hs := h.1
  rw [isHyphenated,Bool.and_eq_true,beq_iff_eq] at hs
  exact hs.1

namespace ExecutionPlan

variable [UuidCrate] {node : LogicalNode F64} {workload : WorkItem} {plan : ExecutionPlan F64}

/-- The plan of a node names the workload it was made for. -/
theorem workloadId_of_fromNode (h : fromNode node workload=.ok plan) :
    plan.workloadId=workload.id := by
  obtain ⟨_,_,_,_,_,rfl⟩ := fromNode_eq_ok.mp h
  rfl

/-- The units of a plan belong to participants with canonical texts. -/
theorem participant_of_fromNode (h : fromNode node workload=.ok plan) {unit : ExecutionUnit F64}
    (hu : unit ∈ plan.units) :
    IsCanonical unit.participantId.id ∧ unit.participantId.kind=.participant := by
  obtain ⟨_,_,_,hcanonical,_,rfl⟩ := fromNode_eq_ok.mp h
  obtain ⟨a,ha,rfl⟩ := List.mem_map.mp hu
  exact ⟨(hcanonical a ha).1,rfl⟩

/-- The participants of a plan are those of the node, in order. -/
theorem participants_of_fromNode (h : fromNode node workload=.ok plan) :
    (plan.units.map fun unit => unit.participantId.id)=
      node.resources.allocations.map Allocation.participantId := by
  obtain ⟨_,_,_,_,_,rfl⟩ := fromNode_eq_ok.mp h
  rw [unitsFor,List.map_map]
  rfl

end ExecutionPlan

namespace ExecutionDispatcher

/-- A dispatch of the plan for this workload makes the request for the unit. -/
def Makes (d : ExecutionDispatcher) (plan : ExecutionPlan F64) (sent : WorkItem)
    (unit : ExecutionUnit F64) (request : ExecutionRequest) : Prop :=
  plan.workloadId=sent.id ∧ unit ∈ plan.units ∧ d.requestFor plan sent unit=.ok request

section Names

variable {d : ExecutionDispatcher} {plan : ExecutionPlan F64} {sent : WorkItem}
  {unit : ExecutionUnit F64} {request : ExecutionRequest}

/-- A request is named by the workload of the plan and the participant. -/
theorem Makes.requestId (h : d.Makes plan sent unit request) :
    request.requestId=plan.workloadId++":"++unit.participantId.id := by
  obtain ⟨hid,_,hr⟩ := h
  obtain ⟨_,_,_,rfl⟩ := requestFor_eq_ok hr
  rw [hid]

/-- Requests made for units are named by the workload and the participants. -/
theorem requestIds_of_units {units : List (ExecutionUnit F64)} {requests : List ExecutionRequest}
    (h : List.Forall₂ (d.IsRequestFor plan sent) units requests) :
    requests.map ExecutionRequest.requestId=
      units.map fun unit => sent.id++":"++unit.participantId.id := by
  induction h with
  | nil => rfl
  | cons hr _ ih =>
    obtain ⟨_,_,rfl⟩ := hr
    rw [List.map_cons,List.map_cons,ih]

/-- Requests that are named apart have different names at different places. -/
theorem requestId_ne {requests : List ExecutionRequest}
    (h : (requests.map ExecutionRequest.requestId).Nodup) {i j : ℕ} (hij : i≠j)
    {request other : ExecutionRequest} (hi : requests[i]?=some request)
    (hj : requests[j]?=some other) : request.requestId≠other.requestId := by
  intro hname
  have hget {k : ℕ} {found : ExecutionRequest} (hk : requests[k]?=some found) :
      (requests.map ExecutionRequest.requestId)[k]?=some found.requestId := by
    rw [List.getElem?_map,hk]
    rfl
  have hsame : (requests.map ExecutionRequest.requestId)[i]?=
      (requests.map ExecutionRequest.requestId)[j]? := by rw [hget hi,hget hj,hname]
  have hlt := (List.getElem?_eq_some_iff.mp (hget hi)).1
  exact hij ((List.getElem?_inj hlt h).mp hsame)

end Names

section Identify

variable [UuidCrate]

/-- Requests of one name are made for one workload and one participant. -/
theorem Makes.inj {d d' : ExecutionDispatcher} {plan plan' : ExecutionPlan F64}
    {node node' : LogicalNode F64} {workload workload' sent sent' : WorkItem}
    {unit unit' : ExecutionUnit F64} {request request' : ExecutionRequest}
    (hplan : ExecutionPlan.fromNode node workload=.ok plan)
    (hplan' : ExecutionPlan.fromNode node' workload'=.ok plan')
    (hmade : d.Makes plan sent unit request) (hmade' : d'.Makes plan' sent' unit' request')
    (hid : request.requestId=request'.requestId) :
    workload.id=workload'.id ∧ unit.participantId=unit'.participantId := by
  obtain ⟨hcanonical,hkind⟩ := ExecutionPlan.participant_of_fromNode hplan hmade.2.1
  obtain ⟨hcanonical',hkind'⟩ := ExecutionPlan.participant_of_fromNode hplan' hmade'.2.1
  have hlen := hcanonical.length.trans hcanonical'.length.symm
  rw [hmade.requestId,hmade'.requestId] at hid
  obtain ⟨hworkload,htext⟩ := append_separated_inj hid hlen
  rw [ExecutionPlan.workloadId_of_fromNode hplan,
    ExecutionPlan.workloadId_of_fromNode hplan'] at hworkload
  exact ⟨hworkload,Identity.ext htext (hkind.trans hkind'.symm)⟩

/-- The requests of a dispatch are named apart if no participant has two
parts of the node. -/
theorem requestIds_nodup {d : ExecutionDispatcher} {plan : ExecutionPlan F64}
    {node : LogicalNode F64} {workload sent : WorkItem} {requests : List ExecutionRequest}
    (hplan : ExecutionPlan.fromNode node workload=.ok plan)
    (hdistinct : (node.resources.allocations.map Allocation.participantId).Nodup)
    (hrequests : d.prepare plan sent=.ok requests) :
    (requests.map ExecutionRequest.requestId).Nodup := by
  have hnames : requests.map ExecutionRequest.requestId=
      (node.resources.allocations.map Allocation.participantId).map fun id => sent.id++":"++id := by
    rw [requestIds_of_units (prepared_requests hrequests),
      ← ExecutionPlan.participants_of_fromNode hplan,List.map_map]
    rfl
  rw [hnames]
  exact hdistinct.map fun _ _ h => (String.append_right_inj _).mp h

/-- Equal names of requests, in dispatches of any two plans of nodes, mean the
same workload and the same participant. So the requests in a dispatch of a
node that was scheduled, with whatever runtime, have distinct names, and a
response that is accepted for one of them bears the name of no other. -/
theorem requestIds_identify [CoresArith F64] :
    (∀ (node node' : LogicalNode F64) (workload workload' : WorkItem)
        (plan plan' : ExecutionPlan F64),
      ExecutionPlan.fromNode node workload=.ok plan →
      ExecutionPlan.fromNode node' workload'=.ok plan' →
      ∀ (d d' : ExecutionDispatcher) (sent sent' : WorkItem) (unit unit' : ExecutionUnit F64)
        (request request' : ExecutionRequest),d.Makes plan sent unit request →
      d'.Makes plan' sent' unit' request' → request.requestId=request'.requestId →
      workload.id=workload'.id ∧ unit.participantId=unit'.participantId) ∧
    ∀ (offers : List (ResourceOffer F64)) (uuid : String) (requirement : ResourceFragment F64)
        (node scheduled : LogicalNode F64) (workload : WorkItem) (plan : ExecutionPlan F64),
      AggregatingScheduler.plan offers uuid requirement=.ok scheduled →
      node.resources=scheduled.resources → ExecutionPlan.fromNode node workload=.ok plan →
      ∀ (d : ExecutionDispatcher) (sent : WorkItem) (requests : List ExecutionRequest),
      d.prepare plan sent=.ok requests →
      (requests.map ExecutionRequest.requestId).Nodup ∧
      ∀ (i j : ℕ) (request other : ExecutionRequest) (response : ExecutionResponse),i≠j →
        requests[i]?=some request → requests[j]?=some other →
        Accepted request (.ok response) → response.requestId≠other.requestId := by
  refine ⟨?_,?_⟩
  · intro node node' workload workload' plan plan' hplan hplan' d d' sent sent' unit unit' request
      request' hmade hmade' hid
    exact Makes.inj hplan hplan' hmade hmade' hid
  · intro offers uuid requirement node scheduled workload plan hscheduled hnode hplan d sent requests
      hrequests
    have hdistinct := (AggregatingScheduler.planned_of_plan hscheduled).composable.distinct
    rw [← hnode] at hdistinct
    have hnodup := requestIds_nodup hplan hdistinct hrequests
    refine ⟨hnodup,?_⟩
    intro i j request other response hij hi hj haccepted
    obtain ⟨_,hok,hecho,_⟩ := haccepted
    cases hok
    rw [hecho]
    exact requestId_ne hnodup hij hi hj

end Identify

section Sample

/-- An arithmetic of amounts of which at least one is zero. -/
@[reducible] def idleArithmetic : CoresArith F64 where
  toCores := inferInstance
  add a b := if a=Cores.zero then b else a
  sub a _ := a
  min a b := if Cores.lt b a then b else a
  max a b := if Cores.lt a b then b else a

/-- One byte of memory. -/
def oneByte : ResourceFragment F64 := ⟨Cores.zero,1,0,0,0,none⟩

/-- Two participants with one byte of memory each. -/
def byteOffers : List (ResourceOffer F64) :=
  [⟨"11111111-1111-4111-8111-111111111111",oneByte⟩,
    ⟨"55555555-5555-4555-8555-555555555555",oneByte⟩]

/-- The node that is scheduled for two bytes of memory, once with no runtime
and once with one. -/
def byteNode (runtime : RuntimeSpec) : LogicalNode F64 where
  id := "22222222-2222-4222-8222-222222222222"
  resources := ⟨{oneByte with memory := 2},[⟨"11111111-1111-4111-8111-111111111111",oneByte⟩,
    ⟨"55555555-5555-4555-8555-555555555555",oneByte⟩]⟩
  runtime := runtime

/-- A plan of that node for a workload of this name. -/
def bytePlan (workloadId : String) : ExecutionPlan F64 where
  workloadId := workloadId
  nodeId := ⟨"22222222-2222-4222-8222-222222222222",.logicalNode⟩
  runtime := ⟨"wasm","1"⟩
  units := ExecutionPlan.unitsFor (byteNode ⟨"wasm","1"⟩).resources.allocations

/-- The two requests of the node have distinct names, and their names are not
those of a workload whose name ends in a participant. -/
theorem requestIds_identify_byteNode :
    ∃ requests,completingDispatcher.prepare (bytePlan "w") ⟨"w",[]⟩=.ok requests ∧
      requests.length=2 ∧ (requests.map ExecutionRequest.requestId).Nodup ∧
      ∀ unit unit' request request',completingDispatcher.Makes (bytePlan "w") ⟨"w",[]⟩ unit request →
        completingDispatcher.Makes (bytePlan "w:11111111-1111-4111-8111-111111111111")
          ⟨"w:11111111-1111-4111-8111-111111111111",[]⟩ unit' request' →
        request.requestId≠request'.requestId := by
  let := hyphenatedUuid
  let := idleArithmetic
  have hsorted : AggregatingScheduler.sorted byteOffers=byteOffers :=
    List.mergeSort_of_pairwise (by decide +kernel)
  have hscheduled : AggregatingScheduler.plan byteOffers "22222222-2222-4222-8222-222222222222"
      {oneByte with memory := 2}=.ok (byteNode .default) := by
    rw [AggregatingScheduler.plan,hsorted]
    decide +kernel
  have hbound : (byteNode ⟨"wasm","1"⟩).resources=(byteNode .default).resources := rfl
  have hplan : ExecutionPlan.fromNode (byteNode ⟨"wasm","1"⟩) ⟨"w",[]⟩=.ok (bytePlan "w") := by
    decide +kernel
  have hplan' : ExecutionPlan.fromNode (byteNode ⟨"wasm","1"⟩)
      ⟨"w:11111111-1111-4111-8111-111111111111",[]⟩=
      .ok (bytePlan "w:11111111-1111-4111-8111-111111111111") := by decide +kernel
  have hsendable : completingDispatcher.Sendable (bytePlan "w") ⟨"w",[]⟩ :=
    ⟨rfl,nofun,by decide +kernel⟩
  obtain ⟨requests,hrequests⟩ := exists_prepared.mpr hsendable
  have h := requestIds_identify
  refine ⟨requests,hrequests,(prepared_requests hrequests).length_eq.symm,
    (h.2 _ _ _ _ _ _ _ hscheduled hbound hplan _ _ _ hrequests).1,?_⟩
  intro unit unit' request request' hmade hmade' hid
  have hworkload := (h.1 _ _ _ _ _ _ hplan hplan' _ _ _ _ _ _ _ _ hmade hmade' hid).1
  exact absurd hworkload (by decide)

end Sample

end ExecutionDispatcher

end OpenHost
