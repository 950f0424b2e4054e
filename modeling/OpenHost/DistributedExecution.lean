import OpenHost.ParallelDispatch
import OpenHost.RuntimeTable
import OpenHost.VirtualMachine

/-!
# Machines that run on the runtimes of their participants

A dispatcher is a backend of virtual machines. When its transport reaches the
endpoints of the participants, a machine runs exactly if the runtime of every
participant runs its part. What one participant makes of its part is that
participant's verdict, and the verdicts alone decide how the execution ends.
-/

namespace OpenHost

/-- A dispatcher as the backend of a machine. -/
def ExecutionDispatcher.execute (d : ExecutionDispatcher) : ExecutionBackend F64 :=
  fun plan workload => do
    let receipt ← d.dispatch plan workload
    return ⟨receipt.workloadId,receipt.nodeId,receipt.dispatchedUnits⟩

/-- The transport that checks a request and acknowledges it. -/
def LoopbackTransport.dispatch (request : ExecutionRequest) :
    Outcome TransportError ExecutionResponse := Outcome.ofExcept do
  rejectIf (request.requestId="") TransportError.emptyRequestId
  rejectIf (request.workload.id="") TransportError.emptyWorkloadId
  rejectIf (request.nodeId.kind≠.logicalNode) TransportError.invalidNodeIdentity
  rejectIf (request.runtime.name="") TransportError.invalidRuntimeSpec
  rejectIf (request.runtime.version="") TransportError.invalidRuntimeSpec
  rejectIf (request.unit.participantId.kind≠.participant) TransportError.invalidParticipantIdentity
  rejectIf (request.endpoint.participantId≠request.unit.participantId)
    TransportError.invalidParticipantIdentity
  return ⟨request.requestId,.dispatched,none⟩

/-- What a participant makes of its part. -/
abbrev Verdict := Outcome Unit Unit

namespace ExecutionDispatcher

/-- Every unit's participant is listed with an endpoint. -/
def Covers (d : ExecutionDispatcher) (plan : ExecutionPlan F64) : Prop :=
  ∀ unit ∈ plan.units,∃ e ∈ d.endpoints,e.participantId=unit.participantId

/-- The transport takes a unit on, or panics over it, as the verdict on it says. -/
structure Follows (d : ExecutionDispatcher) (plan : ExecutionPlan F64) (workload : WorkItem)
    (verdict : ExecutionUnit F64 → Verdict) : Prop where
  /-- The units taken on are those with a good verdict. -/
  accepts : ∀ unit ∈ plan.units,∀ request,d.IsRequestFor plan workload unit request →
    (Accepted request (d.transport request) ↔ verdict unit=.ok ())
  /-- The calls that panic are those with a panic. -/
  panics : ∀ unit ∈ plan.units,∀ request,d.IsRequestFor plan workload unit request →
    (d.transport request=.panic ↔ verdict unit=.panic)

/-- The only error of making requests is that an endpoint is missing. -/
theorem requestsFor_error {d : ExecutionDispatcher} {plan : ExecutionPlan F64}
    {workload : WorkItem} {units : List (ExecutionUnit F64)} {e : ExecutionError}
    (h : d.requestsFor plan workload units=.error e) : e=.backendRejected := by
  induction units with
  | nil => cases h
  | cons unit rest ih =>
    rw [requestsFor] at h
    cases hr : d.requestFor plan workload unit with
    | error e' =>
      rw [hr] at h
      cases h
      rw [requestFor] at hr
      cases hf : d.endpoints.find? fun e => e.participantId=unit.participantId with
      | none =>
        rw [hf] at hr
        cases hr
        rfl
      | some endpoint =>
        rw [hf] at hr
        cases hr
    | ok request =>
      rw [hr] at h
      cases hrest : d.requestsFor plan workload rest with
      | error e' =>
        rw [hrest] at h
        cases h
        exact ih hrest
      | ok requests =>
        rw [hrest] at h
        cases h

/-- Reading a list by its indices gives the list. -/
theorem map_range_getD {α : Type} (l : List α) (a : α) :
    (List.range l.length).map (fun i => l[i]?.getD a)=l := by
  refine List.ext_getElem (by simp) fun i hi hi' => ?_
  rw [List.getElem_map,List.getElem_range,List.getElem?_eq_getElem hi']
  rfl

section Verdicts

variable {d : ExecutionDispatcher} {plan : ExecutionPlan F64} {workload : WorkItem}
  {verdict : ExecutionUnit F64 → Verdict}

/-- Calls that follow the verdicts are accepted if these are good, and panic
as often as these. -/
theorem Follows.calls (h : d.Follows plan workload verdict) {requests : List ExecutionRequest}
    {units : List (ExecutionUnit F64)} (hsub : ∀ unit ∈ units,unit ∈ plan.units)
    (hr : List.Forall₂ (d.IsRequestFor plan workload) units requests) :
    (List.Forall₂ Accepted requests (requests.map d.transport) ↔
      ∀ unit ∈ units,verdict unit=.ok ()) ∧
    (requests.map d.transport).countP (fun call => call=.panic)=
      units.countP fun unit => verdict unit=.panic := by
  induction hr with
  | nil => simp
  | @cons unit request units requests hone _ ih =>
    obtain ⟨hfirst,hrest⟩ := List.forall_mem_cons.mp hsub
    obtain ⟨haccept,hcount⟩ := ih hrest
    have ha := h.accepts unit hfirst request hone
    have hp := h.panics unit hfirst request hone
    refine ⟨?_,?_⟩
    · rw [List.map_cons,List.forall₂_cons,List.forall_mem_cons,ha,haccept]
    · rw [List.map_cons,List.countP_cons,List.countP_cons,hcount]
      simp only [hp]

/-- How the verdicts decide a dispatch. -/
theorem dispatch_verdicts (h : d.Follows plan workload verdict)
    (hid : plan.workloadId=workload.id) (hne : plan.units≠[]) :
    (¬d.Covers plan ∧ d.dispatch plan workload=.err .backendRejected) ∨
      d.Covers plan ∧
        (((∀ unit ∈ plan.units,verdict unit=.ok ()) ∧
            d.dispatch plan workload=.ok ⟨workload.id,plan.nodeId,plan.units.length⟩) ∨
          (¬(∀ unit ∈ plan.units,verdict unit=.ok ()) ∧
            plan.units.countP (fun unit => verdict unit=.panic) ≤ 1 ∧
            d.dispatch plan workload=.err .backendRejected) ∨
          (¬(∀ unit ∈ plan.units,verdict unit=.ok ()) ∧
            2 ≤ plan.units.countP (fun unit => verdict unit=.panic) ∧
            d.dispatch plan workload=.panic)) := by
  have hprepare : d.prepare plan workload=d.requestsFor plan workload plan.units := by
    rw [prepare,if_neg (not_not.mpr hid),if_neg (by simpa using hne)]
  rw [dispatch_eq,hprepare]
  cases hmake : d.requestsFor plan workload plan.units with
  | error e =>
    have hnot : ¬d.Covers plan := fun hc => by
      obtain ⟨requests,hok⟩ := exists_requests.mpr hc
      rw [hmake] at hok
      cases hok
    refine .inl ⟨hnot,?_⟩
    rw [requestsFor_error hmake]
    rfl
  | ok requests =>
    have hcovers : d.Covers plan := exists_requests.mp ⟨requests,hmake⟩
    have hrequests := prepared_requests (hprepare.trans hmake)
    obtain ⟨haccept,hcount⟩ := h.calls (fun _ hu => hu) hrequests
    let calls : ℕ → Outcome TransportError ExecutionResponse :=
      fun i => (requests.map d.transport)[i]?.getD .panic
    have hcalls : (List.range requests.length).map calls=requests.map d.transport := by
      have hm := map_range_getD (requests.map d.transport) .panic
      rwa [List.length_map] at hm
    have hpanics : (List.range requests.length).countP (fun i => calls i=.panic)=
        plan.units.countP fun unit => verdict unit=.panic := by
      rw [← hcount,← hcalls,List.countP_map]
      rfl
    have hcases := conclude_cases plan workload requests calls
    have hresult : ThreadScope.result (fun i => (calls i).ended) requests.length=
        ThreadScope.joinAll ((requests.map d.transport).map Outcome.ended) := by
      rw [← hcalls,List.map_map]
      rfl
    dsimp only at hcases
    rw [hpanics,hcalls,haccept,hresult,← hrequests.length_eq] at hcases
    refine .inr ⟨hcovers,?_⟩
    rw [Outcome.ofExcept_ok,Outcome.ok_bind]
    rcases hcases with ⟨_,hall,hr⟩|⟨hone,hall,hr⟩|⟨htwo,hall,hr⟩
    · exact .inl ⟨hall,hr⟩
    · exact .inr (.inl ⟨hall,hone,hr⟩)
    · exact .inr (.inr ⟨hall,htwo,hr⟩)

end Verdicts

end ExecutionDispatcher

open ExecutionDispatcher

/-- A request that names its work and is addressed to the participant of its unit. -/
structure ExecutionRequest.Addressed (request : ExecutionRequest) : Prop where
  /-- The request has a name. -/
  requestId : request.requestId≠""
  /-- The workload has a name. -/
  workloadId : request.workload.id≠""
  /-- It is for a node. -/
  nodeKind : request.nodeId.kind=.logicalNode
  /-- The runtime has a name. -/
  name : request.runtime.name≠""
  /-- The runtime has a version. -/
  version : request.runtime.version≠""
  /-- The unit is a participant's. -/
  participantKind : request.unit.participantId.kind=.participant
  /-- The endpoint is that participant's. -/
  endpoint : request.endpoint.participantId=request.unit.participantId
  /-- The part passes as a requirement. -/
  resources : request.unit.resources.validateRequirement=.ok ()

namespace ExecutionRequest.Addressed

variable {request : ExecutionRequest}

/-- The requests of a plan are addressed. -/
theorem of_plan [UuidCrate] {node : LogicalNode F64} {planned workload : WorkItem}
    {plan : ExecutionPlan F64} {d : ExecutionDispatcher} {unit : ExecutionUnit F64}
    (hplan : ExecutionPlan.fromNode node planned=.ok plan) (hid : plan.workloadId=workload.id)
    (hu : unit ∈ plan.units) (hr : d.IsRequestFor plan workload unit request) :
    request.Addressed := by
  obtain ⟨hw,_,_,hall,⟨hname,hversion⟩,rfl⟩ := ExecutionPlan.fromNode_eq_ok.mp hplan
  obtain ⟨endpoint,_,hep,rfl⟩ := requestFor_eq_ok (requestFor_iff.mpr hr)
  obtain ⟨allocation,hm,rfl⟩ := List.mem_map.mp hu
  have hnamed : workload.id++":"++allocation.participantId≠"" := by
    intro he
    have hl := congrArg String.length he
    simp at hl
  have hwork : workload.id≠"" := by
    rw [← hid]
    exact hw
  exact ⟨hnamed,hwork,rfl,hname,hversion,rfl,hep,(hall allocation hm).2⟩

/-- The process looks for the handler of the participant. -/
theorem route (h : request.Addressed) (handlers : EndpointTransport) :
    handlers.route request=
      okOr handlers.endpoints[request.unit.participantId.id]? .endpointUnavailable := by
  rw [EndpointTransport.route]
  simp only [rejectIf,if_neg h.requestId,if_neg h.workloadId,if_neg (not_not.mpr h.nodeKind),
    if_neg (not_or.mpr ⟨h.name,h.version⟩),if_neg (not_not.mpr h.participantKind),
    if_neg (not_not.mpr h.endpoint)]
  rfl

/-- Without a handler nothing is answered. -/
theorem dispatch_of_none (h : request.Addressed) {handlers : EndpointTransport}
    (hl : handlers.endpoints[request.unit.participantId.id]?=none) :
    handlers.dispatch request=.err .endpointUnavailable := by
  rw [EndpointTransport.dispatch,h.route,hl]
  rfl

/-- The participant of the unit is named by its text. -/
theorem participant_eq (h : request.Addressed) :
    (⟨request.unit.participantId.id,.participant⟩ : Identity)=request.unit.participantId := by
  rw [← h.participantKind]

/-- The executor of the participant's own endpoint decides over it. -/
theorem handle_own (h : request.Addressed) {endpoint : ParticipantExecutionEndpoint}
    (hid : endpoint.participantId=request.unit.participantId) :
    ParticipantExecutionEndpoint.validateRequest endpoint.participantId request=.ok () ∧
    (endpoint.handle request).mapErr (fun _ => TransportError.requestRejected)=
      match endpoint.executor request.unit.participantId request.nodeId
        request.runtime request.unit.resources request.workload with
      | .ok _ => .ok (.completed request.requestId)
      | .err _ => .err .requestRejected
      | .panic => .panic := by
  have hvalid : ParticipantExecutionEndpoint.validateRequest endpoint.participantId request=
      .ok () :=
    ParticipantExecutionEndpoint.validateRequest_eq_ok.mpr ⟨h.requestId,h.workloadId,h.nodeKind,
      h.name,h.version,h.participantKind,hid.symm,h.endpoint.trans hid.symm⟩
  refine ⟨hvalid,?_⟩
  rw [ParticipantExecutionEndpoint.handle_of_valid hvalid,hid]
  cases endpoint.executor request.unit.participantId request.nodeId request.runtime
    request.unit.resources request.workload <;> rfl

/-- With an endpoint its executor decides. -/
theorem dispatch_of_endpoint (h : request.Addressed) {handlers : EndpointTransport}
    {endpoint : ParticipantExecutionEndpoint}
    (hl : handlers.endpoints[request.unit.participantId.id]?=some endpoint.handler) :
    handlers.dispatch request=(endpoint.handle request).mapErr (fun _ => .requestRejected) ∧
      endpoint.participantId=request.unit.participantId := by
  have hkey : endpoint.participantId=⟨request.unit.participantId.id,.participant⟩ :=
    handlers.keyed _ _ hl
  refine ⟨?_,?_⟩
  · rw [EndpointTransport.dispatch,h.route,hl]
    rfl
  · exact hkey.trans h.participant_eq

end ExecutionRequest.Addressed

/-- What a participant with the table makes of its unit. -/
def RuntimeRegistry.verdict (registry : RuntimeRegistry) (nodeId : Identity)
    (runtime : RuntimeSpec) (workload : WorkItem) (unit : ExecutionUnit F64) : Verdict :=
  match registry.resolve runtime with
  | .error _ => .err ()
  | .ok runtime =>
    (runtime.run ⟨unit.participantId,nodeId,unit.resources⟩ workload).mapErr fun _ => ()

/-- The tables of the participants that are up, by the text of the participant. -/
abbrev Cluster := String → Option RuntimeRegistry

namespace Cluster

/-- The endpoint of a participant with a table. -/
def endpointOf (k : String) (registry : RuntimeRegistry) : ParticipantExecutionEndpoint :=
  ⟨⟨k,.participant⟩,registryRuntimeAdapter registry,rfl⟩

/-- The process has the endpoints of exactly the participants that are up. -/
def ServedBy (cluster : Cluster) (handlers : EndpointTransport) : Prop :=
  ∀ k : String,handlers.endpoints[k]?=(cluster k).map fun registry =>
    (endpointOf k registry).handler

/-- A participant runs its unit if it is up and its table has the runtime. -/
def verdict (cluster : Cluster) (nodeId : Identity) (runtime : RuntimeSpec) (workload : WorkItem)
    (unit : ExecutionUnit F64) : Verdict :=
  match cluster unit.participantId.id with
  | none => .err ()
  | some registry => registry.verdict nodeId runtime workload unit

/-- A response that completes a request is accepted by it. -/
theorem accepted_completed (request : ExecutionRequest) :
    Accepted request (.ok (.completed request.requestId)) := ⟨_,rfl,rfl,rfl⟩

/-- The endpoint of a participant takes its unit on, or panics over it, as its
table says. -/
theorem handled_verdict {request : ExecutionRequest} (h : request.Addressed)
    (registry : RuntimeRegistry) :
    let handled := ((endpointOf request.unit.participantId.id registry).handle request).mapErr
      fun _ => TransportError.requestRejected
    let verdict := registry.verdict request.nodeId request.runtime request.workload request.unit
    (Accepted request handled ↔ verdict=.ok ()) ∧ (handled=.panic ↔ verdict=.panic) := by
  have hid : (endpointOf request.unit.participantId.id registry).participantId=
      request.unit.participantId := h.participant_eq
  intro handled verdict
  have hhandled : handled=_ := (h.handle_own hid).2
  rw [hhandled]
  dsimp only [endpointOf,verdict,RuntimeRegistry.verdict]
  rw [registryRuntimeAdapter_of_valid h.participantKind h.nodeKind h.resources h.workloadId]
  cases registry.resolve request.runtime with
  | error e => exact ⟨iff_of_false (by rintro ⟨_,hr,_⟩; cases hr) nofun,iff_of_false nofun nofun⟩
  | ok runtime =>
    dsimp only
    cases runtime.run ⟨request.unit.participantId,request.nodeId,request.unit.resources⟩
        request.workload with
    | ok u => exact ⟨iff_of_true (accepted_completed request) rfl,iff_of_false nofun nofun⟩
    | err e => exact ⟨iff_of_false (by rintro ⟨_,hr,_⟩; cases hr) nofun,iff_of_false nofun nofun⟩
    | panic => exact ⟨iff_of_false (by rintro ⟨_,hr,_⟩; cases hr) nofun,iff_of_true rfl rfl⟩

/-- The process takes a unit on, or panics over it, as its participant does. -/
theorem call_verdict {cluster : Cluster} {handlers : EndpointTransport}
    (hserved : cluster.ServedBy handlers) {request : ExecutionRequest} (h : request.Addressed) :
    (Accepted request (handlers.dispatch request) ↔
      cluster.verdict request.nodeId request.runtime request.workload request.unit=.ok ()) ∧
    (handlers.dispatch request=.panic ↔
      cluster.verdict request.nodeId request.runtime request.workload request.unit=.panic) := by
  have hfiled := hserved request.unit.participantId.id
  rw [verdict]
  cases hc : cluster request.unit.participantId.id with
  | none =>
    rw [hc,Option.map_none] at hfiled
    rw [h.dispatch_of_none hfiled]
    exact ⟨iff_of_false (by rintro ⟨_,hr,_⟩; cases hr) nofun,iff_of_false nofun nofun⟩
  | some registry =>
    rw [hc,Option.map_some] at hfiled
    rw [(h.dispatch_of_endpoint hfiled).1]
    exact handled_verdict h registry

/-- A dispatcher in the process follows the verdicts of the participants. -/
theorem follows [UuidCrate] {cluster : Cluster} {handlers : EndpointTransport}
    (hserved : cluster.ServedBy handlers) {node : LogicalNode F64} {planned workload : WorkItem}
    {plan : ExecutionPlan F64} (hplan : ExecutionPlan.fromNode node planned=.ok plan)
    (hid : plan.workloadId=workload.id) (source : Option Identity)
    (listed : List ExecutionEndpoint) :
    Follows ⟨source,handlers.dispatch,listed⟩ plan workload
      (cluster.verdict plan.nodeId plan.runtime workload) := by
  have hcall : ∀ unit ∈ plan.units,∀ request,
      IsRequestFor ⟨source,handlers.dispatch,listed⟩ plan workload unit request →
        (Accepted request (handlers.dispatch request) ↔
          cluster.verdict plan.nodeId plan.runtime workload unit=.ok ()) ∧
        (handlers.dispatch request=.panic ↔
          cluster.verdict plan.nodeId plan.runtime workload unit=.panic) := by
    intro unit hu request hr
    have h := call_verdict hserved (.of_plan hplan hid hu hr)
    obtain ⟨endpoint,_,rfl⟩ := hr
    exact h
  exact ⟨fun unit hu request hr => (hcall unit hu request hr).1,
    fun unit hu request hr => (hcall unit hu request hr).2⟩

end Cluster

/-- The units of a plan of the node. -/
abbrev LogicalNode.units (node : LogicalNode F64) : List (ExecutionUnit F64) :=
  ExecutionPlan.unitsFor node.resources.allocations

/-- Every participant of the node is listed with an endpoint. -/
def LogicalNode.ListedIn (node : LogicalNode F64) (listed : List ExecutionEndpoint) : Prop :=
  ∀ unit ∈ node.units,∃ e ∈ listed,e.participantId=unit.participantId

namespace VirtualMachine

variable [UuidCrate] {vm : VirtualMachine F64} {node : LogicalNode F64} {workload : WorkItem}
  {now : SystemTime}

/-- The machine runs, its leases are active and the node is its own and plans. -/
def Ready (vm : VirtualMachine F64) (node : LogicalNode F64) (workload : WorkItem)
    (now : SystemTime) : Prop :=
  vm.state=.running ∧ (∀ l ∈ vm.leases,l.activeAt now=true) ∧
    ∃ plan,vm.executionPlan node workload=.ok plan

/-- A machine that is not ready refuses and stays as it is. -/
theorem executeAt_of_not_ready (h : ¬vm.Ready node workload now) :
    ∃ e,∀ backend : ExecutionBackend F64,
      vm.executeAt node workload backend now=⟨.err e,vm,none⟩ := by
  by_cases hs : vm.state=.running
  swap
  · exact ⟨_,fun backend => by rw [executeAt,if_pos hs]⟩
  by_cases hl : vm.leases.any (fun lease => !lease.activeAt now)=true
  · exact ⟨_,fun backend => by rw [executeAt,if_neg (not_not.mpr hs),if_pos hl]⟩
  cases hp : vm.executionPlan node workload with
  | error e =>
    exact ⟨_,fun backend => by rw [executeAt,if_neg (not_not.mpr hs),if_neg hl,hp]⟩
  | ok plan => exact (h ⟨hs,by simpa using hl,plan,hp⟩).elim

/-- A machine that is ready hands the plan of its node to the backend. -/
theorem executeAt_of_ready (h : vm.Ready node workload now) :
    ∃ plan,ExecutionPlan.fromNode node workload=.ok plan ∧ plan=⟨workload.id,
        ⟨node.id,.logicalNode⟩,node.runtime,ExecutionPlan.unitsFor node.resources.allocations⟩ ∧
      ∀ backend : ExecutionBackend F64,
        vm.executeAt node workload backend now=vm.runBackend backend plan workload := by
  obtain ⟨hs,hl,plan,hp⟩ := h
  have hplan := (executionPlan_eq_ok.mp hp).2.2.2.2
  refine ⟨plan,hplan,?_,fun backend => (executeAt_sent hs hl hp backend).1⟩
  exact (ExecutionPlan.fromNode_eq_ok.mp hplan).2.2.2.2.2

/-- A node that a plan is made from has a unit. -/
theorem units_ne_nil_of_fromNode {plan : ExecutionPlan F64}
    (h : ExecutionPlan.fromNode node workload=.ok plan) : node.units≠[] := by
  intro hunits
  exact (ExecutionPlan.fromNode_eq_ok.mp h).2.2.1 (List.map_eq_nil_iff.mp hunits)

/-- How an execution ends whose participants have these verdicts. -/
structure Decided (vm : VirtualMachine F64) (node : LogicalNode F64) (workload : WorkItem)
    (now : SystemTime) (listed : List ExecutionEndpoint) (verdict : ExecutionUnit F64 → Verdict)
    (run : Execution F64) : Prop where
  /-- It succeeds exactly if the machine is ready, every participant has an
  endpoint, and every verdict is good. -/
  succeeds : ∀ receipt,run.result=.ok receipt ↔ vm.Ready node workload now ∧
    node.ListedIn listed ∧ (∀ unit ∈ node.units,verdict unit=.ok ()) ∧
    receipt=⟨workload.id,⟨node.id,.logicalNode⟩,node.units.length⟩
  /-- It panics exactly if two verdicts are panics. -/
  panics : run.result=.panic ↔ vm.Ready node workload now ∧ node.ListedIn listed ∧
    2 ≤ node.units.countP fun unit => verdict unit=.panic
  /-- The machine changes in all other cases in which it was ready. -/
  changes : run.vm≠vm ↔ vm.Ready node workload now ∧ ¬(node.ListedIn listed ∧
    ((∀ unit ∈ node.units,verdict unit=.ok ()) ∨
      2 ≤ node.units.countP fun unit => verdict unit=.panic))
  /-- A machine that changes has failed, and the backend has refused it. -/
  failed : run.vm≠vm → run.vm={vm with state := .failed} ∧
    run.result=.err (.execution .backendRejected)

/-- The verdicts decide an execution through a dispatcher that follows them. -/
theorem executeAt_decided {d : ExecutionDispatcher} {verdict : ExecutionUnit F64 → Verdict}
    (hfollows : ∀ plan,ExecutionPlan.fromNode node workload=.ok plan →
      d.Follows plan workload verdict) :
    Decided vm node workload now d.endpoints verdict
      (vm.executeAt node workload (execute d) now) := by
  by_cases hready : vm.Ready node workload now
  swap
  · obtain ⟨e,he⟩ := executeAt_of_not_ready hready
    rw [he]
    exact ⟨fun receipt => iff_of_false (by simp) fun h => hready h.1,
      iff_of_false (by simp) fun h => hready h.1,
      iff_of_false (fun h => h rfl) fun h => hready h.1,fun h => (h rfl).elim⟩
  obtain ⟨plan,hplan,rfl,hsent⟩ := executeAt_of_ready hready
  have hne : node.units≠[] := units_ne_nil_of_fromNode hplan
  have hfew : (∀ unit ∈ node.units,verdict unit=.ok ()) →
      ¬2 ≤ node.units.countP fun unit => verdict unit=.panic := by
    intro hall htwo
    obtain ⟨unit,hu,hp⟩ := List.countP_pos_iff.mp (Nat.lt_of_lt_of_le Nat.zero_lt_two htwo)
    rw [decide_eq_true_eq,hall unit hu] at hp
    cases hp
  have hfailed : ({vm with state := .failed} : VirtualMachine F64)≠vm := by
    intro h
    have hs := congrArg VirtualMachine.state h
    rw [hready.1] at hs
    cases hs
  have hcases := dispatch_verdicts (hfollows _ hplan) rfl hne
  rw [hsent,runBackend,execute]
  rcases hcases with ⟨hnot,hd⟩|⟨hlisted,⟨hall,hd⟩|⟨hnot,hone,hd⟩|⟨hnot,htwo,hd⟩⟩
  all_goals rw [hd]
  · exact ⟨fun receipt => iff_of_false (by simp) fun h => hnot h.2.1,
      iff_of_false (by simp) fun h => hnot h.2.1,
      iff_of_true hfailed ⟨hready,fun h => hnot h.1⟩,fun _ => ⟨rfl,rfl⟩⟩
  · refine ⟨fun receipt => ?_,iff_of_false (by simp) fun h => hfew hall h.2.2,
      iff_of_false (fun h => h rfl) fun h => h.2 ⟨hlisted,.inl hall⟩,fun h => (h rfl).elim⟩
    constructor
    · intro h
      cases h
      exact ⟨hready,hlisted,hall,rfl⟩
    · rintro ⟨_,_,_,rfl⟩
      rfl
  · refine ⟨fun receipt => iff_of_false (by simp) fun h => hnot h.2.2.1,
      iff_of_false (by simp) fun h => (Nat.lt_succ_of_le hone).not_ge h.2.2,
      iff_of_true hfailed ⟨hready,fun h => ?_⟩,fun _ => ⟨rfl,rfl⟩⟩
    exact h.2.elim hnot (Nat.lt_succ_of_le hone).not_ge
  · exact ⟨fun receipt => iff_of_false (by simp) fun h => hnot h.2.2.1,
      iff_of_true rfl ⟨hready,hlisted,htwo⟩,
      iff_of_false (fun h => h rfl) fun h => h.2 ⟨hlisted,.inr htwo⟩,fun h => (h rfl).elim⟩

/-- A machine whose participants run workloads through their tables, in the
same process, succeeds exactly if it is ready, every participant has an
endpoint, and each is up, has the runtime and runs its own part with it. If
two runtimes panic, so does the execution; in all other cases a machine that
was ready has failed. -/
theorem executeAt_onRuntimes {cluster : Cluster} {handlers : EndpointTransport}
    (hserved : cluster.ServedBy handlers) (source : Option Identity)
    (listed : List ExecutionEndpoint) (vm : VirtualMachine F64) (node : LogicalNode F64)
    (workload : WorkItem) (now : SystemTime) :
    Decided vm node workload now listed
      (cluster.verdict ⟨node.id,.logicalNode⟩ node.runtime workload)
      (vm.executeAt node workload (execute ⟨source,handlers.dispatch,listed⟩) now) := by
  refine executeAt_decided (d:=⟨source,handlers.dispatch,listed⟩) fun plan hplan => ?_
  obtain ⟨_,_,_,_,_,rfl⟩ := ExecutionPlan.fromNode_eq_ok.mp hplan
  exact cluster.follows hserved hplan rfl source listed

end VirtualMachine

section Sample

/-- A runtime that accepts everything. -/
def recordingRuntime : Runtime := ⟨"recording",fun _ _ => .ok ()⟩

/-- A table with that runtime only. -/
def recordingTable : RuntimeRegistry :=
  RuntimeRegistry.empty.registering (sampleRequest.runtime,recordingRuntime)

/-- One participant is up, and has the table. -/
def recordingCluster : Cluster := fun k =>
  if k=sampleRequest.unit.participantId.id then some recordingTable else none

/-- The process with its endpoint. -/
def recordingHandlers : EndpointTransport where
  endpoints := (∅ : Std.ExtTreeMap String EndpointHandler).insert
    sampleRequest.unit.participantId.id
    (Cluster.endpointOf sampleRequest.unit.participantId.id recordingTable).handler
  keyed := by
    intro k h hh
    rcases OrderedMap.getElem?_insert_eq_some.mp hh with ⟨rfl,rfl⟩|⟨_,hh⟩
    · rfl
    · simp at hh

/-- A running machine of the sample node. -/
def recordingMachine : VirtualMachine F64 :=
  ⟨⟨"66666666-6666-4666-8666-666666666666",.virtualMachine⟩,sampleRequest.nodeId,
    ⟨sampleRequest.unit.resources,sampleRequest.runtime⟩,[],.running,⟨1,by decide⟩⟩

/-- The machine runs on the runtime of its participant. -/
theorem executeAt_onRuntimes_recordingMachine : letI := hyphenatedUuid
    (recordingMachine.executeAt servedNode sampleRequest.workload
      (execute ⟨none,recordingHandlers.dispatch,[sampleRequest.endpoint]⟩) ⟨2,by decide⟩).result=
        .ok ⟨"w",sampleRequest.nodeId,1⟩ := by
  let := hyphenatedUuid
  have hserved : recordingCluster.ServedBy recordingHandlers := by
    intro k
    have hfiled : recordingHandlers.endpoints[k]?=_ :=
      OrderedMap.getElem?_insert_eq _ _ _ _
    rw [hfiled,recordingCluster]
    by_cases hk : sampleRequest.unit.participantId.id=k
    · rw [if_pos hk,if_pos hk.symm,← hk]
      rfl
    · rw [if_neg hk,if_neg (Ne.symm hk)]
      simp
  have hready : recordingMachine.Ready servedNode sampleRequest.workload ⟨2,by decide⟩ :=
    ⟨rfl,by simp [recordingMachine],servedPlan,by decide +kernel⟩
  refine ((VirtualMachine.executeAt_onRuntimes hserved none [sampleRequest.endpoint]
    recordingMachine servedNode sampleRequest.workload ⟨2,by decide⟩).succeeds _).mpr
    ⟨hready,?_,?_,rfl⟩
  · intro unit hu
    obtain rfl := List.mem_singleton.mp hu
    exact ⟨_,List.mem_singleton_self _,rfl⟩
  · intro unit hu
    obtain rfl := List.mem_singleton.mp hu
    decide +kernel

end Sample

end OpenHost
