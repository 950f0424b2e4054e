import OpenHost.EndpointTable

/-!
# Dispatching while handlers are registered

The threads of one plan look their handlers up one by one, each at a moment of
its own, and handlers may be registered between any two of these moments. The
plan is nevertheless dispatched as if all threads had looked at the table at one
moment of the run: if every unit is taken on or two handlers panic, at its end,
and otherwise when the first unit was refused.
-/

namespace OpenHost

open ExecutionDispatcher Readers

namespace EndpointTransport

/-- Every handler of the first table is in the second one. -/
def Grown (transport later : EndpointTransport) : Prop :=
  ∀ (k : String) (h : EndpointHandler),transport.endpoints[k]?=some h → later.endpoints[k]?=some h

/-- A registration takes no handler away. -/
theorem grown_perform (transport : EndpointTransport) {call : HandlerCall}
    (hc : call.isUnregister=false) : transport.Grown (transport.perform call) := by
  intro k h hs
  rw [endpoints_perform]
  split
  · rw [Registration.getElem?_apply]
    split
    · cases call with
      | register endpoint =>
        rw [HandlerCall.command,Registration.Command.cell,hs]
        rfl
      | unregister participantId => cases hc
    · exact hs
  · exact hs

/-- A request that found its handler finds the same one in a table that has
grown. -/
theorem dispatch_of_grown {transport later : EndpointTransport} (hg : transport.Grown later)
    {request : ExecutionRequest} (hne : transport.dispatch request≠.err .endpointUnavailable) :
    later.dispatch request=transport.dispatch request := by
  rw [dispatch,dispatch,route_eq,route_eq]
  cases hc : check request with
  | error e => rfl
  | ok u =>
    cases hl : transport.endpoints[request.unit.participantId.id]? with
    | none =>
      refine (hne ?_).elim
      rw [dispatch,route_eq,hc,hl]
      rfl
    | some handler => rw [hg _ _ hl]

/-- Tables to which handlers are registered grow, and every answer lasts but
that there is no handler. -/
theorem growing : Growing perform (fun request transport => dispatch transport request)
    (fun call => call.isUnregister=false) Grown
    (fun _ call => call≠.err .endpointUnavailable) Accepted where
  refl _ _ _ h := h
  trans _ _ _ hab hbc k h hs := hbc k h (hab k h hs)
  grows transport _ hc := grown_perform transport hc
  stays _ _ _ hg hl := dispatch_of_grown hg hl
  lasts request call hgood he := by
    obtain ⟨response,hok,_⟩ := hgood
    rw [he] at hok
    cases hok

end EndpointTransport

section Dispatch

variable {source : Option Identity} {listed : List ExecutionEndpoint} {plan : ExecutionPlan F64}
  {workload : WorkItem} {requests : List ExecutionRequest}

/-- Which requests are made does not depend on how they are sent. -/
theorem prepare_transport (t t' : Transport) :
    prepare ⟨source,t,listed⟩ plan workload=prepare ⟨source,t',listed⟩ plan workload := by
  rw [prepare,prepare,requestsFor_transport source listed t t']

/-- A dispatch concludes from the answers of its transport. -/
theorem dispatch_eq_conclude {transport : Transport}
    (hp : prepare ⟨source,transport,listed⟩ plan workload=.ok requests)
    {answers : ℕ → Outcome TransportError ExecutionResponse}
    (ha : ∀ i request,requests[i]?=some request → answers i=transport request) :
    dispatch ⟨source,transport,listed⟩ plan workload=conclude plan workload requests
      (ThreadScope.result (fun i => (answers i).ended) requests.length) := by
  have hmap : (List.range requests.length).map answers=requests.map transport := by
    refine List.ext_getElem (by simp) fun i hi hi' => ?_
    rw [List.length_map] at hi'
    rw [List.getElem_map,List.getElem_range,List.getElem_map]
    exact ha i _ (List.getElem?_eq_getElem hi')
  rw [dispatch_eq,hp,Outcome.ofExcept_ok,Outcome.ok_bind,← hmap,List.map_map]
  rfl

/-- All calls are accepted exactly if each is by the request of its thread. -/
theorem forall_accepted_iff {calls : ℕ → Outcome TransportError ExecutionResponse} :
    List.Forall₂ Accepted requests ((List.range requests.length).map calls) ↔
      ∀ i request,requests[i]?=some request → Accepted request (calls i) := by
  rw [List.forall₂_iff_get]
  constructor
  · rintro ⟨_,hall⟩ i request hr
    obtain ⟨hi,rfl⟩ := List.getElem?_eq_some_iff.mp hr
    have hcall := hall i hi (by simpa using hi)
    simpa using hcall
  · intro hall
    refine ⟨by simp,fun i hi hi' => ?_⟩
    have hcall := hall i _ (List.getElem?_eq_getElem hi)
    simpa using hcall

/-- What the dispatch concludes from calls that end as given. -/
def concluded (plan : ExecutionPlan F64) (workload : WorkItem) (requests : List ExecutionRequest)
    (calls : ℕ → Outcome TransportError ExecutionResponse) : Outcome ExecutionError DispatchReceipt :=
  conclude plan workload requests (ThreadScope.result (fun i => (calls i).ended) requests.length)

/-- Calls that panic where others do panic at most as often. -/
theorem panics_le {calls others : ℕ → Outcome TransportError ExecutionResponse}
    (h : ∀ i request,requests[i]?=some request → calls i=.panic → others i=.panic) :
    (List.range requests.length).countP (fun i => calls i=.panic) ≤
      (List.range requests.length).countP fun i => others i=.panic := by
  refine List.countP_mono_left fun i hi hp => ?_
  have hget := List.getElem?_eq_getElem (List.mem_range.mp hi)
  exact decide_eq_true (h i _ hget (of_decide_eq_true hp))

/-- The same calls are concluded alike. -/
theorem concluded_congr {calls others : ℕ → Outcome TransportError ExecutionResponse}
    (h : ∀ i request,requests[i]?=some request → calls i=others i) :
    concluded plan workload requests calls=concluded plan workload requests others := by
  have hmap : (List.range requests.length).map (fun i => (calls i).ended)=
      (List.range requests.length).map fun i => (others i).ended := by
    refine List.map_congr_left fun i hi => ?_
    rw [h i _ (List.getElem?_eq_getElem (List.mem_range.mp hi))]
  rw [concluded,concluded,ThreadScope.result,ThreadScope.result,hmap]

/-- A dispatch that is refused is also refused with calls that panic at most
where its own do, if one of them is not accepted. -/
theorem concluded_of_fewer {calls others : ℕ → Outcome TransportError ExecutionResponse}
    (herr : ∃ e,concluded plan workload requests calls=.err e) {i : ℕ} {request : ExecutionRequest}
    (hi : requests[i]?=some request) (hbad : ¬Accepted request (others i))
    (hfew : ∀ j request,requests[j]?=some request → others j=.panic → calls j=.panic) :
    concluded plan workload requests others=concluded plan workload requests calls := by
  have hle := panics_le hfew
  obtain ⟨e,he⟩ := herr
  rw [concluded] at he
  rcases conclude_cases plan workload requests calls with ⟨_,_,hok⟩|⟨hone,_,herr⟩|⟨_,_,hpanic⟩
  · rw [hok] at he
    cases he
  · rcases conclude_cases plan workload requests others with ⟨_,hall,_⟩|⟨_,_,hother⟩|⟨htwo,_,_⟩
    · exact (hbad (forall_accepted_iff.mp hall i request hi)).elim
    · rw [concluded,concluded,hother,herr]
    · omega
  · rw [hpanic] at he
    cases he

/-- A dispatch that panics also panics with calls that panic at least where its
own do. -/
theorem concluded_of_more {calls others : ℕ → Outcome TransportError ExecutionResponse}
    (hpanic : concluded plan workload requests calls=.panic)
    (hmore : ∀ j request,requests[j]?=some request → calls j=.panic → others j=.panic) :
    concluded plan workload requests others=.panic := by
  have hle := panics_le hmore
  rw [concluded] at hpanic
  rcases conclude_cases plan workload requests calls with ⟨_,_,hok⟩|⟨_,_,herr⟩|⟨htwo,_,_⟩
  · rw [hok] at hpanic
    cases hpanic
  · rw [herr] at hpanic
    cases hpanic
  · rcases conclude_cases plan workload requests others with ⟨hzero,_,_⟩|⟨hone,_,_⟩|⟨_,_,hother⟩
    · omega
    · omega
    · exact hother

/-- A dispatch succeeds exactly if all its calls are accepted. -/
theorem concluded_eq_ok_iff {calls : ℕ → Outcome TransportError ExecutionResponse}
    {receipt : DispatchReceipt} : concluded plan workload requests calls=.ok receipt ↔
      receipt=⟨workload.id,plan.nodeId,requests.length⟩ ∧
        ∀ i request,requests[i]?=some request → Accepted request (calls i) := by
  rw [concluded,← forall_accepted_iff]
  rcases conclude_cases plan workload requests calls with ⟨_,hall,hok⟩|⟨_,hno,herr⟩|⟨_,hno,hpanic⟩
  · rw [hok,Outcome.ok.injEq,and_iff_left hall,eq_comm]
  · rw [herr]
    exact iff_of_false nofun fun h => hno h.2
  · rw [hpanic]
    exact iff_of_false nofun fun h => hno h.2

/-- A dispatch none of whose calls panics is rejected or succeeds. -/
theorem concluded_of_returning {calls : ℕ → Outcome TransportError ExecutionResponse}
    (h : ∀ i request,requests[i]?=some request → calls i≠.panic) :
    concluded plan workload requests calls=.err .backendRejected ∨
      concluded plan workload requests calls=.ok ⟨workload.id,plan.nodeId,requests.length⟩ := by
  have hzero : (List.range requests.length).countP (fun i => calls i=.panic)=0 := by
    rw [List.countP_eq_zero]
    intro i hi
    rw [decide_eq_true_eq]
    exact h i _ (List.getElem?_eq_getElem (List.mem_range.mp hi))
  rw [concluded]
  rcases conclude_cases plan workload requests calls with ⟨_,_,hok⟩|⟨_,_,herr⟩|⟨htwo,_,_⟩
  · exact .inr hok
  · exact .inl herr
  · omega

/-- A dispatch whose calls are all accepted does not fail. -/
theorem concluded_ne_err {calls : ℕ → Outcome TransportError ExecutionResponse}
    (hall : ∀ i request,requests[i]?=some request → Accepted request (calls i))
    (e : ExecutionError) : concluded plan workload requests calls≠.err e := by
  intro he
  rw [concluded] at he
  rcases conclude_cases plan workload requests calls with ⟨_,_,hok⟩|⟨_,hno,_⟩|⟨_,_,hpanic⟩
  · rw [hok] at he
    cases he
  · exact hno (forall_accepted_iff.mpr hall)
  · rw [hpanic] at he
    cases he

/-- A run of threads that look their handlers up, while handlers are registered
and none is taken away. -/
abbrev RegisteringRun := Run EndpointTransport.perform
  (fun (request : ExecutionRequest) (handlers : EndpointTransport) => handlers.dispatch request)
  fun call => call.isUnregister=false

/-- Such a run passes the moment. -/
abbrev RegisteringPasses := Passes EndpointTransport.perform
  (fun (request : ExecutionRequest) (handlers : EndpointTransport) => handlers.dispatch request)
  fun call => call.isUnregister=false

/-- A plan that is dispatched while handlers are registered, but none is taken
away, has the result that it has when all its threads look at the table at one
moment of the run. -/
theorem dispatch_while_registering {handlers : EndpointTransport}
    {events : List (Readers.Event HandlerCall)}
    {last : Reading EndpointTransport ExecutionRequest (Outcome TransportError ExecutionResponse)}
    (hp : prepare ⟨source,handlers.dispatch,listed⟩ plan workload=.ok requests)
    (hrun : RegisteringRun events (start handlers requests) last)
    {calls : ℕ → Outcome TransportError ExecutionResponse}
    (hcalls : ∀ i request,requests[i]?=some request → last.Answered i request (calls i))
    {sent : List ExecutionRequest} {result : Outcome ExecutionError DispatchReceipt}
    (hd : Dispatches ⟨source,handlers.dispatch,listed⟩ plan workload calls sent result) :
    ∃ moment,RegisteringPasses events (start handlers requests) last moment ∧
      result=dispatch ⟨source,moment.shared.dispatch,listed⟩ plan workload := by
  have hresult : result=concluded plan workload requests calls := by
    rw [hd.eq_settled,settled,hp]
    rfl
  let answers (transport : EndpointTransport) (i : ℕ) :
      Outcome TransportError ExecutionResponse := (requests[i]?).elim .panic transport.dispatch
  have hanswers (transport : EndpointTransport) : ∀ i request,requests[i]?=some request →
      answers transport i=transport.dispatch request := by
    intro i request hr
    simp only [answers,hr,Option.elim_some]
  have hdispatch (transport : EndpointTransport) :
      dispatch ⟨source,transport.dispatch,listed⟩ plan workload=
        concluded plan workload requests (answers transport) :=
    dispatch_eq_conclude ((prepare_transport transport.dispatch handlers.dispatch).trans hp)
      (hanswers transport)
  have hlasting : ∀ i request,requests[i]?=some request → calls i≠.err .endpointUnavailable →
      answers last.shared i=calls i := fun i request hr hne =>
    (hanswers _ i request hr).trans
      (EndpointTransport.growing.answer_of_lasting hrun (hcalls i request hr) hne)
  rw [hresult]
  simp only [hdispatch]
  cases hc : concluded plan workload requests calls with
  | ok receipt =>
    have hsame : concluded plan workload requests (answers last.shared)=
        concluded plan workload requests calls := by
      refine concluded_congr fun i request hr => ?_
      have haccepted := (concluded_eq_ok_iff.mp hc).2 i request hr
      exact hlasting i request hr (EndpointTransport.growing.lasts request _ haccepted)
    exact ⟨last,hrun.passes_end,(hsame.trans hc).symm⟩
  | panic =>
    refine ⟨last,hrun.passes_end,(concluded_of_more hc fun j request hr hj => ?_).symm⟩
    rw [hlasting j request hr (by simp [hj]),hj]
  | err e =>
    rcases EndpointTransport.growing.explained hrun with hgood|⟨u,i,request,hu,hi,hbad,hsame⟩
    · have hall : ∀ i request,requests[i]?=some request → Accepted request (calls i) :=
        fun i request hr => hgood i request _ (hcalls i request hr)
      exact (concluded_ne_err hall e hc).elim
    · have hr := question_of_waits hi
      refine ⟨u,hu,?_⟩
      rw [← hc]
      refine (concluded_of_fewer ⟨e,hc⟩ hr (by rw [hanswers _ i request hr]; exact hbad)
        fun j other hj hpanic => ?_).symm
      rw [hanswers _ j other hj] at hpanic
      rw [hsame j other _ (hcalls j other hj) (by simp [hpanic]),hpanic]

end Dispatch

section Sample

/-- The requests of the plan with two units. -/
def twoUnitRequests : List ExecutionRequest :=
  [{sampleRequest with requestId := "w:"++sampleRequest.unit.participantId.id},
    {sampleRequest with
      requestId := "w:"++secondUnit.participantId.id
      unit := secondUnit
      endpoint := ⟨secondUnit.participantId,"b:1"⟩}]

/-- A call that registers an endpoint which accepts everything. -/
def registerNoop (k : String) : HandlerCall :=
  .register (ParticipantExecutionEndpoint.handler ⟨⟨k,.participant⟩,noopParticipantExecutor,
    (rfl : Kind.participant=Kind.participant)⟩)

/-- Each thread looks its handler up right behind its registration. -/
def comingEvents : List (Readers.Event HandlerCall) :=
  [.change (registerNoop sampleRequest.unit.participantId.id),.ask 0,
    .change (registerNoop secondUnit.participantId.id),.ask 1]

/-- The requests are those that the dispatcher prepares. -/
theorem prepare_twoUnitPlan : (twoUnitDispatcher EndpointTransport.new.dispatch).prepare twoUnitPlan
    sampleRequest.workload=.ok twoUnitRequests := by
  decide +kernel

/-- The end of the run. -/
def comingEnd :
    Reading EndpointTransport ExecutionRequest (Outcome TransportError ExecutionResponse) where
  shared := EndpointTransport.new.performAll [registerNoop sampleRequest.unit.participantId.id,
    registerNoop secondUnit.participantId.id]
  readers := [
    (twoUnitRequests.head nofun,some ((EndpointTransport.new.perform
      (registerNoop sampleRequest.unit.participantId.id)).dispatch (twoUnitRequests.head nofun))),
    (twoUnitRequests.getLast nofun,some ((EndpointTransport.new.performAll
      [registerNoop sampleRequest.unit.participantId.id,registerNoop secondUnit.participantId.id]
        ).dispatch (twoUnitRequests.getLast nofun)))]

/-- The run behind which both units were answered. -/
theorem run_comingEvents :
    RegisteringRun comingEvents (start EndpointTransport.new twoUnitRequests) comingEnd :=
  ⟨_,fun _ h => by cases h; rfl,.change _,_,nofun,.ask rfl,_,fun _ h => by cases h; rfl,.change _,
    _,nofun,.ask rfl,rfl⟩

/-- The plan is dispatched as at one moment of the run. -/
theorem dispatch_while_registering_twoUnits : ∃ sent result,
    (twoUnitDispatcher EndpointTransport.new.dispatch).Dispatches twoUnitPlan
      sampleRequest.workload (fun i => (comingEnd.readers[i]?.bind Prod.snd).getD .panic) sent
      result ∧
    ∃ moment,RegisteringPasses comingEvents (start EndpointTransport.new twoUnitRequests)
        comingEnd moment ∧
      result=(twoUnitDispatcher moment.shared.dispatch).dispatch twoUnitPlan
        sampleRequest.workload := by
  obtain ⟨sent,result,hd⟩ := exists_dispatches (twoUnitDispatcher EndpointTransport.new.dispatch)
    twoUnitPlan sampleRequest.workload fun i => (comingEnd.readers[i]?.bind Prod.snd).getD .panic
  refine ⟨sent,result,hd,dispatch_while_registering prepare_twoUnitPlan run_comingEvents ?_ hd⟩
  intro i request hr
  match i with
  | 0 =>
    cases hr
    rfl
  | 1 =>
    cases hr
    rfl
  | i+2 => cases hr

end Sample

end OpenHost
