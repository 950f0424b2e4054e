import OpenHost.DispatchRefinement
import OpenHost.ThreadScope

/-!
# Dispatching over threads

A dispatch first makes a request for every unit, and only then opens a scope
with one thread for each request. The threads call the transport in any
order and end in any order; each call may return a response, return an error
or panic. What was called and what the dispatch returns is described here
for every run of the scope, so that nothing depends on an order that the
program does not fix.
-/

namespace OpenHost

open ThreadScope

/-- How a thread ends whose call ends in this way. -/
def Outcome.ended {ε α : Type} : Outcome ε α → Ended (Except ε α)
  | .ok a => .returned (.ok a)
  | .err e => .returned (.error e)
  | .panic => .panicked

/-- Only a call that panics makes its thread panic. -/
theorem Outcome.isPanicked_ended {ε α : Type} {x : Outcome ε α} :
    x.ended.isPanicked=true ↔ x=.panic := by
  cases x <;> simp [ended,Ended.isPanicked]

/-- A call that returned has returned its result. -/
theorem Outcome.ended_eq_returned {ε α : Type} {x : Outcome ε α} {r : Except ε α} :
    x.ended=.returned r ↔ x=.ofExcept r := by
  cases x <;> cases r <;> simp [ended,ofExcept]

namespace ExecutionDispatcher

/-- The checks of a dispatch and its requests, made before anything is sent. -/
def prepare (d : ExecutionDispatcher) (plan : ExecutionPlan F64) (workload : WorkItem) :
    Except ExecutionError (List ExecutionRequest) :=
  if plan.workloadId≠workload.id then .error .workloadMismatch
  else if plan.units.isEmpty then .error .emptyPlan
  else d.requestsFor plan workload plan.units

/-- What the dispatch makes of the scope's result. -/
def conclude (plan : ExecutionPlan F64) (workload : WorkItem) (requests : List ExecutionRequest) :
    Joined (Except TransportError ExecutionResponse) → Outcome ExecutionError DispatchReceipt
  | .panicked => .panic
  | .refused => .err .backendRejected
  | .values responses => do
    let dispatched ← countDispatched (requests.zip responses) 0
    return ⟨workload.id,plan.nodeId,dispatched⟩

/-- A dispatch whose calls end as given: the requests that were sent, in the
order of the calls, and the result. -/
inductive Dispatches (d : ExecutionDispatcher) (plan : ExecutionPlan F64) (workload : WorkItem)
    (calls : ℕ → Outcome TransportError ExecutionResponse) :
    List ExecutionRequest → Outcome ExecutionError DispatchReceipt → Prop where
  /-- A dispatch that is refused before the scope sends nothing. -/
  | refused {e} : d.prepare plan workload=.error e → Dispatches d plan workload calls [] (.err e)
  /-- Thread `i` of the scope sends request `i`. -/
  | threaded {requests s r} : d.prepare plan workload=.ok requests →
    Reaches (fun i => (calls i).ended) (start requests.length) s → s.main=.finished r →
    Dispatches d plan workload calls (s.begun.filterMap fun i => requests[i]?)
      (conclude plan workload requests r)

/-- What a dispatch returns whose calls end as given. -/
def settled (d : ExecutionDispatcher) (plan : ExecutionPlan F64) (workload : WorkItem)
    (calls : ℕ → Outcome TransportError ExecutionResponse) :
    Outcome ExecutionError DispatchReceipt :=
  match d.prepare plan workload with
  | .error e => .err e
  | .ok requests => conclude plan workload requests
      (ThreadScope.result (fun i => (calls i).ended) requests.length)

/-- The plan is for the workload, has units, and there is an endpoint for the
participant of each. -/
def Sendable (d : ExecutionDispatcher) (plan : ExecutionPlan F64) (workload : WorkItem) : Prop :=
  plan.workloadId=workload.id ∧ plan.units≠[] ∧
    ∀ unit ∈ plan.units,∃ e ∈ d.endpoints,e.participantId=unit.participantId

/-- The request carries the unit, the node and the runtime of the plan, the
workload, the caller and the first endpoint of the unit's participant. -/
def IsRequestFor (d : ExecutionDispatcher) (plan : ExecutionPlan F64) (workload : WorkItem)
    (unit : ExecutionUnit F64) (request : ExecutionRequest) : Prop :=
  ∃ endpoint,d.endpoints.find? (fun e => e.participantId=unit.participantId)=some endpoint ∧
    request=⟨workload.id++":"++unit.participantId.id,d.sourceParticipantId,workload,plan.nodeId,
      plan.runtime,unit,endpoint⟩

section Requests

variable {d : ExecutionDispatcher} {plan : ExecutionPlan F64} {workload : WorkItem}

/-- The request for a unit, if there is one. -/
theorem requestFor_iff {unit : ExecutionUnit F64} {request : ExecutionRequest} :
    d.requestFor plan workload unit=.ok request ↔ d.IsRequestFor plan workload unit request := by
  rw [requestFor,Checks.bind_eq_ok]
  refine exists_congr fun endpoint => ?_
  rw [Checks.okOr_eq_ok,Except.ok.injEq,eq_comm (a:=request)]

/-- There is a request for every unit exactly when each has an endpoint. -/
theorem exists_requests {units : List (ExecutionUnit F64)} :
    (∃ requests,d.requestsFor plan workload units=.ok requests) ↔
      ∀ unit ∈ units,∃ e ∈ d.endpoints,e.participantId=unit.participantId := by
  simp only [requestsFor_eq_ok,requestFor_iff]
  induction units with
  | nil => simp
  | cons unit rest ih =>
    rw [List.forall_mem_cons,← ih]
    have hfind : (∃ request,d.IsRequestFor plan workload unit request) ↔
        ∃ e ∈ d.endpoints,e.participantId=unit.participantId := by
      have hsome : (d.endpoints.find? fun e => decide
          (e.participantId=unit.participantId)).isSome=true ↔ _ := List.find?_isSome
      simp only [decide_eq_true_eq] at hsome
      rw [← hsome,Option.isSome_iff_exists]
      exact ⟨fun ⟨_,e,he,_⟩ => ⟨e,he⟩,fun ⟨e,he⟩ => ⟨_,e,he,rfl⟩⟩
    rw [← hfind]
    constructor
    · rintro ⟨_,h⟩
      cases h with
      | cons hr hrest => exact ⟨⟨_,hr⟩,_,hrest⟩
    · rintro ⟨⟨request,hr⟩,requests,hrest⟩
      exact ⟨_,.cons hr hrest⟩

/-- The checks pass exactly for a plan that can be sent. -/
theorem exists_prepared :
    (∃ requests,d.prepare plan workload=.ok requests) ↔ d.Sendable plan workload := by
  rw [prepare]
  by_cases hid : plan.workloadId=workload.id
  swap
  · rw [if_pos hid]
    exact iff_of_false (fun ⟨_,h⟩ => by cases h) fun h => hid h.1
  rw [if_neg (not_not.mpr hid)]
  by_cases hne : plan.units=[]
  · rw [if_pos (by rw [hne]; rfl)]
    exact iff_of_false (fun ⟨_,h⟩ => by cases h) fun h => h.2.1 hne
  rw [if_neg (by simpa using hne),exists_requests]
  exact ⟨fun h => ⟨hid,hne,h⟩,fun h => h.2.2⟩

/-- There is one request for each unit, in order. -/
theorem prepared_requests {requests : List ExecutionRequest}
    (h : d.prepare plan workload=.ok requests) :
    List.Forall₂ (d.IsRequestFor plan workload) plan.units requests := by
  rw [prepare] at h
  split at h
  · cases h
  split at h
  · cases h
  exact (requestsFor_eq_ok.mp h).imp fun _ _ hr => requestFor_iff.mp hr

/-- A unit has one request. -/
theorem IsRequestFor.unique {unit : ExecutionUnit F64} {request request' : ExecutionRequest}
    (h : d.IsRequestFor plan workload unit request)
    (h' : d.IsRequestFor plan workload unit request') : request=request' := by
  obtain ⟨endpoint,he,rfl⟩ := h
  obtain ⟨endpoint',he',rfl⟩ := h'
  rw [he,Option.some.injEq] at he'
  rw [he']

/-- Every call was accepted by the request of its thread exactly when it was
by the request of its unit. -/
theorem accepted_iff_units {units : List (ExecutionUnit F64)} {requests : List ExecutionRequest}
    (h : List.Forall₂ (d.IsRequestFor plan workload) units requests)
    (calls : ℕ → Outcome TransportError ExecutionResponse) :
    List.Forall₂ Accepted requests ((List.range requests.length).map calls) ↔
      ∀ i unit request,units[i]?=some unit → d.IsRequestFor plan workload unit request →
        Accepted request (calls i) := by
  induction h generalizing calls with
  | nil => simp
  | @cons unit request units requests hr _ ih =>
    rw [List.length_cons,List.range_succ_eq_map,List.map_cons,List.map_map,List.forall₂_cons,
      ih (calls∘Nat.succ)]
    constructor
    · rintro ⟨hfirst,hrest⟩ i u r hu hur
      cases i with
      | zero =>
        rw [List.getElem?_cons_zero,Option.some.injEq] at hu
        subst hu
        exact hr.unique hur ▸ hfirst
      | succ i => exact hrest i u r hu hur
    · intro hall
      exact ⟨hall 0 unit request rfl hr,fun i u r hu hur => hall (i+1) u r hu hur⟩

end Requests

section Runs

variable {d : ExecutionDispatcher} {plan : ExecutionPlan F64} {workload : WorkItem}
  {calls : ℕ → Outcome TransportError ExecutionResponse}

/-- Indices of a list, each read from it, are the list. -/
theorem filterMap_range (requests : List ExecutionRequest) :
    (List.range requests.length).filterMap (fun i => requests[i]?)=requests := by
  induction requests with
  | nil => rfl
  | cons request rest ih =>
    rw [List.length_cons,List.range_succ_eq_map,List.filterMap_cons,List.filterMap_map]
    exact congrArg (request::·) ih

/-- What a dispatch returns does not depend on the order of the calls. -/
theorem Dispatches.eq_settled {sent : List ExecutionRequest}
    {result : Outcome ExecutionError DispatchReceipt}
    (h : d.Dispatches plan workload calls sent result) :
    result=d.settled plan workload calls := by
  rw [settled]
  cases h with
  | refused he => rw [he]
  | threaded hr hreach hs =>
    obtain ⟨_,rfl⟩ := finished_of_reaches hreach hs
    rw [hr]

/-- Nothing is sent of a plan that cannot be sent, and otherwise the request
of each unit once. -/
theorem Dispatches.sent {sent : List ExecutionRequest}
    {result : Outcome ExecutionError DispatchReceipt}
    (h : d.Dispatches plan workload calls sent result) :
    (¬d.Sendable plan workload → sent=[]) ∧
      (d.Sendable plan workload →
        ∃ requests,List.Forall₂ (d.IsRequestFor plan workload) plan.units requests ∧
          sent.Perm requests) := by
  rw [← exists_prepared]
  cases h with
  | refused he =>
    refine ⟨fun _ => rfl,fun ⟨requests,hr⟩ => ?_⟩
    rw [he] at hr
    cases hr
  | @threaded requests s r hr hreach hs =>
    refine ⟨fun hn => (hn ⟨requests,hr⟩).elim,fun _ => ⟨requests,prepared_requests hr,?_⟩⟩
    have hsent := (finished_of_reaches hreach hs).1.filterMap fun i => requests[i]?
    rwa [filterMap_range] at hsent

/-- Whatever is dispatched and however the calls end, the dispatch ends. -/
theorem exists_dispatches (d : ExecutionDispatcher) (plan : ExecutionPlan F64)
    (workload : WorkItem) (calls : ℕ → Outcome TransportError ExecutionResponse) :
    ∃ sent result,d.Dispatches plan workload calls sent result := by
  cases hp : d.prepare plan workload with
  | error e => exact ⟨_,_,.refused hp⟩
  | ok requests =>
    obtain ⟨s,r,hreach,hs⟩ :=
      exists_finished (inv_start (fun i => (calls i).ended) requests.length)
    exact ⟨_,_,.threaded hp hreach hs⟩

/-- Threads that returned were calls that returned. -/
theorem calls_of_returned {calls : List (Outcome TransportError ExecutionResponse)}
    {results : List (Except TransportError ExecutionResponse)}
    (h : calls.map Outcome.ended=results.map .returned) : calls=results.map Outcome.ofExcept := by
  induction calls generalizing results with
  | nil =>
    cases results with
    | nil => rfl
    | cons r rest => cases h
  | cons call rest ih =>
    cases results with
    | nil => cases h
    | cons r results =>
      rw [List.map_cons,List.map_cons,List.cons.injEq] at h
      rw [List.map_cons,Outcome.ended_eq_returned.mp h.1,ih h.2]

/-- How the calls decide the result: a second panic is passed on, a first one
is an error, and without a panic the responses decide. -/
theorem conclude_cases (plan : ExecutionPlan F64) (workload : WorkItem)
    (requests : List ExecutionRequest) (calls : ℕ → Outcome TransportError ExecutionResponse) :
    let panics := (List.range requests.length).countP fun i => calls i=.panic
    let ended := conclude plan workload requests
      (ThreadScope.result (fun i => (calls i).ended) requests.length)
    (panics=0 ∧ List.Forall₂ Accepted requests ((List.range requests.length).map calls) ∧
        ended=.ok ⟨workload.id,plan.nodeId,requests.length⟩) ∨
      (panics ≤ 1 ∧ ¬List.Forall₂ Accepted requests ((List.range requests.length).map calls) ∧
        ended=.err .backendRejected) ∨
      (2 ≤ panics ∧ ¬List.Forall₂ Accepted requests ((List.range requests.length).map calls) ∧
        ended=.panic) := by
  intro panics ended
  have hcount : ((List.range requests.length).map fun i => (calls i).ended).countP
      Ended.isPanicked=panics := by
    rw [List.countP_map]
    refine List.countP_congr fun i _ => ?_
    rw [Function.comp_apply,Outcome.isPanicked_ended,decide_eq_true_eq]
  have hnone : 0<panics →
      ¬List.Forall₂ Accepted requests ((List.range requests.length).map calls) := by
    intro hpos hall
    obtain ⟨i,hi,hp⟩ := List.countP_pos_iff.mp hpos
    rw [decide_eq_true_eq] at hp
    rw [List.mem_range] at hi
    have haccepted := hall.get (i:=i) hi (by simpa using hi)
    obtain ⟨response,hok,_⟩ := haccepted
    simp [hp] at hok
  rcases joinAll_cases ((List.range requests.length).map fun i => (calls i).ended) with
    ⟨hc,results,hj,hv⟩|⟨hc,hj⟩|⟨hc,hj⟩
  · have hresults : (List.range requests.length).map calls=results.map Outcome.ofExcept := by
      refine calls_of_returned ?_
      rw [List.map_map]
      exact hv
    have hlen : requests.length=results.length := by
      have hl := congrArg List.length hresults
      rwa [List.length_map,List.length_map,List.length_range] at hl
    obtain ⟨hyes,hno⟩ := countDispatched_eq hlen 0
    have hended : ended=Outcome.ofExcept (countDispatched (requests.zip results) 0) >>=
        fun dispatched => .ok ⟨workload.id,plan.nodeId,dispatched⟩ := by
      change conclude plan workload requests (joinAll _)=_
      rw [hj]
      rfl
    rw [← hresults] at hyes hno
    rw [hcount] at hc
    by_cases hall : List.Forall₂ Accepted requests ((List.range requests.length).map calls)
    · refine Or.inl ⟨hc,hall,?_⟩
      rw [hended,hyes hall,Nat.zero_add]
      rfl
    · refine Or.inr (Or.inl ⟨by rw [hc]; exact Nat.zero_le _,hall,?_⟩)
      rw [hended,hno hall]
      rfl
  · rw [hcount] at hc
    refine Or.inr (Or.inl ⟨hc.le,hnone (by omega),?_⟩)
    change conclude plan workload requests (joinAll _)=_
    rw [hj]
    rfl
  · rw [hcount] at hc
    refine Or.inr (Or.inr ⟨hc,hnone (by omega),?_⟩)
    change conclude plan workload requests (joinAll _)=_
    rw [hj]
    rfl

/-- How the calls of a dispatch decide what it returns. -/
theorem settled_cases (d : ExecutionDispatcher) (plan : ExecutionPlan F64) (workload : WorkItem)
    (calls : ℕ → Outcome TransportError ExecutionResponse) :
    let panics := (List.range plan.units.length).countP fun i => calls i=.panic
    let accepted := ∀ i unit request,plan.units[i]?=some unit →
      d.IsRequestFor plan workload unit request → Accepted request (calls i)
    (¬d.Sendable plan workload ∧ ∃ e,d.settled plan workload calls=.err e) ∨
      d.Sendable plan workload ∧
        ((panics=0 ∧ accepted ∧
            d.settled plan workload calls=.ok ⟨workload.id,plan.nodeId,plan.units.length⟩) ∨
          (panics ≤ 1 ∧ ¬accepted ∧ d.settled plan workload calls=.err .backendRejected) ∨
          (2 ≤ panics ∧ ¬accepted ∧ d.settled plan workload calls=.panic)) := by
  rw [← exists_prepared,settled]
  cases hp : d.prepare plan workload with
  | error e => exact Or.inl ⟨nofun,e,rfl⟩
  | ok requests =>
    have hrequests := prepared_requests hp
    have hcases := conclude_cases plan workload requests calls
    rw [accepted_iff_units hrequests] at hcases
    dsimp only
    rw [hrequests.length_eq]
    exact Or.inr ⟨⟨requests,rfl⟩,hcases⟩

end Runs

section Functional

variable {d : ExecutionDispatcher} {plan : ExecutionPlan F64} {workload : WorkItem}

/-- Joining the threads one by one is joining them as a scope does. -/
theorem joinThreads_eq (calls : List (Outcome TransportError ExecutionResponse)) :
    joinThreads calls=
      match joinAll (calls.map Outcome.ended) with
      | .values responses => .ok responses
      | .refused => .err .backendRejected
      | .panicked => .panic := by
  induction calls with
  | nil => rfl
  | cons call rest ih =>
    cases call with
    | ok response =>
      rw [joinThreads,ih,List.map_cons,Outcome.ended,joinAll]
      cases joinAll (rest.map Outcome.ended) <;> rfl
    | err e =>
      rw [joinThreads,ih,List.map_cons,Outcome.ended,joinAll]
      cases joinAll (rest.map Outcome.ended) <;> rfl
    | panic =>
      have hany : (rest.map Outcome.ended).any Ended.isPanicked=true ↔ .panic ∈ rest := by
        rw [List.any_map,List.any_eq_true]
        simp only [Function.comp_apply,Outcome.isPanicked_ended,exists_eq_right]
      rw [joinThreads,List.map_cons,Outcome.ended,joinAll]
      simp only [hany]
      split <;> rfl

/-- A dispatch makes its requests, joins its threads and counts. -/
theorem dispatch_eq (d : ExecutionDispatcher) (plan : ExecutionPlan F64) (workload : WorkItem) :
    d.dispatch plan workload=Outcome.ofExcept (d.prepare plan workload) >>= fun requests =>
      conclude plan workload requests (joinAll ((requests.map d.transport).map Outcome.ended)) := by
  have hjoin (requests : List ExecutionRequest) :
      (joinThreads (requests.map d.transport) >>= fun responses =>
        Outcome.ofExcept (countDispatched (requests.zip responses) 0) >>= fun dispatched =>
          Outcome.ok (⟨workload.id,plan.nodeId,dispatched⟩ : DispatchReceipt))=
      conclude plan workload requests (joinAll ((requests.map d.transport).map Outcome.ended)) := by
    rw [joinThreads_eq]
    cases joinAll ((requests.map d.transport).map Outcome.ended) <;> rfl
  simp only [← hjoin]
  rw [dispatch,prepare]
  split
  · rfl
  split
  · rfl
  · rfl

/-- Through a transport that answers each request in its own way, every run
of the threads returns what the dispatch returns. -/
theorem Dispatches.eq_dispatch {calls : ℕ → Outcome TransportError ExecutionResponse}
    {sent : List ExecutionRequest} {result : Outcome ExecutionError DispatchReceipt}
    (h : d.Dispatches plan workload calls sent result)
    (hcalls : ∀ i unit request,plan.units[i]?=some unit →
      d.IsRequestFor plan workload unit request → calls i=d.transport request) :
    result=d.dispatch plan workload := by
  rw [h.eq_settled,settled,dispatch_eq]
  cases hp : d.prepare plan workload with
  | error e => rfl
  | ok requests =>
    have hrequests := prepared_requests hp
    have hmap : (List.range requests.length).map calls=requests.map d.transport := by
      refine List.ext_getElem (by simp) fun i hi hi' => ?_
      rw [List.length_map] at hi'
      rw [List.getElem_map,List.getElem_range,List.getElem_map]
      have hunit := hrequests.get (i:=i) (hrequests.length_eq ▸ hi') hi'
      exact hcalls i _ _ (List.getElem?_eq_getElem _) hunit
    rw [Outcome.ofExcept_ok,Outcome.ok_bind,← hmap,List.map_map]
    rfl

end Functional

section Exact

/-- Where every call returns, nothing is sent unless every unit has its
request, and then each is sent once. The dispatch succeeds exactly when it
has sent them and each call was accepted, whatever the order of the calls,
and the receipt counts the units. -/
theorem dispatch_exact (d : ExecutionDispatcher) {plan : ExecutionPlan F64} (workload : WorkItem)
    {calls : ℕ → Outcome TransportError ExecutionResponse}
    (hreturn : ∀ i<plan.units.length,calls i≠.panic) :
    ∃ result,(∃ sent,d.Dispatches plan workload calls sent result) ∧
      (∀ sent result',d.Dispatches plan workload calls sent result' → result'=result ∧
        (¬d.Sendable plan workload → sent=[]) ∧
        (d.Sendable plan workload →
          ∃ requests,List.Forall₂ (d.IsRequestFor plan workload) plan.units requests ∧
            sent.Perm requests)) ∧
      ((∃ receipt,result=.ok receipt) ↔ d.Sendable plan workload ∧
        ∀ i unit request,plan.units[i]?=some unit →
          d.IsRequestFor plan workload unit request → Accepted request (calls i)) ∧
      ((∃ receipt,result=.ok receipt) ∨ ∃ e,result=.err e) ∧
      ∀ receipt,result=.ok receipt → receipt=⟨workload.id,plan.nodeId,plan.units.length⟩ := by
  have hfew : ¬2 ≤ (List.range plan.units.length).countP fun i => calls i=.panic := by
    intro htwo
    obtain ⟨i,hi,hp⟩ := List.countP_pos_iff.mp (Nat.lt_of_lt_of_le Nat.zero_lt_two htwo)
    exact hreturn i (List.mem_range.mp hi) (of_decide_eq_true hp)
  obtain ⟨sent,result,h⟩ := exists_dispatches d plan workload calls
  have hsettled := h.eq_settled
  refine ⟨result,⟨sent,h⟩,fun sent' result' h' => ?_,?_⟩
  · exact ⟨h'.eq_settled.trans hsettled.symm,h'.sent⟩
  rw [hsettled]
  rcases settled_cases d plan workload calls with ⟨hnot,e,hr⟩|⟨hsend,⟨_,hall,hr⟩|⟨_,hall,hr⟩|⟨htwo,_⟩⟩
  · rw [hr]
    exact ⟨iff_of_false nofun fun hs => hnot hs.1,Or.inr ⟨e,rfl⟩,nofun⟩
  · rw [hr]
    refine ⟨iff_of_true ⟨_,rfl⟩ ⟨hsend,hall⟩,Or.inl ⟨_,rfl⟩,fun receipt he => ?_⟩
    cases he
    rfl
  · rw [hr]
    exact ⟨iff_of_false nofun fun hs => hall hs.2,Or.inr ⟨_,rfl⟩,nofun⟩
  · exact (hfew htwo).elim

/-- Every run of a dispatch returns, and with an error where a call panicked,
exactly when no two of its calls panic: a second panic is not joined, and the
scope passes it on. -/
theorem dispatch_contained_iff (d : ExecutionDispatcher) (plan : ExecutionPlan F64)
    (workload : WorkItem) (calls : ℕ → Outcome TransportError ExecutionResponse) :
    (∀ sent result,d.Dispatches plan workload calls sent result → result≠.panic ∧
      (d.Sendable plan workload → (∃ i<plan.units.length,calls i=.panic) →
        result=.err .backendRejected)) ↔
      (d.Sendable plan workload →
        (List.range plan.units.length).countP (fun i => calls i=.panic) ≤ 1) := by
  have hcases := settled_cases d plan workload calls
  constructor
  · intro h hsend
    obtain ⟨sent,result,hrun⟩ := exists_dispatches d plan workload calls
    have hnever := (h sent result hrun).1
    rw [hrun.eq_settled] at hnever
    rcases hcases with ⟨hnot,_⟩|⟨_,⟨hnone,_⟩|⟨hone,_⟩|⟨_,_,hpanic⟩⟩
    · exact (hnot hsend).elim
    · exact hnone.le.trans (Nat.zero_le 1)
    · exact hone
    · exact (hnever hpanic).elim
  · intro h sent result hrun
    rw [hrun.eq_settled]
    rcases hcases with ⟨hnot,e,hr⟩|⟨hsend,⟨hnone,_,hr⟩|⟨_,_,hr⟩|⟨htwo,_⟩⟩
    · rw [hr]
      exact ⟨nofun,fun hsend => (hnot hsend).elim⟩
    · rw [hr]
      refine ⟨nofun,fun _ ⟨i,hi,hp⟩ => ?_⟩
      have hpos : 0<(List.range plan.units.length).countP fun i => calls i=.panic :=
        List.countP_pos_iff.mpr ⟨i,List.mem_range.mpr hi,decide_eq_true hp⟩
      omega
    · rw [hr]
      exact ⟨nofun,fun _ _ => rfl⟩
    · exact absurd (h hsend) (Nat.not_le.mpr htwo)

end Exact

section Sample

/-- A second unit, at another participant. -/
def secondUnit : ExecutionUnit F64 :=
  ⟨⟨"55555555-5555-4555-8555-555555555555",.participant⟩,sampleRequest.unit.resources⟩

/-- A plan with two units. -/
def twoUnitPlan : ExecutionPlan F64 := {servedPlan with units := [sampleRequest.unit,secondUnit]}

/-- A dispatcher with an endpoint for each of the two units. -/
def twoUnitDispatcher (transport : Transport) : ExecutionDispatcher :=
  ⟨sampleRequest.sourceParticipantId,transport,
    [sampleRequest.endpoint,⟨secondUnit.participantId,"b:1"⟩]⟩

/-- Every call of the dispatcher is completed. -/
def completingDispatcher : ExecutionDispatcher :=
  twoUnitDispatcher fun request => .ok (.completed request.requestId)

/-- Calls that are completed, each under the identity of its request. -/
def completedCalls : ℕ → Outcome TransportError ExecutionResponse
  | 0 => .ok (.completed ("w:"++sampleRequest.unit.participantId.id))
  | _ => .ok (.completed ("w:"++secondUnit.participantId.id))

/-- The two units are sent. -/
theorem sendable_twoUnitPlan :
    completingDispatcher.Sendable twoUnitPlan sampleRequest.workload := by
  refine ⟨rfl,nofun,?_⟩
  intro unit hu
  rcases List.mem_cons.mp hu with rfl|hu
  · exact ⟨_,List.mem_cons_self,rfl⟩
  · obtain rfl := List.mem_singleton.mp hu
    exact ⟨_,List.mem_cons_of_mem _ List.mem_cons_self,rfl⟩

/-- Two completed calls are a dispatch of two units in every order. -/
theorem dispatch_exact_twoUnitPlan :
    ∃ sent,completingDispatcher.Dispatches twoUnitPlan sampleRequest.workload completedCalls sent
      (.ok ⟨"w",sampleRequest.nodeId,2⟩) := by
  have hreturn : ∀ i<twoUnitPlan.units.length,completedCalls i≠.panic := by
    intro i _
    cases i <;> exact nofun
  have haccepted : ∀ i unit request,twoUnitPlan.units[i]?=some unit →
      completingDispatcher.IsRequestFor twoUnitPlan sampleRequest.workload unit request →
      Accepted request (completedCalls i) := by
    rintro i unit request hu ⟨endpoint,_,rfl⟩
    match i with
    | 0 =>
      cases hu
      have hid : "w:"++sampleRequest.unit.participantId.id=
          "w"++":"++sampleRequest.unit.participantId.id := by decide +kernel
      exact ⟨_,rfl,hid,rfl⟩
    | 1 =>
      cases hu
      have hid : "w:"++secondUnit.participantId.id="w"++":"++secondUnit.participantId.id := by
        decide +kernel
      exact ⟨_,rfl,hid,rfl⟩
    | i+2 => cases hu
  obtain ⟨result,⟨sent,hrun⟩,_,hok,_,hreceipt⟩ :=
    dispatch_exact completingDispatcher sampleRequest.workload hreturn
  obtain ⟨receipt,rfl⟩ := hok.mpr ⟨sendable_twoUnitPlan,haccepted⟩
  obtain rfl := hreceipt receipt rfl
  exact ⟨sent,hrun⟩

/-- Two calls that panic make the dispatch panic. -/
theorem not_contained_twoUnitPlan :
    ¬∀ sent result,(twoUnitDispatcher fun _ => .panic).Dispatches twoUnitPlan
      sampleRequest.workload (fun _ => .panic) sent result → result≠.panic := by
  intro h
  obtain ⟨sent,result,hrun⟩ := exists_dispatches (twoUnitDispatcher fun _ => .panic) twoUnitPlan
    sampleRequest.workload fun _ => .panic
  refine h sent result hrun ?_
  rw [hrun.eq_settled]
  decide +kernel

end Sample

end ExecutionDispatcher

end OpenHost
