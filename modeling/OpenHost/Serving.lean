import OpenHost.ShutdownProgress

/-!
# Serving until shutdown

The server makes the listener nonblocking, runs its pool, and makes the
listener blocking again, whatever the pool has returned. It returns without an
error only if it was told to stop, everything it accepted was handed over to a
handler that returned, and the listener is as it was. A server that is never
told to stop therefore returns with an error only.
-/

namespace OpenHost

/-- Where the serving thread is, apart from its pool. -/
inductive ServingStage where
  /-- It is about to make the listener nonblocking. -/
  | entering
  /-- It runs the pool. -/
  | running
  /-- It has returned. -/
  | returned (result : Except TransportError Unit)
  deriving DecidableEq

/-- A server with its listener. -/
structure Serving where
  /-- The listener does not block. -/
  nonblocking : Bool
  /-- The pool. -/
  pool : ConnectionPool
  /-- The serving thread. -/
  stage : ServingStage
  deriving DecidableEq

/-- One step of a server. -/
inductive ServingEvent where
  /-- The listener is made nonblocking, or that fails. -/
  | enter (succeeds : Bool)
  /-- The pool takes a step. -/
  | pool (event : ServerEvent)
  /-- The pool has returned and the listener is made blocking, or that fails. -/
  | restore (succeeds : Bool)

namespace Serving

/-- The steps of the pool among the steps of the server. -/
def poolEvent : ServingEvent → Option ServerEvent
  | .pool event => some event
  | .enter _ | .restore _ => none

/-- A call on the listener, which fails or not. -/
def setNonblocking (succeeds : Bool) : Except TransportError Unit :=
  if succeeds then .ok () else .error .networkFailure

/-- The server in front of its first step. -/
def serveUntil (availableParallelism : Option ℕ) : Serving :=
  ⟨false,.runUntilShutdown availableParallelism,.entering⟩

/-- The state after a step, if it can happen. -/
def step (s : Serving) : ServingEvent → Option Serving
  | .enter succeeds =>
    if s.stage=.entering then
      match setNonblocking succeeds with
      | .ok () => some {s with nonblocking := true,stage := .running}
      | .error e => some {s with stage := .returned (.error e)}
    else none
  | .pool event =>
    if s.stage=.running then (s.pool.step event).map fun pool => {s with pool := pool} else none
  | .restore succeeds =>
    if s.stage=.running then
      match s.pool.acceptor with
      | .returned result =>
        some {s with
          nonblocking := if succeeds then false else s.nonblocking
          stage := .returned (do result; setNonblocking succeeds)}
      | _ => none
    else none

/-- The state after a sequence of steps, if all of them can happen. -/
def run (s : Serving) (events : List ServingEvent) : Option Serving :=
  events.foldlM (fun s event => s.step event) s

end Serving

namespace ConnectionPool

section Told

variable {s t : ConnectionPool} {event : ServerEvent} {events : List ServerEvent}

/-- The flag is set, or the acceptor has found it set. -/
def Told (s : ConnectionPool) : Prop :=
  s.shutdown=true ∨ (∃ w b,s.acceptor=.joining (.ok ()) w b) ∨ s.acceptor=.returned (.ok ())

/-- The acceptor has stopped without an error or with a failure of the network. -/
def FailsPlainly (s : ConnectionPool) : Prop :=
  ∀ e,(∃ w b,s.acceptor=.joining (.error e) w b) ∨ s.acceptor=.returned (.error e) →
    e=.networkFailure

/-- Only a store to the flag tells the acceptor to stop. -/
theorem Told.of_step (h : t.Told) (hstep : s.step event=some t) :
    s.Told ∨ event=.store true := by
  cases effect_of_step hstep with
  | store value =>
    cases value with
    | true => exact Or.inr rfl
    | false =>
      rcases h with h|h
      · cases h
      · exact Or.inl (Or.inr h)
  | poll stage =>
    rcases h with h|h
    · exact Or.inl (Or.inl h)
    · cases hs : s.shutdown with
      | true => exact Or.inl (Or.inl hs)
      | false => simp [hs] at h
  | accept stage => exact Or.inl (h.imp id fun h => by simp at h)
  | wouldBlock stage => exact Or.inl (h.imp id fun h => by simp at h)
  | acceptFails stage => exact Or.inl (h.imp id fun h => by simp at h)
  | send stage room => exact Or.inl (h.imp id fun h => by simp at h)
  | joined stage found ended =>
    refine Or.inl (h.imp id fun h => Or.inl ?_)
    rcases h with ⟨w,b,h⟩|h
    · simp only [Acceptor.joining.injEq] at h
      exact ⟨_,_,h.1 ▸ stage⟩
    · cases h
  | @done result w b stage behind =>
    refine Or.inl (h.imp id fun h => Or.inl ?_)
    rcases h with ⟨w',b',h⟩|h
    · cases h
    · simp only [Acceptor.returned.injEq] at h
      cases b with
      | true => cases h
      | false =>
        have hr : result=.ok () := h
        exact ⟨_,_,hr ▸ stage⟩
  | lock found free => exact Or.inl h
  | receive found next => exact Or.inl h
  | rendezvous found empty stage direct => exact Or.inl (h.imp id fun h => by simp at h)
  | disconnect found empty dropped => exact Or.inl h
  | handle found => exact Or.inl h
  | finish found => exact Or.inl h
  | panic found => exact Or.inl h

/-- An acceptor that has found the flag set was told by a store. -/
theorem Told.of_run (h : t.Told) (hrun : s.run events=some t) :
    s.Told ∨ .store true ∈ events := by
  induction events generalizing s with
  | nil =>
    cases hrun
    exact Or.inl h
  | cons event rest ih =>
    rw [run,Option.bind_eq_some_iff] at hrun
    obtain ⟨u,hu,ht⟩ := hrun
    rcases ih ht with hmid|hm
    · rcases hmid.of_step hu with hs|rfl
      · exact Or.inl hs
      · exact Or.inr List.mem_cons_self
    · exact Or.inr (List.mem_cons_of_mem _ hm)

/-- No step makes up another error. -/
theorem FailsPlainly.step (h : s.FailsPlainly) (hstep : s.step event=some t) :
    t.FailsPlainly := by
  intro e he
  cases effect_of_step hstep with
  | store value => exact h e he
  | poll stage => cases hs : s.shutdown <;> simp [hs] at he
  | accept stage => simp at he
  | wouldBlock stage => simp at he
  | acceptFails stage =>
    simp only [Acceptor.joining.injEq,Except.error.injEq,reduceCtorEq,or_false] at he
    obtain ⟨w,b,he,_⟩ := he
    exact he.symm
  | send stage room => simp at he
  | @joined result w b worker stage found ended =>
    simp only [Acceptor.joining.injEq,reduceCtorEq,or_false] at he
    obtain ⟨w',b',he,_⟩ := he
    exact h e (Or.inl ⟨w,b,he ▸ stage⟩)
  | @done result w b stage behind =>
    simp only [Acceptor.returned.injEq,reduceCtorEq,exists_false,false_or] at he
    cases b with
    | true => exact (Except.error.inj he).symm
    | false => exact h e (Or.inl ⟨w,false,he ▸ stage⟩)
  | lock found free => exact h e he
  | receive found next => exact h e he
  | rendezvous found empty stage direct => simp at he
  | disconnect found empty dropped => exact h e he
  | handle found => exact h e he
  | finish found => exact h e he
  | panic found => exact h e he

/-- A pool that has returned without an error has handed every connection
over exactly once. -/
theorem handed_of_returned (haccounted : s.Accounted) (hdrained : s.Drained) (hjoined : s.Joined)
    (hr : s.acceptor=.returned (.ok ())) (hsome : s.workers≠[]) :
    ∀ c<s.accepted,s.handed.count c=1 := by
  rw [Joined,hr] at hjoined
  obtain ⟨hended,hpanic⟩ := hjoined
  obtain ⟨worker,hm⟩ := List.exists_mem_of_ne_nil _ hsome
  have hreturned : worker=.returned := by
    have he := hended worker hm
    cases worker with
    | returned => rfl
    | panicked => exact (hpanic rfl hm).elim
    | waiting => cases he
    | receiving => cases he
    | received d => cases he
    | handling d => cases he
  have hempty := (hdrained (hreturned ▸ hm)).2
  have hnone : ∀ c,s.workers.count (.received c)=0 := fun c =>
    List.count_eq_zero.mpr fun hm => by cases hended _ hm
  intro c hlt
  have hc := (haccounted c).1 hlt
  rw [places,hempty,hr,hnone c] at hc
  simpa [Acceptor.pending] using hc

end Told

end ConnectionPool

namespace Serving

variable {availableParallelism : Option ℕ} {s t : Serving} {event : ServingEvent}
  {events : List ServingEvent} {result : Except TransportError Unit} {mode : Bool}
  {pool : ConnectionPool}

/-- The pool that the server has run, and what its result says about it. -/
structure Consistent (availableParallelism : Option ℕ) (events : List ServingEvent)
    (s : Serving) : Prop where
  /-- The pool took the steps of the pool. -/
  ran : (ConnectionPool.runUntilShutdown availableParallelism).run
    (events.filterMap poolEvent)=some s.pool
  /-- Without an error, the pool has returned and the listener blocks again. -/
  good : s.stage=.returned (.ok ()) →
    s.nonblocking=false ∧ s.pool.acceptor=.returned (.ok ())
  /-- There is one error only. -/
  plain : ∀ e,s.stage=.returned (.error e) → e=.networkFailure

/-- The pool of a server has only one error. -/
theorem Consistent.failsPlainly (h : Consistent availableParallelism events s) :
    s.pool.FailsPlainly := by
  refine (ConnectionPool.reaches_of_run h.ran).invariant
    (fun _ _ _ hi _ hstep => ConnectionPool.FailsPlainly.step hi hstep) ?_
  rintro e (⟨w,b,he⟩|he)
  · cases he
  · cases he

/-- A call on the listener is no step of the pool. -/
theorem Consistent.ran_of_none (h : Consistent availableParallelism events s)
    (hnone : poolEvent event=none) : (ConnectionPool.runUntilShutdown availableParallelism).run
      ((events++[event]).filterMap poolEvent)=some s.pool := by
  rw [List.filterMap_append,List.filterMap_cons_none hnone,List.filterMap_nil,List.append_nil]
  exact h.ran

/-- Every step of a server keeps its books. -/
theorem Consistent.step (h : Consistent availableParallelism events s)
    (hstep : s.step event=some t) : Consistent availableParallelism (events++[event]) t := by
  cases event with
  | enter succeeds =>
    rw [Serving.step,Option.ite_none_right_eq_some] at hstep
    obtain ⟨hstage,hstep⟩ := hstep
    have hran := h.ran_of_none (rfl : poolEvent (.enter succeeds)=none)
    cases succeeds with
    | true =>
      cases hstep
      exact ⟨hran,by simp,by simp⟩
    | false =>
      cases hstep
      refine ⟨hran,by simp,fun e he => ?_⟩
      cases he
      rfl
  | pool event =>
    rw [Serving.step,Option.ite_none_right_eq_some,Option.map_eq_some_iff] at hstep
    obtain ⟨hstage,after,hafter,rfl⟩ := hstep
    have hrun : after.run []=some after := rfl
    have hone : s.pool.run [event]=some after := by
      rw [ConnectionPool.run,hafter]
      rfl
    refine ⟨?_,fun hr => ?_,fun e hr => ?_⟩
    · rw [List.filterMap_append]
      exact ConnectionPool.run_append h.ran hone
    · rw [hstage] at hr
      cases hr
    · rw [hstage] at hr
      cases hr
  | restore succeeds =>
    rw [Serving.step,Option.ite_none_right_eq_some] at hstep
    obtain ⟨hstage,hstep⟩ := hstep
    have hran := h.ran_of_none (rfl : poolEvent (.restore succeeds)=none)
    split at hstep
    · next result hr =>
      cases hstep
      cases result with
      | error e =>
        refine ⟨hran,by simp,fun e' he => ?_⟩
        cases he
        exact h.failsPlainly e (Or.inr hr)
      | ok u =>
        cases succeeds with
        | true =>
          refine ⟨hran,fun _ => ⟨rfl,hr⟩,fun e he => ?_⟩
          cases he
        | false =>
          refine ⟨hran,fun he => ?_,fun e he => ?_⟩
          · cases he
          · cases he
            rfl
    · cases hstep

/-- The books of a server are in order at any time. -/
theorem consistent_of_run (h : (serveUntil availableParallelism).run events=some s) :
    Consistent availableParallelism events s := by
  induction events using List.reverseRecOn generalizing s with
  | nil =>
    cases h
    exact ⟨rfl,nofun,fun _ => nofun⟩
  | append_singleton events event ih =>
    rw [run,List.foldlM_append,Option.bind_eq_bind,Option.bind_eq_some_iff] at h
    obtain ⟨u,hu,hs⟩ := h
    rw [List.foldlM_cons,Option.bind_eq_bind,Option.bind_eq_some_iff] at hs
    obtain ⟨v,hv,hs⟩ := hs
    cases hs
    exact (ih hu).step hv

/-- There is always a worker. -/
theorem workers_ne_nil (h : Consistent availableParallelism events s) : s.pool.workers≠[] := by
  have hlength : s.pool.workers.length=workerCount availableParallelism := by
    refine (ConnectionPool.reaches_of_run h.ran).invariant
      (I:=fun u => u.workers.length=workerCount availableParallelism)
      (fun _ _ _ hi _ hstep => (ConnectionPool.length_step hstep).trans hi) ?_
    exact List.length_replicate
  intro he
  have htwo : 2 ≤ workerCount availableParallelism := Nat.le_max_left _ _
  rw [he,List.length_nil] at hlength
  omega

/-- A server that returns without an error was told to stop, has handed every
accepted connection over exactly once to a handler that did not panic, and
leaves a listener that blocks. Any other return is a failure of the network;
so is every return of a server that is never told to stop. -/
theorem serveUntil_returns
    (h : (serveUntil availableParallelism).run events=some ⟨mode,pool,.returned result⟩) :
    (result=.ok () → mode=false ∧ .store true ∈ events.filterMap poolEvent ∧
      (∀ w,.panic w∉events.filterMap poolEvent) ∧
      pool.accepted=(events.filterMap poolEvent).count .accept ∧
      ∀ c<pool.accepted,pool.handed.count c=1) ∧
    (result≠.ok () → result=.error .networkFailure) ∧
    (.store true∉events.filterMap poolEvent → result=.error .networkFailure) := by
  have hbooks := consistent_of_run h
  have hgood : result=.ok () → .store true ∈ events.filterMap poolEvent := by
    rintro rfl
    have hreturned := (hbooks.good rfl).2
    have htold : pool.Told := Or.inr (Or.inr hreturned)
    rcases htold.of_run hbooks.ran with hstart|hm
    · rcases hstart with hs|⟨w,b,hs⟩|hs <;> cases hs
    · exact hm
  have hplain : result≠.ok () → result=.error .networkFailure := by
    intro hne
    cases result with
    | ok u => exact (hne rfl).elim
    | error e => rw [hbooks.plain e rfl]
  refine ⟨?_,hplain,fun hnever => hplain fun hok => hnever (hgood hok)⟩
  intro hok
  have hstore := hgood hok
  subst hok
  obtain ⟨hmode,hreturned⟩ := hbooks.good rfl
  have hreach := ConnectionPool.reaches_of_run hbooks.ran
  obtain ⟨ha,hd,hj⟩ := ConnectionPool.start_sound (workerCount availableParallelism)
    (queueCapacity (workerCount availableParallelism))
  have haccounted : pool.Accounted := hreach.invariant (fun _ _ _ hi _ hs => hi.step hs) ha
  have hdrained : pool.Drained := hreach.invariant (fun _ _ _ hi _ hs => hi.step hs) hd
  have hjoined : pool.Joined := hreach.invariant (fun _ _ _ hi _ hs => hi.step hs) hj
  have hcount := ConnectionPool.accepted_of_run hbooks.ran
  rw [ConnectionPool.runUntilShutdown,ConnectionPool.start,Nat.zero_add] at hcount
  refine ⟨hmode,hstore,fun w hm => ?_,hcount,?_⟩
  · have hpanicked := ConnectionPool.panicked_of_run hbooks.ran hm
    rw [ConnectionPool.Joined,hreturned] at hjoined
    exact hjoined.2 rfl hpanicked
  · exact ConnectionPool.handed_of_returned haccounted hdrained hjoined hreturned
      (workers_ne_nil hbooks)

section Sample

/-- The steps of a server that serves one connection and is told to stop. -/
def servingEvents : List ServingEvent :=
  .enter true::(ConnectionPool.shutdownEvents.map .pool++[.restore true])

/-- They lead to a return without an error. -/
theorem serveUntil_returns_servingEvents :
    (serveUntil (some 2)).run servingEvents=
      some ⟨false,ConnectionPool.returnedPool,.returned (.ok ())⟩ ∧
    ServerEvent.store true ∈ servingEvents.filterMap poolEvent ∧
    ConnectionPool.returnedPool.handed.count 0=1 := by
  have hrun : (serveUntil (some 2)).run servingEvents=
      some ⟨false,ConnectionPool.returnedPool,.returned (.ok ())⟩ := by decide +kernel
  obtain ⟨_,hstore,_,_,hhanded⟩ := (serveUntil_returns hrun).1 rfl
  exact ⟨hrun,hstore,hhanded 0 Nat.one_pos⟩

end Sample

end Serving

end OpenHost
