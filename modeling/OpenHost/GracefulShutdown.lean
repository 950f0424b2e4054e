import OpenHost.ConnectionPool

/-!
# Graceful shutdown loses no connection

At any time every accepted connection is in exactly one place: with the
acceptor, in the channel, with a worker that has received it, or handed over.
A worker returns only when nothing can come any more, and the server only
when all workers are over. So once it has returned, a worker that did not
panic has left the channel empty, and every connection was handed over.
-/

namespace OpenHost

/-- The connection that the acceptor is sending. -/
def Acceptor.pending : Acceptor → List ℕ
  | .sending connection => [connection]
  | .polling | .accepting | .joining _ _ _ | .returned _ => []

namespace ConnectionPool

/-- In how many places a connection is. -/
def places (s : ConnectionPool) (c : ℕ) : ℕ :=
  s.handed.count c+s.workers.count (.received c)+s.queue.count c+s.acceptor.pending.count c

/-- Every accepted connection is in exactly one place, and no other is anywhere. -/
def Accounted (s : ConnectionPool) : Prop :=
  ∀ c,(c<s.accepted → s.places c=1) ∧ (s.accepted ≤ c → s.places c=0)

/-- A worker that has returned has left nothing behind. -/
def Drained (s : ConnectionPool) : Prop :=
  .returned ∈ s.workers → s.closed=true ∧ s.queue=[]

/-- The workers in front of the one that is waited for are over, and the flag
tells whether one of them panicked. -/
def Joined (s : ConnectionPool) : Prop :=
  match s.acceptor with
  | .joining _ w workerPanicked => (∀ i < w,∀ worker,s.workers[i]?=some worker → worker.ended=true) ∧
      (workerPanicked=false → ∀ i < w,s.workers[i]?≠some .panicked)
  | .returned result => (∀ worker ∈ s.workers,worker.ended=true) ∧
      (result=.ok () → .panicked∉s.workers)
  | .polling | .accepting | .sending _ => True

/-- Moving one worker changes how many satisfy a condition by that worker. -/
theorem countP_moved {workers : List Worker} {w : ℕ} {worker : Worker}
    (h : workers[w]?=some worker) (p : Worker → Bool) (moved : Worker) :
    (workers.set w moved).countP p+(if p worker=true then 1 else 0)=
      workers.countP p+if p moved=true then 1 else 0 := by
  obtain ⟨hw,rfl⟩ := List.getElem?_eq_some_iff.mp h
  have hset := List.countP_set (p:=p) (a:=moved) hw
  have hle := List.boole_getElem_le_countP (p:=p) hw
  omega

/-- Moving one worker changes the number of workers in one place by that worker. -/
theorem count_moved {workers : List Worker} {w : ℕ} {worker : Worker}
    (h : workers[w]?=some worker) (moved place : Worker) :
    (workers.set w moved).count place+(if worker=place then 1 else 0)=
      workers.count place+if moved=place then 1 else 0 := by
  have hp := countP_moved h (fun other => other==place) moved
  simp only [beq_iff_eq] at hp
  exact hp

section Steps

variable {s t : ConnectionPool} {event : ServerEvent} {w : ℕ} {worker moved : Worker}

/-- A worker that moves without a connection keeps the connections in their places. -/
theorem Accounted.put (h : s.Accounted) (found : s.workers[w]?=some worker)
    (hfrom : ∀ c,worker≠.received c) (hto : ∀ c,moved≠.received c) : (s.put w moved).Accounted := by
  intro c
  have hc := h c
  have hw := count_moved found moved (.received c)
  rw [if_neg (hfrom c),if_neg (hto c)] at hw
  simp only [places,ConnectionPool.put] at hc ⊢
  omega

/-- An acceptor that moves without a connection keeps the connections in their places. -/
theorem Accounted.move {acceptor : Acceptor} (h : s.Accounted)
    (hp : acceptor.pending=s.acceptor.pending) : Accounted {s with acceptor := acceptor} := by
  intro c
  have hc := h c
  simp only [places] at hc ⊢
  rw [hp]
  exact hc

/-- Every event keeps the connections in their places. -/
theorem Accounted.step (h : s.Accounted) (hstep : s.step event=some t) : t.Accounted := by
  cases effect_of_step hstep with
  | store value => exact h
  | poll stage =>
    refine h.move ?_
    rw [stage]
    cases s.shutdown <;> rfl
  | accept stage =>
    intro c
    have hc := h c
    simp only [places,Acceptor.pending,stage,List.count_nil,List.count_singleton,beq_iff_eq] at hc ⊢
    split <;> omega
  | wouldBlock stage => exact h.move (by rw [stage]; rfl)
  | acceptFails stage => exact h.move (by rw [stage]; rfl)
  | send stage room =>
    intro c
    have hc := h c
    simp only [places,Acceptor.pending,stage,List.count_append,List.count_nil] at hc ⊢
    omega
  | joined stage found ended => exact h.move (by rw [stage]; rfl)
  | done stage behind => exact h.move (by rw [stage]; rfl)
  | lock found free => exact h.put found nofun nofun
  | @receive w d rest found next =>
    intro c
    have hc := h c
    have hw := count_moved found (.received d) (.received c)
    simp only [places,ConnectionPool.put,next,List.count_cons,reduceCtorEq,if_false,
      Worker.received.injEq,beq_iff_eq] at hc hw ⊢
    omega
  | @rendezvous w d found empty stage direct =>
    intro c
    have hc := h c
    have hw := count_moved found (.received d) (.received c)
    simp only [places,ConnectionPool.put,Acceptor.pending,stage,List.count_singleton,List.count_nil,
      reduceCtorEq,if_false,Worker.received.injEq,beq_iff_eq] at hc hw ⊢
    omega
  | disconnect found empty dropped => exact h.put found nofun nofun
  | @handle w d found =>
    intro c
    have hc := h c
    have hw := count_moved found (.handling d) (.received c)
    simp only [places,ConnectionPool.put,List.count_append,List.count_singleton,reduceCtorEq,
      if_false,Worker.received.injEq,beq_iff_eq] at hc hw ⊢
    omega
  | finish found => exact h.put found nofun nofun
  | panic found => exact h.put found nofun nofun

/-- No worker has returned while the sender is there. -/
theorem Drained.not_returned (h : s.Drained) (hopen : s.closed=false) : .returned∉s.workers := by
  intro hm
  have hc := (h hm).1
  rw [hopen] at hc
  cases hc

/-- A worker that moves without returning has not returned. -/
theorem returned_of_put (hm : .returned ∈ s.workers.set w moved) (hto : moved≠.returned) :
    .returned ∈ s.workers :=
  (List.mem_or_eq_of_mem_set hm).resolve_right hto.symm

/-- Workers return only behind a channel that is empty for ever. -/
theorem Drained.step (h : s.Drained) (hstep : s.step event=some t) : t.Drained := by
  intro hm
  cases effect_of_step hstep with
  | store value => exact h hm
  | poll stage => exact (h.not_returned (by rw [closed,stage]) hm).elim
  | accept stage => exact (h.not_returned (by rw [closed,stage]) hm).elim
  | wouldBlock stage => exact (h.not_returned (by rw [closed,stage]) hm).elim
  | acceptFails stage => exact (h.not_returned (by rw [closed,stage]) hm).elim
  | send stage room => exact (h.not_returned (by rw [closed,stage]) hm).elim
  | joined stage found ended => exact ⟨rfl,(h hm).2⟩
  | done stage behind => exact ⟨rfl,(h hm).2⟩
  | lock found free => exact h (returned_of_put hm nofun)
  | receive found next =>
    have hq := (h (returned_of_put hm nofun)).2
    rw [next] at hq
    cases hq
  | rendezvous found empty stage direct =>
    exact (h.not_returned (by rw [closed,stage]) (returned_of_put hm nofun)).elim
  | disconnect found empty dropped => exact ⟨dropped,empty⟩
  | handle found => exact h (returned_of_put hm nofun)
  | finish found => exact h (returned_of_put hm nofun)
  | panic found => exact h (returned_of_put hm nofun)

/-- A worker that is over stays where it is when another one moves. -/
theorem put_of_ended {i : ℕ} {place : Worker} (found : s.workers[w]?=some worker)
    (halive : worker.ended=false) (hi : s.workers[i]?=some place) (hended : place.ended=true) :
    (s.put w moved).workers[i]?=some place := by
  have hne : w≠i := by
    rintro rfl
    rw [found,Option.some.injEq] at hi
    subst hi
    rw [halive] at hended
    cases hended
  rw [ConnectionPool.put,List.getElem?_set_ne hne]
  exact hi

/-- A worker that is over stays over, as it ended. -/
theorem ended_stays {i : ℕ} {place : Worker} (hended : place.ended=true)
    (hi : s.workers[i]?=some place) (hstep : s.step event=some t) : t.workers[i]?=some place := by
  cases effect_of_step hstep with
  | store value => exact hi
  | poll stage => exact hi
  | accept stage => exact hi
  | wouldBlock stage => exact hi
  | acceptFails stage => exact hi
  | send stage room => exact hi
  | joined stage found ended => exact hi
  | done stage behind => exact hi
  | lock found free => exact put_of_ended found rfl hi hended
  | receive found next => exact put_of_ended found rfl hi hended
  | rendezvous found empty stage direct => exact put_of_ended found rfl hi hended
  | disconnect found empty dropped => exact put_of_ended found rfl hi hended
  | handle found => exact put_of_ended found rfl hi hended
  | finish found => exact put_of_ended found rfl hi hended
  | panic found => exact put_of_ended found rfl hi hended

/-- What the acceptor has joined does not depend on workers that still move. -/
theorem Joined.put (h : s.Joined) (found : s.workers[w]?=some worker)
    (halive : worker.ended=false) : (s.put w moved).Joined := by
  have hover : worker.ended≠true := by
    rw [halive]
    exact Bool.false_ne_true
  rw [Joined] at h ⊢
  dsimp only [ConnectionPool.put]
  split at h
  · next result j b hat =>
    have hne : ∀ i < j,w≠i := by
      rintro i hi rfl
      exact hover (h.1 w hi worker found)
    refine ⟨fun i hi place hp => ?_,fun hb i hi => ?_⟩
    · rw [List.getElem?_set_ne (hne i hi)] at hp
      exact h.1 i hi place hp
    · rw [List.getElem?_set_ne (hne i hi)]
      exact h.2 hb i hi
  · exact (hover (h.1 worker (List.mem_of_getElem? found))).elim
  · trivial
  · trivial
  · trivial

/-- The acceptor keeps its books on the workers that it joins. -/
theorem Joined.step (h : s.Joined) (hstep : s.step event=some t) : t.Joined := by
  cases effect_of_step hstep with
  | store value => exact h
  | poll stage =>
    rw [Joined]
    cases s.shutdown with
    | false => trivial
    | true => exact ⟨nofun,fun _ => nofun⟩
  | accept stage => trivial
  | wouldBlock stage => trivial
  | acceptFails stage => exact ⟨nofun,fun _ => nofun⟩
  | send stage room => trivial
  | @joined result w b worker stage found ended =>
    rw [Joined,stage] at h
    obtain ⟨hall,hflag⟩ := h
    refine ⟨fun i hi place hp => ?_,fun hb i hi hp => ?_⟩
    · rcases Nat.lt_succ_iff_lt_or_eq.mp hi with hi|rfl
      · exact hall i hi place hp
      · rw [found,Option.some.injEq] at hp
        exact hp ▸ ended
    · rw [Bool.or_eq_false_iff,decide_eq_false_iff_not] at hb
      rcases Nat.lt_succ_iff_lt_or_eq.mp hi with hi|rfl
      · exact hflag hb.1 i hi hp
      · rw [found,Option.some.injEq] at hp
        exact hb.2 hp
  | @done result w b stage behind =>
    rw [Joined,stage] at h
    obtain ⟨hall,hflag⟩ := h
    have hlt : ∀ {i : ℕ} {place : Worker},s.workers[i]?=some place → i < w := by
      intro i place hp
      have hi := (List.getElem?_eq_some_iff.mp hp).1
      exact hi.trans_le (List.getElem?_eq_none_iff.mp behind)
    refine ⟨fun place hm => ?_,fun hok hm => ?_⟩
    · obtain ⟨i,hp⟩ := List.mem_iff_getElem?.mp hm
      exact hall i (hlt hp) place hp
    · obtain ⟨i,hp⟩ := List.mem_iff_getElem?.mp hm
      cases b with
      | true => cases hok
      | false => exact hflag rfl i (hlt hp) hp
  | lock found free => exact h.put found rfl
  | receive found next => exact h.put found rfl
  | rendezvous found empty stage direct => trivial
  | disconnect found empty dropped => exact h.put found rfl
  | handle found => exact h.put found rfl
  | finish found => exact h.put found rfl
  | panic found => exact h.put found rfl

end Steps

section Runs

variable {s t : ConnectionPool} {events : List ServerEvent}

/-- What a sequence of events leads to can be reached. -/
theorem reaches_of_run (h : s.run events=some t) : Reaches s t := by
  induction events generalizing s with
  | nil =>
    cases h
    exact .refl
  | cons event rest ih =>
    rw [run,Option.bind_eq_some_iff] at h
    obtain ⟨u,hu,ht⟩ := h
    exact .head ⟨event,trivial,hu⟩ (ih ht)

/-- The connections are counted as they are accepted. -/
theorem accepted_of_run (h : s.run events=some t) :
    t.accepted=s.accepted+events.count .accept := by
  induction events generalizing s with
  | nil =>
    cases h
    rfl
  | cons event rest ih =>
    rw [run,Option.bind_eq_some_iff] at h
    obtain ⟨u,hu,ht⟩ := h
    rw [ih ht,List.count_cons]
    have hstep : u.accepted=s.accepted+if (event==.accept)=true then 1 else 0 := by
      cases effect_of_step hu <;> rfl
    omega

/-- A handler that has panicked leaves its worker behind. -/
theorem panicked_of_run {w : ℕ} (h : s.run events=some t) (hm : .panic w ∈ events) :
    .panicked ∈ t.workers := by
  induction events generalizing s with
  | nil => cases hm
  | cons event rest ih =>
    rw [run,Option.bind_eq_some_iff] at h
    obtain ⟨u,hu,ht⟩ := h
    rcases List.mem_cons.mp hm with rfl|hm
    · have hpanic : u.workers[w]?=some .panicked := by
        cases effect_of_step hu with
        | panic found =>
          rw [put,List.getElem?_set_self (List.getElem?_eq_some_iff.mp found).1]
      have hstays : t.workers[w]?=some .panicked :=
        (reaches_of_run ht).invariant (fun _ _ _ hi _ hstep => ended_stays rfl hi hstep) hpanic
      exact List.mem_of_getElem? hstays
    · exact ih ht hm

/-- The books of a pool that has just been started are in order. -/
theorem start_sound (n capacity : ℕ) :
    (start n capacity).Accounted ∧ (start n capacity).Drained ∧ (start n capacity).Joined := by
  refine ⟨fun c => ?_,fun hm => ?_,trivial⟩
  · have hnone : (List.replicate n Worker.waiting).count (.received c)=0 :=
      List.count_eq_zero.mpr fun hm => nomatch List.eq_of_mem_replicate hm
    simp [places,start,Acceptor.pending,hnone]
  · exact nomatch List.eq_of_mem_replicate hm

/-- In every run no connection is handed over twice; and once the server has
returned, every connection that it accepted was handed over exactly once if
some worker did not panic, and no handler has panicked if the result is good. -/
theorem graceful_shutdown {n capacity : ℕ} (h : (start n capacity).run events=some s) :
    s.accepted=events.count .accept ∧ s.handed.Nodup ∧ (∀ c ∈ s.handed,c < s.accepted) ∧
    ∀ result,s.acceptor=.returned result →
      ((∃ worker ∈ s.workers,worker≠.panicked) → ∀ c < s.accepted,s.handed.count c=1) ∧
      (result=.ok () → ∀ w,.panic w∉events) := by
  have hreach := reaches_of_run h
  obtain ⟨ha,hd,hj⟩ := start_sound n capacity
  have haccounted : s.Accounted := hreach.invariant (fun _ _ _ hi _ hs => hi.step hs) ha
  have hdrained : s.Drained := hreach.invariant (fun _ _ _ hi _ hs => hi.step hs) hd
  have hjoined : s.Joined := hreach.invariant (fun _ _ _ hi _ hs => hi.step hs) hj
  have hcount := accepted_of_run h
  rw [start,Nat.zero_add] at hcount
  refine ⟨hcount,List.nodup_iff_count_le_one.mpr fun c => ?_,fun c hm => ?_,fun result hr => ?_⟩
  · have hc := haccounted c
    rw [places] at hc
    omega
  · have hc := haccounted c
    have hpos := List.count_pos_iff.mpr hm
    rw [places] at hc
    omega
  · rw [Joined,hr] at hjoined
    obtain ⟨hended,hpanic⟩ := hjoined
    refine ⟨?_,fun hok w hm => hpanic hok (panicked_of_run h hm)⟩
    rintro ⟨worker,hm,hne⟩ c hlt
    have hreturned : worker=.returned := by
      have he := hended worker hm
      cases worker with
      | returned => rfl
      | panicked => exact (hne rfl).elim
      | waiting => cases he
      | receiving => cases he
      | received d => cases he
      | handling d => cases he
    have hempty := (hdrained (hreturned ▸ hm)).2
    have hnone : s.workers.count (.received c)=0 :=
      List.count_eq_zero.mpr fun hm => nomatch hended _ hm
    have hc := (haccounted c).1 hlt
    rw [places,hempty,hr,hnone] at hc
    simpa [Acceptor.pending] using hc

end Runs

section Sample

/-- A connection is queued when shutdown is asked for; it is served after that. -/
def shutdownEvents : List ServerEvent :=
  [.poll,.accept,.send,.store true,.poll,.lock 0,.receive 0,.handle 0,.finish 0,.lock 0,
    .disconnect 0,.lock 1,.disconnect 1,.join,.join,.join]

/-- The server on two workers once it has returned. -/
def returnedPool : ConnectionPool :=
  ⟨16,[.returned,.returned],.returned (.ok ()),[],true,1,[0]⟩

/-- The queued connection was handed over once before the return. -/
theorem graceful_shutdown_shutdownEvents :
    (runUntilShutdown (some 2)).run shutdownEvents=some returnedPool ∧
      returnedPool.handed.count 0=1 ∧ ∀ w,.panic w∉shutdownEvents := by
  have hrun : (runUntilShutdown (some 2)).run shutdownEvents=some returnedPool := by
    decide +kernel
  obtain ⟨_,_,_,hreturn⟩ := graceful_shutdown hrun
  obtain ⟨honce,hpanic⟩ := hreturn (.ok ()) rfl
  exact ⟨hrun,honce ⟨.returned,List.mem_cons_self,nofun⟩ 0 Nat.one_pos,hpanic rfl⟩

end Sample

end ConnectionPool

end OpenHost
