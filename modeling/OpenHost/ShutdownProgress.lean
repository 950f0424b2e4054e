import OpenHost.BlockedAcceptor
import OpenHost.Ledger
import OpenHost.Progress

/-!
# Shutdown comes to an end

Once shutdown is asked for, or the listener has failed, every step of the
server leaves less to do: connections only move on towards a handler, workers
towards their return, and the acceptor towards the last join. So the server
returns after a bounded number of steps, unless a handler never returns, or as
many handlers have panicked as there are workers.
-/

namespace OpenHost

/-- The event is a store to the shutdown flag. -/
def ServerEvent.isStore : ServerEvent → Bool
  | .store _ => true
  | _ => false

/-- The event is the end of a handler. -/
def ServerEvent.endsHandler : ServerEvent → Bool
  | .finish _ | .panic _ => true
  | _ => false

/-- Steps that a worker still has to take at most. -/
def Worker.weight : Worker → ℕ
  | .waiting => 2
  | .receiving => 1
  | .received _ => 4
  | .handling _ => 3
  | .returned | .panicked => 0

/-- Steps that the acceptor still has to take at most in front of that many
workers, with those for a connection that it may still accept. -/
def Acceptor.weight (n : ℕ) : Acceptor → ℕ
  | .accepting => n+8
  | .sending _ => n+7
  | .polling => n+2
  | .joining _ w _ => n-w+1
  | .returned _ => 0

namespace ConnectionPool

/-- The acceptor has been told to stop or has stopped. -/
def Asked (s : ConnectionPool) : Prop := s.shutdown=true ∨ s.closed=true

/-- A handler runs. -/
def Handling (s : ConnectionPool) : Prop := ∃ (w c : ℕ),s.workers[w]?=some (Worker.handling c)

/-- A thread of the server can go on, other than by the end of a handler. -/
def CanMove (s : ConnectionPool) : Prop :=
  ∃ event t,event.isStore=false ∧ event.endsHandler=false ∧ s.step event=some t

/-- Steps that the server still has to take at most. -/
def work (s : ConnectionPool) : ℕ :=
  4*s.queue.length+(s.workers.map Worker.weight).sum+s.acceptor.weight s.workers.length

section Steps

variable {s t : ConnectionPool} {event : ServerEvent} {w : ℕ} {worker moved : Worker}

/-- A worker that moves changes the work by the difference of its places. -/
theorem sum_weight_put (found : s.workers[w]?=some worker) (moved : Worker) :
    ((s.workers.set w moved).map Worker.weight).sum+worker.weight=
      (s.workers.map Worker.weight).sum+moved.weight :=
  Ledger.sum_map_set Worker.weight found moved

/-- An acceptor that has been told to stop is never told to go on, unless
somebody stores to the flag. -/
theorem Asked.step (h : s.Asked) (hquiet : event.isStore=false) (hstep : s.step event=some t) :
    t.Asked := by
  rcases h with hflag|hclosed
  · left
    cases effect_of_step hstep with
    | store value => cases hquiet
    | poll stage => exact hflag
    | accept stage => exact hflag
    | wouldBlock stage => exact hflag
    | acceptFails stage => exact hflag
    | send stage room => exact hflag
    | joined stage found ended => exact hflag
    | done stage behind => exact hflag
    | lock found free => exact hflag
    | receive found next => exact hflag
    | rendezvous found empty stage direct => exact hflag
    | disconnect found empty dropped => exact hflag
    | handle found => exact hflag
    | finish found => exact hflag
    | panic found => exact hflag
  · exact Or.inr (closed_stays hclosed hstep)

/-- While the acceptor is to stop, every step leaves less to do. -/
theorem Asked.work_lt (h : s.Asked) (hquiet : event.isStore=false)
    (hstep : s.step event=some t) : t.work<s.work := by
  cases effect_of_step hstep with
  | store value => cases hquiet
  | poll stage =>
    have hflag : s.shutdown=true := by
      rcases h with hflag|hclosed
      · exact hflag
      · rw [closed,stage] at hclosed
        cases hclosed
    simp only [work,stage,hflag,if_true,Acceptor.weight]
    omega
  | accept stage =>
    simp only [work,stage,Acceptor.weight]
    omega
  | wouldBlock stage =>
    simp only [work,stage,Acceptor.weight]
    omega
  | acceptFails stage =>
    simp only [work,stage,Acceptor.weight]
    omega
  | send stage room =>
    simp only [work,stage,Acceptor.weight,List.length_append,List.length_singleton]
    omega
  | joined stage found ended =>
    have hlt := (List.getElem?_eq_some_iff.mp found).1
    simp only [work,stage,Acceptor.weight]
    omega
  | done stage behind =>
    simp only [work,stage,Acceptor.weight]
    omega
  | lock found free =>
    have hsum := sum_weight_put found .receiving
    simp only [Worker.weight] at hsum
    simp only [work,put,List.length_set]
    omega
  | @receive w c rest found next =>
    have hsum := sum_weight_put found (.received c)
    simp only [Worker.weight] at hsum
    simp only [work,put,List.length_set,next,List.length_cons]
    omega
  | @rendezvous w c found empty stage direct =>
    have hsum := sum_weight_put found (.received c)
    simp only [Worker.weight] at hsum
    simp only [work,put,List.length_set,stage,Acceptor.weight]
    omega
  | disconnect found empty dropped =>
    have hsum := sum_weight_put found .returned
    simp only [Worker.weight] at hsum
    simp only [work,put,List.length_set]
    omega
  | @handle w c found =>
    have hsum := sum_weight_put found (.handling c)
    simp only [Worker.weight] at hsum
    simp only [work,put,List.length_set]
    omega
  | finish found =>
    have hsum := sum_weight_put found .waiting
    simp only [Worker.weight] at hsum
    simp only [work,put,List.length_set]
    omega
  | panic found =>
    have hsum := sum_weight_put found .panicked
    simp only [Worker.weight] at hsum
    simp only [work,put,List.length_set]
    omega

/-- A worker that holds the lock goes on once there is a connection for it or
the sender is dropped. -/
theorem canMove_of_receiving (found : s.workers[w]?=some .receiving)
    (hserved : s.queue≠[] ∨ s.closed=true ∨ ∃ c,s.acceptor=.sending c ∧ s.capacity=0) :
    s.CanMove := by
  cases hq : s.queue with
  | cons c rest =>
    have hstep : s.step (.receive w)=some {s.put w (.received c) with queue := rest} := by
      rw [step,if_pos found,hq]
    exact ⟨_,_,rfl,rfl,hstep⟩
  | nil =>
    rcases hserved with hne|hclosed|⟨c,hs,hzero⟩
    · exact (hne hq).elim
    · have hstep : s.step (.disconnect w)=some (s.put w .returned) := by
        rw [step,if_pos ⟨found,hq,hclosed⟩]
      exact ⟨_,_,rfl,rfl,hstep⟩
    · have hstep : s.step (.receive w)=
          some {s.put w (.received c) with acceptor := .polling} := by
        rw [step,if_pos found,hq]
        dsimp only
        rw [hs]
        exact if_pos hzero
      exact ⟨_,_,rfl,rfl,hstep⟩

/-- A worker that is not over and runs no handler goes on then, or the one
that holds the lock does. -/
theorem canMove_of_worker (found : s.workers[w]?=some worker) (halive : worker.ended=false)
    (hidle : ¬s.Handling)
    (hserved : s.queue≠[] ∨ s.closed=true ∨ ∃ c,s.acceptor=.sending c ∧ s.capacity=0) :
    s.CanMove := by
  cases worker with
  | waiting =>
    by_cases hm : .receiving ∈ s.workers
    · obtain ⟨i,hi⟩ := List.mem_iff_getElem?.mp hm
      exact canMove_of_receiving hi hserved
    · have hstep : s.step (.lock w)=some (s.put w .receiving) := by
        rw [step,if_pos ⟨found,hm⟩]
      exact ⟨_,_,rfl,rfl,hstep⟩
  | receiving => exact canMove_of_receiving found hserved
  | received c =>
    have hstep : s.step (.handle w)=
        some {s.put w (.handling c) with handed := s.handed++[c]} := by
      rw [step,found]
    exact ⟨_,_,rfl,rfl,hstep⟩
  | handling c => exact (hidle ⟨w,c,found⟩).elim
  | returned => cases halive
  | panicked => cases halive

/-- A server that has not returned goes on, unless it waits for a handler or
is blocked in front of a dead pool. -/
theorem progress (s : ConnectionPool) : (∃ result,s.acceptor=.returned result) ∨
    s.Blocked ∧ ¬s.Alive ∨ s.Handling ∨ s.CanMove := by
  by_cases hidle : s.Handling
  · exact Or.inr (Or.inr (Or.inl hidle))
  cases ha : s.acceptor with
  | polling =>
    have hstep : s.step .poll=some
        {s with acceptor := if s.shutdown then .joining (.ok ()) 0 false else .accepting} := by
      rw [step,if_pos ha]
    exact Or.inr (Or.inr (Or.inr ⟨_,_,rfl,rfl,hstep⟩))
  | accepting =>
    have hstep : s.step .wouldBlock=some {s with acceptor := .polling} := by
      rw [step,if_pos ha]
    exact Or.inr (Or.inr (Or.inr ⟨_,_,rfl,rfl,hstep⟩))
  | sending c =>
    by_cases hroom : s.queue.length<s.capacity
    · have hstep : s.step .send=some {s with acceptor := .polling,queue := s.queue++[c]} := by
        rw [step,ha]
        dsimp only
        rw [if_neg s.receivers_ne_zero,if_pos hroom]
      exact Or.inr (Or.inr (Or.inr ⟨_,_,rfl,rfl,hstep⟩))
    · have hfull : s.capacity ≤ s.queue.length := not_lt.mp hroom
      by_cases halive : s.Alive
      · obtain ⟨worker,hm,hended⟩ := halive
        obtain ⟨w,found⟩ := List.mem_iff_getElem?.mp hm
        have hserved : s.queue≠[] ∨ s.closed=true ∨ ∃ c,s.acceptor=.sending c ∧ s.capacity=0 := by
          cases hq : s.queue with
          | nil =>
            rw [hq,List.length_nil] at hfull
            exact Or.inr (Or.inr ⟨c,ha,Nat.le_zero.mp hfull⟩)
          | cons d rest => exact Or.inl (List.cons_ne_nil d rest)
        exact Or.inr (Or.inr (Or.inr (canMove_of_worker found hended hidle hserved)))
      · have hpending : s.acceptor.pending≠[] := by
          rw [ha]
          exact List.cons_ne_nil c []
        exact Or.inr (Or.inl ⟨⟨hpending,hfull⟩,halive⟩)
  | joining result w b =>
    have hclosed : s.closed=true := by rw [closed,ha]
    cases found : s.workers[w]? with
    | none =>
      have hstep : s.step .join=some
          {s with acceptor := .returned (if b then .error .networkFailure else result)} := by
        rw [step,ha]
        dsimp only
        rw [found]
      exact Or.inr (Or.inr (Or.inr ⟨_,_,rfl,rfl,hstep⟩))
    | some worker =>
      right; right; right
      cases hended : worker.ended with
      | false => exact canMove_of_worker found hended hidle (Or.inr (Or.inl hclosed))
      | true =>
        cases worker with
        | returned =>
          have hstep : s.step .join=some {s with acceptor := .joining result (w+1) b} := by
            rw [step,ha]
            dsimp only
            rw [found]
          exact ⟨_,_,rfl,rfl,hstep⟩
        | panicked =>
          have hstep : s.step .join=some {s with acceptor := .joining result (w+1) true} := by
            rw [step,ha]
            dsimp only
            rw [found]
          exact ⟨_,_,rfl,rfl,hstep⟩
        | waiting => cases hended
        | receiving => cases hended
        | received c => cases hended
        | handling c => cases hended
  | returned result => exact Or.inl ⟨result,rfl⟩

/-- No event adds or takes away a worker. -/
theorem length_step (hstep : s.step event=some t) : t.workers.length=s.workers.length := by
  cases effect_of_step hstep with
  | lock found free => exact List.length_set
  | receive found next => exact List.length_set
  | rendezvous found empty stage direct => exact List.length_set
  | disconnect found empty dropped => exact List.length_set
  | handle found => exact List.length_set
  | finish found => exact List.length_set
  | panic found => exact List.length_set
  | store value => rfl
  | poll stage => rfl
  | accept stage => rfl
  | wouldBlock stage => rfl
  | acceptFails stage => rfl
  | send stage room => rfl
  | joined stage found ended => rfl
  | done stage behind => rfl

/-- A pool that is alive stays so until a handler panics or the sender is dropped. -/
theorem alive_step (h : s.closed=true ∨ s.Alive) (hcalm : event.isPanic=false)
    (hstep : s.step event=some t) : t.closed=true ∨ t.Alive := by
  rcases h with hclosed|halive
  · exact Or.inl (closed_stays hclosed hstep)
  · cases effect_of_step hstep with
    | panic found => cases hcalm
    | disconnect found empty dropped => exact Or.inl dropped
    | lock found free => exact Or.inr (alive_of_put found rfl)
    | receive found next => exact Or.inr (alive_of_put found rfl)
    | rendezvous found empty stage direct => exact Or.inr (alive_of_put found rfl)
    | handle found => exact Or.inr (alive_of_put found rfl)
    | finish found => exact Or.inr (alive_of_put found rfl)
    | store value => exact Or.inr halive
    | poll stage => exact Or.inr halive
    | accept stage => exact Or.inr halive
    | wouldBlock stage => exact Or.inr halive
    | acceptFails stage => exact Or.inr halive
    | send stage room => exact Or.inr halive
    | joined stage found ended => exact Or.inr halive
    | done stage behind => exact Or.inr halive

/-- A server in front of a dead pool that has not dropped the sender is the
only one that does not lead on to its return. -/
theorem progress_of_alive (h : s.closed=true ∨ s.Alive) :
    (∃ result,s.acceptor=.returned result) ∨
      ∃ event t,(event.isStore=false ∧ event.isPanic=false) ∧ s.step event=some t := by
  rcases s.progress with hdone|⟨hb,hdead⟩|⟨w,c,found⟩|⟨event,t,hquiet,hends,hstep⟩
  · exact Or.inl hdone
  · rcases h with hclosed|halive
    · cases hb.open_.symm.trans hclosed
    · exact (hdead halive).elim
  · have hstep : s.step (.finish w)=some (s.put w .waiting) := by
      rw [step,found]
    exact Or.inr ⟨_,_,⟨rfl,rfl⟩,hstep⟩
  · have hcalm : event.isPanic=false := by
      cases event <;> first | rfl | cases hends
    exact Or.inr ⟨event,t,⟨hquiet,hcalm⟩,hstep⟩

end Steps

section Runs

variable {n capacity : ℕ} {s t u : ConnectionPool} {events more : List ServerEvent}

/-- Two sequences of events in a row are one. -/
theorem run_append (h : s.run events=some t) (hmore : t.run more=some u) :
    s.run (events++more)=some u := by
  induction events generalizing s with
  | nil =>
    cases h
    exact hmore
  | cons event rest ih =>
    rw [run,Option.bind_eq_some_iff] at h
    obtain ⟨v,hv,ht⟩ := h
    rw [List.cons_append,run,Option.bind_eq_some_iff]
    exact ⟨v,hv,ih ht⟩

/-- A sequence of events without stores to the flag is a path without them. -/
theorem path_of_run (h : s.run events=some t) (hquiet : ∀ event ∈ events,event.isStore=false) :
    Progress.Path (fun s event t => s.step event=some t) (fun _ event => event.isStore=false)
      events s t := by
  induction events generalizing s with
  | nil =>
    cases h
    rfl
  | cons event rest ih =>
    rw [run,Option.bind_eq_some_iff] at h
    obtain ⟨u,hu,ht⟩ := h
    obtain ⟨hfirst,hrest⟩ := List.forall_mem_cons.mp hquiet
    exact ⟨u,hfirst,hu,ih ht hrest⟩

/-- While the acceptor is to stop, steps leave less to do. -/
theorem asked_shrinks : Progress.Shrinks (fun s event t => step s event=some t)
    (fun _ event => event.isStore=false) Asked work where
  keeps _ _ _ h hquiet hstep := h.step hquiet hstep
  less _ _ _ h hquiet hstep := h.work_lt hquiet hstep

/-- There is only so much to do for a pool of that many workers. -/
theorem work_le (s : ConnectionPool) : s.work ≤ 4*s.queue.length+5*s.workers.length+8 := by
  have hworkers : (s.workers.map Worker.weight).sum ≤ s.workers.length*4 := by
    rw [show s.workers.length=(s.workers.map Worker.weight).length from List.length_map _ |>.symm]
    refine List.sum_le_card_nsmul _ 4 fun weight hm => ?_
    obtain ⟨worker,_,rfl⟩ := List.mem_map.mp hm
    cases worker <;> simp [Worker.weight]
  have hacceptor : s.acceptor.weight s.workers.length ≤ s.workers.length+8 := by
    cases s.acceptor <;> simp only [Acceptor.weight] <;> omega
  rw [work]
  omega

/-- Behind a request to stop that nobody takes back, the server takes a
bounded number of steps. It is never left waiting for anything but a handler,
unless as many handlers have panicked as there are workers; and if they have
not, and those that run return, then the server returns. -/
theorem shutdown_completes (h : (start n capacity).run events=some s) (hasked : s.Asked)
    (hmore : s.run more=some t) (hquiet : ∀ event ∈ more,event.isStore=false) :
    more.length ≤ 4*s.queue.length+5*n+8 ∧
    ((∃ result,t.acceptor=.returned result) ∨ n ≤ (events++more).countP ServerEvent.isPanic ∨
      t.Handling ∨ t.CanMove) ∧
    ((events++more).countP ServerEvent.isPanic<n → ∃ u result,
      Transition.Reaches (fun s event t => s.step event=some t)
        (fun _ event => event.isStore=false ∧ event.isPanic=false) t u ∧
      u.acceptor=.returned result) := by
  have hpath := path_of_run hmore hquiet
  have hlength : s.workers.length=n := by
    have hkeep := (reaches_of_run h).invariant (I:=fun u => u.workers.length=n)
      (fun _ _ _ hi _ hstep => (length_step hstep).trans hi)
    exact hkeep List.length_replicate
  have htasked : t.Asked := hpath.reaches.invariant (fun _ _ _ hi hq hstep => hi.step hq hstep) hasked
  have halive : (events++more).countP ServerEvent.isPanic<n → t.closed=true ∨ t.Alive := by
    intro hfew
    cases hc : t.closed with
    | true => exact Or.inl rfl
    | false => exact Or.inr (alive_of_few_panics (run_append h hmore) hfew hc)
  refine ⟨?_,?_,fun hfew => ?_⟩
  · have hsteps := asked_shrinks.length_le hpath hasked
    have hwork := s.work_le
    rw [hlength] at hwork
    omega
  · rcases t.progress with hdone|⟨hb,hdead⟩|hhandling|hmove
    · exact Or.inl hdone
    · right; left
      by_contra hfew
      rcases halive (not_le.mp hfew) with hclosed|hlive
      · cases hb.open_.symm.trans hclosed
      · exact hdead hlive
    · exact Or.inr (Or.inr (Or.inl hhandling))
    · exact Or.inr (Or.inr (Or.inr hmove))
  · have hshrinks : Progress.Shrinks (fun s event t => step s event=some t)
        (fun _ event => event.isStore=false ∧ event.isPanic=false)
        (fun u => u.Asked ∧ (u.closed=true ∨ u.Alive)) work :=
      ⟨fun _ _ _ hi hq hstep => ⟨hi.1.step hq.1 hstep,alive_step hi.2 hq.2 hstep⟩,
        fun _ _ _ hi hq hstep => hi.1.work_lt hq.1 hstep⟩
    obtain ⟨u,hreach,result,hr⟩ := hshrinks.exists_final
      (fun u hu => progress_of_alive hu.2) ⟨htasked,halive hfew⟩
    exact ⟨u,result,hreach,hr⟩

end Runs

section Sample

/-- The server on two workers when shutdown is asked for with a connection queued. -/
def stoppingPool : ConnectionPool := ⟨16,[.waiting,.waiting],.polling,[0],true,1,[]⟩

/-- From there it returns within the bound. -/
theorem shutdown_completes_stoppingPool : (shutdownEvents.drop 4).length ≤ 22 ∧
    ((∃ result,returnedPool.acceptor=.returned result) ∨
      2 ≤ (shutdownEvents.take 4++shutdownEvents.drop 4).countP ServerEvent.isPanic ∨
      returnedPool.Handling ∨ returnedPool.CanMove) ∧
    ∃ u result,Transition.Reaches (fun s event t => s.step event=some t)
      (fun _ event => event.isStore=false ∧ event.isPanic=false) returnedPool u ∧
        u.acceptor=.returned result := by
  have hasked : (start 2 16).run (shutdownEvents.take 4)=some stoppingPool := by decide +kernel
  have hmore : stoppingPool.run (shutdownEvents.drop 4)=some returnedPool := by decide +kernel
  obtain ⟨hbound,hprogress,hreturn⟩ :=
    shutdown_completes hasked (Or.inl rfl) hmore (by decide +kernel)
  exact ⟨hbound,hprogress,hreturn (by decide +kernel)⟩

end Sample

end ConnectionPool

end OpenHost
