import OpenHost.GracefulShutdown

/-!
# An acceptor in front of a dead pool

The acceptor blocks while the channel is full. The server owns the receiver
itself, so the death of all workers is never reported to the sender: once the
last worker has panicked and the channel is full, sending blocks for ever and
shutdown is not observed any more. As long as no connection is accepted into
such a state and the last worker does not panic into it, a blocked acceptor
has a worker that lets it go on.
-/

namespace OpenHost

/-- The event is the panic of a handler. -/
def ServerEvent.isPanic : ServerEvent → Bool
  | .panic _ => true
  | _ => false

namespace ConnectionPool

/-- The acceptor sends and the channel has no room. -/
def Blocked (s : ConnectionPool) : Prop := s.acceptor.pending≠[] ∧ s.capacity ≤ s.queue.length

/-- Some worker is not over. -/
def Alive (s : ConnectionPool) : Prop := ∃ worker ∈ s.workers,worker.ended=false

/-- A blocked acceptor has a worker that is alive, and events can follow after
which it is about to load the shutdown flag again. -/
def NeverStuck (s : ConnectionPool) : Prop :=
  s.Blocked → s.Alive ∧ ∃ t,Reaches s t ∧ t.acceptor=.polling

/-- A connection is accepted only while the channel has room or a worker is
alive, and while the acceptor is blocked a worker panics only beside another
one that is alive. -/
def Guarded (s : ConnectionPool) : ServerEvent → Prop
  | .accept => s.queue.length < s.capacity ∨ s.Alive
  | .panic w => s.Blocked → ∃ worker ∈ s.workers.eraseIdx w,worker.ended=false
  | _ => True

/-- The channel holds no more than it has room for. -/
def Bounded (s : ConnectionPool) : Prop := s.queue.length ≤ s.capacity

section Steps

variable {s t : ConnectionPool} {event : ServerEvent} {w c : ℕ} {worker moved : Worker}

/-- The channel never overflows. -/
theorem Bounded.step (h : s.Bounded) (hstep : s.step event=some t) : t.Bounded := by
  rw [Bounded] at h ⊢
  cases effect_of_step hstep with
  | send stage room =>
    rw [List.length_append,List.length_singleton]
    exact room
  | receive found next =>
    rw [next,List.length_cons] at h
    dsimp only [put]
    omega
  | store value => exact h
  | poll stage => exact h
  | accept stage => exact h
  | wouldBlock stage => exact h
  | acceptFails stage => exact h
  | joined stage found ended => exact h
  | done stage behind => exact h
  | lock found free => exact h
  | rendezvous found empty stage direct => exact h
  | disconnect found empty dropped => exact h
  | handle found => exact h
  | finish found => exact h
  | panic found => exact h

/-- A worker that moves without ending is alive. -/
theorem alive_of_put (found : s.workers[w]?=some worker) (halive : moved.ended=false) :
    ∃ other ∈ s.workers.set w moved,other.ended=false :=
  ⟨moved,List.mem_set (List.getElem?_eq_some_iff.mp found).1 moved,halive⟩

/-- Behind a worker that has panicked, a worker is alive exactly if another one was. -/
theorem alive_of_panic :
    (∃ other ∈ s.workers.set w .panicked,other.ended=false) ↔
      ∃ other ∈ s.workers.eraseIdx w,other.ended=false := by
  constructor
  · rintro ⟨other,hm,halive⟩
    obtain ⟨i,hi⟩ := List.mem_iff_getElem?.mp hm
    have hne : i≠w := by
      rintro rfl
      rw [List.getElem?_set_self',Option.map_eq_map,Option.map_eq_some_iff] at hi
      obtain ⟨_,_,rfl⟩ := hi
      cases halive
    rw [List.getElem?_set_ne hne.symm] at hi
    exact ⟨other,List.mem_eraseIdx_iff_getElem?.mpr ⟨i,hne,hi⟩,halive⟩
  · rintro ⟨other,hm,halive⟩
    obtain ⟨i,hne,hi⟩ := List.mem_eraseIdx_iff_getElem?.mp hm
    rw [← List.getElem?_set_ne hne.symm (a:=.panicked)] at hi
    exact ⟨other,List.mem_of_getElem? hi,halive⟩

/-- An acceptor that is blocked sends. -/
theorem Blocked.sending (h : s.Blocked) : ∃ c,s.acceptor=.sending c := by
  have hp := h.1
  cases ha : s.acceptor with
  | sending c => exact ⟨c,rfl⟩
  | polling => exact (hp (by rw [ha]; rfl)).elim
  | accepting => exact (hp (by rw [ha]; rfl)).elim
  | joining result i b => exact (hp (by rw [ha]; rfl)).elim
  | returned result => exact (hp (by rw [ha]; rfl)).elim

/-- A blocked acceptor has not dropped the sender. -/
theorem Blocked.open_ (h : s.Blocked) : s.closed=false := by
  obtain ⟨c,hc⟩ := h.sending
  rw [closed,hc]

/-- Behind one step, a blocked acceptor has a worker that is alive exactly if
the step was guarded. -/
theorem alive_after_iff (h : s.Blocked → s.Alive) (hstep : s.step event=some t) :
    (t.Blocked → t.Alive) ↔ s.Guarded event := by
  cases effect_of_step hstep with
  | store value => exact iff_of_true h trivial
  | poll stage =>
    refine iff_of_true (fun hb => ?_) trivial
    cases hs : s.shutdown <;> simp [Blocked,hs,Acceptor.pending] at hb
  | accept stage =>
    rw [Guarded,← not_le,← imp_iff_not_or]
    exact ⟨fun ht hfull => ht ⟨by simp [Acceptor.pending],hfull⟩,fun ha hb => ha hb.2⟩
  | wouldBlock stage => exact iff_of_true (fun hb => (hb.1 rfl).elim) trivial
  | acceptFails stage => exact iff_of_true (fun hb => (hb.1 rfl).elim) trivial
  | send stage room => exact iff_of_true (fun hb => (hb.1 rfl).elim) trivial
  | joined stage found ended => exact iff_of_true (fun hb => (hb.1 rfl).elim) trivial
  | done stage behind => exact iff_of_true (fun hb => (hb.1 rfl).elim) trivial
  | lock found free => exact iff_of_true (fun _ => alive_of_put found rfl) trivial
  | receive found next => exact iff_of_true (fun _ => alive_of_put found rfl) trivial
  | rendezvous found empty stage direct =>
    exact iff_of_true (fun hb => (hb.1 rfl).elim) trivial
  | disconnect found empty dropped =>
    refine iff_of_true (fun hb => ?_) trivial
    have hopen : s.closed=false := hb.open_
    rw [dropped] at hopen
    cases hopen
  | handle found => exact iff_of_true (fun _ => alive_of_put found rfl) trivial
  | finish found => exact iff_of_true (fun _ => alive_of_put found rfl) trivial
  | panic found => exact imp_congr_right fun _ => alive_of_panic

/-- One step that can happen. -/
theorem reaches_step (hstep : s.step event=some t) : Reaches s t := .single ⟨event,trivial,hstep⟩

/-- A sender with room in the channel goes on. -/
theorem proceeds_of_room (hs : s.acceptor=.sending c) (hroom : s.queue.length < s.capacity) :
    ∃ t,Reaches s t ∧ t.acceptor=.polling := by
  have hstep : s.step .send=some {s with acceptor := .polling,queue := s.queue++[c]} := by
    rw [step,hs]
    dsimp only
    rw [if_neg s.receivers_ne_zero,if_pos hroom]
  exact ⟨_,reaches_step hstep,rfl⟩

/-- A worker that receives lets the sender go on. -/
theorem proceeds_of_receiving (hs : s.acceptor=.sending c) (hb : s.Bounded)
    (found : s.workers[w]?=some .receiving) : ∃ t,Reaches s t ∧ t.acceptor=.polling := by
  cases hq : s.queue with
  | nil =>
    by_cases hc : s.capacity=0
    · have hstep : s.step (.receive w)=
          some {s.put w (.received c) with acceptor := .polling} := by
        rw [step,if_pos found,hq]
        dsimp only
        rw [hs]
        exact if_pos hc
      exact ⟨_,reaches_step hstep,rfl⟩
    · refine proceeds_of_room hs ?_
      rw [hq]
      exact Nat.pos_of_ne_zero hc
  | cons d rest =>
    have hstep : s.step (.receive w)=some {s.put w (.received d) with queue := rest} := by
      rw [step,if_pos found,hq]
    have hroom : rest.length < s.capacity := by
      rw [Bounded,hq,List.length_cons] at hb
      omega
    let u : ConnectionPool := {s.put w (.received d) with queue := rest}
    have hu : u.acceptor=.sending c := hs
    obtain ⟨t,ht,hpolling⟩ := proceeds_of_room hu hroom
    exact ⟨t,(reaches_step hstep).trans ht,hpolling⟩

/-- A worker that waits lets the sender go on, or the one that holds the lock does. -/
theorem proceeds_of_waiting (hs : s.acceptor=.sending c) (hb : s.Bounded)
    (found : s.workers[w]?=some .waiting) : ∃ t,Reaches s t ∧ t.acceptor=.polling := by
  by_cases hm : .receiving ∈ s.workers
  · obtain ⟨i,hi⟩ := List.mem_iff_getElem?.mp hm
    exact proceeds_of_receiving hs hb hi
  · have hstep : s.step (.lock w)=some (s.put w .receiving) := by
      rw [step,if_pos ⟨found,hm⟩]
    have hlocked : (s.put w .receiving).workers[w]?=some .receiving := by
      rw [put,List.getElem?_set_self (List.getElem?_eq_some_iff.mp found).1]
    have hs' : (s.put w .receiving).acceptor=.sending c := hs
    obtain ⟨t,ht,hpolling⟩ := proceeds_of_receiving hs' hb hlocked
    exact ⟨t,(reaches_step hstep).trans ht,hpolling⟩

/-- A worker whose handler runs lets the sender go on once the handler returns. -/
theorem proceeds_of_handling {d : ℕ} (hs : s.acceptor=.sending c) (hb : s.Bounded)
    (found : s.workers[w]?=some (.handling d)) : ∃ t,Reaches s t ∧ t.acceptor=.polling := by
  have hstep : s.step (.finish w)=some (s.put w .waiting) := by
    rw [step,found]
  have hfree : (s.put w .waiting).workers[w]?=some .waiting := by
    rw [put,List.getElem?_set_self (List.getElem?_eq_some_iff.mp found).1]
  have hs' : (s.put w .waiting).acceptor=.sending c := hs
  obtain ⟨t,ht,hpolling⟩ := proceeds_of_waiting hs' hb hfree
  exact ⟨t,(reaches_step hstep).trans ht,hpolling⟩

/-- A sender with a worker that is alive can go on, wherever that worker is. -/
theorem proceeds_of_alive (hs : s.acceptor=.sending c) (hb : s.Bounded) (ha : s.Alive) :
    ∃ t,Reaches s t ∧ t.acceptor=.polling := by
  obtain ⟨worker,hm,halive⟩ := ha
  obtain ⟨w,found⟩ := List.mem_iff_getElem?.mp hm
  cases worker with
  | waiting => exact proceeds_of_waiting hs hb found
  | receiving => exact proceeds_of_receiving hs hb found
  | handling d => exact proceeds_of_handling hs hb found
  | received d =>
    have hstep : s.step (.handle w)=
        some {s.put w (.handling d) with handed := s.handed++[d]} := by
      rw [step,found]
    let u : ConnectionPool := {s.put w (.handling d) with handed := s.handed++[d]}
    have hhandling : u.workers[w]?=some (.handling d) :=
      List.getElem?_set_self (List.getElem?_eq_some_iff.mp found).1
    have hu : u.acceptor=.sending c := hs
    obtain ⟨t,ht,hpolling⟩ := proceeds_of_handling hu hb hhandling
    exact ⟨t,(reaches_step hstep).trans ht,hpolling⟩
  | returned => cases halive
  | panicked => cases halive

/-- An acceptor is not stuck exactly if a worker is alive while it is blocked. -/
theorem neverStuck_iff (hb : s.Bounded) : s.NeverStuck ↔ (s.Blocked → s.Alive) := by
  constructor
  · intro h hblocked
    exact (h hblocked).1
  · intro h hblocked
    obtain ⟨c,hs⟩ := hblocked.sending
    exact ⟨h hblocked,proceeds_of_alive hs hb (h hblocked)⟩

/-- An acceptor that is blocked in front of a dead pool stays so for ever. -/
theorem dead_stays (hb : s.Blocked) (hd : ¬s.Alive) (hstep : s.step event=some t) :
    t.Blocked ∧ ¬t.Alive := by
  obtain ⟨c,hs⟩ := hb.sending
  have hdead : ∀ {w : ℕ} {worker : Worker},s.workers[w]?=some worker → worker.ended≠false :=
    fun found halive => hd ⟨_,List.mem_of_getElem? found,halive⟩
  cases effect_of_step hstep with
  | store value => exact ⟨hb,hd⟩
  | poll stage => cases hs.symm.trans stage
  | accept stage => cases hs.symm.trans stage
  | wouldBlock stage => cases hs.symm.trans stage
  | acceptFails stage => cases hs.symm.trans stage
  | send stage room => exact (Nat.not_lt.mpr hb.2 room).elim
  | joined stage found ended => cases hs.symm.trans stage
  | done stage behind => cases hs.symm.trans stage
  | lock found free => exact (hdead found rfl).elim
  | receive found next => exact (hdead found rfl).elim
  | rendezvous found empty stage direct => exact (hdead found rfl).elim
  | disconnect found empty dropped => exact (hdead found rfl).elim
  | handle found => exact (hdead found rfl).elim
  | finish found => exact (hdead found rfl).elim
  | panic found => exact (hdead found rfl).elim

/-- A sender that was dropped stays dropped. -/
theorem closed_stays (h : s.closed=true) (hstep : s.step event=some t) : t.closed=true := by
  cases effect_of_step hstep with
  | store value => exact h
  | poll stage => cases h.symm.trans (by rw [closed,stage])
  | accept stage => cases h.symm.trans (by rw [closed,stage])
  | wouldBlock stage => cases h.symm.trans (by rw [closed,stage])
  | acceptFails stage => rfl
  | send stage room => cases h.symm.trans (by rw [closed,stage])
  | joined stage found ended => rfl
  | done stage behind => rfl
  | lock found free => exact h
  | receive found next => exact h
  | rendezvous found empty stage direct => cases h.symm.trans (by rw [closed,stage])
  | disconnect found empty dropped => exact h
  | handle found => exact h
  | finish found => exact h
  | panic found => exact h

/-- A worker that was alive gives its share of the receiver up exactly if it ends. -/
theorem receivers_put (found : s.workers[w]?=some worker) (halive : worker.ended=false) :
    (s.put w moved).receivers+(if moved.ended=true then 1 else 0)=s.receivers := by
  have hw := countP_moved found (fun other => !other.ended) moved
  rw [halive,Bool.not_false,if_pos rfl] at hw
  rw [receivers,receivers]
  dsimp only [put]
  cases hm : moved.ended with
  | true =>
    rw [hm] at hw
    simp only [Bool.not_true,Bool.false_eq_true,if_false,if_true] at hw ⊢
    omega
  | false =>
    rw [hm] at hw
    simp only [Bool.not_false,Bool.false_eq_true,if_false,if_true] at hw ⊢
    omega

/-- While the sender is there, owners of the receiver are lost only to panics. -/
theorem receivers_step (hopen : t.closed=false) (hstep : s.step event=some t) :
    t.receivers+(if event.isPanic=true then 1 else 0)=s.receivers := by
  cases effect_of_step hstep with
  | store value => rfl
  | poll stage => rfl
  | accept stage => rfl
  | wouldBlock stage => rfl
  | acceptFails stage => rfl
  | send stage room => rfl
  | joined stage found ended => rfl
  | done stage behind => rfl
  | lock found free => exact receivers_put found rfl
  | receive found next => exact receivers_put found rfl
  | rendezvous found empty stage direct => exact receivers_put found rfl
  | disconnect found empty dropped => cases hopen.symm.trans dropped
  | handle found => exact receivers_put found rfl
  | finish found => exact receivers_put found rfl
  | panic found => exact receivers_put found rfl

end Steps

section Runs

variable {n capacity : ℕ} {s t : ConnectionPool} {events : List ServerEvent}

/-- While the sender is there, a run loses one owner of the receiver for each panic. -/
theorem receivers_of_run (hopen : t.closed=false) (h : s.run events=some t) :
    t.receivers+events.countP ServerEvent.isPanic=s.receivers := by
  induction events generalizing s with
  | nil =>
    cases h
    rfl
  | cons event rest ih =>
    rw [run,Option.bind_eq_some_iff] at h
    obtain ⟨u,hu,ht⟩ := h
    have huopen : u.closed=false := by
      by_contra hc
      have hclosed : t.closed=true := (reaches_of_run ht).invariant
        (fun _ _ _ hi _ hstep => closed_stays hi hstep) (Bool.not_eq_false _ ▸ hc)
      cases hopen.symm.trans hclosed
    have hstep := receivers_step huopen hu
    rw [List.countP_cons]
    have hrest := ih ht
    omega

/-- While the sender is there and fewer handlers have panicked than there are
workers, a worker is alive. -/
theorem alive_of_few_panics (h : (start n capacity).run events=some s)
    (hfew : events.countP ServerEvent.isPanic < n) (hopen : s.closed=false) : s.Alive := by
  have hcount := receivers_of_run hopen h
  have hstart : (start n capacity).receivers=1+n := by
    rw [receivers,start,List.countP_replicate]
    rfl
  rw [hstart,receivers] at hcount
  have hpos : 0 < s.workers.countP fun worker => !worker.ended := by omega
  obtain ⟨worker,hm,halive⟩ := List.countP_pos_iff.mp hpos
  exact ⟨worker,hm,by simpa using halive⟩

/-- In every run whose steps are guarded the acceptor is never stuck, and the
first step that is not guarded leads to a state in which it is. -/
theorem neverStuck_of_guarded (h : Transition.Reaches (fun s event t => s.step event=some t) Guarded
      (start n capacity) s) :
    s.NeverStuck ∧ ∀ event t,s.step event=some t → (t.NeverStuck ↔ s.Guarded event) := by
  have hbounded : s.Bounded :=
    h.invariant (fun _ _ _ hi _ hs => hi.step hs) (Nat.zero_le capacity)
  have halive : s.Blocked → s.Alive := by
    refine h.invariant (I:=fun u => u.Blocked → u.Alive) ?_ fun hb => (hb.1 rfl).elim
    intro u event v hu hguard hstep
    exact (alive_after_iff hu hstep).mpr hguard
  refine ⟨(neverStuck_iff hbounded).mpr halive,fun event t hstep => ?_⟩
  rw [neverStuck_iff (hbounded.step hstep),alive_after_iff halive hstep]

/-- Nothing changes for an acceptor in front of a dead pool. -/
theorem dead_for_ever (hb : s.Blocked) (hd : ¬s.Alive) (h : Reaches s t) :
    t.Blocked ∧ ¬t.Alive :=
  h.invariant (I:=fun u => u.Blocked ∧ ¬u.Alive)
    (fun _ _ _ hi _ hstep => dead_stays hi.1 hi.2 hstep) ⟨hb,hd⟩

end Runs

section Sample

/-- Two workers and a channel for one connection, which is taken, so that the
next connection has to wait. -/
def fullPool : ConnectionPool := ⟨1,[.waiting,.waiting],.sending 1,[0],false,2,[]⟩

/-- The acceptor of the full pool is blocked and can go on. -/
theorem neverStuck_of_guarded_fullPool :
    fullPool.Blocked ∧ ∃ t,Reaches fullPool t ∧ t.acceptor=.polling := by
  have hblocked : fullPool.Blocked := ⟨nofun,by decide⟩
  have h : Transition.Reaches (fun s event t => s.step event=some t) Guarded (start 2 1) fullPool := by
    refine .head ⟨.poll,trivial,rfl⟩ (.head ⟨.accept,.inl Nat.one_pos,rfl⟩ ?_)
    refine .head ⟨.send,trivial,rfl⟩ (.head ⟨.poll,trivial,rfl⟩ ?_)
    exact .single ⟨.accept,.inr ⟨.waiting,List.mem_cons_self,rfl⟩,rfl⟩
  exact ⟨hblocked,((neverStuck_of_guarded h).1 hblocked).2⟩

/-- A connection reaches a worker and its handler panics. -/
def crashEvents (w : ℕ) : List ServerEvent :=
  [.poll,.accept,.send,.lock w,.receive w,.handle w,.panic w]

/-- Connections are queued, one more is accepted, and shutdown is asked for. -/
def fillEvents : ℕ → List ServerEvent
  | 0 => [.poll,.accept,.store true]
  | queued+1 => .poll::.accept::.send::fillEvents queued

/-- Both workers panic, and the channel is filled behind them. -/
def deadEvents : List ServerEvent := crashEvents 0++(crashEvents 1++fillEvents 16)

/-- The server on two workers behind these events. -/
def deadPool : ConnectionPool :=
  ⟨16,[.panicked,.panicked],.sending 18,List.range' 2 16,true,19,[0,1]⟩

/-- The server gets into a state in which the acceptor is blocked, no worker
is alive, and the shutdown flag is never loaded again. -/
theorem not_neverStuck_deadPool : Reaches (runUntilShutdown (some 2)) deadPool ∧
    deadPool.Blocked ∧ ¬deadPool.Alive ∧ deadPool.shutdown=true ∧
    ∀ t,Reaches deadPool t → t.acceptor≠.polling := by
  have hrun : (runUntilShutdown (some 2)).run deadEvents=some deadPool := by
    decide +kernel
  have hblocked : deadPool.Blocked := ⟨nofun,by decide⟩
  have hdead : ¬deadPool.Alive := by
    rintro ⟨worker,hm,halive⟩
    simp only [deadPool,List.mem_cons,List.not_mem_nil,or_false,or_self] at hm
    subst hm
    cases halive
  refine ⟨reaches_of_run hrun,hblocked,hdead,rfl,fun t ht hpolling => ?_⟩
  obtain ⟨c,hsending⟩ := (dead_for_ever hblocked hdead ht).1.sending
  cases hpolling.symm.trans hsending

end Sample

end ConnectionPool

end OpenHost
