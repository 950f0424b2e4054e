import OpenHost.Transition
import OpenHost.Transport

/-!
# The acceptor and its workers

A server accepts connections in one thread, sends them through a bounded
channel, and handles them in a pool of workers that share the receiver behind
a lock. The state says where every thread is; an event is one step of one
thread, or a store to the shutdown flag from outside. A handler may return or
panic at any time; a panic ends its worker, which does not hold the lock then.
-/

namespace OpenHost

/-- Where a worker is. -/
inductive Worker where
  /-- It wants the lock on the receiver. -/
  | waiting
  /-- It holds the lock and receives. -/
  | receiving
  /-- It has a connection and has released the lock. -/
  | received (connection : ℕ)
  /-- It runs the handler. -/
  | handling (connection : ℕ)
  /-- The thread has returned. -/
  | returned
  /-- The thread has unwound. -/
  | panicked
  deriving DecidableEq

/-- The thread is over. -/
def Worker.ended : Worker → Bool
  | .returned | .panicked => true
  | .waiting | .receiving | .received _ | .handling _ => false

/-- Where the accepting thread is. -/
inductive Acceptor where
  /-- It is about to load the shutdown flag. -/
  | polling
  /-- It is about to accept. -/
  | accepting
  /-- It sends a connection. -/
  | sending (connection : ℕ)
  /-- It has dropped the sender and waits for that worker; the result is that
  of accepting, and the flag says whether a worker before it has panicked. -/
  | joining (result : Except TransportError Unit) (worker : ℕ) (workerPanicked : Bool)
  /-- The server has returned. -/
  | returned (result : Except TransportError Unit)
  deriving DecidableEq

/-- One step of one thread. -/
inductive ServerEvent where
  /-- Somebody stores to the shutdown flag. -/
  | store (value : Bool)
  /-- The acceptor loads the flag. -/
  | poll
  /-- A connection is accepted. -/
  | accept
  /-- Nobody connects for now. -/
  | wouldBlock
  /-- The listener fails. -/
  | acceptFails
  /-- The connection is sent. -/
  | send
  /-- The acceptor joins the next worker, or returns behind the last one. -/
  | join
  /-- A worker takes the lock. -/
  | lock (worker : ℕ)
  /-- A worker receives a connection and releases the lock. -/
  | receive (worker : ℕ)
  /-- A worker is told that nothing will come any more. -/
  | disconnect (worker : ℕ)
  /-- A worker hands its connection to the handler. -/
  | handle (worker : ℕ)
  /-- The handler returns. -/
  | finish (worker : ℕ)
  /-- The handler panics. -/
  | panic (worker : ℕ)
  deriving DecidableEq

/-- A server that runs. Connections are numbered in the order in which they
were accepted. -/
structure ConnectionPool where
  /-- Capacity of the channel. -/
  capacity : ℕ
  /-- The workers. -/
  workers : List Worker
  /-- The accepting thread. -/
  acceptor : Acceptor
  /-- Connections in the channel, the oldest first. -/
  queue : List ℕ
  /-- The shutdown flag. -/
  shutdown : Bool
  /-- Number of connections that were accepted. -/
  accepted : ℕ
  /-- Connections that were handed to the handler, in order. -/
  handed : List ℕ
  deriving DecidableEq

/-- Number of workers for the parallelism that the system reports, if it does. -/
def workerCount (availableParallelism : Option ℕ) : ℕ :=
  max 2 (min (availableParallelism.getD 4) 32)

/-- Capacity of the channel for that many workers. -/
def queueCapacity (workerCount : ℕ) : ℕ := max (min (workerCount*2) (2^64-1)) 16

namespace ConnectionPool

/-- A pool whose workers have been spawned. -/
def start (workers capacity : ℕ) : ConnectionPool :=
  ⟨capacity,List.replicate workers .waiting,.polling,[],false,0,[]⟩

/-- The pool that the server starts with. -/
def runUntilShutdown (availableParallelism : Option ℕ) : ConnectionPool :=
  start (workerCount availableParallelism) (queueCapacity (workerCount availableParallelism))

/-- How many own the receiver: every worker that is not over, and the server
itself, which does not drop its own share while it sends. -/
def receivers (s : ConnectionPool) : ℕ := 1+s.workers.countP fun worker => !worker.ended

/-- The sender is dropped. -/
def closed (s : ConnectionPool) : Bool :=
  match s.acceptor with
  | .joining _ _ _ | .returned _ => true
  | .polling | .accepting | .sending _ => false

/-- Put a worker elsewhere. -/
def put (s : ConnectionPool) (w : ℕ) (worker : Worker) : ConnectionPool :=
  {s with workers := s.workers.set w worker}

/-- The state after an event, if it can happen. A channel without capacity
passes a connection from the sender to the receiver directly. -/
def step (s : ConnectionPool) : ServerEvent → Option ConnectionPool
  | .store value => some {s with shutdown := value}
  | .poll =>
    if s.acceptor=.polling then
      some {s with acceptor := if s.shutdown then .joining (.ok ()) 0 false else .accepting}
    else none
  | .accept =>
    if s.acceptor=.accepting then
      some {s with acceptor := .sending s.accepted,accepted := s.accepted+1}
    else none
  | .wouldBlock => if s.acceptor=.accepting then some {s with acceptor := .polling} else none
  | .acceptFails =>
    if s.acceptor=.accepting then some {s with acceptor := .joining (.error .networkFailure) 0 false}
    else none
  | .send =>
    match s.acceptor with
    | .sending connection =>
      if s.receivers=0 then some {s with acceptor := .joining (.error .networkFailure) 0 false}
      else if s.queue.length<s.capacity then
        some {s with acceptor := .polling,queue := s.queue++[connection]}
      else none
    | _ => none
  | .join =>
    match s.acceptor with
    | .joining result w workerPanicked =>
      match s.workers[w]? with
      | some .returned => some {s with acceptor := .joining result (w+1) workerPanicked}
      | some .panicked => some {s with acceptor := .joining result (w+1) true}
      | some _ => none
      | none =>
        some {s with
          acceptor := .returned (if workerPanicked then .error .networkFailure else result)}
    | _ => none
  | .lock w =>
    if s.workers[w]?=some .waiting ∧ .receiving∉s.workers then some (s.put w .receiving) else none
  | .receive w =>
    if s.workers[w]?=some .receiving then
      match s.queue with
      | connection::rest => some {s.put w (.received connection) with queue := rest}
      | [] =>
        match s.acceptor with
        | .sending connection =>
          if s.capacity=0 then some {s.put w (.received connection) with acceptor := .polling}
          else none
        | _ => none
    else none
  | .disconnect w =>
    if s.workers[w]?=some .receiving ∧ s.queue=[] ∧ s.closed=true then some (s.put w .returned)
    else none
  | .handle w =>
    match s.workers[w]? with
    | some (.received connection) =>
      some {s.put w (.handling connection) with handed := s.handed++[connection]}
    | _ => none
  | .finish w =>
    match s.workers[w]? with
    | some (.handling _) => some (s.put w .waiting)
    | _ => none
  | .panic w =>
    match s.workers[w]? with
    | some (.handling _) => some (s.put w .panicked)
    | _ => none

/-- The state after a sequence of events, if all of them can happen. -/
def run (s : ConnectionPool) : List ServerEvent → Option ConnectionPool
  | [] => some s
  | event::rest => (s.step event).bind fun t => t.run rest

/-- The pool can come from one to the other. -/
abbrev Reaches : ConnectionPool → ConnectionPool → Prop :=
  Transition.Reaches (fun s event t => s.step event=some t) fun _ _ => True

/-- What an event needs and what it does. -/
inductive Effect (s : ConnectionPool) : ServerEvent → ConnectionPool → Prop where
  /-- The flag changes. -/
  | store (value : Bool) : Effect s (.store value) {s with shutdown := value}
  /-- The acceptor stops or goes on. -/
  | poll (stage : s.acceptor=.polling) : Effect s .poll
    {s with acceptor := if s.shutdown then .joining (.ok ()) 0 false else .accepting}
  /-- The next connection is accepted. -/
  | accept (stage : s.acceptor=.accepting) : Effect s .accept
    {s with acceptor := .sending s.accepted,accepted := s.accepted+1}
  /-- The acceptor polls again. -/
  | wouldBlock (stage : s.acceptor=.accepting) : Effect s .wouldBlock {s with acceptor := .polling}
  /-- The acceptor stops with an error. -/
  | acceptFails (stage : s.acceptor=.accepting) : Effect s .acceptFails
    {s with acceptor := .joining (.error .networkFailure) 0 false}
  /-- The connection is queued. -/
  | send {c : ℕ} (stage : s.acceptor=.sending c) (room : s.queue.length<s.capacity) :
    Effect s .send {s with acceptor := .polling,queue := s.queue++[c]}
  /-- A worker that is over is joined. -/
  | joined {result : Except TransportError Unit} {w : ℕ} {b : Bool} {worker : Worker}
    (stage : s.acceptor=.joining result w b) (found : s.workers[w]?=some worker)
    (ended : worker.ended=true) :
    Effect s .join {s with acceptor := .joining result (w+1) (b || worker=.panicked)}
  /-- All workers are joined. -/
  | done {result : Except TransportError Unit} {w : ℕ} {b : Bool}
    (stage : s.acceptor=.joining result w b) (behind : s.workers[w]?=none) : Effect s .join
    {s with acceptor := .returned (if b then .error .networkFailure else result)}
  /-- A worker gets the lock. -/
  | lock {w : ℕ} (found : s.workers[w]?=some .waiting) (free : .receiving∉s.workers) :
    Effect s (.lock w) (s.put w .receiving)
  /-- A worker takes the oldest connection. -/
  | receive {w c : ℕ} {rest : List ℕ} (found : s.workers[w]?=some .receiving)
    (next : s.queue=c::rest) :
    Effect s (.receive w) {s.put w (.received c) with queue := rest}
  /-- A worker takes the connection that is being sent. -/
  | rendezvous {w c : ℕ} (found : s.workers[w]?=some .receiving) (empty : s.queue=[])
    (stage : s.acceptor=.sending c) (direct : s.capacity=0) :
    Effect s (.receive w) {s.put w (.received c) with acceptor := .polling}
  /-- A worker returns. -/
  | disconnect {w : ℕ} (found : s.workers[w]?=some .receiving) (empty : s.queue=[])
    (dropped : s.closed=true) : Effect s (.disconnect w) (s.put w .returned)
  /-- A connection is handed over. -/
  | handle {w c : ℕ} (found : s.workers[w]?=some (.received c)) : Effect s (.handle w)
    {s.put w (.handling c) with handed := s.handed++[c]}
  /-- A worker is free again. -/
  | finish {w c : ℕ} (found : s.workers[w]?=some (.handling c)) :
    Effect s (.finish w) (s.put w .waiting)
  /-- A worker unwinds. -/
  | panic {w c : ℕ} (found : s.workers[w]?=some (.handling c)) :
    Effect s (.panic w) (s.put w .panicked)

/-- The server itself owns the receiver, so sending never reports that nobody does. -/
theorem receivers_ne_zero (s : ConnectionPool) : s.receivers≠0 := by
  rw [receivers]
  omega

/-- Every step is one of these effects. -/
theorem effect_of_step {s t : ConnectionPool} {event : ServerEvent}
    (h : s.step event=some t) : Effect s event t := by
  cases event with
  | store value =>
    cases h
    exact .store value
  | poll =>
    rw [step,Option.ite_none_right_eq_some] at h
    cases h.2
    exact .poll h.1
  | accept =>
    rw [step,Option.ite_none_right_eq_some] at h
    cases h.2
    exact .accept h.1
  | wouldBlock =>
    rw [step,Option.ite_none_right_eq_some] at h
    cases h.2
    exact .wouldBlock h.1
  | acceptFails =>
    rw [step,Option.ite_none_right_eq_some] at h
    cases h.2
    exact .acceptFails h.1
  | send =>
    rw [step] at h
    split at h
    · next c hat =>
      rw [if_neg s.receivers_ne_zero,Option.ite_none_right_eq_some] at h
      cases h.2
      exact .send hat h.1
    · cases h
  | join =>
    rw [step] at h
    split at h
    · next result w b hat =>
      split at h
      · next hw =>
        cases h
        rw [← Bool.or_false b]
        exact .joined hat hw rfl
      · next hw =>
        cases h
        rw [← Bool.or_true b]
        exact .joined hat hw rfl
      · cases h
      · next hw =>
        cases h
        exact .done hat hw
    · cases h
  | lock w =>
    rw [step,Option.ite_none_right_eq_some] at h
    cases h.2
    exact .lock h.1.1 h.1.2
  | receive w =>
    rw [step,Option.ite_none_right_eq_some] at h
    obtain ⟨hw,h⟩ := h
    split at h
    · next c rest hq =>
      cases h
      exact .receive hw hq
    · next hq =>
      split at h
      · next c hat =>
        rw [Option.ite_none_right_eq_some] at h
        cases h.2
        exact .rendezvous hw hq hat h.1
      · cases h
  | disconnect w =>
    rw [step,Option.ite_none_right_eq_some] at h
    cases h.2
    exact .disconnect h.1.1 h.1.2.1 h.1.2.2
  | handle w =>
    rw [step] at h
    split at h
    · next c hw =>
      cases h
      exact .handle hw
    · cases h
  | finish w =>
    rw [step] at h
    split at h
    · next c hw =>
      cases h
      exact .finish hw
    · cases h
  | panic w =>
    rw [step] at h
    split at h
    · next c hw =>
      cases h
      exact .panic hw
    · cases h

end ConnectionPool

end OpenHost
