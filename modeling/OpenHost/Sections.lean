import OpenHost.PlaneRuns

/-!
# Concurrent calls, one lock section at a time

A call of the control plane takes a lock, works on one map, and gives the
lock back, several times over. Between two sections of a call any number of
sections of other calls may run. A call is its program counter with its
local variables; the system is a plane with the calls that have begun. Run
without interruption, the sections of a call make up the operation that the
sequential model performs.
-/

namespace OpenHost

/-- What a finished call has returned. -/
inductive Answer (F : Type) where
  /-- Answer of a start, a stop or a teardown. -/
  | machine (result : Except ControlError (VirtualMachine F))
  /-- Answer of an execution, with the plan that its backend received. -/
  | receipt (result : Outcome ControlError ExecutionReceipt) (sent : Option (ExecutionPlan F))

/-- A call in front of its next section. -/
inductive Call (F : Type) where
  | start (id : Identity)
  | stop (id : Identity)
  | execute (id : Identity) (workload : WorkItem) (backend : ExecutionBackend F)
  /-- The machine has been read. -/
  | cloned (id : Identity) (workload : WorkItem) (backend : ExecutionBackend F)
    (vm : VirtualMachine F)
  /-- The node has been read. -/
  | ready (id : Identity) (workload : WorkItem) (backend : ExecutionBackend F)
    (vm : VirtualMachine F) (node : LogicalNode F)
  /-- The execution has ended and the machine waits to be written back. -/
  | ran (id : Identity) (run : Execution F)
  | destroy (id : Identity)
  /-- The machine has been removed and these leases wait to be released. -/
  | releasing (id : Identity) (vm : VirtualMachine F) (leases : List (Lease F))
  | finished (id : Identity) (answer : Answer F)

namespace Call

variable {F : Type}

/-- The name that the call was made with. -/
def id : Call F → Identity
  | start id => id
  | stop id => id
  | execute id _ _ => id
  | cloned id _ _ _ => id
  | ready id _ _ _ _ => id
  | ran id _ => id
  | destroy id => id
  | releasing id _ _ => id
  | finished id _ => id

/-- The call has not entered its first section. -/
def begins : Call F → Bool
  | start _ => true
  | stop _ => true
  | execute _ _ _ => true
  | destroy _ => true
  | _ => false

/-- The plan that a backend has received from the call. -/
def sent : Call F → Option (ExecutionPlan F)
  | ran _ run => run.sent
  | finished _ (.receipt _ sent) => sent
  | _ => none

variable [Cores F] [UuidCrate]

/-- Run the next section of a call; `now` is the time that an execution reads. -/
def advance (plane : Plane F) (now : SystemTime) : Call F → Plane F×Call F
  | start id =>
    let result := plane.startVirtualMachine id
    (result.2,finished id (.machine result.1))
  | stop id =>
    let result := plane.stopVirtualMachine id
    (result.2,finished id (.machine result.1))
  | execute id workload backend =>
    match plane.virtualMachines[id.id]? with
    | none => (plane,finished id (.receipt (.err .virtualMachineNotFound) none))
    | some vm => (plane,cloned id workload backend vm)
  | cloned id workload backend vm =>
    match plane.logicalNodes[vm.nodeId.id]? with
    | none => (plane,finished id (.receipt (.err .virtualMachineNotFound) none))
    | some node => (plane,ready id workload backend vm node)
  | ready id workload backend vm node =>
    let run := vm.executeAt node workload backend now
    match run.result with
    | .panic => (plane,finished id (.receipt .panic run.sent))
    | _ => (plane,ran id run)
  | ran id run =>
    ({plane with virtualMachines := plane.virtualMachines.insert run.vm.id.id run.vm},
      finished id (.receipt (run.result.mapErr .virtualMachine) run.sent))
  | destroy id =>
    match plane.virtualMachines[id.id]? with
    | none => (plane,finished id (.machine (.error .virtualMachineNotFound)))
    | some vm =>
      ({plane with virtualMachines := plane.virtualMachines.erase id.id},releasing id vm vm.leases)
  | releasing id vm [] =>
    ({plane with logicalNodes := plane.logicalNodes.erase vm.nodeId.id},
      finished id (.machine (.ok vm)))
  | releasing id vm (lease::rest) =>
    match plane.releaseLease lease.id with
    | (.ok _,plane) => (plane,releasing id vm rest)
    | (.error e,plane) => (plane,finished id (.machine (.error e)))
  | finished id answer => (plane,finished id answer)

/-- Run a number of sections of one call without interruption. -/
def alone (now : SystemTime) : ℕ → Plane F×Call F → Plane F×Call F
  | 0,state => state
  | n+1,state => alone now n (advance state.1 now state.2)

/-- A start is one section. -/
theorem alone_start (plane : Plane F) (now : SystemTime) (id : Identity) :
    alone now 1 (plane,start id)=((plane.startVirtualMachine id).2,
      finished id (.machine (plane.startVirtualMachine id).1)) := rfl

/-- A stop is one section. -/
theorem alone_stop (plane : Plane F) (now : SystemTime) (id : Identity) :
    alone now 1 (plane,stop id)=((plane.stopVirtualMachine id).2,
      finished id (.machine (plane.stopVirtualMachine id).1)) := rfl

/-- Four sections in a row are an execution. -/
theorem alone_execute (plane : Plane F) (now : SystemTime) (id : Identity) (workload : WorkItem)
    (backend : ExecutionBackend F) :
    alone now 4 (plane,execute id workload backend)=
      ((plane.executeVirtualMachine id workload backend now).plane,
        finished id (.receipt (plane.executeVirtualMachine id workload backend now).result
          (plane.executeVirtualMachine id workload backend now).sent)) := by
  simp only [alone,advance,Plane.executeVirtualMachine]
  cases plane.virtualMachines[id.id]? with
  | none => rfl
  | some vm =>
    dsimp only
    cases plane.logicalNodes[vm.nodeId.id]? with
    | none => rfl
    | some node =>
      dsimp only
      cases hr : (vm.executeAt node workload backend now).result with
      | ok receipt => simp only [hr]
      | err e => simp only [hr]
      | panic => rfl

/-- The release sections in a row are the release of all leases, and then the
removal of the node. -/
theorem alone_releasing (plane : Plane F) (now : SystemTime) (id : Identity)
    (vm : VirtualMachine F) (leases : List (Lease F)) :
    alone now (leases.length+1) (plane,releasing id vm leases)=
      match plane.releaseLeases leases with
      | (.error e,after) => (after,finished id (.machine (.error e)))
      | (.ok _,after) => ({after with logicalNodes := after.logicalNodes.erase vm.nodeId.id},
          finished id (.machine (.ok vm))) := by
  have hstay : ∀ n (p : Plane F) a,alone now n (p,finished id a)=(p,finished id a) := by
    intro n p a
    induction n with
    | zero => rfl
    | succ n ih => rw [alone,advance,ih]
  induction leases generalizing plane with
  | nil => rfl
  | cons lease rest ih =>
    rw [List.length_cons,alone,Plane.releaseLeases,advance]
    rcases plane.releaseLease lease.id with ⟨e|found,after⟩
    · exact hstay _ _ _
    · exact ih after

/-- The sections of a teardown in a row are the teardown. -/
theorem alone_destroy (plane : Plane F) (now : SystemTime) (id : Identity) :
    ∃ n,alone now n (plane,destroy id)=((plane.destroyVirtualMachine id).2,
      finished id (.machine (plane.destroyVirtualMachine id).1)) := by
  cases hs : plane.virtualMachines[id.id]? with
  | none =>
    refine ⟨1,?_⟩
    rw [alone,alone,advance,hs,Plane.destroyVirtualMachine,hs]
  | some vm =>
    refine ⟨vm.leases.length+1+1,?_⟩
    rw [alone,advance,hs]
    dsimp only
    rw [alone_releasing,Plane.destroyVirtualMachine_eq hs]
    rcases Plane.releaseLeases {plane with
      virtualMachines := plane.virtualMachines.erase id.id} vm.leases with ⟨e|u,after⟩
    · rfl
    · rfl

end Call

/-- A plane and the calls that have begun on it. -/
structure System (F : Type) [Cores F] where
  /-- The shared maps. -/
  plane : Plane F
  /-- The calls, in the order in which they began. -/
  calls : List (Call F)

/-- What can happen next. -/
inductive Event (F : Type) where
  /-- A call begins. -/
  | begins (call : Call F)
  /-- The call at this position runs its next section at this time. -/
  | advances (i : ℕ) (now : SystemTime)

namespace System

variable {F : Type} [Cores F]

/-- Add a call that has not entered its first section. -/
def begin (s : System F) (call : Call F) : System F := {s with calls := s.calls++[call]}

variable [UuidCrate]

/-- Run the next section of the call at a position. -/
def advance (s : System F) (i : ℕ) (now : SystemTime) : System F :=
  match s.calls[i]? with
  | none => s
  | some call =>
    ⟨(call.advance s.plane now).1,s.calls.set i (call.advance s.plane now).2⟩

/-- The steps of the system: any call may begin, any call may go on. -/
def Step (s : System F) : Event F → System F → Prop
  | .begins call,t => call.begins=true ∧ t=s.begin call
  | .advances i now,t => t=s.advance i now

/-- Any interleaving of the sections of any calls. -/
abbrev Reaches : System F → System F → Prop := Transition.Reaches Step fun _ _ => True

/-- One section is a step. -/
theorem reaches_advance (s : System F) (i : ℕ) (now : SystemTime) : Reaches s (s.advance i now) :=
  Relation.ReflTransGen.single ⟨.advances i now,trivial,rfl⟩

/-- A begun call is a step. -/
theorem reaches_begin (s : System F) {call : Call F} (h : call.begins=true) :
    Reaches s (s.begin call) :=
  Relation.ReflTransGen.single ⟨.begins call,trivial,h,rfl⟩

/-- What a section does to a system. -/
theorem advance_of_call {s : System F} {i : ℕ} {call : Call F} (h : s.calls[i]?=some call)
    (now : SystemTime) : s.advance i now=
      ⟨(call.advance s.plane now).1,s.calls.set i (call.advance s.plane now).2⟩ := by
  rw [advance,h]

/-- The call that has run a section is in front of its next one. -/
theorem advance_call {s : System F} {i : ℕ} {call : Call F} (h : s.calls[i]?=some call)
    (now : SystemTime) : (s.advance i now).calls[i]?=some (call.advance s.plane now).2 := by
  have hlen := (List.getElem?_eq_some_iff.mp h).1
  rw [advance_of_call h]
  exact List.getElem?_set_self hlen

/-- The calls behind a section are the one that ran it and the others. -/
theorem mem_calls_advance {s : System F} {i : ℕ} {call found : Call F}
    (h : s.calls[i]?=some call) {now : SystemTime} (hm : found ∈ (s.advance i now).calls) :
    found=(call.advance s.plane now).2 ∨ found ∈ s.calls := by
  rw [advance_of_call h] at hm
  rcases List.mem_or_eq_of_mem_set hm with hold|hnew
  · exact Or.inr hold
  · exact Or.inl hnew

end System

end OpenHost
