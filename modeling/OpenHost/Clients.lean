import OpenHost.Sections

/-!
# Concurrent creations of machines

The creation of a machine works on the maps one lock section after the other,
too: it stores its leases, records the node and stores the machine, or stores
its leases and takes them back. What it plans and checks in between touches
no map. Clients that create machines run beside the calls that use, stop and
tear them down. Run without interruption, the sections of a creation make up
the operation that the sequential model performs.
-/

namespace OpenHost

/-- A client of the plane in front of its next section. -/
inductive Client (F : Type) where
  /-- A call on a machine. -/
  | uses (call : Call F)
  /-- A node has been planned, its leases and the name of its machine have
  been drawn, and the leases wait to be stored. -/
  | planned (node : LogicalNode F) (leases : List (Lease F)) (runtime : RuntimeSpec)
    (createdAt : SystemTime) (uuid : String)
  /-- No machine could be made, and the stored leases wait to be removed. -/
  | rollingBack (leases : List (Lease F)) (error : VirtualMachineError)
  /-- A machine has been made, and its node waits to be recorded. -/
  | bound (node : LogicalNode F) (vm : VirtualMachine F)
  /-- The node has been recorded, and the machine waits to be stored. -/
  | recorded (vm : VirtualMachine F)
  /-- The creation has ended; its leases are those of the machine. -/
  | created (result : Outcome ControlError (VirtualMachine F))

namespace Client

variable {F : Type} [Cores F] [UuidCrate]

/-- Begin the creation of a leased machine. -/
def lease (scheduler : Scheduler F) (requirement : ResourceFragment F) (runtime : RuntimeSpec)
    (createdAt : SystemTime) (duration : Duration) (uuids : ℕ → String) : Client F :=
  match Plane.planLeases scheduler requirement createdAt duration uuids with
  | .ok (node,leases) => planned node leases runtime createdAt (uuids leases.length)
  | .err e => created (.err e)
  | .panic => created .panic

/-- Begin the creation of an unleased machine. -/
def bind (node : LogicalNode F) (createdAt : SystemTime) (uuid : String) : Client F :=
  match VirtualMachine.fromNode node createdAt uuid with
  | .ok vm => bound node vm
  | .error e => created (.err (.virtualMachine e))

/-- Bind the runtime and the leases that have just been stored. -/
def bindLeased (node : LogicalNode F) (leases : List (Lease F)) (runtime : RuntimeSpec)
    (createdAt : SystemTime) (uuid : String) : Client F :=
  match node.withRuntime runtime with
  | .error e => created (.err (.node e))
  | .ok node =>
    match VirtualMachine.fromLeasedNode node leases createdAt uuid with
    | .ok vm => bound node vm
    | .error e => rollingBack leases e

/-- Run the next section of a client; `now` is the time that an execution reads. -/
def advance (plane : Plane F) (now : SystemTime) : Client F → Plane F×Client F
  | uses call => ((call.advance plane now).1,uses (call.advance plane now).2)
  | planned node leases runtime createdAt uuid =>
    ({plane with leases := Plane.storeLeases plane.leases leases},
      bindLeased node leases runtime createdAt uuid)
  | rollingBack leases error =>
    ({plane with leases := Plane.removeLeases plane.leases leases},
      created (.err (.virtualMachine error)))
  | bound node vm =>
    ({plane with logicalNodes := plane.logicalNodes.insert node.id node},recorded vm)
  | recorded vm =>
    ({plane with virtualMachines := plane.virtualMachines.insert vm.id.id vm},created (.ok vm))
  | created result => (plane,created result)

/-- Run a number of sections of one client without interruption. -/
def alone (now : SystemTime) : ℕ → Plane F×Client F → Plane F×Client F
  | 0,state => state
  | n+1,state => alone now n (advance state.1 now state.2)

/-- A creation that has ended stays as it is. -/
theorem alone_created (now : SystemTime) (n : ℕ) (plane : Plane F)
    (result : Outcome ControlError (VirtualMachine F)) :
    alone now n (plane,created result)=(plane,created result) := by
  induction n with
  | zero => rfl
  | succ n ih => rw [alone,advance,ih]

/-- Two sections in a row are the creation of an unleased machine. -/
theorem alone_bind (plane : Plane F) (now : SystemTime) (node : LogicalNode F)
    (createdAt : SystemTime) (uuid : String) :
    alone now 2 (plane,bind node createdAt uuid)=
      ((plane.createVirtualMachine node createdAt uuid).2,
        created (.ofExcept (plane.createVirtualMachine node createdAt uuid).1)) := by
  rw [bind,Plane.createVirtualMachine]
  cases VirtualMachine.fromNode node createdAt uuid with
  | error e => rfl
  | ok vm => rfl

/-- Three sections in a row are the creation of a leased machine, and the
leases it returns are those of the machine. -/
theorem alone_lease (plane : Plane F) (now : SystemTime) (scheduler : Scheduler F)
    (requirement : ResourceFragment F) (runtime : RuntimeSpec) (createdAt : SystemTime)
    (duration : Duration) (uuids : ℕ → String) :
    ∃ result,alone now 3 (plane,lease scheduler requirement runtime createdAt duration uuids)=
        ((plane.createLeasedVirtualMachine scheduler requirement runtime createdAt duration
          uuids).2,created result) ∧
      (plane.createLeasedVirtualMachine scheduler requirement runtime createdAt duration uuids).1=
        result >>= fun vm => .ok (vm,vm.leases) := by
  rw [lease,Plane.createLeasedVirtualMachine,Plane.createLeasedLogicalNodeWithRuntime,
    Plane.createLeasedLogicalNode]
  cases Plane.planLeases scheduler requirement createdAt duration uuids with
  | err e => exact ⟨_,rfl,rfl⟩
  | panic => exact ⟨_,rfl,rfl⟩
  | ok found =>
    obtain ⟨node,leases⟩ := found
    simp only [alone,advance,bindLeased]
    cases node.withRuntime runtime with
    | error e => exact ⟨_,rfl,rfl⟩
    | ok node =>
      dsimp only
      cases hv : VirtualMachine.fromLeasedNode node leases createdAt (uuids leases.length) with
      | error e => exact ⟨_,rfl,rfl⟩
      | ok vm =>
        obtain ⟨_,hvm⟩ := VirtualMachine.fromLeasedNode_eq_ok.mp hv
        obtain ⟨_,rfl⟩ := VirtualMachine.fromNodeWithLeases_eq_ok.mp hvm
        exact ⟨_,rfl,rfl⟩

end Client

/-- A plane and the clients that have begun to work on it. -/
structure Service (F : Type) [Cores F] where
  /-- The shared maps. -/
  plane : Plane F
  /-- The clients, in the order in which they began. -/
  clients : List (Client F)

/-- What can happen next to a service. -/
inductive ServiceEvent (F : Type) where
  /-- A call on a machine begins. -/
  | uses (call : Call F)
  /-- The creation of a leased machine begins; the scheduler is asked, and
  these texts are drawn from the generator. -/
  | leases (scheduler : Scheduler F) (requirement : ResourceFragment F) (runtime : RuntimeSpec)
    (createdAt : SystemTime) (duration : Duration) (uuids : ℕ → String)
  /-- The creation of an unleased machine begins. -/
  | binds (node : LogicalNode F) (createdAt : SystemTime) (uuid : String)
  /-- The client at this position runs its next section at this time. -/
  | advances (i : ℕ) (now : SystemTime)

namespace Service

variable {F : Type} [Cores F] [UuidCrate]

/-- A service nobody has used yet. -/
def new (registry : Registry F) (discovery : MemoryRegistry F) : Service F :=
  ⟨Plane.new registry discovery,[]⟩

/-- Add a client. -/
def join (s : Service F) (client : Client F) : Service F := {s with clients := s.clients++[client]}

/-- Run the next section of the client at a position. -/
def advance (s : Service F) (i : ℕ) (now : SystemTime) : Service F :=
  match s.clients[i]? with
  | none => s
  | some client =>
    ⟨(client.advance s.plane now).1,s.clients.set i (client.advance s.plane now).2⟩

/-- The steps of a service: any client may begin, any client may go on. -/
def Step (s : Service F) : ServiceEvent F → Service F → Prop
  | .uses call,t => call.begins=true ∧ t=s.join (.uses call)
  | .leases scheduler requirement runtime createdAt duration uuids,t =>
    t=s.join (.lease scheduler requirement runtime createdAt duration uuids)
  | .binds node createdAt uuid,t => t=s.join (.bind node createdAt uuid)
  | .advances i now,t => t=s.advance i now

end Service

end OpenHost
