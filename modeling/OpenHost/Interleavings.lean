import OpenHost.Sections

/-!
# Writing back a copy

An execution works on a copy of the machine and writes the copy back when
it is done. Everything that goes wrong under concurrency goes wrong there:
the copy replaces whatever the registry holds by then. For a property of
machines that no operation creates out of its absence, the registry stays
free of it for ever exactly when no call holds a copy with the property that
it may still write back.
-/

namespace OpenHost

variable {F : Type} [Cores F]

namespace System

/-- What a section of a call can do to the plane. -/
inductive Touch (plane : Plane F) (call : Call F) : Plane F → Prop where
  /-- Only local variables of the call change. -/
  | nothing : Touch plane call plane
  /-- A stored machine is started or stopped. -/
  | staged {k : String} {vm changed : VirtualMachine F}
    (stored : plane.virtualMachines[k]?=some vm)
    (change : vm.start=.ok changed ∨ vm.stop=.ok changed) :
    Touch plane call {plane with virtualMachines := plane.virtualMachines.insert k changed}
  /-- A copy is written back. -/
  | written {id : Identity} {run : Execution F} (isRan : call=.ran id run) : Touch plane call
      {plane with virtualMachines := plane.virtualMachines.insert run.vm.id.id run.vm}
  /-- A machine is removed. -/
  | removed (k : String) :
    Touch plane call {plane with virtualMachines := plane.virtualMachines.erase k}
  /-- A lease is released. -/
  | released (leases : Std.ExtTreeMap String (Lease F)) :
    Touch plane call {plane with leases := leases}
  /-- A node is removed. -/
  | cleared (k : String) :
    Touch plane call {plane with logicalNodes := plane.logicalNodes.erase k}

/-- A start or a stop stores the changed machine or does nothing. -/
theorem update_touch {plane : Plane F} {call : Call F} {id : Identity}
    {change : VirtualMachine F → Except VirtualMachineError (VirtualMachine F)}
    (hc : ∀ vm changed,change vm=.ok changed → vm.start=.ok changed ∨ vm.stop=.ok changed) :
    Touch plane call (plane.updateVirtualMachine id change).2 := by
  rw [Plane.updateVirtualMachine]
  cases hs : plane.virtualMachines[id.id]? with
  | none => exact .nothing
  | some vm =>
    dsimp only
    cases hv : change vm with
    | error e => exact .nothing
    | ok changed => exact .staged hs (hc vm changed hv)

/-- A machine found behind a section was there before, or was started,
stopped or written back by it. -/
theorem Touch.machine_after {plane after : Plane F} {call : Call F} (ht : Touch plane call after)
    {k : String} {found : VirtualMachine F} (h : after.virtualMachines[k]?=some found) :
    plane.virtualMachines[k]?=some found ∨
    (∃ vm,plane.virtualMachines[k]?=some vm ∧ (vm.start=.ok found ∨ vm.stop=.ok found)) ∨
    ∃ id run,call=.ran id run ∧ run.vm.id.id=k ∧ run.vm=found := by
  cases ht with
  | nothing => exact Or.inl h
  | released leases => exact Or.inl h
  | cleared j => exact Or.inl h
  | removed j => exact Or.inl (OrderedMap.getElem?_erase_eq_some.mp h).2
  | staged hs hc =>
    rcases OrderedMap.getElem?_insert_eq_some.mp h with ⟨rfl,rfl⟩|⟨_,hold⟩
    · exact Or.inr (Or.inl ⟨_,hs,hc⟩)
    · exact Or.inl hold
  | written hr =>
    rcases OrderedMap.getElem?_insert_eq_some.mp h with ⟨hk,hv⟩|⟨_,hold⟩
    · exact Or.inr (Or.inr ⟨_,_,hr,hk,hv⟩)
    · exact Or.inl hold

/-- A node found behind a section was there before. -/
theorem Touch.node_after {plane after : Plane F} {call : Call F} (ht : Touch plane call after)
    {k : String} {node : LogicalNode F} (h : after.logicalNodes[k]?=some node) :
    plane.logicalNodes[k]?=some node := by
  cases ht with
  | nothing => exact h
  | released leases => exact h
  | removed j => exact h
  | staged hs hc => exact h
  | written hr => exact h
  | cleared j => exact (OrderedMap.getElem?_erase_eq_some.mp h).2

/-- A section keeps every machine under its own name. -/
theorem Touch.keyed {plane after : Plane F} {call : Call F} (ht : Touch plane call after)
    (hk : ∀ (k : String) (vm : VirtualMachine F),plane.virtualMachines[k]?=some vm → vm.id.id=k)
    {k : String} {vm : VirtualMachine F} (h : after.virtualMachines[k]?=some vm) : vm.id.id=k := by
  rcases ht.machine_after h with hold|⟨old,hs,hc⟩|⟨id,run,_,hid,rfl⟩
  · exact hk k vm hold
  · have hname := hk k old hs
    rcases hc with hc|hc
    · rw [(VirtualMachine.start_eq_ok.mp hc).2]
      exact hname
    · rw [(VirtualMachine.stop_eq_ok.mp hc).2]
      exact hname
  · exact hid

end System

variable [UuidCrate]

/-- An execution of the machine on the node can end and leave a machine with
the property under the name. -/
def VirtualMachine.Leaves (Q : VirtualMachine F → Prop) (k : String) (vm : VirtualMachine F)
    (node : LogicalNode F) (workload : WorkItem) (backend : ExecutionBackend F) : Prop :=
  ∃ now,(vm.executeAt node workload backend now).result≠.panic ∧
    (vm.executeAt node workload backend now).vm.id.id=k ∧
    Q (vm.executeAt node workload backend now).vm

/-- The call holds a copy with the property and may still write it back. -/
def Call.MayStore (Q : VirtualMachine F → Prop) (k : String) (plane : Plane F) : Call F → Prop
  | .cloned _ workload backend vm =>
    ∃ node,plane.logicalNodes[vm.nodeId.id]?=some node ∧ vm.Leaves Q k node workload backend
  | .ready _ workload backend vm node => vm.Leaves Q k node workload backend
  | .ran _ run => run.vm.id.id=k ∧ Q run.vm
  | _ => False

/-- No operation on a machine without the property gives it the property. -/
structure Absorbing (Q : VirtualMachine F → Prop) : Prop where
  /-- Starting does not. -/
  start : ∀ vm started,¬Q vm → vm.start=.ok started → ¬Q started
  /-- Stopping does not. -/
  stop : ∀ vm stopped,¬Q vm → vm.stop=.ok stopped → ¬Q stopped
  /-- Executing does not. -/
  execute : ∀ (vm : VirtualMachine F) node workload backend now,¬Q vm →
    ¬Q (vm.executeAt node workload backend now).vm

namespace System

/-- Every machine is stored under its own name. -/
def Keyed (s : System F) : Prop :=
  ∀ (k : String) (vm : VirtualMachine F),s.plane.virtualMachines[k]?=some vm → vm.id.id=k

/-- No machine with the property is stored under the name. -/
def Free (Q : VirtualMachine F → Prop) (k : String) (s : System F) : Prop :=
  ∀ vm,s.plane.virtualMachines[k]?=some vm → ¬Q vm

/-- No call may still store a machine with the property under the name. -/
def Quiet (Q : VirtualMachine F → Prop) (k : String) (s : System F) : Prop :=
  ∀ call ∈ s.calls,¬call.MayStore Q k s.plane

/-- Every section does one of the listed things. -/
theorem advance_touch (plane : Plane F) (call : Call F) (now : SystemTime) :
    Touch plane call (call.advance plane now).1 := by
  cases call with
  | start id => exact update_touch fun vm changed h => Or.inl h
  | stop id => exact update_touch fun vm changed h => Or.inr h
  | execute id workload backend =>
    rw [Call.advance]
    split
    · exact .nothing
    · exact .nothing
  | cloned id workload backend vm =>
    rw [Call.advance]
    split
    · exact .nothing
    · exact .nothing
  | ready id workload backend vm node =>
    rw [Call.advance]
    split
    · exact .nothing
    · exact .nothing
  | ran id run => exact .written rfl
  | destroy id =>
    rw [Call.advance]
    split
    · exact .nothing
    · exact .removed _
  | releasing id vm leases =>
    cases leases with
    | nil => exact .cleared _
    | cons lease rest =>
      rw [Call.advance]
      rcases hr : plane.releaseLease lease.id with ⟨e|l,after⟩
      · rw [Plane.releaseLease_of_error hr]
        exact .nothing
      · obtain ⟨_,_,rfl⟩ := Plane.releaseLease_eq_ok.mp hr
        exact .released _
  | finished id answer => exact .nothing

/-- Whatever a call may still store behind a section of another call, it may
have stored before. -/
theorem mayStore_of_touch {Q : VirtualMachine F → Prop} {k : String} {plane after : Plane F}
    {other call : Call F} (ht : Touch plane other after) (h : call.MayStore Q k after) :
    call.MayStore Q k plane := by
  cases call with
  | cloned id workload backend vm =>
    obtain ⟨node,hn,hl⟩ := h
    exact ⟨node,ht.node_after hn,hl⟩
  | ready id workload backend vm node => exact h
  | ran id run => exact h
  | start id => exact h
  | stop id => exact h
  | execute id workload backend => exact h
  | destroy id => exact h
  | releasing id vm leases => exact h
  | finished id answer => exact h

/-- A section of a call that may not store a machine with the property, in a
registry free of it, leaves a call that may not. -/
theorem advance_mayStore {Q : VirtualMachine F → Prop} (hq : Absorbing Q) {k : String}
    {plane : Plane F} {call : Call F} {now : SystemTime}
    (hk : ∀ (k : String) (vm : VirtualMachine F),plane.virtualMachines[k]?=some vm → vm.id.id=k)
    (hfree : ∀ vm,plane.virtualMachines[k]?=some vm → ¬Q vm) (hn : ¬call.MayStore Q k plane) :
    ¬(call.advance plane now).2.MayStore Q k plane := by
  cases call with
  | execute id workload backend =>
    rw [Call.advance]
    cases hs : plane.virtualMachines[id.id]? with
    | none => exact fun h => h
    | some vm =>
      rintro ⟨node,_,now',_,hid,hQ⟩
      obtain ⟨state,hframe⟩ := vm.executeAt_frame node workload backend now'
      have hname : vm.id.id=k := by
        rw [hframe] at hid
        exact hid
      have hkey := hk _ _ hs
      have hstored : plane.virtualMachines[k]?=some vm := by
        rw [← hname,hkey]
        exact hs
      exact hq.execute vm node workload backend now' (hfree vm hstored) hQ
  | cloned id workload backend vm =>
    rw [Call.advance]
    cases hs : plane.logicalNodes[vm.nodeId.id]? with
    | none => exact fun h => h
    | some node => exact fun h => hn ⟨node,hs,h⟩
  | ready id workload backend vm node =>
    rw [Call.advance]
    cases hr : (vm.executeAt node workload backend now).result with
    | panic => exact fun h => h
    | ok receipt => exact fun h => hn ⟨now,by rw [hr]; simp,h⟩
    | err e => exact fun h => hn ⟨now,by rw [hr]; simp,h⟩
  | ran id run => exact fun h => h
  | start id => exact fun h => h
  | stop id => exact fun h => h
  | destroy id =>
    rw [Call.advance]
    split
    · exact fun h => h
    · exact fun h => h
  | releasing id vm leases =>
    cases leases with
    | nil => exact fun h => h
    | cons lease rest =>
      rw [Call.advance]
      rcases plane.releaseLease lease.id with ⟨e|l,after⟩
      · exact fun h => h
      · exact fun h => h
  | finished id answer => exact fun h => h

/-- A section of a call that may not store a machine with the property keeps
the registry free of it. -/
theorem advance_free {Q : VirtualMachine F → Prop} (hq : Absorbing Q) {k : String}
    {plane : Plane F} {call : Call F} {now : SystemTime}
    (hfree : ∀ vm,plane.virtualMachines[k]?=some vm → ¬Q vm) (hn : ¬call.MayStore Q k plane) :
    ∀ vm,(call.advance plane now).1.virtualMachines[k]?=some vm → ¬Q vm := by
  intro vm h
  rcases (advance_touch plane call now).machine_after h with hold|⟨old,hs,hc⟩|⟨id,run,rfl,hid,rfl⟩
  · exact hfree vm hold
  · rcases hc with hc|hc
    · exact hq.start old vm (hfree old hs) hc
    · exact hq.stop old vm (hfree old hs) hc
  · exact fun hQ => hn ⟨hid,hQ⟩

/-- The condition that keeps the registry free of the property. -/
structure Safe (Q : VirtualMachine F → Prop) (k : String) (s : System F) : Prop where
  /-- Machines are stored under their names. -/
  keyed : Keyed s
  /-- The registry is free of the property. -/
  free : Free Q k s
  /-- No call may store it. -/
  quiet : Quiet Q k s

/-- A call that begins holds no copy. -/
theorem not_mayStore_of_begins {Q : VirtualMachine F → Prop} {k : String} {plane : Plane F}
    {call : Call F} (h : call.begins=true) : ¬call.MayStore Q k plane := by
  cases call with
  | start id => exact fun hm => hm
  | stop id => exact fun hm => hm
  | execute id workload backend => exact fun hm => hm
  | destroy id => exact fun hm => hm
  | cloned id workload backend vm => cases h
  | ready id workload backend vm node => cases h
  | ran id run => cases h
  | releasing id vm leases => cases h
  | finished id answer => cases h

/-- A step keeps every machine under its own name. -/
theorem Keyed.keep {s t : System F} (hk : Keyed s) {e : Event F} (h : Step s e t) : Keyed t := by
  cases e with
  | begins call =>
    rw [h.2]
    exact hk
  | advances i now =>
    rw [show t=s.advance i now from h]
    cases hc : s.calls[i]? with
    | none =>
      rw [advance,hc]
      exact hk
    | some call =>
      rw [advance_of_call hc]
      intro k vm hs
      exact (advance_touch s.plane call now).keyed hk hs

/-- A step keeps the condition. -/
theorem Safe.keep {Q : VirtualMachine F → Prop} (hq : Absorbing Q) {k : String} {s t : System F}
    (hs : Safe Q k s) {e : Event F} (h : Step s e t) : Safe Q k t := by
  refine ⟨hs.keyed.keep h,?_,?_⟩
  · cases e with
    | begins call =>
      rw [h.2]
      exact hs.free
    | advances i now =>
      rw [show t=s.advance i now from h]
      cases hc : s.calls[i]? with
      | none =>
        rw [advance,hc]
        exact hs.free
      | some call =>
        rw [advance_of_call hc]
        exact advance_free hq hs.free (hs.quiet call (List.mem_of_getElem? hc))
  · cases e with
    | begins call =>
      rw [h.2]
      intro found hm
      rcases List.mem_append.mp hm with hold|hnew
      · exact hs.quiet found hold
      · rw [List.mem_singleton.mp hnew]
        exact not_mayStore_of_begins h.1
    | advances i now =>
      rw [show t=s.advance i now from h]
      cases hc : s.calls[i]? with
      | none =>
        rw [advance,hc]
        exact hs.quiet
      | some call =>
        have hn := hs.quiet call (List.mem_of_getElem? hc)
        have htouch := advance_touch s.plane call now
        intro found hm hstore
        rw [advance_of_call hc] at hstore
        have hbefore := mayStore_of_touch htouch hstore
        rcases mem_calls_advance hc hm with rfl|hold
        · exact advance_mayStore hq hs.keyed hs.free hn hbefore
        · exact hs.quiet found hold hbefore

/-- A call that has run and holds a copy with the property writes it back. -/
theorem escape_ran {Q : VirtualMachine F → Prop} {k : String} {s : System F} {i : ℕ}
    {id : Identity} {run : Execution F} (hc : s.calls[i]?=some (.ran id run))
    (hid : run.vm.id.id=k) (hQ : Q run.vm) : ∃ t,Reaches s t ∧ ¬Free Q k t := by
  refine ⟨_,s.reaches_advance i .unixEpoch,fun hfree => hfree run.vm ?_ hQ⟩
  rw [advance_of_call hc]
  exact OrderedMap.getElem?_insert_eq_some.mpr (Or.inl ⟨hid,rfl⟩)

/-- A call that is ready to run such an execution runs it and writes back. -/
theorem escape_ready {Q : VirtualMachine F → Prop} {k : String} {s : System F} {i : ℕ}
    {id : Identity} {workload : WorkItem} {backend : ExecutionBackend F} {vm : VirtualMachine F}
    {node : LogicalNode F} (hc : s.calls[i]?=some (.ready id workload backend vm node))
    (hl : vm.Leaves Q k node workload backend) : ∃ t,Reaches s t ∧ ¬Free Q k t := by
  obtain ⟨now,hp,hid,hQ⟩ := hl
  have hnext : (Call.ready id workload backend vm node).advance s.plane now=
      (s.plane,.ran id (vm.executeAt node workload backend now)) := by
    rw [Call.advance]
    cases hr : (vm.executeAt node workload backend now).result with
    | panic => exact (hp hr).elim
    | ok receipt => rfl
    | err e => rfl
  have hcall := advance_call hc now
  rw [hnext] at hcall
  obtain ⟨t,ht,hf⟩ := escape_ran hcall hid hQ
  exact ⟨t,(s.reaches_advance i now).trans ht,hf⟩

/-- A call that may store a machine with the property can go on to do so. -/
theorem escape {Q : VirtualMachine F → Prop} {k : String} {s : System F} {call : Call F}
    (hm : call ∈ s.calls) (h : call.MayStore Q k s.plane) :
    ∃ t,Reaches s t ∧ ¬Free Q k t := by
  obtain ⟨i,hc⟩ := List.mem_iff_getElem?.mp hm
  cases call with
  | ran id run => exact escape_ran hc h.1 h.2
  | ready id workload backend vm node => exact escape_ready hc h
  | cloned id workload backend vm =>
    obtain ⟨node,hn,hl⟩ := h
    have hnext : (Call.cloned id workload backend vm).advance s.plane .unixEpoch=
        (s.plane,.ready id workload backend vm node) := by
      rw [Call.advance,hn]
    have hcall := advance_call hc .unixEpoch
    rw [hnext] at hcall
    obtain ⟨t,ht,hf⟩ := escape_ready hcall hl
    exact ⟨t,(s.reaches_advance i .unixEpoch).trans ht,hf⟩
  | start id => exact h.elim
  | stop id => exact h.elim
  | execute id workload backend => exact h.elim
  | destroy id => exact h.elim
  | releasing id vm leases => exact h.elim
  | finished id answer => exact h.elim

/-- A registry free of the property stays free of it exactly when no call may
still store it. -/
theorem free_forever_iff {Q : VirtualMachine F → Prop} (hq : Absorbing Q) {k : String}
    {s : System F} (hk : Keyed s) (hf : Free Q k s) :
    (∀ t,Reaches s t → Free Q k t) ↔ Quiet Q k s := by
  have hiff : (∀ t,Reaches s t → Free Q k t) ↔ Safe Q k s := by
    refine Transition.forever_iff (fun u e v hu _ hstep => hu.keep hq hstep)
      (fun u hu => hu.free) fun hn => ?_
    have hnot : ¬Quiet Q k s := fun hquiet => hn ⟨hk,hf,hquiet⟩
    simp only [Quiet,not_forall,not_not] at hnot
    obtain ⟨call,hm,hstore⟩ := hnot
    exact escape hm hstore
  rw [hiff]
  exact ⟨fun h => h.quiet,fun h => ⟨hk,hf,h⟩⟩

/-- Machines are stored under their names in every system that a reachable
plane can become. -/
theorem keyed_of_reachable {plane : Plane F} (hp : plane.Reachable) {s : System F}
    (h : Reaches ⟨plane,[]⟩ s) : Keyed s := by
  have hstart : Keyed (⟨plane,[]⟩ : System F) := fun k vm hs => (hp.wellKept.machine k vm hs).1
  exact h.invariant (fun u e v hu _ hstep => hu.keep hstep) hstart

end System

end OpenHost
