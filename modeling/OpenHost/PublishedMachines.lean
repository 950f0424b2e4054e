import OpenHost.MachineLedger

/-!
# Machines under concurrent creations and teardowns

Along every run in which names are new when they are drawn, runtimes are
complete, and no teardown removes a machine of which an execution holds a
copy, the books balance. So a machine that can be looked up has its node and
all its leases, whatever section any client is in front of, and once all
clients have ended nothing is stored that is not a machine's.
-/

namespace OpenHost

open Ledger

namespace Service

section Runs

variable {F : Type} [Cores F] [UuidCrate]

/-- Names of leases and machines that are stored or drawn. -/
def Known (s : Service F) (k : String) : Prop :=
  k ∈ keys s.plane.leases+(s.clients.map Client.leaseNames).sum ∨
    k ∈ keys s.plane.virtualMachines+(s.clients.map Client.machineNames).sum

/-- Names of nodes that are recorded or drawn. -/
def NodeKnown (s : Service F) (k : String) : Prop :=
  k ∈ keys s.plane.logicalNodes+(s.clients.map Client.nodeNames).sum

/-- Names are new when they are drawn, runtimes are complete, and no teardown
removes a machine of which an execution holds a copy. -/
def Allowed (s : Service F) : ServiceEvent F → Prop
  | .uses _ => True
  | .leases scheduler requirement runtime _ _ uuids =>
    FreshIds s.Known (Operation.planned scheduler requirement+1) uuids ∧
      (∀ node,scheduler requirement=.ok node → ¬s.NodeKnown node.id) ∧ runtime.validate=.ok ()
  | .binds node _ uuid => ¬s.Known uuid ∧ ¬s.NodeKnown node.id
  | .advances i _ => ∀ id,s.clients[i]?=some (.uses (.destroy id)) →
    ∀ client ∈ s.clients,∀ vm,client.copy=some vm → vm.id.id≠id.id

/-- Any interleaving of the sections of any clients under these conditions. -/
abbrev Reaches : Service F → Service F → Prop := Transition.Reaches Step Allowed

/-- What the first section behind the planning of a leased machine leads to. -/
theorem Balanced.posting_bindLeased {s : Service F} (h : Balanced s) {node : LogicalNode F}
    {leases : List (Lease F)} {runtime : RuntimeSpec} {createdAt : SystemTime} {uuid : String}
    (hm : Client.planned node leases runtime createdAt uuid ∈ s.clients) :
    Posting s.plane (.planned node leases runtime createdAt uuid)
      {s.plane with leases := Plane.storeLeases s.plane.leases leases}
      (.bindLeased node leases runtime createdAt uuid) := by
  have hr : node.withRuntime runtime=.ok {node with runtime := runtime} :=
    LogicalNode.withRuntime_eq_ok.mpr ⟨(h.sound _ hm).1,rfl⟩
  rw [Client.bindLeased,hr]
  dsimp only
  cases hv : VirtualMachine.fromLeasedNode {node with runtime := runtime} leases createdAt uuid with
  | error e =>
    exact h.posting_store hm rfl rfl rfl (Multiset.zero_le _) (Multiset.zero_le _) trivial rfl
  | ok vm =>
    obtain ⟨_,hvm⟩ := VirtualMachine.fromLeasedNode_eq_ok.mp hv
    obtain ⟨⟨_,_,_,hvalid,_,_⟩,rfl⟩ := VirtualMachine.fromNodeWithLeases_eq_ok.mp hvm
    exact h.posting_store hm rfl rfl rfl le_rfl le_rfl ⟨rfl,rfl,rfl,hvalid⟩ rfl

/-- The books behind one section of a call on a machine. -/
theorem Balanced.posting_call {s : Service F} (h : Balanced s) {call : Call F}
    (hm : Client.uses call ∈ s.clients) (now : SystemTime) :
    Posting s.plane (.uses call) (call.advance s.plane now).1
      (.uses (call.advance s.plane now).2) := by
  cases call with
  | start id =>
    refine h.posting_update (fun vm changed hv => ?_) ⟨rfl,rfl⟩ (idle_finished _ _)
    exact ⟨.running,(VirtualMachine.start_eq_ok.mp hv).2⟩
  | stop id =>
    refine h.posting_update (fun vm changed hv => ?_) ⟨rfl,rfl⟩ (idle_finished _ _)
    exact ⟨.stopped,(VirtualMachine.stop_eq_ok.mp hv).2⟩
  | execute id workload backend =>
    rw [Call.advance]
    cases hs : s.plane.virtualMachines[id.id]? with
    | none => exact h.posting_idle ⟨rfl,rfl⟩ (idle_finished _ _)
    | some vm =>
      refine h.posting_same rfl rfl le_rfl le_rfl le_rfl trivial fun found hf => ?_
      cases hf
      exact ⟨vm,by rw [(h.machine _ _ hs).1,hs],vm.state,rfl⟩
  | cloned id workload backend vm =>
    rw [Call.advance]
    cases s.plane.logicalNodes[vm.nodeId.id]? with
    | none => exact h.posting_idle ⟨rfl,rfl⟩ (idle_finished _ _)
    | some node =>
      exact h.posting_same rfl rfl le_rfl le_rfl le_rfl trivial fun found hf => h.copies _ hm found hf
  | ready id workload backend vm node =>
    obtain ⟨current,hcur,stage,hvm⟩ := h.copies _ hm vm rfl
    obtain ⟨state,hrun⟩ := vm.executeAt_frame node workload backend now
    have hstored : s.plane.Stores (vm.executeAt node workload backend now).vm := by
      rw [hrun]
      exact ⟨current,hcur,state,by rw [hvm]⟩
    have hran : Posting s.plane (.uses (.ready id workload backend vm node)) s.plane
        (.uses (.ran id (vm.executeAt node workload backend now))) := by
      refine h.posting_same rfl rfl le_rfl le_rfl le_rfl trivial fun found hf => ?_
      cases hf
      exact hstored
    rw [Call.advance]
    cases hr : (vm.executeAt node workload backend now).result with
    | ok receipt => exact hran
    | err e => exact hran
    | panic => exact h.posting_idle ⟨rfl,rfl⟩ (idle_finished _ _)
  | ran id run =>
    obtain ⟨current,hcur,stage,hvm⟩ := h.copies _ hm run.vm rfl
    have hput : Posting s.plane (.uses (.ran id run)) {s.plane with
        virtualMachines := s.plane.virtualMachines.insert run.vm.id.id {current with state := stage}}
        (.uses (.finished id (.receipt (run.result.mapErr .virtualMachine) run.sent))) :=
      h.posting_staged hcur stage ⟨rfl,rfl⟩ (idle_finished _ _)
    rw [← hvm] at hput
    exact hput
  | destroy id =>
    rw [Call.advance]
    cases hs : s.plane.virtualMachines[id.id]? with
    | none => exact h.posting_idle ⟨rfl,rfl⟩ (idle_finished _ _)
    | some vm => exact h.posting_destroy hs
  | releasing id vm leases =>
    cases leases with
    | nil => exact h.posting_clear hm _
    | cons lease rest =>
      obtain ⟨hs,hrel⟩ := h.releaseLease_eq hm
      rw [Call.advance,hrel]
      exact h.posting_release hs
  | finished id answer => exact h.posting_idle ⟨rfl,rfl⟩ (idle_finished _ _)

/-- The books behind one section of a client. -/
theorem Balanced.posting {s : Service F} (h : Balanced s) {client : Client F}
    (hm : client ∈ s.clients) (now : SystemTime) :
    Posting s.plane client (client.advance s.plane now).1 (client.advance s.plane now).2 := by
  cases client with
  | uses call => exact h.posting_call hm now
  | planned node leases runtime createdAt uuid => exact h.posting_bindLeased hm
  | rollingBack leases error => exact h.posting_rollBack hm (idle_created _)
  | bound node vm => exact h.posting_record hm
  | recorded vm => exact h.posting_publish hm (idle_created _)
  | created result => exact h.posting_idle ⟨rfl,rfl⟩ (idle_created _)

/-- A section that balances by itself keeps the books in order, if it removes
no machine of which another client holds a copy. -/
theorem Balanced.advance {s : Service F} (h : Balanced s) {i : ℕ} {now : SystemTime}
    (ha : Allowed s (.advances i now)) : Balanced (s.advance i now) := by
  rw [Service.advance]
  cases hc : s.clients[i]? with
  | none => exact h
  | some client =>
    have hp := h.posting (List.mem_of_getElem? hc) now
    have hset : ∀ other ∈ s.clients.set i (client.advance s.plane now).2,
        other ∈ s.clients ∨ other=(client.advance s.plane now).2 :=
      fun other hm => List.mem_or_eq_of_mem_set hm
    refine ⟨?_,?_,?_,?_,?_,hp.machine,hp.node,hp.valid,?_,?_⟩
    · exact balance_step h.leases (sum_map_set Client.leases hc _) hp.leases
    · exact balance_step h.nodes (sum_map_set Client.nodes hc _) hp.nodes
    · exact nodup_step h.leaseNames (sum_map_set Client.leaseNames hc _) hp.leaseNames
    · exact nodup_step h.nodeNames (sum_map_set Client.nodeNames hc _) hp.nodeNames
    · exact nodup_step h.machineNames (sum_map_set Client.machineNames hc _) hp.machineNames
    · intro other hm
      rcases hset other hm with hold|rfl
      · exact h.sound other hold
      · exact hp.sound
    · intro other hm vm hv
      rcases hset other hm with hold|rfl
      · refine hp.others vm (h.copies other hold vm hv) ?_
        rintro ⟨id,rfl,hid⟩
        exact ha id hc other hold vm hv hid.symm
      · exact hp.copies vm hv

/-- The names that the creation of a leased machine draws are new and distinct. -/
theorem names_of_planLeases {s : Service F} {scheduler : Scheduler F}
    {requirement : ResourceFragment F} {createdAt : SystemTime} {duration : Duration}
    {uuids : ℕ → String} {node : LogicalNode F} {leases : List (Lease F)}
    (hf : FreshIds s.Known (Operation.planned scheduler requirement+1) uuids)
    (hp : Plane.planLeases scheduler requirement createdAt duration uuids=.ok (node,leases)) :
    (leases.map fun l => l.id.id).Nodup ∧ (∀ l ∈ leases,l.Valid ∧ ¬s.Known l.id.id) ∧
      ¬s.Known (uuids leases.length) := by
  have hlast := Plane.planLeases_length hp
  obtain ⟨_,_,hs,_,e,_,rfl,hv⟩ := Plane.planLeases_eq_ok.mp hp
  have hlen : node.resources.allocations.length<Operation.planned scheduler requirement+1 := by
    rwa [Plane.leasesFor_length] at hlast
  refine ⟨Plane.leasesFor_distinct fun i hi j hj he => ?_,fun l hl => ⟨hv l hl,?_⟩,
    hf.fresh _ hlast⟩
  · exact hf.distinct i (hi.trans hlen) j (hj.trans hlen) he
  · obtain ⟨i,a,hi,rfl⟩ := Plane.mem_leasesFor.mp hl
    exact hf.fresh i ((List.getElem?_eq_some_iff.mp hi).1.trans hlen)

/-- A step keeps the books in order. -/
theorem Balanced.keep {s t : Service F} (h : Balanced s) {event : ServiceEvent F}
    (ha : Allowed s event) (hstep : Step s event t) : Balanced t := by
  cases event with
  | uses call =>
    obtain ⟨hb,rfl⟩ := hstep
    exact h.join_idle (idle_begins hb)
  | leases scheduler requirement runtime createdAt duration uuids =>
    obtain ⟨hf,hnode,hr⟩ := ha
    rw [show t=_ from hstep,Client.lease]
    cases hp : Plane.planLeases scheduler requirement createdAt duration uuids with
    | err e => exact h.join_idle (idle_created _)
    | panic => exact h.join_idle (idle_created _)
    | ok found =>
      obtain ⟨node,leases⟩ := found
      obtain ⟨hd,hl,hm⟩ := names_of_planLeases hf hp
      have hs := (Plane.planLeases_eq_ok.mp hp).2.2.1
      refine h.join rfl rfl ?_ ?_ ?_ ⟨hr,fun l hmem => (hl l hmem).1⟩ rfl
      · refine nodup_announce h.leaseNames (Multiset.coe_nodup.mpr hd) fun k hk => ?_
        obtain ⟨l,hmem,rfl⟩ := List.mem_map.mp (Multiset.mem_coe.mp hk)
        exact fun hknown => (hl l hmem).2 (.inl hknown)
      · refine nodup_announce h.nodeNames (Multiset.nodup_singleton _) fun k hk => ?_
        rw [Multiset.mem_singleton.mp hk]
        exact hnode node hs
      · refine nodup_announce h.machineNames (Multiset.nodup_singleton _) fun k hk => ?_
        rw [Multiset.mem_singleton.mp hk]
        exact fun hknown => hm (.inr hknown)
  | binds node createdAt uuid =>
    obtain ⟨hfresh,hnode⟩ := ha
    rw [show t=_ from hstep,Client.bind]
    cases hv : VirtualMachine.fromNode node createdAt uuid with
    | error e => exact h.join_idle (idle_created _)
    | ok vm =>
      obtain ⟨⟨_,_,_,hvalid,_,_⟩,rfl⟩ := VirtualMachine.fromNodeWithLeases_eq_ok.mp hv
      refine h.join rfl rfl ?_ ?_ ?_ ⟨rfl,rfl,rfl,hvalid⟩ rfl
      · dsimp only [Client.leaseNames]
        rw [add_zero]
        exact h.leaseNames
      · refine nodup_announce h.nodeNames (Multiset.nodup_singleton _) fun k hk => ?_
        rw [Multiset.mem_singleton.mp hk]
        exact hnode
      · refine nodup_announce h.machineNames (Multiset.nodup_singleton _) fun k hk => ?_
        rw [Multiset.mem_singleton.mp hk]
        exact fun hknown => hfresh (.inr hknown)
  | advances i now =>
    rw [show t=_ from hstep]
    exact h.advance ha

end Runs

section Sample

open AggregatingScheduler Plane

end Sample

end Service

end OpenHost
