import OpenHost.LeaseGrant

/-!
# Failed creations

A creation may fail in three places: before the leases are stored, when the
runtime is bound to the node, and when the machine is made. The plane is
unchanged in the first case and rolled back in the third. In the second
case the leases stay behind, so a failed creation leaves no trace exactly
when the runtime is complete or no lease was stored.
-/

namespace OpenHost.Plane

variable {F : Type}

/-- A lease that is stored among others under distinct names is found. -/
theorem storeLeases_of_mem {stored : Std.ExtTreeMap String (Lease F)} {leases : List (Lease F)}
    (hd : (leases.map fun l => l.id.id).Nodup) {lease : Lease F} (h : lease ∈ leases) :
    (storeLeases stored leases)[lease.id.id]?=some lease :=
  OrderedMap.getElem?_foldl_insert_of_mem (fun l : Lease F => l.id.id) hd h stored

/-- Storing leases leaves every other name alone. -/
theorem storeLeases_of_not_mem {stored : Std.ExtTreeMap String (Lease F)} {leases : List (Lease F)}
    {k : String} (h : k∉leases.map fun l => l.id.id) :
    (storeLeases stored leases)[k]?=stored[k]? :=
  OrderedMap.getElem?_foldl_insert_of_not_mem (fun l : Lease F => l.id.id) h stored

/-- Leases with new names can be stored and removed without a trace. -/
theorem removeLeases_storeLeases {stored : Std.ExtTreeMap String (Lease F)}
    {leases : List (Lease F)} (h : ∀ l ∈ leases,stored[l.id.id]?=none) :
    removeLeases (storeLeases stored leases) leases=stored :=
  OrderedMap.foldl_erase_foldl_insert (fun l : Lease F => l.id.id) h

/-- A store that differs at one name is another store. -/
theorem storeLeases_ne {stored : Std.ExtTreeMap String (Lease F)} {leases : List (Lease F)}
    (hne : leases≠[]) (hd : (leases.map fun l => l.id.id).Nodup)
    (h : ∀ l ∈ leases,stored[l.id.id]?=none) : storeLeases stored leases≠stored := by
  intro he
  obtain ⟨l,hl⟩ := List.exists_mem_of_ne_nil leases hne
  have hfound : (storeLeases stored leases)[l.id.id]?=some l := storeLeases_of_mem hd hl
  rw [he,h l hl] at hfound
  cases hfound

variable [Cores F]

/-- The three maps of both planes are the same. -/
structure SameMaps (before after : Plane F) : Prop where
  /-- Same leases. -/
  leases : after.leases=before.leases
  /-- Same machines. -/
  virtualMachines : after.virtualMachines=before.virtualMachines
  /-- Same nodes. -/
  logicalNodes : after.logicalNodes=before.logicalNodes

section Atomicity

variable [UuidCrate]

/-- The creation of a leased node succeeds exactly with a plan and leases. -/
theorem createLeasedLogicalNode_eq_ok {plane after : Plane F} {scheduler : Scheduler F}
    {requirement : ResourceFragment F} {now : SystemTime} {duration : Duration}
    {uuids : ℕ → String} {node : LogicalNode F} {leases : List (Lease F)} :
    plane.createLeasedLogicalNode scheduler requirement now duration uuids=
      (.ok (node,leases),after) ↔
      planLeases scheduler requirement now duration uuids=.ok (node,leases) ∧
        after={plane with leases := storeLeases plane.leases leases} := by
  rw [createLeasedLogicalNode]
  cases planLeases scheduler requirement now duration uuids with
  | err e => simp
  | panic => simp
  | ok found =>
    dsimp only
    constructor
    · intro h
      cases h
      exact ⟨rfl,rfl⟩
    · rintro ⟨h,rfl⟩
      cases h
      rfl

/-- A failed creation of a node with a runtime: nothing was planned, or the
planned leases are stored and the runtime is incomplete. -/
theorem createLeasedLogicalNodeWithRuntime_err {plane after : Plane F} {scheduler : Scheduler F}
    {requirement : ResourceFragment F} {runtime : RuntimeSpec} {now : SystemTime}
    {duration : Duration} {uuids : ℕ → String} {e : ControlError}
    (h : plane.createLeasedLogicalNodeWithRuntime scheduler requirement runtime now duration
      uuids=(.err e,after)) :
    after=plane ∨ ∃ node leases,planLeases scheduler requirement now duration uuids=
      .ok (node,leases) ∧ ¬runtime.validate=.ok () ∧
        after={plane with leases := storeLeases plane.leases leases} := by
  rw [createLeasedLogicalNodeWithRuntime,createLeasedLogicalNode] at h
  cases hp : planLeases scheduler requirement now duration uuids with
  | err e' =>
    rw [hp] at h
    exact Or.inl (congrArg Prod.snd h).symm
  | panic =>
    rw [hp] at h
    cases h
  | ok found =>
    obtain ⟨node,leases⟩ := found
    rw [hp] at h
    dsimp only at h
    cases hr : node.withRuntime runtime with
    | ok bound =>
      rw [hr] at h
      cases h
    | error e' =>
      rw [hr] at h
      refine Or.inr ⟨node,leases,rfl,?_,(congrArg Prod.snd h).symm⟩
      intro hv
      have hok : node.withRuntime runtime=.ok {node with runtime := runtime} :=
        LogicalNode.withRuntime_eq_ok.mpr ⟨hv,rfl⟩
      rw [hr] at hok
      cases hok

/-- A successful creation of a node with a runtime: the leases are planned
and stored, and the runtime is complete. -/
theorem createLeasedLogicalNodeWithRuntime_eq_ok {plane after : Plane F} {scheduler : Scheduler F}
    {requirement : ResourceFragment F} {runtime : RuntimeSpec} {now : SystemTime}
    {duration : Duration} {uuids : ℕ → String} {bound : LogicalNode F} {leases : List (Lease F)} :
    plane.createLeasedLogicalNodeWithRuntime scheduler requirement runtime now duration uuids=
      (.ok (bound,leases),after) ↔ runtime.validate=.ok () ∧ ∃ node,
        planLeases scheduler requirement now duration uuids=.ok (node,leases) ∧
        bound={node with runtime := runtime} ∧
        after={plane with leases := storeLeases plane.leases leases} := by
  rw [createLeasedLogicalNodeWithRuntime,createLeasedLogicalNode]
  cases hp : planLeases scheduler requirement now duration uuids with
  | err e => simp
  | panic => simp
  | ok found =>
    dsimp only
    cases hr : found.1.withRuntime runtime with
    | error e =>
      have hv : ¬runtime.validate=.ok () := by
        intro hv
        have hok : found.1.withRuntime runtime=.ok {found.1 with runtime := runtime} :=
          LogicalNode.withRuntime_eq_ok.mpr ⟨hv,rfl⟩
        rw [hr] at hok
        cases hok
      simp [hv]
    | ok node =>
      obtain ⟨hv,rfl⟩ := LogicalNode.withRuntime_eq_ok.mp hr
      simp only [hv,true_and,Prod.mk.injEq,Outcome.ok.injEq]
      constructor
      · rintro ⟨⟨rfl,rfl⟩,rfl⟩
        exact ⟨found.1,rfl,rfl,rfl⟩
      · rintro ⟨n,rfl,rfl,rfl⟩
        exact ⟨⟨rfl,rfl⟩,rfl⟩

/-- With an incomplete runtime, planned leases are stored and the creation fails. -/
theorem createLeasedLogicalNodeWithRuntime_leaks (plane : Plane F) {scheduler : Scheduler F}
    {requirement : ResourceFragment F} {runtime : RuntimeSpec} {now : SystemTime}
    {duration : Duration} {uuids : ℕ → String} {node : LogicalNode F} {leases : List (Lease F)}
    (hp : planLeases scheduler requirement now duration uuids=.ok (node,leases))
    (hr : ¬runtime.validate=.ok ()) :
    ∃ e,plane.createLeasedLogicalNodeWithRuntime scheduler requirement runtime now duration uuids=
      (.err e,{plane with leases := storeLeases plane.leases leases}) := by
  have hbind : ∀ bound,node.withRuntime runtime≠.ok bound :=
    fun bound hb => hr (LogicalNode.withRuntime_eq_ok.mp hb).1
  obtain ⟨e,he⟩ := Checks.exists_error hbind
  refine ⟨.node e,?_⟩
  rw [createLeasedLogicalNodeWithRuntime,createLeasedLogicalNode,hp]
  dsimp only
  rw [he]

/-- A failed creation of a machine failed with its node, or was rolled back. -/
theorem createLeasedVirtualMachine_err {plane after : Plane F} {scheduler : Scheduler F}
    {requirement : ResourceFragment F} {runtime : RuntimeSpec} {now : SystemTime}
    {duration : Duration} {uuids : ℕ → String} {e : ControlError}
    (h : plane.createLeasedVirtualMachine scheduler requirement runtime now duration uuids=
      (.err e,after)) :
    plane.createLeasedLogicalNodeWithRuntime scheduler requirement runtime now duration uuids=
      (.err e,after) ∨ ∃ node leases,planLeases scheduler requirement now duration uuids=
        .ok (node,leases) ∧ after=
          {plane with leases := removeLeases (storeLeases plane.leases leases) leases} := by
  rw [createLeasedVirtualMachine] at h
  rcases hn : plane.createLeasedLogicalNodeWithRuntime scheduler requirement runtime now duration
    uuids with ⟨result,stored⟩
  rw [hn] at h
  cases result with
  | err e' =>
    cases h
    exact Or.inl rfl
  | panic => cases h
  | ok found =>
    obtain ⟨bound,leases⟩ := found
    obtain ⟨_,node,hp,_,rfl⟩ := createLeasedLogicalNodeWithRuntime_eq_ok.mp hn
    dsimp only at h
    cases hv : VirtualMachine.fromLeasedNode bound leases now (uuids leases.length) with
    | ok vm =>
      rw [hv] at h
      cases h
    | error e' =>
      rw [hv] at h
      exact Or.inr ⟨node,leases,hp,(congrArg Prod.snd h).symm⟩

/-- A machine that can be made from a planned node is stored with its node
and its leases. -/
theorem createLeasedVirtualMachine_of_ok (plane : Plane F) {scheduler : Scheduler F}
    {requirement : ResourceFragment F} {runtime : RuntimeSpec} {createdAt : SystemTime}
    {duration : Duration} {uuids : ℕ → String} {node : LogicalNode F} {leases : List (Lease F)}
    {vm : VirtualMachine F}
    (hp : planLeases scheduler requirement createdAt duration uuids=.ok (node,leases))
    (hr : runtime.validate=.ok ())
    (hv : VirtualMachine.fromLeasedNode {node with runtime := runtime} leases createdAt
      (uuids leases.length)=.ok vm) :
    plane.createLeasedVirtualMachine scheduler requirement runtime createdAt duration uuids=
      (.ok (vm,leases),{plane with
        leases := storeLeases plane.leases leases
        logicalNodes := plane.logicalNodes.insert node.id {node with runtime := runtime}
        virtualMachines := plane.virtualMachines.insert vm.id.id vm}) := by
  have hn : plane.createLeasedLogicalNodeWithRuntime scheduler requirement runtime createdAt
      duration uuids=(.ok ({node with runtime := runtime},leases),
        {plane with leases := storeLeases plane.leases leases}) :=
    createLeasedLogicalNodeWithRuntime_eq_ok.mpr ⟨hr,node,hp,rfl,rfl⟩
  rw [createLeasedVirtualMachine,hn]
  dsimp only
  rw [hv]

/-- Both creations leave the three maps alone whenever they return an error. -/
def CreationAtomic (plane : Plane F) (scheduler : Scheduler F) (requirement : ResourceFragment F)
    (runtime : RuntimeSpec) (now : SystemTime) (duration : Duration) (uuids : ℕ → String) : Prop :=
  (∀ e after,plane.createLeasedVirtualMachine scheduler requirement runtime now duration uuids=
    (.err e,after) → SameMaps plane after) ∧
  ∀ e after,plane.createLeasedLogicalNodeWithRuntime scheduler requirement runtime now duration
    uuids=(.err e,after) → SameMaps plane after

/-- The texts drawn for the leases of the planned node are canonical,
distinct, and name no stored lease. -/
def FreshLeases (plane : Plane F) (scheduler : Scheduler F) (requirement : ResourceFragment F)
    (uuids : ℕ → String) : Prop :=
  ∀ node,scheduler requirement=.ok node →
    FreshIds (fun k => k ∈ plane.leases) node.resources.allocations.length uuids

/-- Leases planned from fresh texts are not stored yet. -/
theorem FreshLeases.absent {plane : Plane F} {scheduler : Scheduler F}
    {requirement : ResourceFragment F} {now : SystemTime} {duration : Duration}
    {uuids : ℕ → String} {node : LogicalNode F} {leases : List (Lease F)}
    (hf : FreshLeases plane scheduler requirement uuids)
    (hp : planLeases scheduler requirement now duration uuids=.ok (node,leases)) :
    ∀ l ∈ leases,plane.leases[l.id.id]?=none := by
  obtain ⟨_,_,hn,_,e,_,rfl,_⟩ := planLeases_eq_ok.mp hp
  intro l hl
  obtain ⟨i,a,hi,rfl⟩ := mem_leasesFor.mp hl
  have hlen := (List.getElem?_eq_some_iff.mp hi).1
  have hfresh := (hf node hn).fresh i hlen
  exact Std.ExtTreeMap.getElem?_eq_none hfresh

/-- A failed creation leaves the maps alone exactly when the runtime has a
name and a version, or the planned node leads to no lease. -/
theorem creationAtomic_iff (plane : Plane F) (scheduler : Scheduler F)
    (requirement : ResourceFragment F) (runtime : RuntimeSpec) (now : SystemTime)
    (duration : Duration) (uuids : ℕ → String)
    (hf : FreshLeases plane scheduler requirement uuids) :
    CreationAtomic plane scheduler requirement runtime now duration uuids ↔
      (runtime.name≠"" ∧ runtime.version≠"") ∨
      ∀ node,scheduler requirement=.ok node → Grantable now duration node →
        node.resources.allocations=[] := by
  rw [← RuntimeSpec.validate_eq_ok]
  constructor
  · intro ha
    by_contra hn
    rw [not_or] at hn
    obtain ⟨hr,hex⟩ := hn
    simp only [not_forall] at hex
    obtain ⟨node,hs,hg,hne⟩ := hex
    obtain ⟨leases,hp⟩ := (planLeases_exists (hf node hs).canonical).mpr ⟨hs,hg⟩
    obtain ⟨e,he⟩ := createLeasedLogicalNodeWithRuntime_leaks plane hp hr
    have hsame := (ha.2 e _ he).leases
    obtain ⟨_,_,_,_,t,_,rfl,_⟩ := planLeases_eq_ok.mp hp
    refine storeLeases_ne ?_ (leasesFor_distinct (hf node hs).distinct) (hf.absent hp) hsame
    intro hnil
    have hlen := congrArg List.length hnil
    rw [leasesFor_length] at hlen
    exact hne (List.length_eq_zero_iff.mp hlen)
  · intro hcond
    have hnode : ∀ e after,plane.createLeasedLogicalNodeWithRuntime scheduler requirement runtime
        now duration uuids=(.err e,after) → SameMaps plane after := by
      intro e after he
      rcases createLeasedLogicalNodeWithRuntime_err he with rfl|⟨node,leases,hp,hr,rfl⟩
      · exact ⟨rfl,rfl,rfl⟩
      · rcases hcond with hv|hnone
        · exact (hr hv).elim
        · have hs := (planLeases_eq_ok.mp hp).2.2.1
          have hg := ((planLeases_exists (hf node hs).canonical).mp ⟨leases,hp⟩).2
          obtain ⟨_,_,_,_,t,_,rfl,_⟩ := planLeases_eq_ok.mp hp
          rw [hnone node hs hg]
          exact ⟨rfl,rfl,rfl⟩
    refine ⟨?_,hnode⟩
    intro e after he
    rcases createLeasedVirtualMachine_err he with hn|⟨node,leases,hp,rfl⟩
    · exact hnode e after hn
    · exact ⟨removeLeases_storeLeases (hf.absent hp),rfl,rfl⟩

end Atomicity

section Sample

open AggregatingScheduler

/-- A registry of discovered participants without members. -/
def emptyDiscovery : MemoryRegistry ℚ := ⟨∅,⟨⟨1,by decide⟩,⟨2,by decide⟩⟩,by decide⟩

/-- An instant behind the epoch. -/
def sampleInstant : SystemTime := ⟨1000,by decide⟩

/-- A short duration. -/
def sampleDuration : Duration := ⟨1000,by decide⟩

/-- Generated texts: the first names a lease, the others a machine. -/
def sampleTexts (n : ℕ) : String :=
  if n=0 then "33333333-3333-4333-8333-333333333333"
  else "44444444-4444-4444-8444-444444444444"

/-- With a complete runtime a failed creation leaves no trace: one core of
two, on a new plane. -/
theorem creationAtomic_twoCores : letI := hyphenatedUuid
    FreshLeases (Plane.new .empty emptyDiscovery) (plan [twoCores] oneCoreNode.id) oneCore
      sampleTexts ∧
    CreationAtomic (Plane.new .empty emptyDiscovery) (plan [twoCores] oneCoreNode.id) oneCore
      ⟨"wasm","1"⟩ sampleInstant sampleDuration sampleTexts := by
  let := hyphenatedUuid
  have hf : FreshLeases (Plane.new .empty emptyDiscovery) (plan [twoCores] oneCoreNode.id) oneCore
      sampleTexts := by
    intro node hn
    rw [plan_twoCores,Except.ok.injEq] at hn
    subst hn
    have hlen : oneCoreNode.resources.allocations.length=1 := rfl
    rw [hlen]
    refine ⟨?_,?_,?_⟩
    · intro i hi
      obtain rfl : i=0 := by omega
      decide +kernel
    · intro i hi j hj _
      omega
    · intro i hi
      simp [Plane.new]
  refine ⟨hf,(creationAtomic_iff _ _ _ _ _ _ _ hf).mpr (Or.inl ?_)⟩
  decide

/-- Without a runtime name the creation fails and its lease stays behind. -/
theorem not_creationAtomic_twoCores : letI := hyphenatedUuid
    ¬CreationAtomic (Plane.new .empty emptyDiscovery) (plan [twoCores] oneCoreNode.id) oneCore
      ⟨"","1"⟩ sampleInstant sampleDuration sampleTexts := by
  let := hyphenatedUuid
  intro h
  have he : ((Plane.new .empty emptyDiscovery).createLeasedLogicalNodeWithRuntime
      (plan [twoCores] oneCoreNode.id) oneCore ⟨"","1"⟩ sampleInstant sampleDuration
      sampleTexts).1=.err (.node .emptyRuntimeName) := by
    decide +kernel
  have hl : ((Plane.new .empty emptyDiscovery).createLeasedLogicalNodeWithRuntime
      (plan [twoCores] oneCoreNode.id) oneCore ⟨"","1"⟩ sampleInstant sampleDuration
      sampleTexts).2.leases[sampleTexts 0]?.isSome=true := by
    decide +kernel
  have hs := (h.2 _ _ (Prod.ext he rfl)).leases
  rw [hs] at hl
  simp [Plane.new] at hl

end Sample

end OpenHost.Plane
