import OpenHost.Interleavings

/-!
# Machines that come back

Two consequences of the write-back. A machine that was destroyed stays
destroyed exactly when no call holds a copy of it that may still be written
back. A machine that was stopped or has failed stays so, and is executed no
more, exactly when no call holds such a copy from the time before.
-/

namespace OpenHost

/-- The machine has not been stopped and has not failed. -/
def VirtualMachine.Live {F : Type} (vm : VirtualMachine F) : Prop :=
  vm.state=.created ∨ vm.state=.running

/-- The machine was stopped or has failed. -/
def VirtualMachine.Ended {F : Type} (vm : VirtualMachine F) : Prop :=
  vm.state=.stopped ∨ vm.state=.failed

/-- A machine has ended exactly when it is not live. -/
theorem VirtualMachine.ended_iff {F : Type} {vm : VirtualMachine F} : vm.Ended ↔ ¬vm.Live := by
  rw [Ended,Live]
  cases vm.state <;> simp

/-- The call has sent nothing to a backend, and holds no running copy. -/
def Call.Idle {F : Type} : Call F → Prop
  | .cloned _ _ _ vm => vm.state≠.running
  | .ready _ _ _ vm _ => vm.state≠.running
  | .ran _ run => run.sent=none
  | .finished _ (.receipt _ sent) => sent=none
  | _ => True

/-- An idle call has sent nothing. -/
theorem Call.Idle.sent {F : Type} {call : Call F} (h : call.Idle) : call.sent=none := by
  cases call with
  | ran id run => exact h
  | finished id answer =>
    cases answer with
    | machine result => rfl
    | receipt result sent => exact h
  | start id => rfl
  | stop id => rfl
  | execute id workload backend => rfl
  | cloned id workload backend vm => rfl
  | ready id workload backend vm node => rfl
  | destroy id => rfl
  | releasing id vm leases => rfl

/-- A call that begins is idle. -/
theorem Call.idle_of_begins {F : Type} {call : Call F} (h : call.begins=true) : call.Idle := by
  cases call with
  | start id => trivial
  | stop id => trivial
  | execute id workload backend => trivial
  | destroy id => trivial
  | cloned id workload backend vm => cases h
  | ready id workload backend vm node => cases h
  | ran id run => cases h
  | releasing id vm leases => cases h
  | finished id answer => cases h

namespace System

section Exact

variable {F : Type} [Cores F] [UuidCrate]

/-- No property at all comes from a machine that is not there. -/
theorem absorbing_true : Absorbing fun _ : VirtualMachine F => True :=
  ⟨fun _ _ h => (h trivial).elim,fun _ _ h => (h trivial).elim,
    fun _ _ _ _ _ h => (h trivial).elim⟩

/-- A machine that has ended does not become live again. -/
theorem absorbing_live : Absorbing (VirtualMachine.Live (F:=F)) := by
  refine ⟨?_,?_,?_⟩
  · intro vm started hn h
    exact (hn (Or.inl (VirtualMachine.start_eq_ok.mp h).1)).elim
  · intro vm stopped hn h
    exact (hn (Or.inr (VirtualMachine.stop_eq_ok.mp h).1)).elim
  · intro vm node workload backend now hn
    rcases vm.executeAt_vm node workload backend now with h|⟨hr,_⟩
    · rw [h]
      exact hn
    · exact (hn (Or.inr hr)).elim

/-- Behind the section that removes a machine, the same calls may store it as
in front of it. -/
theorem quiet_removal {s : System F} {i : ℕ} {id : Identity} {vm : VirtualMachine F}
    (hc : s.calls[i]?=some (.destroy id)) (hs : s.plane.virtualMachines[id.id]?=some vm)
    (now : SystemTime) (Q : VirtualMachine F → Prop) (k : String) :
    Quiet Q k (s.advance i now) ↔ Quiet Q k s := by
  have hnext : (Call.destroy id).advance s.plane now=
      ({s.plane with virtualMachines := s.plane.virtualMachines.erase id.id},
        .releasing id vm vm.leases) := by
    rw [Call.advance,hs]
  have hplane : ∀ call : Call F,call.MayStore Q k
      {s.plane with virtualMachines := s.plane.virtualMachines.erase id.id} ↔
        call.MayStore Q k s.plane := by
    intro call
    cases call <;> exact Iff.rfl
  have hafter := advance_of_call hc now
  rw [hnext] at hafter
  constructor
  · intro hq call hm hstore
    obtain ⟨j,hj⟩ := List.mem_iff_getElem?.mp hm
    by_cases hij : i=j
    · rw [← hij,hc,Option.some.injEq] at hj
      rw [← hj] at hstore
      exact hstore
    · have hmem : call ∈ (s.advance i now).calls := by
        refine List.mem_iff_getElem?.mpr ⟨j,?_⟩
        rw [hafter]
        exact (List.getElem?_set_ne hij).trans hj
      refine hq call hmem ?_
      rw [hafter]
      exact (hplane call).mpr hstore
  · intro hq call hm hstore
    rw [hafter] at hstore
    rcases mem_calls_advance hc hm with hnew|hold
    · rw [hnew,hnext] at hstore
      exact hstore
    · exact hq call hold ((hplane call).mp hstore)

/-- Whatever interleaving has led here: a machine that a teardown removes now
is absent for ever exactly when no call holds a copy of it that it may still
write back. -/
theorem destroyed_forever_iff (plane : Plane F) (hp : plane.Reachable) (s : System F)
    (hrun : Reaches ⟨plane,[]⟩ s) (i : ℕ) (id : Identity) (now : SystemTime)
    (hc : s.calls[i]?=some (.destroy id)) (hs : s.plane.virtualMachines[id.id]?.isSome=true) :
    (∀ t,Reaches (s.advance i now) t → t.plane.virtualMachines[id.id]?=none) ↔
      ∀ call ∈ s.calls,¬call.MayStore (fun _ => True) id.id s.plane := by
  obtain ⟨vm,hvm⟩ := Option.isSome_iff_exists.mp hs
  have hkeyed : Keyed (s.advance i now) :=
    keyed_of_reachable hp (hrun.trans (s.reaches_advance i now))
  have hnone : (s.advance i now).plane.virtualMachines[id.id]?=none := by
    rw [advance_of_call hc,Call.advance,hvm]
    exact (OrderedMap.getElem?_erase_eq _ _ _).trans (if_pos rfl)
  have hfree : Free (fun _ => True) id.id (s.advance i now) := by
    intro found hf
    rw [hnone] at hf
    cases hf
  have habsent : ∀ t : System F,t.plane.virtualMachines[id.id]?=none ↔
      Free (fun _ => True) id.id t := by
    intro t
    rw [Option.eq_none_iff_forall_ne_some]
    exact ⟨fun h found hf => (h found hf).elim,fun h found hf => h found hf trivial⟩
  simp only [habsent]
  rw [free_forever_iff absorbing_true hkeyed hfree,quiet_removal hc hvm]
  rfl

/-- A section does not change the name that a call was made with. -/
theorem advance_id (plane : Plane F) (call : Call F) (now : SystemTime) :
    (call.advance plane now).2.id=call.id := by
  cases call with
  | start id => rfl
  | stop id => rfl
  | execute id workload backend =>
    rw [Call.advance]
    split <;> rfl
  | cloned id workload backend vm =>
    rw [Call.advance]
    split <;> rfl
  | ready id workload backend vm node =>
    rw [Call.advance]
    split <;> rfl
  | ran id run => rfl
  | destroy id =>
    rw [Call.advance]
    split <;> rfl
  | releasing id vm leases =>
    cases leases with
    | nil => rfl
    | cons lease rest =>
      rw [Call.advance]
      rcases plane.releaseLease lease.id with ⟨e|l,after⟩ <;> rfl
  | finished id answer => rfl

/-- An idle call on a machine that has ended stays idle. -/
theorem advance_idle {plane : Plane F} {call : Call F} {now : SystemTime} (hi : call.Idle)
    (hfree : ∀ vm,plane.virtualMachines[call.id.id]?=some vm → ¬vm.Live) :
    (call.advance plane now).2.Idle := by
  cases call with
  | start id => trivial
  | stop id => trivial
  | execute id workload backend =>
    rw [Call.advance]
    cases hs : plane.virtualMachines[id.id]? with
    | none => rfl
    | some vm => exact fun hr => hfree vm hs (Or.inr hr)
  | cloned id workload backend vm =>
    rw [Call.advance]
    cases plane.logicalNodes[vm.nodeId.id]? with
    | none => rfl
    | some node => exact hi
  | ready id workload backend vm node =>
    rw [Call.advance,VirtualMachine.executeAt_of_not_running hi]
    rfl
  | ran id run => exact hi
  | destroy id =>
    rw [Call.advance]
    split <;> trivial
  | releasing id vm leases =>
    cases leases with
    | nil => trivial
    | cons lease rest =>
      rw [Call.advance]
      rcases plane.releaseLease lease.id with ⟨e|l,after⟩ <;> trivial
  | finished id answer => exact hi

/-- Every call on the name that has begun at this position or later is idle. -/
def IdleFrom (n : ℕ) (k : String) (s : System F) : Prop :=
  ∀ (i : ℕ) (call : Call F),n ≤ i → s.calls[i]?=some call → call.id.id=k → call.Idle

/-- While no live machine is stored, a step keeps the later calls idle. -/
theorem IdleFrom.keep {n : ℕ} {k : String} {s t : System F} (hi : IdleFrom n k s)
    (hfree : Free VirtualMachine.Live k s) {e : Event F} (h : Step s e t) : IdleFrom n k t := by
  intro j call hn hj hid
  cases e with
  | begins new =>
    rw [h.2,begin] at hj
    dsimp only at hj
    by_cases hlt : j<s.calls.length
    · rw [List.getElem?_append_left hlt] at hj
      exact hi j call hn hj hid
    · have hmem : call ∈ [new] := by
        rw [List.getElem?_append_right (not_lt.mp hlt)] at hj
        exact List.mem_of_getElem? hj
      rw [List.mem_singleton.mp hmem]
      exact Call.idle_of_begins h.1
  | advances i now =>
    rw [show t=s.advance i now from h] at hj
    cases hc : s.calls[i]? with
    | none =>
      rw [advance,hc] at hj
      exact hi j call hn hj hid
    | some old =>
      by_cases hij : i=j
      · subst hij
        rw [advance_call hc,Option.some.injEq] at hj
        subst hj
        rw [advance_id] at hid
        refine advance_idle (hi i old hn hc hid) ?_
        rw [hid]
        exact hfree
      · rw [advance_of_call hc] at hj
        dsimp only at hj
        rw [List.getElem?_set_ne hij] at hj
        exact hi j call hn hj hid

/-- Whatever interleaving has led here: a stored machine that has ended stays
so, and no execution that begins from now on reaches a backend, exactly when
no call holds a live copy of it that it may still write back. -/
theorem ended_forever_iff (plane : Plane F) (hp : plane.Reachable) (s : System F)
    (hrun : Reaches ⟨plane,[]⟩ s) (k : String) (vm : VirtualMachine F)
    (hs : s.plane.virtualMachines[k]?=some vm) (he : vm.Ended) :
    (∀ t,Reaches s t → (∀ found,t.plane.virtualMachines[k]?=some found → found.Ended) ∧
      ∀ i call,s.calls.length ≤ i → t.calls[i]?=some call → call.id.id=k → call.sent=none) ↔
    ∀ call ∈ s.calls,¬call.MayStore VirtualMachine.Live k s.plane := by
  have hkeyed := keyed_of_reachable hp hrun
  have hfree : Free VirtualMachine.Live k s := by
    intro found hf
    rw [hs,Option.some.injEq] at hf
    rw [← hf]
    exact VirtualMachine.ended_iff.mp he
  have hforever := free_forever_iff absorbing_live hkeyed hfree
  constructor
  · intro hall
    refine hforever.mp fun t ht found hf => ?_
    exact VirtualMachine.ended_iff.mp ((hall t ht).1 found hf)
  · intro hquiet t ht
    have hidle : IdleFrom s.calls.length k s := by
      intro i call hn hi
      have hlt := (List.getElem?_eq_some_iff.mp hi).1
      omega
    have hinv : Safe VirtualMachine.Live k t ∧ IdleFrom s.calls.length k t := by
      refine ht.invariant (I:=fun u => Safe VirtualMachine.Live k u ∧
        IdleFrom s.calls.length k u) ?_ ⟨⟨hkeyed,hfree,hquiet⟩,hidle⟩
      intro u e v hu _ hstep
      exact ⟨hu.1.keep absorbing_live hstep,hu.2.keep hu.1.free hstep⟩
    refine ⟨fun found hf => VirtualMachine.ended_iff.mpr (hinv.1.free found hf),?_⟩
    intro i call hn hi hid
    exact (hinv.2 i call hn hi hid).sent

end Exact

section Sample

open Plane

/-- The name of the machine in the sample plane. -/
def sharedIdentity : Identity := ⟨sampleTexts 0,.virtualMachine⟩

/-- An execution on the machine. -/
def sharedExecution : Call ℚ := .execute sharedIdentity ⟨"job",[]⟩ noopBackend

/-- The sample plane with its machine started. -/
def startedSystem : System ℚ := letI := hyphenatedUuid
  ((⟨sharedPlane,[]⟩ : System ℚ).begin (.start sharedIdentity)).advance 0 sampleInstant

/-- An execution has read the machine and its node, and another call begins. -/
def racingSystem (call : Call ℚ) : System ℚ := letI := hyphenatedUuid
  (((startedSystem.begin sharedExecution).advance 1 sampleInstant).advance 1 sampleInstant).begin
    call

/-- The sample plane is reachable. -/
theorem sharedPlane_reachable : letI := hyphenatedUuid
    sharedPlane.Reachable :=
  ⟨_,_,Relation.ReflTransGen.single ⟨_,trivial,newPlane_step_sharedPlane⟩⟩

/-- The started machine is reached from the sample plane. -/
theorem startedSystem_reached : letI := hyphenatedUuid
    Reaches ⟨sharedPlane,[]⟩ startedSystem := by
  let := hyphenatedUuid
  exact (reaches_begin _ rfl).trans (reaches_advance _ _ _)

/-- The race is reached from the sample plane. -/
theorem racingSystem_reached {call : Call ℚ} (h : call.begins=true) : letI := hyphenatedUuid
    Reaches ⟨sharedPlane,[]⟩ (racingSystem call) := by
  let := hyphenatedUuid
  exact (((startedSystem_reached.trans (reaches_begin _ rfl)).trans (reaches_advance _ _ _)).trans
    (reaches_advance _ _ _)).trans (reaches_begin _ h)

/-- A teardown without any execution in flight is for ever. -/
theorem destroyed_forever_startedSystem : letI := hyphenatedUuid
    Reaches ⟨sharedPlane,[]⟩ (startedSystem.begin (.destroy sharedIdentity)) ∧
      ∀ t,Reaches ((startedSystem.begin (.destroy sharedIdentity)).advance 1 sampleInstant) t →
        t.plane.virtualMachines[sharedIdentity.id]?=none := by
  let := hyphenatedUuid
  have hreached : Reaches ⟨sharedPlane,[]⟩ (startedSystem.begin (.destroy sharedIdentity)) :=
    startedSystem_reached.trans (reaches_begin _ rfl)
  refine ⟨hreached,(destroyed_forever_iff sharedPlane sharedPlane_reachable
    (startedSystem.begin (.destroy sharedIdentity)) hreached 1 sharedIdentity sampleInstant rfl
    (by decide +kernel)).mpr ?_⟩
  intro call hm
  obtain ⟨first,hcalls⟩ : ∃ first,(startedSystem.begin (.destroy sharedIdentity)).calls=
      [.finished sharedIdentity first,.destroy sharedIdentity] := ⟨_,rfl⟩
  rw [hcalls] at hm
  rcases List.mem_cons.mp hm with rfl|hm
  · exact fun h => h
  · rw [List.mem_singleton.mp hm]
    exact fun h => h

/-- A teardown between the read and the write-back of an execution: the
machine is removed, the teardown ends, and the machine comes back. -/
theorem destroyed_returns : letI := hyphenatedUuid
    sharedPlane.Reachable ∧ Reaches ⟨sharedPlane,[]⟩ (racingSystem (.destroy sharedIdentity)) ∧
      (racingSystem (.destroy sharedIdentity)).calls[2]?=some (.destroy sharedIdentity) ∧
      (racingSystem (.destroy sharedIdentity)).plane.virtualMachines[sharedIdentity.id]?.isSome=
        true ∧
      ¬∀ t,Reaches ((racingSystem (.destroy sharedIdentity)).advance 2 sampleInstant) t →
        t.plane.virtualMachines[sharedIdentity.id]?=none := by
  let := hyphenatedUuid
  refine ⟨sharedPlane_reachable,racingSystem_reached rfl,rfl,by decide +kernel,?_⟩
  intro hall
  have hback := hall _ (((reaches_advance _ 2 sampleInstant).trans
    (reaches_advance _ 1 sampleInstant)).trans (reaches_advance _ 1 sampleInstant))
  revert hback
  decide +kernel

/-- The sample plane with its machine started and stopped. -/
def stoppedSystem : System ℚ := letI := hyphenatedUuid
  (startedSystem.begin (.stop sharedIdentity)).advance 1 sampleInstant

/-- A machine that was stopped without any execution in flight stays so. -/
theorem ended_forever_stoppedSystem : letI := hyphenatedUuid
    Reaches ⟨sharedPlane,[]⟩ stoppedSystem ∧
      ∀ t,Reaches stoppedSystem t →
        ∀ found,t.plane.virtualMachines[sharedIdentity.id]?=some found → found.Ended := by
  let := hyphenatedUuid
  have hstored : stoppedSystem.plane.virtualMachines[sharedIdentity.id]?=
      some {wasmMachine (sampleTexts 0) [] with state := .stopped} := by
    decide +kernel
  have hbegin : Reaches startedSystem (startedSystem.begin (.stop sharedIdentity)) :=
    reaches_begin _ rfl
  have hreached : Reaches ⟨sharedPlane,[]⟩ stoppedSystem :=
    (startedSystem_reached.trans hbegin).trans (reaches_advance _ 1 sampleInstant)
  refine ⟨hreached,fun t ht => ((ended_forever_iff sharedPlane sharedPlane_reachable stoppedSystem
    hreached sharedIdentity.id _ hstored (Or.inl rfl)).mpr ?_ t ht).1⟩
  intro call hm
  obtain ⟨first,second,hcalls⟩ : ∃ first second,stoppedSystem.calls=
      [.finished sharedIdentity first,.finished sharedIdentity second] := ⟨_,_,rfl⟩
  rw [hcalls] at hm
  rcases List.mem_cons.mp hm with rfl|hm
  · exact fun h => h
  · rw [List.mem_singleton.mp hm]
    exact fun h => h

/-- A stop between the read and the write-back of an execution: the machine is
stopped and then runs again. -/
theorem stopped_returns : letI := hyphenatedUuid
    sharedPlane.Reachable ∧
      Reaches ⟨sharedPlane,[]⟩
        ((racingSystem (.stop sharedIdentity)).advance 2 sampleInstant) ∧
      (∃ vm,((racingSystem (.stop sharedIdentity)).advance 2 sampleInstant).plane.virtualMachines[
        sharedIdentity.id]?=some vm ∧ vm.Ended) ∧
      ¬∀ t,Reaches ((racingSystem (.stop sharedIdentity)).advance 2 sampleInstant) t →
        ∀ found,t.plane.virtualMachines[sharedIdentity.id]?=some found → found.Ended := by
  let := hyphenatedUuid
  refine ⟨sharedPlane_reachable,(racingSystem_reached rfl).trans (reaches_advance _ _ _),
    ⟨{wasmMachine (sampleTexts 0) [] with state := .stopped},by decide +kernel,Or.inl rfl⟩,?_⟩
  intro hall
  have hback := hall _ ((reaches_advance _ 1 sampleInstant).trans
    (reaches_advance _ 1 sampleInstant)) {wasmMachine (sampleTexts 0) [] with state := .running}
    (by decide +kernel)
  rcases hback with h|h
  · cases h
  · cases h

end Sample

end System

end OpenHost
