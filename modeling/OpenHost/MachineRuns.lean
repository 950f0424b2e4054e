import OpenHost.VirtualMachine

/-!
# Runs of calls on one machine

A machine is called in any order, with any nodes, workloads, backends and
instants. Only its stage ever changes. A created machine runs at most once:
nothing leads back to the first stage, and from a stopped or failed machine
nothing leads back to a running one, so whatever ends the running of a
machine ends its executions for good.
-/

namespace OpenHost.VirtualMachine

/-- A call on a machine. -/
inductive Call (F : Type) where
  | start
  | stop
  | fail
  | executeAt (node : LogicalNode F) (workload : WorkItem) (backend : ExecutionBackend F)
      (now : SystemTime)

/-- How a call ended. -/
inductive Reply where
  | started (result : Except VirtualMachineError Unit)
  | stopped (result : Except VirtualMachineError Unit)
  | failed
  | executed (result : Outcome VirtualMachineError ExecutionReceipt)

/-- What one call did. -/
structure Called (F : Type) where
  /-- How the call ended. -/
  reply : Reply
  /-- The machine behind the call. -/
  vm : VirtualMachine F
  /-- The plan that a backend received, if one was called. -/
  sent : Option (ExecutionPlan F)

/-- What is left of a call that changes the machine or returns an error. -/
def settle {F : Type} (vm : VirtualMachine F)
    (reply : Except VirtualMachineError Unit → Reply) :
    Except VirtualMachineError (VirtualMachine F) → Called F
  | .ok changed => ⟨reply (.ok ()),changed,none⟩
  | .error e => ⟨reply (.error e),vm,none⟩

section Model

variable {F : Type} [Cores F] [UuidCrate]

/-- Make one call. -/
def perform (vm : VirtualMachine F) : Call F → Called F
  | .start => vm.settle .started vm.start
  | .stop => vm.settle .stopped vm.stop
  | .fail => ⟨.failed,vm.fail,none⟩
  | .executeAt node workload backend now =>
    let execution := vm.executeAt node workload backend now
    ⟨.executed execution.result,execution.vm,execution.sent⟩

/-- The machine behind a sequence of calls. -/
def after (vm : VirtualMachine F) (calls : List (Call F)) : VirtualMachine F :=
  calls.foldl (fun vm call => (vm.perform call).vm) vm

/-- The node is the one that the machine is bound to, with the resources and
the runtime of the machine. -/
def BoundTo (vm : VirtualMachine F) (node : LogicalNode F) : Prop :=
  IsCanonical node.id ∧ vm.nodeId=⟨node.id,.logicalNode⟩ ∧
    node.resources.capacity.beq vm.spec.resources=true ∧ node.runtime=vm.spec.runtime

/-- The call was handed to the backend, and the backend returned an error. -/
def BackendFails (vm : VirtualMachine F) (node : LogicalNode F) (workload : WorkItem)
    (backend : ExecutionBackend F) (now : SystemTime) : Prop :=
  ∃ plan error,(vm.perform (.executeAt node workload backend now)).sent=some plan ∧
    backend plan workload=.err error

/-- A call that ends the running of a machine: a stop that succeeds, an error
of the backend, or a fail. -/
inductive Ends (vm : VirtualMachine F) : Call F → Prop where
  | stop : (vm.perform .stop).reply=.stopped (.ok ()) → Ends vm .stop
  | fail : Ends vm .fail
  | backend {node : LogicalNode F} {workload : WorkItem} {backend : ExecutionBackend F}
      {now : SystemTime} : BackendFails vm node workload backend now →
      Ends vm (.executeAt node workload backend now)

/-- A machine whose running has ended. -/
def Over (vm : VirtualMachine F) : Prop := vm.state=.stopped ∨ vm.state=.failed

end Model

section Calls

variable {F : Type} [Cores F] [UuidCrate]

/-- A start that succeeds takes a created machine to a running one; any other
leaves the machine alone. -/
theorem perform_start (vm : VirtualMachine F) :
    vm.state=.created ∧ vm.perform .start=⟨.started (.ok ()),{vm with state := .running},none⟩ ∨
      vm.state≠.created ∧
        vm.perform .start=⟨.started (.error .invalidVirtualMachineIdentity),vm,none⟩ := by
  by_cases h : vm.state=.created
  · refine Or.inl ⟨h,?_⟩
    rw [perform,start,if_neg (by simpa using h)]
    rfl
  · refine Or.inr ⟨h,?_⟩
    rw [perform,start,if_pos h]
    rfl

/-- A stop that succeeds takes a running machine to a stopped one; any other
leaves the machine alone. -/
theorem perform_stop (vm : VirtualMachine F) :
    vm.state=.running ∧ vm.perform .stop=⟨.stopped (.ok ()),{vm with state := .stopped},none⟩ ∨
      vm.state≠.running ∧
        vm.perform .stop=⟨.stopped (.error .invalidVirtualMachineIdentity),vm,none⟩ := by
  by_cases h : vm.state=.running
  · refine Or.inl ⟨h,?_⟩
    rw [perform,stop,if_neg (by simpa using h)]
    rfl
  · refine Or.inr ⟨h,?_⟩
    rw [perform,stop,if_pos h]
    rfl

/-- An execution that does not get to the backend leaves the machine alone. -/
theorem executeAt_vm_of_not_sent {vm : VirtualMachine F} {node : LogicalNode F}
    {workload : WorkItem} {backend : ExecutionBackend F} {now : SystemTime}
    (h : (vm.executeAt node workload backend now).sent=none) :
    (vm.executeAt node workload backend now).vm=vm := by
  rw [executeAt] at h ⊢
  split
  · rfl
  · next hs =>
    rw [if_neg hs] at h
    split
    · rfl
    · next hl =>
      rw [if_neg hl] at h
      cases hp : vm.executionPlan node workload with
      | error e => rfl
      | ok plan =>
        rw [hp] at h
        dsimp only at h
        rw [runBackend] at h
        cases hb : backend plan workload <;> rw [hb] at h <;> cases h

/-- An execution changes the machine exactly when the backend returns an
error, and then to a failed one. -/
theorem perform_executeAt (vm : VirtualMachine F) (node : LogicalNode F) (workload : WorkItem)
    (backend : ExecutionBackend F) (now : SystemTime) :
    (BackendFails vm node workload backend now ∧ vm.state=.running ∧
      (vm.perform (.executeAt node workload backend now)).vm={vm with state := .failed}) ∨
    (¬BackendFails vm node workload backend now ∧
      (vm.perform (.executeAt node workload backend now)).vm=vm) := by
  cases hs : (vm.executeAt node workload backend now).sent with
  | none =>
    have hno : ¬BackendFails vm node workload backend now := by
      rintro ⟨plan,_,hsent,_⟩
      rw [perform] at hsent
      rw [hs] at hsent
      cases hsent
    exact Or.inr ⟨hno,executeAt_vm_of_not_sent hs⟩
  | some plan =>
    obtain ⟨hrun,hactive,hplan⟩ := executeAt_sent_iff.mp hs
    have hbackend := (executeAt_sent hrun hactive hplan backend).1
    have hvm : (vm.perform (.executeAt node workload backend now)).vm=
        (vm.runBackend backend plan workload).vm := congrArg Execution.vm hbackend
    have hfails : BackendFails vm node workload backend now ↔
        ∃ error,backend plan workload=.err error := by
      constructor
      · rintro ⟨plan',error,hsent,herror⟩
        obtain rfl : plan=plan' := Option.some.inj (hs.symm.trans hsent)
        exact ⟨error,herror⟩
      · rintro ⟨error,herror⟩
        exact ⟨plan,error,hs,herror⟩
    rw [hfails,hvm,runBackend]
    cases backend plan workload with
    | ok receipt => exact Or.inr ⟨by simp,rfl⟩
    | err error => exact Or.inl ⟨⟨error,rfl⟩,hrun,rfl⟩
    | panic => exact Or.inr ⟨by simp,rfl⟩

/-- Only the stage changes in a call. -/
theorem perform_frame (vm : VirtualMachine F) (call : Call F) :
    ∃ state,(vm.perform call).vm={vm with state := state} := by
  cases call with
  | start =>
    rcases perform_start vm with ⟨_,h⟩|⟨_,h⟩
    · exact ⟨.running,by rw [h]⟩
    · exact ⟨vm.state,by rw [h]⟩
  | stop =>
    rcases perform_stop vm with ⟨_,h⟩|⟨_,h⟩
    · exact ⟨.stopped,by rw [h]⟩
    · exact ⟨vm.state,by rw [h]⟩
  | fail => exact ⟨.failed,rfl⟩
  | executeAt node workload backend now =>
    rcases perform_executeAt vm node workload backend now with ⟨_,_,h⟩|⟨_,h⟩
    · exact ⟨.failed,h⟩
    · exact ⟨vm.state,h⟩

/-- No call leads back to the first stage. -/
theorem perform_not_created {vm : VirtualMachine F} (h : vm.state≠.created) (call : Call F) :
    (vm.perform call).vm.state≠.created := by
  cases call with
  | start =>
    rcases perform_start vm with ⟨hc,_⟩|⟨_,he⟩
    · exact (h hc).elim
    · rwa [he]
  | stop =>
    rcases perform_stop vm with ⟨_,he⟩|⟨_,he⟩
    · rw [he]
      exact nofun
    · rwa [he]
  | fail => exact nofun
  | executeAt node workload backend now =>
    rcases perform_executeAt vm node workload backend now with ⟨_,_,he⟩|⟨_,he⟩
    · rw [he]
      exact nofun
    · rwa [he]

/-- No call leads back to a running machine whose running has ended. -/
theorem perform_over {vm : VirtualMachine F} (h : vm.Over) (call : Call F) :
    (vm.perform call).vm.Over := by
  have hcreated : vm.state≠.created := fun he => by
    rcases h with hs|hs <;> exact absurd (hs.symm.trans he) (by decide)
  have hrunning : vm.state≠.running := fun he => by
    rcases h with hs|hs <;> exact absurd (hs.symm.trans he) (by decide)
  cases call with
  | start =>
    rcases perform_start vm with ⟨hc,_⟩|⟨_,he⟩
    · exact (hcreated hc).elim
    · rwa [he]
  | stop =>
    rcases perform_stop vm with ⟨hr,_⟩|⟨_,he⟩
    · exact (hrunning hr).elim
    · rwa [he]
  | fail => exact Or.inr rfl
  | executeAt node workload backend now =>
    rcases perform_executeAt vm node workload backend now with ⟨_,hr,_⟩|⟨_,he⟩
    · exact (hrunning hr).elim
    · rwa [he]

/-- What ends the running of a machine leaves one whose running has ended. -/
theorem Ends.isOver {vm : VirtualMachine F} {call : Call F} (h : Ends vm call) :
    (vm.perform call).vm.Over := by
  cases h with
  | stop hreply =>
    rcases perform_stop vm with ⟨_,he⟩|⟨_,he⟩
    · rw [he]
      exact Or.inl rfl
    · rw [he] at hreply
      cases hreply
  | fail => exact Or.inr rfl
  | backend hfails =>
    rcases perform_executeAt vm _ _ _ _ with ⟨_,_,he⟩|⟨hno,_⟩
    · rw [he]
      exact Or.inr rfl
    · exact (hno hfails).elim

/-- A call reaches a backend exactly as an execution of a running machine
with active leases on the node it is bound to, which plans. -/
theorem perform_sent_iff {vm : VirtualMachine F} {call : Call F} :
    (vm.perform call).sent.isSome=true ↔
      ∃ node workload backend now,call=.executeAt node workload backend now ∧
        vm.state=.running ∧ (∀ l ∈ vm.leases,l.activeAt now=true) ∧ vm.BoundTo node ∧
        ∃ plan,ExecutionPlan.fromNode node workload=.ok plan := by
  constructor
  · intro h
    cases call with
    | start =>
      rcases perform_start vm with ⟨_,he⟩|⟨_,he⟩ <;> rw [he] at h <;> cases h
    | stop =>
      rcases perform_stop vm with ⟨_,he⟩|⟨_,he⟩ <;> rw [he] at h <;> cases h
    | fail => cases h
    | executeAt node workload backend now =>
      obtain ⟨plan,hs⟩ := Option.isSome_iff_exists.mp h
      obtain ⟨hrun,hactive,hplan⟩ := executeAt_sent_iff.mp hs
      obtain ⟨hc,hn,hr,ht,hfrom⟩ := executionPlan_eq_ok.mp hplan
      exact ⟨node,workload,backend,now,rfl,hrun,hactive,⟨hc,hn,hr,ht⟩,plan,hfrom⟩
  · rintro ⟨node,workload,backend,now,rfl,hrun,hactive,⟨hc,hn,hr,ht⟩,plan,hfrom⟩
    have hplan := executionPlan_eq_ok.mpr ⟨hc,hn,hr,ht,hfrom⟩
    have hs : (vm.perform (.executeAt node workload backend now)).sent=some plan :=
      executeAt_sent_iff.mpr ⟨hrun,hactive,hplan⟩
    rw [hs]
    rfl

end Calls

section Runs

variable {F : Type} [Cores F] [UuidCrate]

/-- A sequence of calls after another one. -/
theorem after_append (vm : VirtualMachine F) (before calls : List (Call F)) :
    vm.after (before++calls)=(vm.after before).after calls := List.foldl_append

/-- What every call keeps, every sequence of calls keeps. -/
theorem after_invariant (I : VirtualMachine F → Prop)
    (keeps : ∀ vm call,I vm → I (vm.perform call).vm) {vm : VirtualMachine F} (h : I vm)
    (calls : List (Call F)) : I (vm.after calls) :=
  List.foldlRecOn calls _ h fun vm h call _ => keeps vm call h

/-- Only the stage changes in a sequence of calls. -/
theorem after_frame (vm : VirtualMachine F) (calls : List (Call F)) :
    ∃ state,vm.after calls={vm with state := state} := by
  have hkeeps : ∀ (m : VirtualMachine F) (call : Call F),
      (∃ state,m={vm with state := state}) → ∃ state,(m.perform call).vm={vm with state := state} := by
    rintro m call ⟨state,rfl⟩
    exact perform_frame _ call
  exact after_invariant (fun m => ∃ state,m={vm with state := state}) hkeeps ⟨vm.state,rfl⟩ calls

/-- A machine that has been started is never started again. -/
theorem started_once {vm : VirtualMachine F}
    (h : (vm.perform .start).reply=.started (.ok ())) (calls : List (Call F)) :
    ((vm.after (.start::calls)).perform .start).reply≠.started (.ok ()) := by
  have hfirst : (vm.perform .start).vm.state≠.created := by
    rcases perform_start vm with ⟨_,he⟩|⟨_,he⟩
    · rw [he]
      exact nofun
    · rw [he] at h
      cases h
  have hlater : (vm.after (.start::calls)).state≠.created :=
    after_invariant (fun m => m.state≠.created) (fun _ call hm => perform_not_created hm call)
      hfirst calls
  rcases perform_start (vm.after (.start::calls)) with ⟨hc,_⟩|⟨_,he⟩
  · exact (hlater hc).elim
  · rw [he]
    exact nofun

/-- Once the running of a machine has ended, nothing reaches a backend. -/
theorem Ends.never_sent {vm : VirtualMachine F} {call : Call F} (h : Ends vm call)
    (calls : List (Call F)) (later : Call F) :
    ((vm.after (call::calls)).perform later).sent=none := by
  have hover : (vm.after (call::calls)).Over :=
    after_invariant Over (fun _ call hm => perform_over hm call) h.isOver calls
  by_contra hs
  obtain ⟨_,_,_,_,_,hrun,_⟩ := perform_sent_iff.mp (Option.isSome_iff_ne_none.mpr hs)
  rcases hover with he|he <;> exact absurd (he.symm.trans hrun) (by decide)

/-- In every sequence of calls on a machine only the stage changes; a call
reaches a backend exactly through all the gates; an execution changes the
stage exactly when the backend was reached and returned an error, and then
to failed; a start succeeds at most once; and after a stop that succeeds, an
error of the backend or a fail no call reaches a backend. -/
theorem runs_gated (vm : VirtualMachine F) (before : List (Call F)) :
    ((vm.after before).id=vm.id ∧ (vm.after before).nodeId=vm.nodeId ∧
      (vm.after before).spec=vm.spec ∧ (vm.after before).leases=vm.leases ∧
      (vm.after before).createdAt=vm.createdAt) ∧
    (∀ call,((vm.after before).perform call).sent.isSome=true ↔
      ∃ node workload backend now,call=.executeAt node workload backend now ∧
        (vm.after before).state=.running ∧ (∀ l ∈ vm.leases,l.activeAt now=true) ∧
        vm.BoundTo node ∧ ∃ plan,ExecutionPlan.fromNode node workload=.ok plan) ∧
    (∀ node workload backend now,
      (BackendFails (vm.after before) node workload backend now →
        ((vm.after before).perform (.executeAt node workload backend now)).vm.state=.failed) ∧
      (((vm.after before).perform (.executeAt node workload backend now)).vm.state≠
        (vm.after before).state ↔ BackendFails (vm.after before) node workload backend now)) ∧
    (((vm.after before).perform .start).reply=.started (.ok ()) → ∀ calls,
      ((vm.after (before++.start::calls)).perform .start).reply≠.started (.ok ())) ∧
    ∀ call,Ends (vm.after before) call → ∀ calls later,
      ((vm.after (before++call::calls)).perform later).sent=none := by
  obtain ⟨state,hframe⟩ := after_frame vm before
  refine ⟨by rw [hframe]; exact ⟨rfl,rfl,rfl,rfl,rfl⟩,?_,?_,?_,?_⟩
  · intro call
    rw [perform_sent_iff]
    have hleases : (vm.after before).leases=vm.leases := by rw [hframe]
    have hbound : ∀ node,(vm.after before).BoundTo node ↔ vm.BoundTo node := fun node => by
      rw [hframe]
      rfl
    simp only [hleases,hbound]
  · intro node workload backend now
    rcases perform_executeAt (vm.after before) node workload backend now with
      ⟨hfails,hrun,he⟩|⟨hno,he⟩
    · rw [he,hrun]
      exact ⟨fun _ => rfl,iff_of_true nofun hfails⟩
    · rw [he]
      exact ⟨fun hfails => (hno hfails).elim,iff_of_false (fun hne => hne rfl) hno⟩
  · intro h calls
    rw [after_append]
    exact started_once h calls
  · intro call h calls later
    rw [after_append]
    exact h.never_sent calls later

end Runs

end OpenHost.VirtualMachine
