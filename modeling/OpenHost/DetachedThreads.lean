import OpenHost.Checks
import OpenHost.Transition

/-!
# Threads that are spawned in a loop and joined without a scope

A main routine acquires tasks one after the other and spawns a thread for
each; then it joins the threads in the order in which they were spawned. The
first task that it does not get and the first thread that has failed make it
return at once. No scope is around the threads: those that it has not joined
go on. Every run leads to the return, the result does not depend on the order
of the steps, and how everything ends decides whether a thread may be left.
-/

namespace OpenHost.DetachedThreads

/-- How a spawned thread stands. -/
inductive Phase where
  /-- Not ended yet. -/
  | running
  /-- Ended. -/
  | ended
  deriving DecidableEq

/-- How the main routine stands. -/
inductive Main (ε : Type) where
  /-- It acquires the next task. -/
  | acquiring
  /-- It joins that thread. -/
  | joining (i : ℕ)
  /-- It has returned. -/
  | returned (result : Except ε Unit)

/-- The threads and the routine that spawns them. -/
structure Crew (ε : Type) where
  /-- The spawned threads in the order in which they were spawned. -/
  threads : List Phase
  /-- The main routine. -/
  main : Main ε

/-- What moves next. -/
inductive Event where
  /-- The main routine. -/
  | main
  /-- One of the threads. -/
  | thread (i : ℕ)

/-- How everything ends that the main routine asks for. -/
structure Fates (ε : Type) where
  /-- Number of tasks that it asks for. -/
  count : ℕ
  /-- How acquiring each task ends. -/
  acquired : ℕ → Except ε Unit
  /-- How the thread of each task ends. -/
  ended : ℕ → Except ε Unit

variable {ε : Type}

/-- No task is acquired yet. -/
def start : Crew ε := ⟨[],.acquiring⟩

/-- One step of a crew under these fates. -/
inductive Step (f : Fates ε) : Crew ε → Event → Crew ε → Prop where
  | spawn {threads} : threads.length<f.count → f.acquired threads.length=.ok () →
    Step f ⟨threads,.acquiring⟩ .main ⟨threads++[Phase.running],.acquiring⟩
  | refuse {threads e} : threads.length<f.count → f.acquired threads.length=.error e →
    Step f ⟨threads,.acquiring⟩ .main ⟨threads,.returned (.error e)⟩
  | spawned {threads} : threads.length=f.count →
    Step f ⟨threads,.acquiring⟩ .main ⟨threads,.joining 0⟩
  | finish {threads main i} : threads[i]?=some .running →
    Step f ⟨threads,main⟩ (.thread i) ⟨threads.set i .ended,main⟩
  | join {threads i} : threads[i]?=some .ended → f.ended i=.ok () →
    Step f ⟨threads,.joining i⟩ .main ⟨threads,.joining (i+1)⟩
  | fail {threads i e} : threads[i]?=some .ended → f.ended i=.error e →
    Step f ⟨threads,.joining i⟩ .main ⟨threads,.returned (.error e)⟩
  | collect {threads i} : i=threads.length →
    Step f ⟨threads,.joining i⟩ .main ⟨threads,.returned (.ok ())⟩

/-- Any number of steps. -/
abbrev Reaches (f : Fates ε) : Crew ε → Crew ε → Prop :=
  Transition.Reaches (Step f) fun _ _ => True

/-- Whenever the main routine has returned, no thread is running. -/
def Quiet (f : Fates ε) : Prop :=
  ∀ s r,Reaches f start s → s.main=.returned r → .running∉s.threads

/-- The first tasks are acquired. -/
def Fates.Acquired (f : Fates ε) (n : ℕ) : Prop := ∀ i<n,f.acquired i=.ok ()

/-- The first threads return. -/
def Fates.Succeeded (f : Fates ε) (n : ℕ) : Prop := ∀ i<n,f.ended i=.ok ()

/-- Nothing is spawned, or everything is acquired and no thread fails that has
one behind it. -/
def Fates.Awaited (f : Fates ε) : Prop :=
  0<f.count ∧ (∃ e,f.acquired 0=.error e) ∨ f.Acquired f.count ∧ f.Succeeded (f.count-1)

/-- The result of asking one after the other. -/
def Fates.result (f : Fates ε) : Except ε Unit := do
  (List.range f.count).forM f.acquired
  (List.range f.count).forM f.ended

section Invariant

variable {f : Fates ε} {threads : List Phase} {i : ℕ}

/-- The first threads have ended and returned. -/
def Joined (f : Fates ε) (threads : List Phase) (n : ℕ) : Prop :=
  f.Succeeded n ∧ ∀ i<n,threads[i]?=some .ended

/-- Why the main routine has returned. -/
inductive Returned (f : Fates ε) (threads : List Phase) : Except ε Unit → Prop where
  | refused {e} : threads.length<f.count → f.Acquired threads.length →
    f.acquired threads.length=.error e → Returned f threads (.error e)
  | failed {i e} : threads.length=f.count → f.Acquired f.count → Joined f threads i →
    threads[i]?=some .ended → f.ended i=.error e → Returned f threads (.error e)
  | all : threads.length=f.count → f.Acquired f.count → Joined f threads f.count →
    Returned f threads (.ok ())

/-- What the main routine has seen of the threads. -/
def Seen (f : Fates ε) (threads : List Phase) : Main ε → Prop
  | .acquiring => threads.length ≤ f.count ∧ f.Acquired threads.length
  | .joining i => threads.length=f.count ∧ f.Acquired f.count ∧ i ≤ f.count ∧ Joined f threads i
  | .returned r => Returned f threads r

/-- One more fate that is good. -/
theorem forall_lt_succ {P : ℕ → Prop} {n : ℕ} (h : ∀ i<n,P i) (hn : P n) : ∀ i<n+1,P i := by
  intro i hi
  rcases Nat.lt_succ_iff_lt_or_eq.mp hi with hlt|rfl
  · exact h i hlt
  · exact hn

/-- A thread that ends leaves alone those that have ended. -/
theorem ended_set (hi : threads[i]?=some .running) {j : ℕ} (hj : threads[j]?=some .ended) :
    (threads.set i .ended)[j]?=some .ended := by
  have hne : i≠j := by
    rintro rfl
    rw [hi] at hj
    cases hj
  rw [List.getElem?_set_ne hne,hj]

/-- A thread that ends leaves alone those that were joined. -/
theorem Joined.set {n : ℕ} (h : Joined f threads n) (hi : threads[i]?=some .running) :
    Joined f (threads.set i .ended) n :=
  ⟨h.1,fun j hj => ended_set hi (h.2 j hj)⟩

/-- A thread that ends leaves alone what the main routine has seen. -/
theorem Seen.set {main : Main ε} (h : Seen f threads main) (hi : threads[i]?=some .running) :
    Seen f (threads.set i .ended) main := by
  cases main with
  | acquiring =>
    rw [Seen,List.length_set]
    exact h
  | joining j =>
    obtain ⟨hlen,hacq,hle,hjoined⟩ := h
    exact ⟨by rw [List.length_set,hlen],hacq,hle,hjoined.set hi⟩
  | returned r =>
    rw [Seen] at h ⊢
    cases h with
    | refused hlt hacq he =>
      exact .refused (by rwa [List.length_set]) (by rwa [List.length_set])
        (by rwa [List.length_set])
    | failed hlen hacq hjoined hended he =>
      exact .failed (by rwa [List.length_set]) hacq (hjoined.set hi) (ended_set hi hended) he
    | all hlen hacq hjoined => exact .all (by rwa [List.length_set]) hacq (hjoined.set hi)

/-- Every step keeps what the main routine has seen. -/
theorem seen_step {s t : Crew ε} {e : Event} (h : Seen f s.threads s.main)
    (hstep : Step f s e t) : Seen f t.threads t.main := by
  cases hstep with
  | spawn hlt hok =>
    obtain ⟨_,hacq⟩ := h
    refine ⟨?_,?_⟩
    · rwa [List.length_append,List.length_singleton]
    · rw [List.length_append,List.length_singleton]
      exact forall_lt_succ hacq hok
  | refuse hlt he => exact .refused hlt h.2 he
  | spawned hlen => exact ⟨hlen,hlen ▸ h.2,Nat.zero_le _,nofun,nofun⟩
  | finish hi => exact h.set hi
  | @join threads i hended hok =>
    obtain ⟨hlen,hacq,_,hsucc,hjoined⟩ := h
    have hlt := (List.getElem?_eq_some_iff.mp hended).1
    exact ⟨hlen,hacq,hlen ▸ hlt,forall_lt_succ hsucc hok,forall_lt_succ hjoined hended⟩
  | fail hended he => exact .failed h.1 h.2.1 h.2.2.2 hended he
  | collect hlen =>
    obtain ⟨hcount,hacq,_,hjoined⟩ := h
    exact .all hcount hacq (hcount ▸ hlen ▸ hjoined)

/-- The main routine has seen the threads as they are, along every run. -/
theorem seen_of_reaches {s : Crew ε} (h : Reaches f start s) : Seen f s.threads s.main :=
  h.invariant (fun _ _ _ hs _ hstep => seen_step hs hstep) ⟨Nat.zero_le _,nofun⟩

end Invariant

section Result

variable {f : Fates ε}

/-- Asking for the first of many succeeds exactly when each does. -/
theorem forM_range_eq_ok {g : ℕ → Except ε Unit} {n : ℕ} :
    (List.range n).forM g=.ok () ↔ ∀ i<n,g i=.ok () := by
  rw [Checks.forM_eq_ok]
  simp only [List.mem_range]

/-- The first failure is the failure of asking for many. -/
theorem forM_range_eq_error {g : ℕ → Except ε Unit} {n j : ℕ} {e : ε} (hj : j<n)
    (hok : ∀ i<j,g i=.ok ()) (he : g j=.error e) : (List.range n).forM g=.error e := by
  induction n with
  | zero => exact absurd hj (Nat.not_lt_zero j)
  | succ n ih =>
    have hsplit : (List.range (n+1)).forM g=(List.range n).forM g >>= fun _ => g n := by
      rw [List.range_succ]
      change forM (List.range n++[n]) g=_
      rw [List.forM_append,List.forM_cons]
      cases g n <;> simp
    rw [hsplit,Checks.bind_eq_error]
    rcases Nat.lt_succ_iff_lt_or_eq.mp hj with hlt|rfl
    · exact Or.inl (ih hlt)
    · exact Or.inr ⟨(),forM_range_eq_ok.mpr hok,he⟩

/-- Why the main routine has returned determines what it has returned. -/
theorem Returned.eq_result {threads : List Phase} {r : Except ε Unit}
    (h : Returned f threads r) : r=f.result := by
  symm
  cases h with
  | refused hlt hacq he =>
    exact Checks.bind_eq_error.mpr (Or.inl (forM_range_eq_error hlt hacq he))
  | failed hlen hacq hjoined hended he =>
    have hlt := (List.getElem?_eq_some_iff.mp hended).1
    exact Checks.bind_eq_error.mpr
      (Or.inr ⟨(),forM_range_eq_ok.mpr hacq,forM_range_eq_error (hlen ▸ hlt) hjoined.1 he⟩)
  | all hlen hacq hjoined =>
    exact Checks.check_bind_eq_ok.mpr ⟨forM_range_eq_ok.mpr hacq,forM_range_eq_ok.mpr hjoined.1⟩

/-- However the threads run, the main routine returns what asking one after
the other returns. -/
theorem result_of_reaches {s : Crew ε} {r : Except ε Unit} (h : Reaches f start s)
    (hr : s.main=.returned r) : r=f.result := by
  have hseen := seen_of_reaches h
  rw [hr] at hseen
  exact hseen.eq_result

end Result

section Quiet

variable {f : Fates ε}

/-- Threads that have all been joined are not running. -/
theorem Joined.not_running {threads : List Phase} (h : Joined f threads threads.length) :
    .running∉threads := by
  intro hm
  obtain ⟨i,hi⟩ := List.mem_iff_getElem?.mp hm
  have hended := h.2 i (List.getElem?_eq_some_iff.mp hi).1
  rw [hi] at hended
  cases hended

/-- Under these fates nothing runs behind the return. -/
theorem Returned.not_running {threads : List Phase} {r : Except ε Unit}
    (h : Returned f threads r) (ha : f.Awaited) : .running∉threads := by
  cases h with
  | refused hlt hacq he =>
    rcases ha with ⟨_,e,hfirst⟩|⟨hall,_⟩
    · cases threads with
      | nil => exact List.not_mem_nil
      | cons phase rest =>
        have hok := hacq 0 (Nat.succ_pos _)
        rw [hfirst] at hok
        cases hok
    · rw [hall _ hlt] at he
      cases he
  | @failed i e hlen hacq hjoined hended he =>
    have hlt := (List.getElem?_eq_some_iff.mp hended).1
    rcases ha with ⟨hpos,_,hfirst⟩|⟨_,hsucc⟩
    · rw [hacq 0 hpos] at hfirst
      cases hfirst
    · have hlast : ¬i<f.count-1 := by
        intro hi
        rw [hsucc i hi] at he
        cases he
      have hi : i+1=threads.length := by omega
      intro hm
      obtain ⟨j,hj⟩ := List.mem_iff_getElem?.mp hm
      have hphase : threads[j]?=some .ended :=
        forall_lt_succ hjoined.2 hended j (hi ▸ (List.getElem?_eq_some_iff.mp hj).1)
      rw [hj] at hphase
      cases hphase
  | all hlen _ hjoined => exact Joined.not_running (f:=f) (hlen ▸ hjoined)

/-- The main routine acquires and spawns what it can. -/
theorem reaches_spawned {n : ℕ} (hn : n ≤ f.count) (hacq : f.Acquired n) :
    Reaches f start ⟨List.replicate n Phase.running,.acquiring⟩ := by
  induction n with
  | zero => exact .refl
  | succ n ih =>
    have hstep : Step f ⟨List.replicate n Phase.running,.acquiring⟩ .main
        ⟨List.replicate n Phase.running++[Phase.running],.acquiring⟩ :=
      .spawn (by rwa [List.length_replicate])
        (by rw [List.length_replicate]; exact hacq n (Nat.lt_succ_self n))
    rw [← List.replicate_succ'] at hstep
    exact (ih (Nat.le_of_succ_le hn) fun i hi => hacq i (Nat.lt_succ_of_lt hi)).tail
      ⟨.main,trivial,hstep⟩

/-- The first threads of a crew end. -/
theorem reaches_ended (main : Main ε) (n m : ℕ) :
    Reaches f ⟨List.replicate (n+m) Phase.running,main⟩
      ⟨List.replicate n Phase.ended++List.replicate m Phase.running,main⟩ := by
  induction n generalizing m with
  | zero =>
    rw [Nat.zero_add]
    exact .refl
  | succ n ih =>
    have hfirst := ih (m+1)
    rw [← Nat.add_assoc,Nat.add_right_comm] at hfirst
    have hstep : Step f
        ⟨List.replicate n Phase.ended++List.replicate (m+1) Phase.running,main⟩ (.thread n)
        ⟨(List.replicate n Phase.ended++List.replicate (m+1) Phase.running).set n .ended,main⟩ := by
      refine .finish ?_
      rw [List.getElem?_append_right (by rw [List.length_replicate]),List.length_replicate,
        Nat.sub_self,List.replicate_succ,List.getElem?_cons_zero]
    have hset : (List.replicate n Phase.ended++List.replicate (m+1) Phase.running).set n .ended=
        List.replicate (n+1) Phase.ended++List.replicate m Phase.running := by
      rw [List.set_append_right _ _ (by rw [List.length_replicate]),List.length_replicate,
        Nat.sub_self,List.replicate_succ,List.set_cons_zero,List.replicate_succ',
        List.append_assoc,List.singleton_append]
    rw [hset] at hstep
    exact hfirst.tail ⟨.thread n,trivial,hstep⟩

/-- The main routine joins threads that have ended and returned. -/
theorem reaches_joined {threads : List Phase} {n : ℕ} (h : Joined f threads n) :
    Reaches f ⟨threads,.joining 0⟩ ⟨threads,.joining n⟩ := by
  induction n with
  | zero => exact .refl
  | succ n ih =>
    have hfirst := ih ⟨fun i hi => h.1 i (Nat.lt_succ_of_lt hi),
      fun i hi => h.2 i (Nat.lt_succ_of_lt hi)⟩
    exact hfirst.tail ⟨.main,trivial,
      .join (h.2 n (Nat.lt_succ_self n)) (h.1 n (Nat.lt_succ_self n))⟩

/-- A fate that is not good has a first one among its kind. -/
theorem exists_first_error {g : ℕ → Except ε Unit} {n : ℕ} (h : ¬∀ i<n,g i=.ok ()) :
    ∃ j<n,∃ e,g j=.error e ∧ ∀ i<j,g i=.ok () := by
  induction n with
  | zero => exact (h nofun).elim
  | succ n ih =>
    by_cases hn : ∀ i<n,g i=.ok ()
    · have hlast : g n≠.ok () := fun hok => h (forall_lt_succ hn hok)
      obtain ⟨e,he⟩ := Checks.exists_error_of_unit hlast
      exact ⟨n,Nat.lt_succ_self n,e,he,hn⟩
    · obtain ⟨j,hj,e,he,hok⟩ := ih hn
      exact ⟨j,Nat.lt_succ_of_lt hj,e,he,hok⟩

/-- A task that is not acquired leaves the threads before it running. -/
theorem not_quiet_of_refused {j : ℕ} {e : ε} (hj : j<f.count) (hacq : f.Acquired j)
    (he : f.acquired j=.error e) (hpos : 0<j) : ¬Quiet f := by
  intro hq
  have hreach := reaches_spawned hj.le hacq
  have hstep : Step f ⟨List.replicate j Phase.running,.acquiring⟩ .main
      ⟨List.replicate j Phase.running,.returned (.error e)⟩ :=
    .refuse (by rwa [List.length_replicate]) (by rwa [List.length_replicate])
  refine hq _ _ (hreach.tail ⟨.main,trivial,hstep⟩) rfl ?_
  exact List.mem_replicate.mpr ⟨hpos.ne',rfl⟩

/-- A thread that fails leaves the threads behind it running. -/
theorem not_quiet_of_failed {j : ℕ} {e : ε} (hj : j+1<f.count) (hacq : f.Acquired f.count)
    (hsucc : f.Succeeded j) (he : f.ended j=.error e) : ¬Quiet f := by
  intro hq
  obtain ⟨m,hm⟩ := Nat.exists_eq_add_of_lt hj
  have hcount : f.count=(j+1)+(m+1) := by omega
  have hspawned := reaches_spawned le_rfl hacq
  have hstart : Step f ⟨List.replicate f.count Phase.running,.acquiring⟩ .main
      ⟨List.replicate f.count Phase.running,.joining 0⟩ := .spawned List.length_replicate
  have hended := reaches_ended (f:=f) (.joining 0) (j+1) (m+1)
  rw [← hcount] at hended
  have hget : ∀ i<j+1,(List.replicate (j+1) Phase.ended++List.replicate (m+1) Phase.running)[i]?=
      some .ended := by
    intro i hi
    rw [List.getElem?_append_left (by rwa [List.length_replicate]),List.getElem?_replicate,if_pos hi]
  have hjoined := reaches_joined (f:=f) ⟨hsucc,fun i hi => hget i (Nat.lt_succ_of_lt hi)⟩
  have hfail : Step f
      ⟨List.replicate (j+1) Phase.ended++List.replicate (m+1) Phase.running,.joining j⟩ .main
      ⟨List.replicate (j+1) Phase.ended++List.replicate (m+1) Phase.running,.returned (.error e)⟩ :=
    .fail (hget j (Nat.lt_succ_self j)) he
  have hreach := (((hspawned.tail ⟨.main,trivial,hstart⟩).trans hended).trans hjoined).tail
    ⟨.main,trivial,hfail⟩
  refine hq _ _ hreach rfl (List.mem_append_right _ ?_)
  exact List.mem_replicate.mpr ⟨Nat.succ_ne_zero m,rfl⟩

/-- Nothing runs behind the return of the main routine, in whatever order the
threads run, exactly when no failure makes it leave a thread behind. -/
theorem quiet_iff : Quiet f ↔ f.Awaited := by
  constructor
  · intro hq
    by_cases hacq : f.Acquired f.count
    · refine Or.inr ⟨hacq,?_⟩
      by_contra hfail
      obtain ⟨j,hj,e,he,hok⟩ := exists_first_error hfail
      exact not_quiet_of_failed (by omega) hacq hok he hq
    · obtain ⟨j,hj,e,he,hok⟩ := exists_first_error hacq
      cases j with
      | zero => exact Or.inl ⟨hj,e,he⟩
      | succ j => exact (not_quiet_of_refused hj hok he (Nat.succ_pos j) hq).elim
  · intro ha s r hreach hr
    have hseen := seen_of_reaches hreach
    rw [hr] at hseen
    exact Returned.not_running hseen ha

end Quiet

section Progress

variable {f : Fates ε} {s t : Crew ε} {e : Event}

/-- Steps that the main routine still has to take at most, with the end of
each thread that it still has to spawn. -/
def Main.weight (f : Fates ε) (spawned : ℕ) : Main ε → ℕ
  | .acquiring => 2*(f.count-spawned)+f.count+2
  | .joining i => f.count-i+1
  | .returned _ => 0

/-- Steps that a crew still has to take at most. -/
def Crew.work (f : Fates ε) (s : Crew ε) : ℕ :=
  s.threads.count .running+s.main.weight f s.threads.length

/-- One thread fewer is running when one has ended. -/
theorem count_running_set {threads : List Phase} {i : ℕ} (hi : threads[i]?=some .running) :
    (threads.set i .ended).count .running<threads.count .running := by
  obtain ⟨hlt,hget⟩ := List.getElem?_eq_some_iff.mp hi
  have hpos := List.count_pos_iff.mpr (List.mem_of_getElem? hi)
  have hset := List.count_set (a:=Phase.ended) (b:=.running) hlt
  simp only [hget,beq_self_eq_true,if_true,beq_iff_eq,reduceCtorEq,if_false] at hset
  omega

/-- Every step of a run is one step less to take. -/
theorem work_lt (h : Seen f s.threads s.main) (hstep : Step f s e t) : t.work f<s.work f := by
  cases hstep with
  | spawn hlt _ =>
    simp only [Crew.work,Main.weight,List.length_append,List.length_singleton,List.count_append,
      List.count_singleton_self]
    omega
  | refuse hlt _ =>
    simp only [Crew.work,Main.weight]
    omega
  | spawned hlen =>
    simp only [Crew.work,Main.weight]
    omega
  | finish hi =>
    have hcount := count_running_set hi
    simp only [Crew.work,List.length_set]
    omega
  | @join threads i hended _ =>
    have hlt := (List.getElem?_eq_some_iff.mp hended).1
    have hlen : threads.length=f.count := h.1
    simp only [Crew.work,Main.weight]
    omega
  | fail _ _ =>
    simp only [Crew.work,Main.weight]
    omega
  | collect _ =>
    simp only [Crew.work,Main.weight]
    omega

/-- A main routine that has not returned is never left waiting for ever. -/
theorem exists_step (h : Seen f s.threads s.main) :
    (∃ r,s.main=.returned r) ∨ ∃ e t,Step f s e t := by
  obtain ⟨threads,main⟩ := s
  cases main with
  | acquiring =>
    right
    rcases h.1.lt_or_eq with hlt|hlen
    · cases ha : f.acquired threads.length with
      | ok u => exact ⟨_,_,.spawn hlt ha⟩
      | error e => exact ⟨_,_,.refuse hlt ha⟩
    · exact ⟨_,_,.spawned hlen⟩
  | joining i =>
    right
    cases hi : threads[i]? with
    | none =>
      have hle := List.getElem?_eq_none_iff.mp hi
      have hi : i=threads.length := le_antisymm (h.1 ▸ h.2.2.1) hle
      exact ⟨_,_,.collect hi⟩
    | some phase =>
      cases phase with
      | running => exact ⟨_,_,.finish hi⟩
      | ended =>
        cases he : f.ended i with
        | ok u => exact ⟨_,_,.join hi he⟩
        | error e => exact ⟨_,_,.fail hi he⟩
  | returned r => exact Or.inl ⟨r,rfl⟩

/-- Every run leads on to the return of the main routine. -/
theorem exists_returned (h : Reaches f start s) : ∃ t r,Reaches f s t ∧ t.main=.returned r := by
  induction hw : s.work f using Nat.strong_induction_on generalizing s with
  | _ w ih =>
    have hseen := seen_of_reaches h
    rcases exists_step hseen with ⟨r,hr⟩|⟨e,t,hstep⟩
    · exact ⟨s,r,.refl,hr⟩
    · have hmove : Transition.Moves (Step f) (fun _ _ => True) s t := ⟨e,trivial,hstep⟩
      obtain ⟨u,r,hreach,hr⟩ := ih (t.work f) (hw ▸ work_lt hseen hstep) (h.tail hmove) rfl
      exact ⟨u,r,.head hmove hreach,hr⟩

end Progress

end OpenHost.DetachedThreads
