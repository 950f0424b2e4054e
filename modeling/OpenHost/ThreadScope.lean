import OpenHost.Transition

/-!
# A scope of threads that are spawned and joined in order

A main routine spawns a fixed number of threads, joins them in the order in
which they were spawned, and collects what they returned. The first thread
that has panicked ends the collecting; the threads behind it are not joined
by the routine but awaited at the end of the scope, and if one of them has
panicked too, nobody has taken its panic and the scope passes it on. The
threads run in any order. However they do, every run ends, each thread has
run once, and how they ended decides the result.
-/

namespace OpenHost.ThreadScope

/-- How a thread ends. -/
inductive Ended (α : Type) where
  /-- The thread returned a value. -/
  | returned (value : α)
  /-- The thread unwound. -/
  | panicked
  deriving DecidableEq

/-- The thread unwound. -/
def Ended.isPanicked {α : Type} : Ended α → Bool
  | .returned _ => false
  | .panicked => true

/-- How a thread stands. -/
inductive Phase where
  /-- Not spawned yet. -/
  | unborn
  /-- Spawned and not running yet. -/
  | ready
  /-- Running its routine. -/
  | running
  /-- Ended. -/
  | ended
  deriving DecidableEq

/-- How the scope ends. -/
inductive Joined (α : Type) where
  /-- Every thread was joined and has returned. -/
  | values (values : List α)
  /-- A thread that was joined had panicked. -/
  | refused
  /-- A thread that nobody joined had panicked. -/
  | panicked
  deriving DecidableEq

/-- How the main routine stands. -/
inductive Main (α : Type) where
  /-- The first threads are spawned. -/
  | spawning (spawned : ℕ)
  /-- The first threads were joined and have returned these values. -/
  | joining (taken : List α)
  /-- The thread behind these values was joined and had panicked. -/
  | leaving (taken : List α)
  /-- The scope has ended. -/
  | finished (result : Joined α)
  deriving DecidableEq

/-- A scope of threads. -/
structure Scope (α : Type) where
  /-- The threads in the order in which they are spawned. -/
  threads : List Phase
  /-- The threads whose routine has begun, in the order in which it did. -/
  begun : List ℕ
  /-- The main routine. -/
  main : Main α

/-- What moves next. -/
inductive Event where
  /-- The main routine. -/
  | main
  /-- One of the threads. -/
  | thread (i : ℕ)

variable {α : Type}

/-- No thread is spawned yet. -/
def start (n : ℕ) : Scope α := ⟨List.replicate n .unborn,[],.spawning 0⟩

/-- Join the threads in order and leave at the first that has panicked. -/
def joinAll : List (Ended α) → Joined α
  | [] => .values []
  | .returned value::rest =>
    match joinAll rest with
    | .values values => .values (value::values)
    | .refused => .refused
    | .panicked => .panicked
  | .panicked::rest => if rest.any Ended.isPanicked then .panicked else .refused

/-- The result of a scope whose threads end in this way. -/
def result (ending : ℕ → Ended α) (n : ℕ) : Joined α := joinAll ((List.range n).map ending)

/-- One step of a scope whose threads end in this way. -/
inductive Step (ending : ℕ → Ended α) : Scope α → Event → Scope α → Prop where
  | spawn {threads begun k} : k<threads.length →
    Step ending ⟨threads,begun,.spawning k⟩ .main ⟨threads.set k .ready,begun,.spawning (k+1)⟩
  | spawned {threads begun} : Step ending ⟨threads,begun,.spawning threads.length⟩ .main
    ⟨threads,begun,.joining []⟩
  | run {threads begun main i} : threads[i]?=some .ready →
    Step ending ⟨threads,begun,main⟩ (.thread i) ⟨threads.set i .running,begun++[i],main⟩
  | finish {threads begun main i} : threads[i]?=some .running →
    Step ending ⟨threads,begun,main⟩ (.thread i) ⟨threads.set i .ended,begun,main⟩
  | join {threads begun taken value} : threads[taken.length]?=some .ended →
    ending taken.length=.returned value →
    Step ending ⟨threads,begun,.joining taken⟩ .main ⟨threads,begun,.joining (taken++[value])⟩
  | refuse {threads begun taken} : threads[taken.length]?=some .ended →
    ending taken.length=.panicked →
    Step ending ⟨threads,begun,.joining taken⟩ .main ⟨threads,begun,.leaving taken⟩
  | collect {threads begun taken} : taken.length=threads.length →
    Step ending ⟨threads,begun,.joining taken⟩ .main ⟨threads,begun,.finished (.values taken)⟩
  | close {threads begun taken} : (∀ phase ∈ threads,phase=.ended) →
    Step ending ⟨threads,begun,.leaving taken⟩ .main ⟨threads,begun,.finished
      (if ((List.range threads.length).drop (taken.length+1)).any (fun i => (ending i).isPanicked)
        then .panicked else .refused)⟩

/-- Any number of steps. -/
abbrev Reaches (ending : ℕ → Ended α) : Scope α → Scope α → Prop :=
  Transition.Reaches (Step ending) fun _ _ => True

section Joining

/-- Threads that have returned are joined to their values. -/
theorem joinAll_returned (values : List α) (rest : List (Ended α)) :
    joinAll (values.map .returned++rest)=
      match joinAll rest with
      | .values others => .values (values++others)
      | .refused => .refused
      | .panicked => .panicked := by
  induction values with
  | nil => cases h : joinAll rest <;> simp [h]
  | cons value values ih =>
    rw [List.map_cons,List.cons_append,joinAll,ih]
    cases joinAll rest <;> rfl

/-- How the number of threads that panicked decides the result. -/
theorem joinAll_cases (endings : List (Ended α)) :
    endings.countP Ended.isPanicked=0 ∧ (∃ values,joinAll endings=.values values ∧
      endings=values.map .returned) ∨
    endings.countP Ended.isPanicked=1 ∧ joinAll endings=.refused ∨
    2 ≤ endings.countP Ended.isPanicked ∧ joinAll endings=.panicked := by
  induction endings with
  | nil => exact Or.inl ⟨rfl,[],rfl,rfl⟩
  | cons e rest ih =>
    cases e with
    | returned value =>
      have hcount : (Ended.returned value::rest).countP Ended.isPanicked=
          rest.countP Ended.isPanicked := List.countP_cons_of_neg (by simp [Ended.isPanicked])
      rw [hcount]
      rcases ih with ⟨hc,values,hj,hv⟩|⟨hc,hj⟩|⟨hc,hj⟩
      · exact Or.inl ⟨hc,value::values,by rw [joinAll,hj],by rw [hv,List.map_cons]⟩
      · exact Or.inr (Or.inl ⟨hc,by rw [joinAll,hj]⟩)
      · exact Or.inr (Or.inr ⟨hc,by rw [joinAll,hj]⟩)
    | panicked =>
      have hcount : (Ended.panicked::rest).countP Ended.isPanicked=
          rest.countP Ended.isPanicked+1 := List.countP_cons_of_pos rfl
      have hany : rest.any Ended.isPanicked=true ↔ 0<rest.countP Ended.isPanicked := by
        rw [List.any_eq_true,List.countP_pos_iff]
      rw [hcount,joinAll]
      by_cases h : rest.any Ended.isPanicked=true
      · rw [if_pos h]
        exact Or.inr (Or.inr ⟨Nat.succ_le_succ (hany.mp h),rfl⟩)
      · rw [if_neg h]
        have hzero : rest.countP Ended.isPanicked=0 := by
          have hn := mt hany.mpr h
          omega
        exact Or.inr (Or.inl ⟨by rw [hzero],rfl⟩)

end Joining

section Invariant

/-- The values taken are those that the first threads returned. -/
structure Taken (ending : ℕ → Ended α) (threads : List Phase) (taken : List α) : Prop where
  /-- The first threads returned these values. -/
  values : (List.range taken.length).map ending=taken.map .returned
  /-- The first threads have ended. -/
  ended : ∀ i<taken.length,threads[i]?=some .ended

/-- What the main routine has seen of the threads. -/
def Seen (ending : ℕ → Ended α) (threads : List Phase) : Main α → Prop
  | .spawning k => k ≤ threads.length ∧
      ∀ i<threads.length,threads[i]?=some Phase.unborn ↔ k ≤ i
  | .joining taken => .unborn∉threads ∧ Taken ending threads taken
  | .leaving taken => .unborn∉threads ∧ Taken ending threads taken ∧
      threads[taken.length]?=some .ended ∧ ending taken.length=.panicked
  | .finished r => (∀ phase ∈ threads,phase=.ended) ∧ r=result ending threads.length

/-- What holds along every run of a scope of `n` threads. -/
structure Inv (ending : ℕ → Ended α) (n : ℕ) (s : Scope α) : Prop where
  /-- The number of threads does not change. -/
  size : s.threads.length=n
  /-- No thread has begun twice. -/
  once : s.begun.Nodup
  /-- The threads that have begun are those that run or have ended. -/
  begun : ∀ i,i ∈ s.begun ↔ s.threads[i]?=some .running ∨ s.threads[i]?=some .ended
  /-- The main routine has seen the threads as they are. -/
  seen : Seen ending s.threads s.main

/-- Nothing has happened at the start. -/
theorem inv_start (ending : ℕ → Ended α) (n : ℕ) : Inv ending n (start n) where
  size := List.length_replicate
  once := List.nodup_nil
  begun i := by
    have hunborn : ∀ phase,(start (α:=α) n).threads[i]?=some phase → phase=.unborn := fun phase h =>
      List.eq_of_mem_replicate (List.mem_of_getElem? h)
    constructor
    · exact nofun
    · rintro (h|h) <;> cases hunborn _ h
  seen := by
    refine ⟨Nat.zero_le _,fun i hi => ⟨fun _ => Nat.zero_le _,fun _ => ?_⟩⟩
    rw [start,List.length_replicate] at hi
    rw [start,List.getElem?_replicate,if_pos hi]

/-- A thread that moves is the only one that changes. -/
theorem getElem?_set_of_some {threads : List Phase} {i : ℕ} {old : Phase}
    (h : threads[i]?=some old) (phase : Phase) (j : ℕ) :
    (threads.set i phase)[j]?=if i=j then some phase else threads[j]? := by
  obtain ⟨hi,_⟩ := List.getElem?_eq_some_iff.mp h
  rw [List.getElem?_set,if_pos hi]

/-- A thread that begins or ends leaves alone what the main routine has seen. -/
theorem Seen.set {ending : ℕ → Ended α} {threads : List Phase} {main : Main α} {i : ℕ}
    {old phase : Phase} (h : Seen ending threads main) (hi : threads[i]?=some old)
    (hborn : old≠.unborn) (hended : old≠.ended) (hphase : phase≠.unborn) :
    Seen ending (threads.set i phase) main := by
  have hget := getElem?_set_of_some hi phase
  have hspawned : .unborn∉threads → .unborn∉threads.set i phase := by
    intro hn hm
    rcases List.mem_or_eq_of_mem_set hm with hm|he
    · exact hn hm
    · exact hphase he.symm
  have hkeep (j : ℕ) (hj : threads[j]?=some .ended) : (threads.set i phase)[j]?=some .ended := by
    rw [hget,if_neg]
    · exact hj
    · rintro rfl
      rw [hi,Option.some.injEq] at hj
      exact hended hj
  cases main with
  | spawning k =>
    obtain ⟨hle,hunborn⟩ := h
    refine ⟨by rwa [List.length_set],fun j hj => ?_⟩
    rw [List.length_set] at hj
    rw [← hunborn j hj,hget]
    by_cases hij : i=j
    · subst hij
      rw [if_pos rfl,hi,Option.some.injEq,Option.some.injEq]
      exact iff_of_false hphase hborn
    · rw [if_neg hij]
  | joining taken => exact ⟨hspawned h.1,h.2.values,fun j hj => hkeep j (h.2.ended j hj)⟩
  | leaving taken =>
    obtain ⟨hn,htaken,hlast,hpanic⟩ := h
    exact ⟨hspawned hn,⟨htaken.values,fun j hj => hkeep j (htaken.ended j hj)⟩,hkeep _ hlast,hpanic⟩
  | finished r =>
    exact (hended (h.1 old (List.mem_of_getElem? hi))).elim

/-- One more value is taken. -/
theorem Taken.push {ending : ℕ → Ended α} {threads : List Phase} {taken : List α} {value : α}
    (h : Taken ending threads taken) (hended : threads[taken.length]?=some .ended)
    (hvalue : ending taken.length=.returned value) : Taken ending threads (taken++[value]) where
  values := by
    rw [List.length_append,List.length_singleton,List.range_succ,List.map_append,h.values,
      List.map_append,List.map_singleton,hvalue,List.map_singleton]
  ended i hi := by
    rw [List.length_append,List.length_singleton] at hi
    rcases Nat.lt_succ_iff_lt_or_eq.mp hi with hlt|rfl
    · exact h.ended i hlt
    · exact hended

/-- Values taken from all threads are the result. -/
theorem Taken.result {ending : ℕ → Ended α} {threads : List Phase} {taken : List α}
    (h : Taken ending threads taken) :
    ThreadScope.result ending taken.length=.values taken := by
  have hjoin := joinAll_returned taken []
  rw [List.append_nil] at hjoin
  rw [ThreadScope.result,h.values,hjoin,joinAll]
  dsimp only
  rw [List.append_nil]

/-- A panic behind the values taken decides the result, together with the
threads behind it. -/
theorem Taken.result_of_panicked {ending : ℕ → Ended α} {threads : List Phase} {taken : List α}
    (h : Taken ending threads taken) (hlast : taken.length<threads.length)
    (hpanic : ending taken.length=.panicked) :
    ThreadScope.result ending threads.length=
      if ((List.range threads.length).drop (taken.length+1)).any (fun i => (ending i).isPanicked)
        then .panicked else .refused := by
  have hrange : List.range threads.length=
      List.range taken.length++taken.length::(List.range threads.length).drop (taken.length+1) := by
    have hdrop := List.drop_eq_getElem_cons (i:=taken.length) (l:=List.range threads.length)
      (by rwa [List.length_range])
    rw [List.getElem_range] at hdrop
    conv_lhs => rw [← List.take_append_drop taken.length (List.range threads.length)]
    rw [List.take_range,min_eq_left hlast.le,hdrop]
  rw [ThreadScope.result]
  conv_lhs => rw [hrange]
  rw [List.map_append,h.values,joinAll_returned,List.map_cons,hpanic,joinAll,List.any_map]
  dsimp only [Function.comp_def]
  split
  · next he => split at he <;> cases he
  · next he => rw [he]
  · next he => rw [he]

/-- Every step keeps the invariant. -/
theorem inv_step {ending : ℕ → Ended α} {n : ℕ} {s t : Scope α} {e : Event}
    (h : Inv ending n s) (hstep : Step ending s e t) : Inv ending n t := by
  obtain ⟨hsize,honce,hbegun,hseen⟩ := h
  cases hstep with
  | @spawn threads begun k hk =>
    obtain ⟨_,hunborn⟩ := hseen
    have hget := getElem?_set_of_some ((hunborn k hk).mpr le_rfl) .ready
    refine ⟨by rw [List.length_set]; exact hsize,honce,fun i => ?_,?_,fun i hi => ?_⟩
    · rw [hget]
      by_cases hki : k=i
      · subst hki
        have hnot := mt (hbegun k).mp (by rw [(hunborn k hk).mpr le_rfl]; simp)
        exact iff_of_false hnot (by simp)
      · rw [if_neg hki]
        exact hbegun i
    · rw [List.length_set]
      exact hk
    · rw [List.length_set] at hi
      rw [hget]
      by_cases hki : k=i
      · subst hki
        exact iff_of_false (by simp) (by omega)
      · rw [if_neg hki,hunborn i hi]
        omega
  | @spawned threads begun =>
    refine ⟨hsize,honce,hbegun,?_,rfl,nofun⟩
    intro hm
    obtain ⟨i,hi,he⟩ := List.getElem_of_mem hm
    have hle := (hseen.2 i hi).mp (List.getElem?_eq_some_iff.mpr ⟨hi,he⟩)
    exact (Nat.not_le.mpr hi) hle
  | @run threads begun main i hi =>
    have hget := getElem?_set_of_some hi .running
    have hnew : i∉begun := mt (hbegun i).mp (by rw [hi]; simp)
    refine ⟨by rw [List.length_set]; exact hsize,?_,fun j => ?_,
      hseen.set hi nofun nofun nofun⟩
    · exact List.nodup_append.mpr ⟨honce,List.nodup_singleton _,by
        rintro a ha b hb rfl
        rw [List.mem_singleton] at hb
        exact hnew (hb ▸ ha)⟩
    · rw [List.mem_append,List.mem_singleton,hget]
      by_cases hij : i=j
      · subst hij
        simp
      · rw [if_neg hij,or_iff_left (fun he => hij he.symm)]
        exact hbegun j
  | @finish threads begun main i hi =>
    have hget := getElem?_set_of_some hi .ended
    refine ⟨by rw [List.length_set]; exact hsize,honce,fun j => ?_,
      hseen.set hi nofun nofun nofun⟩
    rw [hget]
    by_cases hij : i=j
    · subst hij
      exact iff_of_true ((hbegun i).mpr (Or.inl hi)) (by simp)
    · rw [if_neg hij]
      exact hbegun j
  | @join threads begun taken value hended hvalue =>
    exact ⟨hsize,honce,hbegun,hseen.1,hseen.2.push hended hvalue⟩
  | @refuse threads begun taken hended hpanic =>
    exact ⟨hsize,honce,hbegun,hseen.1,hseen.2,hended,hpanic⟩
  | @collect threads begun taken hall =>
    refine ⟨hsize,honce,hbegun,fun phase hm => ?_,?_⟩
    · obtain ⟨i,hi,rfl⟩ := List.getElem_of_mem hm
      have hend := hseen.2.ended i (hall ▸ hi)
      rw [List.getElem?_eq_getElem hi,Option.some.injEq] at hend
      exact hend
    · rw [← hall,hseen.2.result]
  | @close threads begun taken hall =>
    obtain ⟨_,htaken,hlast,hpanic⟩ := hseen
    obtain ⟨hlt,_⟩ := List.getElem?_eq_some_iff.mp hlast
    exact ⟨hsize,honce,hbegun,hall,(htaken.result_of_panicked hlt hpanic).symm⟩

/-- The invariant holds along every run. -/
theorem inv_of_reaches {ending : ℕ → Ended α} {n : ℕ} {s : Scope α}
    (h : Reaches ending (start n) s) : Inv ending n s :=
  h.invariant (fun _ _ _ hs _ hstep => inv_step hs hstep) (inv_start ending n)

/-- However the threads run, a scope that has ended has run each of them once,
and its result is decided by how they ended. -/
theorem finished_of_reaches {ending : ℕ → Ended α} {n : ℕ} {s : Scope α} {r : Joined α}
    (h : Reaches ending (start n) s) (hr : s.main=.finished r) :
    s.begun.Perm (List.range n) ∧ r=result ending n := by
  obtain ⟨hsize,honce,hbegun,hseen⟩ := inv_of_reaches h
  rw [hr] at hseen
  obtain ⟨hall,hresult⟩ := hseen
  rw [hsize] at hresult
  refine ⟨(List.perm_ext_iff_of_nodup honce List.nodup_range).mpr fun i => ?_,hresult⟩
  rw [hbegun,List.mem_range,← hsize]
  constructor
  · rintro (hi|hi) <;> exact (List.getElem?_eq_some_iff.mp hi).1
  · intro hi
    refine Or.inr (List.getElem?_eq_some_iff.mpr ⟨hi,?_⟩)
    exact hall _ (List.getElem_mem hi)

end Invariant

section Progress

/-- Steps that a thread still has to take. -/
def Phase.weight : Phase → ℕ
  | .unborn => 3
  | .ready => 2
  | .running => 1
  | .ended => 0

/-- Steps that the main routine still has to take at most, apart from
spawning. -/
def Main.weight (n : ℕ) : Main α → ℕ
  | .spawning _ => n+3
  | .joining taken => n-taken.length+2
  | .leaving _ => 1
  | .finished _ => 0

/-- Steps that a scope still has to take at most. -/
def Scope.work (s : Scope α) : ℕ :=
  (s.threads.map Phase.weight).sum+s.main.weight s.threads.length

/-- A thread that moves changes the work by the difference of its phases. -/
theorem sum_weight_set {threads : List Phase} {i : ℕ} {old : Phase} (h : threads[i]?=some old)
    (phase : Phase) : ((threads.set i phase).map Phase.weight).sum+old.weight=
      (threads.map Phase.weight).sum+phase.weight := by
  induction threads generalizing i with
  | nil => cases h
  | cons first rest ih =>
    cases i with
    | zero =>
      rw [List.getElem?_cons_zero,Option.some.injEq] at h
      subst h
      rw [List.set_cons_zero,List.map_cons,List.map_cons,List.sum_cons,List.sum_cons]
      omega
    | succ i =>
      have hrest := ih (i:=i) h
      rw [List.set_cons_succ,List.map_cons,List.map_cons,List.sum_cons,List.sum_cons]
      omega

/-- Every step of a run is one step less to take. -/
theorem work_lt {ending : ℕ → Ended α} {n : ℕ} {s t : Scope α} {e : Event}
    (h : Inv ending n s) (hstep : Step ending s e t) : t.work<s.work := by
  cases hstep with
  | @spawn threads begun k hk =>
    have hsum := sum_weight_set ((h.seen.2 k hk).mpr le_rfl) .ready
    simp only [Phase.weight] at hsum
    simp only [Scope.work,Main.weight,List.length_set]
    omega
  | spawned => simp [Scope.work,Main.weight]
  | run hi =>
    have hsum := sum_weight_set hi .running
    simp only [Phase.weight] at hsum
    simp only [Scope.work,List.length_set]
    omega
  | finish hi =>
    have hsum := sum_weight_set hi .ended
    simp only [Phase.weight] at hsum
    simp only [Scope.work,List.length_set]
    omega
  | join hended _ =>
    obtain ⟨hlt,_⟩ := List.getElem?_eq_some_iff.mp hended
    simp only [Scope.work,Main.weight,List.length_append,List.length_singleton]
    omega
  | refuse _ _ =>
    simp only [Scope.work,Main.weight]
    omega
  | collect _ =>
    simp only [Scope.work,Main.weight]
    omega
  | close _ =>
    simp only [Scope.work,Main.weight]
    omega

/-- A spawned thread that has not ended can move. -/
theorem exists_step_of_thread {ending : ℕ → Ended α} {threads : List Phase} {begun : List ℕ}
    {main : Main α} {i : ℕ} {phase : Phase} (hi : threads[i]?=some phase)
    (hborn : phase≠.unborn) (hended : phase≠.ended) :
    ∃ e t,Step ending ⟨threads,begun,main⟩ e t := by
  cases phase with
  | unborn => exact (hborn rfl).elim
  | ready => exact ⟨_,_,.run hi⟩
  | running => exact ⟨_,_,.finish hi⟩
  | ended => exact (hended rfl).elim

/-- A run is never stuck before the scope has ended. -/
theorem exists_step {ending : ℕ → Ended α} {n : ℕ} {s : Scope α} (h : Inv ending n s) :
    (∃ r,s.main=.finished r) ∨ ∃ e t,Step ending s e t := by
  obtain ⟨threads,begun,main⟩ := s
  have hseen := h.seen
  cases main with
  | spawning k =>
    rcases hseen.1.lt_or_eq with hk|hk
    · exact Or.inr ⟨_,_,.spawn hk⟩
    · rw [hk]
      exact Or.inr ⟨_,_,.spawned⟩
  | joining taken =>
    obtain ⟨hborn,htaken⟩ := hseen
    cases hi : threads[taken.length]? with
    | none =>
      have hle := List.getElem?_eq_none_iff.mp hi
      have hlt : ∀ j<taken.length,j<threads.length := fun j hj =>
        (List.getElem?_eq_some_iff.mp (htaken.ended j hj)).1
      have hlen : taken.length=threads.length := by
        rcases hle.lt_or_eq with hshort|heq
        · exact absurd (hlt _ hshort) (lt_irrefl _)
        · exact heq.symm
      exact Or.inr ⟨_,_,.collect hlen⟩
    | some phase =>
      have hphase : phase≠.unborn := fun he => hborn (he ▸ List.mem_of_getElem? hi)
      by_cases hended : phase=.ended
      · subst hended
        cases hend : ending taken.length with
        | returned value => exact Or.inr ⟨_,_,.join hi hend⟩
        | panicked => exact Or.inr ⟨_,_,.refuse hi hend⟩
      · exact Or.inr (exists_step_of_thread hi hphase hended)
  | leaving taken =>
    obtain ⟨hborn,_⟩ := hseen
    by_cases hall : ∀ phase ∈ threads,phase=.ended
    · exact Or.inr ⟨_,_,.close hall⟩
    · push Not at hall
      obtain ⟨phase,hm,hended⟩ := hall
      obtain ⟨i,hi⟩ := List.mem_iff_getElem?.mp hm
      have hphase : phase≠.unborn := fun he => hborn (he ▸ hm)
      exact Or.inr (exists_step_of_thread hi hphase hended)
  | finished r => exact Or.inl ⟨r,rfl⟩

/-- Every run leads on to the end of the scope. -/
theorem exists_finished {ending : ℕ → Ended α} {n : ℕ} {s : Scope α} (h : Inv ending n s) :
    ∃ t r,Reaches ending s t ∧ t.main=.finished r := by
  induction hw : s.work using Nat.strong_induction_on generalizing s with
  | _ w ih =>
    rcases exists_step h with ⟨r,hr⟩|⟨e,t,hstep⟩
    · exact ⟨s,r,.refl,hr⟩
    · have hlt := work_lt h hstep
      obtain ⟨u,r,hreach,hr⟩ := ih t.work (hw ▸ hlt) (inv_step h hstep) rfl
      exact ⟨u,r,.head ⟨e,trivial,hstep⟩ hreach,hr⟩

end Progress

end OpenHost.ThreadScope
