import OpenHost.Convergence

/-!
# Freshness of the members

Members are stored under their own names, none of them seen at the epoch, and
the policy of a registry was checked when it was made. So the only thing that
can go wrong when the members are classified is an instant before one of them
was seen. Otherwise every member is listed once, in the order of the names,
and its class is decided by its age. As time goes on a member only ages.
-/

namespace OpenHost

/-- The classes in the order in which a member passes through them. -/
def Discovery.State.rank : Discovery.State → ℕ
  | .active => 0
  | .stale => 1
  | .expired => 2

/-- The class of a member of that age in nanoseconds. -/
def FreshnessPolicy.classify (policy : FreshnessPolicy) (age : ℕ) : Discovery.State :=
  if policy.expireAfter.nanos ≤ age then .expired
  else if policy.staleAfter.nanos ≤ age then .stale
  else .active

/-- An older member is not fresher. -/
theorem FreshnessPolicy.rank_classify_le (policy : FreshnessPolicy) {age older : ℕ}
    (h : age ≤ older) : (policy.classify age).rank ≤ (policy.classify older).rank := by
  unfold classify
  by_cases hexpired : policy.expireAfter.nanos ≤ age
  · rw [if_pos hexpired,if_pos (hexpired.trans h)]
  · rw [if_neg hexpired]
    by_cases hstale : policy.staleAfter.nanos ≤ age
    · rw [if_pos hstale,if_pos (hstale.trans h)]
      split
      · exact Nat.le_succ 1
      · exact le_rfl
    · rw [if_neg hstale]
      exact Nat.zero_le _

/-- Nanoseconds since a member was seen. -/
def Member.age {F : Type} (member : Member F) (now : SystemTime) : ℕ :=
  (now.nanos-member.lastSeen.nanos).toNat

/-- Under a checked policy a member that was not seen at the epoch is
classified by its age, from the instant on at which it was seen. -/
theorem Member.stateAt_eq {F : Type} {member : Member F} (hseen : member.lastSeen≠.unixEpoch)
    {policy : FreshnessPolicy} (hpolicy : policy.validate=.ok ()) (now : SystemTime) :
    member.stateAt now policy=
      if member.lastSeen ≤ now then .ok (policy.classify (member.age now))
      else .error .invalidTimestamp := by
  unfold stateAt
  rw [hpolicy]
  dsimp only [bind,Except.bind]
  by_cases hle : member.lastSeen ≤ now
  · have hneither : ¬(member.lastSeen=.unixEpoch ∨ now < member.lastSeen) := by
      rw [not_or,not_lt]
      exact ⟨hseen,hle⟩
    rw [rejectIf,if_neg hneither,if_pos hle,SystemTime.durationSince,if_pos hle]
    dsimp only
    unfold FreshnessPolicy.classify age
    simp only [Duration.le_iff]
    split
    · rfl
    · split <;> rfl
  · rw [rejectIf,if_pos (.inr (not_le.mp hle)),if_neg hle]

namespace MemoryRegistry

variable {F : Type}

/-- A call that changes the registry. -/
inductive Call (F : Type) where
  /-- Accept an advertisement. -/
  | upsert (ad : Advertisement F) (receivedAt : SystemTime)
  /-- Forget a member. -/
  | remove (id : Identity)

/-- What the registry needs of its members to classify them. -/
def Filed (r : MemoryRegistry F) : Prop :=
  ∀ (name : String) (member : Member F),r.members[name]?=some member →
    member.advertisement.participant.id=name ∧ member.lastSeen≠.unixEpoch

/-- The same member, in the same class or a later one. -/
def Ages (x y : Member F×Discovery.State) : Prop := x.1=y.1 ∧ x.2.rank ≤ y.2.rank

section Calls

variable [Cores F] [UuidCrate]

/-- The registry behind a call, which may have failed. -/
def perform (r : MemoryRegistry F) : Call F → MemoryRegistry F
  | .upsert ad receivedAt =>
    match r.upsert ad receivedAt with
    | .ok after => after
    | .error _ => r
  | .remove id =>
    match r.remove id with
    | .ok after => after
    | .error _ => r

/-- The registry behind any calls. -/
def performAll (r : MemoryRegistry F) (calls : List (Call F)) : MemoryRegistry F :=
  calls.foldl perform r

/-- Calls on a new registry under this policy lead to the registry. -/
def Reachable (policy : FreshnessPolicy) (r : MemoryRegistry F) : Prop :=
  ∃ start calls,MemoryRegistry.new policy=.ok start ∧ r=start.performAll calls

/-- A call leaves the registry alone, stores a member that was seen after the
epoch under its own name, or forgets a name. -/
theorem perform_cases (r : MemoryRegistry F) (call : Call F) :
    r.perform call=r ∨
    (∃ ad receivedAt,receivedAt≠.unixEpoch ∧ r.perform call=
      {r with members := r.members.insert ad.participant.id ⟨ad,receivedAt⟩}) ∨
    ∃ id : Identity,r.perform call={r with members := r.members.erase id.id} := by
  cases call with
  | upsert ad receivedAt =>
    dsimp only [perform]
    cases h : r.upsert ad receivedAt with
    | error e => exact .inl rfl
    | ok after =>
      rw [upsert,Checks.check_bind_eq_ok,Checks.check_bind_eq_ok,Checks.check_bind_eq_ok,
        Checks.rejectIf_eq_ok,not_or,Except.ok.injEq] at h
      exact .inr (.inl ⟨ad,receivedAt,h.2.1.2,h.2.2.2.symm⟩)
  | remove id =>
    dsimp only [perform]
    cases h : r.remove id with
    | error e => exact .inl rfl
    | ok after =>
      rw [remove,Checks.check_bind_eq_ok,Checks.check_bind_eq_ok,Except.ok.injEq] at h
      exact .inr (.inr ⟨id,h.2.2.symm⟩)

/-- Every call keeps the members filed. -/
theorem Filed.perform {r : MemoryRegistry F} (h : r.Filed) (call : Call F) :
    (r.perform call).Filed := by
  intro name member hm
  rcases perform_cases r call with he|⟨ad,receivedAt,hseen,he⟩|⟨id,he⟩
  · rw [he] at hm
    exact h name member hm
  · rw [he,OrderedMap.getElem?_insert_eq_some] at hm
    rcases hm with ⟨hname,rfl⟩|⟨_,hm⟩
    · exact ⟨hname,hseen⟩
    · exact h name member hm
  · rw [he,OrderedMap.getElem?_erase_eq_some] at hm
    exact h name member hm.2

/-- No call changes the policy. -/
theorem perform_policy (r : MemoryRegistry F) (call : Call F) :
    (r.perform call).policy=r.policy := by
  rcases perform_cases r call with he|⟨_,_,_,he⟩|⟨_,he⟩ <;> rw [he]

/-- Calls keep the members filed and the policy. -/
theorem filed_performAll {r : MemoryRegistry F} (h : r.Filed) (calls : List (Call F)) :
    (r.performAll calls).Filed ∧ (r.performAll calls).policy=r.policy := by
  induction calls generalizing r with
  | nil => exact ⟨h,rfl⟩
  | cons call rest ih =>
    have hrest := ih (h.perform call)
    rw [perform_policy] at hrest
    exact hrest

/-- What calls lead to has its members filed, and the policy it was made with. -/
theorem Reachable.filed {policy : FreshnessPolicy} {r : MemoryRegistry F}
    (h : Reachable policy r) : r.Filed ∧ r.policy=policy := by
  obtain ⟨start,calls,hnew,rfl⟩ := h
  rw [MemoryRegistry.new] at hnew
  split at hnew
  · rw [Except.ok.injEq] at hnew
    subst hnew
    exact filed_performAll (fun name member hm => by simp at hm) calls
  · cases hnew

end Calls

section Lists

/-- The members are those that are stored. -/
theorem mem_allMembers {r : MemoryRegistry F} {member : Member F} :
    member ∈ r.allMembers ↔ ∃ name : String,r.members[name]?=some member := by
  rw [allMembers,List.mem_map]
  constructor
  · rintro ⟨entry,he,rfl⟩
    exact ⟨entry.1,Std.ExtTreeMap.mem_toList_iff_getElem?_eq_some.mp he⟩
  · rintro ⟨name,h⟩
    exact ⟨(name,member),Std.ExtTreeMap.mem_toList_iff_getElem?_eq_some.mpr h,rfl⟩

/-- Filed members are listed in the strict order of their names. -/
theorem Filed.allMembers_increasing {r : MemoryRegistry F} (h : r.Filed) :
    (r.allMembers.map nameOf).Pairwise (·<·) := by
  have hnames : r.allMembers.map nameOf=r.members.toList.map Prod.fst := by
    rw [allMembers,List.map_map]
    refine List.map_congr_left fun entry he => ?_
    exact (h entry.1 entry.2 (Std.ExtTreeMap.mem_toList_iff_getElem?_eq_some.mp he)).1
  rw [hnames]
  exact OrderedMap.keys_increasing r.members

/-- Filed members are all classified by their ages, or the instant is before
one of them was seen. -/
theorem Filed.membersAt_eq {r : MemoryRegistry F} (h : r.Filed) (now : SystemTime) :
    r.membersAt now=
      if ∀ member ∈ r.allMembers,member.lastSeen ≤ now then
        .ok (r.allMembers.map fun member => (member,r.policy.classify (member.age now)))
      else .error .invalidTimestamp := by
  refine Checks.mapM_eq_ite fun member hm => ?_
  obtain ⟨name,hstored⟩ := mem_allMembers.mp hm
  rw [Member.stateAt_eq (h name member hstored).2 r.policyValid now]
  by_cases hle : member.lastSeen ≤ now
  · rw [if_pos hle,if_pos hle]
    rfl
  · rw [if_neg hle,if_neg hle]
    rfl

/-- An instant at which one listing succeeds is one that is not before any
member was seen. -/
theorem Filed.membersAt_eq_ok {r : MemoryRegistry F} (h : r.Filed) {now : SystemTime}
    {listed : List (Member F×Discovery.State)} :
    r.membersAt now=.ok listed ↔ (∀ member ∈ r.allMembers,member.lastSeen ≤ now) ∧
      listed=r.allMembers.map fun member => (member,r.policy.classify (member.age now)) := by
  rw [h.membersAt_eq]
  by_cases hall : ∀ member ∈ r.allMembers,member.lastSeen ≤ now
  · rw [if_pos hall,Except.ok.injEq,eq_comm,and_iff_right hall]
  · rw [if_neg hall]
    exact iff_of_false nofun fun hn => hall hn.1

end Lists

section Ages

variable [Cores F] [UuidCrate]

/-- After any calls on a new registry the members are listed exactly when none
of them was seen after the instant, and nothing but such an instant can fail.
The list has every stored member once, in the strict order of the names, with
the class of its age; and at a later instant it has the same members, none of
them fresher. -/
theorem membersAt_ages {policy : FreshnessPolicy} {r : MemoryRegistry F}
    (h : Reachable policy r) :
    (∀ now,((∃ listed,r.membersAt now=.ok listed) ↔
        ∀ (name : String) (member : Member F),r.members[name]?=some member →
          member.lastSeen ≤ now) ∧
      ∀ e,r.membersAt now=.error e → e=.invalidTimestamp) ∧
    (∀ now listed,r.membersAt now=.ok listed →
      (listed.map fun entry => entry.1.advertisement.participant.id).Pairwise (·<·) ∧
      (∀ member,member ∈ listed.map Prod.fst ↔ ∃ name : String,r.members[name]?=some member) ∧
      ∀ entry ∈ listed,entry.2=policy.classify (entry.1.age now)) ∧
    ∀ now later listed,now ≤ later → r.membersAt now=.ok listed →
      ∃ aged,r.membersAt later=.ok aged ∧ List.Forall₂ Ages listed aged := by
  obtain ⟨hfiled,hpolicy⟩ := h.filed
  have hstored (now : SystemTime) : (∀ member ∈ r.allMembers,member.lastSeen ≤ now) ↔
      ∀ (name : String) (member : Member F),r.members[name]?=some member →
        member.lastSeen ≤ now := by
    simp only [mem_allMembers,forall_exists_index]
    exact forall_comm
  refine ⟨fun now => ⟨?_,fun e he => ?_⟩,fun now listed hl => ?_,fun now later listed hle hl => ?_⟩
  · simp only [hfiled.membersAt_eq_ok,← hstored,exists_and_left,exists_eq,and_true]
  · rw [hfiled.membersAt_eq] at he
    split at he
    · cases he
    · exact (Except.error.inj he).symm
  · obtain ⟨_,rfl⟩ := hfiled.membersAt_eq_ok.mp hl
    simp only [List.map_map,Function.comp_def,List.map_id']
    refine ⟨hfiled.allMembers_increasing,fun member => mem_allMembers,?_⟩
    intro entry he
    obtain ⟨member,_,rfl⟩ := List.mem_map.mp he
    rw [hpolicy]
  · obtain ⟨hall,rfl⟩ := hfiled.membersAt_eq_ok.mp hl
    refine ⟨_,hfiled.membersAt_eq_ok.mpr ⟨fun member hm => (hall member hm).trans hle,rfl⟩,?_⟩
    rw [List.forall₂_map_left_iff,List.forall₂_map_right_iff,List.forall₂_same]
    intro member _
    have hage : member.age now ≤ member.age later :=
      Int.toNat_le_toNat (Int.sub_le_sub_right hle _)
    exact ⟨rfl,r.policy.rank_classify_le hage⟩

end Ages

section Sample

/-- Three arrivals and the removal of a participant that is not there. -/
def fourCalls : List (Call ℚ) :=
  (threeArrivals.map fun arrival => .upsert arrival.1 arrival.2)++
    [.remove ⟨"22222222-2222-4222-8222-222222222222",.participant⟩]

/-- The second arrival is listed as active when it arrives; no instant before
lists it, and it has not become fresher a nanosecond later. -/
theorem membersAt_ages_twoCores : letI := hyphenatedUuid
    (¬∃ listed,(freshRegistry.performAll fourCalls).membersAt earlyInstant=.ok listed) ∧
    ∃ aged,(freshRegistry.performAll fourCalls).membersAt ⟨2001,by decide⟩=.ok aged ∧
      List.Forall₂ Ages [(⟨twoCoresSeen 2 earlyInstant,lateInstant⟩,.active)] aged := by
  let := hyphenatedUuid
  have hreach : Reachable freshRegistry.policy (freshRegistry.performAll fourCalls) := by
    refine ⟨freshRegistry,fourCalls,?_,rfl⟩
    rw [MemoryRegistry.new,dif_pos freshRegistry.policyValid]
    rfl
  have h := membersAt_ages hreach
  have hlisted : (freshRegistry.performAll fourCalls).membersAt lateInstant=
      .ok [(⟨twoCoresSeen 2 earlyInstant,lateInstant⟩,.active)] := by
    decide +kernel
  refine ⟨fun hl => ?_,h.2.2 lateInstant ⟨2001,by decide⟩ _ (by decide) hlisted⟩
  obtain ⟨name,hstored⟩ := ((h.2.1 lateInstant _ hlisted).2.1 _).mp List.mem_cons_self
  exact absurd ((h.1 earlyInstant).1.mp hl name _ hstored) (by decide)

end Sample

end MemoryRegistry

end OpenHost
