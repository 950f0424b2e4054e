import OpenHost.Discovery
import OpenHost.Latest

/-!
# Convergence of discovery

Advertisements reach the registry in any order, and the registry keeps the
one of greatest sequence number for each participant. Whoever delivers the
same advertisements ends with the same members, provided no participant
used a sequence number twice.
-/

namespace OpenHost.MemoryRegistry

section Delivery

variable {F : Type} [Cores F] [UuidCrate]

/-- The same call on the shared registry: its answer, and the registry
behind it. -/
def upsertShared (r : MemoryRegistry F) (ad : Advertisement F) (receivedAt : SystemTime) :
    Except DiscoveryError Unit×MemoryRegistry F :=
  match ad.validate with
  | .error e => (.error e,r)
  | .ok () =>
    if receivedAt<ad.observedAt ∨ receivedAt=.unixEpoch then (.error .invalidTimestamp,r)
    else if r.members[ad.participant.id]?.any
        (fun existing => decide (ad.sequence<existing.advertisement.sequence))=true then
      (.error .staleSequence,r)
    else (.ok (),{r with members := r.members.insert ad.participant.id ⟨ad,receivedAt⟩})

/-- The shared call answers as the call that returns its registry, and
keeps the registry it had when that call fails. -/
theorem upsertShared_eq (r : MemoryRegistry F) (ad : Advertisement F) (receivedAt : SystemTime) :
    r.upsertShared ad receivedAt=
      match r.upsert ad receivedAt with
      | .ok after => (.ok (),after)
      | .error e => (.error e,r) := by
  rw [upsertShared,upsert]
  cases ad.validate with
  | error e => rfl
  | ok u =>
    dsimp only [bind,Except.bind]
    by_cases ht : receivedAt<ad.observedAt ∨ receivedAt=.unixEpoch
    · rw [if_pos ht,rejectIf,if_pos ht]
    · rw [if_neg ht,rejectIf,if_neg ht]
      dsimp only
      by_cases hs : r.members[ad.participant.id]?.any
          (fun existing => decide (ad.sequence<existing.advertisement.sequence))=true
      · rw [if_pos hs,rejectIf,if_pos hs]
      · rw [if_neg hs,rejectIf,if_neg hs]

/-- Deliver advertisements one after another, whatever the answers. -/
def deliver (r : MemoryRegistry F) (arrivals : List (Advertisement F×SystemTime)) :
    MemoryRegistry F :=
  arrivals.foldl (fun r arrival => (r.upsertShared arrival.1 arrival.2).2) r

/-- The arrival is valid, and its times are in order. -/
def Admissible (arrival : Advertisement F×SystemTime) : Prop :=
  arrival.1.validate=.ok () ∧ arrival.1.observedAt ≤ arrival.2 ∧ arrival.2≠.unixEpoch

instance (arrival : Advertisement F×SystemTime) : Decidable (Admissible arrival) :=
  inferInstanceAs (Decidable (_ ∧ _ ∧ _))

/-- A valid advertisement names a participant. -/
theorem Admissible.kind {arrival : Advertisement F×SystemTime} (h : Admissible arrival) :
    arrival.1.participant.kind=.participant := by
  have hv := Checks.rejectIf_eq_ok.mp h.1
  by_contra hk
  exact hv (.inl hk)

/-- The member that an arrival becomes. -/
def memberOf (arrival : Advertisement F×SystemTime) : Member F := ⟨arrival.1,arrival.2⟩

/-- The text under which a member is filed. -/
def nameOf (member : Member F) : String := member.advertisement.participant.id

/-- The sequence number of a member. -/
def sequenceOf (member : Member F) : ℕ := member.advertisement.sequence.toNat

/-- One delivery keeps the later of two members, if the arrival is
admissible, and nothing of it otherwise. -/
theorem upsertShared_members (r : MemoryRegistry F) (arrival : Advertisement F×SystemTime) :
    (r.upsertShared arrival.1 arrival.2).2.members=
      if Admissible arrival then Latest.keep nameOf sequenceOf r.members (memberOf arrival)
      else r.members := by
  rw [upsertShared]
  split
  case h_1 e he =>
    have hn : ¬Admissible arrival := fun h => by
      rw [h.1] at he
      cases he
    rw [if_neg hn]
  case h_2 hv =>
    by_cases ht : arrival.2<arrival.1.observedAt ∨ arrival.2=.unixEpoch
    · have hn : ¬Admissible arrival := fun h => ht.elim (fun hl => absurd h.2.1 (not_le_of_gt hl))
        h.2.2
      rw [if_pos ht,if_neg hn]
    · have ha : Admissible arrival := ⟨hv,not_lt.mp fun hl => ht (.inl hl),fun he => ht (.inr he)⟩
      rw [if_neg ht,if_pos ha,Latest.keep]
      have hlater : r.members[arrival.1.participant.id]?.any (fun existing =>
            decide (arrival.1.sequence<existing.advertisement.sequence))=true ↔
          r.members[nameOf (memberOf arrival)]?.any (fun held =>
            decide (sequenceOf (memberOf arrival)<sequenceOf held))=true := by
        simp only [Option.any_eq_true,decide_eq_true_eq,UInt64.lt_iff_toNat_lt]
        rfl
      split
      case isTrue hs => rw [if_pos (hlater.mp hs)]
      case isFalse hs =>
        rw [if_neg (fun h => hs (hlater.mpr h))]
        rfl

/-- The members after any deliveries are the latest of the admissible
arrivals. -/
theorem deliver_members (r : MemoryRegistry F) (arrivals : List (Advertisement F×SystemTime)) :
    (r.deliver arrivals).members=
      ((arrivals.filter fun a => decide (Admissible a)).map memberOf).foldl
        (Latest.keep nameOf sequenceOf) r.members := by
  induction arrivals generalizing r with
  | nil => rfl
  | cons arrival rest ih =>
    have hstep : r.deliver (arrival::rest)=(r.upsertShared arrival.1 arrival.2).2.deliver rest := rfl
    rw [hstep,ih,upsertShared_members]
    by_cases ha : Admissible arrival
    · rw [if_pos ha,List.filter_cons_of_pos (by simpa using ha),List.map_cons,List.foldl_cons]
    · rw [if_neg ha,List.filter_cons_of_neg (by simpa using ha)]

/-- No participant used a sequence number twice. -/
def SequencesDistinct (arrivals : List (Advertisement F×SystemTime)) : Prop :=
  arrivals.Pairwise fun a b => a.1.participant=b.1.participant → a.1.sequence≠b.1.sequence

instance (arrivals : List (Advertisement F×SystemTime)) : Decidable (SequencesDistinct arrivals) :=
  inferInstanceAs (Decidable (List.Pairwise _ _))

/-- The admissible arrivals have distinct sequence numbers under each name. -/
theorem SequencesDistinct.ranked {arrivals : List (Advertisement F×SystemTime)}
    (h : SequencesDistinct arrivals) :
    Latest.Ranked nameOf sequenceOf
      ((arrivals.filter fun a => decide (Admissible a)).map memberOf) := by
  rw [Latest.Ranked,List.pairwise_map]
  have hf := List.Pairwise.filter (fun a => decide (Admissible a)) h
  refine List.Pairwise.imp_of_mem ?_ hf
  intro a b ha hb hab hname hseq
  have hka := Admissible.kind (of_decide_eq_true (List.mem_filter.mp ha).2)
  have hkb := Admissible.kind (of_decide_eq_true (List.mem_filter.mp hb).2)
  have hid : a.1.participant=b.1.participant := by
    have hi : a.1.participant.id=b.1.participant.id := hname
    cases hpa : a.1.participant
    cases hpb : b.1.participant
    simp only [hpa,hpb] at hi hka hkb
    rw [hi,hka,hkb]
  exact hab hid (UInt64.toNat_inj.mp hseq)

/-- The arrival is admissible, and the latest one of its name. -/
def LatestArrival (arrivals : List (Advertisement F×SystemTime)) (name : String)
    (arrival : Advertisement F×SystemTime) : Prop :=
  arrival ∈ arrivals ∧ Admissible arrival ∧ arrival.1.participant.id=name ∧
    ∀ other ∈ arrivals,Admissible other → other.1.participant.id=name →
      other.1.sequence ≤ arrival.1.sequence

/-- The greatest of the admissible members are the latest arrivals. -/
theorem greatest_iff {arrivals : List (Advertisement F×SystemTime)} {name : String}
    {member : Member F} :
    Latest.Greatest nameOf sequenceOf
        ((arrivals.filter fun a => decide (Admissible a)).map memberOf) name member ↔
      LatestArrival arrivals name (member.advertisement,member.lastSeen) := by
  simp only [Latest.Greatest,LatestArrival,List.mem_map,List.mem_filter,decide_eq_true_eq,
    forall_exists_index,and_imp,UInt64.le_iff_toNat_le]
  constructor
  · rintro ⟨⟨a,⟨ha,hadm⟩,rfl⟩,hname,hmax⟩
    exact ⟨ha,hadm,hname,fun b hb hbadm hbn => hmax _ b hb hbadm rfl hbn⟩
  · rintro ⟨ha,hadm,hname,hmax⟩
    refine ⟨⟨_,⟨ha,hadm⟩,rfl⟩,hname,?_⟩
    rintro _ b hb hbadm rfl hbn
    exact hmax b hb hbadm hbn

/-- Delivered in any order to an empty registry, the same arrivals leave the
same members: for each name the latest admissible arrival with its own time
of arrival, and nothing where there is none. A refused call changes nothing. -/
theorem deliver_converges {policy : FreshnessPolicy} {start : MemoryRegistry F}
    (hnew : MemoryRegistry.new policy=.ok start) {a b : List (Advertisement F×SystemTime)}
    (hperm : a.Perm b) (hdistinct : SequencesDistinct a) :
    (start.deliver a).members=(start.deliver b).members ∧
    (∀ (name : String) (member : Member F),(start.deliver a).members[name]?=some member ↔
      LatestArrival a name (member.advertisement,member.lastSeen)) ∧
    (∀ name : String,(start.deliver a).members[name]?=none ↔
      ∀ arrival ∈ a,Admissible arrival → arrival.1.participant.id≠name) ∧
    ∀ (r : MemoryRegistry F) (ad : Advertisement F) (receivedAt : SystemTime) (e : DiscoveryError),
      (r.upsertShared ad receivedAt).1=.error e → (r.upsertShared ad receivedAt).2=r := by
  have hempty : start.members=∅ := by
    rw [MemoryRegistry.new] at hnew
    split at hnew
    · rw [Except.ok.injEq] at hnew
      rw [← hnew]
    · cases hnew
  have htracks : Latest.Tracks nameOf sequenceOf _
      ((a.filter fun a => decide (Admissible a)).map memberOf) := Latest.tracks_foldl _
  refine ⟨?_,?_,?_,?_⟩
  · rw [deliver_members,deliver_members,hempty]
    have hp := (hperm.filter fun a => decide (Admissible a)).map memberOf
    exact Latest.foldl_keep_perm hp hdistinct.ranked
  · intro name member
    rw [deliver_members,hempty,htracks.getElem?_eq_some hdistinct.ranked,greatest_iff]
  · intro name
    rw [deliver_members,hempty,htracks.getElem?_eq_none]
    simp only [List.mem_map,List.mem_filter,decide_eq_true_eq,forall_exists_index,and_imp]
    constructor
    · intro h arrival ha hadm
      exact h _ arrival ha hadm rfl
    · rintro h _ arrival ha hadm rfl
      exact h arrival ha hadm
  · intro r ad receivedAt e he
    rw [upsertShared_eq] at he ⊢
    split at he
    · cases he
    · rfl

end Delivery

section Sample

/-- An instant after the epoch. -/
def earlyInstant : SystemTime := SystemTime.ofWord 1000 (by decide)

/-- A later instant. -/
def lateInstant : SystemTime := SystemTime.ofWord 2000 (by decide)

/-- A participant with two cores, observed at an instant. -/
def twoCoresSeen (sequence : UInt64) (observedAt : SystemTime) : Advertisement ℚ where
  participant := ⟨"11111111-1111-4111-8111-111111111111",.participant⟩
  capability := ⟨2,0,0,0,0,1,none⟩
  sequence := sequence
  observedAt := observedAt

/-- Three arrivals of one participant: the second is the latest, the third
comes before it was sent. -/
def threeArrivals : List (Advertisement ℚ×SystemTime) :=
  [(twoCoresSeen 1 earlyInstant,earlyInstant),(twoCoresSeen 2 earlyInstant,lateInstant),
    (twoCoresSeen 3 lateInstant,earlyInstant)]

/-- A registry under a policy of one and two nanoseconds. -/
def freshRegistry : MemoryRegistry ℚ :=
  ⟨∅,⟨Duration.ofWord 1 (by decide),Duration.ofWord 2 (by decide)⟩,by decide⟩

/-- The three arrivals converge in both orders, on the second of them. -/
theorem deliver_converges_threeArrivals : letI := hyphenatedUuid
    (freshRegistry.deliver threeArrivals).members=
      (freshRegistry.deliver threeArrivals.reverse).members ∧
    (freshRegistry.deliver threeArrivals).members["11111111-1111-4111-8111-111111111111"]?=
      some ⟨twoCoresSeen 2 earlyInstant,lateInstant⟩ ∧
    (freshRegistry.deliver threeArrivals).members["another"]?=none := by
  let := hyphenatedUuid
  have hd : SequencesDistinct threeArrivals := by decide
  have hn : MemoryRegistry.new freshRegistry.policy=.ok freshRegistry := by
    rw [MemoryRegistry.new,dif_pos freshRegistry.policyValid]
    rfl
  have h := deliver_converges hn (List.reverse_perm threeArrivals).symm hd
  have hlatest : LatestArrival threeArrivals "11111111-1111-4111-8111-111111111111"
      (twoCoresSeen 2 earlyInstant,lateInstant) := by
    exact ⟨by decide,by decide +kernel,rfl,by decide⟩
  have hnone : ∀ arrival ∈ threeArrivals,Admissible arrival →
      arrival.1.participant.id≠"another" := by decide
  exact ⟨h.1,(h.2.1 _ _).mpr hlatest,(h.2.2.1 _).mpr hnone⟩

end Sample

end OpenHost.MemoryRegistry
