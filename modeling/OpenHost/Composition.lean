import OpenHost.CappedSum
import OpenHost.PlanOrder

/-!
# What a composition adds up to

The capacity of a composite is a sum under the ceilings of its machine
words, and the shortest of the bounded lifetimes. Neither depends on the
order of the parts, so composites with the same parts have one capacity, and
the check of a composite accepts that capacity and no other.
-/

namespace OpenHost.CompositeResource

open CappedSum

section Words

variable {F : Type} [CoresArith F]

/-- A 64-bit dimension of the sum, wherever it saturates. -/
theorem total_word64 (dimension : ResourceFragment F → UInt64)
    (hadd : ∀ a b : ResourceFragment F,
      dimension (a.add b)=saturatingAdd64 (dimension a) (dimension b))
    (start : ResourceFragment F) (allocations : List (Allocation F)) :
    (dimension (total start allocations)).toNat=
      cappedAdd (2^64-1) (dimension start).toNat
        (allocations.map fun a => (dimension a.resources).toNat).sum := by
  have hstart := (dimension start).toNat_lt
  refine view_foldl (fun r : ResourceFragment F => (dimension r).toNat)
    (fun capacity (a : Allocation F) => capacity.add a.resources)
    (fun a => (dimension a.resources).toNat) (fun s _ a _ => ?_)
    (fun _ _ => Nat.zero_le _) (by omega)
  rw [hadd,saturatingAdd64_toNat,cappedAdd]

/-- A 32-bit dimension of the sum, wherever it saturates. -/
theorem total_word32 (dimension : ResourceFragment F → UInt32)
    (hadd : ∀ a b : ResourceFragment F,
      dimension (a.add b)=saturatingAdd32 (dimension a) (dimension b))
    (start : ResourceFragment F) (allocations : List (Allocation F)) :
    (dimension (total start allocations)).toNat=
      cappedAdd (2^32-1) (dimension start).toNat
        (allocations.map fun a => (dimension a.resources).toNat).sum := by
  have hstart := (dimension start).toNat_lt
  refine view_foldl (fun r : ResourceFragment F => (dimension r).toNat)
    (fun capacity (a : Allocation F) => capacity.add a.resources)
    (fun a => (dimension a.resources).toNat) (fun s _ a _ => ?_)
    (fun _ _ => Nat.zero_le _) (by omega)
  rw [hadd,saturatingAdd32_toNat,cappedAdd]

/-- The bounded lifetimes of the parts. -/
def lifetimes (allocations : List (Allocation F)) : List Duration :=
  allocations.filterMap fun a => a.resources.lifetime

/-- The shorter of two lifetimes is the first minimum of the bounded ones. -/
theorem min?_lifetimeMin (a b : Option Duration) (rest : List Duration) :
    ((lifetimeMin a b).toList++rest).min?=(a.toList++(b.toList++rest)).min? := by
  cases a with
  | none => rfl
  | some a =>
    cases b with
    | none => rfl
    | some b => rfl

/-- The lifetime of the sum is the shortest of the bounded ones. -/
theorem total_shortest (start : ResourceFragment F) (allocations : List (Allocation F)) :
    (total start allocations).lifetime=
      (start.lifetime.toList++lifetimes allocations).min? := by
  induction allocations generalizing start with
  | nil =>
    change start.lifetime=(start.lifetime.toList++[]).min?
    cases start.lifetime <;> rfl
  | cons a rest ih =>
    have hstep := ih (start.add a.resources)
    have hlife : (start.add a.resources).lifetime=
        lifetimeMin start.lifetime a.resources.lifetime := rfl
    have hcons : lifetimes (a::rest)=a.resources.lifetime.toList++lifetimes rest := by
      rw [lifetimes,List.filterMap_cons]
      cases a.resources.lifetime <;> rfl
    rw [total,List.foldl_cons]
    rw [total] at hstep
    rw [hstep,hlife,min?_lifetimeMin,hcons]

/-- The shortest of some lifetimes does not depend on their order. -/
theorem min?_perm {a b : List Duration} (h : a.Perm b) : a.min?=b.min? := by
  apply Option.ext
  intro l
  rw [List.min?_eq_some_iff,List.min?_eq_some_iff,h.mem_iff]
  have hall : (∀ x ∈ a,l ≤ x) ↔ ∀ x ∈ b,l ≤ x := forall_congr' fun x => by rw [h.mem_iff]
  rw [hall]

end Words

section Exact

/-- The capacity is the exact sum of the parts where that fits the machine
word and the largest word elsewhere, with the shortest bounded lifetime. -/
structure Sums (allocations : List (Allocation ℚ)) (capacity : ResourceFragment ℚ) : Prop where
  /-- CPU amounts add up exactly. -/
  cpu : capacity.cpu=(allocations.map fun a => a.resources.cpu).sum
  /-- Memory adds up under the ceiling. -/
  memory : capacity.memory.toNat=
    min (2^64-1) (allocations.map fun a => a.resources.memory.toNat).sum
  /-- Storage adds up under the ceiling. -/
  storage : capacity.storage.toNat=
    min (2^64-1) (allocations.map fun a => a.resources.storage.toNat).sum
  /-- Network adds up under the ceiling. -/
  network : capacity.network.toNat=
    min (2^64-1) (allocations.map fun a => a.resources.network.toNat).sum
  /-- GPU units add up under the ceiling. -/
  gpu : capacity.gpu.toNat=
    min (2^32-1) (allocations.map fun a => a.resources.gpu.toNat).sum
  /-- The shortest bounded lifetime, or none if none is bounded. -/
  lifetime : capacity.lifetime=(lifetimes allocations).min?

/-- The sum of a composition, dimension by dimension. -/
theorem total_sums (allocations : List (Allocation ℚ)) :
    Sums allocations (total .default allocations) := by
  have hcpu : (total .default allocations).cpu=0+(allocations.map fun a => a.resources.cpu).sum :=
    view_foldl_exact (fun r : ResourceFragment ℚ => r.cpu)
      (fun capacity (a : Allocation ℚ) => capacity.add a.resources)
      (fun a => a.resources.cpu) (fun _ _ _ => rfl) .default
  have hmemory := total_word64 (fun r : ResourceFragment ℚ => r.memory) (fun _ _ => rfl) .default
    allocations
  have hstorage := total_word64 (fun r : ResourceFragment ℚ => r.storage) (fun _ _ => rfl) .default
    allocations
  have hnetwork := total_word64 (fun r : ResourceFragment ℚ => r.network) (fun _ _ => rfl) .default
    allocations
  have hgpu := total_word32 (fun r : ResourceFragment ℚ => r.gpu) (fun _ _ => rfl) .default
    allocations
  simp only [ResourceFragment.default,UInt64.toNat_zero,UInt32.toNat_zero,cappedAdd,zero_add,
    min_comm] at hcpu hmemory hstorage hnetwork hgpu
  exact ⟨hcpu,hmemory,hstorage,hnetwork,hgpu,total_shortest _ _⟩

/-- The parts leave one capacity. -/
theorem Sums.unique {allocations : List (Allocation ℚ)} {c d : ResourceFragment ℚ}
    (hc : Sums allocations c) (hd : Sums allocations d) : c=d := by
  ext
  · exact hc.cpu.trans hd.cpu.symm
  · exact hc.memory.trans hd.memory.symm
  · exact hc.storage.trans hd.storage.symm
  · exact hc.network.trans hd.network.symm
  · exact hc.gpu.trans hd.gpu.symm
  · rw [hc.lifetime,hd.lifetime]

/-- The order of the parts does not matter. -/
theorem Sums.perm {a b : List (Allocation ℚ)} {c : ResourceFragment ℚ} (h : a.Perm b)
    (hc : Sums a c) : Sums b c where
  cpu := hc.cpu.trans (h.map _).sum_eq
  memory := by rw [hc.memory,(h.map _).sum_eq]
  storage := by rw [hc.storage,(h.map _).sum_eq]
  network := by rw [hc.network,(h.map _).sum_eq]
  gpu := by rw [hc.gpu,(h.map _).sum_eq]
  lifetime := hc.lifetime.trans (min?_perm (h.filterMap _))

/-- Reordered parts add up to the same fragment. -/
theorem total_perm {a b : List (Allocation ℚ)} (h : a.Perm b) :
    total .default a=total .default b :=
  ((total_sums a).perm h).unique (total_sums b)

/-- Composable parts are composable in every order. -/
theorem Composable.perm {F : Type} [CoresArith F] {a b : List (Allocation F)} (h : a.Perm b)
    (ha : Composable a) : Composable b where
  named x hx := ha.named x (h.mem_iff.mpr hx)
  valid x hx := ha.valid x (h.mem_iff.mpr hx)
  distinct := (h.map Allocation.participantId).nodup_iff.mp ha.distinct

/-- Exact fragments are compared by equality. -/
theorem beq_exact_iff {a b : ResourceFragment ℚ} : a.beq b=true ↔ a=b := by
  constructor
  · intro h
    have hbeq : Cores.beq a.cpu b.cpu=decide (a.cpu=b.cpu) := rfl
    simp only [ResourceFragment.beq,Bool.and_eq_true,beq_iff_eq,hbeq,decide_eq_true_eq] at h
    obtain ⟨⟨⟨⟨⟨hcpu,hmemory⟩,hstorage⟩,hnetwork⟩,hgpu⟩,hlifetime⟩ := h
    exact ResourceFragment.ext hcpu hmemory hstorage hnetwork hgpu hlifetime
  · rintro rfl
    exact AggregatingScheduler.beq_exact a

/-- A composite passes its check exactly when its parts compose to its own
capacity. -/
theorem validate_eq_ok {c : CompositeResource ℚ} :
    c.validate=.ok () ↔ ∃ rebuilt,compose c.allocations=.ok rebuilt ∧
      c.capacity=rebuilt.capacity := by
  rw [validate,Checks.bind_eq_ok]
  refine exists_congr fun rebuilt => and_congr_right fun _ => ?_
  split
  · next h => exact iff_of_true rfl (beq_exact_iff.mp h).symm
  · next h =>
    refine iff_of_false (fun he => ?_) fun he => h (beq_exact_iff.mpr he.symm)
    cases he

/-- Composition succeeds exactly on non-empty lists of named, distinct, valid
and non-empty parts; its capacity is the sum of the parts in every order, and
the check of a composite accepts this capacity and no other. -/
theorem compose_canonical (allocations : List (Allocation ℚ)) :
    ((∃ c,compose allocations=.ok c) ↔
      allocations≠[] ∧ (∀ a ∈ allocations,a.participantId≠"") ∧
        (allocations.map Allocation.participantId).Nodup ∧
        ∀ a ∈ allocations,a.resources.validate=.ok () ∧ a.resources.isEmpty=false) ∧
    (∀ c,compose allocations=.ok c → c.allocations=allocations ∧ Sums allocations c.capacity) ∧
    (∀ b,allocations.Perm b →
      (compose b).toOption.map CompositeResource.capacity=
        (compose allocations).toOption.map CompositeResource.capacity) ∧
    ∀ c : CompositeResource ℚ,c.allocations=allocations →
      (c.validate=.ok () ↔ ∃ rebuilt,compose allocations=.ok rebuilt ∧
        c.capacity=rebuilt.capacity) := by
  refine ⟨?_,?_,?_,?_⟩
  · constructor
    · rintro ⟨c,hc⟩
      obtain ⟨hne,hcomp,_⟩ := compose_eq_ok.mp hc
      exact ⟨hne,hcomp.named,hcomp.distinct,
        fun a ha => ResourceFragment.validateRequirement_eq_ok.mp (hcomp.valid a ha)⟩
    · rintro ⟨hne,hnamed,hdistinct,hvalid⟩
      have hcomp : Composable allocations := ⟨hnamed,
        fun a ha => ResourceFragment.validateRequirement_eq_ok.mpr (hvalid a ha),hdistinct⟩
      exact ⟨_,compose_eq_ok.mpr ⟨hne,hcomp,rfl⟩⟩
  · intro c hc
    obtain ⟨_,_,rfl⟩ := compose_eq_ok.mp hc
    exact ⟨rfl,total_sums allocations⟩
  · intro b hperm
    by_cases hc : allocations≠[] ∧ Composable allocations
    · have hb : b≠[] := fun he => hc.1 (hperm.trans (he ▸ List.Perm.refl _)).eq_nil
      rw [compose_eq_ok.mpr ⟨hc.1,hc.2,rfl⟩,compose_eq_ok.mpr ⟨hb,hc.2.perm hperm,rfl⟩]
      exact congrArg some (total_perm hperm).symm
    · have ha : ∀ c,compose allocations≠.ok c := fun c he =>
        hc ⟨(compose_eq_ok.mp he).1,(compose_eq_ok.mp he).2.1⟩
      have hb : ∀ c,compose b≠.ok c := fun c he => by
        obtain ⟨hne,hcomp,_⟩ := compose_eq_ok.mp he
        exact hc ⟨fun hn => hne (hperm.symm.trans (hn ▸ List.Perm.refl _)).eq_nil,
          hcomp.perm hperm.symm⟩
      obtain ⟨ea,hea⟩ := Checks.exists_error ha
      obtain ⟨eb,heb⟩ := Checks.exists_error hb
      rw [hea,heb]
      rfl
  · intro c hc
    rw [validate_eq_ok,hc]

end Exact

end OpenHost.CompositeResource
