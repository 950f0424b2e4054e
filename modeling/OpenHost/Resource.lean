import OpenHost.Time

/-!
# Resource fragments and their composition

CPU amounts are kept abstract. `Cores` has what the checks of a fragment
ask of an amount, `CoresArith` adds the arithmetic of planning and
composition. Two instances are used: exact rationals for planning, and the
64-bit pattern of a floating-point number for the wire, where no arithmetic
takes place. The other dimensions are the machine words of the program,
with saturating addition and subtraction.
-/

namespace OpenHost

/-- What the checks of a resource fragment ask of a CPU amount. -/
class Cores (F : Type) where
  /-- The amount `0.0`. -/
  zero : F
  /-- The amount `1.0`. -/
  one : F
  /-- Neither infinite nor undefined. -/
  isFinite : F → Bool
  /-- Strictly less. -/
  lt : F → F → Bool
  /-- Less or equal. -/
  le : F → F → Bool
  /-- Equality as the program compares amounts. -/
  beq : F → F → Bool
  /-- A finite amount equals itself. -/
  beq_self (x : F) : isFinite x=true → beq x x=true

/-- The arithmetic that planning and composition perform on CPU amounts. -/
class CoresArith (F : Type) extends Cores F where
  /-- Sum of two amounts. -/
  add : F → F → F
  /-- Difference of two amounts. -/
  sub : F → F → F
  /-- The smaller amount. -/
  min : F → F → F
  /-- The larger amount. -/
  max : F → F → F

instance : CoresArith ℚ where
  zero := 0
  one := 1
  isFinite _ := true
  lt a b := decide (a<b)
  le a b := decide (a ≤ b)
  beq a b := decide (a=b)
  beq_self _ _ := by simp
  add a b := a+b
  sub a b := a-b
  min a b := Min.min a b
  max a b := Max.max a b

/-- A binary64 number as its bit pattern. -/
structure F64 where
  /-- Sign, eleven exponent bits and fifty-two fraction bits. -/
  bits : UInt64
  deriving DecidableEq

namespace F64

/-- The pattern without its sign bit. -/
def magnitude (x : F64) : ℕ := x.bits.toNat%2^63

/-- Not-a-number patterns lie above the pattern of infinity. -/
def isNaN (x : F64) : Bool := decide (0x7FF0000000000000<x.magnitude)

/-- Order of the numbers that are not NaN; both zeros are equal. -/
def key (x : F64) : ℤ := if 2^63 ≤ x.bits.toNat then -x.magnitude else x.magnitude

instance : Cores F64 where
  zero := ⟨0⟩
  one := ⟨0x3FF0000000000000⟩
  isFinite x := decide (x.magnitude<0x7FF0000000000000)
  lt a b := !a.isNaN && !b.isNaN && decide (a.key<b.key)
  le a b := !a.isNaN && !b.isNaN && decide (a.key ≤ b.key)
  beq a b := !a.isNaN && !b.isNaN && decide (a.key=b.key)
  beq_self x h := by
    have hn : ¬0x7FF0000000000000<x.magnitude := by
      simp only [decide_eq_true_eq] at h
      omega
    simp [isNaN,hn]

end F64

/-- Addition of 64-bit words that stops at the largest word. -/
def saturatingAdd64 (a b : UInt64) : UInt64 := UInt64.ofNat (min (a.toNat+b.toNat) (2^64-1))

/-- Addition of 32-bit words that stops at the largest word. -/
def saturatingAdd32 (a b : UInt32) : UInt32 := UInt32.ofNat (min (a.toNat+b.toNat) (2^32-1))

/-- Subtraction of 64-bit words that stops at zero. -/
def saturatingSub64 (a b : UInt64) : UInt64 := UInt64.ofNat (a.toNat-b.toNat)

/-- Subtraction of 32-bit words that stops at zero. -/
def saturatingSub32 (a b : UInt32) : UInt32 := UInt32.ofNat (a.toNat-b.toNat)

@[simp] theorem saturatingAdd64_toNat (a b : UInt64) :
    (saturatingAdd64 a b).toNat=min (a.toNat+b.toNat) (2^64-1) :=
  UInt64.toNat_ofNat_of_lt' (by
    have hs : UInt64.size=2^64 := rfl
    omega)

@[simp] theorem saturatingAdd32_toNat (a b : UInt32) :
    (saturatingAdd32 a b).toNat=min (a.toNat+b.toNat) (2^32-1) :=
  UInt32.toNat_ofNat_of_lt' (by
    have hs : UInt32.size=2^32 := rfl
    omega)

@[simp] theorem saturatingSub64_toNat (a b : UInt64) :
    (saturatingSub64 a b).toNat=a.toNat-b.toNat :=
  UInt64.toNat_ofNat_of_lt' (by
    have ha := a.toNat_lt
    have hs : UInt64.size=2^64 := rfl
    omega)

@[simp] theorem saturatingSub32_toNat (a b : UInt32) :
    (saturatingSub32 a b).toNat=a.toNat-b.toNat :=
  UInt32.toNat_ofNat_of_lt' (by
    have ha := a.toNat_lt
    have hs : UInt32.size=2^32 := rfl
    omega)

/-- Resources in five dimensions, and how long they last. -/
@[ext] structure ResourceFragment (F : Type) where
  /-- CPU cores. -/
  cpu : F
  /-- Memory in bytes. -/
  memory : UInt64
  /-- Storage in bytes. -/
  storage : UInt64
  /-- Network in bits per second. -/
  network : UInt64
  /-- GPU units. -/
  gpu : UInt32
  /-- Time for which the resources are available; none is unbounded. -/
  lifetime : Option Duration
  deriving DecidableEq

/-- Errors of the resource checks. -/
inductive ResourceError where
  | invalidCpu
  | emptyRequirement
  | emptyComposite
  | invalidAllocation
  | duplicateParticipant
  | capacityMismatch
  deriving DecidableEq

/-- An unbounded lifetime covers every requirement, and no requirement is
covered by every lifetime. -/
def lifetimeCovers : Option Duration → Option Duration → Bool
  | _,none => true
  | none,some _ => true
  | some actual,some required => decide (required ≤ actual)

/-- The shorter of two lifetimes, where none is unbounded. -/
def lifetimeMin : Option Duration → Option Duration → Option Duration
  | none,x => x
  | x,none => x
  | some a,some b => some (min a b)

namespace ResourceFragment

variable {F : Type}

section Checks

variable [Cores F]

/-- No resources, for an unbounded time. -/
def default : ResourceFragment F := ⟨Cores.zero,0,0,0,0,none⟩

/-- The CPU amount is finite and not negative. -/
def validate (r : ResourceFragment F) : Except ResourceError Unit :=
  if !Cores.isFinite r.cpu || Cores.lt r.cpu Cores.zero then .error .invalidCpu else .ok ()

/-- Nothing in any of the five dimensions. -/
def isEmpty (r : ResourceFragment F) : Bool :=
  Cores.beq r.cpu Cores.zero && r.memory==0 && r.storage==0 && r.network==0 && r.gpu==0

/-- A requirement is valid and asks for something. -/
def validateRequirement (r : ResourceFragment F) : Except ResourceError Unit := do
  r.validate
  if r.isEmpty then .error .emptyRequirement else .ok ()

/-- The fragment has at least the required amounts for long enough. -/
def satisfies (r requirement : ResourceFragment F) : Bool :=
  Cores.le requirement.cpu r.cpu && decide (requirement.memory ≤ r.memory) &&
    decide (requirement.storage ≤ r.storage) && decide (requirement.network ≤ r.network) &&
    decide (requirement.gpu ≤ r.gpu) && lifetimeCovers r.lifetime requirement.lifetime

/-- Equality as the program compares fragments. -/
def beq (a b : ResourceFragment F) : Bool :=
  Cores.beq a.cpu b.cpu && a.memory==b.memory && a.storage==b.storage &&
    a.network==b.network && a.gpu==b.gpu && a.lifetime==b.lifetime

/-- A fragment with a valid CPU amount equals itself. -/
theorem beq_self {r : ResourceFragment F} (h : r.validate=.ok ()) : r.beq r=true := by
  have hf : Cores.isFinite r.cpu=true := by
    rw [validate] at h
    split at h
    · cases h
    · next hn =>
      simp only [Bool.or_eq_true,Bool.not_eq_true',not_or,Bool.not_eq_false] at hn
      exact hn.1
  simp [beq,Cores.beq_self _ hf]

/-- A requirement passes exactly when it is valid and not empty. -/
theorem validateRequirement_eq_ok {r : ResourceFragment F} :
    r.validateRequirement=.ok () ↔ r.validate=.ok () ∧ r.isEmpty=false := by
  rw [validateRequirement]
  cases hv : r.validate with
  | error e => simp [bind,Except.bind]
  | ok u =>
    cases he : r.isEmpty with
    | false => simp [bind,Except.bind]
    | true => simp [bind,Except.bind]

end Checks

/-- Sum of two fragments; the shorter bounded lifetime wins. -/
def add [CoresArith F] (a b : ResourceFragment F) : ResourceFragment F where
  cpu := CoresArith.add a.cpu b.cpu
  memory := saturatingAdd64 a.memory b.memory
  storage := saturatingAdd64 a.storage b.storage
  network := saturatingAdd64 a.network b.network
  gpu := saturatingAdd32 a.gpu b.gpu
  lifetime := lifetimeMin a.lifetime b.lifetime

end ResourceFragment

/-- A participant's part of a composite. -/
structure Allocation (F : Type) where
  /-- Text of the participant's identity. -/
  participantId : String
  /-- Resources taken from that participant. -/
  resources : ResourceFragment F
  deriving DecidableEq

/-- Aggregate capacity and the distribution that backs it. -/
structure CompositeResource (F : Type) where
  /-- Resources visible to the logical node. -/
  capacity : ResourceFragment F
  /-- Parts contributed by the participants. -/
  allocations : List (Allocation F)
  deriving DecidableEq

namespace CompositeResource

variable {F : Type} [CoresArith F]

/-- Walk the allocations, remembering the participants already seen and the
capacity added up so far. -/
def composeLoop : List (Allocation F) → List String → ResourceFragment F →
    Except ResourceError (ResourceFragment F)
  | [],_,capacity => .ok capacity
  | allocation::rest,seen,capacity =>
    if allocation.participantId="" then .error .invalidAllocation
    else if allocation.participantId ∈ seen then .error .duplicateParticipant
    else match allocation.resources.validateRequirement with
      | .error _ => .error .invalidAllocation
      | .ok _ => composeLoop rest (allocation.participantId::seen) (capacity.add allocation.resources)

/-- Assemble a composite from independent allocations. -/
def compose (allocations : List (Allocation F)) : Except ResourceError (CompositeResource F) :=
  if allocations.isEmpty then .error .emptyComposite
  else (composeLoop allocations [] .default).map fun capacity => ⟨capacity,allocations⟩

/-- Compose the allocations again and compare the capacity. -/
def validate (c : CompositeResource F) : Except ResourceError Unit := do
  let rebuilt ← compose c.allocations
  if rebuilt.capacity.beq c.capacity then .ok () else .error .capacityMismatch

/-- First allocation of a participant. -/
def allocationFor (c : CompositeResource F) (participantId : String) : Option (Allocation F) :=
  c.allocations.find? fun a => a.participantId=participantId

/-- The allocations that a composition accepts: named, non-empty and valid,
each participant at most once. -/
structure Composable (allocations : List (Allocation F)) : Prop where
  /-- Every participant has a name. -/
  named : ∀ a ∈ allocations,a.participantId≠""
  /-- Every part is a valid non-empty fragment. -/
  valid : ∀ a ∈ allocations,a.resources.validateRequirement=.ok ()
  /-- No participant contributes twice. -/
  distinct : (allocations.map Allocation.participantId).Nodup

/-- Sum of the allocations in list order. -/
def total (start : ResourceFragment F) (allocations : List (Allocation F)) : ResourceFragment F :=
  allocations.foldl (fun capacity a => capacity.add a.resources) start

/-- One more allocation is composable with others if it is in order and none
of them is of its participant. -/
theorem composable_cons {a : Allocation F} {rest : List (Allocation F)} :
    Composable (a::rest) ↔ (a.participantId≠"" ∧ a.resources.validateRequirement=.ok ()) ∧
      (∀ b ∈ rest,b.participantId≠a.participantId) ∧ Composable rest := by
  constructor
  · intro h
    have hd := h.distinct
    rw [List.map_cons,List.nodup_cons] at hd
    refine ⟨⟨h.named a List.mem_cons_self,h.valid a List.mem_cons_self⟩,?_,?_,?_,hd.2⟩
    · intro b hb he
      exact hd.1 (List.mem_map.mpr ⟨b,hb,he⟩)
    · exact fun b hb => h.named b (List.mem_cons_of_mem _ hb)
    · exact fun b hb => h.valid b (List.mem_cons_of_mem _ hb)
  · rintro ⟨⟨hn,hv⟩,hne,hc⟩
    refine ⟨List.forall_mem_cons.mpr ⟨hn,hc.named⟩,List.forall_mem_cons.mpr ⟨hv,hc.valid⟩,?_⟩
    rw [List.map_cons,List.nodup_cons]
    refine ⟨?_,hc.distinct⟩
    intro hm
    obtain ⟨b,hb,he⟩ := List.mem_map.mp hm
    exact hne b hb he

/-- The loop succeeds exactly on composable allocations of participants not
seen before, and returns their sum. -/
theorem composeLoop_eq_ok {allocations : List (Allocation F)} {seen : List String}
    {start capacity : ResourceFragment F} :
    composeLoop allocations seen start=.ok capacity ↔
      Composable allocations ∧ (∀ a ∈ allocations,a.participantId∉seen) ∧
        capacity=total start allocations := by
  induction allocations generalizing seen start with
  | nil =>
    have hc : Composable (F:=F) [] := ⟨by simp,by simp,by simp⟩
    simp [composeLoop,hc,total,eq_comm]
  | cons a rest ih =>
    rw [composeLoop,composable_cons]
    by_cases he : a.participantId=""
    · simp [he]
    rw [if_neg he]
    by_cases hs : a.participantId ∈ seen
    · simp [hs]
    rw [if_neg hs]
    cases hv : a.resources.validateRequirement with
    | error e => simp
    | ok u =>
      dsimp only
      rw [ih]
      constructor
      · rintro ⟨hc,hf,rfl⟩
        refine ⟨⟨⟨he,rfl⟩,fun b hb hba => hf b hb (by simp [hba]),hc⟩,?_,rfl⟩
        exact List.forall_mem_cons.mpr ⟨hs,fun b hb hm => hf b hb (List.mem_cons_of_mem _ hm)⟩
      · rintro ⟨⟨_,hne,hc⟩,hf,rfl⟩
        refine ⟨hc,fun b hb hm => ?_,rfl⟩
        rcases List.mem_cons.mp hm with hba|hm
        · exact hne b hb hba
        · exact hf b (List.mem_cons_of_mem _ hb) hm

/-- Composition succeeds exactly on non-empty composable lists; the capacity
is the sum and the list is kept as it is. -/
theorem compose_eq_ok {allocations : List (Allocation F)} {c : CompositeResource F} :
    compose allocations=.ok c ↔
      allocations≠[] ∧ Composable allocations ∧ c=⟨total .default allocations,allocations⟩ := by
  rw [compose]
  by_cases he : allocations=[]
  · simp [he]
  rw [if_neg (by simpa using he)]
  cases hl : composeLoop allocations [] .default with
  | error e =>
    have hn : ¬Composable allocations := by
      intro h
      have hok : composeLoop allocations [] .default=.ok (total .default allocations) :=
        composeLoop_eq_ok.mpr ⟨h,fun _ _ => List.not_mem_nil,rfl⟩
      rw [hl] at hok
      cases hok
    simp [Except.map,hn]
  | ok capacity =>
    obtain ⟨hc,_,rfl⟩ := composeLoop_eq_ok.mp hl
    simp [Except.map,he,hc,eq_comm]

end CompositeResource

end OpenHost
