import OpenHost.Outcome

/-!
# Durations and instants

Durations are whole nanoseconds below `2^64` seconds, instants are signed
nanoseconds around the Unix epoch with a signed 64-bit second count. The
bounds are fields, so a value outside the range cannot be built; the
operations that would leave the range panic, as the standard library does.
-/

namespace OpenHost

/-- Nanoseconds in one second. -/
def nanosPerSec : ℕ := 1000000000

/-- A span of time, as the standard library's `Duration`. -/
@[ext] structure Duration where
  /-- Total length in nanoseconds. -/
  nanos : ℕ
  /-- The whole seconds fit an unsigned 64-bit word. -/
  bounded : nanos<2^64*nanosPerSec
  deriving DecidableEq

namespace Duration

instance : LinearOrder Duration :=
  LinearOrder.lift' Duration.nanos fun _ _ h => Duration.ext h

theorem le_iff {a b : Duration} : a≤b ↔ a.nanos≤b.nanos := Iff.rfl

theorem lt_iff {a b : Duration} : a<b ↔ a.nanos<b.nanos := Iff.rfl

/-- The span of as many nanoseconds as a 64-bit word holds. -/
def ofWord (n : ℕ) (h : n<2^64) : Duration :=
  ⟨n,h.trans_le (Nat.le_mul_of_pos_right _ (by decide))⟩

/-- Whole seconds of the span. -/
def asSecs (d : Duration) : UInt64 := UInt64.ofNat (d.nanos/nanosPerSec)

/-- Nanoseconds behind the last whole second. -/
def subsecNanos (d : Duration) : UInt32 := UInt32.ofNat (d.nanos%nanosPerSec)

/-- The empty span. -/
def isZero (d : Duration) : Bool := d.nanos==0

/-- Build a span, carrying surplus nanoseconds into the seconds. The carry
panics when the seconds leave their 64-bit word. -/
def new {ε : Type} (secs : UInt64) (nanos : UInt32) : Outcome ε Duration :=
  if h : secs.toNat+nanos.toNat/nanosPerSec<2^64 then
    .ok ⟨(secs.toNat+nanos.toNat/nanosPerSec)*nanosPerSec+nanos.toNat%nanosPerSec,by
      have hm := Nat.mod_lt nanos.toNat (show 0<nanosPerSec by decide)
      have hs := Nat.mul_le_mul_right nanosPerSec (Nat.succ_le_of_lt h)
      rw [Nat.succ_mul] at hs
      omega⟩
  else .panic

@[simp] theorem asSecs_toNat (d : Duration) : d.asSecs.toNat=d.nanos/nanosPerSec := by
  have h : d.nanos/nanosPerSec<2^64 := by
    rw [Nat.div_lt_iff_lt_mul (by decide)]
    exact d.bounded
  exact UInt64.toNat_ofNat_of_lt' h

@[simp] theorem subsecNanos_toNat (d : Duration) : d.subsecNanos.toNat=d.nanos%nanosPerSec := by
  have hm := Nat.mod_lt d.nanos (show 0<nanosPerSec by decide)
  have h : d.nanos%nanosPerSec<2^32 := hm.trans (by decide)
  exact UInt32.toNat_ofNat_of_lt' h

/-- The parts of a span rebuild it; no carry is left to overflow. -/
theorem new_parts {ε : Type} (d : Duration) :
    (new d.asSecs d.subsecNanos : Outcome ε Duration)=.ok d := by
  have hm := Nat.mod_lt d.nanos (show 0<nanosPerSec by decide)
  have hc : d.nanos%nanosPerSec/nanosPerSec=0 := Nat.div_eq_of_lt hm
  have hs : d.nanos/nanosPerSec<2^64 := by
    have h := (d.asSecs).toNat_lt
    rwa [asSecs_toNat] at h
  rw [new,dif_pos (by rw [asSecs_toNat,subsecNanos_toNat,hc]; exact hs)]
  congr 1
  apply Duration.ext
  simp only [asSecs_toNat,subsecNanos_toNat,hc,Nat.add_zero,Nat.mod_mod]
  exact Nat.div_add_mod' _ _

/-- The constructor panics exactly when the carried seconds overflow. -/
theorem new_eq_panic {ε : Type} (secs : UInt64) (nanos : UInt32) :
    (new secs nanos : Outcome ε Duration)=.panic ↔ 2^64 ≤ secs.toNat+nanos.toNat/nanosPerSec := by
  rw [new]
  split
  · next h => simpa using h
  · next h => simpa using h

end Duration

/-- A point in time, as the standard library's `SystemTime`. -/
@[ext] structure SystemTime where
  /-- Signed nanoseconds since the Unix epoch. -/
  nanos : ℤ
  /-- The whole seconds fit a signed 64-bit word. -/
  bounded : -(2^63*nanosPerSec)≤nanos ∧ nanos<2^63*nanosPerSec
  deriving DecidableEq

namespace SystemTime

instance : LinearOrder SystemTime :=
  LinearOrder.lift' SystemTime.nanos fun _ _ h => SystemTime.ext h

theorem le_iff {a b : SystemTime} : a≤b ↔ a.nanos≤b.nanos := Iff.rfl

theorem lt_iff {a b : SystemTime} : a<b ↔ a.nanos<b.nanos := Iff.rfl

/-- The instant as many nanoseconds from the epoch as a signed 64-bit word holds. -/
def ofWord (n : ℤ) (h : -2^63 ≤ n ∧ n<2^63) : SystemTime :=
  ⟨n,by
    have hn : nanosPerSec=1000000000 := rfl
    omega⟩

/-- The Unix epoch itself. -/
def unixEpoch : SystemTime := ⟨0,by decide⟩

/-- The instant one span later, if it is representable. -/
def checkedAdd (t : SystemTime) (d : Duration) : Option SystemTime :=
  if h : t.nanos+d.nanos<2^63*nanosPerSec then
    some ⟨t.nanos+d.nanos,by
      have hb := t.bounded
      exact ⟨by omega,h⟩⟩
  else none

/-- Addition with the `+` operator panics where the checked one has no value. -/
def add {ε : Type} (t : SystemTime) (d : Duration) : Outcome ε SystemTime :=
  match t.checkedAdd d with
  | some later => .ok later
  | none => .panic

/-- The span back to an earlier instant; none when the other one is later. -/
def durationSince (t earlier : SystemTime) : Option Duration :=
  if earlier≤t then
    some ⟨(t.nanos-earlier.nanos).toNat,by
      have ht := t.bounded
      have he := earlier.bounded
      have hp : (2:ℤ)^63*nanosPerSec+2^63*nanosPerSec=2^64*nanosPerSec := by ring
      have hn : ((2^64*nanosPerSec : ℕ):ℤ)=2^64*nanosPerSec := by push_cast; rfl
      omega⟩
  else none

/-- A representable later instant lies exactly one span later. -/
theorem checkedAdd_nanos {t later : SystemTime} {d : Duration} (h : t.checkedAdd d=some later) :
    later.nanos=t.nanos+d.nanos := by
  rw [checkedAdd] at h
  split at h
  · cases h
    rfl
  · cases h

/-- Going forward by a span and measuring back gives that span. -/
theorem durationSince_checkedAdd {t later : SystemTime} {d : Duration}
    (h : t.checkedAdd d=some later) : later.durationSince t=some d := by
  have hn := checkedAdd_nanos h
  have hle : t≤later := by
    rw [le_iff,hn]
    omega
  rw [durationSince,if_pos hle]
  congr 1
  apply Duration.ext
  dsimp only
  omega

end SystemTime

end OpenHost
