import Mathlib

/-!
# Fixed-width big-endian words

A natural number below `256^w` and a byte string of length `w` name each
other. Both directions are proved, so a fixed-width field has exactly one
spelling and every string of its length is the spelling of some number.
-/

namespace OpenHost.BigEndian

/-- The low `w` base-256 digits of `n`, most significant digit first. -/
def toBeBytes : ℕ → ℕ → List UInt8
  | 0,_ => []
  | w+1,n => toBeBytes w (n/256)++[UInt8.ofNat n]

/-- The number spelled by a byte string, most significant digit first. -/
def fromBeBytes (bytes : List UInt8) : ℕ := bytes.foldl (fun n b => n*256+b.toNat) 0

@[simp] theorem toBeBytes_length (w n : ℕ) : (toBeBytes w n).length=w := by
  induction w generalizing n with
  | zero => rfl
  | succ w ih => simp only [toBeBytes,List.length_append,ih,List.length_cons,List.length_nil]

/-- Appending one byte shifts the number spelled so far. -/
theorem fromBeBytes_concat (bytes : List UInt8) (b : UInt8) :
    fromBeBytes (bytes++[b])=fromBeBytes bytes*256+b.toNat := by
  simp only [fromBeBytes,List.foldl_append,List.foldl_cons,List.foldl_nil]

/-- Reading back the digits of a number that fits loses nothing. -/
theorem fromBeBytes_toBeBytes {w n : ℕ} (h : n<256^w) : fromBeBytes (toBeBytes w n)=n := by
  induction w generalizing n with
  | zero =>
    have hz : n=0 := by simpa using h
    rw [hz]
    rfl
  | succ w ih =>
    have hd : n/256<256^w := by
      rw [pow_succ] at h
      omega
    rw [toBeBytes,fromBeBytes_concat,ih hd]
    have hb : (UInt8.ofNat n).toNat=n%256 := by simp
    omega

/-- A byte string spells a number that fits its length. -/
theorem fromBeBytes_lt (bytes : List UInt8) : fromBeBytes bytes<256^bytes.length := by
  induction bytes using List.reverseRecOn with
  | nil => simp [fromBeBytes]
  | append_singleton bytes b ih =>
    rw [fromBeBytes_concat,List.length_append,List.length_singleton,pow_succ]
    have hb := b.toNat_lt
    omega

/-- Every byte string is the spelling of the number it denotes. -/
theorem toBeBytes_fromBeBytes (bytes : List UInt8) :
    toBeBytes bytes.length (fromBeBytes bytes)=bytes := by
  induction bytes using List.reverseRecOn with
  | nil => rfl
  | append_singleton bytes b ih =>
    have hb := b.toNat_lt
    have hd : (fromBeBytes bytes*256+b.toNat)/256=fromBeBytes bytes := by omega
    have hm : UInt8.ofNat (fromBeBytes bytes*256+b.toNat)=b := by
      apply UInt8.toNat_inj.mp
      simp
    rw [fromBeBytes_concat,List.length_append,List.length_singleton,toBeBytes,hd,ih,hm]

end OpenHost.BigEndian
