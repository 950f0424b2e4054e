import OpenHost.Transport

/-!
# The languages of the wire fields

Every field decoder reads one language, and only the decoder of a span of
time panics. Both facts are stated field by field and composed with the
rules for sequences, so the language of a whole message and the inputs on
which decoding it panics are read off its field list.
-/

namespace OpenHost

open Decoding BigEndian

/-- The spelling of a byte string behind its 32-bit length. -/
def prefixed (value : List UInt8) : List UInt8 := toBeBytes 4 value.length++value

/-- The spelling of a text. -/
def textBytes (value : String) : List UInt8 := prefixed (utf8Bytes value)

/-- The spelling of an identity. -/
def identityBytes (identity : Identity) : List UInt8 :=
  textBytes identity.id++[kindToU8 identity.kind]

/-- The spelling of the five amounts of a fragment. -/
def amountBytes (resources : ResourceFragment F64) : List UInt8 :=
  toBeBytes 8 resources.cpu.bits.toNat++(toBeBytes 8 resources.memory.toNat++
    (toBeBytes 8 resources.storage.toNat++(toBeBytes 8 resources.network.toNat++
      toBeBytes 4 resources.gpu.toNat)))

/-- The spelling of seconds and nanoseconds. -/
def spanBytes (secs : UInt64) (nanos : UInt32) : List UInt8 :=
  toBeBytes 8 secs.toNat++toBeBytes 4 nanos.toNat

/-- The spelling of an optional field. -/
def optionalBytes {α : Type} (field : α → List UInt8) : Option α → List UInt8
  | none => [0]
  | some a => 1::field a

/-- The length of a byte string fits its 32-bit prefix. -/
def Short (value : List UInt8) : Prop := value.length<2^32

/-- The length of a text fits its 32-bit prefix. -/
def ShortText (value : String) : Prop := Short (utf8Bytes value)

instance (value : List UInt8) : Decidable (Short value) :=
  inferInstanceAs (Decidable (value.length<2^32))

instance (value : String) : Decidable (ShortText value) :=
  inferInstanceAs (Decidable (Short (utf8Bytes value)))

/-- Words of an optional field: a cleared flag, or a set flag and the field. -/
def OptionalWord {α : Type} (G : α → List UInt8 → Prop) : Option α → List UInt8 → Prop
  | none,w => w=[0]
  | some a,w => ∃ u, w=1::u ∧ G a u

/-- Optional fields with one spelling each have one spelling. -/
theorem optionalWord_iff {α : Type} {valid : α → Prop} {field : α → List UInt8} {value : Option α}
    {w : List UInt8} : OptionalWord (fun a u => valid a ∧ u=field a) value w ↔
      (∀ a ∈ value,valid a) ∧ w=optionalBytes field value := by
  cases value with
  | none => simp [OptionalWord,optionalBytes]
  | some a =>
    simp only [OptionalWord,optionalBytes,Option.mem_some_iff,forall_eq']
    constructor
    · rintro ⟨u,rfl,hv,rfl⟩
      exact ⟨hv,rfl⟩
    · rintro ⟨hv,rfl⟩
      exact ⟨_,rfl,hv,rfl⟩

/-- A lifetime whose seconds overflow with the carried nanoseconds, behind
the amounts of a fragment and a set flag. -/
def LifetimeOverflows (v : List UInt8) : Prop :=
  ∃ (resources : ResourceFragment F64) (secs : UInt64) (nanos : UInt32) (rest : List UInt8),
    v=amountBytes resources++1::(spanBytes secs nanos++rest) ∧
      2^64 ≤ secs.toNat+nanos.toNat/nanosPerSec

/-- An identity that can be spelled and is accepted. -/
structure SpelledIdentity (identity : Identity) : Prop where
  /-- The text fits its length field. -/
  short : ShortText identity.id
  /-- The text is a canonical version-4 UUID. -/
  canonical : IsCanonical identity.id

/-- The bytes of a text determine it, and no other bytes are accepted. -/
theorem fromUtf8_eq_ok {bytes : List UInt8} {value : String} :
    fromUtf8 bytes=.ok value ↔ bytes=utf8Bytes value := by
  have hs : String.fromUTF8? ⟨bytes.toArray⟩=some value ↔ bytes=utf8Bytes value := by
    rw [String.fromUTF8?]
    constructor
    · intro h
      split at h
      · next hv =>
        rw [Option.some.injEq] at h
        rw [← h]
        rfl
      · cases h
    · rintro rfl
      have hb : (⟨(utf8Bytes value).toArray⟩ : ByteArray)=value.toByteArray := by
        simp [utf8Bytes]
      rw [hb,dif_pos value.isValidUTF8]
      rfl
  rw [← hs,fromUtf8]
  split
  · next text ht => simp [ht]
  · next ht => simp [ht]

namespace Reader

/-- The bytes that are still to be taken. -/
def view (reader : Reader) : List UInt8 := reader.bytes.drop reader.position

@[simp] theorem view_new (frame : Frame) : (new frame).view=frame.payload := List.drop_zero

/-- The remaining bytes and the position make up the payload. -/
theorem view_length (reader : Reader) :
    reader.position+reader.view.length=reader.bytes.length := by
  have h := reader.inBounds
  rw [view,List.length_drop]
  omega

/-- Taking succeeds when enough bytes remain. -/
theorem take_of_le {length : ℕ} {reader : Reader} (h : length ≤ reader.view.length) :
    ∃ after, take length reader=.ok (reader.view.take length,after) ∧
      after.view=reader.view.drop length := by
  have hl := reader.view_length
  have ha := reader.addressable
  have hb : ¬reader.bytes.length<reader.position+length := by omega
  refine ⟨⟨reader.bytes,reader.position+length,Nat.le_of_not_lt hb,ha⟩,?_,?_⟩
  · rw [take,if_neg (by omega),dif_neg hb,sliceRange,if_pos ⟨by omega,by omega⟩,
      Nat.add_sub_cancel_left]
    rfl
  · rw [view,view,List.drop_drop]

/-- Taking more bytes than remain is an error. -/
theorem take_of_lt {length : ℕ} {reader : Reader} (h : reader.view.length<length) :
    take length reader=.err .malformedFrame := by
  have hl := reader.view_length
  rw [take]
  split
  · rfl
  · rw [dif_pos (by omega)]

/-- A string of bytes is read as itself. -/
theorem reads_take (length : ℕ) :
    Reads view (take length) fun value w => w=value ∧ value.length=length where
  sound := by
    intro s value t h
    by_cases hl : length ≤ s.view.length
    · obtain ⟨after,ht,hv⟩ := take_of_le hl
      rw [ht] at h
      simp only [Outcome.ok.injEq,Prod.mk.injEq] at h
      obtain ⟨rfl,rfl⟩ := h
      refine ⟨_,⟨rfl,?_⟩,?_⟩
      · rw [List.length_take]
        omega
      · rw [hv,List.take_append_drop]
    · rw [take_of_lt (by omega)] at h
      cases h
  complete := by
    rintro s value w rest ⟨rfl,rfl⟩ hv
    have hl : w.length ≤ s.view.length := by
      rw [hv,List.length_append]
      omega
    obtain ⟨after,ht,ha⟩ := take_of_le hl
    refine ⟨after,?_,?_⟩
    · rw [ht,hv,List.take_left]
    · rw [ha,hv,List.drop_left]

theorem never_take (length : ℕ) : PanicsOn view (take length) fun _ => False := by
  intro s
  rw [iff_false]
  by_cases hl : length ≤ s.view.length
  · obtain ⟨after,ht,_⟩ := take_of_le hl
    rw [ht]
    simp
  · rw [take_of_lt (by omega)]
    simp

/-- The last check passes exactly when no byte is left. -/
theorem finish_eq (reader : Reader) :
    finish reader=if reader.view=[] then .ok ((),reader) else .err .malformedFrame := by
  have hl := reader.view_length
  have hv : reader.view=[] ↔ reader.position=reader.bytes.length := by
    rw [← List.length_eq_zero_iff]
    omega
  simp only [finish,hv]

theorem never_finish : PanicsOn view finish fun _ => False := by
  intro s
  rw [finish_eq]
  split <;> simp

/-- Fields with nothing behind them and a check of the message accept exactly
the payloads that spell a message that passes. -/
theorem whole_eq_ok {α : Type} {fields : Read α} {G : α → List UInt8 → Prop}
    (hf : Reads view fields G) {valid : α → Except TransportError Unit} {frame : Frame}
    {message : α} :
    (∃ after,(fields >>= fun m => finish >>= fun _ => check (valid m) >>= fun _ => pure m)
        (new frame)=.ok (message,after)) ↔ G message frame.payload ∧ valid message=.ok () := by
  constructor
  · rintro ⟨after,h⟩
    rw [bind_apply] at h
    obtain ⟨⟨found,behind⟩,hfields,h⟩ := Outcome.bind_eq_ok.mp h
    rw [bind_apply,finish_eq] at h
    dsimp only at h
    split at h
    case isFalse => cases h
    case isTrue hend =>
      rw [Outcome.ok_bind,bind_apply] at h
      obtain ⟨⟨u,_⟩,hc,h⟩ := Outcome.bind_eq_ok.mp h
      simp only [pure_apply,Outcome.ok.injEq,Prod.mk.injEq] at h
      obtain ⟨rfl,_⟩ := h
      obtain ⟨w,hw,hp⟩ := hf.sound hfields
      rw [view_new,hend,List.append_nil] at hp
      refine ⟨by rwa [hp],?_⟩
      cases hv : valid found with
      | ok u => rfl
      | error e =>
        rw [hv] at hc
        cases hc
  · rintro ⟨hw,hv⟩
    have hview : (new frame).view=frame.payload++[] := by rw [view_new,List.append_nil]
    obtain ⟨after,hfields,hend⟩ := hf.complete hw hview
    refine ⟨after,?_⟩
    simp only [bind_apply,hfields,Outcome.ok_bind,finish_eq,hend,if_true,hv]
    rfl

/-- A byte is read as itself; the index into the slice is in bounds. -/
theorem reads_byte : Reads view byte fun b w => w=[b] := by
  refine ((reads_take 1).bind fun bytes => Reads.lift (indexByte bytes 0)).congr ?_
  intro b w
  constructor
  · rintro ⟨bytes,u,v,rfl,⟨rfl,hl⟩,hb,rfl⟩
    obtain ⟨c,rfl⟩ := List.length_eq_one_iff.mp hl
    simp only [indexByte,List.getElem?_cons_zero,Outcome.ok.injEq] at hb
    rw [hb,List.append_nil]
  · rintro rfl
    exact ⟨[b],[b],[],rfl,⟨rfl,rfl⟩,rfl,rfl⟩

theorem never_byte : PanicsOn view byte fun _ => False := by
  refine (PanicsOn.bind_of_never (reads_take 1) (never_take 1) fun bytes =>
    PanicsOn.lift (indexByte bytes 0)).congr fun v => ?_
  rw [iff_false]
  rintro ⟨bytes,u,rest,_,⟨_,hl⟩,hp⟩
  obtain ⟨c,rfl⟩ := List.length_eq_one_iff.mp hl
  cases hp

/-- A fixed-width number is read from its only spelling. -/
theorem reads_fixed (w : ℕ) : Reads view (fixed w) fun n u => n<256^w ∧ u=toBeBytes w n := by
  refine ((reads_take w).bind fun bytes => Reads.lift (fixedBytes w bytes)).congr ?_
  intro n u
  constructor
  · rintro ⟨bytes,u,v,rfl,⟨rfl,rfl⟩,hb,rfl⟩
    rw [fixedBytes,if_pos rfl,Outcome.ok.injEq] at hb
    have hn := fromBeBytes_lt u
    have hs := toBeBytes_fromBeBytes u
    rw [hb] at hn hs
    exact ⟨hn,by rw [hs,List.append_nil]⟩
  · rintro ⟨hn,rfl⟩
    refine ⟨toBeBytes w n,toBeBytes w n,[],(List.append_nil _).symm,⟨rfl,toBeBytes_length w n⟩,?_,rfl⟩
    rw [fixedBytes,if_pos (toBeBytes_length w n),fromBeBytes_toBeBytes hn]

theorem never_fixed (w : ℕ) : PanicsOn view (fixed w) fun _ => False := by
  refine (PanicsOn.bind_of_never (reads_take w) (never_take w) fun bytes =>
    PanicsOn.lift (fixedBytes w bytes)).congr fun v => ?_
  rw [iff_false]
  rintro ⟨bytes,u,rest,_,⟨_,hl⟩,hp⟩
  rw [fixedBytes,if_pos hl] at hp
  cases hp

theorem reads_u32 : Reads view u32 fun n w => w=toBeBytes 4 n.toNat := by
  refine ((reads_fixed 4).map UInt32.ofNat).congr fun n w => ?_
  constructor
  · rintro ⟨m,rfl,hm,rfl⟩
    rw [UInt32.toNat_ofNat_of_lt' hm]
  · rintro rfl
    exact ⟨n.toNat,UInt32.ofNat_toNat.symm,n.toNat_lt,rfl⟩

theorem reads_u64 : Reads view u64 fun n w => w=toBeBytes 8 n.toNat := by
  refine ((reads_fixed 8).map UInt64.ofNat).congr fun n w => ?_
  constructor
  · rintro ⟨m,rfl,hm,rfl⟩
    rw [UInt64.toNat_ofNat_of_lt' hm]
  · rintro rfl
    exact ⟨n.toNat,UInt64.ofNat_toNat.symm,n.toNat_lt,rfl⟩

theorem reads_f64 : Reads view f64 fun x w => w=toBeBytes 8 x.bits.toNat := by
  refine ((reads_fixed 8).map fun n => (⟨UInt64.ofNat n⟩ : F64)).congr fun x w => ?_
  constructor
  · rintro ⟨m,rfl,hm,rfl⟩
    rw [UInt64.toNat_ofNat_of_lt' hm]
  · rintro rfl
    refine ⟨x.bits.toNat,?_,x.bits.toNat_lt,rfl⟩
    rw [UInt64.ofNat_toNat]

theorem never_u32 : PanicsOn view u32 fun _ => False := (never_fixed 4).map _

theorem never_u64 : PanicsOn view u64 fun _ => False := (never_fixed 8).map _

theorem never_f64 : PanicsOn view f64 fun _ => False := (never_fixed 8).map _

/-- A byte string is read behind its length, which fits 32 bits. -/
theorem reads_bytesField : Reads view bytesField fun value w => Short value ∧ w=prefixed value := by
  refine (reads_u32.bind fun length => reads_take length.toNat).congr fun value w => ?_
  constructor
  · rintro ⟨length,u,v,rfl,rfl,rfl,hl⟩
    refine ⟨?_,?_⟩
    · rw [Short,hl]
      exact length.toNat_lt
    · rw [prefixed,hl]
  · rintro ⟨hs,rfl⟩
    have hn : (UInt32.ofNat value.length).toNat=value.length := UInt32.toNat_ofNat_of_lt' hs
    exact ⟨UInt32.ofNat value.length,_,_,rfl,by rw [hn],rfl,hn.symm⟩

theorem never_bytesField : PanicsOn view bytesField fun _ => False :=
  never_u32.bind_never fun length => never_take length.toNat

/-- A text is a byte string that passes one more check. -/
theorem string_eq : string=bytesField >>= fun bytes => check (fromUtf8 bytes) := by
  rw [string,bytesField,bind_assoc]

/-- A text is read from its only spelling. -/
theorem reads_string : Reads view string fun value w => ShortText value ∧ w=textBytes value := by
  rw [string_eq]
  refine (reads_bytesField.bind fun bytes => Reads.check (fromUtf8 bytes)).congr fun value w => ?_
  constructor
  · rintro ⟨bytes,u,v,rfl,⟨hs,rfl⟩,hb,rfl⟩
    rw [fromUtf8_eq_ok] at hb
    rw [hb] at hs ⊢
    exact ⟨hs,List.append_nil _⟩
  · rintro ⟨hs,rfl⟩
    exact ⟨utf8Bytes value,textBytes value,[],(List.append_nil _).symm,⟨hs,rfl⟩,
      fromUtf8_eq_ok.mpr rfl,rfl⟩

theorem never_string : PanicsOn view string fun _ => False := by
  rw [string_eq]
  exact never_bytesField.bind_never fun bytes => PanicsOn.check (fromUtf8 bytes)

/-- A kind is read from its number. -/
theorem reads_kind : Reads view kind fun value w => w=[kindToU8 value] := by
  refine (reads_byte.bind (H:=fun b value w => b=kindToU8 value ∧ w=[]) ?_).congr ?_
  · intro b
    split_ifs with h0 h1 h2 h3
    · refine (Reads.pure _).congr fun value w => ?_
      rw [h0]
      cases value <;> simp [kindToU8]
    · refine (Reads.pure _).congr fun value w => ?_
      rw [h1]
      cases value <;> simp [kindToU8]
    · refine (Reads.pure _).congr fun value w => ?_
      rw [h2]
      cases value <;> simp [kindToU8]
    · refine (Reads.pure _).congr fun value w => ?_
      rw [h3]
      cases value <;> simp [kindToU8]
    · refine (Reads.refuse _).congr fun value w => ?_
      cases value <;> simp [kindToU8,h0,h1,h2,h3]
  · intro value w
    constructor
    · rintro ⟨b,u,v,rfl,rfl,rfl,rfl⟩
      rfl
    · rintro rfl
      exact ⟨_,_,[],rfl,rfl,rfl,rfl⟩

theorem never_kind : PanicsOn view kind fun _ => False := by
  refine never_byte.bind_never fun b => ?_
  split_ifs
  · exact PanicsOn.pure _
  · exact PanicsOn.pure _
  · exact PanicsOn.pure _
  · exact PanicsOn.pure _
  · exact PanicsOn.refuse _

/-- An optional field is read behind its flag. -/
theorem reads_optional {α : Type} {field : Read α} {G : α → List UInt8 → Prop}
    (hf : Reads view field G) : Reads view (optional field) (OptionalWord G) := by
  refine (reads_byte.bind (H:=fun b value w =>
    (b=0 ∧ value=none ∧ w=[]) ∨ (b=1 ∧ ∃ a, value=some a ∧ G a w)) ?_).congr ?_
  · intro b
    split_ifs with h0 h1
    · refine (Reads.pure none).congr fun value w => ?_
      simp [h0]
    · refine (hf.map some).congr fun value w => ?_
      simp [h1]
    · refine (Reads.refuse _).congr fun value w => ?_
      simp [h0,h1]
  · intro value w
    cases value with
    | none => simp [OptionalWord]
    | some a => simp [OptionalWord]

/-- An optional field panics exactly behind a set flag. -/
theorem panicsOn_optional {α : Type} {field : Read α} {P : List UInt8 → Prop}
    (hp : PanicsOn view field P) :
    PanicsOn view (optional field) fun v => ∃ rest, v=1::rest ∧ P rest := by
  refine (PanicsOn.bind_of_never (Q:=fun b rest => b=1 ∧ P rest) reads_byte never_byte ?_).congr ?_
  · intro b
    split_ifs with h0 h1
    · refine (PanicsOn.pure _).congr fun v => ?_
      simp [h0]
    · refine (hp.map some).congr fun v => ?_
      simp [h1]
    · refine (PanicsOn.refuse _).congr fun v => ?_
      simp [h1]
  · intro v
    simp

theorem never_optional {α : Type} {field : Read α} (hp : PanicsOn view field fun _ => False) :
    PanicsOn view (optional field) fun _ => False :=
  (panicsOn_optional hp).congr fun v => by simp

/-- A span of time is read from any two words that name it. -/
theorem reads_duration : Reads view duration fun d w =>
    ∃ secs nanos, w=spanBytes secs nanos ∧
      (Duration.new secs nanos : Outcome TransportError Duration)=.ok d := by
  refine (reads_u64.bind fun secs => reads_u32.bind fun nanos =>
    Reads.lift (Duration.new secs nanos)).congr fun d w => ?_
  constructor
  · rintro ⟨secs,_,_,rfl,rfl,nanos,_,_,rfl,rfl,hd,rfl⟩
    exact ⟨secs,nanos,by rw [List.append_nil]; rfl,hd⟩
  · rintro ⟨secs,nanos,rfl,hd⟩
    exact ⟨secs,_,_,rfl,rfl,nanos,_,[],(List.append_nil _).symm,rfl,hd,rfl⟩

/-- Decoding a span panics exactly when its seconds overflow with the carry. -/
theorem panicsOn_duration : PanicsOn view duration fun v =>
    ∃ secs nanos rest, v=spanBytes secs nanos++rest ∧
      2^64 ≤ secs.toNat+nanos.toNat/nanosPerSec := by
  refine (PanicsOn.bind_of_never reads_u64 never_u64 fun secs =>
    PanicsOn.bind_of_never reads_u32 never_u32 fun nanos =>
      PanicsOn.lift (Duration.new secs nanos)).congr fun v => ?_
  constructor
  · rintro ⟨secs,_,_,rfl,rfl,nanos,_,rest,rfl,rfl,hp⟩
    exact ⟨secs,nanos,rest,by rw [spanBytes,List.append_assoc],(Duration.new_eq_panic _ _).mp hp⟩
  · rintro ⟨secs,nanos,rest,rfl,ho⟩
    exact ⟨secs,_,_,by rw [spanBytes,List.append_assoc],rfl,nanos,_,rest,rfl,rfl,
      (Duration.new_eq_panic _ _).mpr ho⟩

/-- Decoding resources panics exactly behind the amounts and a set flag, when
the span of the lifetime does. -/
theorem panicsOn_resources : PanicsOn view resources LifetimeOverflows := by
  have hl (cpu : F64) (memory storage network : UInt64) (gpu : UInt32) :=
    PanicsOn.bind_never (panicsOn_optional panicsOn_duration) fun lifetime =>
      let r : ResourceFragment F64 := ⟨cpu,memory,storage,network,gpu,lifetime⟩
      PanicsOn.bind_never
        (PanicsOn.check (r.validateRequirement.mapError fun _ => TransportError.invalidResources))
        fun _ => PanicsOn.pure r
  refine (PanicsOn.bind_of_never reads_f64 never_f64 fun cpu =>
    PanicsOn.bind_of_never reads_u64 never_u64 fun memory =>
    PanicsOn.bind_of_never reads_u64 never_u64 fun storage =>
    PanicsOn.bind_of_never reads_u64 never_u64 fun network =>
    PanicsOn.bind_of_never reads_u32 never_u32 fun gpu =>
    hl cpu memory storage network gpu).congr fun v => ?_
  constructor
  · rintro ⟨cpu,_,_,rfl,rfl,memory,_,_,rfl,rfl,storage,_,_,rfl,rfl,network,_,_,rfl,rfl,gpu,_,_,rfl,
      rfl,_,rfl,secs,nanos,rest,rfl,ho⟩
    refine ⟨⟨cpu,memory,storage,network,gpu,none⟩,secs,nanos,rest,?_,ho⟩
    simp only [amountBytes,List.append_assoc]
  · rintro ⟨r,secs,nanos,rest,rfl,ho⟩
    refine ⟨r.cpu,_,_,?_,rfl,r.memory,_,_,rfl,rfl,r.storage,_,_,rfl,rfl,r.network,_,_,rfl,rfl,
      r.gpu,_,_,rfl,rfl,_,rfl,secs,nanos,rest,rfl,ho⟩
    simp only [amountBytes,List.append_assoc]

/-- The version is read from its only spelling. -/
theorem reads_version : Reads view version fun _ w => w=[protocolVersion] := by
  refine (reads_byte.bind fun b => Reads.check _).congr fun _ w => ?_
  constructor
  · rintro ⟨b,_,_,rfl,rfl,hb,rfl⟩
    rw [Checks.rejectIf_eq_ok,not_not] at hb
    rw [hb,List.append_nil]
  · rintro rfl
    exact ⟨protocolVersion,_,[],rfl,rfl,rfl,rfl⟩

theorem never_version : PanicsOn view version fun _ => False :=
  never_byte.bind_never fun _ => PanicsOn.check _

variable [UuidCrate]

/-- An identity is read from its only spelling if its text is canonical. -/
theorem reads_identity : Reads view identity fun value w =>
    SpelledIdentity value ∧ w=identityBytes value := by
  refine (reads_string.bind fun id => reads_kind.bind fun kind => Reads.check _).congr
    fun value w => ?_
  constructor
  · rintro ⟨id,_,_,rfl,⟨hs,rfl⟩,kind,_,_,rfl,rfl,hp,rfl⟩
    rw [Checks.mapError_eq_ok,Identity.parse_eq_ok] at hp
    obtain ⟨hc,rfl⟩ := hp
    exact ⟨⟨hs,hc⟩,by rw [List.append_nil]; rfl⟩
  · rintro ⟨⟨hs,hc⟩,rfl⟩
    refine ⟨value.id,_,_,rfl,⟨hs,rfl⟩,value.kind,_,[],(List.append_nil _).symm,rfl,?_,rfl⟩
    rw [Checks.mapError_eq_ok,Identity.parse_eq_ok]
    exact ⟨hc,rfl⟩

theorem never_identity : PanicsOn view identity fun _ => False :=
  never_string.bind_never fun _ => never_kind.bind_never fun _ => PanicsOn.check _

end Reader

/-- The spelling of the fields of a request in front of its resources. -/
def headBytes (head : RequestHead) : List UInt8 :=
  [protocolVersion]++(textBytes head.requestId++
    (optionalBytes identityBytes head.sourceParticipantId++(textBytes head.workload.id++
      (prefixed head.workload.payload++(identityBytes head.nodeId++(textBytes head.runtime.name++
        (textBytes head.runtime.version++identityBytes head.participantId)))))))

/-- The fields of a request in front of its resources can be spelled and are
accepted. -/
structure SpelledHead (head : RequestHead) : Prop where
  /-- The request's name fits its length field. -/
  requestId : ShortText head.requestId
  /-- The claimed identity is accepted, if there is one. -/
  source : ∀ source ∈ head.sourceParticipantId,SpelledIdentity source
  /-- The workload's name fits its length field. -/
  workloadId : ShortText head.workload.id
  /-- The workload's bytes fit their length field. -/
  payload : Short head.workload.payload
  /-- The node is accepted. -/
  nodeId : SpelledIdentity head.nodeId
  /-- The runtime's name fits its length field. -/
  name : ShortText head.runtime.name
  /-- The runtime's version fits its length field. -/
  version : ShortText head.runtime.version
  /-- The participant is accepted. -/
  participantId : SpelledIdentity head.participantId

section Head

open Reader

variable [UuidCrate]

/-- The head of a request is read from its only spelling. -/
theorem reads_requestHead :
    Reads view requestHead fun head w => SpelledHead head ∧ w=headBytes head := by
  have hs : Reads view (optional identity) fun source w =>
      (∀ i ∈ source,SpelledIdentity i) ∧ w=optionalBytes identityBytes source :=
    (reads_optional reads_identity).congr fun _ _ => optionalWord_iff
  refine (reads_version.bind fun _ => reads_string.bind fun requestId => hs.bind fun source =>
    reads_string.bind fun workloadId => reads_bytesField.bind fun payload =>
    reads_identity.bind fun nodeId => reads_string.bind fun name =>
    reads_string.bind fun version => reads_identity.bind fun participantId =>
    Reads.pure _).congr fun head w => ?_
  constructor
  · rintro ⟨_,_,_,rfl,rfl,requestId,_,_,rfl,⟨h1,rfl⟩,source,_,_,rfl,⟨h2,rfl⟩,workloadId,_,_,rfl,
      ⟨h3,rfl⟩,payload,_,_,rfl,⟨h4,rfl⟩,nodeId,_,_,rfl,⟨h5,rfl⟩,name,_,_,rfl,⟨h6,rfl⟩,version,_,_,
      rfl,⟨h7,rfl⟩,participantId,_,_,rfl,⟨h8,rfl⟩,rfl,rfl⟩
    exact ⟨⟨h1,h2,h3,h4,h5,h6,h7,h8⟩,by rw [List.append_nil]; rfl⟩
  · rintro ⟨⟨h1,h2,h3,h4,h5,h6,h7,h8⟩,rfl⟩
    exact ⟨(),_,_,rfl,rfl,head.requestId,_,_,rfl,⟨h1,rfl⟩,head.sourceParticipantId,_,_,rfl,⟨h2,rfl⟩,
      head.workload.id,_,_,rfl,⟨h3,rfl⟩,head.workload.payload,_,_,rfl,⟨h4,rfl⟩,head.nodeId,_,_,rfl,
      ⟨h5,rfl⟩,head.runtime.name,_,_,rfl,⟨h6,rfl⟩,head.runtime.version,_,_,rfl,⟨h7,rfl⟩,
      head.participantId,_,[],(List.append_nil _).symm,⟨h8,rfl⟩,rfl,rfl⟩

theorem never_requestHead : PanicsOn view requestHead fun _ => False :=
  never_version.bind_never fun _ => never_string.bind_never fun _ =>
    (never_optional never_identity).bind_never fun _ => never_string.bind_never fun _ =>
    never_bytesField.bind_never fun _ => never_identity.bind_never fun _ =>
    never_string.bind_never fun _ => never_string.bind_never fun _ =>
    never_identity.bind_never fun _ => PanicsOn.pure _

end Head

end OpenHost
