import OpenHost.Outcome

/-!
# Identities

Participants, logical nodes, leases and virtual machines are named by the
text of a version-4 UUID together with a kind. The UUID parser is a
dependency of the program; it enters as a parameter that carries the two
documented facts used here. They pin down `parse`: the accepted texts are
exactly the canonical ones, whatever the parser does elsewhere.
-/

namespace OpenHost

/-- What an identity names. -/
inductive Kind where
  | participant
  | logicalNode
  | lease
  | virtualMachine
  deriving DecidableEq

/-- Reasons for which a text is not an identity. -/
inductive IdentityError where
  | empty
  | invalidUuid
  | nonCanonical
  | wrongVersion
  deriving DecidableEq

/-- One lower-case hexadecimal digit. -/
def isLowerHex (c : Char) : Bool := '0' ≤ c && c ≤ '9' || 'a' ≤ c && c ≤ 'f'

/-- The 36-character lower-case hyphenated form, digits grouped 8-4-4-4-12. -/
def isHyphenated (s : String) : Bool :=
  s.toList.length==36 && s.toList.zipIdx.all fun (c,i) =>
    if i ∈ [8,13,18,23] then c== '-' else isLowerHex c

/-- The first digit of the third group, which spells the version. -/
def versionDigit (s : String) : Option Char := s.toList[14]?

/-- A canonical version-4 UUID text. -/
def IsCanonical (s : String) : Prop := isHyphenated s=true ∧ versionDigit s=some '4'

instance (s : String) : Decidable (IsCanonical s) := inferInstanceAs (Decidable (_ ∧ _))

/-- The calls made to the UUID library, with its documented behaviour on
the hyphenated form: printing is hyphenated lower case, parsing that form
is the inverse of printing, and the version is the digit that spells it. -/
class UuidCrate where
  /-- Parsed UUID values. -/
  Uuid : Type
  /-- Parse any spelling the library knows. -/
  parseStr : String → Option Uuid
  /-- Print a value. -/
  toString : Uuid → String
  /-- Version number of a value. -/
  getVersionNum : Uuid → ℕ
  /-- Parsing and then printing returns the input exactly for the hyphenated form. -/
  parseStr_toString (s : String) :
    (∃ u, parseStr s=some u ∧ toString u=s) ↔ isHyphenated s=true
  /-- The version of a hyphenated text is 4 exactly when its digit says so. -/
  getVersionNum_eq_four (s : String) (u : Uuid) : parseStr s=some u → toString u=s →
    (getVersionNum u=4 ↔ versionDigit s=some '4')

/-- A named object and what it is. -/
@[ext] structure Identity where
  /-- Text of the UUID. -/
  id : String
  /-- What the text names. -/
  kind : Kind
  deriving DecidableEq

namespace Identity

/-- The identity for a UUID text that the generator has just returned. -/
def new (uuid : String) (kind : Kind) : Identity := ⟨uuid,kind⟩

variable [UuidCrate]

/-- Accept a text as an identity of the given kind. -/
def parse (id : String) (kind : Kind) : Except IdentityError Identity :=
  if id="" then .error .empty
  else match UuidCrate.parseStr id with
    | none => .error .invalidUuid
    | some uuid =>
      if UuidCrate.toString uuid≠id then .error .nonCanonical
      else if UuidCrate.getVersionNum uuid≠4 then .error .wrongVersion
      else .ok ⟨id,kind⟩

/-- Check the text of an identity; its kind is not looked at. -/
def validate (identity : Identity) : Except IdentityError Unit :=
  (parse identity.id identity.kind).map fun _ => ()

/-- Exactly the canonical version-4 texts are accepted, and the text is kept. -/
theorem parse_eq_ok {id : String} {kind : Kind} {identity : Identity} :
    parse id kind=.ok identity ↔ IsCanonical id ∧ identity=⟨id,kind⟩ := by
  have hshape := UuidCrate.parseStr_toString id
  rw [parse]
  by_cases he : id=""
  · have hn : ¬IsCanonical id := by
      rw [he]
      decide
    rw [if_pos he]
    simp [hn]
  rw [if_neg he]
  cases hp : UuidCrate.parseStr id with
  | none =>
    have hn : ¬IsCanonical id := by
      intro hc
      obtain ⟨u,hu,_⟩ := hshape.mpr hc.1
      rw [hp] at hu
      cases hu
    simp [hn]
  | some u =>
    dsimp only
    by_cases ht : UuidCrate.toString u=id
    · have hh : isHyphenated id=true := hshape.mp ⟨u,hp,ht⟩
      have hv := UuidCrate.getVersionNum_eq_four id u hp ht
      rw [if_neg (by simpa using ht)]
      by_cases hf : UuidCrate.getVersionNum u=4
      · have hc : IsCanonical id := ⟨hh,hv.mp hf⟩
        simp [hf,hc,eq_comm]
      · have hn : ¬IsCanonical id := fun hc => hf (hv.mpr hc.2)
        simp [hf,hn]
    · have hn : ¬IsCanonical id := by
        intro hc
        obtain ⟨v,hv,hvt⟩ := hshape.mpr hc.1
        rw [hp,Option.some.injEq] at hv
        exact ht (hv ▸ hvt)
      simp [ht,hn]

/-- A canonical text is accepted. -/
theorem parse_of_canonical {id : String} (h : IsCanonical id) (kind : Kind) :
    parse id kind=.ok ⟨id,kind⟩ := parse_eq_ok.mpr ⟨h,rfl⟩

/-- Every other text is refused. -/
theorem parse_of_not_canonical {id : String} (h : ¬IsCanonical id) (kind : Kind) :
    ∃ e, parse id kind=.error e := by
  cases hp : parse id kind with
  | error e => exact ⟨e,rfl⟩
  | ok identity => exact (h (parse_eq_ok.mp hp).1).elim

/-- Validation passes exactly on canonical texts. -/
@[simp] theorem validate_isOk (identity : Identity) :
    identity.validate.isOk=true ↔ IsCanonical identity.id := by
  rw [validate]
  by_cases h : IsCanonical identity.id
  · simp only [parse_of_canonical h,h,iff_true]
    rfl
  · obtain ⟨e,he⟩ := parse_of_not_canonical h identity.kind
    simp only [he,h,iff_false]
    exact Bool.false_ne_true

end Identity

/-- The texts that the UUID generator returns during one call: the first `n`
are canonical, pairwise distinct and known to nobody before the call. -/
structure FreshIds (known : String → Prop) (n : ℕ) (uuids : ℕ → String) : Prop where
  /-- Generated texts are canonical version-4 texts. -/
  canonical : ∀ i<n,IsCanonical (uuids i)
  /-- No text is generated twice. -/
  distinct : ∀ i<n,∀ j<n,uuids i=uuids j → i=j
  /-- No text names anything yet. -/
  fresh : ∀ i<n,¬known (uuids i)

/-- Fewer texts are fresh if more are. -/
theorem FreshIds.weaken {known : String → Prop} {n m : ℕ} {uuids : ℕ → String}
    (h : FreshIds known m uuids) (hle : n ≤ m) : FreshIds known n uuids where
  canonical i hi := h.canonical i (hi.trans_le hle)
  distinct i hi j hj := h.distinct i (hi.trans_le hle) j (hj.trans_le hle)
  fresh i hi := h.fresh i (hi.trans_le hle)

/-- A call that draws no text needs nothing of the generator. -/
theorem FreshIds.zero (known : String → Prop) (uuids : ℕ → String) : FreshIds known 0 uuids := by
  refine ⟨?_,?_,?_⟩
  all_goals
    intro i hi
    omega

/-- Value of a hexadecimal digit. -/
def hexValue (c : Char) : ℕ := if c ≤ '9' then c.toNat-48 else c.toNat-87

/-- Only the digit four has the value four. -/
theorem hexValue_eq_four {c : Char} (h : isLowerHex c=true) : hexValue c=4 ↔ c= '4' := by
  constructor
  · intro hv
    have hn : c.toNat=52 := by
      simp only [isLowerHex,Bool.or_eq_true,Bool.and_eq_true,decide_eq_true_eq,Char.le_def,
        UInt32.le_iff_toNat_le] at h
      simp only [hexValue,Char.le_def,UInt32.le_iff_toNat_le] at hv
      have h0 : '0'.val.toNat=48 := rfl
      have h9 : '9'.val.toNat=57 := rfl
      have ha : 'a'.val.toNat=97 := rfl
      have hc : c.toNat=c.val.toNat := rfl
      split at hv <;> omega
    exact Char.ext (UInt32.toNat_inj.mp hn)
  · rintro rfl
    rfl

/-- A digit position of a hyphenated text holds a hexadecimal digit. -/
theorem isLowerHex_versionDigit {s : String} {c : Char} (h : isHyphenated s=true)
    (hc : versionDigit s=some c) : isLowerHex c=true := by
  simp only [isHyphenated,Bool.and_eq_true,List.all_eq_true] at h
  have hm : (c,14) ∈ s.toList.zipIdx := by
    rw [List.mem_zipIdx_iff_getElem?]
    exact hc
  simpa using h.2 (c,14) hm

/-- A UUID library that knows the hyphenated form and no other spelling. -/
@[reducible] def hyphenatedUuid : UuidCrate where
  Uuid := {s : String // isHyphenated s=true}
  parseStr s := if h : isHyphenated s=true then some ⟨s,h⟩ else none
  toString u := u.val
  getVersionNum u := ((versionDigit u.val).map hexValue).getD 0
  parseStr_toString s := by
    constructor
    · rintro ⟨u,_,rfl⟩
      exact u.property
    · intro h
      exact ⟨⟨s,h⟩,dif_pos h,rfl⟩
  getVersionNum_eq_four s u hp ht := by
    subst ht
    cases hd : versionDigit u.val with
    | none => simp
    | some c =>
      simpa using hexValue_eq_four (isLowerHex_versionDigit u.property hd)

end OpenHost
