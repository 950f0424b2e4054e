import OpenHost.Runtime

/-!
# What the table of runtimes answers

Whatever registrations a table has seen, refused ones among them, it answers
for each name and version with the first runtime that was registered for
them. Registrations for other names and versions do not matter, nor does the
order in which they came.
-/

namespace OpenHost.RuntimeRegistry

/-- The name and the version under which a specification is filed. -/
def keyOf (spec : RuntimeSpec) : String×String := (spec.name,spec.version)

/-- Specifications that are filed under the same key are equal. -/
theorem keyOf_injective : Function.Injective keyOf := by
  intro a b h
  cases a
  cases b
  cases h
  rfl

/-- The specification has a name and a version. -/
def isNamed (spec : RuntimeSpec) : Bool := decide (validateSpec spec=.ok ())

/-- The first runtime that was registered for the specification, if it has a
name and a version. -/
theorem firstClaim_claimsOf {calls : List (RuntimeSpec×Runtime)} {spec : RuntimeSpec}
    (h : validateSpec spec=.ok ()) : Registration.firstClaim (keyOf spec) (claimsOf calls)=
      (calls.find? fun call => call.1=spec).map Prod.snd := by
  induction calls with
  | nil => rfl
  | cons call rest ih =>
    have hsplit : claimsOf (call::rest)=claimsOf [call]++claimsOf rest := by
      rw [claimsOf,claimsOf,claimsOf,← List.map_append,← List.filter_append]
      rfl
    rw [Registration.firstClaim] at ih ⊢
    rw [hsplit,List.find?_append,List.find?_cons]
    by_cases hs : call.1=spec
    · have hone : claimsOf [call]=[(keyOf spec,call.2)] := by
        rw [claimsOf,List.filter_singleton,hs,h]
        simp [keyOf,← hs]
      rw [hone,decide_eq_true hs,List.find?_cons,decide_eq_true rfl]
      rfl
    · have hone : (claimsOf [call]).find? (fun c => c.1=keyOf spec)=none := by
        rw [List.find?_eq_none]
        intro c hc
        obtain ⟨filed,hf,rfl⟩ := List.mem_map.mp hc
        obtain rfl := List.mem_singleton.mp (List.mem_of_mem_filter hf)
        rw [decide_eq_true_eq]
        exact fun hk => hs (keyOf_injective hk)
      rw [hone,decide_eq_false hs,Option.none_or]
      exact ih

/-- The keys of the registrations with a name and a version. -/
theorem claimsOf_keys (calls : List (RuntimeSpec×Runtime)) :
    (claimsOf calls).map Prod.fst=((calls.map Prod.fst).filter isNamed).map keyOf := by
  rw [claimsOf,List.map_map,List.filter_map,List.map_map]
  rfl

section Behind

variable (calls : List (RuntimeSpec×Runtime))

/-- What is filed for a specification behind registrations. -/
theorem getElem?_registeringAll {spec : RuntimeSpec} (h : validateSpec spec=.ok ()) :
    (empty.registeringAll calls).runtimes[keyOf spec]?=
      (calls.find? fun call => call.1=spec).map Prod.snd := by
  rw [registeringAll_runtimes,Registration.getElem?_run_claims,firstClaim_claimsOf h]
  rfl

/-- Something is filed exactly if something was registered. -/
theorem mem_registeringAll {spec : RuntimeSpec} (h : validateSpec spec=.ok ()) :
    keyOf spec ∈ (empty.registeringAll calls).runtimes ↔ spec ∈ calls.map Prod.fst := by
  rw [Std.ExtTreeMap.mem_iff_isSome_getElem?,getElem?_registeringAll calls h,Option.isSome_map,
    List.find?_isSome,List.mem_map]
  refine exists_congr fun call => and_congr_right fun _ => ?_
  rw [decide_eq_true_eq]

/-- A look-up finds the first registration of exactly that name and version. -/
theorem resolve_registeringAll (spec : RuntimeSpec) :
    (empty.registeringAll calls).resolve spec=validateSpec spec >>= fun _ =>
      okOr ((calls.find? fun call => call.1=spec).map Prod.snd) .runtimeNotFound := by
  rw [resolve]
  cases h : validateSpec spec with
  | error e => rfl
  | ok u =>
    have hfiled := getElem?_registeringAll calls h
    rw [keyOf] at hfiled
    rw [hfiled]

/-- Runtimes are known exactly under the names and versions registered. -/
theorem contains_registeringAll (spec : RuntimeSpec) :
    (empty.registeringAll calls).contains spec=validateSpec spec >>= fun _ =>
      .ok (decide (spec ∈ calls.map Prod.fst)) := by
  rw [contains]
  cases h : validateSpec spec with
  | error e => rfl
  | ok u =>
    refine congrArg Except.ok (Bool.eq_iff_iff.mpr ?_)
    rw [Std.ExtTreeMap.contains_iff_mem,decide_eq_true_eq]
    exact mem_registeringAll calls h

/-- There are as many runtimes as different names and versions registered. -/
theorem len_registeringAll : (empty.registeringAll calls).len=
    ((calls.map Prod.fst).filter isNamed).dedup.length := by
  rw [len,registeringAll_runtimes]
  refine (Registration.size_run_claims (claimsOf calls)).trans ?_
  rw [claimsOf_keys,List.dedup_map_of_injective keyOf_injective,List.length_map]

/-- A further registration is refused exactly for its name or version, or
because of an earlier one. -/
theorem register_registeringAll (spec : RuntimeSpec) (runtime : Runtime) :
    ((empty.registeringAll calls).register spec runtime).map (fun _ => ())=
      validateSpec spec >>= fun _ =>
        rejectIf (spec ∈ calls.map Prod.fst) .duplicateRuntime := by
  rcases register_cases (empty.registeringAll calls) spec runtime with
    ⟨e,hv,hr⟩|⟨hv,⟨hm,hr⟩|⟨hm,registered,hr,_⟩⟩
  · rw [hr,hv]
    rfl
  · rw [hr,hv]
    exact (if_pos ((mem_registeringAll calls hv).mp hm)).symm
  · rw [hr,hv]
    exact (if_neg fun h => hm ((mem_registeringAll calls hv).mpr h)).symm

/-- Nothing is filed without a name and a version. -/
theorem getElem?_of_not_named (registry : RuntimeRegistry) {spec : RuntimeSpec}
    (h : validateSpec spec≠.ok ()) : registry.runtimes[keyOf spec]?=none :=
  Std.ExtTreeMap.getElem?_eq_none fun hm => h (registry.named _ hm)

/-- Tables with the same runtimes are the same. -/
theorem eq_of_runtimes {registry other : RuntimeRegistry}
    (h : registry.runtimes=other.runtimes) : registry=other := by
  cases registry
  cases other
  cases h
  rfl

/-- Registrations that come in the same order for each name and version make
the same table. -/
theorem registeringAll_congr {others : List (RuntimeSpec×Runtime)}
    (h : ∀ spec,(calls.filter fun call => call.1=spec)=others.filter fun call => call.1=spec) :
    empty.registeringAll calls=empty.registeringAll others := by
  refine eq_of_runtimes (Std.ExtTreeMap.ext_getElem? fun key => ?_)
  have hkey : key=keyOf ⟨key.1,key.2⟩ := rfl
  rw [hkey]
  by_cases hv : validateSpec ⟨key.1,key.2⟩=.ok ()
  · rw [getElem?_registeringAll calls hv,getElem?_registeringAll others hv,← List.head?_filter,h,
      List.head?_filter]
  · rw [getElem?_of_not_named _ hv,getElem?_of_not_named _ hv]

/-- Behind any registrations, refused ones among them, a table resolves each
name and version to the first runtime registered for exactly them and knows no
others, counts them, refuses the second registration of each, and is the same
whatever the order between different names and versions. -/
theorem table_exact :
    (∀ spec,(empty.registeringAll calls).resolve spec=validateSpec spec >>= fun _ =>
      okOr ((calls.find? fun call => call.1=spec).map Prod.snd) .runtimeNotFound) ∧
    (∀ spec,(empty.registeringAll calls).contains spec=validateSpec spec >>= fun _ =>
      .ok (decide (spec ∈ calls.map Prod.fst))) ∧
    (empty.registeringAll calls).len=((calls.map Prod.fst).filter isNamed).dedup.length ∧
    (∀ spec runtime,((empty.registeringAll calls).register spec runtime).map (fun _ => ())=
      validateSpec spec >>= fun _ => rejectIf (spec ∈ calls.map Prod.fst) .duplicateRuntime) ∧
    ∀ others : List (RuntimeSpec×Runtime),
      (∀ spec,(calls.filter fun call => call.1=spec)=others.filter fun call => call.1=spec) →
        empty.registeringAll calls=empty.registeringAll others :=
  ⟨resolve_registeringAll calls,contains_registeringAll calls,len_registeringAll calls,
    register_registeringAll calls,fun _ h => registeringAll_congr calls h⟩

end Behind

end OpenHost.RuntimeRegistry
