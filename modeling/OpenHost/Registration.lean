import OpenHost.OrderedMap

/-!
# Runs of commands on an ordered map

A store is used through commands that name one key each: claim the key for a
value unless it is taken, assign a value, or remove what is there. What a run
of commands leaves under a key is decided by the commands for that key alone,
in their order, and the commands for other keys may come in any order.
-/

namespace OpenHost.Registration

variable {κ υ : Type}

/-- A command to a store. -/
inductive Command (κ υ : Type) where
  /-- Store the value unless the key is taken. -/
  | claim (key : κ) (value : υ)
  /-- Store the value in any case. -/
  | assign (key : κ) (value : υ)
  /-- Remove what is stored. -/
  | remove (key : κ)

/-- The key that the command names. -/
def Command.key : Command κ υ → κ
  | claim k _ => k
  | assign k _ => k
  | remove k => k

/-- What the command makes of what is stored under its key. -/
def Command.cell (held : Option υ) : Command κ υ → Option υ
  | claim _ v => held.or (some v)
  | assign _ v => some v
  | remove _ => none

/-- The command does not depend on what is stored. -/
def Command.isWrite : Command κ υ → Bool
  | claim _ _ => false
  | assign _ _ => true
  | remove _ => true

/-- The command removes what is stored. -/
def Command.isRemove : Command κ υ → Bool
  | claim _ _ => false
  | assign _ _ => false
  | remove _ => true

/-- The value that the command claims the key for. -/
def Command.claimed : Command κ υ → Option υ
  | claim _ v => some v
  | assign _ _ => none
  | remove _ => none

/-- The first value that is claimed under the key. -/
def firstClaim [DecidableEq κ] (k : κ) (claims : List (κ×υ)) : Option υ :=
  (claims.find? fun c => c.1=k).map Prod.snd

section Store

variable [Ord κ] [Std.TransOrd κ] [Std.LawfulEqOrd κ] [DecidableEq κ]

/-- Carry a command out. -/
def apply (m : Std.ExtTreeMap κ υ) : Command κ υ → Std.ExtTreeMap κ υ
  | .claim k v => if k ∈ m then m else m.insert k v
  | .assign k v => m.insert k v
  | .remove k => m.erase k

/-- Carry commands out in order. -/
def run (m : Std.ExtTreeMap κ υ) (commands : List (Command κ υ)) : Std.ExtTreeMap κ υ :=
  commands.foldl apply m

/-- A command changes what is stored under its own key, and nothing else. -/
theorem getElem?_apply (m : Std.ExtTreeMap κ υ) (command : Command κ υ) (k : κ) :
    (apply m command)[k]?=if command.key=k then command.cell m[k]? else m[k]? := by
  cases command with
  | claim j v =>
    rw [apply,Command.key,Command.cell]
    split
    · next hm =>
      by_cases hj : j=k
      · subst hj
        obtain ⟨held,hs⟩ :=
          Option.isSome_iff_exists.mp (Std.ExtTreeMap.mem_iff_isSome_getElem?.mp hm)
        rw [if_pos rfl,hs]
        rfl
      · rw [if_neg hj]
    · next hm =>
      rw [OrderedMap.getElem?_insert_eq]
      by_cases hj : j=k
      · subst hj
        rw [if_pos rfl,if_pos rfl,Std.ExtTreeMap.getElem?_eq_none hm]
        rfl
      · rw [if_neg hj,if_neg hj]
  | assign j v => rw [apply,OrderedMap.getElem?_insert_eq,Command.key,Command.cell]
  | remove j => rw [apply,OrderedMap.getElem?_erase_eq,Command.key,Command.cell]

/-- What a run leaves under a key is decided by the commands for that key. -/
theorem getElem?_run (m : Std.ExtTreeMap κ υ) (commands : List (Command κ υ)) (k : κ) :
    (run m commands)[k]?=(commands.filter fun c => c.key=k).foldl Command.cell m[k]? := by
  induction commands generalizing m with
  | nil => rfl
  | cons command rest ih =>
    have hrest := ih (apply m command)
    rw [getElem?_apply] at hrest
    rw [run,List.foldl_cons]
    rw [run] at hrest
    rw [hrest,List.filter_cons]
    by_cases hk : command.key=k
    · rw [if_pos hk,if_pos (decide_eq_true hk),List.foldl_cons]
    · rw [if_neg hk,if_neg (by simpa using hk)]

omit [Std.LawfulEqOrd κ] [DecidableEq κ] in
/-- A run of one list behind another. -/
theorem run_append (m : Std.ExtTreeMap κ υ) (commands others : List (Command κ υ)) :
    run m (commands++others)=run (run m commands) others := List.foldl_append

omit [Ord κ] [Std.TransOrd κ] [Std.LawfulEqOrd κ] in
/-- Claims leave what is stored, or else the first value that was claimed. -/
theorem foldl_cell_claims (held : Option υ) (claims : List (κ×υ)) (k : κ) :
    ((claims.map fun c => Command.claim c.1 c.2).filter fun c => c.key=k).foldl Command.cell held=
      held.or (firstClaim k claims) := by
  induction claims generalizing held with
  | nil => simp [firstClaim]
  | cons claim rest ih =>
    rw [List.map_cons,List.filter_cons,firstClaim,List.find?_cons]
    have hkey : (Command.claim claim.1 claim.2).key=claim.1 := rfl
    rw [hkey]
    by_cases hk : claim.1=k
    · rw [if_pos (decide_eq_true hk),List.foldl_cons,ih,decide_eq_true hk]
      cases held with
      | none => rfl
      | some v => rfl
    · rw [if_neg (by simpa using hk),ih,decide_eq_false hk]
      rfl

omit [Ord κ] [Std.TransOrd κ] [Std.LawfulEqOrd κ] [DecidableEq κ] in
/-- Commands that do not depend on what is stored leave what the last of them
makes. -/
theorem foldl_cell_writes (held : Option υ) {commands : List (Command κ υ)}
    (hw : ∀ c ∈ commands,c.isWrite=true) :
    commands.foldl Command.cell held=
      (commands.getLast?.map fun c => c.cell none).getD held := by
  rcases List.eq_nil_or_concat commands with rfl|⟨before,last,rfl⟩
  · rfl
  · have hlast := hw last (by simp)
    rw [List.concat_eq_append,List.foldl_concat,List.getLast?_concat,Option.map_some,
      Option.getD_some]
    cases last with
    | claim j v => cases hlast
    | assign j v => rfl
    | remove j => rfl

/-- Behind commands that do not depend on what is stored, the last one for a
key decides. -/
theorem getElem?_run_writes (m : Std.ExtTreeMap κ υ) {commands : List (Command κ υ)}
    (hw : ∀ c ∈ commands,c.isWrite=true) (k : κ) : (run m commands)[k]?=
      ((commands.filter fun c => c.key=k).getLast?.map fun c => c.cell none).getD m[k]? := by
  rw [getElem?_run,foldl_cell_writes _ fun c hc => hw c (List.mem_of_mem_filter hc)]

omit [Ord κ] [Std.TransOrd κ] [Std.LawfulEqOrd κ] [DecidableEq κ] in
/-- Claims and removals on nothing leave the first value that was claimed
behind the last removal. -/
theorem foldl_cell_removals {commands : List (Command κ υ)}
    (hc : ∀ c ∈ commands,c.claimed.isSome=true ∨ c.isRemove=true) :
    commands.foldl Command.cell none=
      (commands.rtakeWhile fun c => !c.isRemove).findSome? Command.claimed := by
  induction commands using List.reverseRecOn with
  | nil => rfl
  | append_singleton before last ih =>
    have hlast := hc last (by simp)
    rw [List.foldl_concat,ih fun c h => hc c (List.mem_append_left _ h)]
    cases last with
    | claim j v =>
      rw [List.rtakeWhile_concat_pos _ _ _ rfl,List.findSome?_append,Command.cell]
      rfl
    | assign j v => rcases hlast with h|h <;> cases h
    | remove j =>
      rw [List.rtakeWhile_concat_neg _ _ _ (by simp [Command.isRemove])]
      rfl

/-- Behind claims alone, the first value that was claimed is found. -/
theorem getElem?_run_claims (m : Std.ExtTreeMap κ υ) (claims : List (κ×υ)) (k : κ) :
    (run m (claims.map fun c => .claim c.1 c.2))[k]?=m[k]?.or (firstClaim k claims) := by
  rw [getElem?_run,foldl_cell_claims]

/-- The keys found behind claims are those that were stored or claimed. -/
theorem mem_run_claims {m : Std.ExtTreeMap κ υ} {claims : List (κ×υ)} {k : κ} :
    k ∈ run m (claims.map fun c => .claim c.1 c.2) ↔ k ∈ m ∨ k ∈ claims.map Prod.fst := by
  rw [Std.ExtTreeMap.mem_iff_isSome_getElem?,getElem?_run_claims,Option.isSome_or,
    Bool.or_eq_true,← Std.ExtTreeMap.mem_iff_isSome_getElem?,firstClaim,Option.isSome_map]
  refine or_congr_right ?_
  rw [List.find?_isSome,List.mem_map]
  refine exists_congr fun c => and_congr_right fun _ => ?_
  rw [decide_eq_true_eq]

/-- Behind claims on an empty store, there are as many entries as keys that
were claimed. -/
theorem size_run_claims (claims : List (κ×υ)) :
    (run (∅ : Std.ExtTreeMap κ υ) (claims.map fun c => .claim c.1 c.2)).size=
      (claims.map Prod.fst).dedup.length := by
  have hnodup (m : Std.ExtTreeMap κ υ) : m.keys.Nodup :=
    Std.ExtTreeMap.distinct_keys.imp fun h he => h (Std.compare_eq_iff_eq.mpr he)
  rw [← Std.ExtTreeMap.length_keys]
  refine ((List.perm_ext_iff_of_nodup (hnodup _) (List.nodup_dedup _)).mpr fun k => ?_).length_eq
  rw [List.mem_dedup,Std.ExtTreeMap.mem_keys,mem_run_claims]
  exact or_iff_right Std.ExtTreeMap.not_mem_empty

end Store

end OpenHost.Registration
