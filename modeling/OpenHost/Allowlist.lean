import OpenHost.ClientAuthorization

/-!
# What the table of grants holds

The table is built by one loop that grows two maps in step. As long as the
certificates are distinct the loop runs through: each participant has its
certificates in the order of the grants. The first certificate that occurs
again stops the loop, and the earlier grant of it alone decides the error.
-/

namespace OpenHost

/-- The certificates granted to a participant, in the order of the grants. -/
def certificatesOf (clients : List AuthorizedClientCertificate) (id : String) : List (List UInt8) :=
  (clients.filter fun client => client.participantId.id=id).map
    AuthorizedClientCertificate.certificateDer

/-- Every participant with a grant is listed with its certificates in order,
and no other participant is listed. -/
def Lists (entered : List AuthorizedClientCertificate) (allowlist : ClientAllowlist) : Prop :=
  ∀ id,allowlist[id]?=
    if certificatesOf entered id=[] then none else some (certificatesOf entered id)

section Loop

variable {entered : List AuthorizedClientCertificate} {allowlist : ClientAllowlist}
  {owners : CertificateOwners} {client : AuthorizedClientCertificate}

/-- One more grant is the last certificate of its participant. -/
theorem certificatesOf_concat (entered : List AuthorizedClientCertificate)
    (client : AuthorizedClientCertificate) (id : String) :
    certificatesOf (entered++[client]) id=
      certificatesOf entered id++
        if client.participantId.id=id then [client.certificateDer] else [] := by
  rw [certificatesOf,List.filter_append,List.map_append]
  by_cases h : client.participantId.id=id
  · simp [certificatesOf,h]
  · simp [certificatesOf,h]

/-- The entry of a participant, where a missing entry is an empty one. -/
theorem Lists.getD (h : Lists entered allowlist) (id : String) :
    (allowlist[id]?).getD []=certificatesOf entered id := by
  rw [h id]
  split
  · next hn => exact hn.symm
  · rfl

/-- Entering a grant lists its certificate behind the others. -/
theorem Lists.push (h : Lists entered allowlist) (client : AuthorizedClientCertificate) :
    Lists (entered++[client]) (allowlist.push client) := by
  intro id
  rw [certificatesOf_concat,ClientAllowlist.push,OrderedMap.getElem?_insert_eq,h.getD]
  by_cases he : client.participantId.id=id
  · have hne : certificatesOf entered id++[client.certificateDer]≠[] := by simp
    rw [if_pos he,if_pos he,if_neg hne,he]
  · rw [if_neg he,if_neg he,List.append_nil]
    exact h id

/-- A certificate has no owner exactly when it was not entered. -/
theorem Recorded.owner_eq_none (h : Recorded entered allowlist owners) :
    owners[client.certificateDer]?=none ↔
      client.certificateDer∉entered.map AuthorizedClientCertificate.certificateDer := by
  rw [Option.eq_none_iff_forall_ne_some]
  constructor
  · intro hn hm
    obtain ⟨c,hc,he⟩ := List.mem_map.mp hm
    exact hn c.participantId.id ((h.owned _ _).mpr ⟨c,hc,rfl,he⟩)
  · intro hn id ho
    obtain ⟨c,hc,_,he⟩ := (h.owned _ _).mp ho
    exact hn (List.mem_map.mpr ⟨c,hc,he⟩)

/-- The loop enters grants of distinct certificates and goes on with the
rest. -/
theorem allowlistLoop_append {clients : List AuthorizedClientCertificate}
    (hr : Recorded entered allowlist owners) (hl : Lists entered allowlist)
    (hd : ((entered++clients).map AuthorizedClientCertificate.certificateDer).Nodup) :
    ∃ allowlist' owners',Recorded (entered++clients) allowlist' owners' ∧
      Lists (entered++clients) allowlist' ∧
      ∀ rest,allowlistLoop (clients++rest) allowlist owners=
        allowlistLoop rest allowlist' owners' := by
  induction clients generalizing entered allowlist owners with
  | nil =>
    rw [List.append_nil]
    exact ⟨allowlist,owners,hr,hl,fun _ => rfl⟩
  | cons client clients ih =>
    have hsplit : entered++client::clients=entered++[client]++clients := by simp
    rw [hsplit] at hd ⊢
    have hnew : client.certificateDer∉
        entered.map AuthorizedClientCertificate.certificateDer := by
      intro hm
      rw [List.map_append,List.map_append,List.map_singleton] at hd
      have hleft := (List.nodup_append.mp hd).1
      exact (List.nodup_append.mp hleft).2.2 _ hm _ List.mem_cons_self rfl
    have hnone := hr.owner_eq_none.mpr hnew
    obtain ⟨allowlist',owners',hr',hl',hloop⟩ := ih (hr.push hnone) (hl.push client) hd
    refine ⟨allowlist',owners',hr',hl',fun rest => ?_⟩
    rw [List.cons_append,allowlistLoop,hnone]
    exact hloop rest

end Loop

section Build

/-- Nothing was granted before the loop. -/
theorem recorded_empty : Recorded [] ∅ ∅ := ⟨by simp [Grants],by simp [Grants]⟩

/-- Nothing is listed before the loop. -/
theorem lists_empty : Lists [] ∅ := fun id => by simp [certificatesOf]

/-- Distinct certificates are all entered. -/
theorem buildClientAllowlist_of_distinct {clients : List AuthorizedClientCertificate}
    (hne : clients≠[]) (hd : (clients.map AuthorizedClientCertificate.certificateDer).Nodup) :
    ∃ allowlist,buildClientAllowlist clients=.ok allowlist ∧ Lists clients allowlist := by
  obtain ⟨allowlist,owners,_,hl,hloop⟩ := allowlistLoop_append recorded_empty lists_empty hd
  have h := hloop []
  rw [List.append_nil,allowlistLoop] at h
  rw [buildClientAllowlist,if_neg (by simpa using hne)]
  exact ⟨allowlist,h,hl⟩

/-- The first certificate that occurs again stops the loop, with an error
that the earlier grant of it decides. -/
theorem buildClientAllowlist_of_repeated {before after : List AuthorizedClientCertificate}
    {client earlier : AuthorizedClientCertificate}
    (hd : (before.map AuthorizedClientCertificate.certificateDer).Nodup) (hm : earlier ∈ before)
    (he : earlier.certificateDer=client.certificateDer) :
    buildClientAllowlist (before++client::after)=
      .error (if earlier.participantId.id≠client.participantId.id then
        .certificateAssignedToMultipleIdentities else .duplicateAuthorizedClientCertificate) := by
  obtain ⟨allowlist,owners,hr,_,hloop⟩ := allowlistLoop_append recorded_empty lists_empty hd
  have howner : owners[client.certificateDer]?=some earlier.participantId.id :=
    (hr.owned _ _).mpr ⟨earlier,hm,rfl,he⟩
  rw [buildClientAllowlist,if_neg (by simp),hloop,allowlistLoop,howner]
  dsimp only
  split <;> rfl

/-- Where certificates repeat, one of them is the first to do so. -/
theorem exists_first_repeated {clients : List AuthorizedClientCertificate}
    (h : ¬(clients.map AuthorizedClientCertificate.certificateDer).Nodup) :
    ∃ (before : List AuthorizedClientCertificate) (client : AuthorizedClientCertificate)
        (after : List AuthorizedClientCertificate) (earlier : AuthorizedClientCertificate),
      clients=before++client::after ∧
      (before.map AuthorizedClientCertificate.certificateDer).Nodup ∧ earlier ∈ before ∧
      earlier.certificateDer=client.certificateDer := by
  induction clients using List.reverseRecOn with
  | nil => exact (h List.nodup_nil).elim
  | append_singleton clients last ih =>
    by_cases hd : (clients.map AuthorizedClientCertificate.certificateDer).Nodup
    · have hm : last.certificateDer ∈ clients.map AuthorizedClientCertificate.certificateDer := by
        by_contra hn
        rw [List.map_append,List.map_singleton] at h
        exact h (List.nodup_append.mpr ⟨hd,List.nodup_singleton _,by
          intro a ha b hb hab
          rw [List.mem_singleton] at hb
          exact hn (hb ▸ hab ▸ ha)⟩)
      obtain ⟨earlier,hearlier,he⟩ := List.mem_map.mp hm
      exact ⟨clients,last,[],earlier,rfl,hd,hearlier,he⟩
    · obtain ⟨before,client,after,earlier,rfl,hrest⟩ := ih hd
      exact ⟨before,client,after++[last],earlier,by simp,hrest⟩

/-- Where certificates repeat, the first to do so decides the error. -/
theorem buildClientAllowlist_repeated (clients : List AuthorizedClientCertificate)
    (h : ¬(clients.map AuthorizedClientCertificate.certificateDer).Nodup) :
    ∃ (before : List AuthorizedClientCertificate) (client : AuthorizedClientCertificate)
        (after : List AuthorizedClientCertificate) (earlier : AuthorizedClientCertificate),
      clients=before++client::after ∧
      (before.map AuthorizedClientCertificate.certificateDer).Nodup ∧ earlier ∈ before ∧
      earlier.certificateDer=client.certificateDer ∧
      buildClientAllowlist clients=
        .error (if earlier.participantId.id≠client.participantId.id then
          TransportError.certificateAssignedToMultipleIdentities
        else TransportError.duplicateAuthorizedClientCertificate) := by
  obtain ⟨before,client,after,earlier,rfl,hd,hm,he⟩ := exists_first_repeated h
  exact ⟨before,client,after,earlier,rfl,hd,hm,he,buildClientAllowlist_of_repeated hd hm he⟩

/-- Distinct certificates are distinct among those of one participant. -/
theorem certificatesOf_nodup {clients : List AuthorizedClientCertificate}
    (hd : (clients.map AuthorizedClientCertificate.certificateDer).Nodup) (id : String) :
    (certificatesOf clients id).Nodup :=
  hd.sublist (List.filter_sublist.map _)

/-- The table exists exactly for a non-empty list of grants with distinct
certificates. It lists the certificates of each participant once, in the
order of the grants, and each certificate under one participant. Otherwise
the first certificate to occur again decides the error. -/
theorem buildClientAllowlist_exact (clients : List AuthorizedClientCertificate) :
    ((∃ allowlist,buildClientAllowlist clients=.ok allowlist) ↔
      clients≠[] ∧ (clients.map AuthorizedClientCertificate.certificateDer).Nodup) ∧
    (∀ allowlist,buildClientAllowlist clients=.ok allowlist →
      Lists clients allowlist ∧ (∀ id,(certificatesOf clients id).Nodup) ∧
      ∀ id id' certificate,certificate ∈ certificatesOf clients id →
        certificate ∈ certificatesOf clients id' → id=id') ∧
    (¬(clients.map AuthorizedClientCertificate.certificateDer).Nodup →
      ∃ before client after earlier,clients=before++client::after ∧
        (before.map AuthorizedClientCertificate.certificateDer).Nodup ∧ earlier ∈ before ∧
        earlier.certificateDer=client.certificateDer ∧
        buildClientAllowlist clients=
          .error (if earlier.participantId.id≠client.participantId.id then
            .certificateAssignedToMultipleIdentities
          else .duplicateAuthorizedClientCertificate)) := by
  have hrepeated := buildClientAllowlist_repeated clients
  have hok : ∀ allowlist,buildClientAllowlist clients=.ok allowlist →
      clients≠[] ∧ (clients.map AuthorizedClientCertificate.certificateDer).Nodup := by
    intro allowlist h
    constructor
    · rintro rfl
      cases h
    · by_contra hn
      obtain ⟨_,_,_,_,_,_,_,_,herror⟩ := hrepeated hn
      rw [h] at herror
      cases herror
  refine ⟨⟨fun ⟨allowlist,h⟩ => hok allowlist h,?_⟩,?_,hrepeated⟩
  · rintro ⟨hne,hd⟩
    obtain ⟨allowlist,h,_⟩ := buildClientAllowlist_of_distinct hne hd
    exact ⟨allowlist,h⟩
  · intro allowlist h
    obtain ⟨hne,hd⟩ := hok allowlist h
    obtain ⟨built,hbuilt,hlists⟩ := buildClientAllowlist_of_distinct hne hd
    rw [h,Except.ok.injEq] at hbuilt
    subst hbuilt
    refine ⟨hlists,certificatesOf_nodup hd,?_⟩
    intro id id' certificate hm hm'
    obtain ⟨c,hc,he⟩ := List.mem_map.mp hm
    obtain ⟨c',hc',he'⟩ := List.mem_map.mp hm'
    rw [List.mem_filter,decide_eq_true_eq] at hc hc'
    have hsame : c=c' := List.inj_on_of_nodup_map hd hc.1 hc'.1 (he.trans he'.symm)
    rw [← hc.2,← hc'.2,hsame]

end Build

end OpenHost
