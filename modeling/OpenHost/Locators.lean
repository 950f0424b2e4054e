import OpenHost.MutualTls
import OpenHost.TextParsing

/-!
# The server that is dialled is the one that must prove its name

A locator is an address with a port, or a host, a colon and a port. Resolving
it to addresses and naming its server are two routines that both read it, one
of them in the standard library. They agree on what it designates, up to a pair
of brackets around a host: a client connects to an address of the host whose
name it asks the server to prove.
-/

namespace OpenHost

open TextParsing

/-- Name that a server must prove. -/
inductive ServerName (Ip Dns : Type) where
  /-- An address. -/
  | ipAddress (address : Ip)
  /-- A domain name. -/
  | dnsName (name : Dns)

/-- How addresses and names are spelled, and which addresses hosts have. -/
structure Addressing (Ip Dns Address : Type) where
  /-- Read an address with a port. -/
  parseSocketAddr : String → Option Address
  /-- The address without the port. -/
  ip : Address → Ip
  /-- Read an address without a port. -/
  parseIpAddr : String → Option Ip
  /-- Read a name of a server. -/
  parseServerName : String → Option (ServerName Ip Dns)
  /-- Look the addresses of a host up, with that port. -/
  lookupHost : String → ℕ → Option (List Address)

/-- Text in front of the last separator, and text behind it. -/
def rsplitOnceAt (separator : Char) (text : String) : Option (String × String) :=
  (rsplitOnce separator text.toList).map fun parts => (.ofList parts.1,.ofList parts.2)

/-- Read a number of sixteen bits; a sign may stand in front of it. -/
def parseU16 (text : String) : Option ℕ :=
  match text.toList with
  | [] => none
  | ['+'] => none
  | '+'::digits => decimalBelow (2^16) digits 0
  | digits => decimalBelow (2^16) digits 0

/-- The host without the brackets around it, if there are any. -/
def unbracketed (host : String) : String :=
  match host.toList with
  | '['::rest => if rest.getLast?=some ']' then .ofList rest.dropLast else host
  | _ => host

variable {Ip Dns Address : Type}

/-- The name that the server behind a locator must prove. -/
def serverNameForLocator (addressing : Addressing Ip Dns Address) (locator : String) :
    Except TransportError (ServerName Ip Dns) :=
  match addressing.parseSocketAddr locator with
  | some address => .ok (.ipAddress (addressing.ip address))
  | none => do
    let (host,port) ← okOr (rsplitOnceAt ':' locator) .invalidLocator
    rejectIf (parseU16 port=none) .invalidLocator
    let host := unbracketed host
    rejectIf host.isEmpty TransportError.invalidLocator
    match addressing.parseIpAddr host with
    | some address => .ok (.ipAddress address)
    | none => okOr (addressing.parseServerName host) .tlsConfigurationFailure

/-- The addresses of a locator, in the order in which they are tried. -/
def Addressing.toSocketAddrs (addressing : Addressing Ip Dns Address) (locator : String) :
    Option (List Address) :=
  match addressing.parseSocketAddr locator with
  | some address => some [address]
  | none => do
    let (host,port) ← rsplitOnceAt ':' locator
    let port ← parseU16 port
    addressing.lookupHost host port

/-- What a locator designates. -/
inductive Target (Address : Type) where
  /-- One address. -/
  | address (address : Address)
  /-- A port of a host. -/
  | host (host : String) (port : ℕ)

namespace Target

/-- The addresses to connect to. -/
def addresses (addressing : Addressing Ip Dns Address) : Target Address → Option (List Address)
  | address a => some [a]
  | host name port => addressing.lookupHost name port

/-- The name to prove; a host needs a name, and it must be one for TLS. -/
def name (addressing : Addressing Ip Dns Address) :
    Target Address → Except TransportError (ServerName Ip Dns)
  | address a => .ok (.ipAddress (addressing.ip a))
  | host name _ =>
    if (unbracketed name).isEmpty then .error .invalidLocator
    else
      match addressing.parseIpAddr (unbracketed name) with
      | some ip => .ok (.ipAddress ip)
      | none => okOr (addressing.parseServerName (unbracketed name)) .tlsConfigurationFailure

end Target

/-- A decimal number of sixteen bits, which may have a sign. -/
def IsPort (text : List Char) (port : ℕ) : Prop :=
  ∃ digits,(text=digits ∨ text= '+'::digits) ∧ digits≠[] ∧ (∀ c ∈ digits,c.isDigit=true) ∧
    Nat.ofDigitChars 10 digits 0=port ∧ port<2^16

/-- The locator designates the target: it is the spelling of its address, or it
is no such spelling and consists of the host, a colon and the port. -/
inductive Designates (addressing : Addressing Ip Dns Address) (locator : String) :
    Target Address → Prop where
  /-- The locator spells an address. -/
  | address {a} : addressing.parseSocketAddr locator=some a → Designates addressing locator (.address a)
  /-- The locator is a host with a port. -/
  | host {name : String} {text : List Char} {port} : addressing.parseSocketAddr locator=none →
    locator.toList=name.toList++ ':'::text → IsPort text port →
    Designates addressing locator (.host name port)

/-- Another character is not among digits. -/
theorem not_mem_of_digits {digits : List Char} (h : ∀ c ∈ digits,c.isDigit=true) {c : Char}
    (hc : c.isDigit=false) : c ∉ digits := by
  intro hm
  have hdigit := h c hm
  rw [hc] at hdigit
  cases hdigit

/-- Digits are read as the port that they spell. -/
theorem decimalBelow_eq_some_iff_isPort {digits : List Char} {port : ℕ} (hne : digits≠[])
    (hplus : ∀ rest,digits≠ '+'::rest) :
    decimalBelow (2^16) digits 0=some port ↔ IsPort digits port := by
  rw [decimalBelow_eq_some_iff (by decide)]
  constructor
  · exact fun h => ⟨digits,.inl rfl,hne,h⟩
  · rintro ⟨found,rfl|rfl,_,h⟩
    · exact h
    · exact (hplus found rfl).elim

/-- A number is read exactly from the spellings of a port. -/
theorem parseU16_eq_some_iff {text : String} {port : ℕ} :
    parseU16 text=some port ↔ IsPort text.toList port := by
  have hplus {digits : List Char} (h : ∀ c ∈ digits,c.isDigit=true) : '+' ∉ digits :=
    not_mem_of_digits h rfl
  rw [parseU16]
  split
  · next h =>
    rw [h]
    refine iff_of_false nofun ?_
    rintro ⟨digits,hd|hd,hne,_⟩
    · exact hne hd.symm
    · cases hd
  · next h =>
    rw [h]
    refine iff_of_false nofun ?_
    rintro ⟨digits,rfl|hd,hne,hdigits,_⟩
    · exact hplus hdigits List.mem_cons_self
    · exact hne (List.cons.inj hd).2.symm
  · next digits hempty h =>
    rw [h,decimalBelow_eq_some_iff (by decide)]
    constructor
    · exact fun hd => ⟨digits,.inr rfl,hempty,hd⟩
    · rintro ⟨found,rfl|hd,_,hdigits,hvalue⟩
      · exact (hplus hdigits List.mem_cons_self).elim
      · cases hd
        exact ⟨hdigits,hvalue⟩
  · next hnil hsign hrest =>
    exact decimalBelow_eq_some_iff_isPort hnil fun rest hr => hrest rest hr

example : parseU16 "+0443"=some 443 := by decide +kernel

/-- There is no colon in a port. -/
theorem IsPort.colon_not_mem {text : List Char} {port : ℕ} (h : IsPort text port) : ':' ∉ text := by
  obtain ⟨digits,hd,_,hdigits,_⟩ := h
  have hn : ':' ∉ digits := not_mem_of_digits hdigits rfl
  rcases hd with rfl|rfl
  · exact hn
  · simpa using hn

/-- Each port is spelled by its digits. -/
theorem isPort_repr {port : ℕ} (h : port<2^16) : IsPort port.repr.toList port := by
  rw [Nat.toList_repr]
  exact ⟨_,.inl rfl,Nat.toDigits_ne_nil,
    (decimalBelow_eq_some_iff (by decide)).mp (decimalBelow_toDigits h)⟩

/-- A text is split into the parts at its last separator. -/
theorem rsplitOnceAt_eq_some_iff {separator : Char} {text before after : String} :
    rsplitOnceAt separator text=some (before,after) ↔
      text.toList=before.toList++separator::after.toList ∧ separator ∉ after.toList := by
  rw [rsplitOnceAt,Option.map_eq_some_iff,← rsplitOnce_eq_some_iff]
  constructor
  · rintro ⟨⟨first,second⟩,hs,he⟩
    obtain ⟨rfl,rfl⟩ := Prod.mk.inj he
    rw [String.toList_ofList,String.toList_ofList]
    exact hs
  · exact fun hs => ⟨_,hs,by rw [String.ofList_toList,String.ofList_toList]⟩

section Designation

variable {addressing : Addressing Ip Dns Address} {locator : String}

/-- A locator that spells no address designates the host and the port that it
is split into. -/
theorem designates_host_iff {name : String} {port : ℕ} :
    Designates addressing locator (.host name port) ↔ addressing.parseSocketAddr locator=none ∧
      ∃ text,rsplitOnceAt ':' locator=some (name,text) ∧ parseU16 text=some port := by
  simp only [rsplitOnceAt_eq_some_iff,parseU16_eq_some_iff]
  constructor
  · rintro (_|@⟨_,text,_,hnone,hsplit,hport⟩)
    rw [← String.toList_ofList (l:=text)] at hsplit hport
    exact ⟨hnone,_,⟨hsplit,hport.colon_not_mem⟩,hport⟩
  · rintro ⟨hnone,text,⟨hsplit,_⟩,hport⟩
    exact .host hnone hsplit hport

/-- A locator designates at most one target. -/
theorem Designates.unique {target other : Target Address}
    (h : Designates addressing locator target) (h' : Designates addressing locator other) :
    target=other := by
  cases h with
  | @address a ha =>
    cases h' with
    | @address b hb => rw [Option.some.inj (ha.symm.trans hb)]
    | @host name text port hnone _ _ => cases ha.symm.trans hnone
  | @host name text port hnone hs hp =>
    cases h' with
    | @address b hb => cases hb.symm.trans hnone
    | @host name' text' port' hnone' hs' hp' =>
      obtain ⟨_,part,hpart,hport⟩ := designates_host_iff.mp (.host hnone hs hp)
      obtain ⟨_,part',hpart',hport'⟩ := designates_host_iff.mp (.host hnone' hs' hp')
      cases hpart.symm.trans hpart'
      rw [Option.some.inj (hport.symm.trans hport')]

/-- A locator that designates nothing is not an address, and it has no colon or
no port behind the last one. -/
theorem unreadable_of_not_designates (h : ∀ target,¬Designates addressing locator target) :
    addressing.parseSocketAddr locator=none ∧
      ∀ name text,rsplitOnceAt ':' locator=some (name,text) → parseU16 text=none := by
  have hnone : addressing.parseSocketAddr locator=none := by
    by_contra hn
    obtain ⟨a,ha⟩ := Option.ne_none_iff_exists'.mp hn
    exact h _ (.address ha)
  refine ⟨hnone,fun name text hs => ?_⟩
  by_contra hn
  obtain ⟨port,hp⟩ := Option.ne_none_iff_exists'.mp hn
  exact h _ (designates_host_iff.mpr ⟨hnone,text,hs,hp⟩)

/-- The server must prove the name of what the locator designates. -/
theorem serverNameForLocator_of_designates {target : Target Address}
    (h : Designates addressing locator target) :
    serverNameForLocator addressing locator=target.name addressing := by
  cases h with
  | @address a ha =>
    rw [serverNameForLocator,ha]
    rfl
  | @host name text port hnone hs hp =>
    obtain ⟨_,part,hpart,hport⟩ := designates_host_iff.mp (.host hnone hs hp)
    have hsome : ¬parseU16 part=none := by
      rw [hport]
      nofun
    rw [serverNameForLocator,hnone,hpart]
    dsimp only [okOr,bind,Except.bind]
    rw [Checks.rejectIf_eq_ok.mpr (by simpa using hsome),Target.name]
    by_cases he : (unbracketed name).isEmpty=true
    · rw [if_pos he,he]
      rfl
    · rw [if_neg he,Checks.rejectIf_eq_ok.mpr he]
      rfl

/-- No name is asked for where nothing is designated. -/
theorem serverNameForLocator_of_not_designates
    (h : ∀ target,¬Designates addressing locator target) :
    serverNameForLocator addressing locator=.error .invalidLocator := by
  obtain ⟨hnone,hport⟩ := unreadable_of_not_designates h
  rw [serverNameForLocator,hnone]
  rcases hs : rsplitOnceAt ':' locator with _|⟨name,text⟩
  · rfl
  · dsimp only [okOr,bind,Except.bind]
    rw [hport name text hs]
    rfl

/-- The addresses of a locator are those of what it designates. -/
theorem toSocketAddrs_of_designates {target : Target Address}
    (h : Designates addressing locator target) :
    addressing.toSocketAddrs locator=target.addresses addressing := by
  cases h with
  | @address a ha =>
    rw [Addressing.toSocketAddrs,ha]
    rfl
  | @host name text port hnone hs hp =>
    obtain ⟨_,part,hpart,hport⟩ := designates_host_iff.mp (.host hnone hs hp)
    rw [Addressing.toSocketAddrs,hnone,hpart]
    dsimp only [bind,Option.bind]
    rw [hport]
    rfl

/-- There are no addresses where nothing is designated. -/
theorem toSocketAddrs_of_not_designates
    (h : ∀ target,¬Designates addressing locator target) :
    addressing.toSocketAddrs locator=none := by
  obtain ⟨hnone,hport⟩ := unreadable_of_not_designates h
  rw [Addressing.toSocketAddrs,hnone]
  rcases hs : rsplitOnceAt ':' locator with _|⟨name,text⟩
  · rfl
  · dsimp only [bind,Option.bind]
    rw [hport name text hs]

/-- A host with a port, written behind a colon, is what the text designates. -/
theorem designates_written {name : String} {port : ℕ} (hp : port<2^16)
    (hnone : addressing.parseSocketAddr (name++":"++port.repr)=none) :
    Designates addressing (name++":"++port.repr) (.host name port) := by
  refine .host hnone ?_ (isPort_repr hp)
  rw [String.toList_append,String.toList_append,List.append_assoc]
  rfl

end Designation

/-- Brackets are taken off in pairs. -/
theorem unbracketed_cases (host : String) :
    unbracketed host=host ∨ host="["++unbracketed host++"]" := by
  rw [unbracketed]
  split
  · next rest h =>
    split
    · next hl =>
      right
      obtain ⟨inner,rfl⟩ := List.getLast?_eq_some_iff.mp hl
      rw [List.dropLast_concat,← String.toList_inj,h]
      simp
    · exact .inl rfl
  · exact .inl rfl

/-- A client that resolves locators and names servers in this way. -/
def TlsClient.resolving (addressing : Addressing Ip Dns Address)
    (listen : Address → Option TlsServer) (handshake : String → ServerName Ip Dns → Handshake)
    (debug : EndpointError → String) : TlsClient (ServerName Ip Dns) where
  serverName := serverNameForLocator addressing
  servers := fun locator => (addressing.toSocketAddrs locator).bind (·.findSome? listen)
  handshake := handshake
  debug := debug

/-- A client connects exactly to the first address that accepts of what the
locator designates, and exactly with the name of the same target, of which
there is one at most: an address, or the host in front of the last colon with
the port behind it, less a pair of brackets where it must be named. Where
there is no target the locator is invalid and has no addresses. A host with a
port is the target of its spelling. -/
theorem dialled_is_verified [UuidCrate] (addressing : Addressing Ip Dns Address)
    (listen : Address → Option TlsServer) (handshake : String → ServerName Ip Dns → Handshake)
    (debug : EndpointError → String) :
    (∀ request server session,
      (TlsClient.resolving addressing listen handshake debug).connect request=.ok (server,session) ↔
        validateTransportRequest request=.ok () ∧ request.sourceParticipantId≠none ∧
        ∃ target name addresses,Designates addressing request.endpoint.locator target ∧
          target.name addressing=.ok name ∧ target.addresses addressing=some addresses ∧
          addresses.findSome? listen=some server ∧
          handshake request.endpoint.locator name=⟨.ok (),session⟩) ∧
    (∀ locator target other,Designates addressing locator target →
      Designates addressing locator other → target=other) ∧
    (∀ host,unbracketed host=host ∨ host="["++unbracketed host++"]") ∧
    (∀ locator,(∀ target,¬Designates addressing locator target) →
      serverNameForLocator addressing locator=.error .invalidLocator ∧
        addressing.toSocketAddrs locator=none) ∧
    ∀ host port,port<2^16 → addressing.parseSocketAddr (host++":"++port.repr)=none →
      Designates addressing (host++":"++port.repr) (.host host port) := by
  refine ⟨fun request server session => ?_,fun _ _ _ h h' => h.unique h',unbracketed_cases,
    fun _ h => ⟨serverNameForLocator_of_not_designates h,toSocketAddrs_of_not_designates h⟩,
    fun _ _ => designates_written⟩
  rw [TlsClient.connect_eq_ok]
  refine and_congr_right fun _ => and_congr_right fun _ => ?_
  dsimp only [TlsClient.resolving]
  by_cases h : ∃ target,Designates addressing request.endpoint.locator target
  · obtain ⟨target,h⟩ := h
    rw [serverNameForLocator_of_designates h,toSocketAddrs_of_designates h]
    constructor
    · rintro ⟨hs,name,hn,hh⟩
      obtain ⟨addresses,ha,hf⟩ := Option.bind_eq_some_iff.mp hs
      exact ⟨target,name,addresses,h,hn,ha,hf,hh⟩
    · rintro ⟨other,name,addresses,h',hn,ha,hf,hh⟩
      cases h.unique h'
      exact ⟨Option.bind_eq_some_iff.mpr ⟨addresses,ha,hf⟩,name,hn,hh⟩
  · rw [not_exists] at h
    rw [toSocketAddrs_of_not_designates h]
    refine iff_of_false (fun hs => by cases hs.1) ?_
    rintro ⟨target,_,_,h',_⟩
    exact h target h'

end OpenHost
