import OpenHost.OrderedMap
import OpenHost.Transport

/-!
# Serving one request of a connection

A server decodes one request, compares the identity that it claims with the
certificate of the connection, hands it to the execution handler and writes
one response. The handler is arbitrary code, which may also panic; whether
and with which request it was invoked is part of the result.
-/

namespace OpenHost

/-- Errors of a runtime. -/
inductive RuntimeError where
  | emptyWorkloadId
  | invalidParticipantIdentity
  | invalidNodeIdentity
  | invalidResources
  | unsupported
  | executionFailed
  deriving DecidableEq

/-- Errors of the table of runtimes. -/
inductive RuntimeRegistryError where
  | emptyName
  | emptyVersion
  | duplicateRuntime
  | runtimeNotFound
  deriving DecidableEq

/-- Errors of the executor behind an endpoint. -/
inductive EndpointExecutionError where
  | rejected
  | executionFailed
  | runtime (error : RuntimeError)
  | runtimeRegistry (error : RuntimeRegistryError)
  deriving DecidableEq

/-- Errors of an execution endpoint. -/
inductive EndpointError where
  | emptyRequestId
  | emptyWorkloadId
  | invalidParticipantIdentity
  | invalidNodeIdentity
  | invalidRuntimeSpec
  | participantMismatch
  | executionFailed (requestId : String) (error : EndpointExecutionError)
  deriving DecidableEq

/-- A handler is any routine from a request to a response. -/
abbrev ExecutionHandler := ExecutionRequest → Outcome EndpointError ExecutionResponse

/-- A participant identity pinned to one client leaf certificate. -/
structure AuthorizedClientCertificate where
  /-- Participant that may present the certificate. -/
  participantId : Identity
  /-- The exact certificate. -/
  certificateDer : List UInt8
  deriving DecidableEq

/-- The certificates that each participant may present. -/
abbrev ClientAllowlist := Std.ExtTreeMap String (List (List UInt8))

/-- Whose certificate it is. -/
abbrev CertificateOwners := Std.ExtTreeMap (List UInt8) String

/-- What the connection is checked against: the grants, and the leaf
certificate that the peer has proved to own, if any. -/
abbrev Authorization := Option (ClientAllowlist × Option (List UInt8))

/-- Append a certificate to those of its participant. -/
def ClientAllowlist.push (allowlist : ClientAllowlist) (client : AuthorizedClientCertificate) :
    ClientAllowlist :=
  allowlist.insert client.participantId.id
    ((allowlist[client.participantId.id]?).getD []++[client.certificateDer])

/-- Enter the grants one by one; a certificate that was entered before is refused. -/
def allowlistLoop : List AuthorizedClientCertificate → ClientAllowlist → CertificateOwners →
    Except TransportError ClientAllowlist
  | [],allowlist,_ => .ok allowlist
  | client::rest,allowlist,owners =>
    match owners[client.certificateDer]? with
    | some owner =>
      if owner≠client.participantId.id then .error .certificateAssignedToMultipleIdentities
      else .error .duplicateAuthorizedClientCertificate
    | none =>
      allowlistLoop rest (allowlist.push client)
        (owners.insert client.certificateDer client.participantId.id)

/-- Build the table of grants. -/
def buildClientAllowlist (authorizedClients : List AuthorizedClientCertificate) :
    Except TransportError ClientAllowlist :=
  if authorizedClients.isEmpty then .error .emptyClientAllowlist
  else allowlistLoop authorizedClients ∅ ∅

/-- Compare the claimed identity of a request with the certificate of the
connection; without grants nothing is compared. -/
def authorize (authorization : Authorization) (request : ExecutionRequest) :
    Except TransportError Unit :=
  match authorization with
  | none => .ok ()
  | some (allowedClients,peerCertificate) => do
    let source ← okOr request.sourceParticipantId .missingSourceIdentity
    let authorizedCertificates ← okOr allowedClients[source.id]? .unauthorizedClient
    let peerCertificate ← okOr peerCertificate .unauthorizedClient
    rejectIf (!authorizedCertificates.any fun certificate => certificate==peerCertificate)
      .unauthorizedClient

/-- What serving one request has done. -/
structure Handled where
  /-- How the routine ended. -/
  result : Outcome TransportError Unit
  /-- The connection afterwards. -/
  stream : ByteStream
  /-- The request that was handed to the handler, if it was invoked. -/
  invoked : Option ExecutionRequest

/-- Read, authorise, execute and answer one request. The last argument is the
text in which the program reports an error of the handler. -/
def handleRequestStream [UuidCrate] (stream : ByteStream) (endpoint : ExecutionHandler)
    (authorization : Authorization) (debug : EndpointError → String) : Handled :=
  match readRequest stream with
  | (.panic,stream) => ⟨.panic,stream,none⟩
  | (.err e,stream) => ⟨.err e,stream,none⟩
  | (.ok request,stream) =>
    match authorize authorization request with
    | .error e => ⟨.err e,stream,none⟩
    | .ok () =>
      match endpoint request with
      | .panic => ⟨.panic,stream,some request⟩
      | .ok response =>
        let (result,stream) := writeResponse stream response
        ⟨.ofExcept result,stream,some request⟩
      | .err error =>
        let response := ExecutionResponse.failed request.requestId (debug error)
        let (result,stream) := writeResponse stream response
        ⟨.ofExcept result,stream,some request⟩

end OpenHost
