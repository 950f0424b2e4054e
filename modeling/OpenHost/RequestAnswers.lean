import OpenHost.DebugText
import OpenHost.DispatchRefinement

/-!
# Which requests are answered

A server answers every request that it accepts with one frame, and the frame
tells the truth about the execution. An answer that reports a failure carries
the name of the request twice, the second time escaped. It can be too large
for a frame although the request was not, and then nothing is written.
-/

namespace OpenHost

open ParticipantExecutionEndpoint

/-- The call of the executor for a request. -/
def ParticipantExecutionEndpoint.execution (endpoint : ParticipantExecutionEndpoint)
    (request : ExecutionRequest) : Outcome EndpointExecutionError Unit :=
  endpoint.executor endpoint.participantId request.nodeId request.runtime request.unit.resources
    request.workload

/-- The answer to a request that passes the checks is decided by that call. -/
theorem handle_of_execution {endpoint : ParticipantExecutionEndpoint} {request : ExecutionRequest}
    (h : validateRequest endpoint.participantId request=.ok ()) :
    endpoint.handle request=match endpoint.execution request with
      | .ok _ => .ok (.completed request.requestId)
      | .err error => .err (.executionFailed request.requestId error)
      | .panic => .panic := handle_of_valid h

/-- The executor has run the workload of the request and has succeeded. -/
def Succeeded (endpoint : ParticipantExecutionEndpoint) (request : ExecutionRequest) : Prop :=
  validateRequest endpoint.participantId request=.ok () ∧ endpoint.execution request=.ok ()

/-- Behind what was written before, the routine has written one frame. Every
client that finds the frame in front reads the answer to the request, which
reports a success exactly if there was one. -/
def Answered (before : ByteStream) (handled : Handled) (request : ExecutionRequest)
    (succeeded : Prop) : Prop :=
  ∃ payload response,payload.length ≤ maxFrameSize ∧
    handled.stream.outgoing=before.outgoing++framed payload ∧
    (∀ (client : ByteStream) (rest : List UInt8),client.incoming=framed payload++rest →
      readResponse client=(.ok response,{client with incoming := rest})) ∧
    response.requestId=request.requestId ∧
    (response.status=.completed ∧ response.error=none ↔ succeeded) ∧
    (¬succeeded → response.status=.failed)

/-- A frame is not empty. -/
theorem framed_ne_nil (payload : List UInt8) : framed payload≠[] := by
  intro h
  have hl := congrArg List.length h
  rw [framed,List.length_append,BigEndian.toBeBytes_length,List.length_nil] at hl
  omega

/-- Where nothing was written there is no answer. -/
theorem not_answered_of_silent {before : ByteStream} {handled : Handled} {request : ExecutionRequest}
    {succeeded : Prop} (h : handled.stream.outgoing=before.outgoing) :
    ¬Answered before handled request succeeded := by
  rintro ⟨payload,_,_,ho,_⟩
  rw [h] at ho
  exact framed_ne_nil payload (List.self_eq_append_right.mp ho)

/-- A response that is written is an answer if it fits a frame and what it
says is right. If it does not fit there is no answer. -/
theorem answered_writeResponse_iff {before after : ByteStream} {handled : Handled}
    {request : ExecutionRequest} {response : ExecutionResponse} {succeeded : Prop}
    (hwritten : handled.stream=(writeResponse after response).2)
    (hafter : after.outgoing=before.outgoing ∧ after.room=none)
    (hid : response.requestId=request.requestId)
    (hok : response.status=.completed ∧ response.error=none ↔ succeeded)
    (hfailed : ¬succeeded → response.status=.failed) :
    Answered before handled request succeeded ↔
      (responseBytes response).length ≤ maxFrameSize := by
  constructor
  · intro h
    by_contra hn
    refine not_answered_of_silent ?_ h
    rw [hwritten,(writeResponse_frameTooLarge after response).2 (Nat.not_le.mp hn)]
    exact hafter.1
  · intro hl
    refine ⟨responseBytes response,response,hl,?_,?_,hid,hok,hfailed⟩
    · rw [hwritten,writeResponse_of_le hafter.2 hl,← hafter.1]
    · intro client rest hi
      exact (readResponse_framed hl hi).mpr ⟨rfl,rfl⟩

/-- A request has at least seventy-six bytes besides its name. -/
theorem requestId_size_le (request : ExecutionRequest) :
    request.requestId.utf8ByteSize+76 ≤ (requestBytes request).length := by
  simp only [requestBytes,headBytes,ExecutionRequest.head,textBytes,prefixed,resourceBytes,
    amountBytes,identityBytes,List.length_append,List.length_cons,List.length_nil,
    BigEndian.toBeBytes_length,utf8Bytes_length]
  omega

section Table

variable [DebugTable]

/-- The answer that reports the failure of the request fits a frame. -/
def FailureFits (request : ExecutionRequest) (error : EndpointExecutionError) : Prop :=
  request.requestId.utf8ByteSize+escapedLength request.requestId+error.debug.utf8ByteSize+54 ≤
    maxFrameSize

/-- If the executor is reached it returns, and a failure that it returns can
be reported. -/
def Reportable (endpoint : ParticipantExecutionEndpoint) (request : ExecutionRequest) : Prop :=
  validateRequest endpoint.participantId request=.ok () →
    endpoint.execution request≠.panic ∧
      ∀ error,endpoint.execution request=.err error → FailureFits request error

omit [DebugTable] in
/-- The report of a failure has the bytes of the name and of the text, and eleven more. -/
theorem failed_length (requestId error : String) :
    (responseBytes (.failed requestId error)).length=
      requestId.utf8ByteSize+error.utf8ByteSize+11 := by
  simp only [responseBytes,ExecutionResponse.failed,optionalBytes,textBytes,prefixed,
    List.length_append,List.length_cons,List.length_nil,BigEndian.toBeBytes_length,utf8Bytes_length]
  omega

/-- The report of a failed execution fits a frame exactly under that bound. -/
theorem failed_executionFailed_le {request : ExecutionRequest} {error : EndpointExecutionError} :
    (responseBytes (.failed request.requestId
        (EndpointError.executionFailed request.requestId error).debug)).length ≤ maxFrameSize ↔
      FailureFits request error := by
  rw [failed_length,EndpointError.debug_executionFailed_size,FailureFits]
  omega

/-- With a name of up to six million bytes every failure can be reported. -/
theorem failureFits_of_le {request : ExecutionRequest} (error : EndpointExecutionError)
    (h : request.requestId.utf8ByteSize ≤ 6000000) : FailureFits request error := by
  have hmax : maxFrameSize=67108864 := rfl
  have he := (escapedLength_bounds request.requestId).2
  have hd := error.debug_size
  rw [FailureFits]
  omega

/-- With a name of half a frame or more no failure can be reported. -/
theorem not_failureFits_of_le {request : ExecutionRequest} (error : EndpointExecutionError)
    (h : maxFrameSize ≤ 2*request.requestId.utf8ByteSize) : ¬FailureFits request error := by
  have he := (escapedLength_bounds request.requestId).1
  rw [FailureFits]
  omega

omit [DebugTable] in
/-- The checks of an endpoint do not report an execution. -/
theorem validateRequest_ne_executionFailed {participantId : Identity} {request : ExecutionRequest}
    (requestId : String) (failure : EndpointExecutionError) :
    validateRequest participantId request≠.error (.executionFailed requestId failure) := by
  intro h
  simp [validateRequest,Checks.bind_eq_error,Checks.rejectIf_eq_error] at h

section Exact

variable [UuidCrate]

omit [DebugTable] in
/-- An accepted request was no larger than a frame as the writer spells it. -/
theorem requestBytes_length_le {stream : ByteStream} {request : ExecutionRequest}
    (h : (readRequest stream).1=.ok request) : (requestBytes request).length ≤ maxFrameSize := by
  obtain ⟨payload,rest,hl,hi,hr⟩ := framed_of_readMessage h
  obtain ⟨again,hw,_,_⟩ := writeRequest_readRequest hl hi hr
  exact (writeRequest_eq_ok (hw ⟨[],[],none⟩ rfl)).2.1

omit [DebugTable] in
/-- What serving an accepted request writes depends on the handler only, and
the connection is as it was but for what was read. -/
theorem served_stream {stream : ByteStream} {request : ExecutionRequest}
    {authorization : Authorization} (endpoint : ExecutionHandler) (debug : EndpointError → String)
    (hread : (readRequest stream).1=.ok request)
    (hauth : authorize authorization request=.ok ()) (hroom : stream.room=none) :
    ∃ after : ByteStream,(after.outgoing=stream.outgoing ∧ after.room=none) ∧
      (handleRequestStream stream endpoint authorization debug).stream=
        match endpoint request with
        | .ok response => (writeResponse after response).2
        | .err error => (writeResponse after (.failed request.requestId (debug error))).2
        | .panic => after := by
  obtain ⟨_,rest,_,_,hr⟩ := framed_of_readMessage hread
  have hstream : readRequest stream=(.ok request,{stream with incoming := rest}) := hr
  refine ⟨{stream with incoming := rest},⟨rfl,hroom⟩,?_⟩
  rw [handleRequestStream,hstream]
  dsimp only
  rw [hauth]
  dsimp only
  cases endpoint request <;> rfl

section Cases

variable {stream : ByteStream} {request : ExecutionRequest} {authorization : Authorization}
  {endpoint : ParticipantExecutionEndpoint}

/-- A request that the endpoint refuses is answered. -/
theorem answered_refused (hread : (readRequest stream).1=.ok request)
    (hauth : authorize authorization request=.ok ()) (hroom : stream.room=none) {e : EndpointError}
    (hv : validateRequest endpoint.participantId request=.error e) :
    Answered stream (handleRequestStream stream endpoint.handle authorization EndpointError.debug)
      request (Succeeded endpoint request) := by
  obtain ⟨after,hafter,hs⟩ := served_stream endpoint.handle EndpointError.debug hread hauth hroom
  have hlen := requestBytes_length_le hread
  have hid := requestId_size_le request
  have hhandle : endpoint.handle request=.err e := by
    rw [handle,hv]
    rfl
  have hnot : ¬Succeeded endpoint request := by
    rintro ⟨h,_⟩
    rw [hv] at h
    cases h
  have he : e.debug.utf8ByteSize ≤ 26 := by
    refine EndpointError.debug_size fun requestId failure hf => ?_
    exact validateRequest_ne_executionFailed requestId failure (hf ▸ hv)
  rw [hhandle] at hs
  rw [answered_writeResponse_iff hs hafter rfl
    (iff_of_false (fun h => ExecutionStatus.noConfusion h.1) hnot) fun _ => rfl,failed_length]
  omega

/-- A request whose execution succeeds is answered. -/
theorem answered_succeeded (hread : (readRequest stream).1=.ok request)
    (hauth : authorize authorization request=.ok ()) (hroom : stream.room=none)
    (h : Succeeded endpoint request) :
    Answered stream (handleRequestStream stream endpoint.handle authorization EndpointError.debug)
      request (Succeeded endpoint request) := by
  obtain ⟨after,hafter,hs⟩ := served_stream endpoint.handle EndpointError.debug hread hauth hroom
  have hlen := requestBytes_length_le hread
  have hhandle : endpoint.handle request=.ok (.completed request.requestId) := by
    rw [handle_of_execution h.1,h.2]
  rw [hhandle] at hs
  rw [answered_writeResponse_iff hs hafter rfl (iff_of_true ⟨rfl,rfl⟩ h) fun hn => (hn h).elim]
  exact (completed_length_le request).trans hlen

/-- A failure of the executor is answered exactly if its report fits a frame. -/
theorem answered_failed_iff {error : EndpointExecutionError}
    (hread : (readRequest stream).1=.ok request)
    (hauth : authorize authorization request=.ok ()) (hroom : stream.room=none)
    (hv : validateRequest endpoint.participantId request=.ok ())
    (hx : endpoint.execution request=.err error) :
    Answered stream (handleRequestStream stream endpoint.handle authorization EndpointError.debug)
        request (Succeeded endpoint request) ↔
      FailureFits request error := by
  obtain ⟨after,hafter,hs⟩ := served_stream endpoint.handle EndpointError.debug hread hauth hroom
  have hhandle : endpoint.handle request=.err (.executionFailed request.requestId error) := by
    rw [handle_of_execution hv,hx]
  have hnot : ¬Succeeded endpoint request := by
    rintro ⟨_,h⟩
    rw [hx] at h
    cases h
  rw [hhandle] at hs
  rw [answered_writeResponse_iff hs hafter rfl
    (iff_of_false (fun h => ExecutionStatus.noConfusion h.1) hnot) fun _ => rfl,
    failed_executionFailed_le]

/-- A request whose execution panics is not answered. -/
theorem not_answered_panicked (hread : (readRequest stream).1=.ok request)
    (hauth : authorize authorization request=.ok ()) (hroom : stream.room=none)
    (hv : validateRequest endpoint.participantId request=.ok ())
    (hx : endpoint.execution request=.panic) :
    ¬Answered stream (handleRequestStream stream endpoint.handle authorization EndpointError.debug)
      request (Succeeded endpoint request) := by
  obtain ⟨after,hafter,hs⟩ := served_stream endpoint.handle EndpointError.debug hread hauth hroom
  have hhandle : endpoint.handle request=.panic := by
    rw [handle_of_execution hv,hx]
  rw [hhandle] at hs
  exact not_answered_of_silent ((congrArg ByteStream.outgoing hs).trans hafter.1)

end Cases

/-- A request that is accepted and authorised is answered, with one frame that
tells how its execution ended, exactly if the executor returns and a failure
of it can be reported. -/
theorem answered_iff {stream : ByteStream} {request : ExecutionRequest}
    {authorization : Authorization} (endpoint : ParticipantExecutionEndpoint)
    (hread : (readRequest stream).1=.ok request)
    (hauth : authorize authorization request=.ok ()) (hroom : stream.room=none) :
    Answered stream (handleRequestStream stream endpoint.handle authorization EndpointError.debug)
        request (Succeeded endpoint request) ↔
      Reportable endpoint request := by
  cases hv : validateRequest endpoint.participantId request with
  | error e =>
    refine iff_of_true (answered_refused hread hauth hroom hv) fun h => ?_
    rw [hv] at h
    cases h
  | ok u =>
    cases hx : endpoint.execution request with
    | ok u =>
      refine iff_of_true (answered_succeeded hread hauth hroom ⟨hv,hx⟩) fun _ => ⟨?_,?_⟩
      · rw [hx]
        exact fun h => by cases h
      · intro error he
        rw [hx] at he
        cases he
    | err error =>
      rw [answered_failed_iff hread hauth hroom hv hx]
      constructor
      · intro hf _
        rw [hx]
        refine ⟨fun h => (by cases h),fun found he => ?_⟩
        rw [Outcome.err.injEq] at he
        rw [← he]
        exact hf
      · intro h
        exact (h hv).2 error hx
    | panic =>
      exact iff_of_false (not_answered_panicked hread hauth hroom hv hx) fun h => (h hv).1 hx

end Exact

end Table

section Sample

/-- An endpoint of the participant of the sample request that refuses everything. -/
def refusingEndpoint : ParticipantExecutionEndpoint :=
  ⟨sampleRequest.unit.participantId,fun _ _ _ _ _ => .err .rejected,servedEndpoint.kindValid⟩

/-- The sample request under another name. -/
def renamedRequest (requestId : String) : ExecutionRequest :=
  {sampleRequest with requestId := requestId}

/-- A name of that many letters. -/
def letters (n : ℕ) : String := String.ofList (List.replicate n 'a')

/-- A peer that has sent the sample request under that name. -/
def renamedStream (requestId : String) : ByteStream :=
  ⟨framed (requestBytes (renamedRequest requestId)),[],none⟩

/-- A name of letters has as many bytes. -/
theorem letters_size (n : ℕ) : (letters n).utf8ByteSize=n := by
  rw [letters,utf8ByteSize_ofList]
  induction n with
  | zero => rfl
  | succ n ih =>
    have ha : 'a'.utf8Size=1 := rfl
    rw [List.replicate_succ,textSize_cons,ih,ha,Nat.add_comm]

/-- The sample request under another name is accepted if it fits a frame. -/
theorem readRequest_renamedStream {requestId : String} (hpos : 0<requestId.utf8ByteSize)
    (hl : requestId.utf8ByteSize+1000 ≤ maxFrameSize) : letI := hyphenatedUuid
    (readRequest (renamedStream requestId)).1=.ok (renamedRequest requestId) := by
  let := hyphenatedUuid
  have hmax : maxFrameSize<2^32 := by decide
  have hlen : (requestBytes (renamedRequest requestId)).length ≤ maxFrameSize := by
    have hsample : (requestBytes sampleRequest).length ≤ 1000 := by decide +kernel
    have hsplit : (requestBytes (renamedRequest requestId)).length+
        (utf8Bytes sampleRequest.requestId).length=
          (requestBytes sampleRequest).length+requestId.utf8ByteSize := by
      simp only [requestBytes,headBytes,ExecutionRequest.head,renamedRequest,textBytes,prefixed,
        List.length_append,BigEndian.toBeBytes_length,utf8Bytes_length]
      omega
    omega
  have hid : ShortText requestId := by
    rw [ShortText,Short,utf8Bytes_length]
    omega
  have hs := sampleRequest_short
  have hshort : ShortRequest (renamedRequest requestId) :=
    ⟨{hs.head with requestId := hid},hs.endpointId,hs.locator⟩
  have hname : requestId≠"" := by
    rintro rfl
    exact absurd hpos (by decide)
  have hv := validateTransportRequest_eq_ok.mp sampleRequest_valid
  have hvalid : validateTransportRequest (renamedRequest requestId)=.ok () :=
    validateTransportRequest_eq_ok.mpr {hv with requestId := hname}
  have hn : IsCanonical sampleRequest.nodeId.id := by decide +kernel
  have hp : IsCanonical sampleRequest.unit.participantId.id := by decide +kernel
  have hi : (renamedStream requestId).incoming=
      framed (requestBytes (renamedRequest requestId))++[] := (List.append_nil _).symm
  exact congrArg Prod.fst ((readRequest_framed hshort hlen hi).1 ⟨hvalid,hn,hp⟩)

/-- The refusal of a request with a short name is reported. -/
theorem answered_iff_renamedStream : letI := hyphenatedUuid; letI := asciiTable
    Answered (renamedStream "r")
      (handleRequestStream (renamedStream "r") refusingEndpoint.handle none EndpointError.debug)
      (renamedRequest "r") (Succeeded refusingEndpoint (renamedRequest "r")) := by
  let := hyphenatedUuid
  let := asciiTable
  have hpos : 0<"r".utf8ByteSize := by decide
  have hread := readRequest_renamedStream hpos (by decide)
  refine (answered_iff refusingEndpoint hread rfl rfl).mpr fun _ => ⟨?_,fun error _ => ?_⟩
  · exact fun h => by cases h
  · exact failureFits_of_le error (by decide)

/-- A request whose name takes half a frame is accepted, and its refusal is
not answered. -/
theorem not_answered_renamedStream : letI := hyphenatedUuid; letI := asciiTable
    (readRequest (renamedStream (letters (2^25)))).1=.ok (renamedRequest (letters (2^25))) ∧
    authorize none (renamedRequest (letters (2^25)))=.ok () ∧
    (renamedStream (letters (2^25))).room=none ∧
    ¬Answered (renamedStream (letters (2^25)))
      (handleRequestStream (renamedStream (letters (2^25))) refusingEndpoint.handle none
        EndpointError.debug)
      (renamedRequest (letters (2^25)))
      (Succeeded refusingEndpoint (renamedRequest (letters (2^25)))) := by
  let := hyphenatedUuid
  let := asciiTable
  have hsize := letters_size (2^25)
  generalize letters (2^25)=requestId at hsize ⊢
  have hmax : maxFrameSize=2^26 := rfl
  have hpos : 0<requestId.utf8ByteSize := by omega
  have hread := readRequest_renamedStream hpos (by omega)
  have hv : validateRequest refusingEndpoint.participantId (renamedRequest requestId)=.ok () := by
    have hname : requestId≠"" := by
      rintro rfl
      exact absurd hpos (by decide)
    have hsample : validateRequest refusingEndpoint.participantId sampleRequest=.ok () := by
      decide +kernel
    exact validateRequest_eq_ok.mpr ⟨hname,(validateRequest_eq_ok.mp hsample).2⟩
  have hlarge : maxFrameSize ≤ 2*(renamedRequest requestId).requestId.utf8ByteSize := by
    change maxFrameSize ≤ 2*requestId.utf8ByteSize
    omega
  refine ⟨hread,rfl,rfl,fun h => ?_⟩
  exact not_failureFits_of_le .rejected hlarge ((answered_failed_iff hread rfl rfl hv rfl).mp h)

end Sample

end OpenHost
