import OpenHost.RequestHandling

/-!
# The text in which an error is reported

The program prints an error of a handler in its debug format. Names of
variants are printed as they are; a text inside an error is quoted and
escaped, so it grows, but by a bounded factor.
-/

namespace OpenHost

/-- The characters that the debug format prints as they are, unless they have
an escape of their own: printable, and no extension of a character before. -/
class DebugTable where
  /-- Whether the character is one of them. -/
  plain : Char → Bool

/-- The table for ASCII texts. -/
@[reducible] def asciiTable : DebugTable := ⟨fun c => decide (32 ≤ c.toNat ∧ c.toNat<127)⟩

/-- The letter behind the backslash in an escape of its own. -/
def escapeLetter : Char → Option Char
  | '\x00' => some '0'
  | '\t' => some 't'
  | '\r' => some 'r'
  | '\n' => some 'n'
  | '\\' => some '\\'
  | '"' => some '"'
  | _ => none

/-- Bytes of a text, counted by characters. -/
def textSize (cs : List Char) : ℕ := (cs.map Char.utf8Size).sum

@[simp] theorem textSize_nil : textSize []=0 := rfl

@[simp] theorem textSize_cons (c : Char) (cs : List Char) :
    textSize (c::cs)=c.utf8Size+textSize cs := by
  rw [textSize,List.map_cons,List.sum_cons,textSize]

@[simp] theorem textSize_append (cs ds : List Char) :
    textSize (cs++ds)=textSize cs+textSize ds := by
  rw [textSize,List.map_append,List.sum_append,textSize,textSize]

/-- A text has the bytes of its characters. -/
theorem utf8ByteSize_ofList (cs : List Char) : (String.ofList cs).utf8ByteSize=textSize cs := by
  induction cs with
  | nil => rfl
  | cons c cs ih =>
    rw [String.ofList_cons,String.utf8ByteSize_append,String.utf8ByteSize_singleton,ih,textSize_cons]

/-- The bytes that are written for a text are its bytes. -/
theorem utf8Bytes_length (value : String) : (utf8Bytes value).length=value.utf8ByteSize := rfl

/-- A hexadecimal digit has one byte. -/
theorem utf8Size_digitChar {n : ℕ} (h : n<16) : n.digitChar.utf8Size=1 := by
  have hd : ∀ m : Fin 16,m.val.digitChar.utf8Size=1 := by decide
  exact hd ⟨n,h⟩

/-- A hexadecimal number has as many bytes as digits. -/
theorem textSize_toDigits (n : ℕ) : textSize (Nat.toDigits 16 n)=(Nat.toDigits 16 n).length := by
  induction n using Nat.strong_induction_on with
  | h n ih =>
    rw [Nat.toDigits_eq_if (by decide)]
    split
    · next hn =>
      rw [textSize_cons,utf8Size_digitChar hn]
      rfl
    · next hn =>
      have hd := ih (n/16) (by omega)
      have hm : n%16<16 := Nat.mod_lt n (by decide)
      rw [textSize_append,textSize_cons,utf8Size_digitChar hm,hd,List.length_append]
      rfl

section Table

variable [DebugTable]

/-- A character inside a text: its own escape, itself, or its code point. -/
def escapeDebug (c : Char) : List Char :=
  match escapeLetter c with
  | some letter => ['\\',letter]
  | none => if DebugTable.plain c then [c]
    else ['\\','u','\x7b']++(Nat.toDigits 16 c.toNat++['\x7d'])

/-- A text in quotes with its characters escaped. -/
def debugText (value : String) : String :=
  "\""++String.ofList (value.toList.flatMap escapeDebug)++"\""

/-- Bytes of an escaped character. -/
def escapedSize (c : Char) : ℕ :=
  if (escapeLetter c).isSome then 2 else if DebugTable.plain c then c.utf8Size
  else 4+(Nat.toDigits 16 c.toNat).length

/-- Bytes of a text once its characters are escaped. -/
def escapedLength (value : String) : ℕ := (value.toList.map escapedSize).sum

omit [DebugTable] in
/-- The letter of an escape has one byte. -/
theorem utf8Size_escapeLetter {c letter : Char} (h : escapeLetter c=some letter) :
    letter.utf8Size=1 ∧ c.utf8Size=1 := by
  unfold escapeLetter at h
  split at h <;> cases h <;> exact ⟨rfl,rfl⟩

/-- An escaped character has that many bytes. -/
theorem textSize_escapeDebug (c : Char) : textSize (escapeDebug c)=escapedSize c := by
  rw [escapeDebug,escapedSize]
  cases h : escapeLetter c with
  | some letter =>
    dsimp only
    rw [textSize_cons,textSize_cons,(utf8Size_escapeLetter h).1]
    rfl
  | none =>
    dsimp only [Option.isSome_none]
    rw [if_neg Bool.false_ne_true]
    split
    · rw [textSize_cons,textSize_nil,Nat.add_zero]
    · have hc : '\\'.utf8Size=1 ∧ 'u'.utf8Size=1 ∧ '\x7b'.utf8Size=1 ∧ '\x7d'.utf8Size=1 := by
        decide
      simp only [textSize_cons,textSize_append,textSize_toDigits,textSize_nil,hc]
      omega

/-- An escaped character is no shorter than the character, and has at most ten bytes. -/
theorem escapedSize_bounds (c : Char) : c.utf8Size ≤ escapedSize c ∧ escapedSize c ≤ 10 := by
  have h4 := c.utf8Size_le_four
  rw [escapedSize]
  cases h : escapeLetter c with
  | some letter =>
    rw [(utf8Size_escapeLetter h).2,Option.isSome_some,if_pos rfl]
    decide
  | none =>
    dsimp only [Option.isSome_none]
    rw [if_neg Bool.false_ne_true]
    split
    · omega
    · have hc : c.toNat<16^6 := by
        have hv : c.toNat<0xd800 ∨ 0xdfff<c.toNat ∧ c.toNat<0x110000 := c.valid
        omega
      have hd := (Nat.length_toDigits_le_iff (by decide) (by decide)).mpr hc
      omega

/-- An escaped text is no shorter than the text, and at most ten times as long. -/
theorem escapedLength_bounds (value : String) :
    value.utf8ByteSize ≤ escapedLength value ∧ escapedLength value ≤ 10*value.utf8ByteSize := by
  have hb (cs : List Char) : textSize cs ≤ (cs.map escapedSize).sum ∧
      (cs.map escapedSize).sum ≤ 10*textSize cs := by
    induction cs with
    | nil => exact ⟨Nat.le_refl _,Nat.le_refl _⟩
    | cons c cs ih =>
      have hc := escapedSize_bounds c
      have hp := c.utf8Size_pos
      rw [textSize_cons,List.map_cons,List.sum_cons]
      omega
  have hs : value.utf8ByteSize=textSize value.toList := by
    rw [← utf8ByteSize_ofList,String.ofList_toList]
  rw [hs]
  exact hb value.toList

/-- A quoted text has the bytes of its escaped characters and two more. -/
theorem debugText_size (value : String) :
    (debugText value).utf8ByteSize=escapedLength value+2 := by
  have he (cs : List Char) : textSize (cs.flatMap escapeDebug)=(cs.map escapedSize).sum := by
    induction cs with
    | nil => rfl
    | cons c cs ih =>
      rw [List.flatMap_cons,textSize_append,textSize_escapeDebug,ih,List.map_cons,List.sum_cons]
  have hq : "\"".utf8ByteSize=1 := by decide
  rw [debugText,String.utf8ByteSize_append,String.utf8ByteSize_append,
    utf8ByteSize_ofList (value.toList.flatMap escapeDebug),he,hq,escapedLength]
  omega

/-- The name of an error of a runtime. -/
def RuntimeError.debug : RuntimeError → String
  | .emptyWorkloadId => "EmptyWorkloadId"
  | .invalidParticipantIdentity => "InvalidParticipantIdentity"
  | .invalidNodeIdentity => "InvalidNodeIdentity"
  | .invalidResources => "InvalidResources"
  | .unsupported => "Unsupported"
  | .executionFailed => "ExecutionFailed"

/-- The name of an error of the table of runtimes. -/
def RuntimeRegistryError.debug : RuntimeRegistryError → String
  | .emptyName => "EmptyName"
  | .emptyVersion => "EmptyVersion"
  | .duplicateRuntime => "DuplicateRuntime"
  | .runtimeNotFound => "RuntimeNotFound"

/-- The name of an error of an executor, around that of the error inside it. -/
def EndpointExecutionError.debug : EndpointExecutionError → String
  | .rejected => "Rejected"
  | .executionFailed => "ExecutionFailed"
  | .runtime error => "Runtime("++error.debug++")"
  | .runtimeRegistry error => "RuntimeRegistry("++error.debug++")"

/-- The text of an error of an endpoint: its name, and for a failed execution
the request's name in quotes and the error of the executor. -/
def EndpointError.debug : EndpointError → String
  | .emptyRequestId => "EmptyRequestId"
  | .emptyWorkloadId => "EmptyWorkloadId"
  | .invalidParticipantIdentity => "InvalidParticipantIdentity"
  | .invalidNodeIdentity => "InvalidNodeIdentity"
  | .invalidRuntimeSpec => "InvalidRuntimeSpec"
  | .participantMismatch => "ParticipantMismatch"
  | .executionFailed requestId error =>
    "ExecutionFailed \x7b request_id: "++debugText requestId++", error: "++error.debug++" \x7d"

omit [DebugTable] in
/-- An error of an executor has at most thirty-five bytes. -/
theorem EndpointExecutionError.debug_size (error : EndpointExecutionError) :
    error.debug.utf8ByteSize ≤ 35 := by
  rcases error with _|_|error|error
  · decide
  · decide
  · cases error <;> decide
  · cases error <;> decide

/-- A failed execution is reported in the bytes of its two parts and
forty-three more. -/
theorem EndpointError.debug_executionFailed_size (requestId : String)
    (error : EndpointExecutionError) :
    (EndpointError.executionFailed requestId error).debug.utf8ByteSize=
      escapedLength requestId+error.debug.utf8ByteSize+43 := by
  have hs (a b c d e : String) (ha : a.utf8ByteSize=30) (hc : c.utf8ByteSize=9)
      (he : e.utf8ByteSize=2) :
      (a++b++c++d++e).utf8ByteSize=b.utf8ByteSize+d.utf8ByteSize+41 := by
    simp only [String.utf8ByteSize_append,ha,hc,he]
    omega
  have h : (EndpointError.executionFailed requestId error).debug.utf8ByteSize=
      (debugText requestId).utf8ByteSize+error.debug.utf8ByteSize+41 :=
    hs _ (debugText requestId) _ error.debug _ rfl rfl rfl
  rw [h,debugText_size]
  omega

/-- An error that is found before the execution has at most twenty-six bytes. -/
theorem EndpointError.debug_size {error : EndpointError}
    (h : ∀ requestId failure,error≠.executionFailed requestId failure) :
    error.debug.utf8ByteSize ≤ 26 := by
  cases error with
  | executionFailed requestId failure => exact (h requestId failure rfl).elim
  | _ =>
    dsimp only [EndpointError.debug]
    decide +kernel

/-- The request's name is quoted in the report of its failure. -/
example : letI := asciiTable
    (EndpointError.executionFailed "a\"\x07" (.runtime .unsupported)).debug=
      "ExecutionFailed \x7b request_id: \"a\\\"\\u\x7b7\x7d\", error: Runtime(Unsupported) \x7d" := by
  decide +kernel

end Table

end OpenHost
