import OpenHost.DetachedThreads
import OpenHost.Transport

/-!
# Serving a number of connections

The server accepts one connection after the other and spawns a thread for
each; behind the last one it joins the threads. A connection that it cannot
accept, a handler that returns an error, and a handler that panics all make
it return early. Then the connections behind are still being handled, so the
server has waited for all of them only when nothing of this kind happens, or
when it happens where nothing else can be running.
-/

namespace OpenHost

open DetachedThreads

/-- Accept a connection, if the listener does. -/
def accept (accepts : Bool) : Except TransportError Unit :=
  if accepts then .ok () else .error .networkFailure

/-- Join the thread that has handled a connection. -/
def joinWorker : Outcome TransportError Unit → Except TransportError Unit
  | .ok () => .ok ()
  | .err e => .error e
  | .panic => .error .networkFailure

/-- What the server waits for when it serves that many connections: which of
them the listener accepts, and how the thread of each ends. -/
def serveN (connectionCount : ℕ) (accepts : ℕ → Bool)
    (handleConnection : ℕ → Outcome TransportError Unit) : Fates TransportError where
  count := connectionCount
  acquired i := accept (accepts i)
  ended i := joinWorker (handleConnection i)

section Ends

variable {accepts : Bool} {ended : Outcome TransportError Unit}

/-- A connection is accepted, or the listener has failed. -/
theorem accept_eq_ok : accept accepts=.ok () ↔ accepts=true := by
  cases accepts <;> simp [accept]

/-- A connection is not accepted exactly when the listener has failed. -/
theorem exists_accept_eq_error : (∃ e,accept accepts=.error e) ↔ accepts=false := by
  cases accepts <;> simp [accept]

/-- Joining a thread succeeds exactly when its handler has. -/
theorem joinWorker_eq_ok : joinWorker ended=.ok () ↔ ended=.ok () := by
  cases ended <;> simp [joinWorker]

end Ends

/-- Every run of the server leads on to its return, and what it returns is the
result of accepting all connections and then joining all threads in order. -/
theorem serveN_returns {connectionCount : ℕ} {accepts : ℕ → Bool}
    {handleConnection : ℕ → Outcome TransportError Unit} {s : Crew TransportError}
    (h : Reaches (serveN connectionCount accepts handleConnection) start s) :
    ∃ t,Reaches (serveN connectionCount accepts handleConnection) s t ∧ t.main=.returned (do
      (List.range connectionCount).forM fun i => accept (accepts i)
      (List.range connectionCount).forM fun i => joinWorker (handleConnection i)) := by
  obtain ⟨t,r,hreach,hr⟩ := exists_returned h
  have hresult := result_of_reaches (h.trans hreach) hr
  rw [hresult] at hr
  exact ⟨t,hreach,hr⟩

/-- Whatever the order of the steps, no thread is running once the server has
returned, exactly when the first connection is not accepted, or all are and
no handler but the last one fails or panics. -/
theorem serveN_quiet_iff (connectionCount : ℕ) (accepts : ℕ → Bool)
    (handleConnection : ℕ → Outcome TransportError Unit) :
    Quiet (serveN connectionCount accepts handleConnection) ↔
      0<connectionCount ∧ accepts 0=false ∨
      (∀ i<connectionCount,accepts i=true) ∧ ∀ i,i+1<connectionCount → handleConnection i=.ok () := by
  rw [quiet_iff,Fates.Awaited]
  refine or_congr (and_congr_right fun _ => exists_accept_eq_error) (and_congr ?_ ?_)
  · exact forall₂_congr fun _ _ => accept_eq_ok
  · refine forall_congr' fun i => ?_
    have hlast : i<connectionCount-1 ↔ i+1<connectionCount := by omega
    exact imp_congr hlast joinWorker_eq_ok

/-- The first of two handlers returns an error, the second is not over yet. -/
theorem not_quiet_two_connections :
    ¬Quiet (serveN 2 (fun _ => true) fun i => if i=0 then .err .malformedFrame else .ok ()) := by
  intro h
  have hreach : Reaches
      (serveN 2 (fun _ => true) fun i => if i=0 then .err .malformedFrame else .ok ()) start
      ⟨[.ended,.running],.returned (.error .malformedFrame)⟩ :=
    .head ⟨.main,trivial,.spawn (by decide) rfl⟩ <|
    .head ⟨.main,trivial,.spawn (by decide) rfl⟩ <|
    .head ⟨.main,trivial,.spawned rfl⟩ <|
    .head ⟨.thread 0,trivial,.finish rfl⟩ <|
    .head ⟨.main,trivial,.fail rfl rfl⟩ .refl
  exact h _ _ hreach rfl (by decide)

end OpenHost
