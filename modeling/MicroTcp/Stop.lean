-- `session::stop` has no guard: every call cancels the socket and starts its
-- own `async_shutdown`, so two stops shut down and close twice. A server
-- session, which only its own error handlers stop, shuts down at most once.
import MicroTcp.ServerSession

namespace micro_tcp.session_stop

open Session

/-- The `stop()` calls an input makes: `stop()` itself, or the handler of a frame transfer
that ends with an error other than `operation_aborted`. -/
def stopsOf : Input → Nat
  | .stop => 1
  | .complete op ec _ _ => if op.IsTransfer ∧ ec.IsFailure then 1 else 0
  | .send _ => 0

/-- The `async_shutdown`s started so far. -/
def shutdowns (s : Session) : Nat := s.log.count (.issue .shutdown)

/-- The runs of `do_close_socket` so far. -/
def closes (s : Session) : Nat := s.log.count .close

/-- The outstanding operations whose handler can close the socket. -/
def closers (s : Session) : Nat :=
  s.pending.count .handshake + s.pending.count .shutdown + s.pending.count .nullWrite

/-- After `n` calls of `stop()`: as many shutdowns started, and the closes done and still
possible at most one more. -/
structure Inv (n : Nat) (s : Session) : Prop where
  shutdowns_eq : shutdowns s = n
  closes_le : closes s + closers s ≤ n + 1

section step

variable {r : Role} {n : Nat} {s s' : Session} {op : Op} {ec : ErrorCode} {data : List Char}
  {room : Nat}

/-- A transfer's handler is none of the handlers that can close the socket. -/
theorem ne_of_isTransfer (h : op.IsTransfer) : op ≠ .handshake ∧ op ≠ .shutdown ∧ op ≠ .nullWrite := by
  rcases h with rfl | rfl | rfl | rfl <;> decide

theorem inv_start : Inv 0 accepted.start :=
  ⟨by decide, by decide⟩

/-- A step that calls `stop()` `k` times keeps the invariant when it starts as many shutdowns
and adds no more closes and closers than it takes away and stops. -/
theorem inv_of_counts (hi : Inv n s) (k : Nat) (hs : shutdowns s' = shutdowns s + k)
    (hcl : closes s' + closers s' ≤ closes s + closers s + k) : Inv (n + k) s' :=
  ⟨by have := hi.shutdowns_eq; omega, by have := hi.closes_le; omega⟩

/-- A frame transfer that succeeds starts at most another transfer. -/
theorem inv_transfer_success (hi : Inv n s) (hop : op.IsTransfer)
    (hs : s.complete r op .success data room = .ok s') : Inv n s' := by
  unfold Op.IsTransfer at hop
  rcases hop with rfl | rfl | rfl | rfl
  · rw [complete_readHeader_success] at hs
    obtain ⟨m, -, rfl⟩ := onReadHeader_ok hs
    exact inv_of_counts hi 0 (by simp [shutdowns])
      (by simp [closes, closers, List.count_append, List.count_erase])
  · rw [complete_readContent_success] at hs
    cases hs
    cases r <;> exact inv_of_counts hi 0 (by simp [shutdowns, onReadContent])
      (by simp [closes, closers, onReadContent, List.count_append, List.count_erase])
  · rw [complete_writeHeader_success] at hs
    obtain ⟨m, -, rfl⟩ := onWriteHeader_ok hs
    exact inv_of_counts hi 0 (by simp [shutdowns])
      (by simp [closes, closers, List.count_append, List.count_erase])
  · rw [complete_writeContent_success] at hs
    cases hs
    cases r <;> exact inv_of_counts hi 0 (by simp [shutdowns, onWriteContent])
      (by simp [closes, closers, onWriteContent, List.count_append, List.count_erase])

/-- A completion whose handler does not call `stop()` starts no shutdown, and closes at most
what an outstanding handshake, shutdown or null write could close. -/
theorem inv_complete_of_not_stop (hi : Inv n s) (hop : op ∈ s.pending)
    (hf : ¬(op.IsTransfer ∧ ec.IsFailure)) (hs : s.complete r op ec data room = .ok s') :
    Inv n s' := by
  have hpos := List.count_pos_iff.2 hop
  by_cases htr : op.IsTransfer
  · rcases ec.trichotomy with rfl | rfl | hec
    · exact inv_transfer_success hi htr hs
    · rw [complete_aborted (.inr htr)] at hs
      cases hs
      exact inv_of_counts hi 0 rfl
        (by simp [closes, closers, List.count_erase, ne_of_isTransfer htr])
    · exact absurd ⟨htr, hec⟩ hf
  · cases op with
    | handshake =>
      rcases ec.trichotomy with rfl | rfl | hec
      · rw [complete_handshake_success] at hs
        cases hs
        cases r <;> exact inv_of_counts hi 0 (by simp [shutdowns, onSecureHandshake])
          (by simp [closes, closers, onSecureHandshake, List.count_append, List.count_erase])
      · rw [complete_aborted (.inl rfl)] at hs
        cases hs
        exact inv_of_counts hi 0 rfl (by simp [closes, closers, List.count_erase])
      · rw [complete_handshake_failure hec] at hs
        cases hs
        exact inv_of_counts hi 0 (by simp [shutdowns])
          (by simp [closes, closers, List.count_append, List.count_erase]; omega)
    | shutdown =>
      rw [complete_shutdown] at hs
      cases hs
      unfold onShutdownDone
      split
      · exact inv_of_counts hi 0 (by simp [shutdowns])
          (by simp [closes, closers, List.count_append, List.count_erase]; omega)
      · cases r <;> exact inv_of_counts hi 0 (by simp [shutdowns, onShutdownSecureStream])
          (by simp [closes, closers, onShutdownSecureStream, List.count_append,
            List.count_erase]; omega)
    | nullWrite =>
      rw [complete_nullWrite] at hs
      cases hs
      exact inv_of_counts hi 0 (by simp [shutdowns])
        (by simp [closes, closers, List.count_append, List.count_erase]; omega)
    | _ => exact absurd (by simp [Op.IsTransfer]) htr

theorem inv_complete (hi : Inv n s) (hop : op ∈ s.pending)
    (hs : s.complete r op ec data room = .ok s') :
    Inv (n + stopsOf (.complete op ec data room)) s' := by
  by_cases hf : op.IsTransfer ∧ ec.IsFailure
  · rw [stopsOf, if_pos hf, complete_transfer_failure hf.1 hf.2] at *
    cases hs
    exact inv_of_counts hi 1 (by simp [shutdowns, stop]) (by
      simp [closes, closers, stop, List.count_append, List.count_erase, ne_of_isTransfer hf.1]
      omega)
  · rw [stopsOf, if_neg hf]
    exact inv_complete_of_not_stop hi hop hf hs

end step

end micro_tcp.session_stop
