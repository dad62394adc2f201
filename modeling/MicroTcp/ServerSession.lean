-- A `server_session` driven only by the completions of its own operations:
-- one operation at a time, handshake, then read header, read content, write
-- header, write content over and over, and at most one shutdown and one close.
import MicroTcp.Session

namespace micro_tcp.server_session

open Session

/-- The runs of a server session: only the completions of its operations drive it. -/
def Reachable (h : Message → Message → Message) : Session → Prop :=
  micro_tcp.Reachable (.server h) fun i _ => i.IsCompletion

/-- The transfers of one request and its response. -/
def cycle : List Op := [.readHeader, .readContent, .writeHeader, .writeContent]

/-- The trace after the handshake, `n` whole cycles and the first `j` transfers of the next. -/
def opsTrace (n j : Nat) : List Event :=
  .issue .handshake :: ((List.replicate n cycle).flatten ++ cycle.take j).map .issue

/-- What the read buffer holds while a read waits. -/
def BufferReady (op : Op) (s : Session) : Prop :=
  match op with
  | .readHeader => s.read_buffer.header_buffer.length = defaultHeaderLength
  | .readContent =>
    s.read_buffer.getHeaderBufferContentLength = some s.read_buffer.content_buffer.length
  | _ => True

/-- The traces of a server session with nothing outstanding: a cancelled operation left
it, or it closed. -/
def Ended (t : List Event) : Prop :=
  t = [.issue .handshake] ∨ t = [.issue .handshake, .close] ∨
  ∃ n j, j < 4 ∧ (t = opsTrace n (j + 1) ∨ t = opsTrace n (j + 1) ++ [.issue .shutdown, .close] ∨
    t = opsTrace n (j + 1) ++ [.issue .shutdown, .issue .nullWrite, .close])

/-- Where a server session stands between two completions. -/
inductive Inv : Session → Prop
  | handshaking {s : Session} : s.pending = [.handshake] → s.trace = [.issue .handshake] → Inv s
  | transferring {s : Session} (n j : Nat) (op : Op) : j < 4 → cycle[j]? = some op →
      s.pending = [op] → s.trace = opsTrace n (j + 1) → BufferReady op s → Inv s
  | shuttingDown {s : Session} (n j : Nat) : j < 4 → s.pending = [.shutdown] →
      s.trace = opsTrace n (j + 1) ++ [.issue .shutdown] → Inv s
  | nullWriting {s : Session} (n j : Nat) : j < 4 → s.pending = [.nullWrite] →
      s.trace = opsTrace n (j + 1) ++ [.issue .shutdown, .issue .nullWrite] → Inv s
  | ended {s : Session} : s.pending = [] → Ended s.trace → Inv s

theorem opsTrace_next (n j : Nat) (op : Op) (h : cycle[j]? = some op) :
    opsTrace n j ++ [.issue op] = opsTrace n (j + 1) := by
  simp [opsTrace, List.take_succ, h]

theorem opsTrace_cycle (n : Nat) : opsTrace n 4 = opsTrace (n + 1) 0 := by
  simp [opsTrace, List.replicate_succ', cycle]

/-! ## One completion -/

section step

variable {h : Message → Message → Message} {s s' : Session} {ec : ErrorCode} {data : List Char} {room : Nat}

theorem inv_start : Inv accepted.start := .handshaking rfl rfl

/-- A successful handshake starts the first header read. -/
theorem inv_handshake (hp : s.pending = [.handshake]) (ht : s.trace = [.issue .handshake])
    (hs : s.complete (.server h) .handshake ec data room = .ok s') : Inv s' := by
  rcases ec.trichotomy with rfl | rfl | hec
  · rw [complete_handshake_success] at hs
    cases hs
    refine .transferring 0 0 .readHeader (by decide) rfl ?_ ?_ ?_ <;>
      simp [onSecureHandshake, doReadHeader, BufferReady, hp, ht, opsTrace, cycle]
  · rw [complete_aborted (.inl rfl)] at hs
    cases hs
    exact .ended (by simp [hp]) (.inl ht)
  · rw [complete_handshake_failure hec] at hs
    cases hs
    exact .ended (by simp [hp]) (.inr (.inl (by simp [ht])))

/-- A successful transfer starts the next one of the cycle. -/
theorem inv_transfer_success {n j : Nat} {op : Op} (hj : j < 4) (hc : cycle[j]? = some op)
    (hp : s.pending = [op]) (ht : s.trace = opsTrace n (j + 1))
    (hs : s.complete (.server h) op .success data room = .ok s') : Inv s' := by
  obtain rfl | rfl | rfl | rfl : j = 0 ∨ j = 1 ∨ j = 2 ∨ j = 3 := by omega
  all_goals simp only [cycle, List.getElem?_cons_zero, List.getElem?_cons_succ,
    Option.some.injEq] at hc
  all_goals subst hc
  · rw [complete_readHeader_success] at hs
    obtain ⟨m, hm, rfl⟩ := onReadHeader_ok hs
    refine .transferring n 1 .readContent (by decide) rfl (by simp [doReadContent, hp]) ?_
      (Message.prepareContentBufferRead_ok hm).2
    simp [doReadContent, ht, opsTrace_next n 1 .readContent rfl]
  · rw [complete_readContent_success] at hs
    cases hs
    refine .transferring n 2 .writeHeader (by decide) rfl (by simp [onReadContent, doWriteHeader, hp]) ?_ trivial
    simp [onReadContent, doWriteHeader, ht, opsTrace_next n 2 .writeHeader rfl]
  · rw [complete_writeHeader_success] at hs
    obtain ⟨m, -, rfl⟩ := onWriteHeader_ok hs
    refine .transferring n 3 .writeContent (by decide) rfl (by simp [doWriteContent, hp]) ?_ trivial
    simp [doWriteContent, ht, opsTrace_next n 3 .writeContent rfl]
  · rw [complete_writeContent_success] at hs
    cases hs
    refine .transferring (n + 1) 0 .readHeader (by decide) rfl (by simp [onWriteContent, doReadHeader, hp])
      ?_ (by simp [onWriteContent, doReadHeader, BufferReady])
    simp [onWriteContent, doReadHeader, ht, opsTrace_cycle,
      ← opsTrace_next (n + 1) 0 .readHeader rfl]

/-- A transfer that fails starts the shutdown; a cancelled one leaves the session idle. -/
theorem inv_transfer {n j : Nat} {op : Op} (hj : j < 4) (hc : cycle[j]? = some op)
    (hp : s.pending = [op]) (ht : s.trace = opsTrace n (j + 1))
    (hs : s.complete (.server h) op ec data room = .ok s') : Inv s' := by
  have hop : op.IsTransfer := by
    obtain rfl | rfl | rfl | rfl : j = 0 ∨ j = 1 ∨ j = 2 ∨ j = 3 := by omega
    all_goals simp only [cycle, List.getElem?_cons_zero, List.getElem?_cons_succ,
      Option.some.injEq] at hc
    all_goals subst hc; simp [Op.IsTransfer]
  rcases ec.trichotomy with rfl | rfl | hec
  · exact inv_transfer_success hj hc hp ht hs
  · rw [complete_aborted (.inr hop)] at hs
    cases hs
    exact .ended (by simp [hp]) (.inr (.inr ⟨n, j, hj, .inl ht⟩))
  · rw [complete_transfer_failure hop hec] at hs
    cases hs
    exact .shuttingDown n j hj (by simp [stop, doShutdownSecureStream, record, hp])
      (by simp [stop, doShutdownSecureStream, ht])

/-- One completion keeps the invariant. -/
theorem inv_complete {op : Op} (hi : Inv s) (hop : op ∈ s.pending)
    (hs : s.complete (.server h) op ec data room = .ok s') : Inv s' := by
  cases hi with
  | handshaking hp ht =>
    rw [hp, List.mem_singleton] at hop
    subst hop
    exact inv_handshake hp ht hs
  | transferring n j _ hj hc hp ht _ =>
    rw [hp, List.mem_singleton] at hop
    subst hop
    exact inv_transfer hj hc hp ht hs
  | shuttingDown n j hj hp ht =>
    rw [hp, List.mem_singleton] at hop
    subst hop
    rw [complete_shutdown] at hs
    cases hs
    unfold onShutdownDone
    split
    · exact .ended (by simp [hp]) (.inr (.inr ⟨n, j, hj, .inr (.inl (by simp [ht]))⟩))
    · exact .nullWriting n j hj (by simp [onShutdownSecureStream, hp])
        (by simp [onShutdownSecureStream, ht])
  | nullWriting n j hj hp ht =>
    rw [hp, List.mem_singleton] at hop
    subst hop
    rw [complete_nullWrite] at hs
    cases hs
    exact .ended (by simp [hp]) (.inr (.inr ⟨n, j, hj, .inr (.inr (by simp [ht]))⟩))
  | ended hp _ => simp [hp] at hop

theorem inv_of_reachable (hr : Reachable h s) : Inv s := by
  induction hr with
  | start => exact inv_start
  | step _ hi hen happ ih =>
    rename_i i _
    cases i with
    | complete op ec data room => exact inv_complete ih hen.1 happ
    | stop => cases hi
    | send m => cases hi

end step

/-! ## What the invariant says -/

end micro_tcp.server_session
