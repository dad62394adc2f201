-- A `client_session` under `client::send`, which `is_connected()` alone
-- guards. A caller that sends only to an idle session gets one operation at a
-- time, every frame write after the handshake, and no buffer changed under it.
import MicroTcp.Session

namespace micro_tcp.client_session

open Session

/-- The inputs of a client: completions, and `client::send` whenever
`client::is_connected()` holds, that is while the socket is open. -/
def Connected (i : Input) (s : Session) : Prop :=
  i.IsCompletion ∨ ∃ m, i = .send m ∧ s.socket_open = true

/-- A connected client session whose handshake succeeded and that waits for nothing. -/
def Idle (s : Session) : Prop := s.socket_open = true ∧ s.pending = [] ∧ .secured ∈ s.log

/-- The inputs of a caller that sends only to an idle session. -/
def WhenIdle (i : Input) (s : Session) : Prop :=
  i.IsCompletion ∨ ∃ m, i = .send m ∧ Idle s

/-- Every frame write in the log comes after `on_secure_handshake` ran. -/
def WritesAfterHandshake (l : List Event) : Prop :=
  ∀ (i : Nat) (op : Op), l[i]? = some (.issue op) → (op = .writeHeader ∨ op = .writeContent) →
    ∃ k < i, l[k]? = some Event.secured

/-- A single `client_session::send` while the handshake is outstanding starts a frame write
beside it, and a second one reassigns `write_buffer_` under that write. -/
theorem send_during_handshake :
    let s₁ := (accepted.start).send (Message.ofContent "a".toList)
    let s₂ := s₁.send (Message.ofContent "bb".toList)
    micro_tcp.Reachable .client Connected s₂ ∧
      s₁.pending = [.handshake, .writeHeader] ∧ .secured ∉ s₁.log ∧
      .writeHeader ∈ s₁.pending ∧ s₂.write_buffer ≠ s₁.write_buffer := by
  refine ⟨.step (.step .start (.inr ⟨_, rfl, rfl⟩) trivial rfl) (.inr ⟨_, rfl, rfl⟩) trivial rfl,
    by decide, by decide, by decide, by decide⟩

/-! ## The invariant of a client that sends only when idle -/

/-- What holds between two inputs of a client that sends only when idle. -/
structure Inv (s : Session) : Prop where
  at_most_one : s.pending.length ≤ 1
  writes_after : WritesAfterHandshake s.log
  busy_secured : ∀ op ∈ s.pending, op ≠ .handshake → .secured ∈ s.log

theorem eq_singleton_of_mem {l : List Op} {op : Op} (hl : l.length ≤ 1) (h : op ∈ l) :
    l = [op] := by
  rcases l with _ | ⟨x, _ | ⟨y, l⟩⟩
  · cases h
  · rw [List.mem_singleton.1 h]
  · simp at hl

theorem writesAfterHandshake_append {l δ : List Event} (hl : WritesAfterHandshake l)
    (hδ : ∀ op, .issue op ∈ δ → (op = .writeHeader ∨ op = .writeContent) → .secured ∈ l) :
    WritesAfterHandshake (l ++ δ) := by
  intro i op hi hw
  by_cases hil : i < l.length
  · rw [List.getElem?_append_left hil] at hi
    obtain ⟨k, hk, hk'⟩ := hl i op hi hw
    exact ⟨k, hk, by rw [List.getElem?_append_left (by omega)]; exact hk'⟩
  · rw [List.getElem?_append_right (by omega)] at hi
    obtain ⟨k, hk⟩ := List.mem_iff_getElem?.1 (hδ op (List.mem_iff_getElem?.2 ⟨_, hi⟩) hw)
    have hkl : k < l.length := by
      by_contra h
      rw [List.getElem?_eq_none (by omega)] at hk
      cases hk
    exact ⟨k, by omega, by rw [List.getElem?_append_left hkl]; exact hk⟩

section step

variable {s s' : Session} {op : Op} {ec : ErrorCode} {data : List Char} {room : Nat}

theorem inv_start : Inv accepted.start := by
  refine ⟨by simp [start, accepted], fun i op hi hw => ?_, by simp [start, accepted]⟩
  rcases i with _ | i <;> simp [start, accepted] at hi
  subst hi
  simp at hw

/-- A step that appends `δ` to the log and leaves at most one operation outstanding keeps the
invariant, when each frame write in `δ` and the operation left comes after the handshake. -/
theorem inv_of (hi : Inv s) (δ : List Event) (hlog : s'.log = s.log ++ δ)
    (hw : ∀ op, .issue op ∈ δ → (op = .writeHeader ∨ op = .writeContent) → .secured ∈ s.log)
    (hp : s'.pending = [] ∨ ∃ x, s'.pending = [x] ∧ .secured ∈ s.log) : Inv s' := by
  refine ⟨?_, hlog ▸ writesAfterHandshake_append hi.writes_after hw, fun x hx _ => ?_⟩
  · rcases hp with hp | ⟨x, hp, _⟩ <;> simp [hp]
  · rcases hp with hp | ⟨y, _, hy⟩
    · simp [hp] at hx
    · exact hlog ▸ List.mem_append_left _ hy

theorem inv_send (hi : Inv s) (hidle : Idle s) (m : Message) : Inv (s.send m) :=
  inv_of hi [.issue .writeHeader] (by simp [send]) (fun _ _ _ => hidle.2.2)
    (.inr ⟨.writeHeader, by simp [send, hidle.2.1], hidle.2.2⟩)

theorem inv_transfer_success (hi : Inv s) (hop : op.IsTransfer) (hp : s.pending = [op])
    (hsec : .secured ∈ s.log) (hs : s.complete .client op .success data room = .ok s') : Inv s' := by
  unfold Op.IsTransfer at hop
  rcases hop with rfl | rfl | rfl | rfl
  · rw [complete_readHeader_success] at hs
    obtain ⟨m, -, rfl⟩ := onReadHeader_ok hs
    exact inv_of hi [.issue .readContent] (by simp) (by simp) (.inr ⟨.readContent, by simp [hp], hsec⟩)
  · rw [complete_readContent_success] at hs
    cases hs
    exact inv_of hi _ rfl (by simp) (.inl (by simp [onReadContent, hp]))
  · rw [complete_writeHeader_success] at hs
    obtain ⟨m, -, rfl⟩ := onWriteHeader_ok hs
    exact inv_of hi [.issue .writeContent] (by simp) (fun _ _ _ => hsec)
      (.inr ⟨.writeContent, by simp [hp], hsec⟩)
  · rw [complete_writeContent_success] at hs
    cases hs
    exact inv_of hi [.issue .readHeader] (by simp [onWriteContent]) (by simp)
      (.inr ⟨.readHeader, by simp [onWriteContent, hp], hsec⟩)

theorem inv_complete (hi : Inv s) (hop : op ∈ s.pending)
    (hs : s.complete .client op ec data room = .ok s') : Inv s' := by
  have hp := eq_singleton_of_mem hi.at_most_one hop
  have hsec : op ≠ .handshake → .secured ∈ s.log := hi.busy_secured op hop
  by_cases htr : op.IsTransfer
  · have hsec := hsec (by rintro rfl; simp [Op.IsTransfer] at htr)
    rcases ec.trichotomy with rfl | rfl | hec
    · exact inv_transfer_success hi htr hp hsec hs
    · rw [complete_aborted (.inr htr)] at hs
      cases hs
      exact inv_of hi [] (by simp) (by simp) (.inl (by simp [hp]))
    · rw [complete_transfer_failure htr hec] at hs
      cases hs
      exact inv_of hi [.cancel, .issue .shutdown] (by simp [stop]) (by simp)
        (.inr ⟨.shutdown, by simp [stop, hp], hsec⟩)
  · cases op with
    | handshake =>
      rcases ec.trichotomy with rfl | rfl | hec
      · rw [complete_handshake_success] at hs
        cases hs
        exact inv_of hi [.secured] (by simp [onSecureHandshake]) (by simp)
          (.inl (by simp [onSecureHandshake, hp]))
      · rw [complete_aborted (.inl rfl)] at hs
        cases hs
        exact inv_of hi [] (by simp) (by simp) (.inl (by simp [hp]))
      · rw [complete_handshake_failure hec] at hs
        cases hs
        exact inv_of hi [.close] (by simp) (by simp) (.inl (by simp [hp]))
    | shutdown =>
      rw [complete_shutdown] at hs
      cases hs
      unfold onShutdownDone
      split <;> exact inv_of hi [.close] (by simp [onShutdownSecureStream]) (by simp)
        (.inl (by simp [onShutdownSecureStream, hp]))
    | nullWrite =>
      rw [complete_nullWrite] at hs
      cases hs
      exact inv_of hi [.close] (by simp) (by simp) (.inl (by simp [hp]))
    | _ => exact absurd (by simp [Op.IsTransfer]) htr

theorem inv_of_reachable (hr : micro_tcp.Reachable .client WhenIdle s) : Inv s := by
  induction hr with
  | start => exact inv_start
  | step _ hi hen happ ih =>
    rename_i i _
    cases i with
    | complete op ec data room => exact inv_complete ih hen.1 happ
    | stop => rcases hi with hi | ⟨_, hi, _⟩ <;> cases hi
    | send m =>
      rcases hi with hi | ⟨_, hm, hidle⟩
      · cases hi
      · cases hm
        cases happ
        exact inv_send ih hidle m

end step

/-- A client session whose caller sends only while it is idle: at most one operation is
outstanding, every frame write comes after the handshake succeeded, and while an operation is
outstanding the one step that can come is its completion, so no send and no other handler
changes a buffer under it. -/
theorem client_single_exchange_when_idle :
    (∀ s, micro_tcp.Reachable .client WhenIdle s →
      s.pending.length ≤ 1 ∧ WritesAfterHandshake s.log) ∧
    (∀ s s' i, micro_tcp.Reachable .client WhenIdle s → WhenIdle i s → i.Enabled s →
      s.apply .client i = .ok s' → ∀ op ∈ s.pending, i.Completes op) := by
  refine ⟨fun s hr => ⟨(inv_of_reachable hr).at_most_one, (inv_of_reachable hr).writes_after⟩,
    fun s s' i hr hi hen _ op hop => ?_⟩
  cases i with
  | complete op' ec data room =>
    have hp := eq_singleton_of_mem (inv_of_reachable hr).at_most_one hen.1
    rw [hp, List.mem_singleton] at hop
    exact ⟨ec, data, room, hop ▸ rfl⟩
  | stop => rcases hi with hi | ⟨_, hi, _⟩ <;> cases hi
  | send m =>
    rcases hi with hi | ⟨_, _, hidle⟩
    · cases hi
    · simp [hidle.2.1] at hop

/-- After the handshake and one send, the header write is outstanding, and the one step that
can come is its completion. -/
theorem client_single_exchange_when_idle_after_send :
    ∃ s s', micro_tcp.Reachable .client WhenIdle s ∧ s.pending = [.writeHeader] ∧
      s.apply .client (.complete .writeHeader .success [] 0) = .ok s' ∧
      (s.pending.length ≤ 1 ∧ WritesAfterHandshake s.log) ∧
      ∀ op ∈ s.pending, (Input.complete .writeHeader .success [] 0).Completes op :=
  have hr : micro_tcp.Reachable .client WhenIdle _ :=
    (Reachable.start.next (.complete .handshake .success [] 0) (.inl trivial)
      ⟨by decide, fun _ => trivial⟩ rfl).next (.send (Message.ofContent "hi".toList))
      (.inr ⟨_, rfl, by decide, by decide, by decide⟩) trivial rfl
  ⟨_, _, hr, rfl, rfl, client_single_exchange_when_idle.1 _ hr,
    client_single_exchange_when_idle.2 _ _ _ hr (.inl trivial) ⟨by decide, fun _ => trivial⟩ rfl⟩

end micro_tcp.client_session
