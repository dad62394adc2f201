-- A client session and a server session joined by the secure stream: a byte
-- stream each way, in chunks of any size, with no transport error, no `stop()`
-- and memory for every buffer asked for; a handler that faults ends the run.
import MicroTcp.Session

namespace micro_tcp.exchange

open Session

/-- The two ends of the connection. -/
inductive Party
  | client
  | server
deriving DecidableEq, Repr

/-- One end: its session, and how many bytes of its outstanding write are on the wire. -/
structure End where
  session : Session
  sent : Nat
deriving DecidableEq, Repr

/-- The connection: both ends, the bytes on the wire towards each end that it has not read
yet, and the messages the client's caller has still to send, with the number it sent. -/
structure Exchange where
  client : End
  server : End
  toServer : List Char
  toClient : List Char
  unsent : List Message
  sends : Nat
deriving DecidableEq, Repr

/-- What can happen next: the caller sends its next message, `n` more bytes of an outstanding
write reach the wire, or an outstanding operation completes without error. -/
inductive Action
  | send
  | transmit (p : Party) (op : Op) (n : Nat)
  | complete (p : Party) (op : Op)
deriving DecidableEq, Repr

/-- The buffer `do_write_header` or `do_write_content` gives `async_write`. -/
def outgoing (s : Session) : Op → List Char
  | .writeHeader => s.write_buffer.header_buffer
  | .writeContent => s.write_buffer.content_buffer
  | _ => []

/-- The size of the buffer `do_read_header` or `do_read_content` gives `async_read`. -/
def incoming (s : Session) : Op → Nat
  | .readHeader => s.read_buffer.header_buffer.length
  | .readContent => s.read_buffer.content_buffer.length
  | _ => 0

/-- The contents the server handed `handle_request`, oldest first. -/
def requests (l : List Event) : List (List Char) :=
  l.filterMap fun | .request c => some c | _ => none

/-- The contents the client handed `handle_response`, oldest first. -/
def responses (l : List Event) : List (List Char) :=
  l.filterMap fun | .response c => some c | _ => none

@[simp] theorem requests_append (l l' : List Event) :
    requests (l ++ l') = requests l ++ requests l' := List.filterMap_append _ _ _

@[simp] theorem responses_append (l l' : List Event) :
    responses (l ++ l') = responses l ++ responses l' := List.filterMap_append _ _ _

@[simp] theorem requests_nil : requests [] = [] := rfl
@[simp] theorem requests_issue (op : Op) (l : List Event) : requests (.issue op :: l) = requests l := rfl
@[simp] theorem requests_secured (l : List Event) : requests (.secured :: l) = requests l := rfl
@[simp] theorem requests_request (c : List Char) (l : List Event) :
    requests (.request c :: l) = c :: requests l := rfl
@[simp] theorem responses_nil : responses [] = [] := rfl
@[simp] theorem responses_issue (op : Op) (l : List Event) : responses (.issue op :: l) = responses l := rfl
@[simp] theorem responses_secured (l : List Event) : responses (.secured :: l) = responses l := rfl
@[simp] theorem responses_response (c : List Char) (l : List Event) :
    responses (.response c :: l) = c :: responses l := rfl

namespace End

/-- `n` more bytes of the end's outstanding write `op` reach the wire. -/
def transmit (op : Op) (n : Nat) (x : End) : Option (End × List Char) :=
  if op ∈ x.session.pending ∧ 0 < n ∧ x.sent + n ≤ (outgoing x.session op).length then
    some ({ x with sent := x.sent + n }, ((outgoing x.session op).drop x.sent).take n)
  else none

/-- The end's outstanding `op` completes without error: a write once all its bytes are on the
wire, a read once `inbox` holds the bytes that fill its buffer, which it takes from there. The
allocator gives every content buffer up to `max_size()`. -/
def complete (r : Role) (op : Op) (x : End) (inbox : List Char) :
    Option (Except Fault (End × List Char)) :=
  if op ∈ x.session.pending ∧ x.sent = (outgoing x.session op).length ∧
      incoming x.session op ≤ inbox.length then
    some ((x.session.complete r op .success (inbox.take (incoming x.session op)) vectorMaxSize).map
      fun s => (⟨s, 0⟩, inbox.drop (incoming x.session op)))
  else none

theorem transmit_eq_some {op : Op} {n : Nat} {x x' : End} {b : List Char}
    (h : x.transmit op n = some (x', b)) :
    op ∈ x.session.pending ∧ 0 < n ∧ x.sent + n ≤ (outgoing x.session op).length ∧
      x' = { x with sent := x.sent + n } ∧ b = ((outgoing x.session op).drop x.sent).take n := by
  unfold transmit at h
  split at h
  · rename_i hc
    cases h
    exact ⟨hc.1, hc.2.1, hc.2.2, rfl, rfl⟩
  · cases h

theorem complete_eq_some {r : Role} {op : Op} {x : End} {inbox : List Char}
    {res : Except Fault (End × List Char)} (h : x.complete r op inbox = some res) :
    op ∈ x.session.pending ∧ x.sent = (outgoing x.session op).length ∧
      incoming x.session op ≤ inbox.length ∧
      res = (x.session.complete r op .success (inbox.take (incoming x.session op)) vectorMaxSize).map
        fun s => (⟨s, 0⟩, inbox.drop (incoming x.session op)) := by
  unfold complete at h
  split at h
  · rename_i hc
    cases h
    exact ⟨hc.1, hc.2.1, hc.2.2, rfl⟩
  · cases h

/-- An outstanding operation whose bytes are all out, and whose buffer the inbox fills, can
complete. -/
theorem complete_ne_none {r : Role} {op : Op} {x : End} {inbox : List Char}
    (hop : op ∈ x.session.pending) (hsent : x.sent = (outgoing x.session op).length)
    (hin : incoming x.session op ≤ inbox.length) : x.complete r op inbox ≠ none := by
  simp [complete, hop, hsent, hin]

/-- An outstanding write with bytes left can put them on the wire. -/
theorem transmit_ne_none {op : Op} {x : End} (hop : op ∈ x.session.pending)
    (hlt : x.sent < (outgoing x.session op).length) :
    x.transmit op ((outgoing x.session op).length - x.sent) ≠ none := by
  simp only [transmit, ne_eq]
  rw [if_pos ⟨hop, by omega, by omega⟩]
  exact Option.some_ne_none _

/-- The bytes a read takes from its inbox fill its buffer. -/
theorem fills_take {s : Session} {op : Op} {inbox : List Char} (hin : incoming s op ≤ inbox.length) :
    Session.Fills op (inbox.take (incoming s op)) s := by
  cases op <;> simp [Session.Fills, incoming] at hin ⊢ <;> omega

/-- An end's completion is a completion of its session: the operation is outstanding, a read
has filled its buffer, and the session steps as `Session.complete` says. -/
theorem complete_eq_ok {r : Role} {op : Op} {x x' : End} {inbox inbox' : List Char}
    (h : x.complete r op inbox = some (.ok (x', inbox'))) :
    Input.Enabled (.complete op .success (inbox.take (incoming x.session op)) vectorMaxSize) x.session ∧
      x.session.apply r (.complete op .success (inbox.take (incoming x.session op)) vectorMaxSize) =
        .ok x'.session := by
  obtain ⟨hop, -, hin, hres⟩ := complete_eq_some h
  refine ⟨⟨hop, fun _ => fills_take hin⟩, ?_⟩
  cases hc : x.session.complete r op .success (inbox.take (incoming x.session op)) vectorMaxSize with
  | error f => rw [hc] at hres; cases hres
  | ok s' => rw [hc] at hres; cases hres; exact hc

/-- An end waiting for its handshake or a write can always move: it puts more bytes on the
wire, or completes. -/
theorem not_stuck {r : Role} {op : Op} {x : End} {inbox : List Char}
    (hop : op ∈ x.session.pending) (hle : x.sent ≤ (outgoing x.session op).length)
    (hin : incoming x.session op ≤ inbox.length) (ht : ∀ k, x.transmit op k = none) :
    x.complete r op inbox ≠ none := by
  rcases Nat.lt_or_ge x.sent (outgoing x.session op).length with hlt | hge
  · exact absurd (ht _) (transmit_ne_none hop hlt)
  · exact complete_ne_none hop (by omega) hin

end End

namespace Exchange

/-- Both sessions made and started, the caller holding the messages `ms`. -/
def start (ms : List Message) : Exchange :=
  ⟨⟨accepted.start, 0⟩, ⟨accepted.start, 0⟩, [], [], ms, 0⟩

/-- The connection after an action of a server with request handler `h`: `none` when the
action cannot happen now, an error when a handler faults. -/
def step (h : Message → Message → Message) : Action → Exchange → Option (Except Fault Exchange)
  | .send, e =>
    match e.unsent with
    | m :: rest =>
      if Event.secured ∈ e.client.session.log ∧ (responses e.client.session.log).length = e.sends
      then some (.ok { e with client := { e.client with session := e.client.session.send m },
                              unsent := rest, sends := e.sends + 1 })
      else none
    | [] => none
  | .transmit .client op n, e =>
    (e.client.transmit op n).map fun xb => .ok { e with client := xb.1, toServer := e.toServer ++ xb.2 }
  | .transmit .server op n, e =>
    (e.server.transmit op n).map fun xb => .ok { e with server := xb.1, toClient := e.toClient ++ xb.2 }
  | .complete .client op, e =>
    (e.client.complete .client op e.toClient).map
      (Except.map fun xw => { e with client := xw.1, toClient := xw.2 })
  | .complete .server op, e =>
    (e.server.complete (.server h) op e.toServer).map
      (Except.map fun xw => { e with server := xw.1, toServer := xw.2 })

section step

variable {h : Message → Message → Message} {e : Exchange} {res : Except Fault Exchange}

theorem step_send_eq_some (hs : e.step h .send = some res) :
    ∃ m rest, e.unsent = m :: rest ∧ Event.secured ∈ e.client.session.log ∧
      (responses e.client.session.log).length = e.sends ∧
      res = .ok { e with client := { e.client with session := e.client.session.send m },
                         unsent := rest, sends := e.sends + 1 } := by
  simp only [step] at hs
  split at hs
  · rename_i m rest hu
    split at hs
    · rename_i hc
      cases hs
      exact ⟨m, rest, hu, hc.1, hc.2, rfl⟩
    · cases hs
  · cases hs

theorem step_transmit_eq_some {p : Party} {op : Op} {n : Nat}
    (hs : e.step h (.transmit p op n) = some res) :
    match p with
    | .client => ∃ x b, e.client.transmit op n = some (x, b) ∧
        res = .ok { e with client := x, toServer := e.toServer ++ b }
    | .server => ∃ x b, e.server.transmit op n = some (x, b) ∧
        res = .ok { e with server := x, toClient := e.toClient ++ b } := by
  cases p <;>
  · obtain ⟨⟨x, b⟩, hxb, rfl⟩ := Option.map_eq_some'.1 hs
    exact ⟨x, b, hxb, rfl⟩

theorem step_complete_eq_some {p : Party} {op : Op} (hs : e.step h (.complete p op) = some res) :
    match p with
    | .client => ∃ r, e.client.complete .client op e.toClient = some r ∧
        res = r.map fun xw => { e with client := xw.1, toClient := xw.2 }
    | .server => ∃ r, e.server.complete (.server h) op e.toServer = some r ∧
        res = r.map fun xw => { e with server := xw.1, toServer := xw.2 } := by
  cases p <;>
  · obtain ⟨r, hr, rfl⟩ := Option.map_eq_some'.1 hs
    exact ⟨r, hr, rfl⟩

end step

theorem step_send_ne_none {h : Message → Message → Message} {e : Exchange} {m : Message}
    {rest : List Message} (hu : e.unsent = m :: rest) (hsec : Event.secured ∈ e.client.session.log)
    (hresp : (responses e.client.session.log).length = e.sends) : e.step h .send ≠ none := by
  simp [step, hu, hsec, hresp]

/-- The connection after the actions, one after the other: `none` when one cannot happen,
an error when a handler faults. -/
def run (h : Message → Message → Message) : List Action → Exchange → Option (Except Fault Exchange)
  | [], e => some (.ok e)
  | a :: as, e =>
    match e.step h a with
    | some (.ok e') => e'.run h as
    | o => o

/-- A run that ends in a state went through a first step. -/
theorem run_cons_eq_ok {h : Message → Message → Message} {a : Action} {as : List Action}
    {e e' : Exchange} (hr : e.run h (a :: as) = some (.ok e')) :
    ∃ e₁, e.step h a = some (.ok e₁) ∧ e₁.run h as = some (.ok e') := by
  simp only [run] at hr
  split at hr
  · exact ⟨_, ‹_›, hr⟩
  · rename_i hne
    exact absurd hr (hne _)

end Exchange

/-! ## What the two ends exchange -/

/-- The frames the client writes for the messages `ms`, each as `client_session::send`
prepares it. -/
def requestFrames (ms : List Message) : List Message := ms.map Message.prepareHeaderBufferWrite

/-- The response buffer the server hands `handle_request` in exchange `i`: the session's
`message()` first, and later the buffer `on_write_content` cleared. -/
def responseBuffer (i : Nat) : Message := if i = 0 then Message.init else ⟨[], []⟩

/-- The response the server writes to the `i`-th message `m`: what `h` leaves in the response
buffer given the request of `m`'s content, under the header written for it. -/
def reply (h : Message → Message → Message) (i : Nat) (m : Message) : Message :=
  (h (Message.ofContent m.content_buffer) (responseBuffer i)).prepareHeaderBufferWrite

/-- The responses to the messages `ms`. -/
def replies (h : Message → Message → Message) (ms : List Message) : List Message :=
  ms.mapIdx (reply h)

/-- The bytes of a written message: its header, then its content. -/
def frame (m : Message) : List Char := m.header_buffer ++ m.content_buffer

/-- The bytes of the messages, one frame after the other. -/
def stream (ws : List Message) : List Char := (ws.map frame).flatten

end micro_tcp.exchange
