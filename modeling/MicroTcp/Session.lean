-- The session engine of `session.cpp`: the asynchronous operations a session
-- starts on its secure stream, the handlers that run when they complete, and
-- the hooks by which `server_session.cpp` and `client_session.cpp` differ.
import MicroTcp.Message

namespace micro_tcp

/-- A `boost::system::error_code` as the completion handlers test it. -/
inductive ErrorCode
  | success
  /-- `boost::asio::error::operation_aborted`, as after a cancel. -/
  | operationAborted
  /-- `boost::asio::error::eof`: the peer ended the stream. -/
  | eof
  /-- Any error of `boost::asio::error::get_ssl_category()`. -/
  | ssl
  /-- Any other error. -/
  | other
deriving DecidableEq, Repr

/-- An error that is not a cancellation: the handlers stop the session on it. -/
def ErrorCode.IsFailure (ec : ErrorCode) : Prop := ec ≠ .success ∧ ec ≠ .operationAborted

/-- The asynchronous operations a session starts on its secure stream. -/
inductive Op
  | handshake
  | readHeader
  | readContent
  | writeHeader
  | writeContent
  /-- `async_shutdown` in `do_shutdown_secure_stream`. -/
  | shutdown
  /-- The `async_write` of `null_buffers()` in `server_session::on_shutdown_secure_stream`. -/
  | nullWrite
deriving DecidableEq, Repr

theorem ErrorCode.trichotomy (ec : ErrorCode) :
    ec = .success ∨ ec = .operationAborted ∨ ec.IsFailure := by
  cases ec <;> simp [ErrorCode.IsFailure]

/-- The four frame transfers. -/
def Op.IsTransfer (op : Op) : Prop :=
  op = .readHeader ∨ op = .readContent ∨ op = .writeHeader ∨ op = .writeContent

instance : DecidablePred Op.IsTransfer := fun op =>
  inferInstanceAs (Decidable (op = _ ∨ op = _ ∨ op = _ ∨ op = _))

instance : DecidablePred ErrorCode.IsFailure := fun ec =>
  inferInstanceAs (Decidable (ec ≠ _ ∧ ec ≠ _))

/-- What a session did, oldest first. -/
inductive Event
  | issue (op : Op)
  /-- `socket().cancel()` in `stop()`. -/
  | cancel
  /-- `do_close_socket` closed the socket and ran `on_close_socket`. -/
  | close
  /-- `on_secure_handshake` ran. -/
  | secured
  /-- The server called `handle_request` on a request of this content. -/
  | request (content : List Char)
  /-- The client called `handle_response` on a response of this content. -/
  | response (content : List Char)
deriving DecidableEq, Repr

/-- The operations started and the closes, the part of the log the protocol is about. -/
@[simp] def Event.IsAction : Event → Bool
  | .issue _ | .close => true
  | _ => false

/-- `micro_tcp::session`: the two buffers, whether `socket_` is open, the operations
started whose handler has not run yet, and the log. -/
structure Session where
  read_buffer : Message
  write_buffer : Message
  socket_open : Bool
  pending : List Op
  log : List Event
deriving DecidableEq, Repr

/-- The two variants of `session`; a server session holds its `request_handler`, here the
response that `handle_request` leaves given the request and the response buffer. -/
inductive Role
  | server (handleRequest : Message → Message → Message)
  | client

/-- `request_handler::handle_request`, the default handler: the response echoes the request's
content. -/
def handleRequest (request response : Message) : Message :=
  response.setContentBuffer request.content_buffer

namespace Session

/-- A session made on a socket just accepted or connected: both buffers are `message()`. -/
def accepted : Session := ⟨Message.init, Message.init, true, [], []⟩

/-- The issued operations and closes. -/
def trace (s : Session) : List Event := s.log.filter Event.IsAction

def record (e : Event) (s : Session) : Session := { s with log := s.log ++ [e] }

/-- Start an asynchronous operation on the secure stream; its handler runs at `complete`. -/
def issue (op : Op) (s : Session) : Session :=
  { s with pending := s.pending ++ [op], log := s.log ++ [.issue op] }

/-- `session::do_secure_handshake`. -/
@[simp] def doSecureHandshake (s : Session) : Session := s.issue .handshake

/-- `session::do_read_header`: read `read_buffer_.header_buffer_.size()` bytes. -/
@[simp] def doReadHeader (s : Session) : Session := s.issue .readHeader

/-- `session::do_read_content`. -/
@[simp] def doReadContent (s : Session) : Session := s.issue .readContent

/-- `session::do_write_header`. -/
@[simp] def doWriteHeader (s : Session) : Session := s.issue .writeHeader

/-- `session::do_write_content`. -/
@[simp] def doWriteContent (s : Session) : Session := s.issue .writeContent

/-- `session::do_shutdown_secure_stream`. -/
@[simp] def doShutdownSecureStream (s : Session) : Session := s.issue .shutdown

/-- `session::do_close_socket`. Closing succeeds, also on a closed socket, so
`on_close_socket` runs; both variants only log there. -/
def doCloseSocket (s : Session) : Session :=
  { s with socket_open := false, log := s.log ++ [.close] }

/-- `session::stop`: cancel the socket, then `do_shutdown_secure_stream`. The cancel leaves
`pending` as it is: an operation it hits still completes, with `operation_aborted` or with
an outcome that was already queued. -/
def stop (s : Session) : Session := (s.record .cancel).doShutdownSecureStream

/-- `server_session::start` and `client_session::start`. -/
def start (s : Session) : Session := s.doSecureHandshake

/-- `client_session::send`: copy the message into `write_buffer_`, write its header, and
start writing it. -/
def send (m : Message) (s : Session) : Session :=
  { s with write_buffer := m.prepareHeaderBufferWrite }.doWriteHeader

/-! ## The hooks of the two variants -/

/-- `on_secure_handshake`: the server reads a request header, the client waits for `send`. -/
def onSecureHandshake : Role → Session → Session
  | .server _, s =>
    { s.record .secured with read_buffer := s.read_buffer.prepareHeaderBufferRead }.doReadHeader
  | .client, s => s.record .secured

/-- `on_read_header`, the same in both variants; `room` is what the content buffer can reach. -/
def onReadHeader (room : Nat) (s : Session) : Except Fault Session := do
  let m ← s.read_buffer.prepareContentBufferRead room
  pure { s with read_buffer := m }.doReadContent

/-- `on_read_content`: the server answers the request, the client hands the response over
and clears both buffers. -/
def onReadContent : Role → Session → Session
  | .server h, s =>
    { s.record (.request s.read_buffer.content_buffer) with
      write_buffer := (h s.read_buffer s.write_buffer).prepareHeaderBufferWrite }.doWriteHeader
  | .client, s =>
    { s.record (.response s.read_buffer.content_buffer) with
      read_buffer := s.read_buffer.clear, write_buffer := s.write_buffer.clear }

/-- `on_write_header`, the same in both variants. -/
def onWriteHeader (s : Session) : Except Fault Session := do
  let m ← s.write_buffer.prepareContentBufferWrite
  pure { s with write_buffer := m }.doWriteContent

/-- `on_write_content`: the server clears both buffers before it reads the next request,
the client reads the response. -/
def onWriteContent : Role → Session → Session
  | .server _, s =>
    { s with read_buffer := s.read_buffer.clear.prepareHeaderBufferRead,
             write_buffer := s.write_buffer.clear }.doReadHeader
  | .client, s => { s with read_buffer := s.read_buffer.prepareHeaderBufferRead }.doReadHeader

/-- `on_shutdown_secure_stream`: the server writes `null_buffers()` and closes when that
completes, the client closes at once. -/
def onShutdownSecureStream : Role → Session → Session
  | .server _, s => s.issue .nullWrite
  | .client, s => s.doCloseSocket

/-! ## The completion handlers -/

/-- The handler of `do_secure_handshake`. -/
def onHandshakeDone (r : Role) (ec : ErrorCode) (s : Session) : Session :=
  match ec with
  | .success => onSecureHandshake r s
  | .operationAborted => s
  | _ => s.doCloseSocket

/-- The handler that `do_read_header`, `do_read_content`, `do_write_header` and
`do_write_content` register around a hook; they differ only in what they log. -/
def onTransferDone (hook : Session → Except Fault Session) (ec : ErrorCode) (s : Session) :
    Except Fault Session :=
  match ec with
  | .success => hook s
  | .operationAborted => pure s
  | _ => pure s.stop

/-- The handler of `do_shutdown_secure_stream`: an error outside the SSL category counts as a
clean shutdown. -/
def onShutdownDone (r : Role) (ec : ErrorCode) (s : Session) : Session :=
  if ec = .ssl then s.doCloseSocket else onShutdownSecureStream r s

/-- The bytes a successful read leaves in the buffer it was given. -/
def receive (op : Op) (data : List Char) (s : Session) : Session :=
  match op with
  | .readHeader => { s with read_buffer := { s.read_buffer with header_buffer := data } }
  | .readContent => { s with read_buffer := { s.read_buffer with content_buffer := data } }
  | _ => s

/-- A successful `async_read` fills the whole buffer it was given. -/
def Fills (op : Op) (data : List Char) (s : Session) : Prop :=
  match op with
  | .readHeader => data.length = s.read_buffer.header_buffer.length
  | .readContent => data.length = s.read_buffer.content_buffer.length
  | _ => True

/-- `op` completes with `ec`: it is no longer outstanding, a successful read has filled its
buffer with `data`, and the handler runs, with `room` the largest content buffer `resize` can
reach then. -/
def complete (r : Role) (op : Op) (ec : ErrorCode) (data : List Char) (room : Nat) (s : Session) :
    Except Fault Session :=
  let s := { s with pending := s.pending.erase op }
  let s := if ec = .success then s.receive op data else s
  match op with
  | .handshake => pure (onHandshakeDone r ec s)
  | .readHeader => onTransferDone (onReadHeader room) ec s
  | .readContent => onTransferDone (fun s => pure (onReadContent r s)) ec s
  | .writeHeader => onTransferDone onWriteHeader ec s
  | .writeContent => onTransferDone (fun s => pure (onWriteContent r s)) ec s
  | .shutdown => pure (onShutdownDone r ec s)
  | .nullWrite => pure s.doCloseSocket

/-! ## Small laws -/

@[simp] theorem trace_mk (r w : Message) (o : Bool) (p : List Op) (l : List Event) :
    (Session.mk r w o p l).trace = l.filter Event.IsAction := rfl

@[simp] theorem filter_log (s : Session) : s.log.filter Event.IsAction = s.trace := rfl

@[simp] theorem issue_read_buffer (op : Op) (s : Session) : (s.issue op).read_buffer = s.read_buffer := rfl
@[simp] theorem issue_write_buffer (op : Op) (s : Session) : (s.issue op).write_buffer = s.write_buffer := rfl
@[simp] theorem issue_socket_open (op : Op) (s : Session) : (s.issue op).socket_open = s.socket_open := rfl
@[simp] theorem issue_pending (op : Op) (s : Session) : (s.issue op).pending = s.pending ++ [op] := rfl
@[simp] theorem issue_log (op : Op) (s : Session) : (s.issue op).log = s.log ++ [.issue op] := rfl

@[simp] theorem record_read_buffer (e : Event) (s : Session) : (s.record e).read_buffer = s.read_buffer := rfl
@[simp] theorem record_write_buffer (e : Event) (s : Session) : (s.record e).write_buffer = s.write_buffer := rfl
@[simp] theorem record_socket_open (e : Event) (s : Session) : (s.record e).socket_open = s.socket_open := rfl
@[simp] theorem record_pending (e : Event) (s : Session) : (s.record e).pending = s.pending := rfl
@[simp] theorem record_log (e : Event) (s : Session) : (s.record e).log = s.log ++ [e] := rfl

@[simp] theorem doCloseSocket_read_buffer (s : Session) : s.doCloseSocket.read_buffer = s.read_buffer := rfl
@[simp] theorem doCloseSocket_write_buffer (s : Session) : s.doCloseSocket.write_buffer = s.write_buffer := rfl
@[simp] theorem doCloseSocket_socket_open (s : Session) : s.doCloseSocket.socket_open = false := rfl
@[simp] theorem doCloseSocket_pending (s : Session) : s.doCloseSocket.pending = s.pending := rfl
@[simp] theorem doCloseSocket_log (s : Session) : s.doCloseSocket.log = s.log ++ [.close] := rfl

@[simp] theorem trace_issue (op : Op) (s : Session) : (s.issue op).trace = s.trace ++ [.issue op] := by
  simp only [trace, issue_log, List.filter_append]; rfl

@[simp] theorem trace_record (e : Event) (s : Session) :
    (s.record e).trace = s.trace ++ [e].filter Event.IsAction := by
  simp only [trace, record_log, List.filter_append]

@[simp] theorem trace_doCloseSocket (s : Session) : s.doCloseSocket.trace = s.trace ++ [.close] := by
  simp only [trace, doCloseSocket_log, List.filter_append]; rfl

@[simp] theorem receive_pending (op : Op) (data : List Char) (s : Session) :
    (s.receive op data).pending = s.pending := by
  cases op <;> rfl

@[simp] theorem receive_log (op : Op) (data : List Char) (s : Session) :
    (s.receive op data).log = s.log := by
  cases op <;> rfl

@[simp] theorem receive_write_buffer (op : Op) (data : List Char) (s : Session) :
    (s.receive op data).write_buffer = s.write_buffer := by
  cases op <;> rfl

@[simp] theorem trace_receive (op : Op) (data : List Char) (s : Session) :
    (s.receive op data).trace = s.trace := by
  cases op <;> rfl

/-! ## What a completion does -/

section complete

variable {r : Role} {ec : ErrorCode} {data : List Char} {room : Nat} {s : Session}

theorem complete_aborted {op : Op} (hop : op = .handshake ∨ op.IsTransfer) :
    s.complete r op .operationAborted data room = .ok { s with pending := s.pending.erase op } := by
  unfold Op.IsTransfer at hop
  rcases hop with rfl | rfl | rfl | rfl | rfl <;> rfl

theorem complete_handshake_failure (hec : ec.IsFailure) :
    s.complete r .handshake ec data room =
      .ok { s with pending := s.pending.erase .handshake }.doCloseSocket := by
  obtain ⟨h1, h2⟩ := hec
  cases ec <;> first | exact absurd rfl h1 | exact absurd rfl h2 | rfl

theorem complete_transfer_failure {op : Op} (hop : op.IsTransfer) (hec : ec.IsFailure) :
    s.complete r op ec data room = .ok { s with pending := s.pending.erase op }.stop := by
  obtain ⟨h1, h2⟩ := hec
  unfold Op.IsTransfer at hop
  rcases hop with rfl | rfl | rfl | rfl <;>
    cases ec <;> first | exact absurd rfl h1 | exact absurd rfl h2 | rfl

theorem complete_shutdown :
    s.complete r .shutdown ec data room =
      .ok (onShutdownDone r ec { s with pending := s.pending.erase .shutdown }) := by
  cases ec <;> rfl

theorem complete_nullWrite :
    s.complete r .nullWrite ec data room = .ok { s with pending := s.pending.erase .nullWrite }.doCloseSocket := by
  cases ec <;> rfl

theorem complete_handshake_success :
    s.complete r .handshake .success data room =
      .ok (onSecureHandshake r { s with pending := s.pending.erase .handshake }) := rfl

theorem complete_readHeader_success :
    s.complete r .readHeader .success data room =
      onReadHeader room ({ s with pending := s.pending.erase .readHeader }.receive .readHeader data) :=
  rfl

theorem complete_readContent_success :
    s.complete r .readContent .success data room =
      .ok (onReadContent r ({ s with pending := s.pending.erase .readContent }.receive .readContent data)) := rfl

theorem complete_writeHeader_success :
    s.complete r .writeHeader .success data room =
      onWriteHeader { s with pending := s.pending.erase .writeHeader } := rfl

theorem complete_writeContent_success :
    s.complete r .writeContent .success data room =
      .ok (onWriteContent r { s with pending := s.pending.erase .writeContent }) := rfl

end complete

/-- `on_read_header` returns when the content read can be sized, and then reads it. -/
theorem onReadHeader_ok {room : Nat} {s s' : Session} (h : onReadHeader room s = .ok s') :
    ∃ m, s.read_buffer.prepareContentBufferRead room = .ok m ∧
      s' = { s with read_buffer := m }.doReadContent := by
  unfold onReadHeader at h
  cases hm : s.read_buffer.prepareContentBufferRead room with
  | error e => rw [hm] at h; cases h
  | ok m => rw [hm] at h; exact ⟨m, rfl, (Except.ok.inj h).symm⟩

/-- `on_write_header` returns when the header can be checked, and then writes the content. -/
theorem onWriteHeader_ok {s s' : Session} (h : onWriteHeader s = .ok s') :
    ∃ m, s.write_buffer.prepareContentBufferWrite = .ok m ∧
      s' = { s with write_buffer := m }.doWriteContent := by
  unfold onWriteHeader at h
  cases hm : s.write_buffer.prepareContentBufferWrite with
  | error e => rw [hm] at h; cases h
  | ok m => rw [hm] at h; exact ⟨m, rfl, (Except.ok.inj h).symm⟩

end Session

/-! ## Runs -/

/-- What can happen to a session next: an outstanding operation completes, `stop()` is
called, or `client_session::send`. -/
inductive Input
  /-- `op` completes with `ec`, a read with `data`; the allocator's answer is `room`. -/
  | complete (op : Op) (ec : ErrorCode) (data : List Char) (room : Nat)
  | stop
  | send (m : Message)

/-- The input is the completion of `op`. -/
def Input.Completes (i : Input) (op : Op) : Prop := ∃ ec data room, i = .complete op ec data room

/-- A completion needs its operation outstanding, and a successful read a full buffer. -/
def Input.Enabled : Input → Session → Prop
  | .complete op ec data _, s => op ∈ s.pending ∧ (ec = .success → Session.Fills op data s)
  | _, _ => True

/-- The session after an input. -/
def Session.apply (r : Role) : Input → Session → Except Fault Session
  | .complete op ec data room, s => s.complete r op ec data room
  | .stop, s => pure s.stop
  | .send m, s => pure (s.send m)

/-- The states a session of role `r` reaches after `start` when each input is one that
`allowed` admits. A handler that faults ends the run: the exception leaves `io_service::run`
on a worker thread and the process terminates. -/
inductive Reachable (r : Role) (allowed : Input → Session → Prop) : Session → Prop
  | start : Reachable r allowed Session.accepted.start
  | step {s s' : Session} {i : Input} : Reachable r allowed s → allowed i s → i.Enabled s →
      s.apply r i = .ok s' → Reachable r allowed s'

/-- A run goes on with the input `i`. -/
theorem Reachable.next {r : Role} {allowed : Input → Session → Prop} {s s' : Session}
    (hr : Reachable r allowed s) (i : Input) (ha : allowed i s) (he : i.Enabled s)
    (h : s.apply r i = .ok s') : Reachable r allowed s' :=
  .step hr ha he h

/-- Only completions: the inputs of a session nobody stops or sends on from outside. -/
def Input.IsCompletion : Input → Prop
  | .complete .. => True
  | _ => False

end micro_tcp
