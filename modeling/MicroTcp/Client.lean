-- The `client` of `client.cpp`: at most one `client_session`, made when a
-- `connect` completes, and `send` guarded by `is_connected()` alone, which
-- asks only whether that session's socket is open.
import MicroTcp.ClientSession

namespace micro_tcp.client

open Session

/-- What `read_file` finds at a path. -/
inductive FileRead
  /-- The `std::ifstream` does not open: `read_file` returns false. -/
  | missing
  /-- A file whose size `tellg()` gives. -/
  | contents (cs : List Char)
  /-- A file that cannot seek, such as a pipe: `tellg()` gives -1, and the `resize` to that
  size throws `std::length_error`. -/
  | unseekable
deriving DecidableEq, Repr

/-- `micro_tcp::client`: `active_session_`, and the `connect` calls still resolving or
connecting. -/
structure Client where
  active_session : Option Session
  connecting : Nat
deriving DecidableEq, Repr

namespace Client

/-- `client::client`: no session. -/
def init : Client := ⟨none, 0⟩

/-- `client::is_connected`: a session whose socket is open (`session::is_alive`). -/
def isConnected (c : Client) : Bool := c.active_session.any fun s => s.socket_open

/-- `client::connect`: the resolve and the connect run on the io threads. -/
def connect (c : Client) : Client := { c with connecting := c.connecting + 1 }

/-- The handler of a `connect`'s `async_connect` (or of its failed resolve): on success
`active_session_` becomes a new `client_session` on the socket, started, and the session held
before is dropped; on failure only a message is printed. -/
def onConnect (ok : Bool) (c : Client) : Client :=
  { active_session := if ok then some accepted.start else c.active_session,
    connecting := c.connecting - 1 }

/-- `client::disconnect`: `stop()` the session when connected, then drop it. The stopped
session runs on, held by its handlers, outside the client. -/
def disconnect (c : Client) : Client := { c with active_session := none }

/-- `client::send`: hand the message to the session when connected. -/
def send (m : Message) (c : Client) : Bool × Client :=
  match c.active_session with
  | some s => if s.socket_open then (true, { c with active_session := some (s.send m) }) else (false, c)
  | none => (false, c)

/-- `client::send_file`: `read_file` into a `message()`, then `send`. `none` when `read_file`
throws. -/
def sendFile (f : FileRead) (c : Client) : Option (Bool × Client) :=
  match f with
  | .missing => some (false, c)
  | .contents cs => some (c.send { Message.init with content_buffer := cs })
  | .unseekable => none

variable {c : Client} {s' : Session}

/-- `send` hands the message to the session it holds when its socket is open, and otherwise
leaves the client as it is. -/
theorem send_active_session {m : Message} (h : (c.send m).2.active_session = some s') :
    c.active_session = some s' ∨
      ∃ s, c.active_session = some s ∧ s.socket_open = true ∧ s' = s.send m := by
  unfold send at h
  split at h
  · rename_i s hs
    split at h
    · exact .inr ⟨s, hs, by assumption, (Option.some.inj h).symm⟩
    · exact .inl h
  · exact .inl h

/-- Every session the client holds has run as a `client_session` driven by its completions and
by sends made while `is_connected()` held. -/
def Runs (cl : Client) : Prop :=
  ∀ s, cl.active_session = some s → micro_tcp.Reachable .client client_session.Connected s

theorem Runs.send (hc : c.Runs) (m : Message) : (c.send m).2.Runs := by
  intro s' hs'
  rcases send_active_session hs' with hs' | ⟨s, hs, ho, rfl⟩
  · exact hc s' hs'
  · exact .step (hc s hs) (.inr ⟨m, rfl, ho⟩) trivial rfl

theorem Runs.onConnect (hc : c.Runs) (ok : Bool) : (c.onConnect ok).Runs := by
  intro s hs
  cases ok
  · exact hc s hs
  · cases hs; exact .start

end Client

end micro_tcp.client
