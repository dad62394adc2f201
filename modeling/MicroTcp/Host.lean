-- The server as its owner sees it: `endpoint_`, the setters, what
-- `start_listening` finds, and the sessions the accept handler makes. No call
-- of the owner touches a session, and `set_address` writes before it checks.
import MicroTcp.Server
import MicroTcp.ServerSession

namespace micro_tcp.server

/-- `boost::asio::ip::tcp::endpoint`: an address and a port. -/
structure Endpoint (α : Type) where
  address : α
  port : Nat
deriving DecidableEq, Repr

/-- A `server` with its `endpoint_`, the endpoint the acceptor is bound to (`none` when the last
`start_listening` failed to open or to bind it), and the `server_session`s its accept handler
made, each held by its own handlers. -/
structure Host (α : Type) where
  server : Server
  endpoint : Endpoint α
  bound : Option (Endpoint α)
  sessions : List Session
deriving DecidableEq, Repr

namespace Host

variable {α : Type}

/-- `server::server(io_service, address, port, ...)`: the acceptor closed. -/
def init (e : Endpoint α) : Host α := ⟨Server.init, e, none, []⟩

/-- `server::is_listening`. -/
def isListening (h : Host α) : Bool := h.server.acceptor_open

/-- `server::start`: `start_listening` opens a closed acceptor and binds it to `endpoint_`,
with `l` what `open`, `bind` and `listen` report. -/
def start (l : Listen) (h : Host α) : Host α :=
  { h with server := h.server.start l,
           bound := if h.server.acceptor_open then h.bound
             else if l.opened && l.bound then some h.endpoint else none }

/-- `server::stop`: close the acceptor. -/
def stop (h : Host α) : Host α := { h with server := h.server.stop }

/-- The guard of `set_port`, `set_endpoint` and `set_request_handler`: while the acceptor is
open they print an error and return false. -/
def whenStopped (change : Host α → Bool × Host α) (h : Host α) : Bool × Host α :=
  if h.server.acceptor_open then (false, h) else change h

/-- `server::set_port`, with `inUse` what `port_in_use(port)` finds. -/
def setPort (port : Nat) (inUse : Bool) : Host α → Bool × Host α :=
  whenStopped fun h =>
    if inUse then (false, h) else (true, { h with endpoint := { h.endpoint with port := port } })

/-- `server::set_endpoint`. -/
def setEndpoint (e : Endpoint α) : Host α → Bool × Host α :=
  whenStopped fun h => (true, { h with endpoint := e })

/-- `server::set_request_handler`. `request_handler_` is a reference, so the assignment copies
the new handler into the one the server was made with and rebinds nothing: the sessions go on
calling the first handler's `handle_request`. -/
def setRequestHandler : Host α → Bool × Host α :=
  whenStopped fun h => (true, h)

/-- `server::set_address(const address&)`: it sets the address of `endpoint_` before it tests
the acceptor, and again after. -/
def setAddressOf (a : α) (h : Host α) : Bool × Host α :=
  let h := { h with endpoint := { h.endpoint with address := a } }
  if h.server.acceptor_open then (false, h)
  else (true, { h with endpoint := { h.endpoint with address := a } })

/-- `server::set_address(const std::string&)`, with `parsed` what `address::from_string` makes
of the text; when it fails, nothing is called. -/
def setAddress (parsed : Option α) (h : Host α) : Bool × Host α :=
  match parsed with
  | some a => h.setAddressOf a
  | none => (false, h)

end Host

/-- A call on a server by its owner, or an accept completion or handler. -/
inductive Call (α : Type)
  | start (l : Listen)
  | stop
  | setAddress (parsed : Option α)
  | setPort (port : Nat) (inUse : Bool)
  | setEndpoint (e : Endpoint α)
  | setRequestHandler
  | accept (i : Input)

namespace Host

variable {α : Type}

/-- The host whose server became `s` by an accept input: a handler that made a session
(`std::make_shared<server_session>(...)->start()`) adds it. -/
def withServer (h : Host α) (s : Server) : Host α :=
  { h with server := s,
           sessions := if s.sessions = h.server.sessions then h.sessions
             else h.sessions ++ [Session.accepted.start] }

/-- The server after a call; `start` and `stop` come as calls, not as accept inputs. -/
def apply : Call α → Host α → Option (Host α)
  | .start l, h => some (h.start l)
  | .stop, h => some h.stop
  | .setAddress p, h => some (h.setAddress p).2
  | .setPort n u, h => some (h.setPort n u).2
  | .setEndpoint e, h => some (h.setEndpoint e).2
  | .setRequestHandler, h => some h.setRequestHandler.2
  | .accept (.start _), _ | .accept .stop, _ => none
  | .accept i, h => (h.server.apply i).map h.withServer

end Host

/-- What the io threads do to a server: an accept completes or its handler runs, or an
operation of one of its sessions completes. A session whose handler faults ends the process
instead. -/
inductive Host.React {α : Type} (hr : Message → Message → Message) : Host α → Host α → Prop
  | accept {h h' : Host α} (i : Input) : h.apply (.accept i) = some h' → Host.React hr h h'
  | session {h : Host α} {s s' : Session} (k : Nat) (i : micro_tcp.Input) : i.IsCompletion →
      h.sessions[k]? = some s → i.Enabled s → s.apply (.server hr) i = .ok s' →
      Host.React hr h { h with sessions := h.sessions.set k s' }

section setters

variable {α : Type} {h h' : Host α}

/-- While the acceptor is open, a guarded setter returns false and changes nothing. -/
theorem Host.whenStopped_of_listening {change : Host α → Bool × Host α}
    (hl : h.server.acceptor_open = true) : h.whenStopped change = (false, h) := by
  simp [Host.whenStopped, hl]

/-- While the acceptor is open, `set_address` returns false, yet the address of `endpoint_` is
the new one: `get_address` reports an address the acceptor is not bound to, and the next
`start()` after a `stop()` binds to it. -/
theorem Host.setAddressOf_of_listening (a : α) (hl : h.server.acceptor_open = true) :
    h.setAddressOf a = (false, { h with endpoint := { h.endpoint with address := a } }) := by
  simp [Host.setAddressOf, hl]

/-- Accept completions and their handlers leave the acceptor as it is, and make at most one
session. -/
theorem Server.apply_completion {s s' : Server} {i : Input} (hi : i.IsCompletion)
    (hs : s.apply i = some s') :
    s'.acceptor_open = s.acceptor_open ∧ (s'.sessions = s.sessions ∨ s'.sessions = s.sessions + 1) := by
  cases i with
  | start | stop => exact hi.elim
  | connect k | fail k ec =>
    simp only [Server.apply] at hs
    split at hs <;> cases hs
    exact ⟨rfl, .inl rfl⟩
  | dispatch k =>
    simp only [Server.apply] at hs
    split at hs
    · cases hs
      rename_i r _
      cases r <;> simp only [Server.deliver, Server.onAccept, Server.doAccept] <;>
        split_ifs <;> simp
    · cases hs

/-- An accept input of the host is a completion of the server's. -/
theorem Host.apply_accept {i : Input} (hh : h.apply (.accept i) = some h') :
    ∃ s, i.IsCompletion ∧ h.server.apply i = some s ∧ h' = h.withServer s := by
  cases i with
  | start | stop => cases hh
  | connect k | fail k ec | dispatch k =>
    simp only [Host.apply, Option.map_eq_some'] at hh
    obtain ⟨s, hs, rfl⟩ := hh
    exact ⟨s, trivial, hs, rfl⟩

/-- What a call does: `start`, `stop`, an accept input, or a setter, which leaves the server,
the bound endpoint and the sessions as they are, and the port while the acceptor is open. -/
theorem Host.apply_cases {c : Call α} (hc : h.apply c = some h') :
    (∃ l, c = .start l ∧ h' = h.start l) ∨ (c = .stop ∧ h' = h.stop) ∨
    (∃ i s, c = .accept i ∧ i.IsCompletion ∧ h.server.apply i = some s ∧ h' = h.withServer s) ∨
    (h'.server = h.server ∧ h'.bound = h.bound ∧ h'.sessions = h.sessions ∧
      (h.server.acceptor_open = true → h'.endpoint.port = h.endpoint.port)) := by
  cases c with
  | start l => exact .inl ⟨l, rfl, (Option.some.inj hc).symm⟩
  | stop => exact .inr (.inl ⟨rfl, (Option.some.inj hc).symm⟩)
  | accept i =>
    obtain ⟨s, hi, hs, rfl⟩ := Host.apply_accept hc
    exact .inr (.inr (.inl ⟨i, s, rfl, hi, hs, rfl⟩))
  | setAddress p =>
    cases hc
    refine .inr (.inr (.inr ?_))
    cases p with
    | none => exact ⟨rfl, rfl, rfl, fun _ => rfl⟩
    | some a => simp only [Host.setAddress, Host.setAddressOf]; split <;> exact ⟨rfl, rfl, rfl, fun _ => rfl⟩
  | setPort n u =>
    cases hc
    refine .inr (.inr (.inr ?_))
    unfold Host.setPort Host.whenStopped
    split_ifs with ho <;> first | exact ⟨rfl, rfl, rfl, fun _ => rfl⟩ | exact ⟨rfl, rfl, rfl, fun h => absurd h ho⟩
  | setEndpoint e =>
    cases hc
    refine .inr (.inr (.inr ?_))
    unfold Host.setEndpoint Host.whenStopped
    split_ifs with ho
    · exact ⟨rfl, rfl, rfl, fun _ => rfl⟩
    · exact ⟨rfl, rfl, rfl, fun h => absurd h ho⟩
  | setRequestHandler =>
    cases hc
    unfold Host.setRequestHandler Host.whenStopped
    split_ifs <;> exact .inr (.inr (.inr ⟨rfl, rfl, rfl, fun _ => rfl⟩))

end setters

/-! ## What a listening server reports -/

section report

variable {α : Type} {hr : Message → Message → Message} {h h' : Host α}

end report

section sessions

variable {α : Type} {hr : Message → Message → Message} {h h' : Host α}

/-- The sessions of a server: one for each the accept handler made, each run as a
`server_session` driven only by its own completions. -/
structure SessionsRun (hr : Message → Message → Message) (h : Host α) : Prop where
  length_eq : h.sessions.length = h.server.sessions
  runs : ∀ s ∈ h.sessions, server_session.Reachable hr s

theorem Server.start_sessions (l : Listen) (s : Server) : (s.start l).sessions = s.sessions := by
  unfold Server.start Server.startListening Server.doAccept
  split_ifs <;> rfl

/-- A host whose server changed without making a session keeps its sessions' runs. -/
theorem SessionsRun.of_server (hs : SessionsRun hr h) (hserver : h'.server.sessions = h.server.sessions)
    (hsessions : h'.sessions = h.sessions) : SessionsRun hr h' :=
  ⟨by rw [hsessions, hserver, hs.length_eq], by rw [hsessions]; exact hs.runs⟩

theorem sessionsRun_apply {c : Call α} (hs : SessionsRun hr h) (hc : h.apply c = some h') :
    SessionsRun hr h' := by
  rcases Host.apply_cases hc with ⟨l, -, rfl⟩ | ⟨-, rfl⟩ | ⟨i, s, -, hi, hsa, rfl⟩ | ⟨hsv, -, hss, -⟩
  · exact hs.of_server (Server.start_sessions _ _) rfl
  · exact hs.of_server rfl rfl
  · rcases (Server.apply_completion hi hsa).2 with he | he
    · exact hs.of_server he (by simp [Host.withServer, he])
    · have hne : s.sessions ≠ h.server.sessions := by omega
      refine ⟨by simp [Host.withServer, hne, hs.length_eq, he], fun s' hs' => ?_⟩
      simp only [Host.withServer, hne, if_false, List.mem_append, List.mem_singleton] at hs'
      rcases hs' with hs' | rfl
      · exact hs.runs s' hs'
      · exact .start
  · exact hs.of_server (by rw [hsv]) hss

theorem sessionsRun_react (hs : SessionsRun hr h) (hh : Host.React hr h h') : SessionsRun hr h' := by
  cases hh with
  | accept i hc => exact sessionsRun_apply hs hc
  | session k i hi hk he ha =>
    refine ⟨by simp [hs.length_eq], fun s' hs' => ?_⟩
    rcases List.mem_or_eq_of_mem_set hs' with hs' | rfl
    · exact hs.runs s' hs'
    · exact .step (hs.runs _ (List.mem_iff_getElem?.2 ⟨k, hk⟩)) hi he ha

end sessions

end micro_tcp.server
