-- The accept loop of `server.cpp`. `do_accept`'s handler stops the loop only
-- when it finds the acceptor closed, not when its own accept was cancelled, and
-- what `open`, `bind` and `listen` reported decides whether the loop runs.
import MicroTcp.Session

namespace micro_tcp.server

/-- How an `async_accept` ended: the kernel accepted a connection for it, or it failed. -/
inductive AcceptResult
  | connection
  | error (ec : ErrorCode)
deriving DecidableEq, Repr

/-- What `open`, `bind` and `listen` report in `start_listening`: whether each succeeded. The
code only prints their errors. (A failed `set_option` shows only in what `bind` reports.) -/
structure Listen where
  opened : Bool
  bound : Bool
  listened : Bool
deriving DecidableEq, Repr

/-- `open`, `bind` and `listen` all succeed. -/
def Listen.ok : Listen := ⟨true, true, true⟩

/-- `micro_tcp::server`: whether `acceptor_` is open and whether it listens, whether `socket_`
holds a connection, and the `async_accept`s started whose handler has not run, each still
waiting (`none`) or completed with its handler queued; and the connections taken into
`socket_` and the `server_session`s made, as counts. -/
structure Server where
  acceptor_open : Bool
  listening : Bool
  socket_open : Bool
  accepts : List (Option AcceptResult)
  accepted : Nat
  sessions : Nat
deriving DecidableEq, Repr

namespace Server

/-- A server as constructed: nothing open, nothing started. -/
def init : Server := ⟨false, false, false, [], 0, 0⟩

/-- `server::do_accept`: start an `async_accept` into `socket_`. Asio completes it at once
with an error when `socket_` is already open (`already_open`) or the acceptor does not listen:
it is closed, or its `listen` failed. -/
def doAccept (s : Server) : Server :=
  if s.socket_open || !s.listening then
    { s with accepts := s.accepts ++ [some (.error .other)] }
  else { s with accepts := s.accepts ++ [none] }

/-- `server::start_listening`, reached from `server::start`: on a closed acceptor, `open`,
`set_option`, `bind` and `listen`, each error only printed, then `do_accept` whatever they
left. A failed `open` leaves the acceptor closed; a failed `bind` still listens, on a port of
the kernel's choice. -/
def startListening (l : Listen) (s : Server) : Server :=
  if s.acceptor_open then s
  else doAccept { s with acceptor_open := l.opened, listening := l.opened && l.listened }

/-- `server::start`. -/
def start (l : Listen) (s : Server) : Server := s.startListening l

/-- `server::stop`: close the acceptor; every accept still waiting completes with
`operation_aborted`, one already completed keeps its outcome. -/
def stop (s : Server) : Server :=
  { s with acceptor_open := false, listening := false,
           accepts := s.accepts.map fun a => a.getD (.error .operationAborted) }

/-- The handler of `do_accept`. On a closed acceptor it returns; otherwise a success moves
`socket_` into a new `server_session` that starts, and any outcome starts the next accept. -/
def onAccept (ec : ErrorCode) (s : Server) : Server :=
  if !s.acceptor_open then s
  else
    let s := if ec = .success then { s with socket_open := false, sessions := s.sessions + 1 }
      else s
    s.doAccept

/-- A completed accept is delivered: a connection the kernel accepted goes into `socket_`, or
is closed with `already_open` when `socket_` is open; then the handler runs. -/
def deliver (r : AcceptResult) (s : Server) : Server :=
  match r with
  | .connection =>
    if s.socket_open then onAccept .other s
    else onAccept .success { s with socket_open := true, accepted := s.accepted + 1 }
  | .error ec => onAccept ec s

end Server

/-- What can happen to a server next. -/
inductive Input
  /-- `server::start()`, with what `open`, `bind` and `listen` report. -/
  | start (l : Listen)
  | stop
  /-- The kernel completes the waiting accept `k` with a connection. -/
  | connect (k : Nat)
  /-- The waiting accept `k` fails with the error `ec`. -/
  | fail (k : Nat) (ec : ErrorCode)
  /-- The handler of the completed accept `k` runs. -/
  | dispatch (k : Nat)

/-- The server after an input, `none` when the input cannot happen. -/
def Server.apply : Input → Server → Option Server
  | .start l, s => some (s.start l)
  | .stop, s => some s.stop
  | .connect k, s =>
    if s.accepts[k]? = some none then some { s with accepts := s.accepts.set k (some .connection) }
    else none
  | .fail k ec, s =>
    if s.accepts[k]? = some none ∧ ec ≠ .success then
      some { s with accepts := s.accepts.set k (some (.error ec)) }
    else none
  | .dispatch k, s =>
    match s.accepts[k]? with
    | some (some r) => some (Server.deliver r { s with accepts := s.accepts.eraseIdx k })
    | _ => none

/-- The server after the inputs, one after the other. -/
def Server.run : List Input → Server → Option Server
  | [], s => some s
  | i :: is, s => (s.apply i).bind (Server.run is)

/-- A `stop()` then `start()` before the cancelled accept's handler ran: that handler finds the
acceptor open again and starts a second accept beside the new one. An accept that completed
before a `stop()` leaves its connection in `socket_`; after the next `start()` every accept
completes at once with `already_open` and starts the next, and no session is ever made. -/
theorem accept_after_restart :
    Server.run [.start .ok, .stop, .start .ok, .dispatch 0] Server.init =
      some ⟨true, true, false, [none, none], 0, 0⟩ ∧
    Server.run [.start .ok, .connect 0, .stop, .dispatch 0, .start .ok] Server.init =
      some ⟨true, true, true, [some (.error .other)], 1, 0⟩ ∧
    Server.apply (.dispatch 0) ⟨true, true, true, [some (.error .other)], 1, 0⟩ =
      some ⟨true, true, true, [some (.error .other)], 1, 0⟩ := by
  decide

/-! ## A server that is not stopped -/

/-- One `async_accept` outstanding: waiting, or completed with a connection or an error. -/
def OneAccept (accepts : List (Option AcceptResult)) : Prop :=
  accepts = [none] ∨ accepts = [some .connection] ∨
    ∃ ec, ec ≠ .success ∧ accepts = [some (.error ec)]

/-- The accept loop of a listening server: the acceptor open and listening, no connection left
in `socket_`, every connection taken into it moved into a session, and one `async_accept`
outstanding. -/
structure Listening (s : Server) : Prop where
  acceptor_open : s.acceptor_open = true
  listening : s.listening = true
  socket_closed : s.socket_open = false
  sessions_eq : s.sessions = s.accepted
  one_accept : OneAccept s.accepts

/-- Where the accept loop of a server started once, with `open`, `bind` and `listen` reporting
`l`, and not stopped since, can stand. -/
inductive Loop (l : Listen) : Server → Prop
  /-- `open` and `listen` succeeded. -/
  | running {s : Server} : (l.opened && l.listened) = true → Listening s → Loop l s
  /-- `listen` failed: each `async_accept` fails at once, and its handler starts the next. -/
  | spinning : l.opened = true → l.listened = false →
      Loop l ⟨true, false, false, [some (.error .other)], 0, 0⟩
  /-- `open` failed: the one `async_accept` failed at once; its handler finds the acceptor
  closed and ends the loop. -/
  | closing : l.opened = false → Loop l ⟨false, false, false, [some (.error .other)], 0, 0⟩
  | ended : l.opened = false → Loop l ⟨false, false, false, [], 0, 0⟩

/-- The inputs other than `start()` and `stop()`: completions and their handlers. -/
def Input.IsCompletion : Input → Prop
  | .connect _ | .fail _ _ | .dispatch _ => True
  | .start _ | .stop => False

section listening

variable {l : Listen} {s s' : Server}

theorem Listening.accepts_eq (hl : Listening s) : ∃ a, s.accepts = [a] := by
  rcases hl.one_accept with h | h | ⟨_, -, h⟩ <;> exact ⟨_, h⟩

/-- The handler of the one accept restarts the loop: a connection goes into a new session. -/
theorem Listening.deliver (hl : Listening s) {r : AcceptResult} (hr : r ≠ .error .success) :
    Listening (Server.deliver r { s with accepts := [] }) := by
  have ho := hl.acceptor_open
  have hn := hl.listening
  have hs := hl.socket_closed
  cases r with
  | connection =>
    refine ⟨?_, ?_, ?_, ?_, .inl ?_⟩ <;>
      simp [Server.deliver, Server.onAccept, Server.doAccept, ho, hn, hs, hl.sessions_eq]
  | error ec =>
    have hec : ec ≠ .success := fun h => hr (h ▸ rfl)
    refine ⟨?_, ?_, ?_, ?_, .inl ?_⟩ <;>
      simp [Server.deliver, Server.onAccept, Server.doAccept, ho, hn, hs, hec, hl.sessions_eq]

/-- Every completion or handler keeps the loop listening. -/
theorem Listening.apply {i : Input} (hl : Listening s) (hi : i.IsCompletion)
    (hs : s.apply i = some s') : Listening s' := by
  obtain ⟨a, ha⟩ := hl.accepts_eq
  cases i with
  | start | stop => exact hi.elim
  | connect k =>
    simp only [Server.apply, ha] at hs
    split at hs
    · rename_i hk
      cases hs
      obtain ⟨rfl, rfl⟩ : k = 0 ∧ a = none := by
        rcases k with _ | k <;> simp_all
      exact ⟨hl.acceptor_open, hl.listening, hl.socket_closed, hl.sessions_eq, .inr (.inl rfl)⟩
    · cases hs
  | fail k ec =>
    simp only [Server.apply, ha] at hs
    split at hs
    · rename_i hk
      cases hs
      obtain ⟨rfl, rfl⟩ : k = 0 ∧ a = none := by
        rcases k with _ | k <;> simp_all
      exact ⟨hl.acceptor_open, hl.listening, hl.socket_closed, hl.sessions_eq,
        .inr (.inr ⟨ec, hk.2, rfl⟩)⟩
    · cases hs
  | dispatch k =>
    simp only [Server.apply, ha] at hs
    split at hs
    · rename_i r hk
      cases hs
      obtain ⟨rfl, rfl⟩ : k = 0 ∧ a = some r := by
        rcases k with _ | k <;> simp_all
      have hr : r ≠ .error .success := by
        rintro rfl
        rcases hl.one_accept with h | h | ⟨ec, hec, h⟩ <;> simp_all
      exact hl.deliver hr
    · cases hs

theorem loop_start (l : Listen) : Loop l (Server.init.start l) := by
  obtain ⟨_ | _, b, _ | _⟩ := l
  · exact .closing rfl
  · exact .closing rfl
  · exact .spinning rfl rfl
  · exact .running rfl ⟨rfl, rfl, rfl, rfl, .inl rfl⟩

/-- Every completion or handler keeps the loop where `start` left it: listening, spinning on
failed accepts, or ended. -/
theorem Loop.apply {i : Input} (hl : Loop l s) (hi : i.IsCompletion) (hs : s.apply i = some s') :
    Loop l s' := by
  cases hl with
  | running hok hL => exact .running hok (hL.apply hi hs)
  | spinning ho hn =>
    cases i with
    | start | stop => exact hi.elim
    | connect k | fail k ec => rcases k with _ | k <;> simp [Server.apply] at hs
    | dispatch k =>
      rcases k with _ | k <;> simp [Server.apply, Server.deliver, Server.onAccept,
        Server.doAccept] at hs
      subst hs
      exact .spinning ho hn
  | closing ho =>
    cases i with
    | start | stop => exact hi.elim
    | connect k | fail k ec => rcases k with _ | k <;> simp [Server.apply] at hs
    | dispatch k =>
      rcases k with _ | k <;> simp [Server.apply, Server.deliver, Server.onAccept] at hs
      subst hs
      exact .ended ho
  | ended ho =>
    cases i with
    | start | stop => exact hi.elim
    | connect k | fail k ec | dispatch k => simp [Server.apply] at hs

theorem Loop.run {is : List Input} (hl : Loop l s) (his : ∀ i ∈ is, i.IsCompletion)
    (hs : Server.run is s = some s') : Loop l s' := by
  induction is generalizing s with
  | nil => cases hs; exact hl
  | cons i is ih =>
    simp only [Server.run, Option.bind_eq_some] at hs
    obtain ⟨s₁, h₁, h₂⟩ := hs
    exact ih (hl.apply (his i (.head _)) h₁) (fun j hj => his j (.tail _ hj)) h₂

end listening

/-- A server started once and never stopped, whatever `open`, `bind` and `listen` reported,
under every sequence of accept completions and handlers: `socket_` holds no connection
between handlers and every connection taken into it has been moved into a new
`server_session`; the acceptor is open exactly when `open` succeeded, and then exactly one
`async_accept` is outstanding; and when `open` or `listen` failed, no connection is ever
accepted and every accept fails at once, for ever after a failed `listen`. -/
theorem accept_loop_without_stop (l : Listen) (is : List Input) (his : ∀ i ∈ is, i.IsCompletion)
    (s : Server) (hs : Server.run (.start l :: is) Server.init = some s) :
    s.socket_open = false ∧ s.sessions = s.accepted ∧ s.acceptor_open = l.opened ∧
      s.accepts.length ≤ 1 ∧ (l.opened = true → s.accepts.length = 1) ∧
      ((l.opened && l.listened) = false →
        s.accepted = 0 ∧ ∀ a ∈ s.accepts, a = some (.error .other)) := by
  cases (loop_start l).run his hs with
  | running hok hL =>
    obtain ⟨a, ha⟩ := hL.accepts_eq
    have ho : l.opened = true ∧ l.listened = true := by simpa using hok
    exact ⟨hL.socket_closed, hL.sessions_eq, hL.acceptor_open.trans ho.1.symm, by simp [ha],
      fun _ => by simp [ha], fun h => Bool.noConfusion (hok.symm.trans h)⟩
  | spinning ho hn => exact ⟨rfl, rfl, ho.symm, by simp, fun _ => rfl, fun _ => ⟨rfl, by simp⟩⟩
  | closing ho | ended ho =>
    exact ⟨rfl, rfl, ho.symm, by simp, fun h => Bool.noConfusion (ho.symm.trans h),
      fun _ => ⟨rfl, by simp⟩⟩

/-- Two connections served by a server whose `open`, `bind` and `listen` succeeded. -/
theorem accept_loop_without_stop_two_connections :
    let is := [Input.connect 0, .dispatch 0, .fail 0 .other, .dispatch 0, .connect 0, .dispatch 0]
    let s : Server := ⟨true, true, false, [none], 2, 2⟩
    (∀ i ∈ is, i.IsCompletion) ∧ Server.run (.start .ok :: is) Server.init = some s ∧
      (s.socket_open = false ∧ s.sessions = s.accepted ∧ s.acceptor_open = Listen.ok.opened ∧
        s.accepts.length ≤ 1 ∧ (Listen.ok.opened = true → s.accepts.length = 1) ∧
        ((Listen.ok.opened && Listen.ok.listened) = false →
          s.accepted = 0 ∧ ∀ a ∈ s.accepts, a = some (.error .other))) :=
  have his : ∀ i ∈ [Input.connect 0, .dispatch 0, .fail 0 .other, .dispatch 0, .connect 0,
      .dispatch 0], i.IsCompletion := by simp [Input.IsCompletion]
  ⟨his, rfl, accept_loop_without_stop _ _ his _ rfl⟩

end micro_tcp.server
