-- The console loop of `main.cpp`: each turn reads a command line from
-- `std::cin`, and an argument line for some commands, and the io threads run
-- completions between the turns. The loop ends only at `quit`.
import MicroTcp.Host
import MicroTcp.Client
import MicroTcp.IoManager
import MicroTcp.ClientSession
import MicroTcp.Faults

namespace micro_tcp.console

open server client io_manager

/-! ## Reading a port -/

/-- `std::numeric_limits<unsigned short>::max()`. -/
def ushortMax : Nat := 2 ^ 16 - 1

/-- The sign `boost::lexical_cast` reads before the digits of an unsigned number, and the rest. -/
def splitSign : List Char → Bool × List Char
  | c :: ds => if c = '-' then (true, ds) else if c = '+' then (false, ds) else (false, c :: ds)
  | [] => (false, [])

/-- `boost::lexical_cast<unsigned short>` of a line: an optional `-` or `+`, then at least one
digit and nothing else, of value at most `ushortMax`; after a `-` the value is negated modulo
2^16. `none` is the `bad_lexical_cast` it throws otherwise. -/
def lexicalCastUShort (s : List Char) : Option Nat :=
  let ds := (splitSign s).2
  if ds ≠ [] ∧ ds.all Char.isDigit ∧ digitsValue ds ≤ ushortMax then
    some (if (splitSign s).1 then (2 ^ 16 - digitsValue ds) % 2 ^ 16 else digitsValue ds)
  else none

/-! ## The program -/

/-- What the environment answers in a turn: whether `port_in_use` finds the port taken, what
`read_file` finds at the path typed, and what `open`, `bind` and `listen` report to a
`server_start`. -/
structure Env where
  inUse : Bool
  file : FileRead
  listen : Listen
deriving DecidableEq, Repr

/-- What `main` holds between two turns of its loop: the server, the client, the `io_manager`,
and what `std::cin` still holds, split at its newlines, the last line the text after the last
newline; `[]` once a read has met the end of the input. -/
structure Program (α : Type) where
  host : Host α
  client : Client
  manager : IoManager
  lines : List String
deriving DecidableEq, Repr

/-- How a turn ends. -/
inductive Fate (α : Type)
  | running (p : Program α)
  /-- `quit`: the loop is left; `main` disconnects the client, stops the server and the
  `io_manager`, and returns 0. -/
  | exited (p : Program α)
  /-- An exception left `main`: `std::terminate`. -/
  | terminated
deriving DecidableEq, Repr

/-- `std::getline(std::cin, input)`: the next line. Once a read has met the end of the input,
`eofbit` makes the sentry fail, and `input` keeps the text it held. -/
def readLine (input : String) : List String → String × List String
  | [] => (input, [])
  | l :: ls => (l, ls)

@[simp] theorem readLine_snd (input : String) (ls : List String) : (readLine input ls).2 = ls.tail := by
  cases ls <;> rfl

/-- The lines the loop tells apart. -/
inductive Command
  | serverStart
  | serverStop
  | serverSetAddress
  | serverSetPort
  | clientConnect
  | clientDisconnect
  | clientSend
  | clientSendFile
  | status
  | quit
  /-- Any other line: the help text is printed. -/
  | invalid
deriving DecidableEq, Repr

/-- The tests of the loop's body, in their order. -/
def Command.ofLine (input : String) : Command :=
  if input = "server_start" then .serverStart
  else if input = "server_stop" then .serverStop
  else if input = "server_set_address" then .serverSetAddress
  else if input = "server_set_port" then .serverSetPort
  else if input = "client_connect" then .clientConnect
  else if input = "client_disconnect" then .clientDisconnect
  else if input = "client_send" then .clientSend
  else if input = "client_send_file" then .clientSendFile
  else if input = "status" then .status
  else if input = "quit" then .quit
  else .invalid

/-- The commands that read the next line as their argument. -/
def Command.TakesArgument : Command → Bool
  | .serverSetAddress | .serverSetPort | .clientSend | .clientSendFile => true
  | _ => false

/-- The lines `main` reads as commands: every line but the one read as the argument of the
command before it. -/
def commandLines : List String → List String
  | [] => []
  | l :: ls =>
    l :: if (Command.ofLine l).TakesArgument then
      (match ls with
       | [] => []
       | _ :: ls => commandLines ls)
    else commandLines ls

namespace Program

variable {α : Type} (parse : String → Option α)

/-- `main` after its set-up: the server made on the configured endpoint, the client with no
session, `io_manager.start()` with `threads` worker threads, and the whole input to read. -/
def init (e : Endpoint α) (threads : Nat) (lines : List String) : Program α :=
  ⟨Host.init e, Client.init, ⟨true, true, List.replicate threads true⟩, lines⟩

/-- The branches of the loop's body, with `p.lines` what follows the command's line. An argument
is read into `input`, which holds the command's own word. `parse` is `address::from_string`. -/
def command (env : Env) : Command → Program α → Fate α
  | .serverStart, p => .running { p with host := p.host.start env.listen }
  | .serverStop, p => .running { p with host := p.host.stop }
  | .serverSetAddress, p =>
    .running { p with host := (p.host.setAddress (parse (readLine "server_set_address" p.lines).1)).2,
                      lines := (readLine "server_set_address" p.lines).2 }
  | .serverSetPort, p =>
    match lexicalCastUShort (readLine "server_set_port" p.lines).1.toList with
    | some port => .running { p with host := (p.host.setPort port env.inUse).2,
                                     lines := (readLine "server_set_port" p.lines).2 }
    | none => .terminated
  | .clientConnect, p => .running { p with client := p.client.connect }
  | .clientDisconnect, p => .running { p with client := p.client.disconnect }
  | .clientSend, p =>
    .running { p with
      client := (p.client.send (Message.ofContent (readLine "client_send" p.lines).1.toList)).2,
      lines := (readLine "client_send" p.lines).2 }
  | .clientSendFile, p =>
    match p.client.sendFile env.file with
    | some (_, c) => .running { p with client := c, lines := (readLine "client_send_file" p.lines).2 }
    | none => .terminated
  | .status, p => .running p
  | .quit, p =>
    .exited { p with client := p.client.disconnect, host := p.host.stop,
                     manager := p.manager.stop }
  | .invalid, p => .running p

/-- One turn of the loop: read a line into a fresh `input` and run its branch. -/
def turn (env : Env) (p : Program α) : Fate α :=
  command parse env (Command.ofLine (readLine "" p.lines).1)
    { p with lines := (readLine "" p.lines).2 }

end Program

/-- What the io threads do between two turns of the loop. The server's sessions answer with the
default `request_handler`, which echoes. A session the client has dropped runs on outside
`main`'s state. -/
inductive React {α : Type} : Program α → Program α → Prop
  /-- An accept completes or its handler runs, or an operation of a server session completes. -/
  | host {p : Program α} {h : Host α} : Host.React handleRequest p.host h →
      React p { p with host := h }
  /-- A `connect` ends. -/
  | connected {p : Program α} (ok : Bool) : 0 < p.client.connecting →
      React p { p with client := p.client.onConnect ok }
  /-- An operation of the client's session completes. One whose handler faults ends the
  process instead. -/
  | session {p : Program α} {s s' : Session} (i : micro_tcp.Input) : i.IsCompletion →
      p.client.active_session = some s → i.Enabled s → s.apply .client i = .ok s' →
      React p { p with client := { p.client with active_session := some s' } }

/-- The states of `main` between two turns, from its set-up: every input, every answer of the
environment, and every interleaving of the io threads' completions with the turns. -/
inductive Reachable {α : Type} (parse : String → Option α) (p₀ : Program α) :
    Program α → Prop
  | init : Reachable parse p₀ p₀
  | turn {p p' : Program α} (env : Env) : Reachable parse p₀ p →
      p.turn parse env = .running p' → Reachable parse p₀ p'
  | react {p p' : Program α} : Reachable parse p₀ p → React p p' → Reachable parse p₀ p'

/-! ## Where the loop ends -/

section turns

variable {α : Type} {parse : String → Option α} {env : Env} {c : Command} {p q : Program α}

theorem ofLine_eq_quit {input : String} (h : Command.ofLine input = .quit) :
    input = "quit" := by
  simp only [Command.ofLine, ite_eq_iff, reduceCtorEq, false_and, false_or, and_false,
    or_false] at h
  exact h.2.2.2.2.2.2.2.2.2.1

/-- A branch that goes on has read its argument line when the command takes one, and no line
otherwise. -/
theorem command_lines (h : Program.command parse env c p = .running q) :
    q.lines = if c.TakesArgument then p.lines.tail else p.lines := by
  cases c <;> simp only [Program.command] at h <;> (try split at h) <;> cases h <;>
    simp [Command.TakesArgument]

/-- A turn that goes on leaves commands that the input's commands end with. -/
theorem commandLines_turn (h : p.turn parse env = .running q) :
    commandLines q.lines <:+ commandLines p.lines := by
  have hq := command_lines h
  cases hl : p.lines with
  | nil => simp only [hl, readLine_snd, List.tail_nil, ite_self] at hq; rw [hq]
  | cons l ls =>
    simp only [hl, readLine, List.tail_cons] at hq
    rw [hq]
    conv_rhs => unfold commandLines
    split
    · cases ls <;> exact List.suffix_cons _ _
    · exact List.suffix_cons _ _

/-- Only `quit` leaves the loop, and it stops the server. -/
theorem command_exited (h : Program.command parse env c p = .exited q) :
    c = .quit ∧ q.host.server.acceptor_open = false := by
  cases c <;> simp only [Program.command] at h
  case quit => cases h; exact ⟨rfl, rfl⟩
  all_goals first | cases h | (split at h <;> cases h)

theorem React.lines (h : React p q) : q.lines = p.lines := by
  cases h <;> rfl

theorem commandLines_of_reachable {p₀ : Program α} (hp : Reachable parse p₀ p) :
    commandLines p.lines <:+ commandLines p₀.lines := by
  induction hp with
  | init => exact List.suffix_refl _
  | turn _ _ h ih => exact (commandLines_turn h).trans ih
  | react _ h ih => rwa [h.lines]

end turns

/-- Whatever the input, the environment's answers and the io threads' interleaving: `main`
returns only after reading `quit` as a command, and then with its acceptor closed; once its
input is exhausted, every turn leaves it as it was. So without a `quit`, `main` never returns:
at the end of its input it prints the help text for ever. -/
theorem main_returns_only_at_quit {α : Type} (parse : String → Option α) (e : Endpoint α)
    (threads : Nat) (lines : List String) {p : Program α}
    (hp : Reachable parse (Program.init e threads lines) p) (env : Env) :
    (∀ q, p.turn parse env = .exited q →
      "quit" ∈ commandLines lines ∧ q.host.isListening = false) ∧
    (p.lines = [] → p.turn parse env = .running p) := by
  refine ⟨fun q hq => ?_, fun hl => ?_⟩
  · obtain ⟨hin, hs⟩ := command_exited hq
    refine ⟨(commandLines_of_reachable hp).subset ?_, hs⟩
    cases hl : p.lines with
    | nil => simp only [hl, readLine] at hin; cases hin
    | cons l ls =>
      simp only [hl, readLine] at hin
      rw [ofLine_eq_quit hin]
      unfold commandLines
      exact List.mem_cons_self _ _
  · obtain ⟨h, c, m, l⟩ := p
    cases hl
    rfl

/-- `quit` typed as the message of a `client_send` is no command: after that turn the input is
exhausted, and every turn leaves `main` as it is. -/
theorem main_returns_only_at_quit_after_send :
    ∃ p : Program Nat, Reachable (fun _ => none) (Program.init ⟨0, 5000⟩ 1 ["client_send", "quit"]) p ∧
      p.lines = [] ∧ "quit" ∉ commandLines ["client_send", "quit"] ∧
      ((∀ q, p.turn (fun _ => none) ⟨false, .missing, .ok⟩ = .exited q →
        "quit" ∈ commandLines ["client_send", "quit"] ∧ q.host.isListening = false) ∧
      (p.lines = [] → p.turn (fun _ => none) ⟨false, .missing, .ok⟩ = .running p)) :=
  have hp : Reachable (fun _ => (none : Option Nat))
      (Program.init ⟨0, 5000⟩ 1 ["client_send", "quit"]) _ := .turn ⟨false, .missing, .ok⟩ .init rfl
  ⟨_, hp, rfl, by decide, main_returns_only_at_quit _ _ _ _ hp _⟩

/-! ## The sessions `main` holds -/

section sessions

variable {α : Type} {parse : String → Option α} {env : Env} {c : Command} {p q : Program α}

/-- A branch that goes on changes the client by one of its calls, or not at all. -/
theorem command_client (h : Program.command parse env c p = .running q) :
    q.client = p.client ∨ q.client = p.client.connect ∨ q.client = p.client.disconnect ∨
      ∃ m, q.client = (p.client.send m).2 := by
  cases c <;> simp only [Program.command] at h
  case serverSetPort => split at h <;> cases h; exact .inl rfl
  case clientSendFile =>
    split at h
    · rename_i heq
      cases h
      unfold Client.sendFile at heq
      split at heq
      · cases heq; exact .inl rfl
      · exact .inr (.inr (.inr ⟨_, (congrArg Prod.snd (Option.some.inj heq)).symm⟩))
      · cases heq
    · cases h
  case quit => cases h
  case clientConnect => cases h; exact .inr (.inl rfl)
  case clientDisconnect => cases h; exact .inr (.inr (.inl rfl))
  case clientSend => cases h; exact .inr (.inr (.inr ⟨_, rfl⟩))
  all_goals cases h; exact .inl rfl

/-- A branch that goes on changes the server by one of its owner's calls, or not at all. -/
theorem command_host (h : Program.command parse env c p = .running q) :
    q.host = p.host ∨ ∃ call, p.host.apply call = some q.host := by
  cases c <;> simp only [Program.command] at h
  case serverStart => cases h; exact .inr ⟨.start env.listen, rfl⟩
  case serverStop => cases h; exact .inr ⟨.stop, rfl⟩
  case serverSetAddress => cases h; exact .inr ⟨.setAddress _, rfl⟩
  case serverSetPort => split at h <;> cases h; exact .inr ⟨.setPort _ _, rfl⟩
  case clientSendFile => split at h <;> cases h; exact .inl rfl
  case quit => cases h
  all_goals cases h; exact .inl rfl

/-- The sessions `main` holds: its client's has run as a `client_session` whose caller sends
whenever `is_connected()` holds, since `client_send` is guarded by that alone, and each of its
server's as a `server_session` driven by its own completions. -/
structure Holds (p : Program α) : Prop where
  client : p.client.Runs
  host : SessionsRun handleRequest p.host

theorem Holds.turn (hh : Holds p) (h : p.turn parse env = .running q) : Holds q := by
  refine ⟨?_, ?_⟩
  · rcases command_client h with he | he | he | ⟨m, he⟩ <;> rw [he]
    · exact hh.client
    · exact hh.client
    · exact fun _ h => nomatch h
    · exact hh.client.send m
  · rcases command_host h with he | ⟨call, hc⟩
    · rw [he]; exact hh.host
    · exact sessionsRun_apply hh.host hc

theorem Holds.react (hh : Holds p) (h : React p q) : Holds q := by
  cases h with
  | host hr => exact ⟨hh.client, sessionsRun_react hh.host hr⟩
  | connected ok => exact ⟨hh.client.onConnect ok, hh.host⟩
  | session i hi hs he ha =>
    refine ⟨fun s' hs' => ?_, hh.host⟩
    cases hs'
    exact .step (hh.client _ hs) (.inl hi) he ha

end sessions

end micro_tcp.console
