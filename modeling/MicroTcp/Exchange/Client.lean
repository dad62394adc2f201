-- Where the client session of a connection is in its exchanges, and what one
-- of its steps does there: each phase fixes the operation it waits for, the
-- responses handed over, its buffers, and the bytes it put on and took off.
import MicroTcp.Exchange.Wire

namespace micro_tcp.exchange

open Session

/-- The client before its handshake completed; idle after `j` exchanges; or in exchange `j`,
writing the request's header or content, or reading the response's. -/
inductive ClientPhase
  | handshaking
  | idle (j : Nat)
  | writingHeader (j : Nat)
  | writingContent (j : Nat)
  | readingHeader (j : Nat)
  | readingContent (j : Nat)
deriving DecidableEq, Repr

namespace ClientPhase

/-- The operation the client waits for. -/
def pending : ClientPhase → List Op
  | handshaking => [.handshake]
  | idle _ => []
  | writingHeader _ => [.writeHeader]
  | writingContent _ => [.writeContent]
  | readingHeader _ => [.readHeader]
  | readingContent _ => [.readContent]

/-- The responses handed to `handle_response`. -/
def answered : ClientPhase → Nat
  | handshaking => 0
  | idle j | writingHeader j | writingContent j | readingHeader j | readingContent j => j

/-- The messages sent. -/
def sends : ClientPhase → Nat
  | handshaking => 0
  | idle j => j
  | writingHeader j | writingContent j | readingHeader j | readingContent j => j + 1

/-- The sends and completions the client has been through. -/
def count : ClientPhase → Nat
  | handshaking => 0
  | idle j => 5 * j + 1
  | writingHeader j => 5 * j + 2
  | writingContent j => 5 * j + 3
  | readingHeader j => 5 * j + 4
  | readingContent j => 5 * j + 5

/-- The bytes the client has put on its wire, its request frames being `ws`. -/
def out (ws : List Message) (x : End) : ClientPhase → List Char
  | handshaking => []
  | idle j => stream (ws.take j)
  | writingHeader j => stream (ws.take j) ++ x.session.write_buffer.header_buffer.take x.sent
  | writingContent j => stream (ws.take j) ++ x.session.write_buffer.header_buffer ++
      x.session.write_buffer.content_buffer.take x.sent
  | readingHeader j | readingContent j => stream (ws.take (j + 1))

/-- The bytes the client has taken off the server's wire, the response frames being `rs`. -/
def taken (rs : List Message) (x : End) : ClientPhase → List Char
  | handshaking => []
  | idle j | writingHeader j | writingContent j | readingHeader j => stream (rs.take j)
  | readingContent j => stream (rs.take j) ++ x.session.read_buffer.header_buffer

/-- What the client's buffers hold. -/
def Buffers (ws rs : List Message) (x : End) : ClientPhase → Prop
  | handshaking | idle _ => x.sent = 0
  | writingHeader j =>
    ws[j]? = some x.session.write_buffer ∧ x.sent ≤ x.session.write_buffer.header_buffer.length
  | writingContent j =>
    ws[j]? = some x.session.write_buffer ∧ x.sent ≤ x.session.write_buffer.content_buffer.length
  | readingHeader _ =>
    x.session.read_buffer.header_buffer.length = defaultHeaderLength ∧ x.sent = 0
  | readingContent j =>
    (∃ r, rs[j]? = some r ∧ x.session.read_buffer.header_buffer = r.header_buffer ∧
      x.session.read_buffer.content_buffer.length = r.content_buffer.length) ∧ x.sent = 0

end ClientPhase

/-- The client end `x` is at phase `p` of the exchanges of the messages `ms` with the
responses `rs`, its caller holding `unsent` after `sends` sends. -/
structure ClientAt (ms rs : List Message) (x : End) (unsent : List Message) (sends : Nat)
    (p : ClientPhase) : Prop where
  pending : x.session.pending = p.pending
  secured : Event.secured ∈ x.session.log ↔ p ≠ .handshaking
  answered : responses x.session.log = (rs.map Message.content_buffer).take p.answered
  unsent : unsent = ms.drop p.sends
  sends : sends = p.sends
  bound : p.sends ≤ ms.length
  buffers : p.Buffers (requestFrames ms) rs x
  socket_open : x.session.socket_open = true

section

variable {ms rs : List Message} {x x' : End} {u : List Message} {n : Nat} {p : ClientPhase}

theorem requestFrames_framed (hms : ∀ m ∈ ms, m.content_buffer.length < 10 ^ contentLengthDigits10) :
    ∀ w ∈ requestFrames ms, w.Framed := by
  simp only [requestFrames, List.mem_map]
  rintro _ ⟨m, hm, rfl⟩
  exact Message.framed_prepareHeaderBufferWrite m (hms m hm)

theorem clientAt_start (ms rs : List Message) :
    ClientAt ms rs ⟨accepted.start, 0⟩ ms 0 .handshaking :=
  ⟨rfl, by simp [accepted, start], by simp [accepted, start, ClientPhase.answered], rfl, rfl,
    Nat.zero_le _, rfl, rfl⟩

/-- `client::send` on a client whose handshake succeeded and that handed over a response to
each message sent: it is idle, and starts writing the next message's header. -/
theorem ClientAt.send {m : Message} {rest : List Message} (hc : ClientAt ms rs x u n p)
    (hlen : rs.length = ms.length) (hsec : Event.secured ∈ x.session.log)
    (hresp : (responses x.session.log).length = n) (hu : u = m :: rest) :
    ∃ j, p = .idle j ∧
      ClientAt ms rs { x with session := x.session.send m } rest (n + 1) (.writingHeader j) ∧
      (ClientPhase.writingHeader j).out (requestFrames ms) { x with session := x.session.send m } =
        (ClientPhase.idle j).out (requestFrames ms) x := by
  have hb := hc.bound
  rw [hc.answered, List.length_take, List.length_map, hlen, hc.sends] at hresp
  cases p with
  | handshaking => exact absurd (hc.secured.1 hsec) (by simp)
  | idle j =>
    replace hu : ms.drop j = m :: rest := hc.unsent ▸ hu
    have hj : j < ms.length := by
      by_contra hj
      rw [List.drop_of_length_le (by omega)] at hu
      cases hu
    rw [List.drop_eq_getElem_cons hj] at hu
    obtain ⟨rfl, rfl⟩ := List.cons.inj hu
    have hx : x.sent = 0 := hc.buffers
    refine ⟨j, rfl, ⟨by simp [Session.send, hc.pending, ClientPhase.pending], by simp [Session.send, hsec],
      by simpa [Session.send] using hc.answered, rfl, by rw [hc.sends]; rfl, hj,
      by simp [ClientPhase.Buffers, Session.send, requestFrames, hx, List.getElem?_eq_getElem hj],
      by simp [Session.send, hc.socket_open]⟩,
      by simp [ClientPhase.out, hx]⟩
  | _ j => simp [ClientPhase.answered, ClientPhase.sends] at hresp; omega

/-- `k` more bytes of the client's outstanding write reach the wire: the phase stays, and the
bytes are the next ones of the frame it writes. -/
theorem ClientAt.transmit {op : Op} {k : Nat} {b : List Char} (hc : ClientAt ms rs x u n p)
    (ht : x.transmit op k = some (x', b)) :
    ClientAt ms rs x' u n p ∧ p.out (requestFrames ms) x' = p.out (requestFrames ms) x ++ b ∧
      p.taken rs x' = p.taken rs x ∧ 0 < b.length := by
  obtain ⟨hop, hk, hle, rfl, rfl⟩ := End.transmit_eq_some ht
  rw [hc.pending] at hop
  have hb : (((outgoing x.session op).drop x.sent).take k).length = k := by simp; omega
  cases p with
  | writingHeader j | writingContent j =>
    obtain rfl := List.mem_singleton.1 hop
    exact ⟨{ hc with buffers := ⟨hc.buffers.1, hle⟩ },
      by simp [ClientPhase.out, outgoing, List.take_add], rfl, by rw [hb]; exact hk⟩
  | idle j => cases hop
  | _ =>
    obtain rfl := List.mem_singleton.1 hop
    simp [outgoing] at hle
    omega

/-- An outstanding operation of the client completes: the client moves to the next phase,
keeps what it put on its wire, and takes from its inbox the bytes the read waited for. -/
theorem ClientAt.complete {op : Op} {inbox : List Char} {res : Except Fault (End × List Char)}
    (hms : ∀ m ∈ ms, m.content_buffer.length < 10 ^ contentLengthDigits10)
    (hrs : ∀ r ∈ rs, r.Framed) (hc : ClientAt ms rs x u n p)
    (hcomp : x.complete .client op inbox = some res) (hw : p.taken rs x ++ inbox <+: stream rs) :
    ∃ x' inbox' p', res = .ok (x', inbox') ∧ ClientAt ms rs x' u n p' ∧
      p'.out (requestFrames ms) x' = p.out (requestFrames ms) x ∧
      p'.taken rs x' ++ inbox' = p.taken rs x ++ inbox ∧ p.count < p'.count := by
  obtain ⟨hop, hsent, hin, rfl⟩ := End.complete_eq_some hcomp
  rw [hc.pending] at hop
  cases p with
  | handshaking =>
    obtain rfl := List.mem_singleton.1 hop
    rw [complete_handshake_success]
    refine ⟨_, _, .idle 0, rfl, ⟨by simp [onSecureHandshake, hc.pending, ClientPhase.pending],
      by simp [onSecureHandshake], by simpa [onSecureHandshake] using hc.answered, hc.unsent,
      hc.sends, Nat.zero_le _, rfl, by simp [onSecureHandshake, hc.socket_open]⟩,
      by simp [ClientPhase.out], by simp [ClientPhase.taken, incoming],
      by simp only [ClientPhase.count]; omega⟩
  | idle j => cases hop
  | writingHeader j =>
    obtain rfl := List.mem_singleton.1 hop
    obtain ⟨hwj, -⟩ := hc.buffers
    have hf := requestFrames_framed hms _ (List.mem_iff_getElem?.2 ⟨j, hwj⟩)
    rw [complete_writeHeader_of_framed hf]
    refine ⟨_, _, .writingContent j, rfl, ⟨by simp [hc.pending, ClientPhase.pending],
      by simpa using hc.secured, by simpa using hc.answered, hc.unsent, hc.sends, hc.bound,
      ⟨hwj, Nat.zero_le _⟩, by simp [hc.socket_open]⟩, by simp [ClientPhase.out, hsent, outgoing],
      by simp [ClientPhase.taken, incoming], by simp only [ClientPhase.count]; omega⟩
  | writingContent j =>
    obtain rfl := List.mem_singleton.1 hop
    obtain ⟨hwj, -⟩ := hc.buffers
    rw [complete_writeContent_success]
    refine ⟨_, _, .readingHeader j, rfl, ⟨by simp [onWriteContent, hc.pending, ClientPhase.pending],
      by simpa [onWriteContent] using hc.secured, by simpa [onWriteContent] using hc.answered,
      hc.unsent, hc.sends, hc.bound, by simp [onWriteContent, ClientPhase.Buffers],
      by simp [onWriteContent, hc.socket_open]⟩,
      by simp [ClientPhase.out, onWriteContent, stream_take_succ hwj, frame, hsent, outgoing],
      by simp [ClientPhase.taken, incoming], by simp only [ClientPhase.count]; omega⟩
  | readingHeader j =>
    obtain rfl := List.mem_singleton.1 hop
    obtain ⟨hhl, hx⟩ := hc.buffers
    have hn : incoming x.session .readHeader = defaultHeaderLength := hhl
    rw [hn] at hin
    obtain ⟨r, hrj, hr⟩ := read_header hw hrs hin
    have hf := hrs r (List.mem_iff_getElem?.2 ⟨j, hrj⟩)
    rw [hn, hr, complete_readHeader_of_framed hf]
    refine ⟨_, _, .readingContent j, rfl, ⟨by simp [hc.pending, ClientPhase.pending],
      by simpa using hc.secured, by simpa using hc.answered, hc.unsent, hc.sends, hc.bound,
      ⟨⟨r, hrj, rfl, by simp⟩, rfl⟩, by simp [hc.socket_open]⟩, rfl, ?_,
      by simp only [ClientPhase.count]; omega⟩
    simp only [ClientPhase.taken, doReadContent, issue_read_buffer, List.append_assoc]
    rw [← hr, List.take_append_drop]
  | readingContent j =>
    obtain rfl := List.mem_singleton.1 hop
    obtain ⟨⟨r, hrj, hh, hl⟩, hx⟩ := hc.buffers
    have hn : incoming x.session .readContent = r.content_buffer.length := hl
    rw [hn] at hin
    have hr := read_content (hh ▸ hw) hrj hin
    rw [complete_readContent_success, hn, hr, receive_readContent]
    have hb : j + 1 ≤ ms.length := hc.bound
    refine ⟨_, _, .idle (j + 1), rfl, ⟨by simp [onReadContent, hc.pending, ClientPhase.pending],
      by simpa [onReadContent] using hc.secured, ?_, hc.unsent, hc.sends, hb, rfl,
      by simp [onReadContent, hc.socket_open]⟩, rfl, ?_,
      by simp only [ClientPhase.count]; omega⟩
    · simp [onReadContent, hc.answered, ClientPhase.answered, List.take_succ, hrj]
    · have hsplit := List.take_append_drop r.content_buffer.length inbox
      rw [hr] at hsplit
      simp only [ClientPhase.taken, stream_take_succ hrj, frame, hh, List.append_assoc, hsplit]

/-- A client end that can neither put bytes on its wire nor complete an operation is idle, or
waits for a read that its inbox cannot fill. -/
theorem ClientAt.stuck {inbox : List Char} (hc : ClientAt ms rs x u n p)
    (hcomp : ∀ op, x.complete .client op inbox = none) (ht : ∀ op k, x.transmit op k = none) :
    (∃ j, p = .idle j) ∨ (∃ j, p = .readingHeader j ∧ inbox.length < defaultHeaderLength) ∨
      (∃ j r, p = .readingContent j ∧ rs[j]? = some r ∧
        x.session.read_buffer.header_buffer = r.header_buffer ∧
        inbox.length < r.content_buffer.length) := by
  cases p with
  | handshaking =>
    exact absurd (hcomp .handshake) (End.not_stuck (by simp [hc.pending, ClientPhase.pending])
      (by simp [show x.sent = 0 from hc.buffers, outgoing]) (Nat.zero_le _) (ht _))
  | idle j => exact .inl ⟨j, rfl⟩
  | writingHeader j =>
    exact absurd (hcomp .writeHeader) (End.not_stuck (by simp [hc.pending, ClientPhase.pending])
      hc.buffers.2 (Nat.zero_le _) (ht _))
  | writingContent j =>
    exact absurd (hcomp .writeContent) (End.not_stuck (by simp [hc.pending, ClientPhase.pending])
      hc.buffers.2 (Nat.zero_le _) (ht _))
  | readingHeader j =>
    exact .inr (.inl ⟨j, rfl, Nat.lt_of_not_le fun hin => absurd (hcomp .readHeader)
      (End.complete_ne_none (by simp [hc.pending, ClientPhase.pending])
        (by simp [hc.buffers.2, outgoing]) (hc.buffers.1.trans_le hin))⟩)
  | readingContent j =>
    obtain ⟨⟨r, hrj, hh, hl⟩, hx⟩ := hc.buffers
    exact .inr (.inr ⟨j, r, rfl, hrj, hh, Nat.lt_of_not_le fun hin => absurd (hcomp .readContent)
      (End.complete_ne_none (by simp [hc.pending, ClientPhase.pending]) (by simp [hx, outgoing])
        (hl.trans_le hin))⟩)

/-- What the client put on its wire is a prefix of its request frames. -/
theorem ClientAt.out_isPrefix (hc : ClientAt ms rs x u n p) :
    p.out (requestFrames ms) x <+: stream (requestFrames ms) := by
  cases p with
  | handshaking => exact ⟨_, rfl⟩
  | idle j => exact stream_take_isPrefix_stream j
  | writingHeader j =>
    rw [stream_split hc.buffers.1]
    exact append_take_isPrefix _ _ _ _
  | writingContent j =>
    rw [stream_split hc.buffers.1, ← List.append_assoc _ x.session.write_buffer.header_buffer]
    exact append_take_isPrefix _ _ _ _
  | readingHeader j | readingContent j => exact stream_take_isPrefix_stream (j + 1)

end

end micro_tcp.exchange
