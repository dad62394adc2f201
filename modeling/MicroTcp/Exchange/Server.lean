-- Where the server session of a connection is in its exchanges, and what one
-- of its steps does there: each phase fixes the operation it waits for, the
-- requests handed over, its buffers, and the bytes it took off and put on.
import MicroTcp.Exchange.Client

namespace micro_tcp.exchange

open Session

/-- The server before its handshake completed, or in exchange `i`: reading the request's
header or content, or writing the response's. -/
inductive ServerPhase
  | handshaking
  | readingHeader (i : Nat)
  | readingContent (i : Nat)
  | writingHeader (i : Nat)
  | writingContent (i : Nat)
deriving DecidableEq, Repr

namespace ServerPhase

/-- The operation the server waits for. -/
def pending : ServerPhase → List Op
  | handshaking => [.handshake]
  | readingHeader _ => [.readHeader]
  | readingContent _ => [.readContent]
  | writingHeader _ => [.writeHeader]
  | writingContent _ => [.writeContent]

/-- The requests handed to `handle_request`. -/
def served : ServerPhase → Nat
  | handshaking => 0
  | readingHeader i | readingContent i => i
  | writingHeader i | writingContent i => i + 1

/-- The completions the server has been through. -/
def count : ServerPhase → Nat
  | handshaking => 0
  | readingHeader i => 4 * i + 1
  | readingContent i => 4 * i + 2
  | writingHeader i => 4 * i + 3
  | writingContent i => 4 * i + 4

/-- The bytes the server has put on its wire, its response frames being `rs`. -/
def out (rs : List Message) (x : End) : ServerPhase → List Char
  | handshaking => []
  | readingHeader i | readingContent i => stream (rs.take i)
  | writingHeader i => stream (rs.take i) ++ x.session.write_buffer.header_buffer.take x.sent
  | writingContent i => stream (rs.take i) ++ x.session.write_buffer.header_buffer ++
      x.session.write_buffer.content_buffer.take x.sent

/-- The bytes the server has taken off the client's wire, the request frames being `ws`. -/
def taken (ws : List Message) (x : End) : ServerPhase → List Char
  | handshaking => []
  | readingHeader i => stream (ws.take i)
  | readingContent i => stream (ws.take i) ++ x.session.read_buffer.header_buffer
  | writingHeader i | writingContent i => stream (ws.take (i + 1))

/-- What the server's buffers hold. -/
def Buffers (ws rs : List Message) (x : End) : ServerPhase → Prop
  | handshaking => x.session.write_buffer = responseBuffer 0 ∧ x.sent = 0
  | readingHeader i =>
    x.session.read_buffer.header_buffer.length = defaultHeaderLength ∧
      x.session.write_buffer = responseBuffer i ∧ x.sent = 0
  | readingContent i =>
    (∃ w, ws[i]? = some w ∧ x.session.read_buffer.header_buffer = w.header_buffer ∧
      x.session.read_buffer.content_buffer.length = w.content_buffer.length) ∧
      x.session.write_buffer = responseBuffer i ∧ x.sent = 0
  | writingHeader i =>
    rs[i]? = some x.session.write_buffer ∧ x.sent ≤ x.session.write_buffer.header_buffer.length
  | writingContent i =>
    rs[i]? = some x.session.write_buffer ∧ x.sent ≤ x.session.write_buffer.content_buffer.length

end ServerPhase

/-- The server end `x`, with request handler `h`, is at phase `p` of the exchanges of the
messages `ms`. -/
structure ServerAt (h : Message → Message → Message) (ms : List Message) (x : End)
    (p : ServerPhase) : Prop where
  pending : x.session.pending = p.pending
  served : requests x.session.log = (ms.map Message.content_buffer).take p.served
  bound : p.served ≤ ms.length
  buffers : p.Buffers (requestFrames ms) (replies h ms) x
  socket_open : x.session.socket_open = true

section

variable {h : Message → Message → Message} {ms : List Message} {x x' : End} {p : ServerPhase}

theorem replies_framed (hr : ∀ r ∈ replies h ms, r.content_buffer.length < 10 ^ contentLengthDigits10) :
    ∀ r ∈ replies h ms, r.Framed := fun r hm => by
  obtain ⟨i, hi⟩ := List.mem_iff_getElem?.1 hm
  rw [replies, List.getElem?_mapIdx] at hi
  obtain ⟨m, -, rfl⟩ := Option.map_eq_some'.1 hi
  exact Message.framed_prepareHeaderBufferWrite _ (hr (reply h i m) hm)

theorem length_replies : (replies h ms).length = ms.length := List.length_mapIdx

/-- The request the server reads in exchange `i` is the message's frame, and its response
is the `i`-th reply. -/
theorem replies_getElem? {i : Nat} {w : Message} (hw : (requestFrames ms)[i]? = some w) :
    (replies h ms)[i]? = some (h w (responseBuffer i)).prepareHeaderBufferWrite ∧
      w.content_buffer = ((ms.map Message.content_buffer)[i]?).getD [] := by
  rw [requestFrames, List.getElem?_map] at hw
  obtain ⟨m, hm, rfl⟩ := Option.map_eq_some'.1 hw
  simp [replies, List.getElem?_mapIdx, hm, reply, Message.ofContent, Message.setContentBuffer]
  rfl

theorem serverAt_start (h : Message → Message → Message) (ms : List Message) :
    ServerAt h ms ⟨accepted.start, 0⟩ .handshaking :=
  ⟨rfl, rfl, Nat.zero_le _, by simp [ServerPhase.Buffers, accepted, start, responseBuffer], rfl⟩

/-- `k` more bytes of the server's outstanding write reach the wire: the phase stays, and the
bytes are the next ones of the frame it writes. -/
theorem ServerAt.transmit {op : Op} {k : Nat} {b : List Char} (hs : ServerAt h ms x p)
    (ht : x.transmit op k = some (x', b)) :
    ServerAt h ms x' p ∧ p.out (replies h ms) x' = p.out (replies h ms) x ++ b ∧
      p.taken (requestFrames ms) x' = p.taken (requestFrames ms) x ∧ 0 < b.length := by
  obtain ⟨hop, hk, hle, rfl, rfl⟩ := End.transmit_eq_some ht
  rw [hs.pending] at hop
  have hb : (((outgoing x.session op).drop x.sent).take k).length = k := by simp; omega
  cases p with
  | writingHeader i | writingContent i =>
    obtain rfl := List.mem_singleton.1 hop
    exact ⟨{ hs with buffers := ⟨hs.buffers.1, hle⟩ },
      by simp [ServerPhase.out, outgoing, List.take_add], rfl, by rw [hb]; exact hk⟩
  | _ =>
    obtain rfl := List.mem_singleton.1 hop
    simp [outgoing] at hle
    omega

/-- An outstanding operation of the server completes: the server moves to the next phase,
keeps what it put on its wire, and takes from its inbox the bytes the read waited for; on a
request's content it calls `handle_request` and starts writing the reply. -/
theorem ServerAt.complete {op : Op} {inbox : List Char} {res : Except Fault (End × List Char)}
    (hms : ∀ m ∈ ms, m.content_buffer.length < 10 ^ contentLengthDigits10)
    (hr : ∀ r ∈ replies h ms, r.content_buffer.length < 10 ^ contentLengthDigits10)
    (hs : ServerAt h ms x p) (hcomp : x.complete (.server h) op inbox = some res)
    (hw : p.taken (requestFrames ms) x ++ inbox <+: stream (requestFrames ms)) :
    ∃ x' inbox' p', res = .ok (x', inbox') ∧ ServerAt h ms x' p' ∧
      p'.out (replies h ms) x' = p.out (replies h ms) x ∧
      p'.taken (requestFrames ms) x' ++ inbox' = p.taken (requestFrames ms) x ++ inbox ∧
      p.count < p'.count := by
  obtain ⟨hop, hsent, hin, rfl⟩ := End.complete_eq_some hcomp
  rw [hs.pending] at hop
  cases p with
  | handshaking =>
    obtain rfl := List.mem_singleton.1 hop
    obtain ⟨hwb, -⟩ := hs.buffers
    rw [complete_handshake_success]
    refine ⟨_, _, .readingHeader 0, rfl, ⟨by simp [onSecureHandshake, hs.pending, ServerPhase.pending],
      by simpa [onSecureHandshake] using hs.served, Nat.zero_le _,
      by simp [onSecureHandshake, ServerPhase.Buffers, hwb], by simp [onSecureHandshake, hs.socket_open]⟩,
      by simp [ServerPhase.out],
      by simp [ServerPhase.taken, incoming], by simp only [ServerPhase.count]; omega⟩
  | readingHeader i =>
    obtain rfl := List.mem_singleton.1 hop
    obtain ⟨hhl, hwb, hx⟩ := hs.buffers
    have hn : incoming x.session .readHeader = defaultHeaderLength := hhl
    rw [hn] at hin
    obtain ⟨w, hwi, hwh⟩ := read_header hw (requestFrames_framed hms) hin
    have hf := requestFrames_framed hms w (List.mem_iff_getElem?.2 ⟨i, hwi⟩)
    rw [hn, hwh, complete_readHeader_of_framed hf]
    refine ⟨_, _, .readingContent i, rfl, ⟨by simp [hs.pending, ServerPhase.pending],
      by simpa using hs.served, hs.bound, ⟨⟨w, hwi, rfl, by simp⟩, hwb, rfl⟩, by simp [hs.socket_open]⟩,
      rfl, ?_,
      by simp only [ServerPhase.count]; omega⟩
    simp only [ServerPhase.taken, doReadContent, issue_read_buffer, List.append_assoc]
    rw [← hwh, List.take_append_drop]
  | readingContent i =>
    obtain rfl := List.mem_singleton.1 hop
    obtain ⟨⟨w, hwi, hh, hl⟩, hwb, hx⟩ := hs.buffers
    have hn : incoming x.session .readContent = w.content_buffer.length := hl
    rw [hn] at hin
    have hc := read_content (hh ▸ hw) hwi hin
    obtain ⟨hri, hwc⟩ := replies_getElem? (h := h) hwi
    have hread : { x.session.read_buffer with content_buffer := w.content_buffer } = w := by
      show Message.mk _ _ = _
      rw [hh]
    rw [complete_readContent_success, hn, hc, receive_readContent]
    have hb : i < ms.length := by
      have := (List.getElem?_eq_some_iff.1 hwi).1
      rwa [requestFrames, List.length_map] at this
    refine ⟨_, _, .writingHeader i, rfl, ⟨by simp [onReadContent, hs.pending, ServerPhase.pending],
      ?_, hb, ?_, by simp [onReadContent, hs.socket_open]⟩, by simp [ServerPhase.out], ?_,
      by simp only [ServerPhase.count]; omega⟩
    · simp [onReadContent, hs.served, ServerPhase.served, List.take_succ, hwc, hread,
        List.getElem?_eq_getElem (show i < (ms.map Message.content_buffer).length by simpa using hb)]
    · simp [ServerPhase.Buffers, onReadContent, hread, hwb, hri]
    · have hsplit := List.take_append_drop w.content_buffer.length inbox
      rw [hc] at hsplit
      simp only [ServerPhase.taken, stream_take_succ hwi, frame, hh, List.append_assoc, hsplit]
  | writingHeader i =>
    obtain rfl := List.mem_singleton.1 hop
    obtain ⟨hri, -⟩ := hs.buffers
    have hf := replies_framed hr _ (List.mem_iff_getElem?.2 ⟨i, hri⟩)
    rw [complete_writeHeader_of_framed hf]
    refine ⟨_, _, .writingContent i, rfl, ⟨by simp [hs.pending, ServerPhase.pending],
      by simpa using hs.served, hs.bound, ⟨hri, Nat.zero_le _⟩, by simp [hs.socket_open]⟩,
      by simp [ServerPhase.out, hsent, outgoing], by simp [ServerPhase.taken, incoming],
      by simp only [ServerPhase.count]; omega⟩
  | writingContent i =>
    obtain rfl := List.mem_singleton.1 hop
    obtain ⟨hri, -⟩ := hs.buffers
    have hb : i + 1 ≤ ms.length := by
      have := (List.getElem?_eq_some_iff.1 hri).1
      rw [length_replies] at this
      omega
    rw [complete_writeContent_success]
    refine ⟨_, _, .readingHeader (i + 1), rfl, ⟨by simp [onWriteContent, hs.pending, ServerPhase.pending],
      by simpa [onWriteContent] using hs.served, hb,
      by simp [onWriteContent, ServerPhase.Buffers, responseBuffer]; rfl,
      by simp [onWriteContent, hs.socket_open]⟩,
      by simp [ServerPhase.out, onWriteContent, stream_take_succ hri, frame, hsent, outgoing],
      by simp [ServerPhase.taken, incoming], by simp only [ServerPhase.count]; omega⟩

/-- A server end that can neither put bytes on its wire nor complete an operation waits for
a read that its inbox cannot fill. -/
theorem ServerAt.stuck {inbox : List Char} (hs : ServerAt h ms x p)
    (hc : ∀ op, x.complete (.server h) op inbox = none) (ht : ∀ op k, x.transmit op k = none) :
    (∃ i, p = .readingHeader i ∧ inbox.length < defaultHeaderLength) ∨
      (∃ i w, p = .readingContent i ∧ (requestFrames ms)[i]? = some w ∧
        x.session.read_buffer.header_buffer = w.header_buffer ∧
        inbox.length < w.content_buffer.length) := by
  cases p with
  | handshaking =>
    exact absurd (hc .handshake) (End.not_stuck (by simp [hs.pending, ServerPhase.pending])
      (by simp [hs.buffers.2, outgoing]) (Nat.zero_le _) (ht _))
  | readingHeader i =>
    exact .inl ⟨i, rfl, Nat.lt_of_not_le fun hin => absurd (hc .readHeader)
      (End.complete_ne_none (by simp [hs.pending, ServerPhase.pending])
        (by simp [hs.buffers.2.2, outgoing]) (hs.buffers.1.trans_le hin))⟩
  | readingContent i =>
    obtain ⟨⟨w, hwi, hh, hl⟩, -, hx⟩ := hs.buffers
    exact .inr ⟨i, w, rfl, hwi, hh, Nat.lt_of_not_le fun hin => absurd (hc .readContent)
      (End.complete_ne_none (by simp [hs.pending, ServerPhase.pending]) (by simp [hx, outgoing])
        (hl.trans_le hin))⟩
  | writingHeader i =>
    exact absurd (hc .writeHeader) (End.not_stuck (by simp [hs.pending, ServerPhase.pending])
      hs.buffers.2 (Nat.zero_le _) (ht _))
  | writingContent i =>
    exact absurd (hc .writeContent) (End.not_stuck (by simp [hs.pending, ServerPhase.pending])
      hs.buffers.2 (Nat.zero_le _) (ht _))

/-- What the server put on its wire is a prefix of its response frames. -/
theorem ServerAt.out_isPrefix (hs : ServerAt h ms x p) :
    p.out (replies h ms) x <+: stream (replies h ms) := by
  cases p with
  | handshaking => exact ⟨_, rfl⟩
  | readingHeader i | readingContent i => exact stream_take_isPrefix_stream i
  | writingHeader i =>
    rw [stream_split hs.buffers.1]
    exact append_take_isPrefix _ _ _ _
  | writingContent i =>
    rw [stream_split hs.buffers.1, ← List.append_assoc _ x.session.write_buffer.header_buffer]
    exact append_take_isPrefix _ _ _ _

end

end micro_tcp.exchange
