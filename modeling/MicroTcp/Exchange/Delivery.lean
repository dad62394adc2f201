-- The exchanges of a connection end to end: whatever the interleaving and the
-- chunking, the server hands `handle_request` the messages in order, the client
-- hands `handle_response` their replies in order, and no handler faults.
import MicroTcp.Exchange.Server

namespace micro_tcp.exchange

/-- The connection with the client at phase `cp` and the server at phase `sp`: each end's
session is where its phase says, and each wire holds what its writer put on it past what
its reader took. -/
structure Joint (h : Message → Message → Message) (ms : List Message) (e : Exchange)
    (cp : ClientPhase) (sp : ServerPhase) : Prop where
  client : ClientAt ms (replies h ms) e.client e.unsent e.sends cp
  server : ServerAt h ms e.server sp
  toServer : sp.taken (requestFrames ms) e.server ++ e.toServer = cp.out (requestFrames ms) e.client
  toClient : cp.taken (replies h ms) e.client ++ e.toClient = sp.out (replies h ms) e.server

/-- The sends and completions both ends have been through, and the bytes they wrote. -/
def progress (h : Message → Message → Message) (ms : List Message) (e : Exchange)
    (cp : ClientPhase) (sp : ServerPhase) : Nat :=
  cp.count + sp.count + (cp.out (requestFrames ms) e.client).length +
    (sp.out (replies h ms) e.server).length

/-- The most sends, completions and bytes written a connection can go through. -/
def progressBound (h : Message → Message → Message) (ms : List Message) : Nat :=
  2 + 9 * ms.length + (stream (requestFrames ms)).length + (stream (replies h ms)).length

section

variable {h : Message → Message → Message} {ms : List Message} {e : Exchange}
  {cp : ClientPhase} {sp : ServerPhase}

theorem joint_start (h : Message → Message → Message) (ms : List Message) :
    Joint h ms (Exchange.start ms) .handshaking .handshaking :=
  ⟨clientAt_start ms _, serverAt_start h ms, rfl, rfl⟩

theorem progress_start : progress h ms (Exchange.start ms) .handshaking .handshaking = 0 := rfl

/-- No run goes past the progress bound: each end sends, completes and writes no more than
the exchanges of `ms` ask for. -/
theorem Joint.progress_le (hj : Joint h ms e cp sp) : progress h ms e cp sp ≤ progressBound h ms := by
  have hco := hj.client.out_isPrefix.length_le
  have hso := hj.server.out_isPrefix.length_le
  have hcc : cp.count ≤ 5 * ms.length + 1 := by
    have := hj.client.bound
    cases cp <;> simp only [ClientPhase.count, ClientPhase.sends] at this ⊢ <;> omega
  have hsc : sp.count ≤ 4 * ms.length + 1 := by
    have := hj.server.bound
    cases sp with
    | readingContent i =>
      obtain ⟨⟨w, hwi, -⟩, -⟩ := hj.server.buffers
      have := (List.getElem?_eq_some_iff.1 hwi).1
      simp only [requestFrames, List.length_map, ServerPhase.count] at this ⊢
      omega
    | _ => simp only [ServerPhase.count, ServerPhase.served] at this ⊢; omega
  simp only [progress, progressBound]
  omega

variable (hms : ∀ m ∈ ms, m.content_buffer.length < 10 ^ contentLengthDigits10)
  (hr : ∀ r ∈ replies h ms, r.content_buffer.length < 10 ^ contentLengthDigits10)
include hms hr

/-- Every action that can happen keeps the ends at phases joined by their wires, faults no
handler, and adds to the progress. -/
theorem Joint.step {a : Action} {res : Except Fault Exchange} (hj : Joint h ms e cp sp)
    (hs : e.step h a = some res) :
    ∃ e' cp' sp', res = .ok e' ∧ Joint h ms e' cp' sp' ∧
      progress h ms e cp sp < progress h ms e' cp' sp' := by
  cases a with
  | send =>
    obtain ⟨m, rest, hu, hsec, hresp, rfl⟩ := Exchange.step_send_eq_some hs
    obtain ⟨j, rfl, hc, hout⟩ := hj.client.send length_replies hsec hresp hu
    refine ⟨_, _, sp, rfl, ⟨hc, hj.server, hout ▸ hj.toServer, hj.toClient⟩, ?_⟩
    simp only [progress, hout, ClientPhase.count]
    omega
  | transmit p op n =>
    cases p with
    | client =>
      obtain ⟨x, b, hxb, rfl⟩ := Exchange.step_transmit_eq_some hs
      obtain ⟨hc, hout, htaken, hb⟩ := hj.client.transmit hxb
      refine ⟨_, _, sp, rfl, ⟨hc, hj.server, ?_, htaken ▸ hj.toClient⟩, ?_⟩
      · simp only [hout, ← hj.toServer, List.append_assoc]
      · simp only [progress, hout, List.length_append]
        omega
    | server =>
      obtain ⟨x, b, hxb, rfl⟩ := Exchange.step_transmit_eq_some hs
      obtain ⟨hs', hout, htaken, hb⟩ := hj.server.transmit hxb
      refine ⟨_, cp, _, rfl, ⟨hj.client, hs', htaken ▸ hj.toServer, ?_⟩, ?_⟩
      · simp only [hout, ← hj.toClient, List.append_assoc]
      · simp only [progress, hout, List.length_append]
        omega
  | complete p op =>
    cases p with
    | client =>
      obtain ⟨r, hcomp, rfl⟩ := Exchange.step_complete_eq_some hs
      obtain ⟨x, w, cp', rfl, hc, hout, htaken, hcount⟩ :=
        hj.client.complete hms (replies_framed hr) hcomp (hj.toClient ▸ hj.server.out_isPrefix)
      refine ⟨_, cp', sp, rfl, ⟨hc, hj.server, hout ▸ hj.toServer, htaken.trans hj.toClient⟩, ?_⟩
      simp only [progress, hout]
      omega
    | server =>
      obtain ⟨r, hcomp, rfl⟩ := Exchange.step_complete_eq_some hs
      obtain ⟨x, w, sp', rfl, hs', hout, htaken, hcount⟩ :=
        hj.server.complete hms hr hcomp (hj.toServer ▸ hj.client.out_isPrefix)
      refine ⟨_, cp, sp', rfl, ⟨hj.client, hs', htaken.trans hj.toServer, hout ▸ hj.toClient⟩, ?_⟩
      simp only [progress, hout]
      omega

/-- In a connection where nothing can happen, the client is idle after every message and the
server waits for a request header that nobody sends. -/
theorem Joint.finished (hj : Joint h ms e cp sp) (hstuck : ∀ a, e.step h a = none) :
    cp = .idle ms.length ∧ sp = .readingHeader ms.length := by
  have hW := requestFrames_framed hms
  have hR := replies_framed hr
  have hlW : (requestFrames ms).length = ms.length := List.length_map _ _
  have hlR : (replies h ms).length = ms.length := length_replies
  have hcs := hj.client
  have hss := hj.server
  have hserver := hss.stuck (fun op => Option.map_eq_none'.1 (hstuck (.complete .server op)))
    fun op k => Option.map_eq_none'.1 (hstuck (.transmit .server op k))
  -- An idle client has sent every message: it could send the next one.
  have hclient : cp = .idle ms.length ∨
      (∃ j, cp = .readingHeader j ∧ e.toClient.length < defaultHeaderLength) ∨
      (∃ j r, cp = .readingContent j ∧ (replies h ms)[j]? = some r ∧
        e.client.session.read_buffer.header_buffer = r.header_buffer ∧
        e.toClient.length < r.content_buffer.length) := by
    refine (hcs.stuck (fun op => Option.map_eq_none'.1 (hstuck (.complete .client op)))
      fun op k => Option.map_eq_none'.1 (hstuck (.transmit .client op k))).imp_left ?_
    rintro ⟨j, rfl⟩
    refine congrArg _ (Nat.le_antisymm hcs.bound (Nat.le_of_not_lt fun hj' => ?_))
    have hu : e.unsent = ms[j] :: ms.drop (j + 1) := hcs.unsent.trans (List.drop_eq_getElem_cons hj')
    refine Exchange.step_send_ne_none hu (hcs.secured.2 (by simp)) ?_ (hstuck _)
    rw [hcs.answered, hcs.sends]
    simp [ClientPhase.answered, ClientPhase.sends, hlR]
    omega
  -- Each wire holds what its writer put out past what its reader took: compare the lengths.
  have hA := congrArg List.length hj.toServer
  have hB := congrArg List.length hj.toClient
  simp only [List.length_append] at hA hB
  have hsb : sp.served ≤ ms.length := hss.bound
  have hcb : cp.sends ≤ ms.length := hcs.bound
  have hd : defaultHeaderLength = 28 := rfl
  have mem {l : List Message} {k : Nat} {m : Message} (hk : l[k]? = some m) : m ∈ l :=
    List.mem_iff_getElem?.2 ⟨k, hk⟩
  rcases hclient with rfl | ⟨j, rfl, hc⟩ | ⟨j, r, rfl, hrj, hh, hc⟩ <;>
    rcases hserver with ⟨i, rfl, hs⟩ | ⟨i, w, rfl, hwi, hh', hs⟩ <;>
    simp only [ClientPhase.taken, ClientPhase.out, ServerPhase.taken, ServerPhase.out,
      ClientPhase.sends, ServerPhase.served, List.length_append] at hA hB hsb hcb
  · -- idle after every message, server at a header: it is the last one
    have := stream_take_length_cases hR i ms.length (by omega)
    exact ⟨rfl, by rw [show i = ms.length by omega]⟩
  · -- idle after every message, server inside a request: no request is left to read
    have hi := (List.getElem?_eq_some_iff.1 hwi).1
    have := stream_take_length_cases hR i ms.length (by omega)
    omega
  · -- both wait for a header: the one whose peer is ahead finds it
    have := stream_take_length_cases hW i (j + 1) (by omega)
    have := stream_take_length_cases hR j i (by omega)
    omega
  · rw [hh', (hW w (mem hwi)).header_length] at hA
    have := stream_take_succ_length hW hwi
    have := stream_take_length_mono (requestFrames ms) (i + 1) (j + 1)
    have := stream_take_length_cases hR j i (by omega)
    omega
  · rw [hh, (hR r (mem hrj)).header_length] at hB
    have := stream_take_succ_length hR hrj
    have := stream_take_length_mono (replies h ms) (j + 1) i
    have := stream_take_length_cases hW i (j + 1) (by omega)
    omega
  · rw [hh', (hW w (mem hwi)).header_length] at hA
    rw [hh, (hR r (mem hrj)).header_length] at hB
    have := stream_take_succ_length hW hwi
    have := stream_take_length_mono (requestFrames ms) (i + 1) (j + 1)
    have := stream_take_succ_length hR hrj
    have := stream_take_length_mono (replies h ms) (j + 1) i
    omega

/-- A run keeps the ends at joined phases, and each of its actions adds to the progress. -/
theorem Joint.run {as : List Action} {e' : Exchange} (hj : Joint h ms e cp sp)
    (hrun : e.run h as = some (.ok e')) :
    ∃ cp' sp', Joint h ms e' cp' sp' ∧
      progress h ms e cp sp + as.length ≤ progress h ms e' cp' sp' := by
  induction as generalizing e cp sp with
  | nil =>
    cases hrun
    exact ⟨cp, sp, hj, le_refl _⟩
  | cons a as ih =>
    obtain ⟨e₁, hs, hrun⟩ := Exchange.run_cons_eq_ok hrun
    obtain ⟨_, cp₁, sp₁, he, hj₁, hlt⟩ := hj.step hms hr hs
    cases he
    obtain ⟨cp', sp', hj', hle⟩ := ih hj₁ hrun
    exact ⟨cp', sp', hj', by simp only [List.length_cons]; omega⟩

end

/-- For every request handler `h` and messages `ms` whose contents and replies have fewer than
10^10 characters, every run of the connection from its start, under every interleaving of
the two sessions and every chunking of the wires: the server has handed `handle_request` the
first contents of `ms` in order, the client has handed `handle_response` the first replies in
order, no handler faults, the run has at most `progressBound h ms` actions, and once nothing
can happen every message has been answered. -/
theorem exchange_delivers_in_order (h : Message → Message → Message) (ms : List Message)
    (hm : ∀ m ∈ ms, m.content_buffer.length < 10 ^ 10)
    (hr : ∀ r ∈ replies h ms, r.content_buffer.length < 10 ^ 10)
    (as : List Action) (e : Exchange) (hrun : (Exchange.start ms).run h as = some (.ok e)) :
    requests e.server.session.log <+: ms.map Message.content_buffer ∧
      responses e.client.session.log <+: (replies h ms).map Message.content_buffer ∧
      (∀ a f, e.step h a ≠ some (.error f)) ∧
      as.length ≤ progressBound h ms ∧
      ((∀ a, e.step h a = none) →
        requests e.server.session.log = ms.map Message.content_buffer ∧
        responses e.client.session.log = (replies h ms).map Message.content_buffer) := by
  obtain ⟨cp, sp, hj, hp⟩ := (joint_start h ms).run hm hr hrun
  refine ⟨⟨_, by rw [hj.server.served]; exact List.take_append_drop _ _⟩,
    ⟨_, by rw [hj.client.answered]; exact List.take_append_drop _ _⟩,
    fun a f hs => ?_, ?_, fun hstuck => ?_⟩
  · obtain ⟨_, _, _, hres, -⟩ := hj.step hm hr hs
    cases hres
  · have := hj.progress_le
    rw [progress_start] at hp
    omega
  · obtain ⟨rfl, rfl⟩ := hj.finished hm hr hstuck
    refine ⟨hj.server.served.trans (List.take_of_length_le (by simp [ServerPhase.served])),
      hj.client.answered.trans (List.take_of_length_le ?_)⟩
    simp [ClientPhase.answered, length_replies]

/-- The first end-to-end scenario of the design: the client sends "hello" and the echo handler
answers; the request header goes out in two chunks and the two ends overlap. -/
def helloEcho : List Action :=
  [.complete .client .handshake, .complete .server .handshake, .send,
    .transmit .client .writeHeader 10, .transmit .client .writeHeader 18,
    .complete .client .writeHeader, .complete .server .readHeader,
    .transmit .client .writeContent 5, .complete .server .readContent,
    .complete .client .writeContent, .transmit .server .writeHeader 28,
    .complete .server .writeHeader, .transmit .server .writeContent 5,
    .complete .client .readHeader, .complete .client .readContent,
    .complete .server .writeContent]

theorem exchange_delivers_in_order_hello :
    (∀ m ∈ [Message.ofContent "hello".toList], m.content_buffer.length < 10 ^ 10) ∧
      (∀ r ∈ replies handleRequest [Message.ofContent "hello".toList],
        r.content_buffer.length < 10 ^ 10) ∧
      ∃ e, (Exchange.start [Message.ofContent "hello".toList]).run handleRequest helloEcho =
          some (.ok e) ∧
        responses e.client.session.log = ["hello".toList] ∧
        (requests e.server.session.log <+: ["hello".toList] ∧
          responses e.client.session.log <+:
            (replies handleRequest [Message.ofContent "hello".toList]).map Message.content_buffer ∧
          (∀ a f, e.step handleRequest a ≠ some (.error f)) ∧
          helloEcho.length ≤ progressBound handleRequest [Message.ofContent "hello".toList] ∧
          ((∀ a, e.step handleRequest a = none) →
            requests e.server.session.log = ["hello".toList] ∧
            responses e.client.session.log =
              (replies handleRequest [Message.ofContent "hello".toList]).map
                Message.content_buffer)) :=
  ⟨by decide, by decide, _, rfl, rfl,
    exchange_delivers_in_order handleRequest [Message.ofContent "hello".toList] (by decide)
      (by decide) helloEcho _ rfl⟩

end micro_tcp.exchange
