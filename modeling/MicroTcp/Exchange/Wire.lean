-- The byte streams of a connection: a writer puts the frames of its messages on
-- its wire in order, and a reader whose buffer's worth of bytes has arrived
-- takes exactly the next header, or the next content, of those frames.
import MicroTcp.Exchange.Machine

namespace micro_tcp.exchange

variable {ws : List Message} {w : Message} {i : Nat} {wire : List Char}

@[simp] theorem stream_nil : stream [] = [] := rfl

@[simp] theorem stream_cons (w : Message) (ws : List Message) :
    stream (w :: ws) = frame w ++ stream ws := rfl

theorem stream_append (ws ws' : List Message) : stream (ws ++ ws') = stream ws ++ stream ws' := by
  simp [stream]

theorem frame_length_of_framed (hw : w.Framed) :
    (frame w).length = defaultHeaderLength + w.content_buffer.length := by
  simp [frame, hw.header_length]

/-- The frames up to the `i`-th and from it make up the whole stream. -/
theorem stream_split (h : ws[i]? = some w) :
    stream ws = stream (ws.take i) ++ (w.header_buffer ++ (w.content_buffer ++ stream (ws.drop (i + 1)))) := by
  obtain ⟨hi, rfl⟩ := List.getElem?_eq_some_iff.1 h
  conv_lhs => rw [← List.take_append_drop i ws, List.drop_eq_getElem_cons hi]
  rw [stream_append, stream_cons, frame, List.append_assoc]

theorem stream_take_succ (h : ws[i]? = some w) :
    stream (ws.take (i + 1)) = stream (ws.take i) ++ frame w := by
  rw [List.take_succ, h]
  simp [stream_append]

theorem stream_take_isPrefix {a b : Nat} (hab : a ≤ b) : stream (ws.take a) <+: stream (ws.take b) := by
  obtain ⟨c, rfl⟩ := Nat.exists_eq_add_of_le hab
  rw [List.take_add, stream_append]
  exact List.prefix_append _ _

theorem stream_take_isPrefix_stream (a : Nat) : stream (ws.take a) <+: stream ws := by
  conv_rhs => rw [← List.take_append_drop a ws, stream_append]
  exact List.prefix_append _ _

/-- A later frame boundary lies a whole frame past an earlier one. -/
theorem stream_take_length_lt {a b : Nat} (hab : a < b) (hb : b ≤ ws.length)
    (hws : ∀ w ∈ ws, w.Framed) :
    (stream (ws.take a)).length + defaultHeaderLength ≤ (stream (ws.take b)).length := by
  have ha : a < ws.length := by omega
  have hw := hws _ (List.getElem_mem ha)
  have hle : (stream (ws.take (a + 1))).length ≤ (stream (ws.take b)).length :=
    (stream_take_isPrefix (Nat.succ_le_of_lt hab)).length_le
  rw [stream_take_succ (List.getElem?_eq_getElem ha), List.length_append,
    frame_length_of_framed hw] at hle
  omega

/-- Frame boundaries in the order of their indices, as lengths: one at or past another, or
a whole header short of it. -/
theorem stream_take_length_cases (hws : ∀ w ∈ ws, w.Framed) (a b : Nat) (hb : b ≤ ws.length) :
    b ≤ a ∨ (stream (ws.take a)).length + defaultHeaderLength ≤ (stream (ws.take b)).length := by
  rcases Nat.lt_or_ge a b with hab | hab
  · exact .inr (stream_take_length_lt hab hb hws)
  · exact .inl hab

theorem stream_take_length_mono (ws : List Message) (a b : Nat) :
    b < a ∨ (stream (ws.take a)).length ≤ (stream (ws.take b)).length := by
  rcases Nat.lt_or_ge b a with hab | hab
  · exact .inl hab
  · exact .inr (stream_take_isPrefix hab).length_le

theorem stream_take_succ_length (hws : ∀ w ∈ ws, w.Framed) (h : ws[i]? = some w) :
    (stream (ws.take (i + 1))).length =
      (stream (ws.take i)).length + defaultHeaderLength + w.content_buffer.length := by
  rw [stream_take_succ h, List.length_append,
    frame_length_of_framed (hws w (List.mem_iff_getElem?.2 ⟨i, h⟩)), Nat.add_assoc]

/-- A reader at a frame boundary that finds bytes on the wire finds the start of the next
frame, and the frames after it. -/
theorem wire_isPrefix (hw : stream (ws.take i) ++ wire <+: stream ws) (hne : wire ≠ []) :
    ∃ w, ws[i]? = some w ∧ wire <+: w.header_buffer ++ (w.content_buffer ++ stream (ws.drop (i + 1))) := by
  cases hi : ws[i]? with
  | none =>
    rw [List.getElem?_eq_none_iff] at hi
    rw [List.take_of_length_le hi] at hw
    have := hw.length_le
    simp only [List.length_append] at this
    exact absurd (List.eq_nil_of_length_eq_zero (by omega)) hne
  | some w =>
    refine ⟨w, rfl, ?_⟩
    rwa [stream_split hi, List.prefix_append_right_inj] at hw

/-- A part of the next piece, after what came before it, is a prefix of all that follows. -/
theorem append_take_isPrefix {α : Type} (l a b : List α) (n : Nat) : l ++ a.take n <+: l ++ (a ++ b) :=
  (List.prefix_append_right_inj l).2
    (List.IsPrefix.trans ⟨_, List.take_append_drop n a⟩ (List.prefix_append a b))

theorem take_of_isPrefix {α : Type} {l a b : List α} (h : l <+: a ++ b) (hn : a.length ≤ l.length) :
    l.take a.length = a := by
  rw [List.prefix_iff_eq_take.1 h, List.take_take, min_eq_left hn, List.take_left' rfl]

/-- A reader at a frame boundary that finds a header's worth of bytes takes the next header. -/
theorem read_header (hw : stream (ws.take i) ++ wire <+: stream ws) (hws : ∀ w ∈ ws, w.Framed)
    (hn : defaultHeaderLength ≤ wire.length) :
    ∃ w, ws[i]? = some w ∧ wire.take defaultHeaderLength = w.header_buffer := by
  obtain ⟨w, hi, hp⟩ := wire_isPrefix hw (List.ne_nil_of_length_pos (by rw [Message.defaultHeaderLength_eq] at hn; omega))
  have hl := (hws w (List.mem_iff_getElem?.2 ⟨i, hi⟩)).header_length
  exact ⟨w, hi, hl ▸ take_of_isPrefix hp (hl ▸ hn)⟩

/-- A reader that took a frame's header and finds its content's worth of bytes takes the
content. -/
theorem read_content (hw : stream (ws.take i) ++ w.header_buffer ++ wire <+: stream ws)
    (hi : ws[i]? = some w) (hn : w.content_buffer.length ≤ wire.length) :
    wire.take w.content_buffer.length = w.content_buffer := by
  rw [stream_split hi, List.append_assoc, List.prefix_append_right_inj,
    List.prefix_append_right_inj] at hw
  exact take_of_isPrefix hw hn

/-! ## Handlers on frames -/

section handlers

open Session

variable {s : Session} {r : Message}

theorem receive_readHeader (d : List Char) :
    s.receive .readHeader d = { s with read_buffer := { s.read_buffer with header_buffer := d } } := rfl

theorem receive_readContent (d : List Char) :
    s.receive .readContent d = { s with read_buffer := { s.read_buffer with content_buffer := d } } := rfl

/-- `on_write_header` on a framed write buffer writes its content. -/
theorem onWriteHeader_of_framed (h : s.write_buffer.Framed) : onWriteHeader s = .ok s.doWriteContent := by
  simp only [onWriteHeader, h.prepareContentBufferWrite_eq]
  rfl

/-- `on_read_header` after a frame's header arrived sizes the content read to the frame's, when
memory holds it. -/
theorem onReadHeader_of_framed {room : Nat} (h : r.Framed) (hr : r.content_buffer.length ≤ room) :
    onReadHeader room { s with read_buffer := { s.read_buffer with header_buffer := r.header_buffer } } =
      .ok { s with read_buffer := ⟨r.header_buffer, List.replicate r.content_buffer.length '\x00'⟩ }.doReadContent := by
  simp only [onReadHeader, h.prepareContentBufferRead_eq _ hr]
  rfl

/-- A header write of a framed buffer completes into the content write. -/
theorem complete_writeHeader_of_framed {ro : Role} {data : List Char} {room : Nat}
    (h : s.write_buffer.Framed) :
    s.complete ro .writeHeader .success data room =
      .ok { s with pending := s.pending.erase .writeHeader }.doWriteContent := by
  rw [complete_writeHeader_success]
  exact onWriteHeader_of_framed h

/-- A header read that received a frame's header completes into the content read, when the
allocator gives every buffer up to `max_size()`. -/
theorem complete_readHeader_of_framed {ro : Role} (h : r.Framed) :
    s.complete ro .readHeader .success r.header_buffer vectorMaxSize =
      .ok { { s with pending := s.pending.erase .readHeader } with
        read_buffer := ⟨r.header_buffer, List.replicate r.content_buffer.length '\x00'⟩ }.doReadContent := by
  rw [complete_readHeader_success, receive_readHeader]
  exact onReadHeader_of_framed h h.length_le_vectorMaxSize

end handlers

end micro_tcp.exchange
