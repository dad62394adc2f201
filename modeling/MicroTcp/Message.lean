-- The frame codec of `message.cpp`: a header of the magic numbers and the
-- content size in a field of `content_length_digits10_` characters, and the
-- content. The laws below hold for every content and every header.
import MicroTcp.Stream

namespace micro_tcp

/-- `message::magic_numbers_`. -/
def magicNumbers : List Char := "/broekman/tcp/1.0/".toList

/-- `message::content_length_digits10_`. -/
def contentLengthDigits10 : Nat := 10

/-- `message::default_header_length()`. -/
def defaultHeaderLength : Nat := magicNumbers.length + contentLengthDigits10

/-- `std::vector<char>::max_size()` of libstdc++ on a 64-bit target, `PTRDIFF_MAX`. -/
def vectorMaxSize : Nat := 2 ^ 63 - 1

/-- Why a completion handler does not return: it read an indeterminate value, or an
exception left it. -/
inductive Fault
  /-- `get_header_buffer_content_length` returned its uninitialised `content_length`. -/
  | indeterminate
  /-- `std::vector::resize` past `max_size()` threw `std::length_error`. -/
  | lengthError
  /-- `std::vector::resize` could not allocate the content: `std::bad_alloc`. -/
  | badAlloc
deriving DecidableEq, Repr

/-- `micro_tcp::message`. A `char` of a buffer is a `Char` here. -/
structure Message where
  header_buffer : List Char
  content_buffer : List Char
deriving DecidableEq, Repr

namespace Message

/-- `message::prepare_header_buffer_write`: the magic numbers, then the content size printed
under `std::setw(content_length_digits10_)`. The copy out of the stream is `std::noskipws`,
so the blanks stay. -/
def prepareHeaderBufferWrite (m : Message) : Message :=
  { m with header_buffer :=
      magicNumbers ++ padLeft contentLengthDigits10 (decimal m.content_buffer.length) }

/-- `message::get_header_buffer_content_length`. The `good()` test always passes on a fresh
`std::stringstream`, and `none` is the value of the uninitialised `content_length` when
`operator>>` stores nothing. -/
def getHeaderBufferContentLength (m : Message) : Option Nat :=
  if m.header_buffer.length ≠ defaultHeaderLength then some 0
  else extractSize (printChars contentLengthDigits10 (m.header_buffer.drop magicNumbers.length))

/-- `message::prepare_content_buffer_write`: a header that does not give the content size is
written again. -/
def prepareContentBufferWrite (m : Message) : Except Fault Message :=
  match getHeaderBufferContentLength m with
  | none => .error .indeterminate
  | some n => pure (if m.content_buffer.length ≠ n then prepareHeaderBufferWrite m else m)

/-- `message::prepare_header_buffer_read`: `default_header_length()` zero characters. -/
def prepareHeaderBufferRead (m : Message) : Message :=
  { m with header_buffer := List.replicate (magicNumbers.length + contentLengthDigits10) '\x00' }

/-- `message::prepare_content_buffer_read`: the cleared content resized to the length the
header gives. `room` is the largest size `resize` reaches without `std::bad_alloc`: the
capacity the buffer kept, or what the allocator can still give. -/
def prepareContentBufferRead (room : Nat) (m : Message) : Except Fault Message :=
  match getHeaderBufferContentLength m with
  | none => .error .indeterminate
  | some n =>
    if vectorMaxSize < n then .error .lengthError
    else if room < n then .error .badAlloc
    else pure { m with content_buffer := List.replicate n '\x00' }

/-- `message::clear_header_buffer`. -/
def clearHeaderBuffer (m : Message) : Message := { m with header_buffer := [] }

/-- `message::clear_content_buffer`. -/
def clearContentBuffer (m : Message) : Message := { m with content_buffer := [] }

/-- `message::clear`. -/
def clear (m : Message) : Message := m.clearHeaderBuffer.clearContentBuffer

/-- `message::set_content_buffer`. -/
def setContentBuffer (c : List Char) (m : Message) : Message :=
  prepareHeaderBufferWrite { m with content_buffer := c }

/-- `message::message()`. -/
def init : Message := prepareHeaderBufferRead ⟨[], []⟩

/-- `message::message(content)`. -/
def ofContent (c : List Char) : Message := setContentBuffer c ⟨[], []⟩

/-! ## Small laws -/

@[simp] theorem prepareHeaderBufferWrite_content (m : Message) :
    m.prepareHeaderBufferWrite.content_buffer = m.content_buffer := rfl

@[simp] theorem prepareHeaderBufferRead_content (m : Message) :
    m.prepareHeaderBufferRead.content_buffer = m.content_buffer := rfl

@[simp] theorem prepareHeaderBufferRead_header_length (m : Message) :
    m.prepareHeaderBufferRead.header_buffer.length = defaultHeaderLength := by
  simp [prepareHeaderBufferRead, defaultHeaderLength]

@[simp] theorem clear_header (m : Message) : m.clear.header_buffer = [] := rfl

@[simp] theorem clear_content (m : Message) : m.clear.content_buffer = [] := rfl

theorem magicNumbers_length : magicNumbers.length = 18 := rfl

theorem defaultHeaderLength_eq : defaultHeaderLength = 28 := rfl

/-- The header is as long as the magic numbers and the wider of the field and the digits. -/
theorem prepareHeaderBufferWrite_header_length (m : Message) :
    m.prepareHeaderBufferWrite.header_buffer.length =
      magicNumbers.length + max contentLengthDigits10 (decimal m.content_buffer.length).length := by
  simp [prepareHeaderBufferWrite, padLeft_length]

theorem prepareHeaderBufferWrite_header_length_of_lt (m : Message)
    (h : m.content_buffer.length < 10 ^ contentLengthDigits10) :
    m.prepareHeaderBufferWrite.header_buffer.length = defaultHeaderLength := by
  rw [prepareHeaderBufferWrite_header_length, defaultHeaderLength,
    max_eq_left (decimal_length_le _ _ (by decide) h)]

/-- A header of the right length is read from its length field alone. -/
theorem getHeaderBufferContentLength_of_length (m : Message)
    (h : m.header_buffer.length = defaultHeaderLength) :
    m.getHeaderBufferContentLength =
      extractSize (printChars contentLengthDigits10 (m.header_buffer.drop magicNumbers.length)) := by
  simp [getHeaderBufferContentLength, h]

/-- The field a written header carries reads back as the content size. -/
theorem getHeaderBufferContentLength_prepareHeaderBufferWrite (m : Message)
    (h : m.content_buffer.length < 10 ^ contentLengthDigits10) :
    m.prepareHeaderBufferWrite.getHeaderBufferContentLength = some m.content_buffer.length := by
  rw [getHeaderBufferContentLength_of_length _ (prepareHeaderBufferWrite_header_length_of_lt m h)]
  obtain ⟨j, hj⟩ := printChars_spaces_decimal contentLengthDigits10
    (contentLengthDigits10 - (decimal m.content_buffer.length).length) m.content_buffer.length
  simp only [prepareHeaderBufferWrite, List.drop_left, padLeft, hj]
  exact extractSize_spaces_decimal _ _ (by unfold sizeMax contentLengthDigits10 at *; omega)

/-- The length a header gives depends on the header alone. -/
theorem getHeaderBufferContentLength_congr {m m' : Message} (h : m.header_buffer = m'.header_buffer) :
    m.getHeaderBufferContentLength = m'.getHeaderBufferContentLength := by
  simp only [getHeaderBufferContentLength, h]

/-- A header that gives `n` sizes the read content to `n` zero characters, when memory holds
them. -/
theorem prepareContentBufferRead_of_some (m : Message) (n room : Nat)
    (h : m.getHeaderBufferContentLength = some n) (hn : n ≤ vectorMaxSize) (hr : n ≤ room) :
    m.prepareContentBufferRead room = .ok { m with content_buffer := List.replicate n '\x00' } := by
  simp [prepareContentBufferRead, h, Nat.not_lt.2 hn, Nat.not_lt.2 hr]; rfl

/-- A read buffer sized by its header keeps the header, and its content has the length the
header gives. -/
theorem prepareContentBufferRead_ok {room : Nat} {m m' : Message}
    (h : m.prepareContentBufferRead room = .ok m') :
    m'.header_buffer = m.header_buffer ∧
      m'.getHeaderBufferContentLength = some m'.content_buffer.length := by
  unfold prepareContentBufferRead at h
  split at h
  · cases h
  · rename_i n hn
    split_ifs at h
    cases h
    refine ⟨rfl, ?_⟩
    show _ = some (List.replicate n '\x00').length
    rw [List.length_replicate]
    exact (getHeaderBufferContentLength_congr rfl).trans hn

/-! ## Frames -/

/-- A message as `prepare_header_buffer_write` leaves it, with a content whose size the field
can hold: what one end writes and the other reads. -/
structure Framed (m : Message) : Prop where
  written : m.prepareHeaderBufferWrite = m
  fits : m.content_buffer.length < 10 ^ contentLengthDigits10

theorem framed_prepareHeaderBufferWrite (m : Message)
    (h : m.content_buffer.length < 10 ^ contentLengthDigits10) : Framed m.prepareHeaderBufferWrite :=
  ⟨rfl, h⟩

namespace Framed

variable {m : Message} (hm : Framed m)
include hm

theorem header_length : m.header_buffer.length = defaultHeaderLength := by
  rw [← hm.written]
  exact prepareHeaderBufferWrite_header_length_of_lt m hm.fits

theorem getHeaderBufferContentLength_eq : m.getHeaderBufferContentLength = some m.content_buffer.length := by
  rw [← hm.written]
  exact getHeaderBufferContentLength_prepareHeaderBufferWrite m hm.fits

/-- `prepare_content_buffer_write` keeps a framed message. -/
theorem prepareContentBufferWrite_eq : m.prepareContentBufferWrite = .ok m := by
  simp [prepareContentBufferWrite, hm.getHeaderBufferContentLength_eq]; rfl

theorem length_le_vectorMaxSize : m.content_buffer.length ≤ vectorMaxSize := by
  have := hm.fits; unfold vectorMaxSize contentLengthDigits10 at *; omega

/-- A read buffer that received a frame's header sizes its content to the frame's, when memory
holds it. -/
theorem prepareContentBufferRead_eq (r : Message) {room : Nat} (hr : m.content_buffer.length ≤ room) :
    { r with header_buffer := m.header_buffer }.prepareContentBufferRead room =
      .ok ⟨m.header_buffer, List.replicate m.content_buffer.length '\x00'⟩ :=
  prepareContentBufferRead_of_some _ _ _
    ((getHeaderBufferContentLength_congr rfl).trans hm.getHeaderBufferContentLength_eq)
    hm.length_le_vectorMaxSize hr

end Framed

/-! ## The round trip of one frame -/

/-- For every content of fewer than 10^10 characters, the written header is the magic
numbers and the right-justified size, it has `default_header_length()` characters and gives
the size back, `prepare_content_buffer_write` keeps it, and a reader that receives it sizes
its content to the same length when memory holds it. -/
theorem frame_codec_round_trip (m : Message) (c : List Char) (hc : c.length < 10 ^ 10) :
    let w := m.setContentBuffer c
    w.header_buffer = magicNumbers ++ padLeft contentLengthDigits10 (decimal c.length) ∧
    w.header_buffer.length = defaultHeaderLength ∧
    w.getHeaderBufferContentLength = some c.length ∧
    w.prepareContentBufferWrite = .ok w ∧
    ∀ (room : Nat) (r : Message), c.length ≤ room →
      ∃ r', { r with header_buffer := w.header_buffer }.prepareContentBufferRead room = .ok r' ∧
        r'.header_buffer = w.header_buffer ∧ r'.content_buffer.length = c.length := by
  have hget := getHeaderBufferContentLength_prepareHeaderBufferWrite { m with content_buffer := c } hc
  refine ⟨rfl, prepareHeaderBufferWrite_header_length_of_lt _ hc, hget, ?_, fun room r hr => ?_⟩
  · simp [setContentBuffer, prepareContentBufferWrite, hget]; rfl
  · refine ⟨_, prepareContentBufferRead_of_some _ c.length room ?_ ?_ hr, rfl,
      List.length_replicate _ _⟩
    · exact (getHeaderBufferContentLength_congr rfl).trans hget
    · unfold vectorMaxSize; omega

theorem frame_codec_round_trip_hello :
    ("hello".toList.length < 10 ^ 10) ∧
      let w := init.setContentBuffer "hello".toList
      w.header_buffer = magicNumbers ++ padLeft contentLengthDigits10 (decimal 5) ∧
      w.header_buffer.length = defaultHeaderLength ∧
      w.getHeaderBufferContentLength = some 5 ∧
      w.prepareContentBufferWrite = .ok w ∧
      ∀ (room : Nat) (r : Message), 5 ≤ room →
        ∃ r', { r with header_buffer := w.header_buffer }.prepareContentBufferRead room = .ok r' ∧
          r'.header_buffer = w.header_buffer ∧ r'.content_buffer.length = 5 :=
  ⟨by decide, frame_codec_round_trip init "hello".toList (by decide)⟩

/-- A content of 10^10 characters gets a header one character too long, and a peer that
reads `default_header_length()` characters of it reads a size of 10^9. -/
theorem header_overflows_at_ten_digits :
    (ofContent (List.replicate (10 ^ 10) 'a')).header_buffer.length = defaultHeaderLength + 1 ∧
      (⟨(ofContent (List.replicate (10 ^ 10) 'a')).header_buffer.take defaultHeaderLength, []⟩ :
        Message).getHeaderBufferContentLength = some (10 ^ 9) := by
  have hw : (ofContent (List.replicate (10 ^ 10) 'a')).header_buffer =
      magicNumbers ++ padLeft contentLengthDigits10 (decimal (10 ^ 10)) := by
    rw [ofContent, setContentBuffer, prepareHeaderBufferWrite]
    dsimp only
    rw [List.length_replicate]
  rw [hw]
  decide

/-- A length field of `-1` reads as the largest `std::size_t`, and the resize throws whatever
memory holds; a blank field leaves `content_length` uninitialised. -/
theorem hostile_length_fields :
    let minus : Message := ⟨magicNumbers ++ "        -1".toList, []⟩
    let blank : Message := ⟨magicNumbers ++ List.replicate 10 ' ', []⟩
    minus.getHeaderBufferContentLength = some sizeMax ∧
      (∀ room, minus.prepareContentBufferRead room = .error .lengthError) ∧
      blank.getHeaderBufferContentLength = none ∧
      (∀ room, blank.prepareContentBufferRead room = .error .indeterminate) := by
  refine ⟨by decide, fun _ => rfl, by decide, fun _ => rfl⟩

end Message

end micro_tcp
