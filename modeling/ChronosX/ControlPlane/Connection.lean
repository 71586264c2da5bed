import ChronosX.Protocol.RoundTrip

/-!
# Connection buffers

`ConnectionBuffer` of `control_plane.hpp`: the bytes of one connection that belong to no dispatched
message yet. Seen through `readable()` it is a list of bytes; `append` extends it at the end as far
as there is space and `consume` takes bytes from its front.
-/

namespace ChronosX

open ByteLayout

def kControlReadBufferBytes : ℕ := 8192

structure ConnectionBuffer where
  buffer : List Byte
  writePos : ℕ
  overflowed : Bool
  length_buffer : buffer.length = kControlReadBufferBytes
  writePos_le : writePos ≤ kControlReadBufferBytes

namespace ConnectionBuffer

def empty : ConnectionBuffer where
  buffer := List.replicate kControlReadBufferBytes 0
  writePos := 0
  overflowed := false
  length_buffer := List.length_replicate
  writePos_le := Nat.zero_le _

variable (b : ConnectionBuffer)

/-- `readable`. -/
def readable : List Byte := b.buffer.take b.writePos

def readableBytes : ℕ := b.writePos

/-- The number of bytes that `append` copies. -/
def copyBytes (data : List Byte) : ℕ :=
  let space := kControlReadBufferBytes - b.writePos
  if data.length < space then data.length else space

lemma copyBytes_le (data : List Byte) :
    b.copyBytes data ≤ data.length ∧ b.writePos + b.copyBytes data ≤ kControlReadBufferBytes := by
  have hpos := b.writePos_le
  simp only [copyBytes]
  split_ifs <;> omega

/-- `append`: the number of bytes copied, and the buffer. -/
def append (data : List Byte) : ℕ × ConnectionBuffer :=
  (b.copyBytes data,
    { buffer := overwrite b.buffer b.writePos (data.take (b.copyBytes data))
      writePos := b.writePos + b.copyBytes data
      overflowed := b.overflowed || b.copyBytes data != data.length
      length_buffer := by
        obtain ⟨hdata, hspace⟩ := b.copyBytes_le data
        rw [length_overwrite, b.length_buffer]
        rwa [List.length_take_of_le hdata, b.length_buffer]
      writePos_le := (b.copyBytes_le data).2 })

def consume (count : ℕ) : ConnectionBuffer :=
  if h : count ≥ b.writePos then { b with writePos := 0, writePos_le := Nat.zero_le _ }
  else
    { b with
      buffer := overwrite b.buffer 0 ((b.buffer.drop count).take (b.writePos - count))
      writePos := b.writePos - count
      length_buffer := by
        have hpos := b.writePos_le
        rw [length_overwrite, b.length_buffer]
        rw [List.length_take, List.length_drop, b.length_buffer]
        omega
      writePos_le := (Nat.sub_le _ _).trans b.writePos_le }

def reset : ConnectionBuffer :=
  { b with writePos := 0, overflowed := false, writePos_le := Nat.zero_le _ }

/-- The payload length in the header at the front of the buffer. -/
def payloadLength : ℕ := (readU32Be b.readable 8).toNat

def hasCompleteMessage : Bool :=
  if b.writePos < kProtocolHeaderBytes then false
  else if b.payloadLength > kMaxControlPayloadBytes then true
  else b.writePos ≥ kProtocolHeaderBytes + b.payloadLength

def nextMessageLength : ℕ :=
  if b.writePos < kProtocolHeaderBytes then 0
  else if b.payloadLength > kMaxControlPayloadBytes then b.writePos
  else kProtocolHeaderBytes + b.payloadLength

/-! ### The buffer as a list -/

@[simp] lemma length_readable : b.readable.length = b.writePos := by
  rw [readable, List.length_take_of_le]
  rw [b.length_buffer]
  exact b.writePos_le

@[simp] lemma readable_reset : b.reset.readable = [] := rfl

@[simp] lemma overflowed_reset : b.reset.overflowed = false := rfl

@[simp] lemma overflowed_consume (count : ℕ) : (b.consume count).overflowed = b.overflowed := by
  unfold consume
  split_ifs <;> rfl

lemma writePos_consume (count : ℕ) : (b.consume count).writePos = b.writePos - count := by
  unfold consume
  split_ifs with h
  · exact (Nat.sub_eq_zero_of_le h).symm
  · rfl

/-- A message in the buffer is consumed. -/
lemma writePos_consume_lt {count : ℕ} (h : ¬ (count = 0 ∨ count > b.readableBytes)) :
    (b.consume count).writePos < b.writePos := by
  rw [readableBytes] at h
  rw [writePos_consume]
  omega

lemma readable_consume (count : ℕ) : (b.consume count).readable = b.readable.drop count := by
  unfold consume
  split_ifs with h
  · rw [List.drop_eq_nil_of_le (by rwa [b.length_readable])]
    rfl
  · have hmoved : ((b.buffer.drop count).take (b.writePos - count)).length = b.writePos - count := by
      rw [List.length_take_of_le]
      rw [List.length_drop, b.length_buffer]
      exact Nat.sub_le_sub_right b.writePos_le count
    simp only [readable]
    rw [overwrite_zero, List.take_left' hmoved, List.drop_take]

lemma readable_append {data : List Byte}
    (h : b.writePos + data.length ≤ kControlReadBufferBytes) :
    (b.append data).1 = data.length ∧ (b.append data).2.overflowed = b.overflowed ∧
      (b.append data).2.readable = b.readable ++ data := by
  have hcopy : b.copyBytes data = data.length := by
    simp only [copyBytes]
    split_ifs <;> omega
  have hfront : (b.buffer.take b.writePos ++ data).length = b.writePos + data.length := by
    rw [List.length_append, ← readable, b.length_readable]
  refine ⟨hcopy, ?_, ?_⟩
  · simp [append, hcopy]
  · simp only [readable, append, hcopy, List.take_length]
    rw [overwrite, List.take_left' hfront]

/-- What does not fit is cut off and remembered. -/
lemma append_of_lt {data : List Byte}
    (h : kControlReadBufferBytes < b.writePos + data.length) :
    (b.append data).1 < data.length ∧ (b.append data).2.overflowed = true := by
  have hpos := b.writePos_le
  have hcopy : b.copyBytes data < data.length := by
    simp only [copyBytes]
    split_ifs <;> omega
  refine ⟨hcopy, ?_⟩
  simp only [append, Bool.or_eq_true, bne_iff_ne]
  exact Or.inr (Nat.ne_of_lt hcopy)

lemma readableBytes_consume (count : ℕ) :
    (b.consume count).readableBytes = b.readableBytes - count := b.writePos_consume count

/-! ### The next message -/

variable {b}

/-- A complete message has a header and lies within the buffer. -/
lemma nextMessageLength_bounds (h : b.hasCompleteMessage = true) :
    24 ≤ b.nextMessageLength ∧ b.nextMessageLength ≤ b.readableBytes := by
  unfold hasCompleteMessage at h
  unfold nextMessageLength readableBytes
  split_ifs at h ⊢ with hheader hlarge
  · -- an oversized message is everything in the buffer
    exact ⟨Nat.le_of_not_lt hheader, Nat.le_refl _⟩
  · exact ⟨Nat.le_add_right _ _, of_decide_eq_true h⟩

/-- Its length is never the bad one that `handle_client` looks for. -/
lemma not_badLength (h : b.hasCompleteMessage = true) :
    ¬ (b.nextMessageLength = 0 ∨ b.nextMessageLength > b.readableBytes) := by
  obtain ⟨hge, hle⟩ := nextMessageLength_bounds h
  rintro (hzero | hbeyond)
  · rw [hzero] at hge
    exact absurd hge (by decide)
  · exact Nat.not_lt.mpr hle hbeyond

end ConnectionBuffer

end ChronosX
