import Mathlib.Algebra.Order.Ring.Nat
import Mathlib.Tactic.Common

/-!
# Records as bytes

Unsigned integers of a fixed width as bytes in either byte order, buffers that are overwritten in
part, bytes that lie in a memory, and records as sequences of such integers and padding bytes. A
record written in one order and read in another comes back with each field reordered
(`read_write`); a field survives that exactly when its bytes read the same in both directions
(`reread_eq_iff`).
-/

namespace ByteLayout

inductive ByteOrder where
  | big
  | little
deriving DecidableEq, Repr

/-! ### Integers -/

/-- The bytes of an integer, least significant first. -/
def digits : (width : ℕ) → ℕ → List UInt8
  | 0, _         => []
  | width + 1, n => UInt8.ofNat n :: digits width (n / 256)

/-- The integer with the given bytes, least significant first. -/
def value : List UInt8 → ℕ
  | []      => 0
  | b :: bs => b.toNat + 256 * value bs

@[simp] lemma length_digits (width n : ℕ) : (digits width n).length = width := by
  induction width generalizing n with
  | zero => rfl
  | succ width ih => rw [digits, List.length_cons, ih]

lemma value_digits {width n : ℕ} (h : n < 256 ^ width) : value (digits width n) = n := by
  induction width generalizing n with
  | zero =>
    rw [Nat.pow_zero, Nat.lt_one_iff] at h
    rw [digits, value, h]
  | succ width ih =>
    have hdiv : n / 256 < 256 ^ width := by
      rw [Nat.pow_succ'] at h
      exact Nat.div_lt_of_lt_mul h
    rw [digits, value, ih hdiv, UInt8.toNat_ofNat']
    exact Nat.mod_add_div n 256

lemma value_lt (bs : List UInt8) : value bs < 256 ^ bs.length := by
  induction bs with
  | nil => exact Nat.one_pos
  | cons b bs ih =>
    have hb : b.toNat < 256 := b.toNat_lt
    rw [value, List.length_cons, Nat.pow_succ']
    omega

lemma digits_value (bs : List UInt8) : digits bs.length (value bs) = bs := by
  induction bs with
  | nil => rfl
  | cons b bs ih =>
    have hb : b.toNat < 256 := b.toNat_lt
    have hdiv : (b.toNat + 256 * value bs) / 256 = value bs := by omega
    rw [List.length_cons, digits, value, hdiv, ih]
    congr 1
    apply UInt8.toNat_inj.mp
    rw [UInt8.toNat_ofNat']
    omega

/-- The bytes of an integer in the given order. -/
def encode (order : ByteOrder) (width n : ℕ) : List UInt8 :=
  match order with
  | .big    => (digits width n).reverse
  | .little => digits width n

/-- The integer with the given bytes in the given order. -/
def decode (order : ByteOrder) (bs : List UInt8) : ℕ :=
  match order with
  | .big    => value bs.reverse
  | .little => value bs

@[simp] lemma length_encode (order : ByteOrder) (width n : ℕ) :
    (encode order width n).length = width := by
  cases order <;> simp [encode]

lemma digits_add (width width' n : ℕ) :
    digits (width + width') n = digits width n ++ digits width' (n / 256 ^ width) := by
  induction width generalizing n with
  | zero => rw [Nat.zero_add, Nat.pow_zero, Nat.div_one, digits, List.nil_append]
  | succ width ih =>
    rw [Nat.succ_add, digits, digits, ih, Nat.div_div_eq_div_mul, Nat.pow_succ', List.cons_append]

/-- An integer is its high part followed by its low part. -/
lemma encode_big_add (width width' n : ℕ) :
    encode .big (width' + width) n = encode .big width' (n / 256 ^ width) ++ encode .big width n := by
  rw [encode, encode, encode, Nat.add_comm, digits_add, List.reverse_append]

lemma digits_mod (width n : ℕ) : digits width (n % 256 ^ width) = digits width n := by
  induction width generalizing n with
  | zero => rfl
  | succ width ih =>
    have hlow : UInt8.ofNat (n % 256 ^ (width + 1)) = UInt8.ofNat n := by
      apply UInt8.toNat_inj.mp
      rw [UInt8.toNat_ofNat', UInt8.toNat_ofNat', Nat.pow_succ']
      exact Nat.mod_mul_right_mod n 256 _
    rw [digits, digits, hlow, Nat.pow_succ', Nat.mod_mul_right_div_self, ih]

/-- Only the low bytes of an integer are written. -/
lemma encode_mod (order : ByteOrder) (width n : ℕ) :
    encode order width (n % 256 ^ width) = encode order width n := by
  cases order <;> simp only [encode, digits_mod]

/-- An integer written in one order and read in the other. -/
def reread (order order' : ByteOrder) (width n : ℕ) : ℕ := decode order' (encode order width n)

/-- The bytes of the integer read the same in both directions. -/
def Symmetric (width n : ℕ) : Prop := (digits width n).reverse = digits width n

instance (width n : ℕ) : Decidable (Symmetric width n) :=
  inferInstanceAs (Decidable (_ = _))

lemma value_reverse_digits_iff {width n : ℕ} (h : n < 256 ^ width) :
    value (digits width n).reverse = n ↔ Symmetric width n := by
  constructor
  · intro heq
    have hback := digits_value (digits width n).reverse
    rwa [heq, List.length_reverse, length_digits, eq_comm] at hback
  · intro hsymmetric
    rw [hsymmetric, value_digits h]

/-- An integer survives a change of byte order exactly when its bytes are symmetric. -/
lemma reread_eq_iff {order order' : ByteOrder} {width n : ℕ} (horder : order ≠ order')
    (h : n < 256 ^ width) : reread order order' width n = n ↔ Symmetric width n := by
  cases order with
  | big =>
    cases order' with
    | big => exact absurd rfl horder
    | little => exact value_reverse_digits_iff h
  | little =>
    cases order' with
    | big => exact value_reverse_digits_iff h
    | little => exact absurd rfl horder

lemma symmetric_one (n : ℕ) : Symmetric 1 n := rfl

lemma decode_encode (order : ByteOrder) {width n : ℕ} (h : n < 256 ^ width) :
    decode order (encode order width n) = n := by
  cases order with
  | big => rw [encode, decode, List.reverse_reverse, value_digits h]
  | little => rw [encode, decode, value_digits h]

lemma decode_lt (order : ByteOrder) (bs : List UInt8) : decode order bs < 256 ^ bs.length := by
  cases order with
  | big =>
    have h := value_lt bs.reverse
    rwa [List.length_reverse] at h
  | little => exact value_lt bs

lemma value_append (bs bs' : List UInt8) :
    value (bs ++ bs') = value bs + 256 ^ bs.length * value bs' := by
  induction bs with
  | nil => simp [value]
  | cons b bs ih =>
    rw [List.cons_append, value, value, ih, List.length_cons, Nat.pow_succ']
    rw [Nat.mul_add, Nat.mul_assoc, Nat.add_assoc]

lemma decode_big_append (bs bs' : List UInt8) :
    decode .big (bs ++ bs') = decode .big bs * 256 ^ bs'.length + decode .big bs' := by
  rw [decode, decode, decode, List.reverse_append, value_append, List.length_reverse, Nat.add_comm,
    Nat.mul_comm]

lemma encode_decode (order : ByteOrder) (bs : List UInt8) :
    encode order bs.length (decode order bs) = bs := by
  cases order with
  | big =>
    have h := digits_value bs.reverse
    rw [List.length_reverse] at h
    rw [encode, decode, h, List.reverse_reverse]
  | little => exact digits_value bs

lemma decode_injective (order : ByteOrder) {bs bs' : List UInt8} (hlength : bs.length = bs'.length)
    (h : decode order bs = decode order bs') : bs = bs' := by
  rw [← encode_decode order bs, h, hlength, encode_decode]

/-! ### Machine integers -/

lemma toNat_lt_one (x : UInt8) : x.toNat < 256 ^ 1 := x.toNat_lt

lemma toNat_lt_two (x : UInt16) : x.toNat < 256 ^ 2 := x.toNat_lt

lemma toNat_lt_four (x : UInt32) : x.toNat < 256 ^ 4 := x.toNat_lt

lemma toNat_lt_eight (x : UInt64) : x.toNat < 256 ^ 8 := x.toNat_lt

lemma u16_byte (value : UInt16) : (value &&& 0xFF).toUInt8 = UInt8.ofNat value.toNat := by
  apply UInt8.toNat_inj.mp
  have hmask := Nat.and_two_pow_sub_one_eq_mod value.toNat 8
  simp only [UInt16.toNat_toUInt8, UInt16.toNat_and, UInt8.toNat_ofNat']
  exact (congrArg (· % 2 ^ 8) hmask).trans (Nat.mod_mod _ _)

lemma u32_byte (value : UInt32) : (value &&& 0xFF).toUInt8 = UInt8.ofNat value.toNat := by
  apply UInt8.toNat_inj.mp
  have hmask := Nat.and_two_pow_sub_one_eq_mod value.toNat 8
  simp only [UInt32.toNat_toUInt8, UInt32.toNat_and, UInt8.toNat_ofNat']
  exact (congrArg (· % 2 ^ 8) hmask).trans (Nat.mod_mod _ _)

lemma u64_word (value : UInt64) :
    (value &&& 0xFFFFFFFF).toUInt32.toNat = value.toNat % 256 ^ 4 := by
  have hmask := Nat.and_two_pow_sub_one_eq_mod value.toNat 32
  simp only [UInt64.toNat_toUInt32, UInt64.toNat_and]
  exact (congrArg (· % 2 ^ 32) hmask).trans (Nat.mod_mod _ _)

/-- A half word taken apart by shifts. -/
lemma encode_big_u16 (value : UInt16) : encode .big 2 value.toNat =
    [((value >>> 8) &&& 0xFF).toUInt8, (value &&& 0xFF).toUInt8] := by
  have h8 : (value >>> 8).toNat = value.toNat / 256 := by
    simp [Nat.shiftRight_eq_div_pow]
  rw [u16_byte, u16_byte, h8]
  rfl

/-- A word taken apart by shifts. -/
lemma encode_big_u32 (value : UInt32) : encode .big 4 value.toNat =
    [((value >>> 24) &&& 0xFF).toUInt8, ((value >>> 16) &&& 0xFF).toUInt8,
      ((value >>> 8) &&& 0xFF).toUInt8, (value &&& 0xFF).toUInt8] := by
  have h24 : (value >>> 24).toNat = value.toNat / 256 / 256 / 256 := by
    simp [Nat.shiftRight_eq_div_pow, Nat.div_div_eq_div_mul]
  have h16 : (value >>> 16).toNat = value.toNat / 256 / 256 := by
    simp [Nat.shiftRight_eq_div_pow, Nat.div_div_eq_div_mul]
  have h8 : (value >>> 8).toNat = value.toNat / 256 := by
    simp [Nat.shiftRight_eq_div_pow]
  rw [u32_byte, u32_byte, u32_byte, u32_byte, h24, h16, h8]
  rfl

/-- A double word taken apart into words. -/
lemma encode_big_u64 (value : UInt64) : encode .big 8 value.toNat =
    encode .big 4 ((value >>> 32) &&& 0xFFFFFFFF).toUInt32.toNat ++
      encode .big 4 (value &&& 0xFFFFFFFF).toUInt32.toNat := by
  have hhigh : (value >>> 32).toNat = value.toNat / 256 ^ 4 := by
    simp [Nat.shiftRight_eq_div_pow]
  rw [u64_word, u64_word, encode_mod, encode_mod, hhigh]
  exact encode_big_add 4 4 value.toNat

lemma or_shiftLeft (x : ℕ) {y i : ℕ} (h : y < 2 ^ i) : x <<< i ||| y = x * 2 ^ i + y := by
  rw [← Nat.shiftLeft_add_eq_or_of_lt h, Nat.shiftLeft_eq]

/-- Two bytes joined by a shift are read in big-endian order. -/
lemma toNat_two_bytes (a b : UInt8) :
    ((a.toUInt16 <<< 8) ||| b.toUInt16).toNat = decode .big [a, b] := by
  have ha := a.toNat_lt
  have hb := b.toNat_lt
  have hshift : (a.toUInt16 <<< 8).toNat = a.toNat <<< 8 := by
    simp [Nat.shiftLeft_eq]
    omega
  rw [UInt16.toNat_or, hshift, UInt8.toNat_toUInt16, or_shiftLeft _ hb]
  simp [decode, value]
  omega

/-- Four bytes joined by shifts are read in big-endian order. -/
lemma toNat_four_bytes (a b c d : UInt8) :
    ((a.toUInt32 <<< 24) ||| (b.toUInt32 <<< 16) ||| (c.toUInt32 <<< 8) ||| d.toUInt32).toNat =
      decode .big [a, b, c, d] := by
  have ha := a.toNat_lt
  have hb := b.toNat_lt
  have hc := c.toNat_lt
  have hd := d.toNat_lt
  have h24 : (a.toUInt32 <<< 24).toNat = a.toNat <<< 8 <<< 8 <<< 8 := by
    simp [Nat.shiftLeft_eq]
    omega
  have h16 : (b.toUInt32 <<< 16).toNat = b.toNat <<< 8 <<< 8 := by
    simp [Nat.shiftLeft_eq]
    omega
  have h8 : (c.toUInt32 <<< 8).toNat = c.toNat <<< 8 := by
    simp [Nat.shiftLeft_eq]
    omega
  rw [UInt32.toNat_or, UInt32.toNat_or, UInt32.toNat_or, h24, h16, h8, UInt8.toNat_toUInt32,
    ← Nat.shiftLeft_or_distrib, ← Nat.shiftLeft_or_distrib, ← Nat.shiftLeft_or_distrib,
    or_shiftLeft _ hb, or_shiftLeft _ hc, or_shiftLeft _ hd]
  simp [decode, value]
  omega

/-- Two words joined by a shift. -/
lemma toNat_two_words (a b : UInt32) :
    ((a.toUInt64 <<< 32) ||| b.toUInt64).toNat = a.toNat * 256 ^ 4 + b.toNat := by
  have ha := a.toNat_lt
  have hb := b.toNat_lt
  have hshift : (a.toUInt64 <<< 32).toNat = a.toNat <<< 32 := by
    simp [Nat.shiftLeft_eq]
    omega
  rw [UInt64.toNat_or, hshift, UInt32.toNat_toUInt64, or_shiftLeft _ hb]
  rfl

/-! ### Buffers -/

/-- The buffer with the bytes from `offset` on replaced by those of `source`. -/
def overwrite (target : List UInt8) (offset : ℕ) (source : List UInt8) : List UInt8 :=
  target.take offset ++ source ++ target.drop (offset + source.length)

lemma length_overwrite {target source : List UInt8} {offset : ℕ}
    (h : offset + source.length ≤ target.length) :
    (overwrite target offset source).length = target.length := by
  rw [overwrite, List.length_append, List.length_append, List.length_take, List.length_drop]
  omega

lemma set_eq_overwrite {target : List UInt8} {offset : ℕ} (h : offset < target.length)
    (b : UInt8) : target.set offset b = overwrite target offset [b] := by
  rw [List.set_eq_take_append_cons_drop, if_pos h, overwrite, List.append_assoc]
  rfl

/-- Two neighbouring ranges are written as one. -/
lemma overwrite_overwrite {target : List UInt8} {offset : ℕ} (h : offset ≤ target.length)
    (source source' : List UInt8) :
    overwrite (overwrite target offset source) (offset + source.length) source' =
      overwrite target offset (source ++ source') := by
  have hlength : (target.take offset ++ source).length = offset + source.length := by
    rw [List.length_append, List.length_take, Nat.min_eq_left h]
  rw [overwrite, overwrite, overwrite, List.take_left' hlength, List.append_assoc (target.take _),
    ← List.drop_drop, ← List.append_assoc (target.take _) source, List.drop_left' hlength,
    List.drop_drop, List.length_append, Nat.add_assoc]

/-- Two neighbouring bytes are written as a range. -/
lemma set_set_eq_overwrite {target : List UInt8} {offset : ℕ} (h : offset + 2 ≤ target.length)
    (b b' : UInt8) : (target.set offset b).set (offset + 1) b' = overwrite target offset [b, b'] := by
  have hlength : (target.set offset b).length = target.length := List.length_set
  have hfirst : target.set offset b = overwrite target offset [b] := set_eq_overwrite (by omega) b
  rw [set_eq_overwrite (by omega), hfirst]
  exact overwrite_overwrite (by omega) [b] [b']

lemma overwrite_zero (target source : List UInt8) :
    overwrite target 0 source = source ++ target.drop source.length := by
  rw [overwrite, List.take_zero, List.nil_append, Nat.zero_add]

/-- What is written at the front of a buffer can be extended. -/
lemma overwrite_zero_overwrite (target source source' : List UInt8) :
    overwrite (overwrite target 0 source) source.length source' =
      overwrite target 0 (source ++ source') := by
  have h := overwrite_overwrite (Nat.zero_le target.length) source source'
  rwa [Nat.zero_add] at h

/-- Bytes are replaced by as many others. -/
lemma overwrite_middle (before : List UInt8) {middle middle' : List UInt8}
    (h : middle'.length = middle.length) (after : List UInt8) :
    overwrite (before ++ middle ++ after) before.length middle' = before ++ middle' ++ after := by
  have hlength : (before ++ middle).length = before.length + middle'.length := by
    rw [List.length_append, h]
  rw [overwrite, List.drop_left' hlength, List.append_assoc before middle, List.take_left]

/-- Outside the bytes written nothing changes. -/
lemma getElem?_overwrite {target source : List UInt8} {offset : ℕ}
    (h : offset + source.length ≤ target.length) (i : ℕ) :
    (overwrite target offset source)[i]? =
      if offset ≤ i ∧ i < offset + source.length then source[i - offset]? else target[i]? := by
  have htaken : (target.take offset).length = offset := List.length_take_of_le (by omega)
  rw [overwrite, List.append_assoc, List.getElem?_append, htaken]
  by_cases hbefore : i < offset
  · rw [if_pos hbefore, if_neg (by omega), List.getElem?_take_of_lt hbefore]
  · rw [if_neg hbefore, List.getElem?_append]
    by_cases hinside : i - offset < source.length
    · rw [if_pos hinside, if_pos (by omega)]
    · rw [if_neg hinside, if_neg (by omega), List.getElem?_drop]
      congr 1
      omega

/-- Bytes written to two separate places may be written in either order. -/
lemma overwrite_comm {target source source' : List UInt8} {offset offset' : ℕ}
    (h : offset + source.length ≤ target.length) (h' : offset' + source'.length ≤ target.length)
    (hapart : offset + source.length ≤ offset' ∨ offset' + source'.length ≤ offset) :
    overwrite (overwrite target offset source) offset' source' =
      overwrite (overwrite target offset' source') offset source := by
  apply List.ext_getElem?
  intro i
  rw [getElem?_overwrite (by rwa [length_overwrite h]), getElem?_overwrite h,
    getElem?_overwrite (by rwa [length_overwrite h']), getElem?_overwrite h']
  split_ifs with hlate hearly
  · omega
  · rfl
  · rfl
  · rfl

/-- Bytes written among those that are written over are lost. -/
lemma overwrite_overwrite_inside {target source source' : List UInt8} {offset offset' : ℕ}
    (h' : offset' + source'.length ≤ target.length)
    (hinside : offset' ≤ offset ∧ offset + source.length ≤ offset' + source'.length) :
    overwrite (overwrite target offset source) offset' source' =
      overwrite target offset' source' := by
  have h : offset + source.length ≤ target.length := by omega
  apply List.ext_getElem?
  intro i
  rw [getElem?_overwrite (by rwa [length_overwrite h]), getElem?_overwrite h,
    getElem?_overwrite h']
  split_ifs with hlate hearly
  · rfl
  · omega
  · rfl

lemma take_overwrite {target source : List UInt8} {offset n : ℕ}
    (h : offset + source.length ≤ n) (hn : n ≤ target.length) :
    (overwrite target offset source).take n = overwrite (target.take n) offset source := by
  have hlength : (target.take n).length = n := List.length_take_of_le hn
  apply List.ext_getElem?
  intro i
  rw [getElem?_overwrite (by rwa [hlength]), List.getElem?_take, List.getElem?_take,
    getElem?_overwrite (h.trans hn)]
  split_ifs
  · rfl
  · rfl
  · omega
  · rfl

/-- The bytes written are read back. -/
lemma drop_take_overwrite {target source : List UInt8} {offset : ℕ} (h : offset ≤ target.length) :
    ((overwrite target offset source).drop offset).take source.length = source := by
  have htaken : (target.take offset).length = offset := List.length_take_of_le h
  rw [overwrite, List.append_assoc, List.drop_left' htaken, List.take_left]

/-- Bytes in another place are read as before. -/
lemma drop_take_overwrite_of_apart {target source : List UInt8} {offset pos width : ℕ}
    (h : offset + source.length ≤ target.length)
    (hapart : pos + width ≤ offset ∨ offset + source.length ≤ pos) :
    ((overwrite target offset source).drop pos).take width = (target.drop pos).take width := by
  apply List.ext_getElem?
  intro i
  rw [List.getElem?_take, List.getElem?_take, List.getElem?_drop, List.getElem?_drop,
    getElem?_overwrite h]
  split_ifs
  · omega
  · rfl
  · rfl

lemma drop_take_take {bytes : List UInt8} {pos width n : ℕ} (h : pos + width ≤ n) :
    ((bytes.take n).drop pos).take width = (bytes.drop pos).take width := by
  rw [List.drop_take, List.take_take, Nat.min_eq_left (by omega)]

/-! ### Bytes in a memory -/

section

variable (m : ℕ → UInt8) (x : ℕ)

/-- The `width` bytes of a memory from `x` on. -/
def slice (m : ℕ → UInt8) (x : ℕ) : (width : ℕ) → List UInt8
  | 0         => []
  | width + 1 => m x :: slice m (x + 1) width

@[simp] lemma length_slice (width : ℕ) : (slice m x width).length = width := by
  induction width generalizing x with
  | zero => rfl
  | succ width ih => rw [slice, List.length_cons, ih]

lemma slice_add (width width' : ℕ) :
    slice m x (width + width') = slice m x width ++ slice m (x + width) width' := by
  induction width generalizing x with
  | zero => simp [slice]
  | succ width ih =>
    rw [Nat.succ_add, slice, slice, ih, List.cons_append, Nat.add_assoc, Nat.add_comm 1]

lemma slice_congr {m' : ℕ → UInt8} {width : ℕ} (h : ∀ i < width, m' (x + i) = m (x + i)) :
    slice m' x width = slice m x width := by
  induction width generalizing x with
  | zero => rfl
  | succ width ih =>
    have hrest : ∀ i < width, m' (x + 1 + i) = m (x + 1 + i) := by
      intro i hi
      rw [Nat.add_assoc, Nat.add_comm 1]
      exact h (i + 1) (Nat.succ_lt_succ hi)
    rw [slice, slice, ih _ hrest]
    exact congrArg (· :: _) (h 0 (Nat.succ_pos width))

/-- The bytes lie in the memory from `x` on. -/
def At (m : ℕ → UInt8) (x : ℕ) (bs : List UInt8) : Prop := slice m x bs.length = bs

variable {m x}

lemma at_slice (width : ℕ) : At m x (slice m x width) := by
  rw [At, length_slice]

lemma at_cons {b : UInt8} {bs : List UInt8} : At m x (b :: bs) ↔ m x = b ∧ At m (x + 1) bs := by
  rw [At, List.length_cons, slice, List.cons.injEq, At]

lemma at_append {bs bs' : List UInt8} :
    At m x (bs ++ bs') ↔ At m x bs ∧ At m (x + bs.length) bs' := by
  rw [At, List.length_append, slice_add, At, At]
  constructor
  · intro h
    exact List.append_inj h (length_slice m x bs.length)
  · rintro ⟨h, h'⟩
    rw [h, h']

lemma At.take {bs : List UInt8} (h : At m x bs) (n : ℕ) : At m x (bs.take n) := by
  rw [← bs.take_append_drop n] at h
  exact (at_append.mp h).1

/-- Two memories that hold the same bytes agree on every part of them. -/
lemma At.slice_eq {m' : ℕ → UInt8} {x' : ℕ} {bs : List UInt8} (h : At m x bs) (h' : At m' x' bs)
    (i width : ℕ) (hi : i + width ≤ bs.length) :
    slice m (x + i) width = slice m' (x' + i) width := by
  have hpart : ∀ {m x}, At m x bs → slice m (x + i) width = (bs.take (i + width)).drop i := by
    intro m x h
    have htake := h.take (i + width)
    rw [At, List.length_take, Nat.min_eq_left hi, slice_add] at htake
    rw [← htake, List.drop_left' (length_slice m x i)]
  rw [hpart h, hpart h']

/-- An integer lies where it is read back. -/
lemma at_encode {order : ByteOrder} {width n : ℕ} (h : n < 256 ^ width) :
    At m x (encode order width n) ↔ decode order (slice m x width) = n := by
  rw [At, length_encode]
  constructor
  · intro heq
    rw [heq, decode_encode order h]
  · rintro rfl
    have hback := encode_decode order (slice m x width)
    rwa [length_slice, eq_comm] at hback

end

/-! ### Records -/

/-- An item of a record: an unsigned integer of `width` bytes, or a padding byte. -/
inductive Item where
  | field (width : ℕ)
  | pad
deriving DecidableEq, Repr

/-- The number of bytes of a record. -/
def size : List Item → ℕ
  | []                    => 0
  | .field width :: items => width + size items
  | .pad :: items         => 1 + size items

/-- There is one value for each field, and each is in range. -/
def fits : List Item → List ℕ → Bool
  | [], []                     => true
  | .pad :: items, ns          => fits items ns
  | .field width :: items, n :: ns => n < 256 ^ width && fits items ns
  | _, _                       => false

/-- The bytes of a record. -/
def write (order : ByteOrder) : List Item → List ℕ → List UInt8
  | .pad :: items, ns              => 0 :: write order items ns
  | .field width :: items, n :: ns => encode order width n ++ write order items ns
  | _, _                           => []

/-- The fields of a record, from its bytes. -/
def read (order : ByteOrder) : List Item → List UInt8 → List ℕ
  | [], _                     => []
  | .pad :: items, bs         => read order items (bs.drop 1)
  | .field width :: items, bs => decode order (bs.take width) :: read order items (bs.drop width)

/-- Each field written in one order and read in the other. -/
def rereadAll (order order' : ByteOrder) : List Item → List ℕ → List ℕ
  | .pad :: items, ns              => rereadAll order order' items ns
  | .field width :: items, n :: ns => reread order order' width n :: rereadAll order order' items ns
  | _, _                           => []

lemma length_write {order : ByteOrder} {items : List Item} {ns : List ℕ}
    (h : fits items ns = true) : (write order items ns).length = size items := by
  induction items generalizing ns with
  | nil =>
    cases ns with
    | nil => rfl
    | cons n ns => simp [fits] at h
  | cons item items ih =>
    cases item with
    | pad =>
      rw [write, List.length_cons, ih h, size, Nat.add_comm]
    | field width =>
      cases ns with
      | nil => simp [fits] at h
      | cons n ns =>
        simp only [fits, Bool.and_eq_true] at h
        rw [write, List.length_append, length_encode, ih h.2, size]

/-- A record written in one order and read in another. -/
lemma read_write {order order' : ByteOrder} {items : List Item} {ns : List ℕ}
    (h : fits items ns = true) (rest : List UInt8) :
    read order' items (write order items ns ++ rest) = rereadAll order order' items ns := by
  induction items generalizing ns with
  | nil => cases ns <;> rfl
  | cons item items ih =>
    cases item with
    | pad => exact ih h
    | field width =>
      cases ns with
      | nil => simp [fits] at h
      | cons n ns =>
        simp only [fits, Bool.and_eq_true] at h
        have htake : (encode order width n ++ (write order items ns ++ rest)).take width =
            encode order width n := List.take_left' (length_encode order width n)
        have hdrop : (encode order width n ++ (write order items ns ++ rest)).drop width =
            write order items ns ++ rest := List.drop_left' (length_encode order width n)
        rw [write, read, List.append_assoc, htake, hdrop, ih h.2]
        rfl

/-- What is read is in range. -/
lemma fits_read (order : ByteOrder) (items : List Item) (bs : List UInt8) :
    fits items (read order items bs) = true := by
  induction items generalizing bs with
  | nil => rfl
  | cons item items ih =>
    cases item with
    | pad => exact ih _
    | field width =>
      have hlt : decode order (bs.take width) < 256 ^ width :=
        (decode_lt order _).trans_le (Nat.pow_le_pow_right (by decide) (List.length_take_le _ _))
      rw [read, fits, Bool.and_eq_true]
      exact ⟨decide_eq_true hlt, ih _⟩

/-- A record read in the order it was written in comes back. -/
lemma rereadAll_self (order : ByteOrder) {items : List Item} {ns : List ℕ}
    (h : fits items ns = true) : rereadAll order order items ns = ns := by
  induction items generalizing ns with
  | nil =>
    cases ns with
    | nil => rfl
    | cons n ns => simp [fits] at h
  | cons item items ih =>
    cases item with
    | pad => exact ih h
    | field width =>
      cases ns with
      | nil => simp [fits] at h
      | cons n ns =>
        simp only [fits, Bool.and_eq_true, decide_eq_true_eq] at h
        rw [rereadAll, reread, decode_encode order h.1, ih h.2]

/-- A record without padding is the bytes it was read from. -/
lemma write_read (order : ByteOrder) {items : List Item} (hpad : Item.pad ∉ items)
    {bs : List UInt8} (h : size items ≤ bs.length) :
    write order items (read order items bs) = bs.take (size items) := by
  induction items generalizing bs with
  | nil => simp [write, size]
  | cons item items ih =>
    rw [List.mem_cons, not_or] at hpad
    cases item with
    | pad => exact absurd rfl hpad.1
    | field width =>
      rw [size] at h
      have hwidth : (bs.take width).length = width := List.length_take_of_le (by omega)
      have hfirst := encode_decode order (bs.take width)
      rw [hwidth] at hfirst
      rw [read, write, hfirst, ih hpad.2 (by rw [List.length_drop]; omega), size, List.take_add]

/-- The bytes of every field read the same in both directions. -/
def AllSymmetric : List Item → List ℕ → Prop
  | .pad :: items, ns              => AllSymmetric items ns
  | .field width :: items, n :: ns => Symmetric width n ∧ AllSymmetric items ns
  | _, _                           => True

/-- A record survives a change of byte order exactly when all its fields are symmetric. -/
lemma rereadAll_eq_iff {order order' : ByteOrder} (horder : order ≠ order') {items : List Item}
    {ns : List ℕ} (h : fits items ns = true) :
    rereadAll order order' items ns = ns ↔ AllSymmetric items ns := by
  induction items generalizing ns with
  | nil =>
    cases ns with
    | nil => simp [rereadAll, AllSymmetric]
    | cons n ns => simp [fits] at h
  | cons item items ih =>
    cases item with
    | pad =>
      rw [rereadAll, AllSymmetric]
      exact ih h
    | field width =>
      cases ns with
      | nil => simp [fits] at h
      | cons n ns =>
        simp only [fits, Bool.and_eq_true, decide_eq_true_eq] at h
        rw [rereadAll, AllSymmetric, List.cons.injEq, reread_eq_iff horder h.1, ih h.2]

/-- The items of a record are written one after another. -/
lemma write_append (order : ByteOrder) {items : List Item} {ns : List ℕ}
    (h : fits items ns = true) (items' : List Item) (ns' : List ℕ) :
    write order (items ++ items') (ns ++ ns') = write order items ns ++ write order items' ns' := by
  induction items generalizing ns with
  | nil =>
    cases ns with
    | nil => rfl
    | cons n ns => simp [fits] at h
  | cons item items ih =>
    cases item with
    | pad =>
      rw [List.cons_append, write, write, ih h, List.cons_append]
    | field width =>
      cases ns with
      | nil => simp [fits] at h
      | cons n ns =>
        simp only [fits, Bool.and_eq_true] at h
        rw [List.cons_append, List.cons_append, write, write, ih h.2, List.append_assoc]

/-- The items of a record are read one after another. -/
lemma read_append (order : ByteOrder) (items items' : List Item) (bs : List UInt8) :
    read order (items ++ items') bs =
      read order items bs ++ read order items' (bs.drop (size items)) := by
  induction items generalizing bs with
  | nil => simp [read, size]
  | cons item items ih =>
    cases item with
    | pad => rw [List.cons_append, read, read, ih, size, List.drop_drop]
    | field width =>
      rw [List.cons_append, read, read, ih, size, List.drop_drop, List.cons_append]

end ByteLayout
