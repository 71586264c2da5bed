import Mathlib.Tactic.Common
import Mathlib.Data.List.Basic

/-!
# Cyclic redundancy checks

A reflected CRC of any width and polynomial, as a register that is shifted right bit by bit. A round
is linear, and it is injective when the polynomial has its top bit set, so a change of the register
is never lost. Linearity also gives the step of table-driven implementations, and that a byte may be
fed bit by bit, the least significant one first. Bytes that fit in the register at once act as one
word: feeding them is exclusive or with the word, followed by rounds.
Hence two different strings of bytes of the same length that fit in the register are told apart from
whatever register they start, and remain told apart by whatever follows.
-/

namespace Crc

variable {w : ℕ} (p : BitVec w)

/-! ### Rounds -/

/-- One bit is shifted out. -/
def round (x : BitVec w) : BitVec w := if x.getLsbD 0 then (x >>> 1) ^^^ p else x >>> 1

def rounds : ℕ → BitVec w → BitVec w
  | 0, x     => x
  | n + 1, x => rounds n (round p x)

lemma round_xor (x y : BitVec w) : round p (x ^^^ y) = round p x ^^^ round p y := by
  have hcancel : ∀ a b : BitVec w, a ^^^ p ^^^ (b ^^^ p) = a ^^^ b := by
    intro a b
    rw [BitVec.xor_comm b p, BitVec.xor_assoc, ← BitVec.xor_assoc p p b, BitVec.xor_self,
      BitVec.zero_xor]
  simp only [round, BitVec.getLsbD_xor, BitVec.ushiftRight_xor_distrib]
  cases x.getLsbD 0 <;> cases y.getLsbD 0
  · simp
  · simp [BitVec.xor_assoc]
  · simp [BitVec.xor_assoc, BitVec.xor_comm p]
  · simp [hcancel]

lemma rounds_xor (n : ℕ) (x y : BitVec w) : rounds p n (x ^^^ y) = rounds p n x ^^^ rounds p n y := by
  induction n generalizing x y with
  | zero => rfl
  | succ n ih => rw [rounds, rounds, rounds, round_xor, ih]

lemma rounds_add (m n : ℕ) (x : BitVec w) : rounds p (m + n) x = rounds p n (rounds p m x) := by
  induction m generalizing x with
  | zero => rw [Nat.zero_add, rounds]
  | succ m ih => rw [Nat.add_right_comm, rounds, rounds, ih]

/-- While the bits shifted out are zero, a round is a shift. -/
lemma rounds_eq_shift {n : ℕ} {x : BitVec w} (h : ∀ i < n, x.getLsbD i = false) :
    rounds p n x = x >>> n := by
  induction n generalizing x with
  | zero => simp [rounds]
  | succ n ih =>
    have hround : round p x = x >>> 1 := by
      rw [round, h 0 (Nat.succ_pos n), if_neg Bool.false_ne_true]
    rw [rounds, hround, ih, ← BitVec.shiftRight_add, Nat.add_comm]
    intro i hi
    rw [BitVec.getLsbD_ushiftRight]
    exact h _ (by omega)

variable {p}

/-- A polynomial with its top bit set never cancels what the register shifts. -/
lemma eq_zero_of_round (hp : p.msb = true) {x : BitVec w} (h : round p x = 0#w) : x = 0#w := by
  rw [round] at h
  split at h
  case isTrue =>
    have hmsb := congrArg BitVec.msb h
    simp [hp] at hmsb
  case isFalse hlow =>
    apply BitVec.eq_of_getLsbD_eq
    intro i hi
    rw [BitVec.getLsbD_zero]
    cases i with
    | zero => simpa using hlow
    | succ i =>
      have hbit := congrArg (·.getLsbD i) h
      simpa [Nat.add_comm] using hbit

lemma round_injective (hp : p.msb = true) : Function.Injective (round p) := by
  intro x y h
  have hzero : round p (x ^^^ y) = 0#w := by
    rw [round_xor, h, BitVec.xor_self]
  exact BitVec.xor_eq_zero_iff.mp (eq_zero_of_round hp hzero)

lemma rounds_injective (hp : p.msb = true) (n : ℕ) : Function.Injective (rounds p n) := by
  induction n with
  | zero => exact fun _ _ h => h
  | succ n ih => exact fun _ _ h => round_injective hp (ih h)

/-! ### Bytes -/

/-- A byte enters the low end of the register and is shifted out. -/
def step (p x : BitVec w) (b : BitVec 8) : BitVec w := rounds p 8 (x ^^^ b.setWidth w)

def feed (p x : BitVec w) (bytes : List (BitVec 8)) : BitVec w := bytes.foldl (step p) x

lemma feed_cons (x : BitVec w) (b : BitVec 8) (bytes : List (BitVec 8)) :
    feed p x (b :: bytes) = feed p (step p x b) bytes := rfl

lemma feed_append (x : BitVec w) (bytes bytes' : List (BitVec 8)) :
    feed p x (bytes ++ bytes') = feed p (feed p x bytes) bytes' := List.foldl_append

/-- The register is never lost, whatever is fed. -/
lemma feed_injective (hp : p.msb = true) (bytes : List (BitVec 8)) :
    Function.Injective (feed p · bytes) := by
  induction bytes with
  | nil => exact fun _ _ h => h
  | cons b bytes ih =>
    intro x y h
    have hstep : step p x b = step p y b := ih h
    rw [step, step] at hstep
    have hxor := rounds_injective hp 8 hstep
    exact (BitVec.xor_left_inj _).mp hxor

/-- A byte at a time: the table holds the rounds of every byte. -/
lemma step_eq_table (x : BitVec w) (b : BitVec 8) :
    step p x b = (x >>> 8) ^^^ rounds p 8 (((x ^^^ b.setWidth w).setWidth 8).setWidth w) := by
  have hsplit : x ^^^ b.setWidth w =
      ((x >>> 8) <<< 8) ^^^ ((x ^^^ b.setWidth w).setWidth 8).setWidth w := by
    apply BitVec.eq_of_getLsbD_eq
    intro i hi
    by_cases hlow : i < 8
    · simp [hi, hlow]
    · have hb : b.getLsbD i = false := BitVec.getLsbD_of_ge _ _ (Nat.le_of_not_lt hlow)
      simp [hi, hlow, hb, Nat.add_sub_cancel' (Nat.le_of_not_lt hlow)]
  have hhigh : rounds p 8 ((x >>> 8) <<< 8) = x >>> 8 := by
    rw [rounds_eq_shift]
    · apply BitVec.eq_of_getLsbD_eq
      intro i hi
      by_cases hin : 8 + i < w
      · simp [hin]
      · simp [hin, BitVec.getLsbD_of_ge x (8 + i) (Nat.le_of_not_lt hin)]
    · intro i hi
      simp [hi]
  rw [step]
  nth_rewrite 1 [hsplit]
  rw [rounds_xor, hhigh]

/-! ### Bits -/

/-- A bit is added to the bit that is shifted out. -/
def bitStep (p x : BitVec w) (bit : Bool) : BitVec w :=
  if x.getLsbD 0 ^^ bit then (x >>> 1) ^^^ p else x >>> 1

def feedBits (p x : BitVec w) (bits : List Bool) : BitVec w := bits.foldl (bitStep p) x

/-- The lowest `n` bits, the least significant one first. -/
def lowBits {v : ℕ} (n : ℕ) (y : BitVec v) : List Bool := (List.range n).map y.getLsbD

lemma lowBits_succ {v : ℕ} (n : ℕ) (y : BitVec v) :
    lowBits (n + 1) y = y.getLsbD 0 :: lowBits n (y >>> 1) := by
  rw [lowBits, List.range_succ_eq_map, List.map_cons, List.map_map, lowBits]
  congr 1
  apply List.map_congr_left
  intro i _
  rw [BitVec.getLsbD_ushiftRight, Nat.add_comm]
  rfl

/-- Only the lowest bit of what is added decides about the polynomial; the rest is shifted. -/
lemma round_xor_eq_bitStep (x y : BitVec w) :
    round p (x ^^^ y) = bitStep p x (y.getLsbD 0) ^^^ (y >>> 1) := by
  rw [round, bitStep, BitVec.getLsbD_xor, BitVec.ushiftRight_xor_distrib]
  cases x.getLsbD 0 ^^ y.getLsbD 0 with
  | false => rfl
  | true =>
    change x >>> 1 ^^^ y >>> 1 ^^^ p = x >>> 1 ^^^ p ^^^ y >>> 1
    rw [BitVec.xor_assoc, BitVec.xor_comm (y >>> 1), ← BitVec.xor_assoc]

/-- What is added at once may be added bit by bit, as it is shifted out. -/
lemma rounds_xor_eq_feedBits (n : ℕ) (x y : BitVec w) :
    rounds p n (x ^^^ y) = feedBits p x (lowBits n y) ^^^ (y >>> n) := by
  induction n generalizing x y with
  | zero => simp [rounds, feedBits, lowBits]
  | succ n ih =>
    rw [rounds, round_xor_eq_bitStep, ih, lowBits_succ, ← BitVec.shiftRight_add, Nat.add_comm 1]
    rfl

/-- Eight bits make a byte. -/
lemma step_eq_feedBits (hw : 8 ≤ w) (x : BitVec w) (b : BitVec 8) :
    step p x b = feedBits p x (lowBits 8 b) := by
  have hbits : lowBits 8 (b.setWidth w) = lowBits 8 b := by
    apply List.map_congr_left
    intro i hi
    have hin : i < w := Nat.lt_of_lt_of_le (List.mem_range.mp hi) hw
    rw [BitVec.getLsbD_setWidth, decide_eq_true hin, Bool.true_and]
  have hrest : b.setWidth w >>> 8 = 0#w := by
    apply BitVec.eq_of_getLsbD_eq
    intro i _
    simp
  rw [step, rounds_xor_eq_feedBits, hbits, hrest, BitVec.xor_zero]

lemma feed_eq_feedBits (hw : 8 ≤ w) (x : BitVec w) (bytes : List (BitVec 8)) :
    feed p x bytes = feedBits p x (bytes.flatMap (lowBits 8)) := by
  induction bytes generalizing x with
  | nil => rfl
  | cons b bytes ih =>
    rw [feed_cons, ih, step_eq_feedBits hw, List.flatMap_cons, feedBits, feedBits, feedBits,
      List.foldl_append]

/-! ### Words -/

/-- Bytes in a register, the first one at the low end. -/
def word : List (BitVec 8) → BitVec w
  | []         => 0#w
  | b :: bytes => b.setWidth w ^^^ (word bytes <<< 8)

lemma getLsbD_word {bytes : List (BitVec 8)} {i : ℕ} (h : 8 * bytes.length ≤ i) :
    (word bytes : BitVec w).getLsbD i = false := by
  induction bytes generalizing i with
  | nil => simp [word]
  | cons b bytes ih =>
    rw [List.length_cons] at h
    have hb : b.getLsbD i = false := BitVec.getLsbD_of_ge _ _ (by omega)
    have hrest : (word bytes : BitVec w).getLsbD (i - 8) = false := ih (by omega)
    simp [word, hb, hrest]

/-- A word with room for one more byte is moved up without loss. -/
lemma word_shift {bytes : List (BitVec 8)} (h : 8 * (bytes.length + 1) ≤ w) :
    ((word bytes : BitVec w) <<< 8) >>> 8 = word bytes := by
  apply BitVec.eq_of_getLsbD_eq
  intro i hi
  by_cases hlow : 8 + i < w
  · have hnot : ¬ 8 + i < 8 := by omega
    simp [hlow, hnot, hi]
  · rw [getLsbD_word (by omega)]
    simp [hlow]

lemma word_injective {bytes bytes' : List (BitVec 8)} (hlength : bytes.length = bytes'.length)
    (hfit : 8 * bytes.length ≤ w) (h : (word bytes : BitVec w) = word bytes') :
    bytes = bytes' := by
  induction bytes generalizing bytes' with
  | nil => exact (List.eq_nil_of_length_eq_zero hlength.symm).symm
  | cons b bytes ih =>
    cases bytes' with
    | nil => cases hlength
    | cons b' bytes' =>
      simp only [List.length_cons, Nat.add_right_cancel_iff] at hlength hfit
      have hb : b = b' := by
        apply BitVec.eq_of_getLsbD_eq
        intro i hi
        have hbit := congrArg (·.getLsbD i) h
        simpa [word, hi, show i < w by omega] using hbit
      subst hb
      have hshift : (word bytes : BitVec w) <<< 8 = word bytes' <<< 8 :=
        (BitVec.xor_right_inj _).mp h
      have hrest : (word bytes : BitVec w) = word bytes' := by
        rw [← word_shift hfit, hshift, word_shift (by rwa [← hlength])]
      rw [ih hlength (by omega) hrest]

/-- Bytes that fit in the register act as one word. -/
lemma feed_eq_rounds {bytes : List (BitVec 8)} (h : 8 * bytes.length ≤ w) (x : BitVec w) :
    feed p x bytes = rounds p (8 * bytes.length) (x ^^^ word bytes) := by
  induction bytes generalizing x with
  | nil => simp [feed, rounds, word]
  | cons b bytes ih =>
    rw [List.length_cons] at h
    have hword : rounds p 8 ((word bytes : BitVec w) <<< 8) = word bytes := by
      rw [rounds_eq_shift, word_shift h]
      intro i hi
      simp [hi]
    rw [feed_cons, ih (by omega), List.length_cons, Nat.mul_succ, Nat.add_comm, rounds_add, word,
      ← BitVec.xor_assoc, rounds_xor p 8, hword, step]

/-- Two strings of the same length that fit in the register are told apart, whatever stands before
and behind them. -/
theorem feed_window_injective (hp : p.msb = true) (x : BitVec w)
    {window window' : List (BitVec 8)} (hlength : window.length = window'.length)
    (hfit : 8 * window.length ≤ w) (before after : List (BitVec 8))
    (h : feed p x (before ++ window ++ after) = feed p x (before ++ window' ++ after)) :
    window = window' := by
  rw [feed_append, feed_append, feed_append, feed_append] at h
  have hfed : feed p (feed p x before) window = feed p (feed p x before) window' :=
    feed_injective hp after h
  have hfit' : 8 * window'.length ≤ w := by rwa [← hlength]
  rw [feed_eq_rounds hfit (feed p x before), feed_eq_rounds hfit', ← hlength] at hfed
  have hword := (BitVec.xor_right_inj _).mp (rounds_injective hp _ hfed)
  exact word_injective hlength hfit hword

end Crc
