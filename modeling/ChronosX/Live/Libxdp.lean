import ChronosX.Socket.Xsk
import Mathlib.Data.List.Basic

/-!
# The rings of libxdp

The socket of live mode works on its rings through functions of `xdp/xsk.h`. The library is outside
the program, so what a ring is and what these functions do are parameters here. A ring is known by
its size and by the entries that wait in it, and what the socket needs of the functions is stated in
`Lawful`: a reservation is for all the entries asked for or for none, submitted entries wait behind
those before them, and reading finds entries from the front, not more than asked for and at least
one if there is one. It may find fewer than there are.
-/

namespace ChronosX

variable {α : Type}

/-! ### Rings that the program fills -/

/-- `xsk_ring_prod`, with entries of type `α`. The kernel takes the entries out of the ring. -/
structure XskRingProd (α : Type) where
  Ring : Type
  /-- A ring that is not set up yet. -/
  zero : Ring
  /-- `xsk_ring_prod__reserve`: the number of entries reserved, the index of the first one, and the
  ring. -/
  reserve : Ring → UInt32 → UInt32 × UInt32 × Ring
  /-- An assignment through the pointer that `xsk_ring_prod__fill_addr` or `xsk_ring_prod__tx_desc`
  returns for an index. -/
  store : Ring → UInt32 → α → Ring
  /-- `xsk_ring_prod__submit`. -/
  submit : Ring → UInt32 → Ring
  /-- The number of entries that the ring has room for. -/
  size : Ring → ℕ
  /-- The entries that wait in the ring, the first one in front. -/
  entries : Ring → List α

namespace XskRingProd

variable (lib : XskRingProd α)

/-- The loop that writes the reserved entries. -/
def storeAll : lib.Ring → UInt32 → List α → lib.Ring
  | ring, _, []          => ring
  | ring, index, x :: xs => storeAll (lib.store ring index x) (index + 1) xs

/-- What `refill` and `submit_tx` do with their ring: the number of entries reserved, and the
ring. -/
def produce (ring : lib.Ring) (xs : List α) : UInt32 × lib.Ring :=
  let (reserved, index, ring) := lib.reserve ring (UInt32.ofNat xs.length)
  let ring := lib.storeAll ring index (xs.take reserved.toNat)
  (reserved, if reserved > 0 then lib.submit ring reserved else ring)

/-- The entries have been added behind those that wait in the ring. -/
structure Appends (ring : lib.Ring) (xs : List α) (ring' : lib.Ring) : Prop where
  entries_eq : lib.entries ring' = lib.entries ring ++ xs
  size_eq : lib.size ring' = lib.size ring

/-- What is assumed of the functions. -/
structure Lawful : Prop where
  /-- All the entries are reserved if there is room for them, and none otherwise. -/
  reserve_eq : ∀ ring count, (lib.reserve ring count).1 =
    if (lib.entries ring).length + count.toNat ≤ lib.size ring then count else 0
  /-- A reservation that fails leaves the ring as it is. -/
  reserve_none : ∀ ring count, (lib.reserve ring count).1 = 0 →
    lib.Appends ring [] (lib.reserve ring count).2.2
  /-- The reserved entries, when they have been written and submitted, wait behind the others. -/
  submit_eq : ∀ ring count xs, (lib.reserve ring count).1.toNat = xs.length →
    lib.Appends ring xs (lib.submit (lib.storeAll (lib.reserve ring count).2.2
      (lib.reserve ring count).2.1 xs) (lib.reserve ring count).1)

variable {lib} {ring : lib.Ring} {xs : List α}

namespace Lawful

variable (h : lib.Lawful) (hlength : xs.length < 2 ^ 32)
include h hlength

lemma produce_of_room (hroom : (lib.entries ring).length + xs.length ≤ lib.size ring) :
    (lib.produce ring xs).1.toNat = xs.length ∧ lib.Appends ring xs (lib.produce ring xs).2 := by
  have hcount : (UInt32.ofNat xs.length).toNat = xs.length := UInt32.toNat_ofNat_of_lt' hlength
  have hreserved : (lib.reserve ring (UInt32.ofNat xs.length)).1 = UInt32.ofNat xs.length := by
    rw [h.reserve_eq, hcount, if_pos hroom]
  have hnat : (lib.reserve ring (UInt32.ofNat xs.length)).1.toNat = xs.length := by
    rw [hreserved, hcount]
  refine ⟨hnat, ?_⟩
  simp only [produce, hnat, List.take_length]
  split_ifs with hpos
  · exact h.submit_eq ring _ xs hnat
  · have hzero : (lib.reserve ring (UInt32.ofNat xs.length)).1 = 0 :=
      UInt32.toNat_inj.mp (Nat.eq_zero_of_not_pos fun hlt => hpos (UInt32.lt_iff_toNat_lt.mpr hlt))
    have hnil : xs = [] := by
      rw [hzero] at hnat
      exact List.length_eq_zero_iff.mp hnat.symm
    rw [hnil]
    exact h.reserve_none ring _ (hnil ▸ hzero)

lemma produce_of_full (hfull : lib.size ring < (lib.entries ring).length + xs.length) :
    (lib.produce ring xs).1 = 0 ∧ lib.Appends ring [] (lib.produce ring xs).2 := by
  have hreserved : (lib.reserve ring (UInt32.ofNat xs.length)).1 = 0 := by
    rw [h.reserve_eq, UInt32.toNat_ofNat_of_lt' hlength, if_neg (Nat.not_le.mpr hfull)]
  refine ⟨hreserved, ?_⟩
  have hnone := h.reserve_none ring _ hreserved
  simp only [produce, hreserved, UInt32.toNat_zero, List.take_zero]
  exact hnone

omit hlength in
/-- One entry. -/
lemma produce_one {x : α} (hroom : (lib.entries ring).length < lib.size ring) :
    (lib.produce ring [x]).1.toNat = 1 ∧ lib.Appends ring [x] (lib.produce ring [x]).2 := by
  have hlength : [x].length < 2 ^ 32 := by
    rw [List.length_singleton]
    decide
  exact h.produce_of_room hlength hroom

end Lawful

end XskRingProd

/-! ### Rings that the program reads -/

/-- `xsk_ring_cons`, with entries of type `α`. The kernel puts the entries into the ring. -/
structure XskRingCons (α : Type) where
  Ring : Type
  /-- A ring that is not set up yet. -/
  zero : Ring
  /-- `xsk_ring_cons__peek`: the number of entries found, the index of the first one, and the
  ring. -/
  peek : Ring → UInt32 → UInt32 × UInt32 × Ring
  /-- What `xsk_ring_cons__comp_addr` or `xsk_ring_cons__rx_desc` points to for an index. -/
  load : Ring → UInt32 → α
  /-- `xsk_ring_cons__release`. -/
  release : Ring → UInt32 → Ring
  /-- The number of entries that the ring has room for. -/
  size : Ring → ℕ
  /-- The entries that wait in the ring, the first one in front. -/
  entries : Ring → List α

namespace XskRingCons

variable (lib : XskRingCons α)

/-- What `drain_completions` and `consume_rx` do with their ring, for a span of the given size: the
number of entries found, the entries, and the ring. -/
def consume (ring : lib.Ring) (size : ℕ) : UInt32 × List α × lib.Ring :=
  let (available, index, ring) := lib.peek ring (UInt32.ofNat size)
  let output := (List.range available.toNat).map fun offset =>
    lib.load ring (index + UInt32.ofNat offset)
  (available, output, if available > 0 then lib.release ring available else ring)

/-- The first entries are no longer in the ring. -/
structure Drops (ring : lib.Ring) (count : ℕ) (ring' : lib.Ring) : Prop where
  entries_eq : lib.entries ring' = (lib.entries ring).drop count
  size_eq : lib.size ring' = lib.size ring

/-- What is assumed of the functions. -/
structure Lawful : Prop where
  /-- Not more entries are found than were asked for, nor than there are. -/
  peek_le : ∀ ring count, (lib.peek ring count).1.toNat ≤ min count.toNat (lib.entries ring).length
  /-- An entry is found if there is one. -/
  peek_pos : ∀ ring count, 0 < count → lib.entries ring ≠ [] → 0 < (lib.peek ring count).1
  /-- The entries found are those in front. -/
  load_eq : ∀ ring count offset, offset < (lib.peek ring count).1.toNat →
    (lib.entries ring)[offset]? = some (lib.load (lib.peek ring count).2.2
      ((lib.peek ring count).2.1 + UInt32.ofNat offset))
  /-- Looking for entries in an empty ring leaves it as it is. -/
  peek_none : ∀ ring count, (lib.peek ring count).1 = 0 →
    lib.Drops ring 0 (lib.peek ring count).2.2
  /-- The entries found leave the ring when they are released. -/
  release_eq : ∀ ring count, lib.Drops ring (lib.peek ring count).1.toNat
    (lib.release (lib.peek ring count).2.2 (lib.peek ring count).1)

variable {lib}

/-- A loop that reads entries from the front. -/
lemma map_load_eq_take {xs : List α} {n : ℕ} {load : ℕ → α}
    (h : ∀ offset < n, xs[offset]? = some (load offset)) : (List.range n).map load = xs.take n := by
  refine List.ext_getElem? fun offset => ?_
  rw [List.getElem?_map]
  by_cases hlt : offset < n
  · rw [List.getElem?_range hlt, List.getElem?_take_of_lt hlt, h offset hlt, Option.map_some]
  · rw [List.getElem?_eq_none (by simpa using hlt), List.getElem?_take_eq_none (by simpa using hlt),
      Option.map_none]

/-- What is read are some of the first entries, which leave the ring. -/
lemma Lawful.consume_eq (h : lib.Lawful) (ring : lib.Ring) {size : ℕ} (hsize : size < 2 ^ 32) :
    ∃ available ring',
      lib.consume ring size = (available, (lib.entries ring).take available.toNat, ring') ∧
      available.toNat ≤ min size (lib.entries ring).length ∧
      (0 < size → lib.entries ring ≠ [] → 0 < available.toNat) ∧
      lib.Drops ring available.toNat ring' := by
  have hcount : (UInt32.ofNat size).toNat = size := UInt32.toNat_ofNat_of_lt' hsize
  have houtput := map_load_eq_take (h.load_eq ring (UInt32.ofNat size))
  refine ⟨(lib.peek ring (UInt32.ofNat size)).1, (lib.consume ring size).2.2,
    Prod.ext rfl (Prod.ext houtput rfl), ?_, fun hpos hne => ?_, ?_⟩
  · have hle := h.peek_le ring (UInt32.ofNat size)
    rwa [hcount] at hle
  · refine UInt32.lt_iff_toNat_lt.mp (h.peek_pos ring _ ?_ hne)
    rw [UInt32.lt_iff_toNat_lt, hcount]
    exact hpos
  · simp only [consume]
    split_ifs with hpos
    · exact h.release_eq ring _
    · have hzero : (lib.peek ring (UInt32.ofNat size)).1 = 0 := UInt32.toNat_inj.mp
        (Nat.eq_zero_of_not_pos fun hlt => hpos (UInt32.lt_iff_toNat_lt.mpr hlt))
      rw [hzero]
      exact h.peek_none ring _ hzero

end XskRingCons

/-! ### The library -/

/-- The rings of an AF_XDP socket. -/
structure Libxdp where
  fill : XskRingProd UInt64
  completion : XskRingCons UInt64
  rx : XskRingCons RxDescriptor
  tx : XskRingProd TxDescriptor

/-- What is assumed of the library. -/
structure Libxdp.Lawful (lib : Libxdp) : Prop where
  fill : lib.fill.Lawful
  completion : lib.completion.Lawful
  rx : lib.rx.Lawful
  tx : lib.tx.Lawful

/-! ### Rings as lists -/

/-- A ring that is a list, with the entries written and not submitted yet. -/
structure ListRing (α : Type) where
  size : ℕ := 0
  entries : List α := []
  written : List α := []

namespace ListRing

/-- Lists as rings that the program fills. -/
def prod (α : Type) : XskRingProd α where
  Ring := ListRing α
  zero := {}
  reserve ring count :=
    (if ring.entries.length + count.toNat ≤ ring.size then count else 0, 0,
      { ring with written := [] })
  store ring _ x := { ring with written := ring.written ++ [x] }
  submit ring count :=
    { ring with entries := ring.entries ++ ring.written.take count.toNat, written := [] }
  size := size
  entries := entries

/-- Lists as rings that the program reads. -/
def cons (α : Type) [Inhabited α] : XskRingCons α where
  Ring := ListRing α
  zero := {}
  peek ring count := (UInt32.ofNat (min count.toNat ring.entries.length), 0, ring)
  load ring index := ring.entries[index.toNat]?.getD default
  release ring count := { ring with entries := ring.entries.drop count.toNat }
  size := size
  entries := entries

end ListRing

/-- A library whose rings are lists. -/
def listXdp : Libxdp where
  fill := ListRing.prod UInt64
  completion := ListRing.cons UInt64
  rx := ListRing.cons RxDescriptor
  tx := ListRing.prod TxDescriptor

end ChronosX
