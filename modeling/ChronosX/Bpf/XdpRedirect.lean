import ChronosX.Parser.Grammar

/-!
# The XDP program

`xdp_redirect.bpf.c`: the filter in the kernel that steers IPv4 frames into an AF_XDP socket. The
maps are the memory of a program, so its trace shows which elements are looked up; the bytes of the
frame are read directly, in the byte order of the host. Whatever the maps hold, the filter lets
through to the socket what `parse_packet` accepts.
-/

namespace ChronosX

open Mem ByteLayout

/-! ### The program -/

inductive XdpAction where
  | aborted
  | drop
  | pass
  | tx
  | redirect
deriving DecidableEq, Repr

/-- `struct xdp_md`, as far as the program reads it. -/
structure XdpMd where
  data : ℕ
  dataEnd : ℕ
  rxQueueIndex : UInt32

/-- An element of one of the two maps. -/
inductive MapElem where
  | packetCount (index : UInt32)
  | xsksMap (key : UInt32)
deriving DecidableEq, Repr

/-- A program over the maps; an element that `bpf_map_lookup_elem` does not find is `none`. -/
abbrev XdpProg := Prog MapElem (Option UInt64)

def bpfMapLookupElem (elem : MapElem) : XdpProg (Option UInt64) := read elem

/-- `bpf_redirect_map` looks the socket up on its own and falls back on its flags. -/
def bpfRedirectMap (found : Bool) (flags : XdpAction) : XdpAction :=
  if found then .redirect else flags

def chronosStatTotal : UInt32 := 0
def chronosStatRedirect : UInt32 := 1
def chronosStatPass : UInt32 := 2
def chronosStatDrop : UInt32 := 3

def bumpStat (index : UInt32) : XdpProg Unit := do
  match ← bpfMapLookupElem (.packetCount index) with
  | some counter => write (.packetCount index) (some (counter + 1))
  | none         => return

/-- The sizes of `struct ethhdr` and of `struct iphdr`. -/
@[simp] abbrev sizeofEthhdr : ℕ := 14
@[simp] abbrev sizeofIphdr : ℕ := 20

def ethPIp : UInt16 := 0x0800

/-- `__builtin_bswap16`. -/
def bswap16 (x : UInt16) : UInt16 := (x <<< 8) ||| (x >>> 8)

/-- `bpf_htons`: a swap on a little-endian host only. -/
def bpfHtons (order : ByteOrder) (x : UInt16) : UInt16 :=
  match order with
  | .little => bswap16 x
  | .big    => x

/-- `eth->h_proto`, loaded in the byte order of the host. -/
def hProto (order : ByteOrder) (m : Umem) (eth : ℕ) : UInt16 :=
  UInt16.ofNat (decode order (slice m (eth + 12) 2))

/-- A bit-field of a byte: the bits are allotted from the lowest one on a little-endian host, and
from the highest one on a big-endian host. -/
def bitField (order : ByteOrder) (start width : ℕ) (byte : Byte) : UInt8 :=
  match order with
  | .little => byte >>> UInt8.ofNat start &&& UInt8.ofNat (2 ^ width - 1)
  | .big    => byte >>> UInt8.ofNat (8 - start - width) &&& UInt8.ofNat (2 ^ width - 1)

/-- `ip->ihl`, which `struct iphdr` declares before the version on a little-endian host, and after
it on a big-endian host. -/
def ihl (order : ByteOrder) (m : Umem) (ip : ℕ) : UInt8 :=
  match order with
  | .little => bitField .little 0 4 (m ip)
  | .big    => bitField .big 4 4 (m ip)

/-- `xdp_chronos_redirect`. -/
def xdpChronosRedirect (order : ByteOrder) (found : Bool) (m : Umem) (ctx : XdpMd) :
    XdpProg XdpAction := do
  let eth := ctx.data
  if eth + sizeofEthhdr > ctx.dataEnd then
    bumpStat chronosStatDrop
    return .drop
  bumpStat chronosStatTotal
  if hProto order m eth ≠ bpfHtons order ethPIp then
    bumpStat chronosStatPass
    return .pass
  let ip := eth + sizeofEthhdr
  if ip + sizeofIphdr > ctx.dataEnd ∨ ihl order m ip < 5 then
    bumpStat chronosStatDrop
    return .drop
  let queueIndex := ctx.rxQueueIndex
  if (← bpfMapLookupElem (.xsksMap queueIndex)).isSome then
    bumpStat chronosStatRedirect
    return bpfRedirectMap found .pass
  bumpStat chronosStatPass
  return .pass

/-! ### Fields in the byte order of the host -/

section Fields

variable (order : ByteOrder) (m : Umem) (x : ℕ)

lemma toNat_bswap16 (v : UInt16) : (bswap16 v).toNat = v.toNat % 256 * 256 + v.toNat / 256 := by
  have hlt := v.toNat_lt
  have hhigh : (v <<< 8).toNat = (v.toNat % 256) <<< 8 := by
    simp [Nat.shiftLeft_eq]
    omega
  have hlow : (v >>> 8).toNat = v.toNat / 256 := by
    simp [Nat.shiftRight_eq_div_pow]
  rw [bswap16, UInt16.toNat_or, hhigh, hlow]
  exact or_shiftLeft _ (by omega)

lemma bswap16_injective : Function.Injective bswap16 := by
  intro v w heq
  have heq := congrArg UInt16.toNat heq
  rw [toNat_bswap16, toNat_bswap16] at heq
  have hv := v.toNat_lt
  have hw := w.toNat_lt
  apply UInt16.toNat_inj.mp
  omega

lemma bpfHtons_injective : Function.Injective (bpfHtons order) := by
  cases order with
  | little => exact bswap16_injective
  | big    => exact Function.injective_id

/-- The field holds the EtherType in network byte order. -/
lemma hProto_eq : hProto order m x = bpfHtons order (be16At m (x + 12)) := by
  cases order with
  | big => rfl
  | little =>
    apply UInt16.toNat_inj.mp
    have ha := (m (x + 12)).toNat_lt
    have hb := (m (x + 12 + 1)).toNat_lt
    rw [bpfHtons, toNat_bswap16, toNat_be16At, hProto, UInt16.toNat_ofNat']
    simp only [slice, decode, value, List.reverse_cons, List.reverse_nil, List.nil_append,
      List.cons_append]
    rw [Nat.mod_eq_of_lt (by omega)]
    omega

lemma hProto_eq_iff : hProto order m x = bpfHtons order ethPIp ↔
    be16At m (x + 12) = kEtherTypeIPv4 := by
  rw [hProto_eq]
  exact (bpfHtons_injective order).eq_iff

/-- The bit-field is the low half of the byte in either order. -/
lemma ihl_eq : ihl order m x = ipv4IhlWords (m x) := by
  have hshift : m x >>> 0 = m x := by simp
  cases order with
  | little => exact congrArg (· &&& 0x0F) hshift
  | big    => exact congrArg (· &&& 0x0F) hshift

end Fields

/-! ### What the program does with a frame -/

/-- The frame that the context describes lies in the memory. -/
structure XdpMd.Holds (ctx : XdpMd) (m : Umem) (frame : List Byte) : Prop where
  at_data : At m ctx.data frame
  dataEnd_eq : ctx.dataEnd = ctx.data + frame.length

/-- The program looks up its queue in `xsks_map`. -/
def XdpMd.LooksUp (ctx : XdpMd) (p : XdpProg XdpAction) (maps : MapElem → Option UInt64) : Prop :=
  .xsksMap ctx.rxQueueIndex ∈ accesses p maps

section Runs

variable {order : ByteOrder} {found : Bool} {m : Umem} {ctx : XdpMd} {frame : List Byte}
  {maps : MapElem → Option UInt64}

lemma xdpChronosRedirect_of_short (hctx : ctx.Holds m frame) (h : frame.length < 14) :
    (run (xdpChronosRedirect order found m ctx) maps).1 = .drop := by
  have hshort : ctx.data + sizeofEthhdr > ctx.dataEnd := by
    rw [hctx.dataEnd_eq]
    exact Nat.add_lt_add_left h _
  rw [xdpChronosRedirect, if_pos hshort, run_bind]
  rfl

/-- The first check passes. -/
lemma XdpMd.Holds.long (hctx : ctx.Holds m frame) (h : ¬ frame.length < 14) :
    ¬ ctx.data + sizeofEthhdr > ctx.dataEnd := by
  rw [hctx.dataEnd_eq]
  exact Nat.not_lt.mpr (Nat.add_le_add_left (Nat.not_lt.mp h) _)

lemma xdpChronosRedirect_of_etherType (hctx : ctx.Holds m frame) (hlong : ¬ frame.length < 14)
    (h : be16At m (ctx.data + 12) ≠ kEtherTypeIPv4) :
    (run (xdpChronosRedirect order found m ctx) maps).1 = .pass := by
  rw [xdpChronosRedirect, if_neg (hctx.long hlong), run_bind,
    if_pos ((hProto_eq_iff order m _).not.mpr h), run_bind]
  rfl

/-- The third check, in terms of the frame. -/
lemma XdpMd.Holds.header_iff (hctx : ctx.Holds m frame) :
    (ctx.data + sizeofEthhdr + sizeofIphdr > ctx.dataEnd ∨
      ihl order m (ctx.data + sizeofEthhdr) < 5) ↔
      (frame.length < 34 ∨ ipv4IhlWords (m (ctx.data + 14)) < 5) := by
  rw [hctx.dataEnd_eq, ihl_eq, Nat.add_assoc, gt_iff_lt, Nat.add_lt_add_iff_left]
  exact Iff.rfl

lemma xdpChronosRedirect_of_header (hctx : ctx.Holds m frame) (hlong : ¬ frame.length < 14)
    (hether : be16At m (ctx.data + 12) = kEtherTypeIPv4)
    (h : frame.length < 34 ∨ ipv4IhlWords (m (ctx.data + 14)) < 5) :
    (run (xdpChronosRedirect order found m ctx) maps).1 = .drop := by
  rw [xdpChronosRedirect, if_neg (hctx.long hlong), run_bind,
    if_neg (not_not.mpr ((hProto_eq_iff order m _).mpr hether)), if_pos (hctx.header_iff.mpr h),
    run_bind]
  rfl

variable (order found maps) in
/-- A frame that passes the three checks is looked up, and not dropped. -/
lemma xdpChronosRedirect_looksUp (hctx : ctx.Holds m frame) (hlong : ¬ frame.length < 14)
    (hether : be16At m (ctx.data + 12) = kEtherTypeIPv4)
    (h : ¬ (frame.length < 34 ∨ ipv4IhlWords (m (ctx.data + 14)) < 5)) :
    ctx.LooksUp (xdpChronosRedirect order found m ctx) maps ∧
      (run (xdpChronosRedirect order found m ctx) maps).1 ≠ .drop := by
  rw [XdpMd.LooksUp, xdpChronosRedirect, if_neg (hctx.long hlong),
    if_neg (not_not.mpr ((hProto_eq_iff order m _).mpr hether)),
    if_neg (hctx.header_iff.not.mpr h)]
  constructor
  · simp [bpfMapLookupElem]
  · simp only [run_bind]
    split_ifs
    · cases found <;> simp [bpfRedirectMap]
    · simp

end Runs

/-! ### The first checks of the parser -/

section Checks

variable {m : Umem} {data length : ℕ}

lemma status_of_short (h : length < 14) :
    (run (parsePacket (some data) length) m).1.status = .tooShortForEthernet := by
  rw [parsePacket, if_pos h]
  rfl

lemma status_of_etherType (hlong : ¬ length < 14)
    (h : be16At m (data + 12) ≠ kEtherTypeIPv4) :
    (run (parsePacket (some data) length) m).1.status = .nonIPv4 := by
  rw [parsePacket, if_neg hlong, run_bind, run_readBe16, if_pos h]
  rfl

lemma parseIPv4_status_of_header {view : PacketView}
    (h : length < 34 ∨ ipv4IhlWords (m (data + 14)) < 5) :
    (run (parseIPv4 data length view) m).1.status ∈
      [.tooShortForIPv4, .invalidIPv4Version, .invalidIPv4HeaderLength] := by
  rw [parseIPv4]
  dsimp only
  by_cases hbase : length < kEthernetHeaderBytes + kIPv4BaseHeaderBytes
  · rw [if_pos hbase]
    simp
  · rw [if_neg hbase, run_bind, run_readByte]
    by_cases hversion : ipv4Version (m (data + 14)) = 4
    · rw [if_neg (not_not.mpr hversion), if_pos (h.resolve_left hbase)]
      simp
    · rw [if_pos hversion]
      simp

lemma status_of_header (hlong : ¬ length < 14)
    (hether : be16At m (data + 12) = kEtherTypeIPv4)
    (h : length < 34 ∨ ipv4IhlWords (m (data + 14)) < 5) :
    (run (parsePacket (some data) length) m).1.status ∈
      [.tooShortForIPv4, .invalidIPv4Version, .invalidIPv4HeaderLength] := by
  rw [parsePacket, if_neg hlong, run_bind, run_readBe16, if_neg (not_not.mpr hether)]
  exact parseIPv4_status_of_header h

end Checks

/-! ### Agreement with the parser -/

/-- The bytes of a frame lie before the filter and in the UMEM. A frame that `parse_packet` accepts
is looked up in `xsks_map` and not dropped; a dropped frame is one that the parser finds too short
for its headers or with a bad IPv4 version or header length; and a frame that is passed without the
lookup is not IPv4 for the parser either. -/
theorem xdpChronosRedirect_agrees (order : ByteOrder) (found : Bool)
    (maps : MapElem → Option UInt64) {m m' : Umem} {ctx : XdpMd} {data : ℕ} {frame : List Byte}
    (hkernel : ctx.Holds m' frame) (huser : At m data frame) :
    let filter := xdpChronosRedirect order found m' ctx
    let action := (run filter maps).1
    let status := (run (parsePacket (some data) frame.length) m).1.status
    (status = .ok → ctx.LooksUp filter maps ∧ action ≠ .drop) ∧
    (action = .drop → status ∈ [.tooShortForEthernet, .tooShortForIPv4, .invalidIPv4Version,
      .invalidIPv4HeaderLength]) ∧
    (action = .pass ∧ ¬ ctx.LooksUp filter maps → status = .nonIPv4) := by
  dsimp only
  by_cases hlong : frame.length < 14
  · rw [xdpChronosRedirect_of_short hkernel hlong, status_of_short hlong]
    simp
  have hether : be16At m' (ctx.data + 12) = be16At m (data + 12) := by
    rw [be16At, be16At, hkernel.at_data.slice_eq huser 12 2 (Nat.not_lt.mp hlong)]
  by_cases hipv4 : be16At m (data + 12) = kEtherTypeIPv4
  case neg =>
    rw [xdpChronosRedirect_of_etherType hkernel hlong (hether.trans_ne hipv4),
      status_of_etherType hlong hipv4]
    simp
  -- the header is compared only where the frame reaches it
  have hheader : (frame.length < 34 ∨ ipv4IhlWords (m' (ctx.data + 14)) < 5) ↔
      (frame.length < 34 ∨ ipv4IhlWords (m (data + 14)) < 5) := by
    refine or_congr_right' fun hbase => ?_
    have hbyte := hkernel.at_data.slice_eq huser 14 1 (by omega)
    rw [List.head_eq_of_cons_eq hbyte]
  by_cases hshort : frame.length < 34 ∨ ipv4IhlWords (m (data + 14)) < 5
  case pos =>
    have hstatus := status_of_header hlong hipv4 hshort
    rw [xdpChronosRedirect_of_header hkernel hlong (hether.trans hipv4) (hheader.mpr hshort)]
    refine ⟨?_, fun _ => List.mem_cons_of_mem _ hstatus, fun h => absurd h.1 (by decide)⟩
    intro hok
    rw [hok] at hstatus
    exact absurd hstatus (by decide)
  case neg =>
    obtain ⟨hlook, hdrop⟩ := xdpChronosRedirect_looksUp order found maps hkernel hlong
      (hether.trans hipv4) (hheader.not.mpr hshort)
    exact ⟨fun _ => ⟨hlook, hdrop⟩, fun h => absurd h hdrop, fun h => absurd hlook h.2⟩

/-- An accepted frame, an empty one, and one whose EtherType is zero, with empty maps. -/
theorem xdpChronosRedirect_agrees_options :
    let m : Umem := fun x => optionsFrame.bytes.getD x 0
    let filter := xdpChronosRedirect .little true m ⟨0, 51, 3⟩
    XdpMd.LooksUp ⟨0, 51, 3⟩ filter (fun _ => none) ∧
      (run (parsePacket (some 0) 0) m).1.status ∈ [.tooShortForEthernet, .tooShortForIPv4,
        .invalidIPv4Version, .invalidIPv4HeaderLength] ∧
      (run (parsePacket (some 0) 14) fun _ => 0).1.status = .nonIPv4 := by
  intro m filter
  have hat : At m 0 optionsFrame.bytes := by
    unfold At
    decide
  have hempty : At m 0 [] := rfl
  have hzero : At (fun _ => 0) 0 (List.replicate 14 0) := rfl
  have hctx : XdpMd.Holds ⟨0, 51, 3⟩ m optionsFrame.bytes := ⟨hat, by decide⟩
  have hctxEmpty : XdpMd.Holds ⟨0, 0, 3⟩ m [] := ⟨hempty, rfl⟩
  have hctxZero : XdpMd.Holds ⟨0, 14, 3⟩ (fun _ => 0) (List.replicate 14 0) := ⟨hzero, rfl⟩
  obtain ⟨haccepted, -⟩ := xdpChronosRedirect_agrees .little true (fun _ => none) hctx hat
  obtain ⟨-, hdropped, -⟩ :=
    xdpChronosRedirect_agrees .little true (fun _ => none) hctxEmpty hempty
  obtain ⟨-, -, hpassed⟩ := xdpChronosRedirect_agrees .little true (fun _ => none) hctxZero hzero
  refine ⟨(haccepted (by decide)).1, hdropped (by decide), hpassed ⟨by decide, ?_⟩⟩
  unfold XdpMd.LooksUp
  decide

end ChronosX
