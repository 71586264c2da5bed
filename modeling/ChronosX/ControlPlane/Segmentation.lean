import ChronosX.ControlPlane.Delivery
import Mathlib.Order.Bounds.Basic

/-!
# Streams with bad lengths

A header that announces more than the protocol allows is dispatched with everything that is in the
buffer: how much that is depends on the chunks that the stream arrives in. `Dispatches` says which
messages a stream comes to, given where its chunks end. Legal messages are cut by their length
fields; a bad header takes all bytes up to the end of the chunk in which it is complete. Two ways
of cutting a stream therefore give the same messages exactly when these ends agree.
-/

namespace ChronosX

open FrameFormat

/-! ### Messages and the ends of chunks -/

/-- The header announces a payload that is longer than the protocol allows. -/
def Oversized (bs : List Byte) : Prop := (readU32Be bs 8).toNat > kMaxControlPayloadBytes

/-- The positions in the stream at which its chunks end. -/
def boundaries (chunks : List Chunk) : Set ℕ :=
  {b | ∃ front, front <+: chunks ∧ (streamOf front).length = b}

/-- The message ends at the first boundary at which its header is complete. -/
def EndsFirst (B : Set ℕ) (p : ℕ) (m : List Byte) : Prop :=
  IsLeast {b | b ∈ B ∧ p + kProtocolHeaderBytes ≤ b} (p + m.length)

/-- The bytes are dispatched as the message at position `p`. -/
inductive Taken (B : Set ℕ) (p : ℕ) (m : List Byte) : Prop
  | legal (hframe : messageFormat.IsFrame m) (hlimit : m.length ≤ maxMessageBytes)
  | oversized (hheader : kProtocolHeaderBytes ≤ m.length) (hm : Oversized m)
      (hend : EndsFirst B p m)

/-- The bytes from position `p` on are dispatched as these messages. -/
inductive Dispatches (B : Set ℕ) : ℕ → List Byte → List (List Byte) → Prop
  | rest {p : ℕ} {r : List Byte} (hr : takenLength r = none) : Dispatches B p r []
  | message {p : ℕ} {m bs : List Byte} {ms : List (List Byte)} (hm : Taken B p m)
      (h : Dispatches B (p + m.length) bs ms) : Dispatches B p (m ++ bs) (m :: ms)

section

variable {B B' : Set ℕ} {p : ℕ} {m m' bs bs' : List Byte} {ms ms' : List (List Byte)}

lemma oversized_append (h : kProtocolHeaderBytes ≤ m.length) (bs : List Byte) :
    Oversized (m ++ bs) ↔ Oversized m := by
  rw [Oversized, readU32Be_append (le_trans (by decide) h), Oversized]

/-- A legal message is not oversized. -/
lemma not_oversized (hframe : messageFormat.IsFrame m) (hlimit : m.length ≤ maxMessageBytes) :
    ¬ Oversized m := by
  obtain ⟨-, hlength⟩ := messageFormat_total hframe
  rw [Oversized, gt_iff_lt, Nat.not_lt]
  rw [hlength, maxMessageBytes] at hlimit
  exact Nat.le_of_add_le_add_left hlimit

lemma takenLength_oversized (hheader : kProtocolHeaderBytes ≤ bs.length) (h : Oversized bs) :
    takenLength bs = some bs.length := by
  rw [Oversized] at h
  rw [takenLength, if_neg (Nat.not_lt.mpr hheader), if_pos h]

/-- What the loop takes from the front: everything after a bad header, or a legal message. -/
lemma takenLength_cases {n : ℕ} (h : takenLength bs = some n) :
    kProtocolHeaderBytes ≤ bs.length ∧
      (Oversized bs ∧ n = bs.length ∨
        ¬ Oversized bs ∧ messageFormat.IsFrame (bs.take n) ∧ n ≤ maxMessageBytes ∧
          n ≤ bs.length) := by
  rw [takenLength] at h
  split_ifs at h with hheader hlarge hcomplete
  · exact ⟨Nat.not_lt.mp hheader, Or.inl ⟨hlarge, (Option.some.inj h).symm⟩⟩
  · have hn := Option.some.inj h
    have hlength : (bs.take n).length = n := List.length_take_of_le (hn ▸ hcomplete)
    have hfield : readU32Be (bs.take n) 8 = readU32Be bs 8 := by
      have happend : readU32Be (bs.take n ++ bs.drop n) 8 = readU32Be (bs.take n) 8 :=
        readU32Be_append (by rw [hlength, ← hn, kProtocolHeaderBytes]; omega) _
      rw [← happend, List.take_append_drop]
    refine ⟨Nat.not_lt.mp hheader, Or.inr ⟨hlarge, ?_, ?_, hn ▸ hcomplete⟩⟩
    · rw [IsFrame, messageFormat_total_eq, hfield, hn, hlength]
      rw [hlength, ← hn]
      exact Nat.not_lt.mpr (Nat.le_add_right _ _)
    · rw [← hn, maxMessageBytes]
      exact Nat.add_le_add_left (Nat.not_lt.mp hlarge) _

lemma Taken.header_le (h : Taken B p m) : kProtocolHeaderBytes ≤ m.length := by
  cases h with
  | legal hframe _ => exact (messageFormat_total hframe).1
  | oversized hheader _ _ => exact hheader

lemma Taken.takenLength_ne (h : Taken B p m) (bs : List Byte) : takenLength (m ++ bs) ≠ none := by
  cases h with
  | legal hframe hlimit =>
    rw [takenLength_frame hframe hlimit]
    exact Option.some_ne_none _
  | oversized hheader hm _ =>
    rw [takenLength_oversized _ ((oversized_append hheader bs).mpr hm)]
    · exact Option.some_ne_none _
    · rw [List.length_append]
      exact hheader.trans (Nat.le_add_right _ _)

/-- Given the boundaries, the message at a position is determined. -/
lemma Taken.unique (h : Taken B p m) (h' : Taken B p m') (heq : m ++ bs = m' ++ bs') :
    m = m' ∧ bs = bs' := by
  have hsame : Oversized m ↔ Oversized m' := by
    rw [← oversized_append h.header_le bs, heq, oversized_append h'.header_le bs']
  cases h with
  | legal hframe hlimit =>
    cases h' with
    | legal hframe' hlimit' => exact hframe.append_inj hframe' heq
    | oversized _ hm' _ => exact absurd (hsame.mpr hm') (not_oversized hframe hlimit)
  | oversized _ hm hend =>
    cases h' with
    | legal hframe' hlimit' => exact absurd (hsame.mp hm) (not_oversized hframe' hlimit')
    | oversized _ _ hend' => exact List.append_inj heq (Nat.add_left_cancel (hend.unique hend'))

lemma Dispatches.inv (h : Dispatches B p bs' (m :: ms)) :
    Taken B p m ∧ ∃ bs, bs' = m ++ bs ∧ Dispatches B (p + m.length) bs ms := by
  cases h with
  | message hm h => exact ⟨hm, _, rfl, h⟩

lemma Dispatches.message_iff :
    Dispatches B p (m ++ bs) (m :: ms) ↔ Taken B p m ∧ Dispatches B (p + m.length) bs ms := by
  refine ⟨fun h => ?_, fun h => .message h.1 h.2⟩
  obtain ⟨hm, bs', heq, h⟩ := h.inv
  rw [List.append_cancel_left heq]
  exact ⟨hm, h⟩

/-- Given the boundaries, the messages of a stream are determined. -/
lemma Dispatches.unique (h : Dispatches B p bs ms) (h' : Dispatches B p bs ms') : ms = ms' := by
  induction h generalizing ms' with
  | rest hr =>
    cases h' with
    | rest _ => rfl
    | message hm _ => exact absurd hr (hm.takenLength_ne _)
  | @message p m bs ms hm h ih =>
    cases ms' with
    | nil =>
      generalize hbs : m ++ bs = stream at h'
      cases h' with
      | rest hr => exact absurd (hbs ▸ hr) (hm.takenLength_ne bs)
    | cons m' ms' =>
      obtain ⟨hm', bs', heq, h'⟩ := h'.inv
      obtain ⟨rfl, rfl⟩ := hm.unique hm' heq
      rw [ih h']

/-! ### Reassembly follows the boundaries -/

/-- When nothing could be taken before, the message taken now ends in what has been added, and its
header too if it is a bad one. -/
lemma takenLength_append {r more : List Byte} {n : ℕ} (hr : takenLength r = none)
    (h : takenLength (r ++ more) = some n) :
    r.length ≤ n ∧ (Oversized (r ++ more) → r.length < kProtocolHeaderBytes) := by
  obtain ⟨-, ⟨hoversized, rfl⟩ | ⟨hlegal, hframe, hlimit, -⟩⟩ := takenLength_cases h
  · refine ⟨by rw [List.length_append]; exact Nat.le_add_right _ _, fun _ => ?_⟩
    by_contra hheader
    rw [Nat.not_lt] at hheader
    rw [oversized_append hheader] at hoversized
    rw [takenLength_oversized hheader hoversized] at hr
    cases hr
  · refine ⟨?_, fun hoversized => absurd hoversized hlegal⟩
    by_contra hlong
    rw [Nat.not_le] at hlong
    rw [List.take_append_of_le_length hlong.le] at hframe
    have htaken := takenLength_frame hframe ((List.length_take_le _ _).trans hlimit) (r.drop n)
    rw [List.take_append_drop, hr] at htaken
    cases htaken

/-- The loop dispatches what is in the buffer, when the buffer ends at a boundary and the earlier
boundaries, which are at most `o`, came too early for the message at its front. -/
lemma dispatches_cutMessages {o : ℕ} (hend : p + bs.length ∈ B)
    (hB : ∀ b ∈ B, b ≤ o ∨ p + bs.length ≤ b)
    (ho : ∀ n, takenLength bs = some n →
      o ≤ p + n ∧ (Oversized bs → o < p + kProtocolHeaderBytes)) :
    Dispatches B p bs (cutMessages bs).1 := by
  induction bs using cutMessages_induction generalizing p with
  | none bs htaken =>
    rw [cutMessages_none htaken]
    exact .rest htaken
  | some bs n htaken ih =>
    obtain ⟨hheader, hcase⟩ := takenLength_cases htaken
    have hn : (bs.take n).length = n := List.length_take_of_le (takenLength_le htaken).2
    have hdrop : p + n + (bs.drop n).length = p + bs.length := by
      rw [Nat.add_assoc, ← hn, ← List.length_append, hn, List.take_append_drop]
    rw [cutMessages_some htaken]
    nth_rewrite 1 [← List.take_append_drop n bs]
    refine .message ?_ ?_
    · rcases hcase with ⟨hoversized, rfl⟩ | ⟨-, hframe, hlimit, -⟩
      · rw [List.take_length]
        refine .oversized hheader hoversized ⟨⟨hend, Nat.add_le_add_left hheader p⟩, ?_⟩
        rintro b ⟨hb, hlate⟩
        rcases hB b hb with hold | hnew
        · exact absurd (hlate.trans hold) (Nat.not_le.mpr ((ho _ htaken).2 hoversized))
        · exact hnew
      · exact .legal hframe (hn.trans_le hlimit)
    · rw [hn]
      refine ih (by rwa [hdrop]) (by rwa [hdrop]) fun n' _ => ?_
      have hold := (ho n htaken).1
      exact ⟨hold.trans (Nat.le_add_right _ _), fun _ =>
        Nat.lt_of_le_of_lt hold (Nat.lt_add_of_pos_right (by decide))⟩

/-- More bytes, and boundaries beyond the bytes so far, leave the messages so far alone. -/
lemma Dispatches.extend (h : Dispatches B p bs ms) (hsub : B ⊆ B')
    (hnew : ∀ b ∈ B', b ∈ B ∨ p + bs.length ≤ b) {r more : List Byte}
    (hr : bs = ms.flatten ++ r)
    (hmore : Dispatches B' (p + ms.flatten.length) (r ++ more) ms') :
    Dispatches B' p (bs ++ more) (ms ++ ms') := by
  induction h with
  | rest _ =>
    rw [List.flatten_nil, List.nil_append] at hr
    subst hr
    exact hmore
  | @message p m bs ms hm h ih =>
    rw [List.flatten_cons, List.append_assoc] at hr
    rw [List.length_append, ← Nat.add_assoc] at hnew
    rw [List.append_assoc, List.cons_append]
    refine .message ?_ (ih hnew (List.append_cancel_left hr) ?_)
    · cases hm with
      | legal hframe hlimit => exact .legal hframe hlimit
      | oversized hheader hm hend =>
        refine .oversized hheader hm ⟨⟨hsub hend.1.1, hend.1.2⟩, ?_⟩
        rintro b ⟨hb, hlate⟩
        rcases hnew b hb with hold | hlater
        · exact hend.2 ⟨hold, hlate⟩
        · exact (Nat.le_add_right _ _).trans hlater
    · rwa [List.flatten_cons, List.length_append, ← Nat.add_assoc] at hmore

end

lemma boundaries_append (chunks : List Chunk) (chunk : Chunk) :
    boundaries (chunks ++ [chunk]) =
      insert (streamOf (chunks ++ [chunk])).length (boundaries chunks) := by
  ext b
  simp only [boundaries, Set.mem_ofPred_eq, Set.mem_insert_iff, List.prefix_concat_iff,
    or_and_right, exists_or, exists_eq_left, eq_comm]

lemma le_of_mem_boundaries {chunks : List Chunk} {b : ℕ} (h : b ∈ boundaries chunks) :
    b ≤ (streamOf chunks).length := by
  obtain ⟨front, hfront, rfl⟩ := h
  exact (streamOf_front hfront).length_le

/-- A stream that arrives in chunks is reassembled into the messages that their ends determine. -/
lemma dispatches_reassemble (chunks : List Chunk) :
    Dispatches (boundaries chunks) 0 (streamOf chunks) (reassemble chunks).1 ∧
      takenLength (reassemble chunks).2 = none := by
  induction chunks using List.reverseRecOn with
  | nil => exact ⟨.rest rfl, rfl⟩
  | append_singleton chunks chunk ih =>
    obtain ⟨hdispatches, hrest⟩ := ih
    have hflatten := reassemble_flatten chunks
    have hstream : streamOf (chunks ++ [chunk]) = streamOf chunks ++ chunk.bytes := by
      rw [streamOf_append, streamOf_singleton]
    rw [reassemble_append]
    refine ⟨?_, takenLength_cutMessages _⟩
    generalize (reassemble chunks).1 = ms at hdispatches hflatten
    generalize (reassemble chunks).2 = r at hrest hflatten
    have hlength : (streamOf chunks).length = 0 + ms.flatten.length + r.length := by
      rw [← hflatten, List.length_append, Nat.zero_add]
    have hend : 0 + ms.flatten.length + (r ++ chunk.bytes).length =
        (streamOf (chunks ++ [chunk])).length := by
      rw [hstream, List.length_append, List.length_append, hlength, Nat.add_assoc _ r.length]
    rw [boundaries_append, hstream]
    refine hdispatches.extend (Set.subset_insert _ _) ?_ hflatten.symm ?_
    · intro b hb
      rcases Set.mem_insert_iff.mp hb with rfl | hb
      · right
        rw [List.length_append, Nat.zero_add]
        exact Nat.le_add_right _ _
      · exact Or.inl hb
    · rw [← hstream]
      refine dispatches_cutMessages (o := (streamOf chunks).length) ?_ ?_ ?_
      · rw [hend]
        exact Set.mem_insert _ _
      · intro b hb
        rw [hend]
        exact (Set.mem_insert_iff.mp hb).symm.imp le_of_mem_boundaries Eq.ge
      · intro n htaken
        obtain ⟨hle, hheader⟩ := takenLength_append hrest htaken
        rw [hlength]
        exact ⟨Nat.add_le_add_left hle _, fun h => Nat.add_lt_add_left (hheader h) _⟩

/-! ### Two ways of cutting a stream -/

instance (bs : List Byte) : Decidable (Oversized bs) :=
  inferInstanceAs (Decidable (_ > kMaxControlPayloadBytes))

/-- The first end of a chunk that is not before position `q`. -/
def firstEnd (chunks : List Chunk) (q : ℕ) : Option ℕ :=
  ((chunks.inits.map fun front => (streamOf front).length).filter (q ≤ ·)).min?

lemma firstEnd_eq_some_iff {chunks : List Chunk} {q e : ℕ} :
    firstEnd chunks q = some e ↔ IsLeast {b | b ∈ boundaries chunks ∧ q ≤ b} e := by
  simp [firstEnd, List.min?_eq_some_iff, IsLeast, lowerBounds, boundaries]

/-- The walk of a stream from position `p` on, the bytes there being `bs`, with two ways of cutting
it. A legal message is passed over by its length field. A bad header must be complete at the end of
the same chunk both times, where the walk goes on. -/
def EndAlike (chunks chunks' : List Chunk) (p : ℕ) (bs : List Byte) : Prop :=
  if bs.length < kProtocolHeaderBytes then True
  else if Oversized bs then
    firstEnd chunks (p + kProtocolHeaderBytes) = firstEnd chunks' (p + kProtocolHeaderBytes) ∧
      match _ : firstEnd chunks (p + kProtocolHeaderBytes) with
      | none   => True
      | some e => EndAlike chunks chunks' e (bs.drop (e - p))
  else if kProtocolHeaderBytes + (readU32Be bs 8).toNat ≤ bs.length then
    EndAlike chunks chunks' (p + (kProtocolHeaderBytes + (readU32Be bs 8).toNat))
      (bs.drop (kProtocolHeaderBytes + (readU32Be bs 8).toNat))
  else True
termination_by bs.length
decreasing_by
  all_goals rw [List.length_drop]
  · have hlate := (firstEnd_eq_some_iff.mp ‹firstEnd chunks _ = some _›).1.2
    simp only [kProtocolHeaderBytes] at *
    omega
  · simp only [kProtocolHeaderBytes] at *
    omega

section

variable {chunks chunks' : List Chunk} {p : ℕ} {m bs : List Byte} {ms ms' : List (List Byte)}

lemma endAlike_rest (h : takenLength bs = none) : EndAlike chunks chunks' p bs := by
  rw [takenLength] at h
  rw [EndAlike]
  split_ifs at h with hheader hlarge hcomplete
  · rw [if_pos hheader]
    trivial
  · have hlegal : ¬ Oversized bs := hlarge
    rw [if_neg hheader, if_neg hlegal, if_neg hcomplete]
    trivial

/-- One step of the walk: the message at the front under the first way of cutting has to be that
under the second. -/
lemma endAlike_message (hm : Taken (boundaries chunks) p m) (bs : List Byte) :
    EndAlike chunks chunks' p (m ++ bs) ↔
      Taken (boundaries chunks') p m ∧ EndAlike chunks chunks' (p + m.length) bs := by
  have hlength : (m ++ bs).length = m.length + bs.length := List.length_append
  have hcomplete : ¬ (m ++ bs).length < kProtocolHeaderBytes := by
    rw [hlength, Nat.not_lt]
    exact hm.header_le.trans (Nat.le_add_right _ _)
  have hsame := oversized_append hm.header_le bs
  rw [EndAlike, if_neg hcomplete]
  cases hm with
  | legal hframe hlimit =>
    have htotal := (messageFormat_total (hframe.total_append bs)).2
    rw [if_neg (fun hbad => not_oversized hframe hlimit (hsame.mp hbad)), ← htotal,
      if_pos (hlength ▸ Nat.le_add_right _ _), List.drop_left]
    exact (and_iff_right (.legal hframe hlimit)).symm
  | oversized hheader hm hend =>
    have htaken : Taken (boundaries chunks') p m ↔
        firstEnd chunks' (p + kProtocolHeaderBytes) = some (p + m.length) := by
      rw [firstEnd_eq_some_iff]
      refine ⟨fun htaken => ?_, fun hend' => .oversized hheader hm hend'⟩
      cases htaken with
      | legal hframe hlimit => exact absurd hm (not_oversized hframe hlimit)
      | oversized _ _ hend' => exact hend'
    rw [if_pos (hsame.mpr hm), firstEnd_eq_some_iff.mpr hend, htaken, eq_comm]
    dsimp only
    rw [Nat.add_sub_cancel_left, List.drop_left]

/-- The messages of a stream under the first way of cutting it are those under the second exactly
when the walk succeeds. -/
lemma Dispatches.iff_endAlike (h : Dispatches (boundaries chunks) p bs ms) :
    Dispatches (boundaries chunks') p bs ms ↔ EndAlike chunks chunks' p bs := by
  induction h with
  | rest hr => exact iff_of_true (.rest hr) (endAlike_rest hr)
  | @message p m bs ms hm h ih => rw [endAlike_message hm, ← ih, Dispatches.message_iff]

end

namespace ServerRun

variable {w w' : ServerRun} {fd fd' : ℤ}

/-- While the connection lives, the messages dispatched are those of the chunks reassembled. -/
lemma Fresh.dispatched_eq (h : w.Fresh fd) {chunks : List Chunk}
    (hall : ∀ front, front <+: chunks → (w.receive fd front).IsConnected fd) :
    ((w.receive fd chunks).session fd).dispatched = (reassemble chunks).1 := by
  obtain ⟨_, -, -, hreassembled⟩ := h.reassembled hall
  exact congrArg Prod.fst hreassembled

/-- A stream that fits the buffer does not cost the connection. -/
lemma Fresh.isConnected_of_short (h : w.Fresh fd) {chunks : List Chunk}
    (hshort : (streamOf chunks).length ≤ kControlReadBufferBytes) :
    ∀ front, front <+: chunks → (w.receive fd front).IsConnected fd := by
  rw [h.isConnected_iff]
  intro front chunk hfront
  have hflatten := congrArg List.length (reassemble_flatten front)
  have hlength := (streamOf_front hfront).length_le
  rw [List.length_append] at hflatten
  rw [streamOf_append, streamOf_singleton, List.length_append] at hlength
  omega

/-- Two connections receive one stream in chunks of their own and are never dropped, all replies
being sent. The same byte strings are dispatched on both exactly when the walk of the stream finds,
for each bad header that it comes to, that the first chunk to complete this header ends at the same
place both times. -/
theorem same_dispatch_iff (h : w.Fresh fd) (h' : w'.Fresh fd') {chunks chunks' : List Chunk}
    (hstream : streamOf chunks = streamOf chunks')
    (hall : ∀ front, front <+: chunks → (w.receive fd front).IsConnected fd)
    (hall' : ∀ front, front <+: chunks' → (w'.receive fd' front).IsConnected fd') :
    ((w.receive fd chunks).session fd).dispatched =
        ((w'.receive fd' chunks').session fd').dispatched ↔
      EndAlike chunks chunks' 0 (streamOf chunks) := by
  rw [h.dispatched_eq hall, h'.dispatched_eq hall']
  have hdispatches := (dispatches_reassemble chunks).1
  have hdispatches' := (dispatches_reassemble chunks').1
  rw [← hdispatches.iff_endAlike, hstream]
  constructor
  · intro heq
    rw [heq]
    exact hdispatches'
  · intro hboth
    exact hboth.unique hdispatches'

/-- A header that announces a payload of `2 ^ 32 - 1` bytes. -/
def badHeader : List Byte :=
  List.replicate 8 0 ++ [0xFF, 0xFF, 0xFF, 0xFF] ++ List.replicate 12 0

/-- The bad header in one chunk, its first and its last twelve bytes, and a ping right behind it. -/
def badChunk : Chunk := ⟨badHeader, by decide, by decide⟩

def badChunkFront : Chunk := ⟨badHeader.take 12, by decide, by decide⟩

def badChunkBack : Chunk := ⟨badHeader.drop 12, by decide, by decide⟩

def bothChunk : Chunk := ⟨badHeader ++ pingWith [], by decide +kernel, by decide +kernel⟩

lemma cutMessages_all {bs : List Byte} (h : takenLength bs = some bs.length) :
    cutMessages bs = ([bs], []) := by
  rw [cutMessages_some h, List.take_length, List.drop_length, cutMessages_none rfl]

lemma reassemble_badChunk : (reassemble [badChunk, pingChunk]).1 = [badHeader, pingWith []] := by
  have hbad : cutMessages badChunk.bytes = ([badHeader], []) := cutMessages_all (by decide)
  have hping : cutMessages pingChunk.bytes = ([pingWith []], []) :=
    cutMessages_all (by decide +kernel)
  simp only [reassemble, List.foldl_cons, List.foldl_nil, List.nil_append, hbad, hping,
    List.singleton_append]

/-- A bad header in one or two chunks, and then a ping: it is complete at the same place both
times, and behind it nothing can differ. -/
theorem same_dispatch_iff_badHeader :
    ((accepted.receive 5 [badChunk, pingChunk]).session 5).dispatched =
      ((accepted.receive 5 [badChunkFront, badChunkBack, pingChunk]).session 5).dispatched := by
  have hstream : streamOf [badChunk, pingChunk] =
      streamOf [badChunkFront, badChunkBack, pingChunk] := by
    simp only [streamOf, List.map_cons, List.map_nil, List.flatten_cons, badChunk, badChunkFront,
      badChunkBack, ← List.append_assoc, List.take_append_drop]
  have hall := fresh_accepted.isConnected_of_short
    (show (streamOf [badChunk, pingChunk]).length ≤ kControlReadBufferBytes by decide +kernel)
  refine (same_dispatch_iff fresh_accepted fresh_accepted hstream hall
    (fresh_accepted.isConnected_of_short (hstream ▸ by decide +kernel))).mpr ?_
  have hping : messageFormat.IsFrame (pingWith []) ∧ (pingWith []).length ≤ maxMessageBytes :=
    ⟨by rw [IsFrame]; decide +kernel, by decide +kernel⟩
  have hbad : ∀ {chunks}, firstEnd chunks 24 = some 24 → Taken (boundaries chunks) 0 badHeader :=
    fun hend => .oversized le_rfl (by decide) (firstEnd_eq_some_iff.mp hend)
  have hbytes : streamOf [badChunk, pingChunk] = badHeader ++ (pingWith [] ++ []) := rfl
  rw [hbytes, endAlike_message (hbad (by decide +kernel)),
    endAlike_message (.legal hping.1 hping.2)]
  exact ⟨hbad (by decide +kernel), .legal hping.1 hping.2, endAlike_rest rfl⟩

/-- A bad header and a ping: the ping is dispatched when it arrives in a chunk of its own, and is
lost in the bad message when both arrive in one chunk. -/
theorem ping_lost_behind_badHeader :
    streamOf [badChunk, pingChunk] = streamOf [bothChunk] ∧
    (∀ front, front <+: [badChunk, pingChunk] → (accepted.receive 5 front).IsConnected 5) ∧
    (∀ front, front <+: [bothChunk] → (accepted.receive 5 front).IsConnected 5) ∧
    ((accepted.receive 5 [badChunk, pingChunk]).session 5).dispatched =
      [badHeader, pingWith []] ∧
    ((accepted.receive 5 [bothChunk]).session 5).dispatched = [badHeader ++ pingWith []] := by
  have hall := fresh_accepted.isConnected_of_short
    (show (streamOf [badChunk, pingChunk]).length ≤ kControlReadBufferBytes by decide +kernel)
  have hall' := fresh_accepted.isConnected_of_short
    (show (streamOf [bothChunk]).length ≤ kControlReadBufferBytes by decide +kernel)
  have hboth : cutMessages bothChunk.bytes = ([badHeader ++ pingWith []], []) :=
    cutMessages_all (by decide +kernel)
  refine ⟨by simp [streamOf, badChunk, pingChunk, bothChunk], hall, hall', ?_, ?_⟩
  · rw [fresh_accepted.dispatched_eq hall, reassemble_badChunk]
  · rw [fresh_accepted.dispatched_eq hall']
    simp only [reassemble, List.foldl_cons, List.foldl_nil, List.nil_append, hboth]

end ServerRun

end ChronosX
