import Mathlib.Tactic.Common
import Mathlib.Data.List.Basic
import Mathlib.Algebra.Order.Ring.Nat

/-!
# Streams of self-delimiting frames

A frame says its own length once enough of it is there. A stream of such frames is cut at these
lengths into complete frames and a rest that is not complete yet. The cut of a stream is unique,
and it does not depend on the pieces the stream arrives in: the rest together with what arrives
next is cut into what the longer stream adds (`Cuts.split`).
-/

/-- How the length of the first frame of a stream is known from its first elements. -/
structure FrameFormat (α : Type) where
  total : List α → Option ℕ
  total_append : ∀ {bs n}, total bs = some n → ∀ more, total (bs ++ more) = some n

namespace FrameFormat

variable {α : Type} (fmt : FrameFormat α)

def IsFrame (f : List α) : Prop := fmt.total f = some f.length

/-- There is no complete frame at the front. -/
def Incomplete (bs : List α) : Prop := ∀ n, fmt.total bs = some n → bs.length < n

/-- The frame at the front, if its length is known, is no longer than `limit`. -/
def Within (limit : ℕ) (bs : List α) : Prop := ∀ n, fmt.total bs = some n → n ≤ limit

/-- A stream, the complete frames at its front, and the rest. -/
inductive Cuts : List α → List (List α) → List α → Prop
  | rest {r : List α} (hr : fmt.Incomplete r) : Cuts r [] r
  | frame {f bs r : List α} {frames : List (List α)} (hf : fmt.IsFrame f) (h : Cuts bs frames r) :
      Cuts (f ++ bs) (f :: frames) r

variable {fmt} {bs bs' r r' f : List α} {frames frames' : List (List α)}

lemma IsFrame.total_append (hf : fmt.IsFrame f) (more : List α) :
    fmt.total (f ++ more) = some f.length := fmt.total_append hf more

/-- What starts with a frame is not incomplete. -/
lemma IsFrame.not_incomplete (hf : fmt.IsFrame f) (more : List α) :
    ¬ fmt.Incomplete (f ++ more) := by
  intro h
  have hlength := h _ (hf.total_append more)
  rw [List.length_append] at hlength
  omega

/-- A stream has one frame at its front. -/
lemma IsFrame.append_inj {f' : List α} (hf : fmt.IsFrame f) (hf' : fmt.IsFrame f')
    (h : f ++ bs = f' ++ bs') : f = f' ∧ bs = bs' := by
  have hlength : f.length = f'.length := by
    have htotal := hf.total_append bs
    rw [h, hf'.total_append bs'] at htotal
    exact (Option.some.inj htotal).symm
  exact List.append_inj h hlength

lemma incomplete_of_total_none (h : fmt.total bs = none) : fmt.Incomplete bs := by
  intro n hn
  rw [h] at hn
  cases hn

lemma within_of_total_none {limit : ℕ} (h : fmt.total bs = none) : fmt.Within limit bs := by
  intro n hn
  rw [h] at hn
  cases hn

lemma Within.of_front {limit : ℕ} (h : fmt.Within limit bs) (hfront : bs' <+: bs) :
    fmt.Within limit bs' := by
  intro n hn
  obtain ⟨more, rfl⟩ := hfront
  exact h n (fmt.total_append hn more)

lemma Incomplete.of_front (h : fmt.Incomplete bs) (hfront : bs' <+: bs) :
    fmt.Incomplete bs' := by
  intro n hn
  obtain ⟨more, rfl⟩ := hfront
  have hlength := h n (fmt.total_append hn more)
  rw [List.length_append] at hlength
  omega

lemma Within.mono {limit limit' : ℕ} (h : fmt.Within limit bs) (hle : limit ≤ limit') :
    fmt.Within limit' bs := fun n hn => Nat.le_trans (h n hn) hle

/-- The pieces of a stream are within the limit when its frames are no longer. -/
lemma within_of_mem {limit : ℕ} {p : List α}
    (hframes : ∀ f ∈ frames, fmt.IsFrame f ∧ f.length ≤ limit) (hp : fmt.Within limit p) :
    ∀ g ∈ frames ++ [p], fmt.Within limit g := by
  intro g hg
  rcases List.mem_append.mp hg with hg | hg
  · intro n hn
    rw [(hframes g hg).1] at hn
    rw [← Option.some.inj hn]
    exact (hframes g hg).2
  · rw [List.mem_singleton.mp hg]
    exact hp

/-- A proper prefix of a frame is incomplete. -/
lemma IsFrame.incomplete_of_front (hf : fmt.IsFrame f) (hfront : bs <+: f)
    (hlength : bs.length < f.length) : fmt.Incomplete bs := by
  intro n hn
  obtain ⟨more, rfl⟩ := hfront
  have htotal : fmt.total (bs ++ more) = some n := fmt.total_append hn more
  rw [hf] at htotal
  rwa [← Option.some.inj htotal]

namespace Cuts

lemma incomplete (h : fmt.Cuts bs frames r) : fmt.Incomplete r := by
  induction h with
  | rest hr => exact hr
  | frame _ _ ih => exact ih

/-- The cut of a stream is unique. -/
lemma unique (h : fmt.Cuts bs frames r) (h' : fmt.Cuts bs frames' r') :
    frames = frames' ∧ r = r' := by
  induction h generalizing frames' with
  | rest hr =>
    cases h' with
    | rest hr' => exact ⟨rfl, rfl⟩
    | frame hf' _ => exact absurd hr (hf'.not_incomplete _)
  | @frame f bs r frames hf _ ih =>
    generalize hstream : f ++ bs = stream at h'
    cases h' with
    | rest hr' =>
      subst hstream
      exact absurd hr' (hf.not_incomplete _)
    | frame hf' h'' =>
      obtain ⟨rfl, rfl⟩ := hf.append_inj hf' hstream
      obtain ⟨hframes, hr⟩ := ih h''
      exact ⟨by rw [hframes], hr⟩

/-- Complete frames are all in the cut. -/
lemma flatten (hframes : ∀ f ∈ frames, fmt.IsFrame f) (h : fmt.Cuts bs frames' r) :
    fmt.Cuts (frames.flatten ++ bs) (frames ++ frames') r := by
  induction frames with
  | nil => exact h
  | cons f frames ih =>
    rw [List.flatten_cons, List.append_assoc]
    exact .frame (hframes f (by simp)) (ih fun g hg => hframes g (by simp [hg]))

/-- The cut of a longer stream continues that of its front. -/
lemma split (h : fmt.Cuts bs frames r) (h' : fmt.Cuts (bs ++ bs') frames' r') :
    ∃ next, frames' = frames ++ next ∧ fmt.Cuts (r ++ bs') next r' := by
  induction h generalizing frames' with
  | rest _ => exact ⟨frames', rfl, h'⟩
  | @frame f bs r frames hf _ ih =>
    rw [List.append_assoc] at h'
    generalize hstream : f ++ (bs ++ bs') = stream at h'
    cases h' with
    | rest hr' =>
      subst hstream
      exact absurd hr' (hf.not_incomplete _)
    | frame hf' h'' =>
      obtain ⟨rfl, rfl⟩ := hf.append_inj hf' hstream
      obtain ⟨next, rfl, hnext⟩ := ih h''
      exact ⟨next, rfl, hnext⟩

end Cuts

/-- The number of elements that belong to no complete frame, of the first `n` elements of a stream
of frames with these lengths. -/
def unfinished : List ℕ → ℕ → ℕ
  | [], n                => n
  | length :: lengths, n => if length ≤ n then unfinished lengths (n - length) else n

/-- Frames of at most `limit + 1` elements leave at most `limit` elements unfinished. -/
lemma unfinished_le {lengths : List ℕ} {limit n : ℕ}
    (h : ∀ length ∈ lengths, length ≤ limit + 1) (hn : n ≤ lengths.sum) :
    unfinished lengths n ≤ limit := by
  induction lengths generalizing n with
  | nil => exact Nat.le_trans hn (Nat.zero_le _)
  | cons length lengths ih =>
    rw [List.forall_mem_cons] at h
    rw [List.sum_cons] at hn
    rw [unfinished]
    split_ifs with hlength
    · exact ih h.2 (by omega)
    · exact Nat.le_of_lt_succ (Nat.lt_of_lt_of_le (Nat.not_le.mp hlength) h.1)

/-- What has arrived of a frame is unfinished until all of it has. -/
lemma unfinished_of_lt (before : List ℕ) {length k : ℕ} (after : List ℕ) (hk : k < length) :
    unfinished (before ++ length :: after) (before.sum + k) = k := by
  induction before with
  | nil => rw [List.nil_append, List.sum_nil, Nat.zero_add, unfinished, if_neg (Nat.not_le.mpr hk)]
  | cons first before ih =>
    rw [List.cons_append, unfinished, List.sum_cons, Nat.add_assoc,
      if_pos (Nat.le_add_right _ _), Nat.add_sub_cancel_left, ih]

/-- What has arrived of a stream is cut into the first of its frames and a prefix of what comes
next. -/
lemma exists_cuts_of_front {p : List α} (hframes : ∀ f ∈ frames, fmt.IsFrame f)
    (hp : fmt.Incomplete p) (hbs : bs <+: frames.flatten ++ p) :
    ∃ frames' r, fmt.Cuts bs frames' r ∧ frames' <+: frames ∧ (∃ g ∈ frames ++ [p], r <+: g) ∧
      r.length = unfinished (frames.map List.length) bs.length := by
  induction frames generalizing bs with
  | nil => exact ⟨[], bs, .rest (hp.of_front hbs), List.nil_prefix, ⟨p, by simp, hbs⟩, rfl⟩
  | cons f frames ih =>
    have hf : fmt.IsFrame f := hframes f (by simp)
    rw [List.flatten_cons, List.append_assoc] at hbs
    simp only [List.map_cons, unfinished]
    by_cases hlength : f.length ≤ bs.length
    · -- The first frame has arrived.
      obtain ⟨bs', rfl⟩ := List.prefix_of_prefix_length_le (List.prefix_append f _) hbs hlength
      rw [List.prefix_append_right_inj] at hbs
      obtain ⟨frames', r, hcuts, hfront, ⟨g, hg, hr⟩, hrest⟩ :=
        ih (fun g hg => hframes g (by simp [hg])) hbs
      refine ⟨f :: frames', r, .frame hf hcuts, (List.prefix_cons_inj f).mpr hfront,
        ⟨g, List.mem_cons_of_mem f hg, hr⟩, ?_⟩
      rw [if_pos hlength, hrest, List.length_append, Nat.add_sub_cancel_left]
    · have hfront : bs <+: f :=
        List.prefix_of_prefix_length_le hbs (List.prefix_append f _) (by omega)
      refine ⟨[], bs, .rest (hf.incomplete_of_front hfront (by omega)), List.nil_prefix,
        ⟨f, by simp, hfront⟩, ?_⟩
      rw [if_neg hlength]

end FrameFormat
