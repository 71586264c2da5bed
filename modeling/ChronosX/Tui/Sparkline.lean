import ChronosX.Types
import ChronosX.Library.RingLog
import Mathlib.Data.List.Induction

/-!
# The sparkline

`Sparkline` of `tui.hpp` keeps the last values in a ring. The next position and the number of values
are 64 bits wide, and a position is used again after one window.
-/

namespace ChronosX

def kSparklineWindowSize : ℕ := 60

/-- Of the positions those below `kSparklineWindowSize` exist. The type of the values is left
open: only `max_value` compares them. -/
structure Sparkline (α : Type) where
  values : ℕ → α
  writePos : UInt64
  count : UInt64

namespace Sparkline

open RingLog

variable {α : Type}

section

variable (s : Sparkline α)

def push (value : α) : Sparkline α where
  values := Function.update s.values (s.writePos.toNat % kSparklineWindowSize) value
  writePos := s.writePos + 1
  count := if s.count.toNat < kSparklineWindowSize then s.count + 1 else s.count

def size : UInt64 := s.count

variable [Zero α]

/-- The default constructor. -/
def new : Sparkline α := ⟨fun _ => 0, 0, 0⟩

/-- `at` -/
def atIndex (index : UInt64) : α :=
  if index ≥ s.count then 0
  else
    let start := if s.writePos ≥ s.count then s.writePos - s.count else 0
    s.values ((start + index).toNat % kSparklineWindowSize)

def latest : α :=
  if s.count = 0 then 0 else s.values ((s.writePos - 1).toNat % kSparklineWindowSize)

def maxValue [LT α] [DecidableLT α] : α :=
  (List.range s.count.toNat).foldl
    (fun max index =>
      let value := s.atIndex (UInt64.ofNat index)
      if value > max then value else max) 0

/-- The values pushed, one after another, on a fresh sparkline. -/
def ofValues (values : List α) : Sparkline α := values.foldl push new

end

/-- The last values of the history, as many as fit. -/
def window (history : List α) : List α := history.drop (history.length - kSparklineWindowSize)

/-- The ring holds the window of the history. -/
structure Shows (s : Sparkline α) (history : List α) : Prop where
  writePos_eq : s.writePos.toNat = history.length
  count_eq : s.count.toNat = min kSparklineWindowSize history.length
  retains : Retains (· % kSparklineWindowSize) s.values history
    (history.length - kSparklineWindowSize)

variable {s : Sparkline α} {history : List α}

/-- A value takes the place of the oldest one in a full window. -/
lemma Shows.push (hs : s.Shows history) (hlength : history.length + 1 < 2 ^ 64) (value : α) :
    (s.push value).Shows (history ++ [value]) where
  writePos_eq := by
    change (s.writePos + 1).toNat = _
    rw [UInt64.toNat_add, hs.writePos_eq, List.length_append]
    exact Nat.mod_eq_of_lt hlength
  count_eq := by
    have hcount := hs.count_eq
    simp only [Sparkline.push, List.length_append, List.length_singleton]
    split_ifs with hroom
    · rw [UInt64.toNat_add, UInt64.toNat_one, Nat.mod_eq_of_lt (by omega)]
      omega
    · omega
  retains := by
    have hfirst : history.length - kSparklineWindowSize ≤
        (history ++ [value]).length - kSparklineWindowSize := by
      rw [List.length_append]
      exact Nat.sub_le_sub_right (Nat.le_add_right _ _) _
    have hroom : history.length <
        (history ++ [value]).length - kSparklineWindowSize + kSparklineWindowSize := by
      rw [List.length_append, List.length_singleton]
      omega
    have hwritten := (hs.retains.mono hfirst).write (mod_apart kSparklineWindowSize) hroom value
    rw [← hs.writePos_eq] at hwritten
    refine hwritten.append ?_
    rw [← hs.writePos_eq]
    exact Function.update_self _ _ _

lemma Shows.length_window (hs : s.Shows history) : (window history).length = s.count.toNat := by
  rw [window, List.length_drop, hs.count_eq]
  omega

/-- The oldest value is `count_` positions behind the next one. -/
lemma Shows.start_eq (hs : s.Shows history) :
    (if s.writePos ≥ s.count then s.writePos - s.count else 0).toNat =
      history.length - kSparklineWindowSize := by
  have hwritePos := hs.writePos_eq
  have hcount := hs.count_eq
  have hle : s.count ≤ s.writePos := by
    rw [UInt64.le_iff_toNat_le]
    omega
  rw [if_pos hle, UInt64.toNat_sub_of_le _ _ hle]
  omega

section

variable [Zero α]

lemma shows_new : (new : Sparkline α).Shows [] where
  writePos_eq := rfl
  count_eq := rfl
  retains := retains_nil _ _ _

/-- The ring after a whole run. -/
lemma shows_ofValues (history : List α) (hlength : history.length < 2 ^ 64) :
    (ofValues history).Shows history := by
  induction history using List.reverseRecOn with
  | nil => exact shows_new
  | append_singleton history value ih =>
    rw [List.length_append, List.length_singleton] at hlength
    rw [ofValues, List.foldl_append]
    exact (ih (Nat.lt_of_succ_lt hlength)).push hlength value

/-- The value at `index` is the `index`-th oldest of the window. -/
lemma Shows.atIndex_eq (hs : s.Shows history) (index : UInt64) :
    s.atIndex index = (window history)[index.toNat]?.getD 0 := by
  have hlength := hs.length_window
  have hcount := hs.count_eq
  have hsize : s.writePos.toNat < 2 ^ 64 := s.writePos.toNat_lt
  rw [hs.writePos_eq] at hsize
  rw [atIndex]
  by_cases hout : index ≥ s.count
  · rw [if_pos hout, List.getElem?_eq_none (hlength ▸ hout), Option.getD_none]
  · have hlt : index.toNat < s.count.toNat := UInt64.not_le.mp hout
    obtain ⟨value, hvalue⟩ : ∃ value, (window history)[index.toNat]? = some value :=
      ⟨_, List.getElem?_eq_getElem (hlength ▸ hlt)⟩
    rw [if_neg hout, hvalue, Option.getD_some]
    rw [window, List.getElem?_drop] at hvalue
    have hindex : history.length - kSparklineWindowSize + index.toNat < 2 ^ 64 := by omega
    dsimp only
    rw [UInt64.toNat_add, hs.start_eq, Nat.mod_eq_of_lt hindex]
    exact hs.retains _ _ (Nat.le_add_right _ _) hvalue

lemma Shows.latest_eq (hs : s.Shows history) : s.latest = history.getLast?.getD 0 := by
  have hwritePos := hs.writePos_eq
  have hcount := hs.count_eq
  rw [latest]
  cases history using List.reverseRecOn with
  | nil =>
    have hzero : s.count = 0 := UInt64.toNat_inj.mp hcount
    rw [if_pos hzero]
    rfl
  | append_singleton history value =>
    rw [List.length_append, List.length_singleton] at hwritePos hcount
    have hpos : s.count ≠ 0 := by
      intro hzero
      rw [hzero, UInt64.toNat_zero, kSparklineWindowSize] at hcount
      omega
    have hle : (1 : UInt64) ≤ s.writePos := by
      rw [UInt64.le_iff_toNat_le, hwritePos, UInt64.toNat_one]
      exact Nat.le_add_left 1 _
    have hlast : (s.writePos - 1).toNat = history.length := by
      rw [UInt64.toNat_sub_of_le _ _ hle, hwritePos, UInt64.toNat_one, Nat.add_sub_cancel]
    rw [if_neg hpos, List.getLast?_concat, Option.getD_some, hlast]
    refine hs.retains _ _ ?_ List.getElem?_concat_length
    rw [List.length_append, List.length_singleton, kSparklineWindowSize]
    omega

/-- The values in the order of their indices are the window. -/
lemma Shows.map_atIndex (hs : s.Shows history) :
    (List.range s.count.toNat).map (fun index => s.atIndex (UInt64.ofNat index)) =
      window history := by
  refine List.ext_getElem (by rw [List.length_map, List.length_range, hs.length_window]) ?_
  intro index hindex hwindow
  have hlt : index < 2 ^ 64 := by
    rw [hs.length_window] at hwindow
    exact hwindow.trans s.count.toNat_lt
  rw [List.getElem_map, List.getElem_range, hs.atIndex_eq, UInt64.toNat_ofNat_of_lt' hlt,
    List.getElem?_eq_getElem hwindow, Option.getD_some]

/-- The loop of `max_value` goes through the window. -/
lemma Shows.maxValue_eq [LT α] [DecidableLT α] (hs : s.Shows history) :
    s.maxValue = (window history).foldl (fun max value => if value > max then value else max) 0 := by
  rw [← hs.map_atIndex, List.foldl_map]
  rfl

/-- A sparkline shows the last 60 values, oldest first, after any number of pushes below 2⁶⁴; an
index behind them gives zero. `latest` is the last value pushed and `max_value` the largest of the
window, if that is positive. -/
theorem sparkline_window [LT α] [DecidableLT α] (history : List α)
    (hlength : history.length < 2 ^ 64) :
    (ofValues history).size.toNat = min kSparklineWindowSize history.length ∧
    (∀ index, (ofValues history).atIndex index = (window history)[index.toNat]?.getD 0) ∧
    (ofValues history).latest = history.getLast?.getD 0 ∧
    (ofValues history).maxValue =
      (window history).foldl (fun max value => if value > max then value else max) 0 := by
  have hs := shows_ofValues history hlength
  exact ⟨hs.count_eq, hs.atIndex_eq, hs.latest_eq, hs.maxValue_eq⟩

end

/-- Of the first hundred numbers the last sixty are shown. -/
theorem sparkline_window_hundred :
    (ofValues (List.range 100)).atIndex 0 = 40 ∧ (ofValues (List.range 100)).latest = 99 := by
  obtain ⟨-, hat, hlatest, -⟩ := sparkline_window (List.range 100) (by decide)
  exact ⟨hat 0, hlatest⟩

end Sparkline

end ChronosX
