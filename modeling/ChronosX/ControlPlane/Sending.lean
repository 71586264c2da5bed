import ChronosX.Types

/-!
# Sending a reply

`send_all` of `control_plane.hpp` hands the bytes of a reply to the socket in as many calls of
`send` as it takes. What the calls return is an argument. The offset that the loop has reached says
which bytes the socket has taken.
-/

namespace ChronosX

/-- What a call of `send` returns: it takes bytes, it is interrupted, or it fails otherwise. -/
inductive SendResult where
  | sent (count : ℕ)
  | interrupted
  | failed

/-- The loop of `send_all`: whether all bytes are sent, and the offset reached, or `none` if the
loop goes on after these results. -/
def sendAllLoop (bytes : List Byte) : List SendResult → (offset : ℕ) → Option (Bool × ℕ)
  | results, offset =>
    if offset < bytes.length then
      match results with
      | []                      => none
      | .interrupted :: results => sendAllLoop bytes results offset
      | .failed :: _            => some (false, offset)
      | .sent count :: results  =>
        if count = 0 then some (false, offset) else sendAllLoop bytes results (offset + count)
    else some (true, offset)

def sendAll (bytes : List Byte) (results : List SendResult) : Option (Bool × ℕ) :=
  sendAllLoop bytes results 0

lemma sendAllLoop_spec {bytes : List Byte} {results : List SendResult} {offset : ℕ} {ok : Bool}
    {reached : ℕ} (h : sendAllLoop bytes results offset = some (ok, reached)) :
    ok = true ↔ bytes.length ≤ reached := by
  induction results generalizing offset with
  | nil =>
    unfold sendAllLoop at h
    split_ifs at h with hmore
    obtain ⟨rfl, rfl⟩ := Prod.mk.inj (Option.some.inj h)
    exact iff_of_true rfl (Nat.le_of_not_lt hmore)
  | cons result results ih =>
    unfold sendAllLoop at h
    split_ifs at h with hmore
    case neg =>
      obtain ⟨rfl, rfl⟩ := Prod.mk.inj (Option.some.inj h)
      exact iff_of_true rfl (Nat.le_of_not_lt hmore)
    cases result with
    | interrupted => exact ih h
    | failed =>
      obtain ⟨rfl, rfl⟩ := Prod.mk.inj (Option.some.inj h)
      exact iff_of_false Bool.false_ne_true (Nat.not_le_of_lt hmore)
    | sent count =>
      dsimp only at h
      split_ifs at h with hzero
      · obtain ⟨rfl, rfl⟩ := Prod.mk.inj (Option.some.inj h)
        exact iff_of_false Bool.false_ne_true (Nat.not_le_of_lt hmore)
      · exact ih h

/-- `send_all` succeeds exactly if the socket has taken every byte. -/
lemma sendAll_spec {bytes : List Byte} {results : List SendResult} {ok : Bool} {reached : ℕ}
    (h : sendAll bytes results = some (ok, reached)) :
    ok = true ↔ bytes.take reached = bytes := by
  rw [sendAllLoop_spec h]
  refine ⟨List.take_of_length_le, fun htaken => ?_⟩
  rw [← htaken]
  exact List.length_take_le _ _

/-- One call of `send` can be enough. -/
lemma sendAll_once {bytes : List Byte} (h : 0 < bytes.length) :
    sendAll bytes [.sent bytes.length] = some (true, bytes.length) := by
  rw [sendAll, sendAllLoop, if_pos h, if_neg (Nat.ne_of_gt h), Nat.zero_add, sendAllLoop,
    if_neg (Nat.lt_irrefl _)]

end ChronosX
