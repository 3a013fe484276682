import Cashew.Security.IpProtection

/-!
# Padding and taking it off

`add_padding` writes the length of the padding behind the message. `remove_padding` looks
for it in front of the last two bytes and cuts there, whatever it reads: it gets the
message back exactly where the padding is two bytes long, and then only if the message is
not too short for its last test.
-/

namespace Cashew.Theorems.TrafficPadding

open Cashew Cashew.Lib TrafficPaddingEngine

variable {draw : PaddingDraw} {message : Bytes}

/-- The engine as it is made. -/
def engine : TrafficPaddingEngine := {}

theorem addPadding_eq (draw : PaddingDraw) (message : Bytes) :
    engine.addPadding draw message =
      message ++ ([(UInt16.ofNat (calculatePaddingSize draw message.length) &&& 0xff).toUInt8,
        (UInt16.ofNat (calculatePaddingSize draw message.length) >>> 8 &&& 0xff).toUInt8] ++
        draw.generate (calculatePaddingSize draw message.length)) := by
  rw [← List.append_assoc]
  rfl

theorem addPadding_length (draw : PaddingDraw) (message : Bytes) :
    (engine.addPadding draw message).length =
      message.length + 2 + calculatePaddingSize draw message.length := by
  rw [addPadding_eq]
  simp only [List.length_append, List.length_cons, List.length_nil, PaddingDraw.generate,
    List.length_map, List.length_range]
  omega

/-- The length `remove_padding` reads. -/
def foundLength (padded : Bytes) : Nat :=
  (((padded[padded.length - 2 - 2]?).getD 0).toUInt16 |||
    ((padded[padded.length - 2 - 1]?).getD 0).toUInt16 <<< 8).toNat

/-- Where it cuts does not depend on it. -/
theorem removePadding_eq {padded : Bytes} (h : 2 ≤ padded.length) :
    engine.removePadding padded =
      if padded.length - 2 < 2 then none
      else if padded.length - 2 < 2 + foundLength padded then none
      else some (padded.take (padded.length - 2 - 2)) := by
  have hgoes : ¬ (!engine.paddingEnabled || padded.length < 2) = true := by
    simp only [engine, Bool.not_true, Bool.false_or, decide_eq_true_eq]
    omega
  unfold removePadding
  rw [if_neg hgoes]
  rfl

/-- Two bytes of padding: the length is where it is looked for. -/
theorem foundLength_of_two (h : calculatePaddingSize draw message.length = 2) :
    foundLength (engine.addPadding draw message) = 2 := by
  have hpadded := addPadding_eq draw message
  rw [h] at hpadded
  have hlow : message.length + 2 + 2 - 2 - 2 = message.length + 0 := rfl
  have hhigh : message.length + 2 + 2 - 2 - 1 = message.length + 1 := rfl
  unfold foundLength
  rw [addPadding_length, h, hpadded, hlow, hhigh, List.getElem?_append_right (Nat.le_add_right _ _),
    List.getElem?_append_right (Nat.le_add_right _ _), Nat.add_sub_cancel_left,
    Nat.add_sub_cancel_left]
  show ((UInt16.ofNat 2 &&& 0xff).toUInt8.toUInt16 |||
    (UInt16.ofNat 2 >>> 8 &&& 0xff).toUInt8.toUInt16 <<< 8).toNat = 2
  decide

/-- The message comes back exactly from two bytes of padding, if it has two bytes itself. -/
theorem removePadding_addPadding_iff :
    engine.removePadding (engine.addPadding draw message) = some message ↔
      calculatePaddingSize draw message.length = 2 ∧ 2 ≤ message.length := by
  have hlength := addPadding_length draw message
  rw [removePadding_eq (by omega)]
  constructor
  · intro hback
    split at hback
    · cases hback
    · split at hback
      · cases hback
      · rename_i hlong hfits
        have hsize := congrArg List.length (Option.some.inj hback)
        rw [List.length_take] at hsize
        have htwo : calculatePaddingSize draw message.length = 2 := by omega
        rw [foundLength_of_two htwo] at hfits
        exact ⟨htwo, by omega⟩
  · rintro ⟨htwo, hlong⟩
    have hcut : (engine.addPadding draw message).length - 2 - 2 = message.length := by omega
    rw [foundLength_of_two htwo, if_neg (by omega), if_neg (by omega), hcut, addPadding_eq,
      List.take_left]

/-- Where the padding comes to two bytes. -/
theorem calculatePaddingSize_eq_two_iff (size : Nat) :
    calculatePaddingSize draw size = 2 ↔
      size % 128 = 126 ∧ draw.randomExtra = 0 ∨ size % 128 = 127 ∧ draw.randomExtra = 1 ∨
        size % 128 = 0 ∧ draw.randomExtra = 2 := by
  have hextra : ∀ n : Fin 65, draw.randomExtra = n ↔ draw.randomExtra.val = n.val :=
    fun n => Fin.ext_iff
  rw [hextra, hextra, hextra]
  show (size + 128 - 1) / 128 * 128 - size + draw.randomExtra.val = 2 ↔
    size % 128 = 126 ∧ draw.randomExtra.val = 0 ∨ size % 128 = 127 ∧ draw.randomExtra.val = 1 ∨
      size % 128 = 0 ∧ draw.randomExtra.val = 2
  omega

/-- **Padding and taking it off.** The message comes back exactly when it is not empty and
the padding is two bytes long: two bytes short of a block without anything extra, one byte
short with one, or whole blocks with two. -/
theorem padding_round_trip_iff (draw : PaddingDraw) (message : Bytes) :
    engine.removePadding (engine.addPadding draw message) = some message ↔
      message ≠ [] ∧
        (message.length % 128 = 126 ∧ draw.randomExtra = 0 ∨
          message.length % 128 = 127 ∧ draw.randomExtra = 1 ∨
          message.length % 128 = 0 ∧ draw.randomExtra = 2) := by
  rw [removePadding_addPadding_iff, calculatePaddingSize_eq_two_iff, and_comm,
    ← List.length_pos_iff]
  refine and_congr_left fun hsize => ?_
  omega

/-- An empty message and no extra: nothing comes back. A message of one byte: what comes
back has the padding still on it. -/
theorem one_byte_not_returned :
    engine.removePadding (engine.addPadding ⟨0, fun _ => 0⟩ []) = none ∧
      engine.removePadding (engine.addPadding ⟨0, fun _ => 0⟩ [7]) ≠ some [7] := by
  decide +kernel

end Cashew.Theorems.TrafficPadding
