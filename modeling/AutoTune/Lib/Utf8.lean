import Mathlib.Data.List.Basic
import Mathlib.Tactic.Common

/-!
# UTF-8

The bytes of a text, and what a decoder that ignores errors reads of any bytes. Whatever it reads takes no more bytes
than there were.
-/

namespace AutoTune.Lib

/-- `text.encode("utf-8")`. -/
def utf8 (cs : List Char) : List UInt8 := cs.flatMap String.utf8EncodeChar

/-- The character that begins with the first byte. -/
def decodeFirst (bs : List UInt8) : Option Char := ByteArray.utf8DecodeChar? ⟨bs.toArray⟩ 0

/-- What is read behind the bytes of a character that is read already. -/
def decodeFrom : Nat → List UInt8 → List Char
  | _, [] => []
  | skip + 1, _ :: bs => decodeFrom skip bs
  | 0, b :: bs =>
      match decodeFirst (b :: bs) with
      | some c => c :: decodeFrom (c.utf8Size - 1) bs
      | none => decodeFrom 0 bs

/-- `data.decode("utf-8", errors="ignore")`. -/
def decodeIgnore (bs : List UInt8) : List Char := decodeFrom 0 bs

theorem utf8_append (cs ds : List Char) : utf8 (cs ++ ds) = utf8 cs ++ utf8 ds := List.flatMap_append

theorem utf8_length_cons (c : Char) (cs : List Char) : (utf8 (c :: cs)).length = c.utf8Size + (utf8 cs).length := by
  rw [utf8, List.flatMap_cons, List.length_append, String.length_utf8EncodeChar, ← utf8]

theorem utf8_length_append (cs ds : List Char) :
    (utf8 (cs ++ ds)).length = (utf8 cs).length + (utf8 ds).length := by
  rw [utf8_append, List.length_append]

theorem utf8_length_take (n : Nat) (cs : List Char) : (utf8 (cs.take n)).length ≤ (utf8 cs).length := by
  have hsplit : (utf8 cs).length = (utf8 (cs.take n)).length + (utf8 (cs.drop n)).length := by
    rw [← utf8_length_append, List.take_append_drop]
  omega

theorem decodeFirst_size {bs : List UInt8} {c : Char} (h : decodeFirst bs = some c) : c.utf8Size ≤ bs.length := by
  have hsize : 0 + c.utf8Size ≤ bs.toArray.size := ByteArray.le_size_of_utf8DecodeChar?_eq_some h
  simpa using hsize

theorem utf8_decodeFrom (skip : Nat) (bs : List UInt8) : (utf8 (decodeFrom skip bs)).length ≤ bs.length - skip := by
  fun_induction decodeFrom skip bs with
  | case1 skip => simp [utf8]
  | case2 skip b bs ih =>
      rw [List.length_cons]
      omega
  | case3 b bs c hc ih =>
      -- the character's own bytes, and what is read behind them
      have hsize := decodeFirst_size hc
      have hpos := c.utf8Size_pos
      rw [List.length_cons] at hsize ⊢
      rw [utf8_length_cons]
      omega
  | case4 b bs hnone ih =>
      rw [List.length_cons]
      omega

theorem utf8_decodeIgnore (bs : List UInt8) : (utf8 (decodeIgnore bs)).length ≤ bs.length := utf8_decodeFrom 0 bs

end AutoTune.Lib
