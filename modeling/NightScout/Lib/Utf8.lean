import Mathlib.Data.UInt

/-!
# UTF-8 with replacement

Bytes are read as text, and where they are no text a replacement character stands for them, or nothing: one for every
longest start of a character that is not finished. What text is written as is read as that text.
-/

namespace NightScout.Lib

def utf8Encode (text : List Char) : List UInt8 := text.flatMap String.utf8EncodeChar

/-- U+FFFD. -/
def replacementChar : Char := '\uFFFD'

def isContinuation (b : UInt8) : Bool := 0x80 ≤ b && b ≤ 0xBF

/-- Whether `b` may follow the first byte `a` of three or four. -/
def isSecond (a b : UInt8) : Bool :=
  if a = 0xE0 then 0xA0 ≤ b && b ≤ 0xBF
  else if a = 0xED then 0x80 ≤ b && b ≤ 0x9F
  else if a = 0xF0 then 0x90 ≤ b && b ≤ 0xBF
  else if a = 0xF4 then 0x80 ≤ b && b ≤ 0x8F
  else isContinuation b

/-- The number of bytes that a replacement character stands for, where no character starts. -/
def brokenLength : List UInt8 → ℕ
  | [] => 0
  | a :: rest =>
    if 0xE0 ≤ a && a ≤ 0xF4 then
      match rest with
      | [] => 1
      | b :: rest =>
        if isSecond a b then
          match rest with
          | [] => 2
          | c :: _ => if 0xF0 ≤ a && isContinuation c then 3 else 2
        else 1
    else 1

/-- The character that the bytes start with. -/
def firstChar (bytes : List UInt8) : Option Char := bytes.toByteArray.utf8DecodeChar? 0

/-- The text after some bytes that are already read. -/
def utf8DecodeFrom : ℕ → List UInt8 → List Char
  | _, [] => []
  | read + 1, _ :: rest => utf8DecodeFrom read rest
  | 0, b :: rest =>
    match firstChar (b :: rest) with
    | some c => c :: utf8DecodeFrom (c.utf8Size - 1) rest
    | none => replacementChar :: utf8DecodeFrom (brokenLength (b :: rest) - 1) rest

def utf8Decode (bytes : List UInt8) : List Char := utf8DecodeFrom 0 bytes

/-- The text with `errors="ignore"`, after some bytes that are already read: what is no text is left out. -/
def utf8IgnoreFrom : ℕ → List UInt8 → List Char
  | _, [] => []
  | read + 1, _ :: rest => utf8IgnoreFrom read rest
  | 0, b :: rest =>
    match firstChar (b :: rest) with
    | some c => c :: utf8IgnoreFrom (c.utf8Size - 1) rest
    | none => utf8IgnoreFrom (brokenLength (b :: rest) - 1) rest

def utf8Ignore (bytes : List UInt8) : List Char := utf8IgnoreFrom 0 bytes

theorem utf8DecodeFrom_append (front rest : List UInt8) :
    utf8DecodeFrom front.length (front ++ rest) = utf8Decode rest := by
  induction front with
  | nil => rfl
  | cons b front ih => exact ih

theorem firstChar_encoded (c : Char) (rest : List UInt8) : firstChar (String.utf8EncodeChar c ++ rest) = some c := by
  rw [firstChar, List.toByteArray_append]
  exact ByteArray.utf8DecodeChar?_utf8EncodeChar_append

theorem utf8Decode_char (c : Char) (rest : List UInt8) :
    utf8Decode (String.utf8EncodeChar c ++ rest) = c :: utf8Decode rest := by
  have hfirst := firstChar_encoded c rest
  have hlength := String.length_utf8EncodeChar c
  cases hbytes : String.utf8EncodeChar c with
  | nil => exact absurd hbytes String.utf8EncodeChar_ne_nil
  | cons b bytes =>
    rw [hbytes] at hfirst hlength
    simp only [List.cons_append] at hfirst ⊢
    simp only [utf8Decode, utf8DecodeFrom, hfirst, List.cons.injEq, true_and]
    rw [← hlength, List.length_cons, Nat.add_sub_cancel]
    exact utf8DecodeFrom_append bytes rest

/-- **What is written is read.** -/
theorem utf8Decode_encode (text : List Char) : utf8Decode (utf8Encode text) = text := by
  induction text with
  | nil => rfl
  | cons c text ih =>
    rw [utf8Encode, List.flatMap_cons, utf8Decode_char]
    exact congrArg (c :: ·) ih

/-- An ASCII character is its own byte. -/
theorem utf8EncodeChar_ascii {c : Char} (h : c.toNat < 128) : String.utf8EncodeChar c = [UInt8.ofNat c.toNat] := by
  have hval : c.val ≤ 127 := by
    rw [UInt32.le_iff_toNat_le]
    exact Nat.le_of_lt_succ h
  rw [String.utf8EncodeChar_eq_singleton (Char.utf8Size_eq_one_iff.mpr hval)]
  rfl

example : utf8Decode [0x63, 0xC3, 0xA9, 0xE2, 0x82, 0xFF, 0x2E] = ['c', 'é', '\uFFFD', '\uFFFD', '.'] := by
  decide +kernel

end NightScout.Lib
