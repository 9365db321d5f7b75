/-
The base-58 text of a byte string.

A string is read as one big-endian number and written with the digits of that
number; as a number forgets the zeros it starts with, each leading zero byte is
written as a `1`, the digit zero. Read as a number again, the text gives back
the number of the string (`Base58.value_encode`), so among strings of one length
the text determines the string.
-/
import Mathlib.Data.Nat.Digits.Defs
import Zkp2pSolana.Lib.BigEndian

set_option autoImplicit false

namespace Base58

/-- The digits, without the characters that are read as one another. -/
def alphabet : List Char :=
  ['1', '2', '3', '4', '5', '6', '7', '8', '9', 'A', 'B', 'C', 'D', 'E', 'F', 'G', 'H', 'J', 'K',
    'L', 'M', 'N', 'P', 'Q', 'R', 'S', 'T', 'U', 'V', 'W', 'X', 'Y', 'Z', 'a', 'b', 'c', 'd', 'e',
    'f', 'g', 'h', 'i', 'j', 'k', 'm', 'n', 'o', 'p', 'q', 'r', 's', 't', 'u', 'v', 'w', 'x', 'y',
    'z']

/-- The character of a digit. -/
def to_char (digit : ℕ) : Char := alphabet.getD digit '1'

/-- The digit of a character. -/
def of_char (c : Char) : ℕ := alphabet.idxOf c

theorem of_char_to_char {digit : ℕ} (h : digit < 58) : of_char (to_char digit) = digit := by
  have hdistinct : alphabet.Nodup := by decide
  have hindex : digit < alphabet.length := h
  unfold of_char to_char
  rw [List.getD_eq_getElem?_getD, List.getElem?_eq_getElem hindex, Option.getD_some]
  exact hdistinct.idxOf_getElem digit hindex

/-- The text of a byte string. -/
def encode (bytes : List UInt8) : List Char :=
  List.replicate (bytes.takeWhile (· = 0)).length '1'
    ++ (Nat.digits 58 (of_be_bytes bytes)).reverse.map to_char

/-- The number a text denotes. -/
def value (text : List Char) : ℕ := Nat.ofDigits 58 (text.reverse.map of_char)

/-- Encoding keeps the number: the characters, read in base 58, are worth what the bytes are worth
in base 256. -/
theorem value_encode (bytes : List UInt8) : value (encode bytes) = of_be_bytes bytes := by
  have hdigits : ((Nat.digits 58 (of_be_bytes bytes)).map to_char).map of_char
      = Nat.digits 58 (of_be_bytes bytes) := by
    rw [List.map_map]
    have hsame : ∀ digit ∈ Nat.digits 58 (of_be_bytes bytes),
        (of_char ∘ to_char) digit = id digit := by
      intro digit hdigit
      exact of_char_to_char (Nat.digits_lt_base (by decide) hdigit)
    rw [List.map_congr_left hsame, List.map_id]
  have hzero : of_char '1' = 0 := by decide
  unfold value encode
  rw [List.reverse_append, ← List.map_reverse, List.reverse_reverse, List.reverse_replicate,
    List.map_append, List.map_replicate, hzero, hdigits, Nat.ofDigits_append_replicate_zero,
    Nat.ofDigits_digits]

/-- The text determines the string, among strings of one length. -/
theorem encode_injective {a b : List UInt8} (hlength : a.length = b.length)
    (h : encode a = encode b) : a = b := by
  apply of_be_bytes_injective hlength
  rw [← value_encode a, h, value_encode b]

end Base58
