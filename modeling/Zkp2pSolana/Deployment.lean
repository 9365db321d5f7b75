/-
`deployment/src/lib.rs`: the off-chain witness parser, and the strings it accepts.

`parse_witness` cuts the text after an optional `0x` into twenty slices of two
bytes and hands each to the integer parser of the standard library. That parser
also takes a leading `+`, so besides forty digits a slice may be a sign and one
digit; such a text is read as if the sign were a zero. On every other text the
parser accepts exactly forty hexadecimal digits and returns the bytes they
denote.
-/
import Zkp2pSolana.Lib.Result
import Zkp2pSolana.Lib.Str

set_option autoImplicit false

namespace Zkp2pSolana

open Result

/-! ## The parser -/

/-- One turn of the loop of `parse_witness`. -/
def witness_byte (raw : List Char) (index : ℕ) : Except String UInt8 := do
  let start ← ok_or (Checked.mul 64 index 2) "witness index overflow"
  let stop ← ok_or (Checked.add 64 start 2) "witness index overflow"
  -- there is no slice where a character of several bytes is cut
  let pair ← ok_or (Str.get raw start stop) "witness must be valid UTF-8 hex"
  let byte ← ok_or (Str.from_str_radix pair) "witness must be hexadecimal"
  return UInt8.ofNat byte

/-- The loop over the destination bytes, from `index` on. -/
def witness_bytes (raw : List Char) (index : ℕ) : ℕ → Except String (List UInt8)
  | 0 => .ok []
  | count + 1 => do
    let byte ← witness_byte raw index
    let rest ← witness_bytes raw (index + 1) count
    return byte :: rest

/-- Parses one 20-byte Ethereum address. -/
def parse_witness (value : List Char) : Except String (Bytes 20) := do
  let raw := Str.strip_0x value
  require (Str.len raw = 40) "witness must contain exactly 20 bytes"
  let bytes ← witness_bytes raw 0 20
  return Bytes.ofList 20 bytes

/-! ## One pair of characters -/

/-- The first character of a pair: a digit, or the sign that counts for nothing. -/
def leading_digit (c : Char) : Option ℕ := if c = '+' then some 0 else Str.to_digit c

/-- What can begin a pair is one byte long, so the slices of the source fall between characters. -/
theorem leading_digit_size {c : Char} {d : ℕ} (h : leading_digit c = some d) : c.utf8Size = 1 := by
  unfold leading_digit at h
  split_ifs at h with hplus
  · rw [hplus]
    decide
  · exact (Str.of_to_digit h).size

/-- The integer parser on two characters. -/
theorem from_str_radix_pair {a b : Char} {n : ℕ} :
    Str.from_str_radix [a, b] = some n ↔
      ∃ high low, leading_digit a = some high ∧ Str.to_digit b = some low ∧ n = 16 * high + low := by
  -- a leading plus is dropped, and then one digit is left to read
  by_cases hplus : a = '+'
  · subst hplus
    simp only [Str.from_str_radix, Str.digits_u8, leading_digit, if_true, Option.bind_eq_bind,
      Option.bind_eq_some_iff, Checked.mul_eq_some, Checked.add_eq_some, Option.some.injEq]
    constructor
    · rintro ⟨_, ⟨-, rfl⟩, low, hlow, _, ⟨-, rfl⟩, rfl⟩
      exact ⟨0, low, rfl, hlow, by omega⟩
    · rintro ⟨_, low, rfl, hlow, rfl⟩
      have hlt := (Str.of_to_digit hlow).lt
      exact ⟨0, ⟨by decide, rfl⟩, low, hlow, low, ⟨by omega, by omega⟩, by omega⟩
  -- otherwise both characters are digits, and the checked arithmetic never leaves the byte
  · have hradix : Str.from_str_radix [a, b] = Str.digits_u8 0 [a, b] := by
      unfold Str.from_str_radix
      split
      · rename_i heq
        cases heq
      · rename_i heq
        cases heq
      · rename_i heq
        cases heq
      · rename_i heq
        cases heq
        exact absurd rfl hplus
      · rfl
    simp only [hradix, Str.digits_u8, leading_digit, if_neg hplus, Option.bind_eq_bind,
      Option.bind_eq_some_iff, Checked.mul_eq_some, Checked.add_eq_some, Option.some.injEq]
    constructor
    · rintro ⟨_, ⟨-, rfl⟩, high, hhigh, _, ⟨-, rfl⟩, _, ⟨-, rfl⟩, low, hlow, _, ⟨-, rfl⟩, rfl⟩
      exact ⟨high, low, hhigh, hlow, by omega⟩
    · rintro ⟨high, low, hhigh, hlow, rfl⟩
      have hhigh' := (Str.of_to_digit hhigh).lt
      have hlow' := (Str.of_to_digit hlow).lt
      exact ⟨0, ⟨by decide, rfl⟩, high, hhigh, high, ⟨by omega, by omega⟩, high * 16,
        ⟨by omega, rfl⟩, low, hlow, 16 * high + low, ⟨by omega, by omega⟩, rfl⟩

/-- A single character is a number only when it is a digit, and so of one byte. -/
theorem from_str_radix_single {c : Char} {n : ℕ} (h : Str.from_str_radix [c] = some n) :
    c.utf8Size = 1 := by
  have hdigits : Str.digits_u8 0 [c] = some n := by
    unfold Str.from_str_radix at h
    split at h
    · cases h
    · cases h
    · cases h
    -- a sign with nothing behind it was refused before
    · rename_i hne heq
      cases heq
      exact (hne rfl).elim
    · exact h
  simp only [Str.digits_u8, Option.bind_eq_bind, Option.bind_eq_some_iff] at hdigits
  obtain ⟨_, -, d, hd, -⟩ := hdigits
  exact (Str.of_to_digit hd).size

/-! ## The loop -/

/-- A slice of two bytes at the front of a text. -/
theorem pair_of_split {s pair rest : List Char} (h : Str.split_at 2 s = some (pair, rest)) :
    (∃ a b, pair = [a, b] ∧ s = a :: b :: rest) ∨ ∃ c, pair = [c] ∧ c.utf8Size = 2 := by
  obtain ⟨rfl, hlen⟩ := Str.of_split_at h
  cases pair with
  | nil => cases hlen
  | cons a pair =>
    have ha := a.utf8Size_pos
    rw [Str.len] at hlen
    cases pair with
    | nil =>
      rw [Str.len] at hlen
      exact .inr ⟨a, rfl, hlen⟩
    | cons b pair =>
      have hb := b.utf8Size_pos
      rw [Str.len] at hlen
      obtain rfl : pair = [] := Str.eq_nil_of_len (by omega)
      exact .inl ⟨a, b, rfl, rfl⟩

/-- One turn of the loop reads a pair of characters of one byte each. -/
theorem witness_byte_ok {before rest : List Char} {index : ℕ} {byte : UInt8}
    (hbefore : Str.len before = 2 * index) (hindex : index < 20) :
    witness_byte (before ++ rest) index = .ok byte ↔
      ∃ a b rest' high low, rest = a :: b :: rest' ∧ leading_digit a = some high
        ∧ Str.to_digit b = some low ∧ byte = UInt8.ofNat (16 * high + low) := by
  have hstart : Checked.mul 64 index 2 = some (Str.len before) :=
    Checked.mul_eq_some.mpr ⟨by omega, by omega⟩
  have hstop : Checked.add 64 (Str.len before) 2 = some (Str.len before + 2) :=
    Checked.add_eq_some.mpr ⟨by omega, rfl⟩
  simp only [witness_byte, hstart, hstop, ok_or_some, ok_bind, Str.get_append, bind_eq_ok,
    ok_or_eq_ok, pure_eq_ok, Option.map_eq_some_iff, Prod.exists]
  constructor
  · rintro ⟨_, ⟨pair, rest', hsplit, rfl⟩, n, hn, rfl⟩
    rcases pair_of_split hsplit with ⟨a, b, rfl, hrest⟩ | ⟨c, rfl, hsize⟩
    · obtain ⟨high, low, hhigh, hlow, rfl⟩ := from_str_radix_pair.mp hn
      exact ⟨a, b, rest', high, low, hrest, hhigh, hlow, rfl⟩
    · rw [from_str_radix_single hn] at hsize
      cases hsize
  · rintro ⟨a, b, rest', high, low, rfl, hhigh, hlow, rfl⟩
    have hlen : Str.len [a, b] = 2 := by
      simp only [Str.len, leading_digit_size hhigh, (Str.of_to_digit hlow).size]
    refine ⟨[a, b], ⟨[a, b], rest', ?_, rfl⟩, _, from_str_radix_pair.mpr ⟨high, low, hhigh, hlow, rfl⟩, rfl⟩
    rw [← hlen]
    exact Str.split_at_len [a, b] rest'

/-- The bytes the loop reads off a text, pair by pair. -/
def pair_values : List Char → Option (List UInt8)
  | [] => some []
  | [_] => none
  | a :: b :: rest => do
    let high ← leading_digit a
    let low ← Str.to_digit b
    let bytes ← pair_values rest
    return UInt8.ofNat (16 * high + low) :: bytes

/-- One pair is read off the front: `from_str_radix` takes a digit or a plus sign first, and a digit
second. -/
theorem pair_values_cons {a b : Char} {rest : List Char} {bytes : List UInt8} :
    pair_values (a :: b :: rest) = some bytes ↔
      ∃ high low bytes', leading_digit a = some high ∧ Str.to_digit b = some low
        ∧ pair_values rest = some bytes' ∧ bytes = UInt8.ofNat (16 * high + low) :: bytes' := by
  simp only [pair_values, Option.bind_eq_bind, Option.bind_eq_some_iff, Option.pure_def,
    Option.some.injEq]
  constructor
  · rintro ⟨high, hhigh, low, hlow, bytes', hbytes, rfl⟩
    exact ⟨high, low, bytes', hhigh, hlow, hbytes, rfl⟩
  · rintro ⟨high, low, bytes', hhigh, hlow, hbytes, rfl⟩
    exact ⟨high, hhigh, low, hlow, bytes', hbytes, rfl⟩

/-- The loop, from a cut between two pairs on. -/
theorem witness_bytes_ok {before rest : List Char} {index count : ℕ} {bytes : List UInt8}
    (hbefore : Str.len before = 2 * index) (hrest : Str.len rest = 2 * count)
    (hindex : index + count ≤ 20) :
    witness_bytes (before ++ rest) index count = .ok bytes ↔ pair_values rest = some bytes := by
  induction count generalizing before rest index bytes with
  | zero =>
    obtain rfl := Str.eq_nil_of_len hrest
    simp only [witness_bytes, pair_values, ok_eq_ok, Option.some.injEq]
  | succ count ih =>
    -- after one pair the cut is two bytes further on
    have hturn : ∀ a b rest' bytes', a.utf8Size = 1 → b.utf8Size = 1 → rest = a :: b :: rest' →
        (witness_bytes (before ++ rest) (index + 1) count = .ok bytes'
          ↔ pair_values rest' = some bytes') := by
      intro a b rest' bytes' ha hb hsplit
      subst hsplit
      have hcut : Str.len (before ++ [a, b]) = 2 * (index + 1) := by
        simp only [Str.len_append, Str.len, ha, hb]
        omega
      have hleft : Str.len rest' = 2 * count := by
        simp only [Str.len, ha, hb] at hrest
        omega
      have hnext : witness_bytes (before ++ [a, b] ++ rest') (index + 1) count = .ok bytes'
          ↔ pair_values rest' = some bytes' := ih hcut hleft (by omega)
      rwa [List.append_assoc, List.cons_append, List.cons_append, List.nil_append] at hnext
    simp only [witness_bytes, bind_eq_ok, pure_eq_ok,
      witness_byte_ok hbefore (by omega : index < 20)]
    constructor
    · rintro ⟨byte, ⟨a, b, rest', high, low, hsplit, hhigh, hlow, rfl⟩, bytes', hbytes, rfl⟩
      rw [hturn a b rest' bytes' (leading_digit_size hhigh) (Str.of_to_digit hlow).size hsplit]
        at hbytes
      rw [hsplit]
      exact pair_values_cons.mpr ⟨high, low, bytes', hhigh, hlow, hbytes, rfl⟩
    · intro hvalues
      cases rest with
      | nil => exact absurd hrest (by simp [Str.len])
      | cons a rest =>
        cases rest with
        | nil => cases hvalues
        | cons b rest' =>
          obtain ⟨high, low, bytes', hhigh, hlow, hbytes, rfl⟩ := pair_values_cons.mp hvalues
          refine ⟨_, ⟨a, b, rest', high, low, rfl, hhigh, hlow, rfl⟩, bytes', ?_, rfl⟩
          exact (hturn a b rest' bytes' (leading_digit_size hhigh) (Str.of_to_digit hlow).size
            rfl).mpr hbytes

/-- What is read off a text of pairs: half as many bytes as characters, of which each takes one
byte. -/
theorem pair_values_length {s : List Char} {bytes : List UInt8} (h : pair_values s = some bytes) :
    2 * bytes.length = s.length ∧ Str.len s = s.length := by
  induction s using pair_values.induct generalizing bytes with
  | case1 =>
    rw [← Option.some.inj h]
    exact ⟨rfl, rfl⟩
  | case2 => cases h
  | case3 a b rest ih =>
    obtain ⟨high, low, bytes', hhigh, hlow, hbytes, rfl⟩ := pair_values_cons.mp h
    obtain ⟨hlength, hlen⟩ := ih hbytes
    simp only [Str.len, List.length_cons, leading_digit_size hhigh, (Str.of_to_digit hlow).size]
    omega

/-- What the parser accepts and returns. -/
theorem parse_witness_ok {value : List Char} {w : Bytes 20} :
    parse_witness value = .ok w ↔
      (Str.strip_0x value).length = 40 ∧ pair_values (Str.strip_0x value) = some w.toList := by
  simp only [parse_witness, bind_eq_ok, require_eq_ok, exists_const, pure_eq_ok]
  constructor
  · rintro ⟨hlen, bytes, hbytes, rfl⟩
    rw [← List.nil_append (Str.strip_0x value), witness_bytes_ok rfl hlen le_rfl] at hbytes
    obtain ⟨hlength, hsize⟩ := pair_values_length hbytes
    rw [Bytes.toList_ofList (by omega)]
    exact ⟨by omega, hbytes⟩
  · rintro ⟨hlength, hbytes⟩
    obtain ⟨-, hsize⟩ := pair_values_length hbytes
    have hlen : Str.len (Str.strip_0x value) = 40 := by omega
    refine ⟨hlen, w.toList, ?_, ?_⟩
    · rw [← List.nil_append (Str.strip_0x value)]
      exact (witness_bytes_ok rfl hlen le_rfl).mpr hbytes
    · exact Bytes.toList_injective (Bytes.toList_ofList (Bytes.length_toList w))

/-! ## The grammar -/

/-- The ASCII hexadecimal digits, of both cases. -/
def HEX_DIGITS : List Char :=
  ['0', '1', '2', '3', '4', '5', '6', '7', '8', '9', 'a', 'b', 'c', 'd', 'e', 'f',
    'A', 'B', 'C', 'D', 'E', 'F']

theorem mem_hex_digits {c : Char} : c ∈ HEX_DIGITS ↔ ∃ d, Str.to_digit c = some d := by
  constructor
  · intro h
    -- as a computed table: over the quantifier, the decision would run through every character
    have htable : HEX_DIGITS.all (fun c => (Str.to_digit c).isSome) = true := by decide +kernel
    exact Option.isSome_iff_exists.mp (List.all_eq_true.mp htable c h)
  · rintro ⟨d, hd⟩
    have htable : ∀ n < 128, (Str.to_digit (Char.ofNat n)).isSome = true →
        Char.ofNat n ∈ HEX_DIGITS := by decide +kernel
    have hentry := htable c.toNat (Str.toNat_of_to_digit hd)
    rw [Char.ofNat_toNat] at hentry
    exact hentry (Option.isSome_iff_exists.mpr ⟨d, hd⟩)

/-- The text is the digits, behind an optional `0x`. -/
def Prefixed (value digits : List Char) : Prop := value = digits ∨ value = '0' :: 'x' :: digits

/-- The documented grammar: an optional `0x`, then exactly forty hexadecimal digits. -/
def WitnessDigits (value digits : List Char) : Prop :=
  Prefixed value digits ∧ digits.length = 40 ∧ ∀ c ∈ digits, c ∈ HEX_DIGITS

/-- Pairs of a hexadecimal digit, or a plus sign in its place, and a hexadecimal digit. -/
def SignedPairs : List Char → Prop
  | [] => True
  | [_] => False
  | a :: b :: rest => (a = '+' ∨ a ∈ HEX_DIGITS) ∧ b ∈ HEX_DIGITS ∧ SignedPairs rest

/-- An optional `0x`, then forty characters in pairs, at least one of which has a plus sign. -/
def SignedWitness (value : List Char) : Prop :=
  ∃ raw, Prefixed value raw ∧ raw.length = 40 ∧ SignedPairs raw ∧ '+' ∈ raw

/-- What may begin a pair: a digit, or the plus sign that `from_str_radix` allows. -/
theorem leading_digit_iff {c : Char} :
    (∃ d, leading_digit c = some d) ↔ c = '+' ∨ c ∈ HEX_DIGITS := by
  rw [mem_hex_digits]
  unfold leading_digit
  by_cases hplus : c = '+'
  · rw [if_pos hplus]
    exact ⟨fun _ => .inl hplus, fun _ => ⟨0, rfl⟩⟩
  · rw [if_neg hplus]
    exact ⟨fun h => .inr h, fun h => h.resolve_left hplus⟩

/-- The texts that are read are the sequences of such pairs. -/
theorem pair_values_iff {s : List Char} : (∃ bytes, pair_values s = some bytes) ↔ SignedPairs s := by
  induction s using pair_values.induct with
  | case1 => exact ⟨fun _ => trivial, fun _ => ⟨[], rfl⟩⟩
  | case2 =>
    constructor
    · rintro ⟨bytes, h⟩
      cases h
    · exact False.elim
  | case3 a b rest ih =>
    unfold SignedPairs
    rw [← leading_digit_iff, mem_hex_digits, ← ih]
    constructor
    · rintro ⟨bytes, h⟩
      obtain ⟨high, low, bytes', hhigh, hlow, hbytes, -⟩ := pair_values_cons.mp h
      exact ⟨⟨high, hhigh⟩, ⟨low, hlow⟩, bytes', hbytes⟩
    · rintro ⟨⟨high, hhigh⟩, ⟨low, hlow⟩, bytes', hbytes⟩
      exact ⟨_, pair_values_cons.mpr ⟨high, low, bytes', hhigh, hlow, hbytes, rfl⟩⟩

/-- A text of pairs has no `0x` of its own to strip. -/
theorem SignedPairs.strip {value raw : List Char} (h : SignedPairs raw) (hv : Prefixed value raw) :
    Str.strip_0x value = raw := by
  rcases hv with rfl | rfl
  · unfold Str.strip_0x
    split
    · have hx : 'x' ∈ HEX_DIGITS := h.2.1
      exact absurd hx (by decide)
    · rfl
  · rfl

theorem prefixed_strip (value : List Char) : Prefixed value (Str.strip_0x value) := by
  unfold Str.strip_0x
  split
  · exact .inr rfl
  · exact .inl rfl

/-- Digits in even number are such pairs, so whatever the docstring allows is read. -/
theorem SignedPairs.of_digits {s : List Char} (heven : 2 ∣ s.length)
    (h : ∀ c ∈ s, c ∈ HEX_DIGITS) : SignedPairs s := by
  induction s using pair_values.induct with
  | case1 => trivial
  | case2 a =>
    rw [List.length_singleton] at heven
    omega
  | case3 a b rest ih =>
    rw [List.forall_mem_cons, List.forall_mem_cons] at h
    obtain ⟨ha, hb, hrest⟩ := h
    rw [List.length_cons, List.length_cons] at heven
    exact ⟨.inr ha, hb, ih (by omega) hrest⟩

/-- Pairs without a sign are digits. -/
theorem SignedPairs.digits {s : List Char} (h : SignedPairs s) (hplus : '+' ∉ s) :
    ∀ c ∈ s, c ∈ HEX_DIGITS := by
  induction s using pair_values.induct with
  | case1 => simp
  | case2 => exact h.elim
  | case3 a b rest ih =>
    obtain ⟨ha, hb, hrest⟩ := h
    rw [List.mem_cons, List.mem_cons, not_or, not_or] at hplus
    rw [List.forall_mem_cons, List.forall_mem_cons]
    exact ⟨ha.resolve_left (Ne.symm hplus.1), hb, ih hrest hplus.2.2⟩

/-- Read off digits, the bytes are the ones the digits denote. -/
theorem hex_encode_pair_values {s : List Char} {bytes : List UInt8} (h : pair_values s = some bytes)
    (hplus : '+' ∉ s) : Str.hex_encode bytes = s.map Char.toLower := by
  induction s using pair_values.induct generalizing bytes with
  | case1 =>
    rw [← Option.some.inj h]
    rfl
  | case2 => cases h
  | case3 a b rest ih =>
    obtain ⟨high, low, bytes', hhigh, hlow, hbytes, rfl⟩ := pair_values_cons.mp h
    rw [List.mem_cons, List.mem_cons, not_or, not_or] at hplus
    -- without a plus sign both characters of the pair are digits
    rw [leading_digit, if_neg (Ne.symm hplus.1)] at hhigh
    have hh := Str.of_to_digit hhigh
    have hl := Str.of_to_digit hlow
    have hbyte : (UInt8.ofNat (16 * high + low)).toNat = 16 * high + low := by
      rw [UInt8.toNat_ofNat']
      have hh' := hh.lt
      have hl' := hl.lt
      omega
    -- the byte splits again into the two digits it was read from
    have hdiv : (16 * high + low) / 16 = high := by
      have hl' := hl.lt
      omega
    have hmod : (16 * high + low) % 16 = low := by
      have hl' := hl.lt
      omega
    have hrest := ih hbytes hplus.2.2
    unfold Str.hex_encode at hrest ⊢
    rw [List.flatMap_cons, hbyte, hdiv, hmod, hh.lower, hl.lower, hrest]
    rfl

/-! ## Exactness -/

/-- The parser does with this text what its grammar says: it accepts it exactly if it is in the
grammar, and then returns the bytes that are written in it. -/
structure ParsesExactly (value : List Char) : Prop where
  accepts : (∃ w, parse_witness value = .ok w) ↔ ∃ digits, WitnessDigits value digits
  denotes : ∀ w digits, parse_witness value = .ok w → WitnessDigits value digits →
    Str.hex_encode w.toList = digits.map Char.toLower

/-- The parser is exact on every text but those with a plus sign in place of a pair's first digit. -/
theorem parses_exactly_iff (value : List Char) : ParsesExactly value ↔ ¬ SignedWitness value := by
  constructor
  · rintro ⟨haccepts, -⟩ ⟨raw, hprefixed, hlength, hpairs, hplus⟩
    have hstrip := hpairs.strip hprefixed
    obtain ⟨bytes, hbytes⟩ := pair_values_iff.mpr hpairs
    have hhalf := (pair_values_length hbytes).1
    have hw : parse_witness value = .ok (Bytes.ofList 20 bytes) := by
      rw [parse_witness_ok, hstrip, Bytes.toList_ofList (by omega)]
      exact ⟨hlength, hbytes⟩
    -- accepted, so it would have to be in the grammar, where there is no sign
    obtain ⟨digits, hdigits, hcount, hhex⟩ := haccepts.mp ⟨_, hw⟩
    have hsame : Str.strip_0x value = digits :=
      (SignedPairs.of_digits (by omega) hhex).strip hdigits
    rw [← hstrip, hsame] at hplus
    exact absurd (hhex '+' hplus) (by decide)
  · intro hunsigned
    -- an accepted text without a sign is a text of digits
    have hnoplus : ∀ w, parse_witness value = .ok w → '+' ∉ Str.strip_0x value := by
      intro w hw hplus
      obtain ⟨hlength, hbytes⟩ := parse_witness_ok.mp hw
      exact hunsigned ⟨_, prefixed_strip value, hlength, pair_values_iff.mp ⟨_, hbytes⟩, hplus⟩
    refine ⟨⟨?_, ?_⟩, ?_⟩
    · rintro ⟨w, hw⟩
      obtain ⟨hlength, hbytes⟩ := parse_witness_ok.mp hw
      exact ⟨_, prefixed_strip value, hlength,
        (pair_values_iff.mp ⟨_, hbytes⟩).digits (hnoplus w hw)⟩
    · rintro ⟨digits, hprefixed, hlength, hhex⟩
      have hpairs := SignedPairs.of_digits (by omega) hhex
      obtain ⟨bytes, hbytes⟩ := pair_values_iff.mpr hpairs
      have hhalf := (pair_values_length hbytes).1
      refine ⟨Bytes.ofList 20 bytes, ?_⟩
      rw [parse_witness_ok, hpairs.strip hprefixed, Bytes.toList_ofList (by omega)]
      exact ⟨hlength, hbytes⟩
    · rintro w digits hw ⟨hprefixed, hlength, hhex⟩
      obtain ⟨-, hbytes⟩ := parse_witness_ok.mp hw
      have hstrip := (SignedPairs.of_digits (by omega) hhex).strip hprefixed
      have hplus := hnoplus w hw
      rw [hstrip] at hbytes hplus
      exact hex_encode_pair_values hbytes hplus

/-- Twenty times `+f` is accepted, as twenty bytes of fifteen. -/
theorem signed_witness_accepted :
    ∃ value : List Char, value = (List.replicate 20 ['+', 'f']).flatten
      ∧ parse_witness value = .ok (Bytes.replicate 20 15)
      ∧ ¬ ∃ digits, WitnessDigits value digits := by
  refine ⟨_, rfl, by decide +kernel, ?_⟩
  rintro ⟨digits, hprefixed, -, hhex⟩
  have hplus : '+' ∈ digits := by
    rcases hprefixed with rfl | hcontra
    · decide
    · exact absurd hcontra (by simp [List.replicate_succ])
  exact absurd (hhex '+' hplus) (by decide)

end Zkp2pSolana
