/-
The Borsh format: how a value is written into a byte string and read back.

A `Borsh α` is the `serialize` and `deserialize` of a type together with the law
that connects them: a value that was written is read back, whatever was written
after it. Nothing separates two values in a stream, so this law is all that
tells where one ends; from it a stream determines its values one by one
(`Borsh.append_inj`).

The integers have a fixed width and are little-endian, arrays are their bytes,
an option and an enumeration start with a tag byte, a vector starts with its
length as a `u32`, and the fields of a record follow each other in the order of
their declaration.
-/
import Zkp2pSolana.Lib.Bytes

set_option autoImplicit false

/-- A type of the Borsh format. -/
structure Borsh (α : Type) where
  serialize : α → List UInt8
  deserialize : List UInt8 → Option (α × List UInt8)
  /-- The values the Rust type has, where `α` has more. -/
  Fits : α → Prop
  round_trip : ∀ (a : α) (rest : List UInt8), Fits a →
    deserialize (serialize a ++ rest) = some (a, rest)

namespace Borsh

variable {α β : Type}

/-- A stream determines its first value and the rest. -/
theorem append_inj (c : Borsh α) {a b : α} {x y : List UInt8} (ha : c.Fits a) (hb : c.Fits b)
    (h : c.serialize a ++ x = c.serialize b ++ y) : a = b ∧ x = y := by
  have hread := c.round_trip a x ha
  rw [h, c.round_trip b y hb] at hread
  injection hread with hread
  injection hread with hba hyx
  exact ⟨hba.symm, hyx.symm⟩

/-- A codec that reads its own output back writes different streams for different values. -/
theorem serialize_injective (c : Borsh α) {a b : α} (ha : c.Fits a) (hb : c.Fits b)
    (h : c.serialize a = c.serialize b) : a = b := by
  have happend : c.serialize a ++ [] = c.serialize b ++ [] := by rw [h]
  exact (c.append_inj ha hb happend).1

/-! ## Fields of a fixed width -/

/-- The first `n` bytes of a stream, if it is that long. -/
def split (n : ℕ) (input : List UInt8) : Option (List UInt8 × List UInt8) :=
  if n ≤ input.length then some (input.take n, input.drop n) else none

/-- Splitting off the length of a known prefix gives that prefix and the rest back. -/
theorem split_append {l : List UInt8} {n : ℕ} (hlength : l.length = n) (rest : List UInt8) :
    split n (l ++ rest) = some (l, rest) := by
  have hle : n ≤ (l ++ rest).length := by
    rw [List.length_append]
    omega
  rw [split, if_pos hle, List.take_left' hlength, List.drop_left' hlength]

/-- An unsigned integer of `k` bytes. -/
def word (k : ℕ) : Borsh ℕ where
  serialize v := le_bytes k v
  deserialize input := (split k input).map fun r => (of_le_bytes r.1, r.2)
  Fits v := v < 256 ^ k
  round_trip v rest hv := by
    rw [split_append (length_le_bytes k v), Option.map_some, of_le_bytes_le_bytes k hv]

abbrev u8 : Borsh ℕ := word 1
abbrev u16 : Borsh ℕ := word 2
abbrev u32 : Borsh ℕ := word 4
abbrev u64 : Borsh ℕ := word 8
abbrev u128 : Borsh ℕ := word 16

/-- The signed value of a 64-bit word. -/
def signed (v : ℕ) : ℤ := if v < 2 ^ 63 then v else v - 2 ^ 64

/-- The two's-complement word of a 64-bit signed number reads back as the number. -/
theorem signed_word {v : ℤ} (h : -2 ^ 63 ≤ v ∧ v < 2 ^ 63) : signed (v % 2 ^ 64).toNat = v := by
  unfold signed
  split_ifs <;> omega

/-- `i64`. -/
def i64 : Borsh ℤ where
  serialize v := le_bytes_i64 v
  deserialize input := (split 8 input).map fun r => (signed (of_le_bytes r.1), r.2)
  Fits v := -2 ^ 63 ≤ v ∧ v < 2 ^ 63
  round_trip v rest hv := by
    have hword : (v % 2 ^ 64).toNat < 256 ^ 8 := by omega
    rw [le_bytes_i64, split_append (length_le_bytes 8 _), Option.map_some,
      of_le_bytes_le_bytes 8 hword, signed_word hv]

/-- `[u8; n]`. -/
def array (n : ℕ) : Borsh (Bytes n) where
  serialize b := b.toList
  deserialize input := (split n input).map fun r => (Bytes.ofList n r.1, r.2)
  Fits _ := True
  round_trip b rest _ := by
    have hsame : Bytes.ofList n b.toList = b :=
      Bytes.toList_injective (Bytes.toList_ofList (Bytes.length_toList b))
    rw [split_append (Bytes.length_toList b), Option.map_some, hsame]

/-! ## Tagged values -/

/-- An enumeration without fields: the tag is the position of the variant. -/
def enumeration (variants : List α) [DecidableEq α] (hcount : variants.length ≤ 256) : Borsh α where
  serialize a := [UInt8.ofNat (variants.idxOf a)]
  deserialize input := input.head?.bind fun tag =>
    variants[tag.toNat]?.map fun a => (a, input.tail)
  Fits a := a ∈ variants
  round_trip a rest ha := by
    have hindex : variants.idxOf a < variants.length := List.idxOf_lt_length_iff.mpr ha
    have htag : (UInt8.ofNat (variants.idxOf a)).toNat = variants.idxOf a := by
      rw [UInt8.toNat_ofNat']
      omega
    show (variants[(UInt8.ofNat (variants.idxOf a)).toNat]?).map _ = _
    rw [htag, List.getElem?_eq_getElem hindex, List.getElem_idxOf hindex, Option.map_some]
    rfl

/-- `bool`. -/
def bool : Borsh Bool := enumeration [false, true] (by decide)

/-- `Option<T>`. -/
def option (c : Borsh α) : Borsh (Option α) where
  serialize o :=
    match o with
    | none => [0]
    | some a => 1 :: c.serialize a
  deserialize input := input.head?.bind fun tag =>
    if tag = 0 then some (none, input.tail)
    else if tag = 1 then (c.deserialize input.tail).map fun r => (some r.1, r.2)
    else none
  Fits o := ∀ a ∈ o, c.Fits a
  round_trip o rest ho := by
    cases o with
    | none => rfl
    | some a =>
      show (c.deserialize (c.serialize a ++ rest)).map _ = _
      rw [c.round_trip a rest (ho a rfl), Option.map_some]

/-! ## Vectors -/

/-- The loop that reads the entries of a vector. -/
def entries (c : Borsh α) : ℕ → List UInt8 → Option (List α × List UInt8)
  | 0, input => some ([], input)
  | count + 1, input => do
    let (a, input) ← c.deserialize input
    let (rest, input) ← entries c count input
    return (a :: rest, input)

/-- Reading as many entries as were written, one after the other, gives the written list and leaves
what follows it. -/
theorem entries_flatten (c : Borsh α) {l : List α} (h : ∀ a ∈ l, c.Fits a) (rest : List UInt8) :
    entries c l.length ((l.map c.serialize).flatten ++ rest) = some (l, rest) := by
  induction l with
  | nil => rfl
  | cons a l ih =>
    have hread := c.round_trip a ((l.map c.serialize).flatten ++ rest) (h a List.mem_cons_self)
    have hloop := ih fun b hb => h b (List.mem_cons_of_mem a hb)
    rw [List.map_cons, List.flatten_cons, List.append_assoc, List.length_cons, entries, hread]
    show (entries c l.length ((l.map c.serialize).flatten ++ rest)).bind _ = _
    rw [hloop]
    rfl

/-- `Vec<T>`. -/
def vec (c : Borsh α) : Borsh (List α) where
  serialize l := u32.serialize l.length ++ (l.map c.serialize).flatten
  deserialize input := (u32.deserialize input).bind fun r => entries c r.1 r.2
  Fits l := u32.Fits l.length ∧ ∀ a ∈ l, c.Fits a
  round_trip l rest hl := by
    rw [List.append_assoc, u32.round_trip l.length _ hl.1, Option.bind_some]
    exact entries_flatten c hl.2 rest

/-! ## Records -/

/-- A field and the fields after it. -/
def field (c : Borsh α) (d : Borsh β) : Borsh (α × β) where
  serialize p := c.serialize p.1 ++ d.serialize p.2
  deserialize input := (c.deserialize input).bind fun r =>
    (d.deserialize r.2).map fun q => ((r.1, q.1), q.2)
  Fits p := c.Fits p.1 ∧ d.Fits p.2
  round_trip p rest hp := by
    rw [List.append_assoc, c.round_trip p.1 _ hp.1, Option.bind_some, d.round_trip p.2 rest hp.2,
      Option.map_some]

/-- A record, by its fields in the order of their declaration. -/
def record (c : Borsh β) (fields : α → β) (build : β → α) (h : ∀ a, build (fields a) = a) :
    Borsh α where
  serialize a := c.serialize (fields a)
  deserialize input := (c.deserialize input).map fun r => (build r.1, r.2)
  Fits a := c.Fits (fields a)
  round_trip a rest ha := by
    rw [c.round_trip (fields a) rest ha, Option.map_some, h a]

end Borsh
