/-
Byte strings of a fixed width, hexadecimal text and packed words.

Digests, addresses and the words of a packed message are byte strings of a known
length.  They are carried here as length-indexed vectors, so a value of the wrong
length cannot be built.  What is proved is what a protocol over such strings
needs: hexadecimal text reads back to the bytes it was written from, a number
below `256 ^ n` is determined by its `n` big-endian bytes, and a concatenation of
words of one width determines the words.
-/
import Mathlib.Data.Vector.Basic
import Mathlib.Tactic.Ring

namespace Bytes

/-- Byte strings of length `n`. -/
abbrev Fixed (n : Nat) := List.Vector UInt8 n

/-- The bytes of a text. -/
def utf8 (text : String) : List UInt8 := text.toUTF8.data.toList

theorem utf8_inj {a b : String} (h : utf8 a = utf8 b) : a = b :=
  String.toByteArray_inj.mp (ByteArray.ext (Array.toList_inj.mp h))

namespace Fixed

variable {n : Nat}

/-- The string of zero bytes. -/
def zero (n : Nat) : Fixed n := ⟨List.replicate n 0, by simp⟩

/-- The last `n` bytes, padded with zeros on the left when there are fewer. -/
def ofList (n : Nat) (bytes : List UInt8) : Fixed n :=
  ⟨List.replicate (n - bytes.length) 0 ++ bytes.drop (bytes.length - n), by
    simp only [List.length_append, List.length_replicate, List.length_drop]
    omega⟩

theorem ofList_toList (v : Fixed n) : ofList n v.toList = v := by
  apply List.Vector.eq
  show List.replicate (n - v.toList.length) 0 ++ v.toList.drop (v.toList.length - n) = v.toList
  simp

end Fixed

/-! ### Hexadecimal text -/

/-- The hexadecimal digit of a value below sixteen. -/
def hexDigit (v : Nat) : Char :=
  if v < 10 then Char.ofNat (48 + v) else Char.ofNat (87 + v)

/-- The value of a hexadecimal digit of either case. -/
def hexValue (c : Char) : Option Nat :=
  if 48 ≤ c.toNat ∧ c.toNat ≤ 57 then some (c.toNat - 48)
  else if 97 ≤ c.toNat ∧ c.toNat ≤ 102 then some (c.toNat - 87)
  else if 65 ≤ c.toNat ∧ c.toNat ≤ 70 then some (c.toNat - 55)
  else none

/-- Two lower-case digits a byte. -/
def hexEncode (bytes : List UInt8) : List Char :=
  bytes.flatMap fun b => [hexDigit (b.toNat / 16), hexDigit (b.toNat % 16)]

/-- The bytes of the longest prefix that is pairs of digits. -/
def hexDecode : List Char → List UInt8
  | hi :: lo :: rest =>
      match hexValue hi, hexValue lo with
      | some h, some l => UInt8.ofNat (16 * h + l) :: hexDecode rest
      | _, _ => []
  | _ => []

theorem hexValue_hexDigit : ∀ v, v < 16 → hexValue (hexDigit v) = some v := by
  decide

theorem hexDecode_hexEncode (bytes : List UInt8) : hexDecode (hexEncode bytes) = bytes := by
  induction bytes with
  | nil => rfl
  | cons b rest ih =>
      have hb : b.toNat < 256 := b.toNat_lt
      have hvalue : 16 * (b.toNat / 16) + b.toNat % 16 = b.toNat := by omega
      show hexDecode (hexDigit (b.toNat / 16) :: hexDigit (b.toNat % 16) :: hexEncode rest) = _
      rw [hexDecode, hexValue_hexDigit _ (by omega), hexValue_hexDigit _ (by omega)]
      simp only [hvalue, ih, UInt8.ofNat_toNat]

theorem length_hexEncode (bytes : List UInt8) : (hexEncode bytes).length = 2 * bytes.length := by
  induction bytes with
  | nil => rfl
  | cons b rest ih =>
      show (hexEncode rest).length + 1 + 1 = _
      rw [ih, List.length_cons]
      ring

/-! ### Big-endian numbers -/

/-- The `n` big-endian bytes of a number; what does not fit is dropped. -/
def bigEndian : Nat → Nat → List UInt8
  | 0, _ => []
  | n + 1, v => bigEndian n (v / 256) ++ [UInt8.ofNat (v % 256)]

/-- The number a big-endian byte string spells. -/
def ofBigEndian (bytes : List UInt8) : Nat := bytes.foldl (fun acc b => 256 * acc + b.toNat) 0

@[simp] theorem length_bigEndian (n v : Nat) : (bigEndian n v).length = n := by
  induction n generalizing v with
  | zero => rfl
  | succ n ih => simp [bigEndian, ih]

theorem ofBigEndian_bigEndian (n v : Nat) : ofBigEndian (bigEndian n v) = v % 256 ^ n := by
  induction n generalizing v with
  | zero => simp [bigEndian, ofBigEndian, Nat.mod_one]
  | succ n ih =>
      have hlast : (UInt8.ofNat (v % 256)).toNat = v % 256 := by
        rw [UInt8.toNat_ofNat']
        exact Nat.mod_eq_of_lt (Nat.mod_lt _ (by decide))
      have hfold : ofBigEndian (bigEndian (n + 1) v)
          = 256 * ofBigEndian (bigEndian n (v / 256)) + (UInt8.ofNat (v % 256)).toNat := by
        simp [bigEndian, ofBigEndian, List.foldl_append]
      rw [hfold, ih, hlast, pow_succ', Nat.mod_mul]
      ring

/-- A number as a word of `n` bytes. -/
def number (n v : Nat) : Fixed n := ⟨bigEndian n v, length_bigEndian n v⟩

/-! ### Packed words -/

/-- The concatenation of words of one width. -/
def pack {n : Nat} (words : List (Fixed n)) : List UInt8 := words.flatMap List.Vector.toList

@[simp] theorem length_pack {n : Nat} (words : List (Fixed n)) :
    (pack words).length = n * words.length := by
  induction words with
  | nil => rfl
  | cons w rest ih =>
      show (w.toList ++ pack rest).length = _
      rw [List.length_append, ih, List.Vector.toList_length, List.length_cons]
      ring

/-- Packings of equally many words are equal only when the words are. -/
theorem pack_inj {n : Nat} : ∀ {ws vs : List (Fixed n)}, ws.length = vs.length →
    pack ws = pack vs → ws = vs := by
  intro ws
  induction ws with
  | nil =>
      intro vs hlen _
      exact (List.length_eq_zero_iff.mp hlen.symm).symm
  | cons w rest ih =>
      intro vs hlen hpack
      cases vs with
      | nil => simp at hlen
      | cons v tail =>
          have hsplit : w.toList ++ pack rest = v.toList ++ pack tail := hpack
          obtain ⟨hw, hrest⟩ := List.append_inj hsplit (by simp)
          rw [List.Vector.eq w v hw, ih (by simpa using hlen) hrest]

/-- A packing of words of non-zero width tells how many there are. -/
theorem length_eq_of_pack_eq {n : Nat} (hn : 0 < n) {ws vs : List (Fixed n)}
    (h : pack ws = pack vs) : ws.length = vs.length := by
  have hlen := congrArg List.length h
  rw [length_pack, length_pack] at hlen
  exact Nat.eq_of_mul_eq_mul_left hn hlen

end Bytes
