/-
Addresses and hashes, and the texts the extension keys its maps by.

`Address.Hex` writes a mixed-case checksum that depends on a digest of the
address; the ledger lower-cases every owner it is given, so what reaches a key is
the plain hexadecimal text, and that text determines the address
(`toLower_hex`, `lower_inj`).
-/
import QuietLine.Ledger.Model
import QuietLine.Library.Abi

namespace QuietLine

abbrev Address := Bytes.Fixed 20
abbrev Hash := Bytes.Fixed 32

/-- `common.Address{}` and `common.Hash{}`. -/
def Address.zero : Address := Bytes.Fixed.zero 20
def Hash.zero : Hash := Bytes.Fixed.zero 32

/-- `crypto.Keccak256`. -/
abbrev Keccak := List UInt8 → Hash

/-- What a deployment fixes: the chain, the vault and its two tokens.  The constructor of the vault
is given the tokens, and the extension is configured with all four. -/
structure Config where
  chainID : UInt64
  vault : Address
  fxrp : Address
  usdt0 : Address
  deriving DecidableEq

/-- `supportedAsset`, as the constructor of the vault sets it. -/
def Config.supportedAsset (cfg : Config) (token : Address) : Bool :=
  token = cfg.fxrp || token = cfg.usdt0

/-! ### Texts -/

/-- The four-bit digits of a byte string. -/
def nibbles (bytes : List UInt8) : List Nat :=
  bytes.flatMap fun b => [b.toNat / 16, b.toNat % 16]

/-- One character of a checksummed address. -/
def checksumChar (c : Char) (nibble : Nat) : Char :=
  if '9' < c ∧ 7 < nibble then c.toUpper else c

/-- `Address.Hex`. -/
def Address.hex (keccak : Keccak) (a : Address) : String :=
  let digits := Bytes.hexEncode a.toList
  "0x" ++ String.ofList
    (List.zipWith checksumChar digits (nibbles (keccak (Bytes.utf8 (String.ofList digits))).toList))

/-- `lower`. -/
def lower (keccak : Keccak) (a : Address) : String := toLower (a.hex keccak)

/-- `Hash.Hex`. -/
def Hash.hex (h : Hash) : String := "0x" ++ String.ofList (Bytes.hexEncode h.toList)

/-- `common.HexToHash`: a `0x` is dropped, an odd text is padded, and what is no digit ends it. -/
def hexToHash (text : String) : Hash :=
  let chars := match text.toList with
    | '0' :: 'x' :: rest => rest
    | '0' :: 'X' :: rest => rest
    | chars => chars
  let chars := if (chars.map Char.utf8Size).sum % 2 = 1 then '0' :: chars else chars
  Bytes.Fixed.ofList 32 (Bytes.hexDecode chars)

/-- A name as a `bytes32`, the way the vault writes its commands. -/
def toHash (text : String) : Hash :=
  ⟨(Bytes.utf8 text ++ List.replicate 32 0).take 32, by simp⟩

/-- `hashString`: the text of a `bytes32`, without the zeros it is padded with. -/
def hashString (h : Hash) : List UInt8 := (h.toList.reverse.dropWhile fun b => b = 0).reverse

/-! ### What a text determines -/

theorem length_nibbles (bytes : List UInt8) : (nibbles bytes).length = 2 * bytes.length := by
  induction bytes with
  | nil => rfl
  | cons b rest ih =>
      show (nibbles rest).length + 1 + 1 = _
      rw [ih, List.length_cons]
      omega

/-- The characters that hexadecimal text is written in. -/
theorem mem_hexEncode {bytes : List UInt8} {c : Char} (hc : c ∈ Bytes.hexEncode bytes) :
    ∃ v < 16, c = Bytes.hexDigit v := by
  obtain ⟨b, _, hb⟩ := List.mem_flatMap.mp hc
  have hlt : b.toNat < 256 := b.toNat_lt
  simp only [List.mem_cons, List.not_mem_nil, or_false] at hb
  rcases hb with rfl | rfl
  · exact ⟨b.toNat / 16, by omega, rfl⟩
  · exact ⟨b.toNat % 16, by omega, rfl⟩

theorem toLower_hexDigit : ∀ v, v < 16 → (Bytes.hexDigit v).toLower = Bytes.hexDigit v ∧
    (Bytes.hexDigit v).toUpper.toLower = Bytes.hexDigit v ∧ (Bytes.hexDigit v).utf8Size = 1 := by
  decide

theorem toLower_checksumChar {bytes : List UInt8} {c : Char} (hc : c ∈ Bytes.hexEncode bytes)
    (nibble : Nat) : (checksumChar c nibble).toLower = c := by
  obtain ⟨v, hv, rfl⟩ := mem_hexEncode hc
  unfold checksumChar
  by_cases h : '9' < Bytes.hexDigit v ∧ 7 < nibble
  · rw [if_pos h]; exact (toLower_hexDigit v hv).2.1
  · rw [if_neg h]; exact (toLower_hexDigit v hv).1

theorem map_toLower_checksum {bytes : List UInt8} :
    ∀ {chars : List Char} {digits : List Nat}, (∀ c ∈ chars, c ∈ Bytes.hexEncode bytes) →
      chars.length ≤ digits.length →
      (List.zipWith checksumChar chars digits).map Char.toLower = chars := by
  intro chars
  induction chars with
  | nil => intros; rfl
  | cons c rest ih =>
      intro digits hchars hlen
      cases digits with
      | nil => simp at hlen
      | cons d ds =>
          rw [List.zipWith_cons_cons, List.map_cons,
            toLower_checksumChar (hchars c List.mem_cons_self),
            ih (fun x hx => hchars x (List.mem_cons_of_mem _ hx)) (by simpa using hlen)]

theorem toList_hexText (chars : List Char) :
    ("0x" ++ String.ofList chars).toList = '0' :: 'x' :: chars := by
  simp [String.toList_append, String.toList_ofList]

/-- **The checksum is gone from the key**: a lower-cased address is its plain text. -/
theorem toLower_hex (keccak : Keccak) (a : Address) :
    toLower (a.hex keccak) = "0x" ++ String.ofList (Bytes.hexEncode a.toList) := by
  have hlen : (Bytes.hexEncode a.toList).length ≤
      (nibbles (keccak (Bytes.utf8 (String.ofList (Bytes.hexEncode a.toList)))).toList).length := by
    rw [length_nibbles, Bytes.length_hexEncode, List.Vector.toList_length,
      List.Vector.toList_length]
    omega
  have hlower := map_toLower_checksum (fun _ hc => hc) hlen
  apply String.toList_inj.mp
  show (String.ofList ((("0x" ++ String.ofList _).toList).map Char.toLower)).toList = _
  rw [String.toList_ofList, toList_hexText, toList_hexText, List.map_cons, List.map_cons, hlower]
  rfl

theorem hexEncode_inj {a b : List UInt8} (h : Bytes.hexEncode a = Bytes.hexEncode b) : a = b := by
  rw [← Bytes.hexDecode_hexEncode a, h, Bytes.hexDecode_hexEncode]

theorem hexText_inj {a b : List UInt8}
    (h : "0x" ++ String.ofList (Bytes.hexEncode a) = "0x" ++ String.ofList (Bytes.hexEncode b)) :
    a = b := by
  have hlist := congrArg String.toList h
  rw [toList_hexText, toList_hexText, List.cons_inj_right, List.cons_inj_right] at hlist
  exact hexEncode_inj hlist

theorem lower_inj {keccak : Keccak} {a b : Address} (h : lower keccak a = lower keccak b) :
    a = b := by
  unfold lower at h
  rw [toLower_hex, toLower_hex] at h
  exact List.Vector.eq _ _ (hexText_inj h)

theorem Hash.hex_inj {h h' : Hash} (heq : h.hex = h'.hex) : h = h' :=
  List.Vector.eq _ _ (hexText_inj heq)

/-- A hash reads back from its text. -/
theorem hexToHash_hex (h : Hash) : hexToHash h.hex = h := by
  have hchars : h.hex.toList = '0' :: 'x' :: Bytes.hexEncode h.toList := toList_hexText _
  have hsize : ((Bytes.hexEncode h.toList).map Char.utf8Size).sum =
      (Bytes.hexEncode h.toList).length := by
    have hone : ∀ c ∈ Bytes.hexEncode h.toList, Char.utf8Size c = 1 := by
      intro c hc
      obtain ⟨v, hv, rfl⟩ := mem_hexEncode hc
      exact (toLower_hexDigit v hv).2.2
    rw [List.map_congr_left hone]
    simp
  have heven : ¬ ((Bytes.hexEncode h.toList).map Char.utf8Size).sum % 2 = 1 := by
    rw [hsize, Bytes.length_hexEncode]
    omega
  unfold hexToHash
  rw [hchars]
  simp only [if_neg heven, Bytes.hexDecode_hexEncode]
  exact Bytes.Fixed.ofList_toList h

end QuietLine
