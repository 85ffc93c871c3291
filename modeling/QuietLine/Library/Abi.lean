/-
Words of the contract ABI: static arguments, and one dynamic byte string.

A message is read argument by argument, each from its own word of the head; an
address is the low twenty bytes of its word and an integer is checked against the
width of its type.  What is proved is that a reader finds the words a writer
packed, that the two readings of a word invert its writings, and that a list of
typed arguments is told by its encoding (`encode_inj`).
-/
import QuietLine.Library.Bytes

namespace Abi

open Bytes

abbrev Word := Fixed 32

/-! ### Words -/

/-- A 160-bit value, in the low bytes of its word. -/
def addressWord (a : Fixed 20) : Word :=
  ⟨List.replicate 12 0 ++ a.toList, by simp⟩

def uintWord (n : Nat) : Word := number 32 n

/-- The low twenty bytes. -/
def Word.address (w : Word) : Fixed 20 :=
  ⟨w.toList.drop 12, by simp⟩

def Word.toNat (w : Word) : Nat := ofBigEndian w.toList

@[simp] theorem address_addressWord (a : Fixed 20) : Word.address (addressWord a) = a := by
  apply List.Vector.eq
  show (List.replicate 12 0 ++ a.toList).drop 12 = a.toList
  simp

theorem addressWord_inj {a b : Fixed 20} (h : addressWord a = addressWord b) : a = b := by
  rw [← address_addressWord a, h, address_addressWord]

theorem toNat_uintWord {n : Nat} (h : n < 2 ^ 256) : Word.toNat (uintWord n) = n := by
  show ofBigEndian (bigEndian 32 n) = n
  rw [ofBigEndian_bigEndian]
  exact Nat.mod_eq_of_lt (by norm_num at h ⊢; exact h)

theorem uintWord_inj {a b : Nat} (ha : a < 2 ^ 256) (hb : b < 2 ^ 256)
    (h : uintWord a = uintWord b) : a = b := by
  rw [← toNat_uintWord ha, h, toNat_uintWord hb]

/-! ### Reading -/

/-- The `i`-th word of a message. -/
def wordAt (i : Nat) (data : List UInt8) : Option Word :=
  if 32 * i + 32 ≤ data.length then
    some (Fixed.ofList 32 ((data.drop (32 * i)).take 32))
  else
    none

def addressAt (i : Nat) (data : List UInt8) : Option (Fixed 20) :=
  (wordAt i data).map Word.address

/-- A `uint256`. -/
def uintAt (i : Nat) (data : List UInt8) : Option Nat := (wordAt i data).map Word.toNat

/-- A `uint64`: a larger value is an error. -/
def uint64At (i : Nat) (data : List UInt8) : Option UInt64 :=
  (uintAt i data).bind fun n => if n < 2 ^ 64 then some (UInt64.ofNat n) else none

/-- A `bytes`: the word is the offset of its length, which the bytes follow. -/
def bytesAt (i : Nat) (data : List UInt8) : Option (List UInt8) :=
  (uintAt i data).bind fun offset =>
    if offset + 32 ≤ data.length then
      let length := ofBigEndian ((data.drop offset).take 32)
      if offset + 32 + length ≤ data.length then
        some ((data.drop (offset + 32)).take length)
      else
        none
    else
      none

/-! ### What a reader finds -/

/-- A reader finds the words that were packed, whatever follows them. -/
theorem wordAt_pack (tail : List UInt8) :
    ∀ {ws : List Word} {i : Nat} {w : Word}, ws[i]? = some w →
      wordAt i (pack ws ++ tail) = some w := by
  intro ws
  induction ws with
  | nil => intro i w h; simp at h
  | cons v rest ih =>
      intro i w h
      have hcons : pack (v :: rest) ++ tail = v.toList ++ (pack rest ++ tail) := by
        simp [pack, List.append_assoc]
      have hv : v.toList.length = 32 := by simp
      cases i with
      | zero =>
          obtain rfl : v = w := by simpa using h
          unfold wordAt
          rw [hcons, if_pos (by simp)]
          rw [Nat.mul_zero, List.drop_zero, List.take_left' hv, Fixed.ofList_toList]
      | succ i =>
          have hrest : wordAt i (pack rest ++ tail) = some w := ih (by simpa using h)
          have hdrop : (v.toList ++ (pack rest ++ tail)).drop (32 * (i + 1)) =
              (pack rest ++ tail).drop (32 * i) := by
            rw [show 32 * (i + 1) = 32 + 32 * i by ring, ← List.drop_drop, List.drop_left' hv]
          unfold wordAt at hrest ⊢
          rw [hcons, hdrop, List.length_append, hv]
          by_cases hlen : 32 * i + 32 ≤ (pack rest ++ tail).length
          · rw [if_pos hlen] at hrest
            rw [if_pos (by omega)]
            exact hrest
          · rw [if_neg hlen] at hrest
            cases hrest

theorem addressAt_pack {tail : List UInt8} {ws : List Word} {i : Nat} {a : Fixed 20}
    (h : ws[i]? = some (addressWord a)) : addressAt i (pack ws ++ tail) = some a := by
  rw [addressAt, wordAt_pack tail h, Option.map_some, address_addressWord]

theorem uintAt_pack {tail : List UInt8} {ws : List Word} {i n : Nat} (hn : n < 2 ^ 256)
    (h : ws[i]? = some (uintWord n)) : uintAt i (pack ws ++ tail) = some n := by
  rw [uintAt, wordAt_pack tail h, Option.map_some, toNat_uintWord hn]

theorem uint64At_pack {tail : List UInt8} {ws : List Word} {i : Nat} {n : UInt64}
    (h : ws[i]? = some (uintWord n.toNat)) : uint64At i (pack ws ++ tail) = some n := by
  have hlt := n.toNat_lt
  rw [uint64At, uintAt_pack (by omega) h, Option.bind_some, if_pos hlt, UInt64.ofNat_toNat]

/-- A byte string is found behind the head that names its offset, whatever it is padded with. -/
theorem bytesAt_pack {ws : List Word} {i : Nat} {bytes padding : List UInt8}
    (hlen : bytes.length < 2 ^ 256) (hhead : 32 * ws.length < 2 ^ 256)
    (h : ws[i]? = some (uintWord (32 * ws.length))) :
    bytesAt i (pack ws ++ (pack [uintWord bytes.length] ++ bytes ++ padding)) = some bytes := by
  have hword : (pack [uintWord bytes.length]).length = 32 := by simp [length_pack]
  have hdrop : (pack ws ++ (pack [uintWord bytes.length] ++ bytes ++ padding)).drop
      (32 * ws.length) = pack [uintWord bytes.length] ++ (bytes ++ padding) := by
    rw [List.drop_left' (length_pack ws), List.append_assoc]
  have hnumber : ofBigEndian (pack [uintWord bytes.length]) = bytes.length := by
    have hvalue := toNat_uintWord hlen
    unfold Word.toNat at hvalue
    simpa [pack] using hvalue
  have htotal : (pack ws ++ (pack [uintWord bytes.length] ++ bytes ++ padding)).length =
      32 * ws.length + (32 + bytes.length + padding.length) := by
    simp [length_pack, Nat.add_assoc]
  unfold bytesAt
  rw [uintAt_pack hhead h, Option.bind_some, if_pos (by omega), hdrop,
    List.take_left' hword, hnumber]
  dsimp only
  rw [if_pos (by omega), ← List.drop_drop, hdrop, List.drop_left' hword,
    List.take_left' rfl]

/-! ### Typed arguments -/

inductive Ty where
  | bytes32
  | uint (bits : Nat)
  | address
  deriving DecidableEq, Repr

/-- A static argument, tagged with its type. -/
inductive Arg where
  | bytes32 (w : Fixed 32)
  | uint (bits n : Nat)
  | address (a : Fixed 20)
  deriving DecidableEq

namespace Arg

def ty : Arg → Ty
  | bytes32 _ => .bytes32
  | uint bits _ => .uint bits
  | address _ => .address

/-- The word of an argument: integers on the right, hashes whole. -/
def word : Arg → Word
  | bytes32 w => w
  | uint _ n => uintWord n
  | address a => addressWord a

/-- An integer is below the end of its type. -/
def InRange : Arg → Prop
  | uint bits n => bits ≤ 256 ∧ n < 2 ^ bits
  | _ => True

theorem word_inj {v w : Arg} (hty : v.ty = w.ty) (hv : v.InRange) (hw : w.InRange)
    (h : v.word = w.word) : v = w := by
  cases v with
  | bytes32 a =>
      cases w with
      | bytes32 b => exact congrArg bytes32 h
      | uint => simp [ty] at hty
      | address => simp [ty] at hty
  | uint bits m =>
      cases w with
      | bytes32 => simp [ty] at hty
      | address => simp [ty] at hty
      | uint bits' n =>
          obtain rfl : bits = bits' := by simpa [ty] using hty
          have hle : 2 ^ bits ≤ 2 ^ 256 := Nat.pow_le_pow_right (by decide) hv.1
          rw [uintWord_inj (Nat.lt_of_lt_of_le hv.2 hle) (Nat.lt_of_lt_of_le hw.2 hle) h]
  | address a =>
      cases w with
      | bytes32 => simp [ty] at hty
      | uint => simp [ty] at hty
      | address b => exact congrArg address (addressWord_inj h)

end Arg

/-- `abi.encode` of static arguments. -/
def encode (args : List Arg) : List UInt8 := pack (args.map Arg.word)

/-- Arguments for a list of types; values of other types are an error. -/
def encodeAs (types : List Ty) (args : List Arg) : Option (List UInt8) :=
  if args.map Arg.ty = types then some (encode args) else none

theorem encodeAs_of_ty {types : List Ty} {args : List Arg} (h : args.map Arg.ty = types) :
    encodeAs types args = some (encode args) :=
  if_pos h

/-- **An encoding tells its arguments**, their types being known. -/
theorem encode_inj {vs ws : List Arg} (hty : vs.map Arg.ty = ws.map Arg.ty)
    (hv : ∀ v ∈ vs, v.InRange) (hw : ∀ w ∈ ws, w.InRange) (h : encode vs = encode ws) :
    vs = ws := by
  have hlen : vs.length = ws.length := by simpa using congrArg List.length hty
  have hwords := pack_inj (by simpa using hlen) h
  clear h hlen
  induction vs generalizing ws with
  | nil =>
      have hnil : ws = [] := by simpa using hty.symm
      exact hnil.symm
  | cons v rest ih =>
      cases ws with
      | nil => simp at hty
      | cons w tail =>
          simp only [List.map_cons, List.cons.injEq] at hty hwords
          have hhead := Arg.word_inj hty.1 (hv v List.mem_cons_self) (hw w List.mem_cons_self)
            hwords.1
          have htail := ih hty.2 (fun a ha => hv a (List.mem_cons_of_mem _ ha))
            (fun a ha => hw a (List.mem_cons_of_mem _ ha)) hwords.2
          rw [hhead, htail]

end Abi
