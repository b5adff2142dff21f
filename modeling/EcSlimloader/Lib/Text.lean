import Mathlib.Algebra.GroupWithZero.Nat
import Mathlib.Tactic.Common

/-!
# `EcSlimloader.Lib.Text`: the bytes of a text, and numbers written in it

A Rust `str` is a text in UTF-8, and so is a `String` here. `Text.bytes` is `as_bytes`,
`Text.fromUtf8` is `from_utf8`, and `Text.u8FromStrRadix` is `u8::from_str_radix`. The last one
works on the bytes of its text: it takes a plus sign in front of the digits, and refuses a minus
sign, because the number is unsigned.

The lemmas say that the bytes of a text are the encodings of its characters, that a byte below
`0x80` is the encoding of a character of its own, and what a number of one or two digits is.

Core's `String.fromUTF8?` works on byte arrays, and the programs here work on lists of bytes. The
conversions are written once, and everything else is stated about lists.
-/

set_option autoImplicit false

namespace Text

/-! ### Texts and bytes

The decoder of the standard library, by way of its encoder: bytes are a text exactly if they are the
encoding of one. ASCII bytes are characters one by one. -/

/-- `str::as_bytes`. -/
def bytes (s : String) : List UInt8 := s.toByteArray.data.toList

/-- `str::from_utf8`: the text of the bytes, if they are one. -/
def fromUtf8 (b : List UInt8) : Option String := String.fromUTF8? b.toByteArray

/-- The bytes of a text are the encodings of its characters. -/
theorem bytes_eq_flatMap (s : String) : bytes s = s.toList.flatMap String.utf8EncodeChar := by
  rw [bytes, ← String.utf8Encode_toList, List.utf8Encode, List.toList_data_toByteArray]

/-- The bytes of a text that was read from bytes. -/
theorem bytes_of_fromUtf8 {b : List UInt8} {s : String} (h : fromUtf8 b = some s) :
    bytes s = b := by
  unfold fromUtf8 String.fromUTF8? at h
  split at h
  · cases h
    exact List.toList_data_toByteArray
  · cases h

/-- The bytes of a text are read as that text. -/
theorem fromUtf8_bytes (s : String) : fromUtf8 (bytes s) = some s := by
  have hbytes : (bytes s).toByteArray = s.toByteArray :=
    ByteArray.ext (Array.toList_inj.mp List.toList_data_toByteArray)
  rw [fromUtf8, hbytes]
  exact dif_pos s.isValidUTF8

/-- A character below `0x80` is encoded as itself. -/
theorem utf8EncodeChar_of_lt {c : Char} (h : c.toNat < 0x80) :
    String.utf8EncodeChar c = [UInt8.ofNat c.toNat] :=
  if_pos (Nat.le_of_lt_succ h)

/-- The encoding of any other character starts with a byte from `0xc0` on. -/
theorem utf8EncodeChar_of_ge {c : Char} (h : 0x80 ≤ c.toNat) :
    ∃ b rest, String.utf8EncodeChar c = b :: rest ∧ 0xc0 ≤ b.toNat := by
  have h' : ¬ c.val.toNat ≤ 0x7f := Nat.not_le_of_lt h
  unfold String.utf8EncodeChar
  rw [if_neg h']
  split
  · refine ⟨_, _, rfl, ?_⟩
    rw [UInt8.toNat_ofNat']
    omega
  · split
    · refine ⟨_, _, rfl, ?_⟩
      rw [UInt8.toNat_ofNat']
      omega
    · refine ⟨_, _, rfl, ?_⟩
      rw [UInt8.toNat_ofNat']
      omega

/-- The code of the character with a code below `0x80`. -/
theorem toNat_charOfNat {n : Nat} (h : n < 0x80) : (Char.ofNat n).toNat = n := by
  have hvalid : n.isValidChar := Or.inl (by omega)
  rw [Char.ofNat, dif_pos hvalid]
  rfl

/-- A byte below `0x80` is the encoding of a character. -/
theorem utf8EncodeChar_charOfNat {b : UInt8} (h : b.toNat < 0x80) :
    String.utf8EncodeChar (Char.ofNat b.toNat) = [b] := by
  have hc := toNat_charOfNat h
  rw [utf8EncodeChar_of_lt (by omega), hc, UInt8.ofNat_toNat]

/-- Bytes below `0x80` are a text. -/
theorem fromUtf8_of_lt {b : List UInt8} (h : ∀ x ∈ b, x.toNat < 0x80) :
    ∃ s, fromUtf8 b = some s := by
  have hencode : b.flatMap (fun x => String.utf8EncodeChar (Char.ofNat x.toNat)) = b := by
    induction b with
    | nil => rfl
    | cons x b ih =>
        rw [List.flatMap_cons, utf8EncodeChar_charOfNat (h x List.mem_cons_self),
          ih fun y hy => h y (List.mem_cons_of_mem _ hy)]
        rfl
  have hvalid : b.toByteArray.IsValidUTF8 := by
    refine ⟨b.map fun x => Char.ofNat x.toNat, ?_⟩
    rw [List.utf8Encode, List.flatMap_map, hencode]
  exact ⟨_, dif_pos hvalid⟩

/-! ### Numbers in a text

`from_str_radix` for a byte, with its treatment of signs. A text of two digits in base 16 is at most
255, so the error of an overflow does not occur for it. -/

/-- `IntErrorKind`, as far as an unsigned number needs it. -/
inductive IntErrorKind where
  | Empty
  | InvalidDigit
  | PosOverflow
  deriving DecidableEq, Repr

/-- `char::to_digit`, for the character of a byte. -/
def toDigit (radix : Nat) (c : UInt8) : Option Nat :=
  let value :=
    if 0x30 ≤ c.toNat ∧ c.toNat ≤ 0x39 then some (c.toNat - 0x30)
    else if 0x61 ≤ c.toNat ∧ c.toNat ≤ 0x7a then some (c.toNat - 0x61 + 10)
    else if 0x41 ≤ c.toNat ∧ c.toNat ≤ 0x5a then some (c.toNat - 0x41 + 10)
    else none
  value.filter (· < radix)

/-- The loop of `from_str_radix` over the digits, with the number so far. -/
def parseDigits (radix : Nat) : List UInt8 → Nat → Except IntErrorKind UInt8
  | [], result => .ok (UInt8.ofNat result)
  | c :: digits, result =>
      match toDigit radix c with
      | none => .error .InvalidDigit
      | some x =>
          if 256 ≤ result * radix + x then .error .PosOverflow
          else parseDigits radix digits (result * radix + x)

/-- `u8::from_str_radix`. -/
def u8FromStrRadix (src : String) (radix : Nat) : Except IntErrorKind UInt8 :=
  match bytes src with
  | [] => .error .Empty
  -- A sign on its own.
  | [c] => if c = 0x2b ∨ c = 0x2d then .error .InvalidDigit else parseDigits radix [c] 0
  -- An unsigned type takes a plus sign. A minus sign is left to the digits.
  | c :: digits =>
      if c = 0x2b then parseDigits radix digits 0 else parseDigits radix (c :: digits) 0

section Digits

variable {radix : Nat} {c d : UInt8} {x y : Nat}

/-- A digit is below the radix. -/
theorem toDigit_lt (h : toDigit radix c = some x) : x < radix := by
  have hfilter := (Option.filter_eq_some_iff.mp h).2
  exact of_decide_eq_true hfilter

/-- A digit is a character below `0x80`, and not the plus sign. -/
theorem of_toDigit (h : toDigit radix c = some x) : c.toNat < 0x80 ∧ c ≠ 0x2b := by
  have hvalue := (Option.filter_eq_some_iff.mp h).1
  have hrange : 0x30 ≤ c.toNat ∧ c.toNat < 0x80 := by
    split at hvalue
    · omega
    · split at hvalue
      · omega
      · split at hvalue
        · omega
        · cases hvalue
  refine ⟨hrange.2, ?_⟩
  rintro rfl
  exact absurd hrange.1 (by decide)

/-- Something that is not a digit ends the number. -/
theorem parseDigits_of_none (h : toDigit radix c = none) (digits : List UInt8) (result : Nat) :
    parseDigits radix (c :: digits) result = .error .InvalidDigit := by
  rw [parseDigits, h]

/-- One more digit. -/
theorem parseDigits_of_some (h : toDigit radix c = some x) (digits : List UInt8) {result : Nat}
    (hlt : result * radix + x < 256) :
    parseDigits radix (c :: digits) result = parseDigits radix digits (result * radix + x) := by
  rw [parseDigits, h]
  exact if_neg (Nat.not_le_of_lt hlt)

/-- A text of two bytes is a number of two digits, or of one digit behind a plus sign. -/
theorem u8FromStrRadix_two {src : String} (h : bytes src = [c, d]) :
    u8FromStrRadix src radix
      = if c = 0x2b then parseDigits radix [d] 0 else parseDigits radix [c, d] 0 := by
  rw [u8FromStrRadix, h]

end Digits

end Text
