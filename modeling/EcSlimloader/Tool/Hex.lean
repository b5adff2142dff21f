import EcSlimloader.Lib.Text
import EcSlimloader.State.Journal
import EcSlimloader.Tool.CertBlock

/-!
# `EcSlimloader.Tool.Hex`: key material in hexadecimal

`parse_hex` and `generate_hex` from `bootloader-tool/src/util/mod.rs`, and the two types that are
read and written with them: `Otp` from `processors/otp.rs`, the key in the fuses, and `Rkth` from
`processors/certificates.rs`, the hash of the root keys. Both are a `[u8; 32]`, which is the type
`Digest` here.

`parse_hex` goes over the bytes of its text in pairs. The pairs are those of `chunks_exact(2)`, so
an odd byte at the end is dropped. A pair that is not a text of its own is a panic, because the
result of `from_utf8` is unwrapped.

The contexts that the source gives to its errors are the cases of `HexError`. Where a pair is a text
but no number, the error of `from_str_radix` is in it.
-/

set_option autoImplicit false

namespace EcSlimloader

open FlashJournal (chunksExact)

/-- The errors of `from_hex`. -/
inductive HexError where
  /-- "Input not hexidecimal", with the error of the number behind it. -/
  | notHexidecimal (source : Text.IntErrorKind)
  /-- "Input not appropriate size". -/
  | size
  deriving DecidableEq, Repr

/-- The result of a function that reads hexadecimal text. -/
abbrev HexResult (α : Type) : Type := Except (Fault HexError) α

/-- The closure of `parse_hex`: the number that a pair of bytes spells. -/
def parseChunk (chunk : UInt8 × UInt8) : Except (Fault Text.IntErrorKind) UInt8 :=
  match Text.fromUtf8 [chunk.1, chunk.2] with
  | none => .error (.panic "called `Result::unwrap()` on an `Err` value")
  | some s => (Text.u8FromStrRadix s 16).mapError .error

/-- `parse_hex`. The first pair that is not a number ends it. -/
def parseHex (s : String) : HexResult (List UInt8) :=
  ((chunksExact (Text.bytes s)).mapM parseChunk).mapError (Fault.map .notHexidecimal)

/-- An upper-case hexadecimal digit. -/
def upperHexDigit (n : Nat) : Char := Char.ofNat (if n < 10 then 0x30 + n else 0x41 + (n - 10))

/-- `format!("{b:02X}")`. -/
def formatByte (b : UInt8) : String :=
  String.ofList [upperHexDigit (b.toNat / 16), upperHexDigit (b.toNat % 16)]

/-- `generate_hex`. -/
def generateHex (buf : List UInt8) : String :=
  buf.foldl (fun result b => result ++ formatByte b) ""

/-- The body of `Otp::from_hex` and of `Rkth::from_hex`. -/
def arrayFromHex (str : String) : HexResult Digest := do
  let bytes ← parseHex str
  if h : bytes.length = 32 then pure ⟨bytes, h⟩ else .error (.error .size)

namespace Tool

/-- `Otp`. -/
abbrev Otp : Type := Digest

/-- `Otp::as_hex`. -/
def Otp.asHex (me : Otp) : String := generateHex me.val

/-- `Otp::from_hex`. -/
def Otp.fromHex (str : String) : HexResult Otp := arrayFromHex str

/-- `Rkth`. -/
abbrev Rkth : Type := Digest

/-- `Rkth::as_hex`. -/
def Rkth.asHex (me : Rkth) : String := generateHex me.val

/-- `Rkth::from_hex`. -/
def Rkth.fromHex (str : String) : HexResult Rkth := arrayFromHex str

end Tool

end EcSlimloader
