import EcSlimloader.Tool.CertBlock

/-!
# `EcSlimloader.Tool.Mbi`: building a signed image

`Image` from `bootloader-tool/src/processors/mbi/mod.rs`: a raw firmware image with the
header fields of a master boot image in its vector table, padding, and a certificate
block. `sign_me` is the string to be signed. `merge` checks a signature and appends it.

The header is a vector table of 64 bytes, and the structure carries this length. `setField` takes
the proof that a field fits, so no write can go out of bounds. The certificate block comes in
already checked. `Image::new` writes the total length into it, and that is the only change to it.
-/

set_option autoImplicit false

namespace EcSlimloader

open Bytes (toLe splice)

/-- `ImageKind`. -/
inductive ImageKind where
  | Plain
  | PlainSigned
  | PlainWithCrc
  | EncryptedSigned
  | XipPlainSigned
  | XipPlainWithCrc
  deriving DecidableEq, Repr

namespace ImageKind

/-- `image_kind as u32`. -/
def toNat : ImageKind → Nat
  | .Plain => 0
  | .PlainSigned => 1
  | .PlainWithCrc => 2
  | .EncryptedSigned => 3
  | .XipPlainSigned => 4
  | .XipPlainWithCrc => 5

/-- `ImageKind::from_u8`. -/
def fromU8 (value : UInt8) : Option ImageKind :=
  match value with
  | 0 => some .Plain
  | 1 => some .PlainSigned
  | 2 => some .PlainWithCrc
  | 3 => some .EncryptedSigned
  | 4 => some .XipPlainSigned
  | 5 => some .XipPlainWithCrc
  | _ => none

/-- `ImageKind::has_hmac`. -/
def hasHmac : ImageKind → Bool
  | .Plain | .PlainWithCrc | .XipPlainSigned | .XipPlainWithCrc => false
  | .PlainSigned | .EncryptedSigned => true

end ImageKind

/-- `TrustZone`. -/
inductive TrustZone where
  | Enabled
  | Disabled
  deriving DecidableEq, Repr

/-- `TrustZonePreset`. -/
inductive TrustZonePreset where
  | NotIncluded
  | Included
  deriving DecidableEq, Repr

/-- `ImageType`, the bits of the image type header field. -/
structure ImageType where
  keyStoreIncluded : Bool
  tzMImageType : TrustZone
  tzMPreset : TrustZonePreset
  enableHwUserModeKeys : Bool
  imageKind : ImageKind
  deriving DecidableEq, Repr

namespace ImageType

/-- `ImageType::new`. -/
def new (imageKind : ImageKind) : ImageType where
  keyStoreIncluded := false
  tzMImageType := .Enabled
  tzMPreset := .NotIncluded
  enableHwUserModeKeys := false
  imageKind

/-- `ImageType::as_u32`. The fields do not share a bit, so the sum is the bitwise or. -/
def asU32 (imageType : ImageType) : UInt32 :=
  UInt32.ofNat (imageType.keyStoreIncluded.toNat * 2 ^ 15
    + (match imageType.tzMImageType with
      | .Enabled => 0
      | .Disabled => 1) * 2 ^ 14
    + (match imageType.tzMPreset with
      | .NotIncluded => 0
      | .Included => 1) * 2 ^ 13
    + imageType.enableHwUserModeKeys.toNat * 2 ^ 12
    + imageType.imageKind.toNat)

end ImageType

/-- `ImageHeader`, a vector table with some fields modified. Its constructor asserts the
length. -/
structure ImageHeader where
  ivt : List UInt8
  length_ivt : ivt.length = 0x40
  deriving DecidableEq

namespace ImageHeader

/-- The header with a number at an offset. -/
def setField (header : ImageHeader) (offset : Nat) (value : UInt32) (h : offset + 4 ≤ 0x40) :
    ImageHeader where
  ivt := splice header.ivt offset (toLe value)
  length_ivt := by
    rw [Bytes.length_splice (by rw [header.length_ivt]; exact h), header.length_ivt]

/-- `ImageHeader::new`. -/
def new (ivt : List UInt8) (imageType : ImageType) (headerOffset loadAddr : UInt32) :
    ToolResult ImageHeader :=
  if h : ivt.length = 0x40 then
    let header : ImageHeader := ⟨ivt, h⟩
    let header := header.setField 0x24 imageType.asU32 (by decide)
    let header := header.setField 0x28 headerOffset (by decide)
    .ok (header.setField 0x34 loadAddr (by decide))
  else .error (.panic "assertion failed")

/-- `set_image_length`. -/
def setImageLength (header : ImageHeader) (imageLength : Nat) : ToolResult ImageHeader :=
  if 2 ^ 32 ≤ imageLength then .error (.panic "called `Result::unwrap()` on an `Err` value")
  else .ok (header.setField 0x20 (UInt32.ofNat imageLength) (by decide))

/-- `image_kind`. -/
def imageKind (header : ImageHeader) : ToolResult ImageKind :=
  match ImageKind.fromU8 (header.ivt.getD 0x24 0) with
  | some kind => .ok kind
  | none => .error (.panic "image kind was set in new")

end ImageHeader

/-- `Image`, all data that is contained in an MBI. -/
structure Image where
  header : ImageHeader
  data : List UInt8
  certBlock : CertBlock
  deriving DecidableEq

namespace Image

/-- `DATA_ALIGN`. -/
def dataAlign : Nat := 4

/-- "Pad out data so the cert block is aligned correctly". -/
def padData (data : List UInt8) : List UInt8 :=
  if data.length % dataAlign ≠ 0 then padData (data ++ [0]) else data
termination_by (dataAlign - data.length % dataAlign) % dataAlign
decreasing_by
  simp only [dataAlign, List.length_append, List.length_singleton] at *
  omega

section Crypto

variable {Certificate Key : Type} (crypto : Crypto Certificate Key) (overflowChecks : Bool)

/-- `Image::new`. -/
def new (image : List UInt8) (baseAddr : UInt32) (imageType : ImageType) (certBlock : CertBlock) :
    ToolResult Image :=
  if image.length < 0x40 then .error (.panic "mid > len")
  else do
    let ivt := image.take 0x40
    let data := padData (image.drop 0x40)
    let imageLen := ivt.length + data.length
    let header ← ImageHeader.new ivt imageType (UInt32.ofNat imageLen) baseAddr
    let signedLen := imageLen + certBlock.data.length
    let certBlock ← certBlock.setTotalImageLengthInBytes signedLen
    let hmacLen := if imageType.imageKind.hasHmac then 32 else 0
    let header ← header.setImageLength
      (signedLen + hmacLen + (← certBlock.signatureLen crypto overflowChecks))
    pure { header, data, certBlock }

/-- `sign_me`. -/
def signMe (me : Image) : List UInt8 := me.header.ivt ++ me.data ++ me.certBlock.data

/-- `check`. -/
def check (me : Image) (signature : List UInt8) (rkth : Digest) : ToolResult Unit := do
  let signatureLen ← me.certBlock.signatureLen crypto overflowChecks
  if signature.length ≠ signatureLen then
    .error (.error (.signatureLength signatureLen signature.length))
  else if (← me.certBlock.rkth crypto overflowChecks) ≠ rkth then
    .error (.error .rkthUnexpected)
  else if !crypto.isSignature signature then
    .error (.error .signatureFormat)
  else if !crypto.verify (← me.certBlock.verifyingKey crypto overflowChecks) me.signMe
      signature then
    .error (.error .signature)
  else pure ()

/-- The HMAC of the header, for the kinds of images that have one. -/
def headerHmac (me : Image) (otp : Option Digest) : ToolResult (List UInt8) := do
  if (← me.header.imageKind).hasHmac then
    match otp with
    | none => .error (.error .otpMissing)
    | some otp => pure (crypto.hmac otp me.header.ivt).val
  else pure []

/-- `merge`. -/
def merge (me : Image) (signature : List UInt8) (otp : Option Digest) :
    ToolResult (List UInt8) := do
  me.check crypto overflowChecks signature (← me.certBlock.rkth crypto overflowChecks)
  let hmac ← me.headerHmac crypto otp
  pure (me.header.ivt ++ hmac ++ me.data ++ me.certBlock.data ++ signature)

end Crypto

end Image

end EcSlimloader
