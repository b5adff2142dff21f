import EcSlimloader.Lib.Bytes

/-!
# `EcSlimloader.Tool.CertBlock`: certificate blocks in the signing tool

`CertBlock` from `bootloader-tool/src/processors/mbi/cert_block.rs`. A certificate block
is a header, a table of certificates and four root key hashes. `from_file` takes the
content of a file, cuts off what is behind the block and verifies the rest.

X.509, RSA and SHA-256 come from other crates, so `Crypto` is a parameter. `anyhow`
errors are values of `ToolError`, one for each message. A slice index out of range, an
`assert!` and an `expect` are panics. The tool runs on a 64-bit host, where the lengths
of byte strings fit in a `usize`. Only the sums of 32-bit fields can overflow.

`verify` walks over the table of certificates twice. The first time it takes the entries apart, and
the second time it goes along the chain, from the root to the leaf, with the key of one certificate
checking the signature of the next. The order of the checks decides which message a bad block gets,
and it is kept.
-/

set_option autoImplicit false

namespace EcSlimloader

open Bytes (u32At toLe splice sliceFrom sliceRange addU32)

/-- A SHA-256 digest. -/
abbrev Digest : Type := { bytes : List UInt8 // bytes.length = 32 }

/-- `PublicKey` of `x509_parser`, as far as it matters. -/
inductive PublicKey where
  | rsa (modulus exponent : List UInt8)
  | other
  deriving DecidableEq, Repr

/-- The functions of the cryptographic crates, over certificates and RSA keys. -/
structure Crypto (Certificate Key : Type) where
  /-- `Sha256` over a whole message. -/
  sha256 : List UInt8 → Digest
  /-- `X509Certificate::from_der`: the certificate, and the bytes behind it. -/
  fromDer : List UInt8 → Option (List UInt8 × Certificate)
  /-- Whether the signature algorithm is `OID_PKCS1_SHA256WITHRSA`. -/
  isSha256WithRsa : Certificate → Bool
  /-- `public_key().parsed()`. -/
  parsedKey : Certificate → Option PublicKey
  /-- `is_ca()`. -/
  isCa : Certificate → Bool
  /-- `cert.verify_signature(Some(issuer.public_key()))`. -/
  verifySignature : Certificate → Certificate → Bool
  /-- `RsaPublicKey::from_public_key_der(cert.public_key().raw)`. -/
  rsaPublicKey : Certificate → Option Key
  /-- `key.size()`, the length of a signature. -/
  keySize : Key → Nat
  /-- Whether `Signature::try_from` accepts the bytes. -/
  isSignature : List UInt8 → Bool
  /-- `VerifyingKey::verify` of a message and a signature. -/
  verify : Key → List UInt8 → List UInt8 → Bool
  /-- The HMAC of a message, with the key that `Otp::hmac_key` derives. -/
  hmac : Digest → List UInt8 → Digest

/-- The errors of the tool. -/
inductive ToolError where
  /-- "CertBlock RKTH does not match provided Rkth". -/
  | rkthMismatch
  /-- "Certificate of cert {i} length is not divisible by 4". -/
  | certificateLength (i : Nat)
  /-- "Certificate block contains no certificates". -/
  | noCertificates
  /-- A certificate that `from_der` does not accept. -/
  | der
  /-- "parsed certificate has too much padding". -/
  | padding
  /-- "Wrong signature algorithm". -/
  | signatureAlgorithm
  /-- "could not parse root public key". -/
  | rootPublicKey
  /-- "Invalid public key type". -/
  | rootPublicKeyType
  /-- "Root cert is not in root key hashes!". -/
  | rootNotInTable
  /-- "Root cert is not marked as CA". -/
  | notMarkedAsCa
  /-- "Could not verify cert number {i}". -/
  | certificateSignature (i : Nat)
  /-- "Signing cert is marked as CA cert". -/
  | signingCertIsCa
  /-- "Could not parse image signing key". -/
  | signingKey
  /-- "signature length mismatch". -/
  | signatureLength (expected got : Nat)
  /-- "CertBlock RKTH does not match expected". -/
  | rkthUnexpected
  /-- A signature that `Signature::try_from` does not accept. -/
  | signatureFormat
  /-- "Could not verify signature with the current image". -/
  | signature
  /-- "Expected OTP to be passed for signing the bootloader". -/
  | otpMissing
  deriving DecidableEq, Repr

/-- The result of a function of the tool. -/
abbrev ToolResult (α : Type) : Type := Except (Fault ToolError) α

/-- `assert!` and `assert_eq!`. -/
def ToolResult.assert (c : Prop) [Decidable c] : ToolResult Unit :=
  if c then .ok () else .error (.panic "assertion failed")

/-- `expect`: an error becomes a panic. -/
def ToolResult.expect {α : Type} (msg : String) : ToolResult α → ToolResult α
  | .ok a => .ok a
  | .error _ => .error (.panic msg)

section Crypto

variable {Certificate Key : Type} (crypto : Crypto Certificate Key)

/-- `parse_x509_cert`. -/
def parseX509Cert (bytes : List UInt8) : ToolResult Certificate :=
  match crypto.fromDer bytes with
  | none => .error (.error .der)
  | some (rem, cert) =>
      if rem.length ≥ 4 then .error (.error .padding)
      else if !crypto.isSha256WithRsa cert then .error (.error .signatureAlgorithm)
      else .ok cert

/-- `CertBlock`. -/
structure CertBlock where
  data : List UInt8
  deriving DecidableEq, Repr

namespace CertBlock

/-- The number at `offset..offset + 4` of the block. -/
def field (me : CertBlock) (offset : Nat) : ToolResult UInt32 := do
  pure (u32At (← sliceRange me.data offset (offset + 4)) 0)

/-- `cert_count`. -/
def certCount (me : CertBlock) : ToolResult UInt32 := me.field 0x18

/-- `cert_table_len`. -/
def certTableLen (me : CertBlock) : ToolResult UInt32 := me.field 0x1c

/-- `header_len`. A length other than `0x20` is only worth a warning. -/
def headerLen (me : CertBlock) : ToolResult UInt32 := me.field 0x08

/-- `self.header_len() + self.cert_table_len()`. -/
def rkhStart (overflowChecks : Bool) (me : CertBlock) : ToolResult UInt32 := do
  addU32 overflowChecks (← me.headerLen) (← me.certTableLen)

/-- `set_total_image_length_in_bytes`. -/
def setTotalImageLengthInBytes (me : CertBlock) (length : Nat) : ToolResult CertBlock :=
  if 2 ^ 32 ≤ length then .error (.panic "called `Result::unwrap()` on an `Err` value")
  else if me.data.length < 0x18 then .error (.panic "range end index out of range for slice")
  else .ok { data := splice me.data 0x14 (toLe (UInt32.ofNat length)) }

/-- `root_key_hashes`. -/
def rootKeyHashes (overflowChecks : Bool) (me : CertBlock) : ToolResult (List (List UInt8)) := do
  let data ← sliceFrom me.data (← me.rkhStart overflowChecks).toNat
  ToolResult.assert (data.length = 4 * 32)
  pure ((List.range 4).map fun i => (data.drop (32 * i)).take 32)

/-- `rkth`. -/
def rkth (overflowChecks : Bool) (me : CertBlock) : ToolResult Digest := do
  pure (crypto.sha256 (← me.rootKeyHashes overflowChecks).flatten)

/-- The loop of `certificates`: `count` more certificates, the next one at `nextCert`
with number `i`. It returns the certificates and the end of the last one. -/
def certificatesFrom (me : CertBlock) : Nat → Nat → Nat → ToolResult (List (List UInt8) × Nat)
  | 0, _, nextCert => pure ([], nextCert)
  | count + 1, i, nextCert => do
      let certLen := (u32At (← sliceRange me.data nextCert (nextCert + 4)) 0).toNat
      if certLen % 4 ≠ 0 then
        .error (.error (.certificateLength i))
      else
        let nextCert := nextCert + 4
        let cert ← sliceRange me.data nextCert (nextCert + certLen)
        let (out, nextCert) ← me.certificatesFrom count (i + 1) (nextCert + certLen)
        pure (cert :: out, nextCert)

/-- `certificates`. -/
def certificates (overflowChecks : Bool) (me : CertBlock) : ToolResult (List (List UInt8)) := do
  let nextCert := (← me.headerLen).toNat
  let (out, nextCert) ← me.certificatesFrom (← me.certCount).toNat 0 nextCert
  ToolResult.assert (nextCert = (← me.rkhStart overflowChecks).toNat)
  pure out

/-- "Ensure the rkth is correct if the user has one." -/
def verifyRkth (overflowChecks : Bool) (me : CertBlock) : Option Digest → ToolResult Unit
  | none => pure ()
  | some rkth => do
      if (← me.rkth crypto overflowChecks) ≠ rkth then .error (.error .rkthMismatch) else pure ()

/-- The hash of a root public key: modulus and exponent, without a zero byte in front of
the modulus. -/
def rootKeyHash (modulus exponent : List UInt8) : Digest :=
  crypto.sha256 ((match modulus with
    | 0 :: stripped => stripped
    | _ => modulus) ++ exponent)

/-- "Check root cert is in root key hashes", and that it is a CA certificate. -/
def verifyRoot (overflowChecks : Bool) (me : CertBlock) (rawRootCert : List UInt8) :
    ToolResult Certificate := do
  let rootCert ← parseX509Cert crypto rawRootCert
  match crypto.parsedKey rootCert with
  | none => .error (.error .rootPublicKey)
  | some .other => .error (.error .rootPublicKeyType)
  | some (.rsa modulus exponent) =>
      if (rootKeyHash crypto modulus exponent).val ∉ (← me.rootKeyHashes overflowChecks) then
        .error (.error .rootNotInTable)
      else if !crypto.isCa rootCert then
        .error (.error .notMarkedAsCa)
      else pure rootCert

/-- "Walk the certificate chain": the certificates behind the root, with the number of the
next one and the certificate that signs it. It returns the last certificate. -/
def walkChain : List (List UInt8) → Nat → Certificate → ToolResult Certificate
  | [], _, signingCert => pure signingCert
  | raw :: rest, i, signingCert => do
      if !crypto.isCa signingCert then
        .error (.error .notMarkedAsCa)
      else
        let cert ← parseX509Cert crypto raw
        if !crypto.verifySignature cert signingCert then
          .error (.error (.certificateSignature i))
        else walkChain rest (i + 1) cert

/-- `verify`. -/
def verify (overflowChecks : Bool) (me : CertBlock) (rkth : Option Digest) : ToolResult Unit := do
  me.verifyRkth crypto overflowChecks rkth
  let certs ← me.certificates overflowChecks
  match certs with
  | [] => .error (.error .noCertificates)
  | rawRootCert :: rest =>
      let rootCert ← me.verifyRoot crypto overflowChecks rawRootCert
      let signingCert ← walkChain crypto rest 0 rootCert
      if crypto.isCa signingCert ∧ certs.length > 1 then
        .error (.error .signingCertIsCa)
      else if (crypto.rsaPublicKey signingCert).isNone then
        .error (.error .signingKey)
      else pure ()

/-- `from_file`, for a file with the content `data`. -/
def fromFile (overflowChecks : Bool) (data : List UInt8) (rkth : Option Digest) :
    ToolResult CertBlock := do
  let me : CertBlock := { data }
  let certBlockLen ← addU32 overflowChecks (← me.rkhStart overflowChecks) (4 * 32)
  ToolResult.assert (me.data.length ≥ certBlockLen.toNat)
  let me : CertBlock := { data := me.data.take certBlockLen.toNat }
  me.verify crypto overflowChecks rkth
  pure me

/-- `verifying_key`. -/
def verifyingKey (overflowChecks : Bool) (me : CertBlock) : ToolResult Key := do
  let certs ← ToolResult.expect "Ensured in verify" (me.certificates overflowChecks)
  match certs.getLast? with
  | none => .error (.panic "Ensured in verify")
  | some signingCert =>
      let signingCert ← ToolResult.expect "Ensured in verify" (parseX509Cert crypto signingCert)
      match crypto.rsaPublicKey signingCert with
      | none => .error (.panic "Ensured by verify being called in from file")
      | some key => pure key

/-- `signature_len`. -/
def signatureLen (overflowChecks : Bool) (me : CertBlock) : ToolResult Nat := do
  pure (crypto.keySize (← me.verifyingKey crypto overflowChecks))

end CertBlock

end Crypto

end EcSlimloader
