import EcSlimloader.Proofs.Tool.CertBlock
import EcSlimloader.Tool.Mbi

/-!
# `EcSlimloader.Proofs.Tool.Mbi`: what the tool puts in an image

`Built` lists the facts about an image that `Image::new` has made: the four patched words
of its header, its padded data, and its certificate block with the total length in it.
`new_built` proves them. `merge_of_check` says what `merge` returns for a signature that
`check` accepts.

The header is patched four times, and the certificate block once. Each patch is a `splice`, so the
fields that a patch leaves alone are a matter of offsets: `u32At_setField_of_disjoint` is used with
`omega` for the distance. `Built` is what later modules use in the place of `Image.new`.
-/

set_option autoImplicit false

namespace EcSlimloader

open Bytes (u32At toLe splice length_splice u32At_splice_self u32At_splice_of_disjoint)

/-! ### The header -/

namespace ImageHeader

variable {header : ImageHeader} {offset : Nat} {value : UInt32}

/-- A field of the header holds what was written to it. -/
theorem u32At_setField_self (h : offset + 4 ≤ 0x40) :
    u32At (header.setField offset value h).ivt offset = value :=
  u32At_splice_self (by rw [header.length_ivt]; exact h)

/-- Fields that do not overlap do not change each other. -/
theorem u32At_setField_of_disjoint (h : offset + 4 ≤ 0x40) {offset' : Nat}
    (hdisj : offset' + 4 ≤ offset ∨ offset + 4 ≤ offset') :
    u32At (header.setField offset value h).ivt offset' = u32At header.ivt offset' :=
  u32At_splice_of_disjoint (by rw [header.length_ivt]; exact h) hdisj

/-- The length is set if it fits in the field. -/
theorem setImageLength_eq_ok {header' : ImageHeader} {imageLength : Nat}
    (h : header.setImageLength imageLength = .ok header') :
    imageLength < 2 ^ 32 ∧
      header' = header.setField 0x20 (UInt32.ofNat imageLength) (by decide) := by
  unfold setImageLength at h
  split at h
  · cases h
  next hlt => exact ⟨by omega, (Except.ok.inj h).symm⟩

end ImageHeader

/-- The total length is set if it fits in the field. -/
theorem CertBlock.setTotalImageLengthInBytes_eq_ok {me me' : CertBlock} {length : Nat}
    (h : me.setTotalImageLengthInBytes length = .ok me') :
    0x18 ≤ me.data.length ∧ me' = { data := splice me.data 0x14 (toLe (UInt32.ofNat length)) } := by
  unfold setTotalImageLengthInBytes at h
  split at h
  · cases h
  split at h
  · cases h
  next hlen => exact ⟨by omega, (Except.ok.inj h).symm⟩

namespace ImageType

/-- The image type of a signed image that is executed in place. -/
theorem asU32_xipPlainSigned : (ImageType.new .XipPlainSigned).asU32 = 4 := rfl

/-- The kind is in the low byte. -/
theorem asU32_mod (imageType : ImageType) :
    imageType.asU32.toNat % 256 = imageType.imageKind.toNat := by
  obtain ⟨keyStore, tz, preset, keys, kind⟩ := imageType
  cases keyStore <;> cases tz <;> cases preset <;> cases keys <;> cases kind <;> rfl

end ImageType

/-- The low byte of a number is the first one. -/
theorem u32At_mod (data : List UInt8) (offset : Nat) :
    (u32At data offset).toNat % 256 = (data.getD offset 0).toNat := by
  have h := (data.getD offset 0).toNat_lt
  rw [u32At, Bytes.toNat_fromLe]
  omega

/-! ### The image -/

namespace Image

variable {Certificate Key : Type} {crypto : Crypto Certificate Key} {overflowChecks : Bool}
  {raw : List UInt8} {baseAddr : UInt32} {imageType : ImageType} {certBlock : CertBlock}
  {me : Image}

/-- What `Image::new` has put in an image. `signatureLen` is the length that it expects of
the signature. -/
structure Built (crypto : Crypto Certificate Key) (overflowChecks : Bool) (raw : List UInt8)
    (baseAddr : UInt32) (imageType : ImageType) (certBlock : CertBlock) (signatureLen : Nat)
    (me : Image) : Prop where
  data : me.data = padData (raw.drop 0x40)
  length_certBlock : 0x18 ≤ certBlock.data.length
  patched : me.certBlock.data = splice certBlock.data 0x14
    (toLe (UInt32.ofNat (0x40 + me.data.length + certBlock.data.length)))
  signature : me.certBlock.signatureLen crypto overflowChecks = .ok signatureLen
  total_lt : 0x40 + me.data.length + certBlock.data.length
    + (if imageType.imageKind.hasHmac then 32 else 0) + signatureLen < 2 ^ 32
  imageLen : u32At me.header.ivt 0x20 = UInt32.ofNat (0x40 + me.data.length
    + certBlock.data.length + (if imageType.imageKind.hasHmac then 32 else 0) + signatureLen)
  type : u32At me.header.ivt 0x24 = imageType.asU32
  headerOffset : u32At me.header.ivt 0x28 = UInt32.ofNat (0x40 + me.data.length)
  targetPtr : u32At me.header.ivt 0x34 = baseAddr

/-- The fields of a new header. -/
theorem header_new_eq_ok {ivt : List UInt8} {headerOffset loadAddr : UInt32} {header : ImageHeader}
    (h : ImageHeader.new ivt imageType headerOffset loadAddr = .ok header) :
    u32At header.ivt 0x24 = imageType.asU32 ∧ u32At header.ivt 0x28 = headerOffset ∧
      u32At header.ivt 0x34 = loadAddr := by
  unfold ImageHeader.new at h
  split at h
  · obtain rfl := Except.ok.inj h
    refine ⟨?_, ?_, ?_⟩
    · -- The three fields are apart, so a later one leaves an earlier one alone.
      rw [ImageHeader.u32At_setField_of_disjoint _ (by omega),
        ImageHeader.u32At_setField_of_disjoint _ (by omega), ImageHeader.u32At_setField_self]
    · rw [ImageHeader.u32At_setField_of_disjoint _ (by omega), ImageHeader.u32At_setField_self]
    · rw [ImageHeader.u32At_setField_self]
  · cases h

/-- An image that `Image::new` returns is built as described. -/
theorem new_built (h : Image.new crypto overflowChecks raw baseAddr imageType certBlock = .ok me) :
    ∃ signatureLen,
      Built crypto overflowChecks raw baseAddr imageType certBlock signatureLen me := by
  unfold Image.new at h
  split at h
  · cases h
  next hraw =>
  have htake : (raw.take 0x40).length = 0x40 := by
    rw [List.length_take]
    omega
  simp only [Except.bind_eq_ok, htake] at h
  -- The steps of `new` in the order of the source, each with what it returned.
  obtain ⟨header, hheader, certBlock', hcert, signatureLen, hsig, header', hlen, hme⟩ := h
  obtain rfl := Except.ok.inj hme
  obtain ⟨htype, hoffset, htarget⟩ := header_new_eq_ok hheader
  obtain ⟨hcertLen, rfl⟩ := CertBlock.setTotalImageLengthInBytes_eq_ok hcert
  obtain ⟨htotal, rfl⟩ := ImageHeader.setImageLength_eq_ok hlen
  refine ⟨signatureLen, rfl, hcertLen, rfl, hsig, htotal, ?_, ?_, ?_, ?_⟩
  · rw [ImageHeader.u32At_setField_self]
  · rw [ImageHeader.u32At_setField_of_disjoint _ (by omega), htype]
  · rw [ImageHeader.u32At_setField_of_disjoint _ (by omega), hoffset]
  · rw [ImageHeader.u32At_setField_of_disjoint _ (by omega), htarget]

section Built

variable {signatureLen : Nat}

/-- The kind in the header is the one that the image was made with. -/
theorem Built.imageKind
    (h : Built crypto overflowChecks raw baseAddr imageType certBlock signatureLen me) :
    me.header.imageKind = .ok imageType.imageKind := by
  have hbyte : me.header.ivt.getD 0x24 0 = UInt8.ofNat imageType.imageKind.toNat := by
    apply UInt8.toNat_inj.mp
    rw [← u32At_mod, h.type, ImageType.asU32_mod]
    cases imageType.imageKind <;> rfl
  rw [ImageHeader.imageKind, hbyte]
  cases imageType.imageKind <;> rfl

/-- The certificate block keeps its length. -/
theorem Built.length_patched
    (h : Built crypto overflowChecks raw baseAddr imageType certBlock signatureLen me) :
    me.certBlock.data.length = certBlock.data.length := by
  rw [h.patched, length_splice]
  exact h.length_certBlock

end Built

/-- A signature that `check` accepts has the right length, and `check` accepts it with the
hash of the block itself. -/
theorem check_eq_ok {signature : List UInt8} {rkth : Digest}
    (h : me.check crypto overflowChecks signature rkth = .ok ()) :
    me.certBlock.signatureLen crypto overflowChecks = .ok signature.length ∧
      me.certBlock.rkth crypto overflowChecks = .ok rkth := by
  unfold check at h
  simp only [Except.bind_eq_ok] at h
  -- First the length of the signature is compared, then the hash of the root keys.
  obtain ⟨signatureLen, hlen, h⟩ := h
  split at h
  · cases h
  next hsig =>
  simp only [Except.bind_eq_ok] at h
  obtain ⟨rkth', hrkth, h⟩ := h
  split at h
  · cases h
  next hsame =>
  rw [not_not.mp hsame] at hrkth
  rw [not_not.mp hsig]
  exact ⟨hlen, hrkth⟩

/-- `merge` for a signature that `check` accepts. -/
theorem merge_of_check {signature hmac : List UInt8} {rkth : Digest} {otp : Option Digest}
    (h : me.check crypto overflowChecks signature rkth = .ok ())
    (hhmac : me.headerHmac crypto otp = .ok hmac) :
    me.merge crypto overflowChecks signature otp
      = .ok (me.header.ivt ++ hmac ++ me.data ++ me.certBlock.data ++ signature) := by
  unfold merge
  rw [(check_eq_ok h).2, Except.ok_bind, h, Except.ok_bind, hhmac]
  rfl

end Image

end EcSlimloader
