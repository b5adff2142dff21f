import EcSlimloader.Proofs.Imxrt.Verification
import EcSlimloader.Proofs.Tool.Mbi

/-!
# `EcSlimloader.Proofs.Tool.RoundTrip`: the device parses what the tool writes

The tool and the device are separate programs with offsets of their own.
`merge_parses` compares them: the device finds the header fields, the certificate block
and the root key hashes of a merged image where the tool has put them, and it computes the
hash that `CertBlock::rkth` computes.

`imageRkhs_of_block` is the device's side of it, for any string with a certificate block of
a known layout in it. The tool's side is `Image.new_built` and `CertBlock.fromFile_layout`.

The device knows the total length from the header alone, and the tool has set it before there was a
signature. `Built.imageLen_toNat` says that the two agree, for a signature of the announced length.
`merge` checks that length before it puts the parts together.
-/

set_option autoImplicit false

namespace EcSlimloader

open Bytes (u32At toLe splice addU32_of_lt length_toLe length_splice u32At_append_left
  u32At_append_right u32At_splice_of_disjoint drop_splice)

/-! ### The device -/

/-- The header fields are those of the first 64 bytes. -/
theorem Ivt.parse_append (header : ImageHeader) (rest : List UInt8) :
    Ivt.parse (header.ivt ++ rest) = Ivt.parse header.ivt := by
  have h := header.length_ivt
  simp only [Ivt.parse]
  rw [u32At_append_left (by omega), u32At_append_left (by omega), u32At_append_left (by omega),
    u32At_append_left (by omega)]

/-- The four hashes behind a certificate table. -/
def hashesAt (block : List UInt8) (start : Nat) : List (List UInt8) :=
  (List.range 4).map fun i => ((block.drop start).drop (32 * i)).take 32

/-- What follows the last hash does not matter. -/
theorem hashesAt_append {block : List UInt8} {start : Nat} (h : block.length = start + 128)
    (rest : List UInt8) : hashesAt (block ++ rest) start = hashesAt block start := by
  apply List.map_congr_left
  intro i hi
  rw [List.mem_range] at hi
  rw [List.drop_drop, List.drop_drop, List.drop_append_of_le_length (by omega),
    List.take_append_of_le_length (by rw [List.length_drop]; omega)]

section Device

variable {front block rest : List UInt8} {headerLen certTableLen : UInt32} {ivt : Ivt}

/-- The device reads the two lengths of a certificate block in an image. -/
theorem readFromSlice_block (hblock : CertificateBlockHeader.size ≤ block.length)
    (hoff : ivt.headerOffset.toNat = front.length) :
    CertificateBlockHeader.readFromSlice ((front ++ (block ++ rest)).drop ivt.headerOffset.toNat)
      = some (CertificateBlockHeader.parse (block ++ rest)) := by
  rw [hoff, List.drop_left, CertificateBlockHeader.readFromSlice, if_neg]
  rw [List.length_append]
  omega

/-- The two lengths in a certificate block with a layout, as the device reads them. -/
theorem parse_block (hlayout : CertBlock.Layout { data := block } headerLen certTableLen) :
    (CertificateBlockHeader.parse (block ++ rest)).headerLength = headerLen ∧
      (CertificateBlockHeader.parse (block ++ rest)).certificateTableLength = certTableLen := by
  have hblock : block.length = headerLen.toNat + certTableLen.toNat + 128 := hlayout.length
  refine ⟨?_, ?_⟩
  · exact (u32At_append_left (by omega) rest).trans hlayout.header
  · exact (u32At_append_left (by omega) rest).trans hlayout.table

/-- The device finds the four hashes of a certificate block in an image. -/
theorem imageRkhs_of_block (build : Build) (hoff : ivt.headerOffset.toNat = front.length)
    (hlayout : CertBlock.Layout { data := block } headerLen certTableLen)
    (hlen : (front ++ (block ++ rest)).length < 2 ^ 32) :
    imageRkhs build ivt (front ++ (block ++ rest))
      = .ok (hashesAt block (headerLen.toNat + certTableLen.toNat)) := by
  have hblock : block.length = headerLen.toNat + certTableLen.toNat + 128 := hlayout.length
  have hstart := hlayout.le_start
  have hheader : u32At (front ++ (block ++ rest)) (ivt.headerOffset.toNat + 8) = headerLen := by
    rw [hoff, u32At_append_right rfl, u32At_append_left (by omega)]
    exact hlayout.header
  have htable : u32At (front ++ (block ++ rest)) (ivt.headerOffset.toNat + 28)
      = certTableLen := by
    rw [hoff, u32At_append_right rfl, u32At_append_left (by omega)]
    exact hlayout.table
  -- So the lookup finds its last slice in the image.
  have hle : ivt.headerOffset.toNat + (u32At (front ++ (block ++ rest))
      (ivt.headerOffset.toNat + 8)).toNat + (u32At (front ++ (block ++ rest))
      (ivt.headerOffset.toNat + 28)).toNat ≤ (front ++ (block ++ rest)).length := by
    rw [hheader, htable, hoff]
    simp only [List.length_append]
    omega
  have hsize : ivt.headerOffset.toNat + CertificateBlockHeader.size
      ≤ (front ++ (block ++ rest)).length := by
    rw [hoff, CertificateBlockHeader.size]
    simp only [List.length_append]
    omega
  rw [imageRkhs_eq, if_pos (by omega), if_pos hsize, rkhsFrom_of_le hlen hle, hheader, htable,
    hoff, Nat.add_assoc, List.drop_length_add_append, Rkh.readAllFromSlice, if_neg]
  · exact congrArg Except.ok (hashesAt_append hblock rest)
  · rw [List.length_drop, List.length_append, Rkh.allSize]
    omega

end Device

/-! ### The tool -/

namespace CertBlock

variable {me : CertBlock} {headerLen certTableLen : UInt32}

/-- The header length of a block with a layout, as the tool reads it. -/
theorem Layout.headerLen_eq (h : Layout me headerLen certTableLen) :
    me.headerLen = .ok headerLen := by
  have hlen := h.length
  exact field_eq_ok.mpr ⟨by omega, h.header.symm⟩

/-- The table length of a block with a layout, as the tool reads it. -/
theorem Layout.certTableLen_eq (h : Layout me headerLen certTableLen) :
    me.certTableLen = .ok certTableLen := by
  have hlen := h.length
  exact field_eq_ok.mpr ⟨by omega, h.table.symm⟩

/-- The root key hashes of a block with a layout, as the tool reads them. -/
theorem Layout.rootKeyHashes_eq (h : Layout me headerLen certTableLen) (overflowChecks : Bool) :
    me.rootKeyHashes overflowChecks
      = .ok (hashesAt me.data (headerLen.toNat + certTableLen.toNat)) := by
  have hlt := h.length_lt
  have hsum : (headerLen + certTableLen).toNat = headerLen.toNat + certTableLen.toNat := by
    rw [UInt32.toNat_add, Nat.mod_eq_of_lt hlt]
  have hstart : me.rkhStart overflowChecks = .ok (headerLen + certTableLen) := by
    unfold rkhStart
    rw [h.headerLen_eq, h.certTableLen_eq, Except.ok_bind, Except.ok_bind, addU32_of_lt hlt]
  -- Behind the table there are the 128 bytes of the hashes, and nothing else.
  rw [rootKeyHashes_eq_ok]
  exact ⟨_, hstart, by rw [hsum, h.length], by rw [hsum]; rfl⟩

/-- The hash of a block with a layout, as the tool computes it. -/
theorem Layout.rkth_eq {Certificate Key : Type} (h : Layout me headerLen certTableLen)
    (crypto : Crypto Certificate Key) (overflowChecks : Bool) :
    me.rkth crypto overflowChecks
      = .ok (crypto.sha256 (hashesAt me.data (headerLen.toNat + certTableLen.toNat)).flatten) := by
  unfold rkth
  rw [h.rootKeyHashes_eq]
  rfl

/-- Setting the total image length keeps the layout. -/
theorem Layout.patched (h : Layout me headerLen certTableLen) (length : UInt32) :
    Layout { data := splice me.data 0x14 (toLe length) } headerLen certTableLen where
  header := by
    have hlen := h.length
    -- The length word is written at 0x14, which is neither of the words that the layout reads.
    rw [u32At_splice_of_disjoint (by rw [length_toLe]; omega) (by omega)]
    exact h.header
  table := by
    have hlen := h.length
    rw [u32At_splice_of_disjoint (by rw [length_toLe]; omega) (by rw [length_toLe]; omega)]
    exact h.table
  length := by
    have hlen := h.length
    rw [length_splice (by rw [length_toLe]; omega)]
    exact hlen
  length_lt := h.length_lt
  le_start := h.le_start

/-- Setting the total image length keeps the root key hashes. -/
theorem Layout.hashesAt_patched (h : Layout me headerLen certTableLen) (length : UInt32) :
    hashesAt (splice me.data 0x14 (toLe length)) (headerLen.toNat + certTableLen.toNat)
      = hashesAt me.data (headerLen.toNat + certTableLen.toNat) := by
  have hlen := h.length
  have hstart := h.le_start
  rw [hashesAt, drop_splice (by rw [length_toLe]; omega) (by rw [length_toLe]; omega)]
  rfl

end CertBlock

/-! ### Both -/

namespace Image

variable {Certificate Key : Type} {crypto : Crypto Certificate Key} {overflowChecks : Bool}
  {raw : List UInt8} {baseAddr : UInt32} {imageType : ImageType} {certBlock : CertBlock}
  {signatureLen : Nat} {me : Image} {headerLen certTableLen : UInt32}

/-- The image in front of the certificate block. -/
def front (me : Image) : List UInt8 := me.header.ivt ++ me.data

/-- The vector table has 64 bytes, whatever the image. -/
theorem length_front (me : Image) : me.front.length = 0x40 + me.data.length := by
  rw [front, List.length_append, me.header.length_ivt]

/-- The certificate block in the image is the one of the file, with another total length. -/
theorem Built.certBlock_eq
    (h : Built crypto overflowChecks raw baseAddr imageType certBlock signatureLen me) :
    me.certBlock = CertBlock.mk (splice certBlock.data 0x14
      (toLe (UInt32.ofNat (me.front.length + certBlock.data.length)))) := by
  rw [length_front, ← h.patched]

/-- So it has the same layout. -/
theorem Built.layout
    (h : Built crypto overflowChecks raw baseAddr imageType certBlock signatureLen me)
    (hlayout : CertBlock.Layout certBlock headerLen certTableLen) :
    CertBlock.Layout me.certBlock headerLen certTableLen := by
  rw [h.certBlock_eq]
  exact hlayout.patched _

/-- And it has the same root key hashes. -/
theorem Built.hashesAt_eq
    (h : Built crypto overflowChecks raw baseAddr imageType certBlock signatureLen me)
    (hlayout : CertBlock.Layout certBlock headerLen certTableLen) :
    hashesAt me.certBlock.data (headerLen.toNat + certTableLen.toNat)
      = hashesAt certBlock.data (headerLen.toNat + certTableLen.toNat) := by
  rw [h.certBlock_eq]
  exact hlayout.hashesAt_patched _

/-- The device finds the certificate block at the end of the front. -/
theorem Built.headerOffset_toNat
    (h : Built crypto overflowChecks raw baseAddr imageType certBlock signatureLen me) :
    (Ivt.parse me.header.ivt).headerOffset.toNat = me.front.length := by
  have htotal := h.total_lt
  show (u32At me.header.ivt 0x28).toNat = _
  rw [h.headerOffset, UInt32.toNat_ofNat', length_front, Nat.mod_eq_of_lt (by omega)]

/-- The merged image of a kind without an HMAC. -/
theorem Built.merge_eq
    (h : Built crypto overflowChecks raw baseAddr imageType certBlock signatureLen me)
    (hkind : imageType.imageKind.hasHmac = false) {signature : List UInt8} {rkth : Digest}
    (hcheck : me.check crypto overflowChecks signature rkth = .ok ()) (otp : Option Digest) :
    me.merge crypto overflowChecks signature otp
      = .ok (me.front ++ (me.certBlock.data ++ signature)) := by
  -- A kind without an HMAC leaves the part between header and body empty.
  have hhmac : me.headerHmac crypto otp = .ok [] := by
    unfold headerHmac
    rw [h.imageKind, Except.ok_bind, hkind]
    rfl
  rw [merge_of_check hcheck hhmac, front]
  simp only [List.append_nil, List.append_assoc]

/-- The image length in the header is the length of the merged image. -/
theorem Built.imageLen_toNat
    (h : Built crypto overflowChecks raw baseAddr imageType certBlock signatureLen me)
    (hkind : imageType.imageKind.hasHmac = false) {signature : List UInt8}
    (hsig : signature.length = signatureLen) :
    (Ivt.parse me.header.ivt).imageLen.toNat
      = (me.front ++ (me.certBlock.data ++ signature)).length := by
  have htotal := h.total_lt
  show (u32At me.header.ivt 0x20).toNat = _
  rw [h.imageLen, UInt32.toNat_ofNat', Nat.mod_eq_of_lt htotal]
  simp only [hkind, Bool.false_eq_true, if_false, List.length_append, length_front,
    h.length_patched, hsig]
  omega

end Image

section RoundTrip

variable {Certificate Key : Type} {crypto : Crypto Certificate Key} {overflowChecks : Bool}

/-- Take a certificate block that `from_file` accepts, an image that `Image::new` makes of it
with a raw image, and a signature that `Image::check` accepts. Then `merge` returns a string
`out`, and the device finds in it:
* a header with the length of `out`, the image type `4`, the base address, and the offset
  at which the certificate block starts;
* the lengths of that block;
* in every build, the root key hashes of that block. So if the SHA-256 of the device is that
  of the tool, the device computes the hash that the tool computes. -/
theorem merge_parses (hder : crypto.DerLength) {file raw signature : List UInt8}
    {expected : Option Digest} {certBlock : CertBlock} {baseAddr : UInt32} {image : Image}
    {rkth : Digest} (otp : Option Digest)
    (hfile : CertBlock.fromFile crypto overflowChecks file expected = .ok certBlock)
    (hnew : Image.new crypto overflowChecks raw baseAddr (ImageType.new .XipPlainSigned) certBlock
      = .ok image)
    (hcheck : image.check crypto overflowChecks signature rkth = .ok ()) :
    ∃ out ivt header rkhs,
      image.merge crypto overflowChecks signature otp = .ok out ∧
      Ivt.readFromSlice out = .ok ivt ∧
      ivt.imageLen.toNat = out.length ∧ ivt.imageType = 4 ∧ ivt.targetPtr = baseAddr ∧
      out.drop ivt.headerOffset.toNat = image.certBlock.data ++ signature ∧
      image.certBlock.data = splice certBlock.data 0x14
        (toLe (UInt32.ofNat (ivt.headerOffset.toNat + certBlock.data.length))) ∧
      CertificateBlockHeader.readFromSlice (out.drop ivt.headerOffset.toNat) = some header ∧
      certBlock.headerLen = .ok header.headerLength ∧
      certBlock.certTableLen = .ok header.certificateTableLength ∧
      certBlock.rootKeyHashes overflowChecks = .ok rkhs ∧
      (∀ build, imageRkhs build ivt out = .ok rkhs) ∧
      certBlock.rkth crypto overflowChecks = .ok rkth ∧
      ∀ soc : Soc, (∀ data, soc.sha256 data = some (crypto.sha256 data)) →
        imageRkth soc ivt out = .ok rkth := by
  obtain ⟨headerLen, certTableLen, hlayout⟩ := CertBlock.fromFile_layout hder hfile
  obtain ⟨signatureLen, hbuilt⟩ := Image.new_built hnew
  obtain ⟨hsig, hrkth⟩ := Image.check_eq_ok hcheck
  have hsigLen : signature.length = signatureLen :=
    Except.ok.inj (hsig.symm.trans hbuilt.signature)
  have hlayout' := hbuilt.layout hlayout
  have hhashes := hbuilt.hashesAt_eq hlayout
  have hoff := hbuilt.headerOffset_toNat
  have himageLen := hbuilt.imageLen_toNat rfl hsigLen
  -- The length is in a field of 32 bits, so it fits.
  have hlt : (image.front ++ (image.certBlock.data ++ signature)).length < 2 ^ 32 := by
    rw [← himageLen]
    exact UInt32.toNat_lt _
  have hblock : CertificateBlockHeader.size ≤ image.certBlock.data.length := by
    rw [hlayout'.length, CertificateBlockHeader.size]
    omega
  have hrkhs (build : Build) : imageRkhs build (Ivt.parse image.header.ivt)
      (image.front ++ (image.certBlock.data ++ signature))
      = .ok (hashesAt certBlock.data (headerLen.toNat + certTableLen.toNat)) := by
    rw [imageRkhs_of_block build hoff hlayout' hlt, hhashes]
  have hrkth' : certBlock.rkth crypto overflowChecks = .ok rkth := by
    rw [← hrkth, hlayout'.rkth_eq, hlayout.rkth_eq, hhashes]
  refine ⟨image.front ++ (image.certBlock.data ++ signature), Ivt.parse image.header.ivt,
    CertificateBlockHeader.parse (image.certBlock.data ++ signature), _,
    hbuilt.merge_eq rfl hcheck otp, ?_, himageLen, ?_, hbuilt.targetPtr, ?_, ?_,
    readFromSlice_block hblock hoff, ?_, ?_, hlayout.rootKeyHashes_eq _, hrkhs, hrkth', ?_⟩
  · rw [Ivt.readFromSlice, if_neg, Image.front, List.append_assoc, Ivt.parse_append]
    rw [List.length_append, Image.length_front]
    omega
  · exact hbuilt.type.trans ImageType.asU32_xipPlainSigned
  · rw [hoff, List.drop_left]
  · rw [hoff, hbuilt.certBlock_eq]
  · rw [hlayout.headerLen_eq, (parse_block hlayout').1]
  · rw [hlayout.certTableLen_eq, (parse_block hlayout').2]
  · intro soc hsha
    have hsame : crypto.sha256
        (hashesAt certBlock.data (headerLen.toNat + certTableLen.toNat)).flatten = rkth := by
      rw [hlayout.rkth_eq] at hrkth'
      exact Except.ok.inj hrkth'
    unfold imageRkth
    rw [hrkhs, Except.ok_bind, Rkh.toRkth, hsha, hsame]

end RoundTrip

/-! ### A sample image -/

/-- A self-signed CA certificate with a 512-bit RSA key, in DER form. -/
def sampleCertificate : List UInt8 :=
  [0x30, 0x82, 0x01, 0x18, 0x30, 0x81, 0xc3, 0xa0, 0x03, 0x02, 0x01, 0x02, 0x02, 0x01, 0x01, 0x30,
   0x0d, 0x06, 0x09, 0x2a, 0x86, 0x48, 0x86, 0xf7, 0x0d, 0x01, 0x01, 0x0b, 0x05, 0x00, 0x30, 0x0c,
   0x31, 0x0a, 0x30, 0x08, 0x06, 0x03, 0x55, 0x04, 0x03, 0x0c, 0x01, 0x52, 0x30, 0x1e, 0x17, 0x0d,
   0x32, 0x36, 0x31, 0x31, 0x31, 0x38, 0x31, 0x38, 0x32, 0x35, 0x30, 0x33, 0x5a, 0x17, 0x0d, 0x33,
   0x36, 0x31, 0x31, 0x31, 0x35, 0x31, 0x38, 0x32, 0x35, 0x30, 0x33, 0x5a, 0x30, 0x0c, 0x31, 0x0a,
   0x30, 0x08, 0x06, 0x03, 0x55, 0x04, 0x03, 0x0c, 0x01, 0x52, 0x30, 0x5c, 0x30, 0x0d, 0x06, 0x09,
   0x2a, 0x86, 0x48, 0x86, 0xf7, 0x0d, 0x01, 0x01, 0x01, 0x05, 0x00, 0x03, 0x4b, 0x00, 0x30, 0x48,
   0x02, 0x41, 0x00, 0xc3, 0x55, 0x5e, 0x64, 0x78, 0x3a, 0x7e, 0xce, 0x29, 0x7b, 0x9d, 0x30, 0x0f,
   0xf8, 0xb8, 0xe4, 0xc3, 0xa3, 0x08, 0x29, 0x97, 0xca, 0x44, 0x29, 0x93, 0xa7, 0x0c, 0xb9, 0xe8,
   0x97, 0x4f, 0x26, 0x0b, 0x87, 0x11, 0x58, 0x9f, 0x46, 0x1a, 0x95, 0x87, 0x28, 0xf0, 0xe2, 0x4f,
   0x28, 0x19, 0x7c, 0xc7, 0xe4, 0x30, 0x31, 0x82, 0xb8, 0x84, 0xc0, 0xeb, 0x41, 0x9f, 0xc3, 0xb8,
   0x9a, 0xc0, 0x67, 0x02, 0x03, 0x01, 0x00, 0x01, 0xa3, 0x10, 0x30, 0x0e, 0x30, 0x0c, 0x06, 0x03,
   0x55, 0x1d, 0x13, 0x04, 0x05, 0x30, 0x03, 0x01, 0x01, 0xff, 0x30, 0x0d, 0x06, 0x09, 0x2a, 0x86,
   0x48, 0x86, 0xf7, 0x0d, 0x01, 0x01, 0x0b, 0x05, 0x00, 0x03, 0x41, 0x00, 0x87, 0x2f, 0x60, 0x71,
   0xb5, 0x9a, 0x24, 0x83, 0x4a, 0x10, 0x96, 0x38, 0x17, 0xc0, 0x27, 0x16, 0x3d, 0x36, 0xba, 0x95,
   0x9f, 0xfe, 0xa1, 0xef, 0x74, 0x46, 0x41, 0x21, 0xb2, 0x1a, 0x7b, 0xda, 0xe3, 0x80, 0x0f, 0x5a,
   0xb6, 0xb5, 0x45, 0x3b, 0x4b, 0x06, 0x0f, 0xdc, 0xdb, 0x86, 0x1e, 0xc9, 0x3e, 0x04, 0x4a, 0x51,
   0x09, 0xba, 0x6c, 0x3a, 0x89, 0x6f, 0x04, 0x88, 0x80, 0x07, 0xbb, 0x24]

/-- The SHA-256 of the key in the certificate, modulus and exponent. -/
def sampleRkh : Digest :=
  ⟨[0xa6, 0xa7, 0x40, 0x1a, 0x5c, 0xd5, 0xf1, 0x2e, 0xfe, 0xef, 0x02, 0x2a, 0x12, 0x53, 0xfb,
     0xff, 0xc2, 0xac, 0x4c, 0x77, 0x98, 0xdd, 0xcd, 0x3d, 0x16, 0xab, 0x63, 0xdc, 0xb9, 0x10,
     0xb9, 0x77], rfl⟩

/-- The hash of the key in the certificate and three unused ones. -/
def sampleRkhs : List UInt8 := sampleRkh.val ++ List.replicate 96 0

/-- The signature of the merged image below. -/
def sampleSignature : List UInt8 :=
  [0x48, 0x34, 0x90, 0x34, 0xf0, 0x07, 0x4a, 0x34, 0x3b, 0x9e, 0xbf, 0x5e, 0xfd, 0x16, 0x9b, 0x8c,
   0x8c, 0x6f, 0x46, 0x81, 0x9e, 0xd9, 0x7f, 0x1d, 0x4c, 0x36, 0x5b, 0xff, 0x74, 0x71, 0xa1, 0xef,
   0xb7, 0x10, 0xd3, 0xfa, 0xb9, 0x58, 0xfd, 0x32, 0x36, 0x84, 0x11, 0x5f, 0xba, 0xe0, 0xa7, 0xbb,
   0x61, 0xac, 0xeb, 0xf6, 0x64, 0x2e, 0xd3, 0xaf, 0x3a, 0xaa, 0xba, 0x70, 0x66, 0xeb, 0x3c, 0xb4]

/-- The cryptographic functions, for the sample certificate and its key. -/
def sampleCrypto : Crypto Unit Unit where
  sha256 data :=
    if data = sampleRkhs then
      ⟨[0x38, 0x57, 0x63, 0xb8, 0x4a, 0x9f, 0xab, 0xf0, 0xcf, 0xab, 0xec, 0xfa, 0x72, 0x02, 0x75,
        0x98, 0x3b, 0x03, 0x42, 0x35, 0x53, 0x0d, 0x95, 0x82, 0x65, 0xdc, 0x37, 0xc8, 0xf3, 0x12,
        0x4a, 0x7e], rfl⟩
    else if data = (sampleCertificate.drop 115).take 64 ++ [1, 0, 1] then sampleRkh
    else ⟨List.replicate 32 0, rfl⟩
  fromDer bytes := if bytes.take 284 = sampleCertificate then some (bytes.drop 284, ()) else none
  isSha256WithRsa _ := true
  parsedKey _ :=
    some (.rsa ((sampleCertificate.drop 114).take 65) ((sampleCertificate.drop 181).take 3))
  isCa _ := true
  verifySignature _ _ := true
  rsaPublicKey _ := some ()
  keySize _ := 64
  isSignature _ := true
  verify _ _ signature := signature = sampleSignature
  hmac _ _ := ⟨List.replicate 32 0, rfl⟩

/-- The certificate block of the sample certificate, with some padding behind it. -/
def sampleFile : List UInt8 :=
  [0x63, 0x65, 0x72, 0x74, 1, 0, 0, 0] ++ toLe 0x20 ++ List.replicate 12 0 ++ toLe 1 ++ toLe 288
    ++ toLe 284 ++ sampleCertificate ++ sampleRkhs ++ List.replicate 8 0

/-- The sample certificate is as long as its header says, so the parser leaves what is behind it. -/
theorem sampleCrypto_derLength : sampleCrypto.DerLength := by
  intro bytes rem cert h
  have hbytes : bytes.take 284 = sampleCertificate := by
    by_contra hne
    simp only [sampleCrypto, if_neg hne] at h
    cases h
  have hlen := congrArg List.length hbytes
  rw [List.length_take] at hlen
  have hcert : sampleCertificate.length = 284 := by decide +kernel
  omega

/-- A sample image with the sample certificate block. -/
theorem merge_parses_sample :
    ∃ certBlock image rkth,
      CertBlock.fromFile sampleCrypto true sampleFile none = .ok certBlock ∧
      Image.new sampleCrypto true (List.replicate 64 0) 0x10020000
        (ImageType.new .XipPlainSigned) certBlock = .ok image ∧
      image.check sampleCrypto true sampleSignature rkth = .ok () ∧
      ∃ out ivt, image.merge sampleCrypto true sampleSignature none = .ok out ∧
        Ivt.readFromSlice out = .ok ivt ∧ ivt.imageLen.toNat = out.length := by
  have hfile : CertBlock.fromFile sampleCrypto true sampleFile none
      = .ok { data := sampleFile.take 448 } := by decide +kernel
  -- One evaluation decides that the image is built and that it passes its check.
  have himage : (match Image.new sampleCrypto true (List.replicate 64 0) 0x10020000
      (ImageType.new .XipPlainSigned) { data := sampleFile.take 448 } with
    | .ok image =>
        decide (image.check sampleCrypto true sampleSignature (sampleCrypto.sha256 sampleRkhs)
          = .ok ())
    | .error _ => false) = true := by decide +kernel
  cases hnew : Image.new sampleCrypto true (List.replicate 64 0) 0x10020000
      (ImageType.new .XipPlainSigned) { data := sampleFile.take 448 } with
  | error e =>
      rw [hnew] at himage
      cases himage
  | ok image =>
      rw [hnew] at himage
      have hcheck := of_decide_eq_true himage
      obtain ⟨out, ivt, -, -, hmerge, hivt, hlen, -⟩ :=
        merge_parses sampleCrypto_derLength none hfile hnew hcheck
      exact ⟨_, image, _, hfile, hnew, hcheck, out, ivt, hmerge, hivt, hlen⟩

end EcSlimloader
