import EcSlimloader.Proofs.Tool.Guarantees

/-!
# `EcSlimloader.Proofs.Tool.Merged`: the bytes of a merged image

`merge_layout` says where each byte of a merged image comes from. Take the HMAC and the
signature away, and what remains is the string that was signed. Of it, the vector table is that
of the raw image but for four fields, the data is that of the raw image with up to three zeros
behind it, and the rest is the certificate block. Both lengths that the image states of itself
are right.

`Image::new` computes the lengths before there is a signature. It takes the length of the
signature from a certificate, in a block that it has patched just before. `new_returns` says
that it comes to an end for all images of less than `2 ^ 32` bytes.

A merged image has five parts, and each is located by the lengths of the ones in front of it.
`MergedLayout` states these offsets. They are those of the source's `merge`, which puts the parts
one behind the other. A kind with an HMAC has it between the vector table and the data. The length
of the image counts it, and the total length in the certificate block does not.
-/

set_option autoImplicit false

namespace EcSlimloader

open Bytes (u32At toLe splice length_toLe length_splice u32At_splice_self u32At_append_left
  u32At_append_right getD_splice_of_not_mem getD_take_of_lt)

namespace Image

/-! ### The parts -/

/-- The padding is as many zeros as it takes to align the length. -/
theorem padData_eq (data : List UInt8) :
    ∃ count, count ≤ 3 ∧ (data.length + count) % 4 = 0 ∧
      padData data = data ++ List.replicate count 0 := by
  fun_induction padData data with
  | case1 data h ih =>
      -- One more zero, in front of those of the induction hypothesis.
      obtain ⟨count, hcount, halign, hpad⟩ := ih
      rw [List.length_append, List.length_singleton] at halign
      rw [dataAlign] at h
      refine ⟨count + 1, by omega, by omega, ?_⟩
      rw [hpad, List.append_assoc, List.replicate_succ]
      rfl
  | case2 data h =>
      rw [dataAlign] at h
      exact ⟨0, by omega, by omega, (List.append_nil data).symm⟩

end Image

/-- The bytes of a vector table that the tool does not patch. -/
def Unpatched (i : Nat) : Prop := i < 0x20 ∨ (0x2c ≤ i ∧ i < 0x34) ∨ (0x38 ≤ i ∧ i < 0x40)

namespace ImageHeader

/-- A byte outside of a field is not changed by writing the field. -/
theorem getD_setField {header : ImageHeader} {offset : Nat} {value : UInt32}
    (h : offset + 4 ≤ 0x40) {i : Nat} (hi : i < offset ∨ offset + 4 ≤ i) :
    (header.setField offset value h).ivt.getD i 0 = header.ivt.getD i 0 :=
  getD_splice_of_not_mem (by rw [header.length_ivt]; exact h) hi 0

/-- A new header keeps the other bytes of the vector table. -/
theorem getD_new {ivt : List UInt8} {imageType : ImageType} {headerOffset loadAddr : UInt32}
    {header : ImageHeader} (h : ImageHeader.new ivt imageType headerOffset loadAddr = .ok header)
    {i : Nat} (hi : Unpatched i) : header.ivt.getD i 0 = ivt.getD i 0 := by
  unfold Unpatched at hi
  unfold ImageHeader.new at h
  split at h
  · obtain rfl := Except.ok.inj h
    -- Three fields are written, and none of them covers the byte.
    rw [getD_setField _ (by omega), getD_setField _ (by omega), getD_setField _ (by omega)]
  · cases h

/-- A vector table of the right length is accepted. -/
theorem new_returns {ivt : List UInt8} (h : ivt.length = 0x40) (imageType : ImageType)
    (headerOffset loadAddr : UInt32) :
    ∃ header, ImageHeader.new ivt imageType headerOffset loadAddr = .ok header := by
  unfold ImageHeader.new
  rw [dif_pos h]
  exact ⟨_, rfl⟩

end ImageHeader

namespace Image

variable {Certificate Key : Type} {crypto : Crypto Certificate Key} {overflowChecks : Bool}
  {raw : List UInt8} {baseAddr : UInt32} {imageType : ImageType} {certBlock : CertBlock}
  {me : Image}

/-- The length of the HMAC in an image of some kind. -/
def hmacLen (imageType : ImageType) : Nat := if imageType.imageKind.hasHmac then 32 else 0

/-- The length of a merged image. -/
def mergedLen (raw : List UInt8) (imageType : ImageType) (certBlock : CertBlock)
    (signatureLen : Nat) : Nat :=
  0x40 + (padData (raw.drop 0x40)).length + certBlock.data.length + hmacLen imageType
    + signatureLen

/-- An image keeps the other bytes of the raw image's vector table. -/
theorem getD_header_of_new
    (h : Image.new crypto overflowChecks raw baseAddr imageType certBlock = .ok me) {i : Nat}
    (hi : Unpatched i) : me.header.ivt.getD i 0 = raw.getD i 0 := by
  unfold Image.new at h
  split at h
  · cases h
  simp only [Except.bind_eq_ok] at h
  obtain ⟨header, hheader, _, -, _, -, header', hlen, hme⟩ := h
  obtain rfl := Except.ok.inj hme
  obtain ⟨-, rfl⟩ := ImageHeader.setImageLength_eq_ok hlen
  -- The header is made from the first bytes of the raw image, and the length is set last.
  have hgetD := ImageHeader.getD_new hheader hi
  unfold Unpatched at hi
  rw [ImageHeader.getD_setField _ (by omega), hgetD, getD_take_of_lt (by omega)]

/-- `Image::new` returns for every raw image with a vector table and every accepted block with
the usual header, if the merged image is not too long. -/
theorem new_returns (hraw : 0x40 ≤ raw.length) {file : List UInt8} {expected : Option Digest}
    (hfile : CertBlock.fromFile crypto overflowChecks file expected = .ok certBlock)
    (hheader : certBlock.headerLen = .ok 0x20) {signatureLen : Nat}
    (hsig : certBlock.signatureLen crypto overflowChecks = .ok signatureLen)
    (hlen : mergedLen raw imageType certBlock signatureLen < 2 ^ 32) :
    ∃ me, Image.new crypto overflowChecks raw baseAddr imageType certBlock = .ok me := by
  obtain ⟨-, headerLen, certTableLen, hheader', htable, hlt, hblock, -⟩ :=
    CertBlock.fromFile_eq_ok hfile
  obtain rfl : headerLen = 0x20 := Except.ok.inj (hheader'.symm.trans hheader)
  unfold mergedLen hmacLen at hlen
  have htake : (raw.take 0x40).length = 0x40 := by
    rw [List.length_take]
    omega
  obtain ⟨header, hnew⟩ := ImageHeader.new_returns htake imageType
    (UInt32.ofNat (0x40 + (padData (raw.drop 0x40)).length)) baseAddr
  obtain ⟨certBlock', hset⟩ : ∃ certBlock', certBlock.setTotalImageLengthInBytes
      (0x40 + (padData (raw.drop 0x40)).length + certBlock.data.length) = .ok certBlock' := by
    rw [CertBlock.setTotalImageLengthInBytes, if_neg (by omega), if_neg (by omega)]
    exact ⟨_, rfl⟩
  -- The signature length is taken from the patched block, which has the same table.
  have hsame := CertBlock.sameTable_setTotal hheader htable hlt hset
  unfold Image.new
  rw [if_neg (by omega)]
  simp only [htake, hnew, hset, hsame.signatureLen_eq.trans hsig, Except.ok_bind]
  rw [ImageHeader.setImageLength, if_neg (by omega)]
  exact ⟨_, rfl⟩

/-! ### The merged image -/

/-- A merged image without its signature. -/
def unsigned (signature out : List UInt8) : List UInt8 :=
  out.take (out.length - signature.length)

/-- A merged image without its signature and without the HMAC behind its vector table. -/
def stripped (imageType : ImageType) (signature out : List UInt8) : List UInt8 :=
  (unsigned signature out).take 0x40 ++ (unsigned signature out).drop (0x40 + hmacLen imageType)

/-- The offset of the certificate block, as the vector table has it. -/
def blockOffset (out : List UInt8) : Nat := (u32At out 0x28).toNat

/-- Where the bytes of the merged image `out` come from. -/
structure MergedLayout (crypto : Crypto Certificate Key) (raw : List UInt8)
    (imageType : ImageType) (me : Image) (otp : Option Digest) (signature out : List UInt8) :
    Prop where
  /-- The signature comes last. -/
  trailing : out.drop (out.length - signature.length) = signature
  /-- What is signed is everything but the HMAC and the signature. -/
  signed : stripped imageType signature out = me.signMe
  /-- The kinds with an HMAC have the one of the vector table, behind it. -/
  hmac : imageType.imageKind.hasHmac = true → ∃ key, otp = some key ∧
    (out.drop 0x40).take 32 = (crypto.hmac key (out.take 0x40)).val
  /-- The vector table is the one of the raw image, but for four fields. -/
  header : ∀ i, Unpatched i → out[i]? = raw[i]?
  /-- The data is the one of the raw image, with up to three zeros behind it. -/
  data : ∃ count, count ≤ 3 ∧ (raw.length - 0x40 + count) % 4 = 0 ∧
    ((stripped imageType signature out).take (blockOffset out)).drop 0x40
      = raw.drop 0x40 ++ List.replicate count 0
  /-- Then comes the certificate block. -/
  certBlock : (stripped imageType signature out).drop (blockOffset out) = me.certBlock.data
  imageLength : (u32At out 0x20).toNat = out.length
  totalLength : (u32At me.certBlock.data 0x14).toNat = me.signMe.length

section Merged

variable {signatureLen : Nat}

/-- The HMAC that `merge` inserts, which is nothing for some kinds. -/
theorem Built.headerHmac_eq
    (h : Built crypto overflowChecks raw baseAddr imageType certBlock signatureLen me)
    {otp : Option Digest} (hotp : imageType.imageKind.hasHmac = true → otp.isSome = true) :
    ∃ hmac, me.headerHmac crypto otp = .ok hmac ∧ hmac.length = hmacLen imageType ∧
      (imageType.imageKind.hasHmac = true →
        ∃ key, otp = some key ∧ hmac = (crypto.hmac key me.header.ivt).val) := by
  unfold headerHmac hmacLen
  rw [h.imageKind, Except.ok_bind]
  cases hkind : imageType.imageKind.hasHmac with
  | false => exact ⟨[], rfl, rfl, fun h => nomatch h⟩
  | true =>
      obtain ⟨key, rfl⟩ := Option.isSome_iff_exists.mp (hotp hkind)
      exact ⟨_, rfl, (crypto.hmac key me.header.ivt).property, fun _ => ⟨key, rfl, rfl⟩⟩

/-- The layout of the concatenation that `merge` returns. -/
theorem Built.mergedLayout
    (h : Built crypto overflowChecks raw baseAddr imageType certBlock signatureLen me)
    (hraw : 0x40 ≤ raw.length)
    (hheader : ∀ i, Unpatched i → me.header.ivt.getD i 0 = raw.getD i 0)
    {signature hmac : List UInt8} {otp : Option Digest} (hsig : signature.length = signatureLen)
    (hhmacLen : hmac.length = hmacLen imageType)
    (hhmac : imageType.imageKind.hasHmac = true →
      ∃ key, otp = some key ∧ hmac = (crypto.hmac key me.header.ivt).val) :
    MergedLayout crypto raw imageType me otp signature
      (me.header.ivt ++ hmac ++ me.data ++ me.certBlock.data ++ signature) := by
  have hivt := me.header.length_ivt
  have htotal := h.total_lt
  have hpatched := h.length_patched
  -- The fields of the vector table are in the first part of the concatenation.
  have hassoc : me.header.ivt ++ hmac ++ me.data ++ me.certBlock.data ++ signature
      = me.header.ivt ++ (hmac ++ (me.data ++ me.certBlock.data) ++ signature) := by
    simp only [List.append_assoc]
  have hfield {offset : Nat} (hoffset : offset + 4 ≤ 0x40) :
      u32At (me.header.ivt ++ hmac ++ me.data ++ me.certBlock.data ++ signature) offset
        = u32At me.header.ivt offset := by
    rw [hassoc, u32At_append_left (by omega)]
  have hoffset : blockOffset (me.header.ivt ++ hmac ++ me.data ++ me.certBlock.data ++ signature)
      = me.front.length := by
    rw [blockOffset, hfield (by decide), h.headerOffset, UInt32.toNat_ofNat', length_front,
      Nat.mod_eq_of_lt (by omega)]
  have hstripped : stripped imageType signature
      (me.header.ivt ++ hmac ++ me.data ++ me.certBlock.data ++ signature) = me.signMe := by
    have hunsigned : unsigned signature
        (me.header.ivt ++ hmac ++ me.data ++ me.certBlock.data ++ signature)
        = me.header.ivt ++ (hmac ++ (me.data ++ me.certBlock.data)) := by
      rw [unsigned, List.length_append, Nat.add_sub_cancel, List.take_left]
      simp only [List.append_assoc]
    rw [stripped, hunsigned, List.take_left' hivt]
    -- Behind the vector table, the HMAC is dropped and the rest is kept.
    rw [List.drop_append, List.drop_of_length_le (by omega), hivt, Nat.add_sub_cancel_left,
      List.drop_left' hhmacLen, List.nil_append, signMe, List.append_assoc]
  have hsigned : me.signMe = me.front ++ me.certBlock.data := rfl
  refine ⟨?_, hstripped, ?_, ?_, ?_, ?_, ?_, ?_⟩
  · rw [List.length_append, Nat.add_sub_cancel, List.drop_left]
  · intro hkind
    obtain ⟨key, hkey, hvalue⟩ := hhmac hkind
    have hlen : hmac.length = 32 := by rw [hhmacLen, hmacLen, if_pos hkind]
    refine ⟨key, hkey, ?_⟩
    rw [hassoc, List.take_left' hivt, List.drop_left' hivt, List.append_assoc,
      List.take_left' hlen, hvalue]
  · intro i hi
    have hlt : i < 0x40 := by
      unfold Unpatched at hi
      omega
    have hgetD := hheader i hi
    rw [hassoc, List.getElem?_append_left (by omega), List.getElem?_eq_getElem (by omega),
      List.getElem?_eq_getElem (by omega)]
    rw [List.getD_eq_getElem _ _ (by omega), List.getD_eq_getElem _ _ (by omega)] at hgetD
    rw [hgetD]
  · obtain ⟨count, hcount, halign, hpad⟩ := padData_eq (raw.drop 0x40)
    rw [List.length_drop] at halign
    refine ⟨count, hcount, halign, ?_⟩
    rw [hstripped, hoffset, hsigned, List.take_left, front, List.drop_left' hivt, h.data, hpad]
  · rw [hstripped, hoffset, hsigned, List.drop_left]
  · rw [hfield (by decide), h.imageLen, UInt32.toNat_ofNat', Nat.mod_eq_of_lt htotal]
    simp only [List.length_append, hivt, hhmacLen, hmacLen, hpatched, hsig]
    omega
  · rw [h.patched, u32At_splice_self h.length_certBlock, UInt32.toNat_ofNat',
      Nat.mod_eq_of_lt (by omega), hsigned, List.length_append, length_front, hpatched]

end Merged

/-- The bytes of a merged image, for every raw image with a vector table, every kind of image
and every accepted certificate block with the usual header. -/
theorem merge_layout (hraw : 0x40 ≤ raw.length) (baseAddr : UInt32) (imageType : ImageType)
    {file : List UInt8} {expected : Option Digest}
    (hfile : CertBlock.fromFile crypto overflowChecks file expected = .ok certBlock)
    (hheader : certBlock.headerLen = .ok 0x20)
    (hlen : ∀ signatureLen, certBlock.signatureLen crypto overflowChecks = .ok signatureLen →
      mergedLen raw imageType certBlock signatureLen < 2 ^ 32) :
    ∃ me, Image.new crypto overflowChecks raw baseAddr imageType certBlock = .ok me ∧
      ∀ signature rkth otp, me.check crypto overflowChecks signature rkth = .ok () →
        (imageType.imageKind.hasHmac = true → otp.isSome = true) →
        ∃ out, me.merge crypto overflowChecks signature otp = .ok out ∧
          MergedLayout crypto raw imageType me otp signature out := by
  obtain ⟨_, _, _, _, _, key, hguaranteed, hcerts, hlast, hkey, -⟩ :=
    CertBlock.guaranteed_of_fromFile hfile
  -- The hypothesis about the length speaks of the block before it is patched.
  have hsig : certBlock.signatureLen crypto overflowChecks = .ok (crypto.keySize key) := by
    rw [CertBlock.signatureLen,
      CertBlock.verifyingKey_of_chain hcerts hguaranteed.parses hlast hkey]
    rfl
  obtain ⟨me, hnew⟩ := new_returns hraw hfile hheader hsig (hlen _ hsig)
  refine ⟨me, hnew, ?_⟩
  intro signature rkth otp hcheck hotp
  obtain ⟨signatureLen, hbuilt⟩ := new_built hnew
  -- `check` compares the length of the signature with that of the key.
  have hsigLen : signature.length = signatureLen :=
    Except.ok.inj ((check_eq_ok hcheck).1.symm.trans hbuilt.signature)
  obtain ⟨hmac, hhmac, hhmacLen, hvalue⟩ := hbuilt.headerHmac_eq hotp
  exact ⟨_, merge_of_check hcheck hhmac, hbuilt.mergedLayout hraw
    (fun i hi => getD_header_of_new hnew hi) hsigLen hhmacLen hvalue⟩

/-- The sample image merges with the sample signature, and has the layout. -/
def SampleMerges (kind : ImageKind) (otp : Option Digest) : Prop :=
  ∃ certBlock me out,
    CertBlock.fromFile sampleCrypto true sampleFile none = .ok certBlock ∧
    Image.new sampleCrypto true (List.replicate 64 0) 0x10020000 (ImageType.new kind) certBlock
      = .ok me ∧
    me.merge sampleCrypto true sampleSignature otp = .ok out ∧
    MergedLayout sampleCrypto (List.replicate 64 0) (ImageType.new kind) me otp sampleSignature out

/-- The sample image: a vector table of zeros with the block of the sample certificate. It
is merged as an image without an HMAC and as one with an HMAC. -/
theorem merge_layout_sample :
    SampleMerges .XipPlainSigned none ∧ SampleMerges .PlainSigned (some sampleRkh) := by
  have hfile : CertBlock.fromFile sampleCrypto true sampleFile none
      = .ok { data := sampleFile.take 448 } := by decide +kernel
  have hheader : (CertBlock.mk (sampleFile.take 448)).headerLen = .ok 0x20 := by decide +kernel
  have hsig : (CertBlock.mk (sampleFile.take 448)).signatureLen sampleCrypto true = .ok 64 := by
    decide +kernel
  have hraw : 0x40 ≤ (List.replicate 64 (0 : UInt8)).length := by decide
  -- What the two kinds share is proved once. Left for each of them are the length and the checks.
  have hcase : ∀ kind otp,
      mergedLen (List.replicate 64 0) (ImageType.new kind)
        (CertBlock.mk (sampleFile.take 448)) 64 < 2 ^ 32 →
      (match Image.new sampleCrypto true (List.replicate 64 0) 0x10020000 (ImageType.new kind)
          { data := sampleFile.take 448 } with
        | .ok me =>
            decide (me.check sampleCrypto true sampleSignature (sampleCrypto.sha256 sampleRkhs)
              = .ok ())
        | .error _ => false) = true →
      ((ImageType.new kind).imageKind.hasHmac = true → otp.isSome = true) →
      SampleMerges kind otp := by
    intro kind otp hlen himage hotp
    obtain ⟨me, hnew, hmerge⟩ := merge_layout hraw 0x10020000 (ImageType.new kind) hfile hheader
      fun n hn => by
        obtain rfl := Except.ok.inj (hsig.symm.trans hn)
        exact hlen
    rw [hnew] at himage
    obtain ⟨out, hout, hlayout⟩ :=
      hmerge sampleSignature _ otp (of_decide_eq_true himage) hotp
    exact ⟨_, me, out, hfile, hnew, hout, hlayout⟩
  exact ⟨hcase _ _ (by decide +kernel) (by decide +kernel) (fun h => absurd h (by decide)),
    hcase _ _ (by decide +kernel) (by decide +kernel) fun _ => rfl⟩

end Image

end EcSlimloader
