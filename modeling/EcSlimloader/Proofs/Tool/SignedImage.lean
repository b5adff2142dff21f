import EcSlimloader.Proofs.Imxrt.Malformed
import EcSlimloader.Proofs.Imxrt.RootOfTrust
import EcSlimloader.Proofs.Tool.Merged
import EcSlimloader.Proofs.Tool.Objcopy

/-!
# `EcSlimloader.Proofs.Tool.SignedImage`: a signed image on the device

`SignedImage` says what a string has to be so that the device can work with it: the header as
the device reads it, the root key hashes where the device looks for them, the content of the flat
image, and a signature of the last certificate's key. `signedImage_of_check` shows it for every
image that the tool merges.

`Programmed.checkAndBoot_secure` is the other end. A slot that holds such an image is copied to RAM
and reaches the authentication, and nothing but the authentication decides.

`SignedImage` is what the two sides agree on. The tool proves it of what it writes, and the device
needs nothing else of a file that is in a slot: `Programmed.checkAndBoot_secure` is about an image
with this structure, however it was made.
-/

set_option autoImplicit false

namespace EcSlimloader

/-! ### What `check` and `merge` accept -/

namespace Image

variable {Certificate Key : Type} {crypto : Crypto Certificate Key} {overflowChecks : Bool}
  {raw : List UInt8} {baseAddr : UInt32} {imageType : ImageType} {certBlock : CertBlock}
  {me : Image}

/-- `check` accepts the signatures of the last certificate's key over the string to be signed. -/
theorem check_eq_ok_iff {signature : List UInt8} {rkth : Digest} :
    me.check crypto overflowChecks signature rkth = .ok () ↔
      me.certBlock.rkth crypto overflowChecks = .ok rkth ∧
        ∃ key, me.certBlock.verifyingKey crypto overflowChecks = .ok key ∧
          signature.length = crypto.keySize key ∧ crypto.isSignature signature = true ∧
          crypto.verify key me.signMe signature = true := by
  unfold check
  cases hkey : me.certBlock.verifyingKey crypto overflowChecks with
  | error e => simp [CertBlock.signatureLen, hkey]
  | ok key =>
      have hlen : me.certBlock.signatureLen crypto overflowChecks = .ok (crypto.keySize key) := by
        rw [CertBlock.signatureLen, hkey]
        rfl
      rw [hlen, Except.ok_bind]
      by_cases hsize : signature.length = crypto.keySize key
      · cases hrkth : me.certBlock.rkth crypto overflowChecks with
        | error e => simp [hsize]
        | ok rkth' =>
            by_cases hsame : rkth' = rkth
            · cases hform : crypto.isSignature signature with
              | false => simp [hsize, hsame]
              | true =>
                  cases hverify : crypto.verify key me.signMe signature with
                  | false => simp [hsize, hsame, hverify]
                  | true =>
                      simp [hsize, hsame, hverify]
                      rfl
            · simp [hsize, hsame]
      · simp [hsize]

/-- `merge` returns if `check` accepts the signature with the hash of the block itself. -/
theorem Built.merge_eq_ok_iff {signatureLen : Nat}
    (h : Built crypto overflowChecks raw baseAddr imageType certBlock signatureLen me)
    (hkind : imageType.imageKind.hasHmac = false) {signature out : List UInt8}
    {otp : Option Digest} :
    me.merge crypto overflowChecks signature otp = .ok out ↔
      (∃ rkth, me.check crypto overflowChecks signature rkth = .ok ()) ∧
        out = me.front ++ (me.certBlock.data ++ signature) := by
  constructor
  · intro hmerge
    have hrun := hmerge
    unfold merge at hrun
    simp only [Except.bind_eq_ok] at hrun
    obtain ⟨rkth, -, _, hcheck, -⟩ := hrun
    rw [h.merge_eq hkind hcheck] at hmerge
    exact ⟨⟨rkth, hcheck⟩, (Except.ok.inj hmerge).symm⟩
  · rintro ⟨⟨rkth, hcheck⟩, rfl⟩
    exact h.merge_eq hkind hcheck otp

/-- The bytes of the flat image, but for four fields of its vector table. -/
theorem getElem?_front
    (hnew : Image.new crypto overflowChecks raw baseAddr imageType certBlock = .ok me) {i : Nat}
    (hi : i < raw.length) (hkeep : 0x40 ≤ i ∨ Unpatched i) : me.front[i]? = raw[i]? := by
  obtain ⟨signatureLen, hbuilt⟩ := new_built hnew
  have hivt := me.header.length_ivt
  by_cases hheader : i < 0x40
  · -- The vector table keeps the bytes that are not patched.
    have hgetD := getD_header_of_new hnew (hkeep.resolve_left (by omega))
    rw [front, List.getElem?_append_left (by omega)]
    exact getElem?_eq_of_getD (by omega) hi hgetD
  · -- Behind it is the data, with the padding at its end.
    obtain ⟨count, -, -, hpad⟩ := padData_eq (raw.drop 0x40)
    rw [front, List.getElem?_append_right (by omega), hivt, hbuilt.data, hpad,
      List.getElem?_append_left (by rw [List.length_drop]; omega), List.getElem?_drop]
    congr 1
    omega

/-- The block of an image has the hash of the block that it was made with. -/
theorem Built.rkth_eq {signatureLen : Nat}
    (h : Built crypto overflowChecks raw baseAddr imageType certBlock signatureLen me)
    {headerLen certTableLen : UInt32} (hlayout : certBlock.Layout headerLen certTableLen) :
    me.certBlock.rkth crypto overflowChecks = certBlock.rkth crypto overflowChecks := by
  rw [(h.layout hlayout).rkth_eq, hlayout.rkth_eq, h.hashesAt_eq hlayout]

/-- An image has a key that its signature is checked with: its length was asked for. -/
theorem Built.verifyingKey {signatureLen : Nat}
    (h : Built crypto overflowChecks raw baseAddr imageType certBlock signatureLen me) :
    ∃ key, me.certBlock.verifyingKey crypto overflowChecks = .ok key := by
  have hlen := h.signature
  rw [CertBlock.signatureLen, Except.bind_eq_ok] at hlen
  obtain ⟨key, hkey, -⟩ := hlen
  exact ⟨key, hkey⟩

/-- An image is made of at least a vector table. -/
theorem length_of_new
    (hnew : Image.new crypto overflowChecks raw baseAddr imageType certBlock = .ok me) :
    0x40 ≤ raw.length := by
  unfold Image.new at hnew
  split at hnew
  · cases hnew
  · omega

end Image

/-! ### Signed images -/

section SignedImage

variable {Certificate Key : Type} {crypto : Crypto Certificate Key} {overflowChecks : Bool}
  {raw : List UInt8} {baseAddr : UInt32} {certBlock : CertBlock}

/-- A signed image `out` of the flat image `raw` that runs at `baseAddr`. -/
structure SignedImage (crypto : Crypto Certificate Key) (overflowChecks : Bool)
    (raw : List UInt8) (baseAddr : UInt32) (rkth : Digest) (out : List UInt8) : Prop where
  le_length : raw.length ≤ out.length
  readSize_le : 0x40 ≤ raw.length
  imageLen : (Ivt.parse out).imageLen.toNat = out.length
  imageType : (Ivt.parse out).imageType = imageTypeTzXipSigned
  targetPtr : (Ivt.parse out).targetPtr = baseAddr
  /-- The device finds the root key hashes, in every build. -/
  rkhs : ∀ build, ∃ rkhs, imageRkhs build (Ivt.parse out) out = .ok rkhs
  /-- And their hash, if it computes the same SHA-256. -/
  hash : ∀ soc : Soc, (∀ data, soc.sha256 data = some (crypto.sha256 data)) →
    imageRkth soc (Ivt.parse out) out = .ok rkth
  content : ∀ i, i < raw.length → 0x40 ≤ i ∨ Unpatched i → out[i]? = raw[i]?
  /-- Behind the certificate block is a signature of its key over everything in front. -/
  signed : ∃ (block : CertBlock) (signature : List UInt8) (key : Key),
    out.drop (Ivt.parse out).headerOffset.toNat = block.data ++ signature ∧
    block.rkth crypto overflowChecks = .ok rkth ∧
    block.verifyingKey crypto overflowChecks = .ok key ∧
    crypto.verify key (out.take (out.length - signature.length)) signature = true

/-- What the tool merges is a signed image. -/
theorem signedImage_of_check (hder : crypto.DerLength) {file signature : List UInt8}
    {expected : Option Digest} {image : Image} {rkth : Digest}
    (hfile : CertBlock.fromFile crypto overflowChecks file expected = .ok certBlock)
    (hnew : Image.new crypto overflowChecks raw baseAddr (ImageType.new .XipPlainSigned) certBlock
      = .ok image)
    (hcheck : image.check crypto overflowChecks signature rkth = .ok ()) :
    SignedImage crypto overflowChecks raw baseAddr rkth
      (image.front ++ (image.certBlock.data ++ signature)) := by
  obtain ⟨headerLen, certTableLen, hlayout⟩ := CertBlock.fromFile_layout hder hfile
  obtain ⟨signatureLen, hbuilt⟩ := Image.new_built hnew
  obtain ⟨hrkth, key, hkey, hsigLen, -, hverify⟩ := Image.check_eq_ok_iff.mp hcheck
  have hraw := Image.length_of_new hnew
  have hlayout' := hbuilt.layout hlayout
  have hoff := hbuilt.headerOffset_toNat
  have hlen : signature.length = signatureLen :=
    Except.ok.inj ((Image.check_eq_ok hcheck).1.symm.trans hbuilt.signature)
  have himageLen := hbuilt.imageLen_toNat rfl hlen
  -- The header of the whole string is the header of the image.
  have hparse : Ivt.parse (image.front ++ (image.certBlock.data ++ signature))
      = Ivt.parse image.header.ivt := by
    rw [Image.front, List.append_assoc, Ivt.parse_append]
  have hlt : (image.front ++ (image.certBlock.data ++ signature)).length < 2 ^ 32 := by
    rw [← himageLen]
    exact UInt32.toNat_lt _
  have hrkhs (build : Build) := imageRkhs_of_block build hoff hlayout' hlt
  have hfront : raw.length ≤ image.front.length := by
    obtain ⟨count, -, -, hpad⟩ := Image.padData_eq (raw.drop 0x40)
    rw [Image.length_front, hbuilt.data, hpad, List.length_append, List.length_drop]
    omega
  refine ⟨?_, hraw, ?_, ?_, ?_, ?_, ?_, ?_, ?_⟩
  · rw [List.length_append]
    omega
  · rw [hparse, himageLen]
  · rw [hparse]
    exact hbuilt.type.trans ImageType.asU32_xipPlainSigned
  · rw [hparse]
    exact hbuilt.targetPtr
  · intro build
    rw [hparse]
    exact ⟨_, hrkhs build⟩
  · intro soc hsha
    rw [hlayout'.rkth_eq] at hrkth
    rw [hparse, imageRkth, hrkhs, Except.ok_bind, Rkh.toRkth, hsha, Except.ok.inj hrkth]
  · intro i hi hkeep
    rw [List.getElem?_append_left (by omega), Image.getElem?_front hnew hi hkeep]
  · refine ⟨image.certBlock, signature, key, ?_, hrkth, hkey, ?_⟩
    · rw [hparse, hoff, List.drop_left]
    · rw [← List.append_assoc, List.length_append, Nat.add_sub_cancel, List.take_left]
      exact hverify

end SignedImage

/-! ### On the device

A slot with a signed image passes the checks of the header and of the copy, and the hashes are
located. What remains is the answer of the ROM. -/

namespace Imxrt

/-- A slot of the board holds the string `out`, which fits the slot, and which fits the load
range at `baseAddr`. -/
structure Programmed {T H : Type} (board : Imxrt T H) (slot : Slot) (baseAddr : UInt32)
    (out : List UInt8) (content : Nat → UInt8) (slotPartition : SlotPartition) : Prop where
  slot : board.slots[slot.toU8.toNat]? = some slotPartition
  reads : ∀ call len, len ≤ slotPartition.capacity.toNat →
    slotPartition.read call len = .done content
  holds : (List.range out.length).map content = out
  capacity_lt : slotPartition.capacity < board.config.slotSizeRange.stop
  start_le : board.config.slotSizeRange.start.toNat ≤ out.length
  le_capacity : out.length ≤ slotPartition.capacity.toNat
  load_start : board.config.loadRange.start.toNat ≤ baseAddr.toNat
  load_stop : baseAddr.toNat + out.length < board.config.loadRange.stop.toNat

section Programmed

variable {T H Certificate Key : Type} {crypto : Crypto Certificate Key} {overflowChecks : Bool}
  {board : Imxrt T H} {slot : Slot} {raw out : List UInt8} {baseAddr : UInt32} {rkth : Digest}
  {content : Nat → UInt8} {slotPartition : SlotPartition}

/-- The device finds the header and the image of a slot that holds a signed image. -/
theorem Programmed.slotImage_eq (h : Programmed board slot baseAddr out content slotPartition)
    (hsigned : SignedImage crypto overflowChecks raw baseAddr rkth out) :
    slotIvt content = Ivt.parse out ∧ slotImage content = out := by
  have hlong : Ivt.readSize ≤ out.length := Nat.le_trans hsigned.readSize_le hsigned.le_length
  have htake : (List.range Ivt.readSize).map content = out.take Ivt.readSize := by
    calc (List.range Ivt.readSize).map content
        = ((List.range out.length).map content).take Ivt.readSize := by
          rw [← List.map_take, List.take_range, Nat.min_eq_left hlong]
      _ = out.take Ivt.readSize := by rw [h.holds]
  have hivt : slotIvt content = Ivt.parse out := by rw [slotIvt, htake, parse_take]
  refine ⟨hivt, ?_⟩
  rw [slotImage, hivt, hsigned.imageLen, h.holds]

/-- And its header passes the checks. -/
theorem Programmed.passes (h : Programmed board slot baseAddr out content slotPartition)
    (hsigned : SignedImage crypto overflowChecks raw baseAddr rkth out) :
    Passes board slot content slotPartition where
  slot := h.slot
  reads := h.reads
  readSize_le := by
    have hlong : Ivt.readSize ≤ out.length := Nat.le_trans hsigned.readSize_le hsigned.le_length
    exact Nat.le_trans hlong h.le_capacity
  capacity_lt := h.capacity_lt
  header := by
    rw [(h.slotImage_eq hsigned).1, checkHeader_eq_ok]
    have himageLen := hsigned.imageLen
    have htarget := hsigned.targetPtr
    refine ⟨hsigned.imageType, ?_, ?_, ?_, ?_⟩
    · rw [himageLen]
      exact h.le_capacity
    · rw [himageLen]
      exact h.start_le
    · rw [htarget]
      exact h.load_start
    · rw [htarget, himageLen]
      exact h.load_stop

/-- A signed image in a slot is copied to the address that it was made for. Then its signature is
authenticated against the hash of its root keys in development mode, and against the one in the
fuses otherwise, and only this decides whether the board jumps to it. -/
theorem Programmed.checkAndBoot_secure {T : Type} {board : Imxrt T RomState}
    (h : Programmed board slot baseAddr out content slotPartition)
    (hsigned : SignedImage crypto overflowChecks raw baseAddr rkth out) {soc : Soc}
    (hrom : soc.rom.AccessesSucceed) (hreload : soc.rom.ReloadsFuses)
    (hotp : board.hw.otpInitialized = false)
    (hsha : ∀ data, soc.sha256 data = some (crypto.sha256 data)) :
    ∃ exit after, checkAndBoot slot (board.secure soc) = .error (.error exit) after ∧
      (exit = .bootApplication baseAddr ∨ exit = .bootError .Authenticate) ∧
      (∃ a, after.hw.authentications = board.hw.authentications ++ [a] ∧
        Trusted soc.build soc.rom.fuse rkth a.shadow) ∧
      ramSlice after.ram baseAddr.toNat out.length = out := by
  have hprogrammed : Programmed (board.secure soc) slot baseAddr out content slotPartition :=
    ⟨h.slot, h.reads, h.holds, h.capacity_lt, h.start_le, h.le_capacity, h.load_start, h.load_stop⟩
  have hpasses := hprogrammed.passes hsigned
  obtain ⟨hivt, himage⟩ := h.slotImage_eq hsigned
  obtain ⟨loaded, w, hconf, hslice, hload⟩ := loadImage_of_passes hpasses
  have h64 : 64 ≤ (slotIvt content).imageLen.toNat := by
    rw [hivt, hsigned.imageLen]
    exact Nat.le_trans hsigned.readSize_le hsigned.le_length
  rw [if_pos h64] at hload
  have hrun := checkAndBoot_of_load hpasses.slot hload
  rw [hslice, himage, hconf.checkImage, hconf.hw, hivt, hsigned.targetPtr] at hrun
  have hram : ramSlice loaded.ram baseAddr.toNat out.length = out := by
    rw [hivt, hsigned.targetPtr, hsigned.imageLen, himage] at hslice
    exact hslice
  have hspec := checkImage_spec soc (Ivt.parse out) out board.hw.authentications false
  have hst : Idle board.hw.authentications false board.hw := ⟨rfl, hotp⟩
  -- The authentication is reached with the hash of the image's root keys.
  have hreached {hw : RomState}
      (hdone : Authenticated soc (Ivt.parse out) out board.hw.authentications hw) :
      ∃ a, hw.authentications = board.hw.authentications ++ [a] ∧
        Trusted soc.build soc.rom.fuse rkth a.shadow := by
    obtain ⟨fuse, rkth', a, hfuse, hrkth, htrusted, hidle⟩ := hdone
    obtain rfl := hfuse hreload
    obtain rfl := Except.ok.inj (hrkth.symm.trans (hsigned.hash soc hsha))
    exact ⟨a, hidle.1, htrusted⟩
  cases hcheck : EcSlimloader.checkImage soc (Ivt.parse out) out board.hw with
  | ok u hw =>
      simp only [secure, hcheck] at hrun
      exact ⟨_, _, hrun, .inl rfl, hreached (hspec.of_ok hst hcheck), hram⟩
  | error e hw =>
      simp only [secure, hcheck] at hrun
      rcases hspec.of_error hst hcheck with ⟨himage, -⟩ | ⟨-, -, hfail⟩ | ⟨rfl, hdone⟩
      · rw [hsigned.hash soc hsha] at himage
        cases himage
      · rcases hfail with hfail | hfail
        · cases hfail
        · exact absurd hrom hfail
      · exact ⟨_, _, hrun, .inr rfl, hreached hdone, hram⟩

end Programmed

end Imxrt

end EcSlimloader
