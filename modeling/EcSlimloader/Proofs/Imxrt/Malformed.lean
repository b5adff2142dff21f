import EcSlimloader.Proofs.Imxrt.CheckAndBoot
import EcSlimloader.Proofs.Imxrt.Verification

/-!
# `EcSlimloader.Proofs.Imxrt.Malformed`: when a malformed image is a panic

`check_image` finds the root key hashes by three numbers of the image that nobody has
authenticated yet: the offset of the certificate block, and two lengths in its header. It
slices the image at these offsets without looking at the length of the image first. A
short slice is an error that `start` can handle, but an offset behind the end is a panic.

`Located` is the condition under which this does not happen, and `imageRkhs_located_iff`
proves that it is exact. `checkAndBoot_returns_iff` says so for `check_image` and for
`check_and_boot` on every slot whose header passes the checks.

The slices of the source are followed one by one, from the innermost function outwards. Each starts
in the image or at its end, or the run panics. What is read from a slice that is too short is an
error. So the condition is a chain of inequalities between the numbers of the header and the length
of the image. It is about both builds at once: with overflow checks, a sum that does not fit is a
panic as well.

The steps in front of it have to succeed for the slice to be reached. `Passes` says so of the
header, and `Answered` names the ends of `check_image` that are not a panic.
-/

set_option autoImplicit false

namespace EcSlimloader

open Bytes (u32At sliceFrom addU32 addU32_checked addU32_error u32At_take u32At_drop)

/-! ### The root key hashes

The additions and the slices of the code that locates the hashes, one by one.
`imageRkhs_located_iff` is the exact condition for all of them to go well. -/

/-- The certificate block starts in the image or at its end. If its header is complete,
then the root key hashes start in the image or at its end, too. -/
def Located (ivt : Ivt) (image : List UInt8) : Prop :=
  let headerOffset := ivt.headerOffset.toNat
  headerOffset ≤ image.length ∧
  (headerOffset + CertificateBlockHeader.size ≤ image.length →
    headerOffset + (u32At image (headerOffset + 8)).toNat
      + (u32At image (headerOffset + 28)).toNat ≤ image.length)

instance (ivt : Ivt) (image : List UInt8) : Decidable (Located ivt image) :=
  inferInstanceAs (Decidable (_ ∧ _))

section Rkhs

variable {build : Build} {ivt : Ivt} {image : List UInt8}

/-- A complete header whose lengths stay in the image. -/
theorem rkhsFrom_no_panic (hlen : image.length < 2 ^ 32)
    (h : ivt.headerOffset.toNat + (u32At image (ivt.headerOffset.toNat + 8)).toNat
      + (u32At image (ivt.headerOffset.toNat + 28)).toNat ≤ image.length) (msg : String) :
    rkhsFrom build ivt image ≠ .error (.panic msg) := by
  rw [rkhsFrom_of_le hlen h]
  cases Rkh.readAllFromSlice _ with
  | some rkhs => exact fun hp => nomatch hp
  | none => exact fun hp => nomatch hp

/-- In a build with overflow checks, the last slice exists only for such lengths. -/
theorem rkhsFrom_panic (build : Build) (hbuild : build.overflowChecks = true)
    (h : image.length < ivt.headerOffset.toNat + (u32At image (ivt.headerOffset.toNat + 8)).toNat
      + (u32At image (ivt.headerOffset.toNat + 28)).toNat) :
    ∃ msg, rkhsFrom build ivt image = .error (.panic msg) := by
  simp only [rkhsFrom, rkhsBehind, CertificateBlockHeader.parse, u32At_drop, hbuild]
  -- Either an addition overflows, or both are exact and the slice starts too far.
  cases hfirst : (addU32 true ivt.headerOffset (u32At image (ivt.headerOffset.toNat + 8)) :
      Except (Fault BootError) UInt32) with
  | error e =>
      obtain ⟨msg, rfl⟩ := addU32_error hfirst
      exact ⟨msg, rfl⟩
  | ok offset =>
      rw [Except.ok_bind]
      have hoffset := addU32_checked hfirst
      cases hsecond : (addU32 true offset (u32At image (ivt.headerOffset.toNat + 28)) :
          Except (Fault BootError) UInt32) with
      | error e =>
          obtain ⟨msg, rfl⟩ := addU32_error hsecond
          exact ⟨msg, rfl⟩
      | ok rkhsOffset =>
          have hrkhs := addU32_checked hsecond
          rw [Except.ok_bind, sliceFrom, if_neg (by omega)]
          exact ⟨_, rfl⟩

/-- `Located` is the exact condition: the lookup of the root key hashes panics in no build
if and only if it holds. -/
theorem imageRkhs_located_iff (hlen : image.length < 2 ^ 32) :
    (∀ build msg, imageRkhs build ivt image ≠ .error (.panic msg)) ↔ Located ivt image := by
  constructor
  · intro h
    -- The build with overflow checks is the one that shows every failure.
    have hchecked := h { overflowChecks := true, evk := false }
    simp only [imageRkhs_eq] at hchecked
    have hoff : ivt.headerOffset.toNat ≤ image.length := by
      by_contra hoff
      exact hchecked _ (if_neg hoff)
    refine ⟨hoff, ?_⟩
    intro hsize
    simp only [if_pos hoff, if_pos hsize] at hchecked
    by_contra hrkhs
    obtain ⟨msg, hmsg⟩ := rkhsFrom_panic { overflowChecks := true, evk := false } rfl
      (Nat.lt_of_not_le hrkhs)
    exact hchecked msg hmsg
  · rintro ⟨hoff, hrkhs⟩ build msg
    rw [imageRkhs_eq, if_pos hoff]
    by_cases hsize : ivt.headerOffset.toNat + CertificateBlockHeader.size ≤ image.length
    · rw [if_pos hsize]
      exact rkhsFrom_no_panic hlen (hrkhs hsize) msg
    · rw [if_neg hsize]
      exact fun hp => nomatch hp

/-- Hashing does not panic. -/
theorem imageRkth_panic_iff {soc : Soc} {msg : String} :
    imageRkth soc ivt image = .error (.panic msg) ↔
      imageRkhs soc.build ivt image = .error (.panic msg) := by
  unfold imageRkth
  cases imageRkhs soc.build ivt image with
  | error e => simp
  | ok rkhs =>
      rw [Except.ok_bind, Rkh.toRkth]
      cases soc.sha256 rkhs.flatten with
      | some rkth => simp
      | none => simp

end Rkhs

/-! ### `check_image` -/

/-- A run of `check_image` has called `skboot_authenticate`, or it has returned an
error. -/
def Answered (result : EStateM.Result (Fault BootError) RomState Unit) (st : RomState) : Prop :=
  match result with
  | .ok _ st' => ∃ a, st'.authentications = st.authentications ++ [a]
  | .error (.error _) _ => True
  | .error (.panic _) _ => False

/-- A panic in the lookup of the root key hashes is a panic of `check_image`. -/
theorem checkImage_panic {soc : Soc} {ramIvt : Ivt} {image : List UInt8} {msg : String}
    (h : imageRkhs soc.build ramIvt image = .error (.panic msg)) (st : RomState) :
    checkImage soc ramIvt image st = .error (.panic msg) st := by
  unfold checkImage
  rw [imageRkth_panic_iff.mpr h]
  rfl

/-- With accesses that succeed, `check_image` answers unless the lookup of the root key
hashes panics. -/
theorem checkImage_answered_iff (soc : Soc) {st : RomState} (hrom : soc.rom.AccessesSucceed)
    (hotp : st.otpInitialized = false) (ramIvt : Ivt) (image : List UInt8) :
    Answered (checkImage soc ramIvt image st) st ↔
      ∀ msg, imageRkhs soc.build ramIvt image ≠ .error (.panic msg) := by
  have hspec := checkImage_spec soc ramIvt image st.authentications false
  have hst : Idle st.authentications false st := ⟨rfl, hotp⟩
  constructor
  · intro h msg hmsg
    rw [checkImage_panic hmsg] at h
    exact h
  · intro h
    cases hrun : checkImage soc ramIvt image st with
    | ok u st' =>
        obtain ⟨fuse, rkth, a, -, -, -, hidle⟩ := hspec.of_ok hst hrun
        exact ⟨a, hidle.1⟩
    | error e st' =>
        cases e with
        | error e => trivial
        | panic msg =>
            exfalso
            -- A panic would come from the lookup or from an access, and both are excluded.
            rcases hspec.of_error hst hrun with ⟨himage, -⟩ | ⟨-, -, hfail⟩ | ⟨hpanic, -⟩
            · exact h msg (imageRkth_panic_iff.mp himage)
            · rcases hfail with hfail | hfail
              · cases hfail
              · exact hfail hrom
            · cases hpanic

/-! ### `check_and_boot` -/

namespace Imxrt

variable {T H : Type}

/-- The header that a slot with this content has. -/
def slotIvt (content : Nat → UInt8) : Ivt := Ivt.parse ((List.range Ivt.readSize).map content)

/-- The image that a slot with this content has. -/
def slotImage (content : Nat → UInt8) : List UInt8 :=
  (List.range (slotIvt content).imageLen.toNat).map content

/-- The slot exists, its flash returns the content, and its header passes the checks of
size, type and load range. -/
structure Passes (board : Imxrt T H) (slot : Slot) (content : Nat → UInt8)
    (slotPartition : SlotPartition) : Prop where
  slot : board.slots[slot.toU8.toNat]? = some slotPartition
  reads : ∀ call len, len ≤ slotPartition.capacity.toNat →
    slotPartition.read call len = .done content
  readSize_le : Ivt.readSize ≤ slotPartition.capacity.toNat
  capacity_lt : slotPartition.capacity < board.config.slotSizeRange.stop
  header : checkHeader board.config slotPartition.capacity (slotIvt content) = .ok ()

section Passes

variable {board : Imxrt T H} {slot : Slot} {content : Nat → UInt8}
  {slotPartition : SlotPartition}

/-- The header in the first 64 bytes is the header of the whole string. -/
theorem parse_take (data : List UInt8) : Ivt.parse (data.take Ivt.readSize) = Ivt.parse data := by
  simp only [Ivt.parse, Ivt.readSize]
  rw [u32At_take (by omega), u32At_take (by omega), u32At_take (by omega), u32At_take (by omega)]

/-- The header of the image in RAM is the one of the slot, if it is complete. -/
theorem readFromSlice_slotImage :
    Ivt.readFromSlice (slotImage content) =
      if 64 ≤ (slotIvt content).imageLen.toNat then .ok (slotIvt content) else .error .mk := by
  have hlen : (slotImage content).length = (slotIvt content).imageLen.toNat := by
    rw [slotImage, List.length_map, List.length_range]
  by_cases h64 : 64 ≤ (slotIvt content).imageLen.toNat
  · -- Both headers are made of the same 64 bytes.
    have htake : (slotImage content).take Ivt.readSize = (List.range Ivt.readSize).map content := by
      rw [slotImage, ← List.map_take, List.take_range, Ivt.readSize, Nat.min_eq_left h64]
    rw [Ivt.readFromSlice, if_neg (by omega), if_pos h64, ← parse_take, htake, slotIvt]
  · rw [Ivt.readFromSlice, if_pos (by omega), if_neg h64]

/-- Such an image is loaded, if it is long enough for a header. -/
theorem loadImage_of_passes (h : Passes board slot content slotPartition) :
    ∃ loaded w, Confined slotPartition.capacity board loaded w ∧
      ramSlice loaded.ram (slotIvt content).targetPtr.toNat (slotIvt content).imageLen.toNat
        = slotImage content ∧
      loadImage slotPartition board =
        if 64 ≤ (slotIvt content).imageLen.toNat then .ok (slotIvt content) loaded
        else .error (.error .TooSmall) loaded := by
  have hheader := checkHeader_eq_ok.mp h.header
  obtain ⟨middle, hconf, -, -, hread⟩ := readIvt_run slotPartition board
  have hread : readIvt slotPartition board = .ok (slotIvt content) middle := by
    rw [hread, h.reads _ _ h.readSize_le]
    rfl
  -- Both reads return the content of the slot, so the two headers are the same.
  obtain ⟨loaded, hconf', -, hcopy⟩ := copyImage_run (hconf.config ▸ hheader)
  rw [h.reads _ _ hheader.le_slotSize] at hcopy
  obtain ⟨hcopy, hslice⟩ := hcopy
  have himage : ramSlice loaded.ram (slotIvt content).targetPtr.toNat
      (slotIvt content).imageLen.toNat = slotImage content := hslice
  refine ⟨loaded, _, hconf.trans hconf', himage, ?_⟩
  unfold loadImage
  rw [Exec.get_bind]
  simp only [ge_iff_le, UInt32.not_le.mpr h.capacity_lt, if_false]
  rw [Exec.bind_ok hread, h.header, Except.mapError,
    Exec.bind_ok (Exec.ofExcept_ok_run () middle), Exec.bind_ok hcopy, Exec.get_bind, himage,
    readFromSlice_slotImage]
  by_cases h64 : 64 ≤ (slotIvt content).imageLen.toNat
  · simp [h64]
  · simp [h64]

end Passes

/-- The board with the secure `check_image`. -/
def secure (board : Imxrt T RomState) (soc : Soc) : Imxrt T RomState :=
  { board with checkImage := EcSlimloader.checkImage soc }

section Secure

variable {board : Imxrt T RomState} {slot : Slot} {content : Nat → UInt8}
  {slotPartition : SlotPartition}

/-- A secure `check_and_boot` returns an error or jumps to the application, unless
`check_image` is reached and the lookup of the root key hashes panics there. -/
theorem checkAndBoot_exit_iff (soc : Soc) (hrom : soc.rom.AccessesSucceed)
    (hotp : board.hw.otpInitialized = false) (h : Passes board slot content slotPartition) :
    (∃ exit after, checkAndBoot slot (board.secure soc) = .error (.error exit) after) ↔
      (64 ≤ (slotIvt content).imageLen.toNat → ∀ msg,
        imageRkhs soc.build (slotIvt content) (slotImage content) ≠ .error (.panic msg)) := by
  have h' : Passes (board.secure soc) slot content slotPartition :=
    ⟨h.slot, h.reads, h.readSize_le, h.capacity_lt, h.header⟩
  obtain ⟨loaded, w, hconf, hslice, hload⟩ := loadImage_of_passes h'
  by_cases h64 : 64 ≤ (slotIvt content).imageLen.toNat
  · rw [if_pos h64] at hload
    have hrun := checkAndBoot_of_load h'.slot hload
    rw [hslice, hconf.checkImage, hconf.hw] at hrun
    have hanswered := checkImage_answered_iff soc hrom hotp (slotIvt content)
      (slotImage content)
    constructor
    · rintro ⟨exit, after, hexit⟩ - msg hmsg
      rw [hrun] at hexit
      simp only [secure, checkImage_panic hmsg] at hexit
      cases hexit
    · intro hmsg
      have hans := hanswered.mpr (hmsg h64)
      rw [hrun]
      simp only [secure]
      cases hcheck : EcSlimloader.checkImage soc (slotIvt content) (slotImage content)
          board.hw with
      | ok u hw => exact ⟨_, _, rfl⟩
      | error e hw =>
          rw [hcheck] at hans
          cases e with
          | error e => exact ⟨_, _, rfl⟩
          | panic msg => exact hans.elim
  · -- The image is too short for a header, so `check_image` is not called.
    rw [if_neg h64] at hload
    exact ⟨fun _ hle => absurd hle h64, fun _ => ⟨_, _, checkAndBoot_of_load_error h'.slot hload⟩⟩

end Secure

/-- Take a slot whose header passes the checks of size, type and load range, and a chip
whose accesses succeed. In every build the secure `check_image` calls
`skboot_authenticate` or returns an error, if and only if the header offset and the root
key hashes are located in the image. Then `check_and_boot` returns to `start` or jumps to
the application. It does so, too, for an image that is shorter than a header, which
`check_image` never sees. -/
theorem checkAndBoot_returns_iff {board : Imxrt T RomState} {slot : Slot}
    {content : Nat → UInt8} {slotPartition : SlotPartition} {rom : Rom}
    (sha256 : List UInt8 → Option Rkth) (hrom : rom.AccessesSucceed)
    (hotp : board.hw.otpInitialized = false) (h : Passes board slot content slotPartition) :
    ((∀ build, Answered
        (EcSlimloader.checkImage { rom, sha256, build } (slotIvt content) (slotImage content)
          board.hw) board.hw) ↔
      Located (slotIvt content) (slotImage content)) ∧
    ((∀ build, ∃ exit after, checkAndBoot slot (board.secure { rom, sha256, build })
        = .error (.error exit) after) ↔
      (64 ≤ (slotIvt content).imageLen.toNat →
        Located (slotIvt content) (slotImage content))) := by
  have hlen : (slotImage content).length < 2 ^ 32 := by
    rw [slotImage, List.length_map, List.length_range]
    exact UInt32.toNat_lt _
  -- `Located` is what keeps the slices of `imageRkhs` in range, and they are the only panics.
  rw [← imageRkhs_located_iff hlen]
  refine ⟨?_, ?_⟩
  · apply forall_congr'
    intro build
    exact checkImage_answered_iff { rom, sha256, build } hrom hotp _ _
  · rw [forall_comm]
    apply forall_congr'
    intro build
    exact checkAndBoot_exit_iff { rom, sha256, build } hrom hotp h

/-! ### Sample slots -/

/-- A slot of the size that the example board has, with an image in it. -/
def sampleSlot (image : List UInt8) : SlotPartition where
  capacity := 0xec000
  read _ len := if len ≤ 0xec000 then .done (image.getD · 0xff) else .failed 0 fun _ => 0
  outOfBounds _ _ hlen := ⟨_, if_neg (Nat.not_le_of_lt hlen)⟩

/-- The configuration of the example board, with one slot. -/
def sampleBoard (image : List UInt8) : Imxrt Unit RomState where
  journal := { inner := (), cache := {} }
  slots := [sampleSlot image]
  config :=
    { slotSizeRange := { start := 64, stop := 0x100000 }
      loadRange := { start := 0x10020000, stop := 0x10180000 } }
  checkImage := checkImageNonSecure
  hw := sampleState
  ram _ := 0
  reads := 0
  written := []
  transfers := []

/-- The sample slot passes if its header does. -/
theorem sampleBoard_passes {image : List UInt8}
    (hheader : checkHeader (sampleBoard image).config 0xec000 (slotIvt (image.getD · 0xff))
      = .ok ()) :
    Passes (sampleBoard image) .S0 (image.getD · 0xff) (sampleSlot image) where
  slot := rfl
  reads _ _ hlen := if_pos hlen
  readSize_le := show 64 ≤ (0xec000 : UInt32).toNat by decide
  capacity_lt := show (0xec000 : UInt32) < 0x100000 by decide
  header := hheader

/-- No access of the sample ROM fails. -/
theorem sampleRom_accessesSucceed (fuse : Nat → UInt32) : (sampleRom fuse).AccessesSucceed :=
  ⟨fun _ _ => rfl, fun _ _ => rfl⟩

/-- An image whose certificate block is located. -/
theorem checkAndBoot_returns_iff_sample :
    checkHeader (sampleBoard (sampleImage 0)).config 0xec000
      (slotIvt ((sampleImage 0).getD · 0xff)) = .ok () ∧
    Located (slotIvt ((sampleImage 0).getD · 0xff)) (slotImage ((sampleImage 0).getD · 0xff)) ∧
    ∀ build, ∃ exit after, checkAndBoot .S0 ((sampleBoard (sampleImage 0)).secure
      { rom := sampleRom fun _ => 0, sha256 := sampleSha256, build })
        = .error (.error exit) after := by
  have hheader : checkHeader (sampleBoard (sampleImage 0)).config 0xec000
      (slotIvt ((sampleImage 0).getD · 0xff)) = .ok () := by decide +kernel
  have hlocated : Located (slotIvt ((sampleImage 0).getD · 0xff))
      (slotImage ((sampleImage 0).getD · 0xff)) := by decide +kernel
  exact ⟨hheader, hlocated, (checkAndBoot_returns_iff sampleSha256 (sampleRom_accessesSucceed _)
    rfl (sampleBoard_passes hheader)).2.mpr fun _ => hlocated⟩

/-- An image of one header, whose certificate block offset is behind its end. -/
def malformedImage : List UInt8 :=
  ivtBytes { imageLen := 64, imageType := 4, headerOffset := 65, targetPtr := 0x10020000 }

/-- The header of the malformed image passes the checks. In every build `check_image`
panics on the image, and so does `check_and_boot`. -/
theorem malformedImage_panics :
    Passes (sampleBoard malformedImage) .S0 (malformedImage.getD · 0xff)
      (sampleSlot malformedImage) ∧
    (sampleRom fun _ => 0).AccessesSucceed ∧
    ∀ build, (¬Answered (EcSlimloader.checkImage
        { rom := sampleRom fun _ => 0, sha256 := sampleSha256, build }
        (slotIvt (malformedImage.getD · 0xff)) (slotImage (malformedImage.getD · 0xff))
        sampleState) sampleState) ∧
      ¬∃ exit after, checkAndBoot .S0 ((sampleBoard malformedImage).secure
        { rom := sampleRom fun _ => 0, sha256 := sampleSha256, build })
          = .error (.error exit) after := by
  have hpasses : Passes (sampleBoard malformedImage) .S0 (malformedImage.getD · 0xff)
      (sampleSlot malformedImage) := sampleBoard_passes (by decide +kernel)
  have hrom := sampleRom_accessesSucceed fun _ => 0
  have hoff : ¬(slotIvt (malformedImage.getD · 0xff)).headerOffset.toNat
      ≤ (slotImage (malformedImage.getD · 0xff)).length := by decide +kernel
  have h64 : 64 ≤ (slotIvt (malformedImage.getD · 0xff)).imageLen.toNat := by decide +kernel
  refine ⟨hpasses, hrom, ?_⟩
  intro build
  -- The offset of the certificate block is behind the end of the image.
  have hpanic : imageRkhs build (slotIvt (malformedImage.getD · 0xff))
      (slotImage (malformedImage.getD · 0xff))
      = .error (.panic "range start index out of range for slice") := by
    rw [imageRkhs_eq, if_neg hoff]
  refine ⟨?_, ?_⟩
  · rw [checkImage_answered_iff _ hrom rfl]
    intro h
    exact h _ hpanic
  · rw [checkAndBoot_exit_iff _ hrom rfl hpasses]
    intro h
    exact h h64 _ hpanic

end Imxrt

end EcSlimloader
