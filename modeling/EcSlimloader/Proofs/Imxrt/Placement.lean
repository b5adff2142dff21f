import EcSlimloader.Proofs.Imxrt.Malformed

/-!
# `EcSlimloader.Proofs.Imxrt.Placement`: which images are accepted for their size and place

`check_and_boot` looks at the size of an image and at where it wants to be copied to, before
it copies anything. `Fits` says when an image fits. `rejected_iff_not_fits_iff` says when the
checks agree with that. They do not in two cases. A slot of `SLOT_SIZE_RANGE.end` bytes or
more is rejected whatever is in it, because the comparison is made with its capacity. And an
image that ends where the load range ends is rejected, because its end is compared like
the address of a byte.

The second part is about the example board. Its load range contains the memory that the
bootloader runs from. `bootloader_kept_iff` says for which slots no byte of the bootloader is
overwritten.

The checks are compared with `Fits` number by number. `placementError_of_checkHeader` says which
errors are about the size and the place, so an image that is rejected for something else, such as
its type, is not counted here.

The condition for the bootloader is about the range that the copy writes to. `Beside` says that two
ranges are apart, and `beside_iff` turns this into a comparison of their ends.
-/

set_option autoImplicit false

namespace EcSlimloader

namespace Imxrt

variable {T H : Type} {slot : Slot} {slotPartition : SlotPartition} {before : Imxrt T H}

/-! ### The end of a run -/

/-- A run with an accepted header has copied what the second read gave. -/
theorem checkAndBoot_of_accepted (hslot : before.slots[slot.toU8.toNat]? = some slotPartition)
    {ivt : Ivt} (h : Accepted slotPartition before ivt) :
    ∃ e after, checkAndBoot slot before = .error e after ∧ after.reads = before.reads + 2 ∧
      after.written = before.written ++ List.range' ivt.targetPtr.toNat
        (filled ivt.imageLen.toNat (slotPartition.read (before.reads + 1) ivt.imageLen.toNat)) := by
  obtain ⟨loaded, hconf, hreads, ⟨hload, -⟩ | ⟨e, hload⟩⟩ := loadImage_accepted h
  · -- The header in RAM is the one that was read, and `check_image` runs.
    obtain ⟨e, hw, hrun, -⟩ := checkAndBoot_jumps hslot hload
    exact ⟨e, _, hrun, hreads, hconf.written⟩
  · exact ⟨_, loaded, checkAndBoot_of_load_error hslot hload, hreads, hconf.written⟩

/-- A run without an accepted header has copied nothing. -/
theorem checkAndBoot_of_not_accepted
    (hslot : before.slots[slot.toU8.toNat]? = some slotPartition)
    (h : ∀ ivt, ¬Accepted slotPartition before ivt) :
    ∃ e after, checkAndBoot slot before = .error (.error (.bootError e)) after ∧
      after.reads ≤ before.reads + 1 ∧ after.written = before.written ∧
      ∀ bytes, slotPartition.read before.reads Ivt.readSize = .done bytes →
        e = .TooLarge ∨
          checkHeader before.config slotPartition.capacity (slotIvt bytes) = .error e := by
  obtain ⟨e, after, hload, hconf, hreads, he⟩ := loadImage_rejected h
  refine ⟨e, after, checkAndBoot_of_load_error hslot hload, hreads, ?_, he⟩
  rw [hconf.written, List.append_nil]

/-! ### Size and place -/

/-- An error about the size or the place of an image. -/
def PlacementError (e : BootError) : Prop := e = .TooLarge ∨ e = .TooSmall ∨ e = .MemoryRegion

/-- The run ends with such an error before the image is copied. The copy is the second
read. -/
def Rejected (slot : Slot) (before : Imxrt T H) : Prop :=
  ∃ e after, checkAndBoot slot before = .error (.error (.bootError e)) after ∧
    PlacementError e ∧ after.reads ≤ before.reads + 1

/-- The size is allowed, the image is not longer than the slot, and all its bytes go to the
load range. -/
structure Fits (config : ImxrtConfig) (capacity : UInt32) (ivt : Ivt) : Prop where
  size : config.slotSizeRange.contains ivt.imageLen = true
  slot : ivt.imageLen.toNat ≤ capacity.toNat
  load : ∀ a, ivt.targetPtr.toNat ≤ a → a < ivt.targetPtr.toNat + ivt.imageLen.toNat →
    config.loadRange.start.toNat ≤ a ∧ a < config.loadRange.stop.toNat

/-- The bounds that the checks get wrong: a slot that is larger than any image, an image that
fills the load range to its end, and an empty image next to the load range. -/
def WrongBound (config : ImxrtConfig) (capacity : UInt32) (ivt : Ivt) : Prop :=
  config.slotSizeRange.stop ≤ capacity ∨
    (0 < ivt.imageLen.toNat ∧
      ivt.targetPtr.toNat + ivt.imageLen.toNat = config.loadRange.stop.toNat) ∨
    (ivt.imageLen.toNat = 0 ∧ config.loadRange.contains ivt.targetPtr = false)

instance (config : ImxrtConfig) (capacity : UInt32) (ivt : Ivt) :
    Decidable (WrongBound config capacity ivt) := inferInstanceAs (Decidable (_ ∨ _))

/-- Behind the check of the type, every error of the header checks is about size or place. -/
theorem placementError_of_checkHeader {config : ImxrtConfig} {slotSize : UInt32} {ivt : Ivt}
    {e : BootError} (htype : ivt.imageType = imageTypeTzXipSigned)
    (h : checkHeader config slotSize ivt = .error e) : PlacementError e := by
  unfold checkHeader at h
  rw [if_neg (not_not.mpr htype)] at h
  split at h
  · cases h
    exact .inl rfl
  split at h
  · cases h
    exact .inr (.inl rfl)
  split at h
  · cases h
    exact .inl rfl
  split at h
  · cases h
    exact .inr (.inr rfl)
  · cases h

section Header

variable {bytes : Nat → UInt8}
  (hread : slotPartition.read before.reads Ivt.readSize = .done bytes)
include hread

/-- The header that is accepted is the one that is read. -/
theorem Accepted.eq_slotIvt {ivt : Ivt} (h : Accepted slotPartition before ivt) :
    ivt = slotIvt bytes := by
  obtain ⟨bytes', hread', hivt⟩ := h.read
  rw [hread] at hread'
  cases hread'
  exact hivt.symm

/-- With the right type, an image is rejected for its size or place if it is not accepted. -/
theorem rejected_iff_not_accepted
    (hslot : before.slots[slot.toU8.toNat]? = some slotPartition)
    (htype : (slotIvt bytes).imageType = imageTypeTzXipSigned) :
    Rejected slot before ↔ ¬Accepted slotPartition before (slotIvt bytes) := by
  refine ⟨?_, fun h => ?_⟩
  · -- An accepted header leads to a second read.
    rintro ⟨e, after, hrun, -, hreads⟩ haccepted
    obtain ⟨e', after', hrun', hreads', -⟩ := checkAndBoot_of_accepted hslot haccepted
    rw [hrun] at hrun'
    cases hrun'
    omega
  · have hnone : ∀ ivt, ¬Accepted slotPartition before ivt := by
      intro ivt haccepted
      have hivt := haccepted.eq_slotIvt hread
      rw [hivt] at haccepted
      exact h haccepted
    obtain ⟨e, after, hrun, hreads, -, he⟩ := checkAndBoot_of_not_accepted hslot hnone
    refine ⟨e, after, hrun, ?_, hreads⟩
    -- The error is that of the slot's size, or one of the header checks.
    rcases he bytes hread with rfl | hcheck
    · exact .inl rfl
    · exact placementError_of_checkHeader htype hcheck

/-- An image is accepted if it fits and none of its bounds is one that the checks get
wrong. -/
theorem accepted_iff (htype : (slotIvt bytes).imageType = imageTypeTzXipSigned) :
    Accepted slotPartition before (slotIvt bytes) ↔
      Fits before.config slotPartition.capacity (slotIvt bytes) ∧
        ¬WrongBound before.config slotPartition.capacity (slotIvt bytes) := by
  constructor
  · rintro ⟨hcapacity, -, -, hle, hstart, hload, hstop⟩
    rw [UInt32.lt_iff_toNat_lt] at hcapacity
    refine ⟨⟨Range.contains_iff.mpr ⟨hstart, by omega⟩, hle, fun a ha ha' => by omega⟩, ?_⟩
    have hin : before.config.loadRange.contains (slotIvt bytes).targetPtr = true :=
      Range.contains_iff.mpr ⟨hload, by omega⟩
    rintro (h | ⟨-, h⟩ | ⟨-, h⟩)
    · rw [UInt32.le_iff_toNat_le] at h
      omega
    · omega
    · rw [hin] at h
      cases h
  · rintro ⟨⟨hsize, hle, hload⟩, hbound⟩
    -- What is left of the three bounds are the strict comparisons of the source.
    obtain ⟨hcapacity, hbound⟩ := not_or.mp hbound
    obtain ⟨hend, hempty⟩ := not_or.mp hbound
    rw [Range.contains_iff] at hsize
    have hplace : before.config.loadRange.start.toNat ≤ (slotIvt bytes).targetPtr.toNat ∧
        (slotIvt bytes).targetPtr.toNat + (slotIvt bytes).imageLen.toNat
          < before.config.loadRange.stop.toNat := by
      by_cases hlen : 0 < (slotIvt bytes).imageLen.toNat
      · -- The first and the last byte of the image are in the load range.
        have hfirst := hload (slotIvt bytes).targetPtr.toNat (Nat.le_refl _) (by omega)
        have hlast := hload
          ((slotIvt bytes).targetPtr.toNat + (slotIvt bytes).imageLen.toNat - 1)
          (by omega) (by omega)
        omega
      · have hin : before.config.loadRange.contains (slotIvt bytes).targetPtr = true := by
          rw [← Bool.not_eq_false]
          exact fun h => hempty ⟨by omega, h⟩
        rw [Range.contains_iff] at hin
        omega
    exact ⟨UInt32.not_le.mp hcapacity, ⟨bytes, hread, rfl⟩, htype, hle, hsize.1, hplace.1,
      hplace.2⟩

/-- A wrong bound is a reason to reject the image. -/
theorem rejected_of_wrongBound (hslot : before.slots[slot.toU8.toNat]? = some slotPartition)
    (htype : (slotIvt bytes).imageType = imageTypeTzXipSigned)
    (h : WrongBound before.config slotPartition.capacity (slotIvt bytes)) :
    Rejected slot before := by
  rw [rejected_iff_not_accepted hread hslot htype, accepted_iff hread htype]
  exact fun haccepted => haccepted.2 h

end Header

/-- For a slot that can be read and holds an image of the right type: the image is rejected
for its size or place exactly if it does not fit, unless it fits with a bound that the checks
get wrong. -/
theorem rejected_iff_not_fits_iff
    (hslot : before.slots[slot.toU8.toNat]? = some slotPartition) {bytes : Nat → UInt8}
    (hread : slotPartition.read before.reads Ivt.readSize = .done bytes)
    (htype : (slotIvt bytes).imageType = 4) :
    (Rejected slot before ↔ ¬Fits before.config slotPartition.capacity (slotIvt bytes)) ↔
      (Fits before.config slotPartition.capacity (slotIvt bytes) →
        ¬WrongBound before.config slotPartition.capacity (slotIvt bytes)) := by
  rw [rejected_iff_not_accepted hread hslot htype, accepted_iff hread htype]
  tauto

/-- An image of one header that wants to be copied to an address. -/
def placedImage (targetPtr : UInt32) : List UInt8 :=
  ivtBytes { imageLen := 64, imageType := 4, headerOffset := 0, targetPtr }

/-- An image at the start of the load range. -/
theorem rejected_iff_not_fits_iff_start :
    Rejected .S0 (sampleBoard (placedImage 0x10020000)) ↔
      ¬Fits exampleConfig exampleSlotSize
        (slotIvt ((placedImage 0x10020000).getD · 0xff)) := by
  have hread : (sampleSlot (placedImage 0x10020000)).read 0 Ivt.readSize
      = .done ((placedImage 0x10020000).getD · 0xff) := rfl
  have hslot : (sampleBoard (placedImage 0x10020000)).slots[Slot.S0.toU8.toNat]?
      = some (sampleSlot (placedImage 0x10020000)) := rfl
  refine (rejected_iff_not_fits_iff hslot hread (by decide +kernel)).mpr ?_
  intro _
  decide +kernel

/-- The slot of the sample board, but with a capacity of `SLOT_SIZE_RANGE.end`. -/
def largeSlot (image : List UInt8) : SlotPartition where
  capacity := 0x100000
  read _ len := if len ≤ 0x100000 then .done (image.getD · 0xff) else .failed 0 fun _ => 0
  outOfBounds _ _ hlen := ⟨_, if_neg (Nat.not_le_of_lt hlen)⟩

/-- The image fits into the slot and, for these two addresses, into the load range. -/
theorem placedImage_fits {capacity targetPtr : UInt32} (hcapacity : 64 ≤ capacity.toNat)
    (htarget : targetPtr = 0x10020000 ∨ targetPtr = 0x1017ffc0) :
    Fits exampleConfig capacity (slotIvt ((placedImage targetPtr).getD · 0xff)) := by
  have hload : (slotIvt ((placedImage targetPtr).getD · 0xff)).targetPtr = targetPtr := by
    rcases htarget with rfl | rfl <;> decide +kernel
  have hlen : (slotIvt ((placedImage targetPtr).getD · 0xff)).imageLen = 64 := by
    rcases htarget with rfl | rfl <;> decide +kernel
  refine ⟨?_, ?_, ?_⟩
  · rw [hlen]
    decide
  · rw [hlen]
    exact hcapacity
  · rw [hload, hlen]
    intro a ha ha'
    have hrange : 0x10020000 ≤ targetPtr.toNat ∧ targetPtr.toNat + 64 ≤ 0x10180000 := by
      rcases htarget with rfl | rfl <;> decide
    exact ⟨Nat.le_trans hrange.1 ha, Nat.lt_of_lt_of_le ha' hrange.2⟩

/-- Two images that fit and are rejected. The first one ends where the load range of the
example board ends. The second one is in a slot of `SLOT_SIZE_RANGE.end` bytes. -/
theorem fitting_images_rejected :
    ¬(Rejected .S0 (sampleBoard (placedImage 0x1017ffc0)) ↔
      ¬Fits exampleConfig exampleSlotSize (slotIvt ((placedImage 0x1017ffc0).getD · 0xff))) ∧
    ¬(Rejected .S0 { sampleBoard (placedImage 0x10020000) with
          slots := [largeSlot (placedImage 0x10020000)] } ↔
      ¬Fits exampleConfig 0x100000 (slotIvt ((placedImage 0x10020000).getD · 0xff))) := by
  refine ⟨fun h => ?_, fun h => ?_⟩
  · have hread : (sampleSlot (placedImage 0x1017ffc0)).read 0 Ivt.readSize
        = .done ((placedImage 0x1017ffc0).getD · 0xff) := rfl
    exact h.mp (rejected_of_wrongBound hread rfl (by decide +kernel) (by decide +kernel))
      (placedImage_fits (by decide) (.inr rfl))
  · have hread : (largeSlot (placedImage 0x10020000)).read 0 Ivt.readSize
        = .done ((placedImage 0x10020000).getD · 0xff) := rfl
    exact h.mp (rejected_of_wrongBound hread rfl (by decide +kernel) (by decide +kernel))
      (placedImage_fits (by decide) (.inl rfl))

/-! ### The memory of the bootloader -/

/-- The run copies no byte to the memory that the bootloader's code runs from. The bytes
that are written in a run are those that it copies before `check_image`. -/
def KeepsBootloader (slot : Slot) (before : Imxrt T H) : Prop :=
  ∃ e after w, checkAndBoot slot before = .error e after ∧ after.written = before.written ++ w ∧
    ∀ a ∈ w, ¬(bootloaderCode.start.toNat ≤ a ∧ a < bootloaderCode.stop.toNat)

/-- Bytes that end before the bootloader's code or start behind it, or no bytes at all. -/
def Beside (target count : Nat) : Prop :=
  count = 0 ∨ target + count ≤ bootloaderCode.start.toNat ∨ bootloaderCode.stop.toNat ≤ target

instance (target count : Nat) : Decidable (Beside target count) :=
  inferInstanceAs (Decidable (_ ∨ _))

/-- The bytes of a copy are beside the bootloader exactly when no single byte is in its code. -/
theorem beside_iff {target count : Nat} :
    Beside target count ↔ ∀ a ∈ List.range' target count,
      ¬(bootloaderCode.start.toNat ≤ a ∧ a < bootloaderCode.stop.toNat) := by
  have hstart : bootloaderCode.start.toNat = 0x10170000 := rfl
  have hstop : bootloaderCode.stop.toNat = 0x10176000 := rfl
  rw [Beside, hstart, hstop]
  constructor
  · intro h a ha
    rw [List.mem_range'_1] at ha
    omega
  · intro h
    by_contra hbeside
    -- The larger one of the two starts is in both.
    refine h (max target 0x10170000) ?_ ?_
    · rw [List.mem_range'_1]
      omega
    · omega

/-- What a run with an accepted header copies decides. -/
theorem keepsBootloader_of_accepted
    (hslot : before.slots[slot.toU8.toNat]? = some slotPartition) {ivt : Ivt}
    (h : Accepted slotPartition before ivt) :
    KeepsBootloader slot before ↔ Beside ivt.targetPtr.toNat
      (filled ivt.imageLen.toNat
        (slotPartition.read (before.reads + 1) ivt.imageLen.toNat)) := by
  obtain ⟨e, after, hrun, -, hwritten⟩ := checkAndBoot_of_accepted hslot h
  rw [beside_iff]
  constructor
  · rintro ⟨e', after', w, hrun', hwritten', hw⟩
    -- There is one run, so the bytes that it has written are known.
    rw [hrun] at hrun'
    cases hrun'
    rw [hwritten, List.append_cancel_left_eq] at hwritten'
    rw [hwritten']
    exact hw
  · intro hw
    exact ⟨e, after, _, hrun, hwritten, hw⟩

/-- On the example board the bootloader is not overwritten exactly if no header is accepted,
or the bytes that are copied lie beside it. -/
theorem bootloader_kept_iff (hconfig : before.config = exampleConfig)
    (hslot : before.slots[slot.toU8.toNat]? = some slotPartition)
    (hcapacity : slotPartition.capacity = exampleSlotSize) :
    KeepsBootloader slot before ↔
      ∀ bytes, slotPartition.read before.reads Ivt.readSize = .done bytes →
        checkHeader exampleConfig exampleSlotSize (slotIvt bytes) = .ok () →
        Beside (slotIvt bytes).targetPtr.toNat (filled (slotIvt bytes).imageLen.toNat
          (slotPartition.read (before.reads + 1) (slotIvt bytes).imageLen.toNat)) := by
  have haccepted : ∀ bytes, slotPartition.read before.reads Ivt.readSize = .done bytes →
      checkHeader exampleConfig exampleSlotSize (slotIvt bytes) = .ok () →
      Accepted slotPartition before (slotIvt bytes) := by
    intro bytes hread hcheck
    refine ⟨?_, ⟨bytes, hread, rfl⟩, ?_⟩
    · rw [hconfig, hcapacity]
      decide
    · rw [hconfig, hcapacity]
      exact checkHeader_eq_ok.mp hcheck
  constructor
  · intro h bytes hread hcheck
    exact (keepsBootloader_of_accepted hslot (haccepted bytes hread hcheck)).mp h
  · intro h
    -- Without an accepted header nothing is copied at all.
    by_cases hex : ∃ ivt, Accepted slotPartition before ivt
    · obtain ⟨ivt, hivt⟩ := hex
      obtain ⟨bytes, hread, rfl⟩ := hivt.read
      have hheader := hivt.header
      rw [hconfig, hcapacity] at hheader
      exact (keepsBootloader_of_accepted hslot hivt).mpr
        (h bytes hread (checkHeader_eq_ok.mpr hheader))
    · obtain ⟨e, after, hrun, -, hwritten, -⟩ :=
        checkAndBoot_of_not_accepted hslot (not_exists.mp hex)
      exact ⟨_, after, [], hrun, by rw [hwritten, List.append_nil],
        fun a ha => absurd ha List.not_mem_nil⟩

/-- An image at the start of the load range leaves the bootloader alone. -/
theorem bootloader_kept_iff_start : KeepsBootloader .S0 (sampleBoard (placedImage 0x10020000)) := by
  have hslot : (sampleBoard (placedImage 0x10020000)).slots[Slot.S0.toU8.toNat]?
      = some (sampleSlot (placedImage 0x10020000)) := rfl
  refine (bootloader_kept_iff rfl hslot rfl).mpr ?_
  intro bytes hread _
  have hread' : (sampleSlot (placedImage 0x10020000)).read 0 Ivt.readSize
      = .done ((placedImage 0x10020000).getD · 0xff) := rfl
  obtain rfl : (fun i => (placedImage 0x10020000).getD i 0xff) = bytes :=
    ReadAnswer.done.inj (hread'.symm.trans hread)
  decide +kernel

/-- An image of 64 bytes that is copied over the first bytes of the bootloader's code. -/
theorem bootloader_overwritten :
    (sampleBoard (placedImage 0x10170000)).config = exampleConfig ∧
      (sampleSlot (placedImage 0x10170000)).capacity = exampleSlotSize ∧
      ¬KeepsBootloader .S0 (sampleBoard (placedImage 0x10170000)) := by
  have hslot : (sampleBoard (placedImage 0x10170000)).slots[Slot.S0.toU8.toNat]?
      = some (sampleSlot (placedImage 0x10170000)) := rfl
  have haccepted : Accepted (sampleSlot (placedImage 0x10170000))
      (sampleBoard (placedImage 0x10170000)) (slotIvt ((placedImage 0x10170000).getD · 0xff)) := by
    refine ⟨by decide, ⟨_, rfl, rfl⟩, checkHeader_eq_ok.mp ?_⟩
    decide +kernel
  refine ⟨rfl, rfl, ?_⟩
  rw [keepsBootloader_of_accepted hslot haccepted]
  decide +kernel

end Imxrt

end EcSlimloader
