import EcSlimloader.Imxrt.Verification

/-!
# `EcSlimloader.Imxrt.CheckAndBoot`: the board of the i.MX RT

`check_and_boot` from `ec-slimloader-imxrt/src/lib.rs`. It reads the header of a slot,
checks its fields, copies the image to RAM, reads the header again from there, has
`check_image` look at the image, and hands over control.

A slot is a partition of an external flash, whose driver is not a part of the
repository. So `SlotPartition` answers each read as it likes, and two reads need not
agree. The one thing it must do is what `ReadNorFlash` documents: a read that does not
fit is an error. A failed read may have filled a part of the buffer.

The function either returns an error or does not return. `Exit` has a case for each.
The board keeps a record of the RAM bytes that were written and of the reads. The
program does not look at it. The 64-byte buffer of `Ivt::read` is a local variable, so
it is not a part of the RAM here. `check_image` does not write to RAM, and what the ROM
keeps there for itself is outside the model.

At the end are the constants of the example board in `examples/rt685s`.

The pointer arithmetic is that of a 32-bit target. `targetEndPtr` is a checked addition, so an image
that would wrap around the address space is an error. The end of the image is compared with the
load range as if it were an address inside of it, and the size of the slot is compared with
`SLOT_SIZE_RANGE` before anything is read: both are written down here as they are in the source.
-/

set_option autoImplicit false

namespace EcSlimloader

/-- `core::ops::Range`, for sizes and for pointers. -/
structure Range where
  start : UInt32
  stop : UInt32
  deriving DecidableEq, Repr

/-- `Range::contains`. -/
def Range.contains (range : Range) (x : UInt32) : Bool := range.start ≤ x && x < range.stop

/-- The constants of `ImxrtConfig`. -/
structure ImxrtConfig where
  /-- `SLOT_SIZE_RANGE`. -/
  slotSizeRange : Range
  /-- `LOAD_RANGE`. -/
  loadRange : Range
  deriving DecidableEq, Repr

/-- The answer to a read: the buffer is filled, or an error after some of it. -/
inductive ReadAnswer where
  | done (bytes : Nat → UInt8)
  | failed (count : Nat) (bytes : Nat → UInt8)

/-- A slot. `read call len` is the answer to `read(0, buf)` with a buffer of length
`len`, when it is read number `call`. -/
structure SlotPartition where
  capacity : UInt32
  read : Nat → Nat → ReadAnswer
  /-- A read that does not fit is an error, and nothing is read. -/
  outOfBounds : ∀ call len, capacity.toNat < len → ∃ bytes, read call len = .failed 0 bytes

/-- `Imxrt`, with the RAM and the state `H` that `check_image` works on. -/
structure Imxrt (T H : Type) where
  journal : FlashJournal T
  slots : List SlotPartition
  config : ImxrtConfig
  /-- The `CheckImage` of the build, on the header and the image in RAM. -/
  checkImage : Ivt → List UInt8 → Exec BootError H Unit
  hw : H
  ram : Nat → UInt8
  /-- The number of reads so far. -/
  reads : Nat
  /-- The addresses of the RAM bytes that were written. -/
  written : List Nat
  /-- The number of bytes that each read has taken from its slot. -/
  transfers : List Nat

/-- The `check_image` of a build with the feature `non-secure`. -/
def checkImageNonSecure {H : Type} (_ramIvt : Ivt) (_image : List UInt8) :
    Exec BootError H Unit := pure ()

/-- How `check_and_boot` ends: it returns, or it jumps to the application. -/
inductive Exit where
  | bootError (e : BootError)
  /-- `boot_application(boot_address)`. -/
  | bootApplication (bootAddress : UInt32)
  deriving DecidableEq, Repr

/-- `IMAGE_TYPE_TZ_XIP_SIGNED`. -/
def imageTypeTzXipSigned : UInt32 := 0x0004

/-- The checks of the header fields. -/
def checkHeader (config : ImxrtConfig) (slotSize : UInt32) (ivt : Ivt) : Except BootError Unit :=
  if ivt.imageType ≠ imageTypeTzXipSigned then .error .Markers
  else if ivt.imageLen > slotSize then .error .TooLarge
  else if ivt.imageLen < config.slotSizeRange.start then .error .TooSmall
  else match ivt.targetEndPtr with
    | none => .error .TooLarge
    | some imageTargetEndPtr =>
        if !config.loadRange.contains ivt.targetPtr || !config.loadRange.contains imageTargetEndPtr
        then .error .MemoryRegion
        else .ok ()

namespace Imxrt

variable {T H : Type}

/-- A read from the start of a slot. -/
def readSlot {ε : Type} (slotPartition : SlotPartition) (len : Nat) :
    Exec ε (Imxrt T H) ReadAnswer := do
  let answer := slotPartition.read (← get).reads len
  let count := match answer with
    | .done _ => len
    | .failed count _ => min count len
  modify fun board =>
    { board with reads := board.reads + 1, transfers := board.transfers ++ [count] }
  pure answer

/-- `Ivt::read`. The buffer is long enough for `read_from_slice`. -/
def readIvt (slotPartition : SlotPartition) : Exec BootError (Imxrt T H) Ivt := do
  match ← readSlot slotPartition Ivt.readSize with
  | .failed _ _ => Exec.fail .Io
  | .done bytes => pure (Ivt.parse ((List.range Ivt.readSize).map bytes))

/-- Write bytes to RAM. -/
def writeRam {ε : Type} (target count : Nat) (bytes : Nat → UInt8) : Exec ε (Imxrt T H) Unit :=
  modify fun board =>
    { board with
      ram := fun a => if target ≤ a ∧ a < target + count then bytes (a - target) else board.ram a
      written := board.written ++ List.range' target count }

/-- The bytes in RAM from an address on. -/
def ramSlice (ram : Nat → UInt8) (target len : Nat) : List UInt8 :=
  (List.range len).map fun i => ram (target + i)

/-- "Starting copy": read the image from the slot to RAM. -/
def copyImage (slotPartition : SlotPartition) (ivt : Ivt) : Exec BootError (Imxrt T H) Unit := do
  match ← readSlot slotPartition ivt.imageLen.toNat with
  | .failed count bytes =>
      writeRam ivt.targetPtr.toNat (min count ivt.imageLen.toNat) bytes
      Exec.fail .Io
  | .done bytes => writeRam ivt.targetPtr.toNat ivt.imageLen.toNat bytes

/-- "Copy the image to RAM from flash, and ensure that everything from flash is no longer
available." It returns the header in RAM. -/
def loadImage (slotPartition : SlotPartition) : Exec BootError (Imxrt T H) Ivt := do
  let config := (← get).config
  let slotSize := slotPartition.capacity
  if slotSize ≥ config.slotSizeRange.stop then
    Exec.fail .TooLarge
  else
    let ivt ← readIvt slotPartition
    Exec.ofExcept ((checkHeader config slotSize ivt).mapError .error)
    copyImage slotPartition ivt
    match Ivt.readFromSlice (ramSlice (← get).ram ivt.targetPtr.toNat ivt.imageLen.toNat) with
    | .error _ => Exec.fail .TooSmall
    | .ok ramIvt => if ivt ≠ ramIvt then Exec.fail .ChangeAfterRead else pure ramIvt

/-- The call of `check_image` on the image in RAM. -/
def runCheckImage (ramIvt : Ivt) : Exec BootError (Imxrt T H) Unit := do
  let board ← get
  Exec.zoom hw (fun hw board => { board with hw }) id
    (board.checkImage ramIvt (ramSlice board.ram ramIvt.targetPtr.toNat ramIvt.imageLen.toNat))

/-- `check_and_boot`. -/
def checkAndBoot (slot : Slot) : Exec Exit (Imxrt T H) Empty := do
  match (← get).slots[slot.toU8.toNat]? with
  | none => Exec.fail (.bootError .SlotUnknown)
  | some slotPartition =>
      let ramIvt ← Exec.mapError .bootError (loadImage slotPartition)
      Exec.mapError .bootError (runCheckImage ramIvt)
      Exec.fail (.bootApplication ramIvt.targetPtr)

variable {E : Type} [NorFlash T E]

/-- `check_and_boot` as `start` sees it. -/
instance : Board (Imxrt T H) T E where
  journal := journal
  withJournal journal board := { board with journal }
  checkAndBoot slot board :=
    match checkAndBoot slot board with
    | .ok never _ => nomatch never
    | .error (.error (.bootError e)) board => .ok e board
    | .error (.error (.bootApplication _)) board => .error (.error (.handOver slot)) board
    | .error (.panic msg) board => .error (.panic msg) board
  abort := Exec.fail .abort

end Imxrt

/-! ### The example board

The constants of `examples/rt685s`. The theorems about the board are for any configuration, except
for those that name this one. -/

/-- `ImxrtConfig for Config` from `examples/rt685s/bootloader/src/main.rs`. -/
def exampleConfig : ImxrtConfig where
  slotSizeRange := { start := 64, stop := 1024 * 1024 }
  loadRange := { start := 0x10020000, stop := 0x10180000 }

/-- The `slot_size` of the example board, from `bootloader-tool/config.toml`. -/
def exampleSlotSize : UInt32 := 0xec000

/-- The memory that the bootloader's code runs from: `FLASH` in its `memory.x`, with 24K. -/
def bootloaderCode : Range where
  start := 0x10170000
  stop := 0x10170000 + 24 * 1024

end EcSlimloader
