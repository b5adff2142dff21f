import EcSlimloader.Lib.Bytes

/-!
# `EcSlimloader.Tool.Objcopy`: from an ELF file to a flat image

`objcopy` from `bootloader-tool/src/processors/objcopy.rs`. It goes over the loadable segments
of an ELF file, leaves out those without content and those of the prelude, and copies the
others to a flat image at their physical addresses. `remove_non_prelude` is its counterpart: it
keeps the prelude, and marks the other sections with data for deletion.

The ELF file is parsed by the crate `object`. A `Segment` is what it presents of a loadable
segment, and `data` is missing when the segment is not inside the file. An `unwrap`, a slice
out of range and a `copy_from_slice` of the wrong length are panics.

The base address of the flat image is that of the first segment that is copied. The checks go over
the segments in the order of the file and keep the end of the last one. A gap becomes zeros. The
size of the result is not checked, as a comment in the source says.
-/

set_option autoImplicit false

namespace EcSlimloader

open Bytes (splice addU32 subU32)

/-- A loadable segment of an ELF file. -/
structure Segment where
  pPaddr : UInt32
  pFilesz : UInt32
  pMemsz : UInt32
  /-- `data()`: `p_filesz` bytes of the file, if it has them. -/
  data : Option (List UInt8)
  length_data : ∀ bytes ∈ data, bytes.length = pFilesz.toNat

/-- `ElfFile32`, as far as `objcopy` looks at it. -/
structure ElfFile32 where
  /-- `segments()`, in the order of the file. -/
  segments : List Segment
  /-- `entry()`. -/
  entry : UInt64

/-- The errors of `objcopy`. -/
inductive ObjcopyError where
  /-- "p_filesz larger than p_memsz". -/
  | fileszLarger
  /-- "Segment only partially a bss segment". -/
  | partialBss
  /-- "Segments not in order of physical address or overlapping segments". -/
  | segmentOrder
  /-- "Image entrypoint 0x.. not at expected address 0x..". -/
  | entryPoint (entry expected : UInt64)
  deriving DecidableEq, Repr

/-- The result of `objcopy` and its parts. -/
abbrev ObjcopyResult (α : Type) : Type := Except (Fault ObjcopyError) α

/-- `PRELUDE_ADDRESS_RANGE.contains`. -/
def inPrelude (paddr : UInt32) : Bool := 0x08000000 ≤ paddr && paddr < 0x08001000

/-- The "sanity checks": the segments to copy. `lastPaddr` is the end of the last one. -/
def checkSegments (overflowChecks : Bool) : List Segment → UInt32 → ObjcopyResult (List Segment)
  | [], _ => pure []
  | segment :: rest, lastPaddr =>
      -- Skip bss to reduce size of image to flash.
      if segment.pFilesz = 0 then checkSegments overflowChecks rest lastPaddr
      else if segment.pFilesz > segment.pMemsz then .error (.error .fileszLarger)
      else if segment.pMemsz > segment.pFilesz then .error (.error .partialBss)
      else if inPrelude segment.pPaddr then checkSegments overflowChecks rest lastPaddr
      else if segment.pPaddr < lastPaddr then .error (.error .segmentOrder)
      else do
        let lastPaddr ← addU32 overflowChecks segment.pPaddr segment.pMemsz
        pure (segment :: (← checkSegments overflowChecks rest lastPaddr))

/-- `unwrap` of an `Option`. -/
def unwrap {α : Type} : Option α → ObjcopyResult α
  | some a => .ok a
  | none => .error (.panic "called `Option::unwrap()` on a `None` value")

/-- "Assemble BIN image by copying all segments directly". The base address is the smallest
one, so the difference does not underflow. -/
def copySegments (baseAddr : UInt32) : List Segment → List UInt8 → ObjcopyResult (List UInt8)
  | [], image => pure image
  | segment :: rest, image =>
      let start := segment.pPaddr.toNat - baseAddr.toNat
      if image.length < start + segment.pMemsz.toNat then
        .error (.panic "range end index out of range for slice")
      else match segment.data with
        | none => .error (.panic "called `Result::unwrap()` on an `Err` value")
        | some data =>
            if data.length ≠ segment.pMemsz.toNat then
              .error (.panic "copy_from_slice: source slice length does not match destination")
            else copySegments baseAddr rest (splice image start data)

/-- `objcopy`: the image and its base address. -/
def objcopy (overflowChecks : Bool) (file : ElfFile32) : ObjcopyResult (List UInt8 × UInt32) := do
  let segments ← checkSegments overflowChecks file.segments 0
  let baseAddr ← unwrap (segments.map Segment.pPaddr).min?
  let ends ← segments.mapM fun segment => addU32 overflowChecks segment.pPaddr segment.pFilesz
  let topAddr ← unwrap ends.max?
  let outputSize ← subU32 overflowChecks topAddr baseAddr
  -- The bootrom will start executing at offset 0x130. Add 1 for thumb mode.
  let expectedEntry := (← addU32 overflowChecks baseAddr 0x131).toUInt64
  if file.entry ≠ expectedEntry then
    .error (.error (.entryPoint file.entry expectedEntry))
  else
    pure (← copySegments baseAddr segments (List.replicate outputSize.toNat 0), baseAddr)

/-! ### The prelude -/

/-- A section of an ELF file, as far as `remove_non_prelude` looks at it. -/
structure ElfSection where
  shAddr : UInt64
  shType : UInt32
  deriving DecidableEq, Repr

/-- `SHT_PROGBITS`. -/
def shtProgbits : UInt32 := 1

/-- `SHT_NOBITS`. -/
def shtNobits : UInt32 := 8

/-- Whether the loop of `remove_non_prelude` marks a section with `delete`. -/
def ElfSection.isDeleted (s : ElfSection) : Bool :=
  -- This segment is part of the prelude.
  if inPrelude s.shAddr.toUInt32 then false
  -- This is not a data section so keep it.
  else if s.shType ≠ shtProgbits ∧ s.shType ≠ shtNobits then false
  else true

end EcSlimloader
