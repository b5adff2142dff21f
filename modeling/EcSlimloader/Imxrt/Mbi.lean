import EcSlimloader.Lib.Bytes

/-!
# `EcSlimloader.Imxrt.Mbi`: the image headers as the device reads them

The vector table fields of a master boot image and the header of its certificate
block, from `ec-slimloader-imxrt/src/mbi.rs`. The device has 32-bit pointers and a
32-bit `usize`, so every field is a `UInt32` or narrower.

The tool has modules of its own for the same structures, with other names and other offsets
(`EcSlimloader.Tool.Mbi`, `EcSlimloader.Tool.CertBlock`). They are not shared, in the source or
here. That the two sides agree is a theorem (`EcSlimloader.Proofs.Tool.RoundTrip`).
-/

set_option autoImplicit false

namespace EcSlimloader

open Bytes (u32At u16At)

/-- The fields of the vector table that the bootloader uses. -/
structure Ivt where
  imageLen : UInt32
  imageType : UInt32
  headerOffset : UInt32
  targetPtr : UInt32
  deriving DecidableEq, Repr

/-- The error of `Ivt::read_from_slice`. -/
inductive BufferTooSmall where
  | mk
  deriving DecidableEq, Repr

namespace Ivt

/-- The buffer size of `Ivt::read`. -/
def readSize : Nat := 64

/-- The fields of a buffer that is long enough. -/
def parse (data : List UInt8) : Ivt where
  imageLen := u32At data 0x20
  imageType := u32At data 0x24
  headerOffset := u32At data 0x28
  targetPtr := u32At data 0x34

/-- `Ivt::read_from_slice`. -/
def readFromSlice (data : List UInt8) : Except BufferTooSmall Ivt :=
  if data.length < 64 then .error .mk else .ok (parse data)

/-- `Ivt::target_end_ptr`: `checked_add` of 32-bit values. -/
def targetEndPtr (ivt : Ivt) : Option UInt32 :=
  if ivt.targetPtr.toNat + ivt.imageLen.toNat < 2 ^ 32 then some (ivt.targetPtr + ivt.imageLen)
  else none

end Ivt

/-- `CertificateBlockHeader`, a `repr(C)` structure of 32 bytes. -/
structure CertificateBlockHeader where
  signature : UInt32
  headerMajorVersion : UInt16
  headerMinorVersion : UInt16
  headerLength : UInt32
  flags : UInt32
  buildNumber : UInt32
  totalImageLength : UInt32
  certificateCount : UInt32
  certificateTableLength : UInt32
  deriving DecidableEq, Repr

namespace CertificateBlockHeader

/-- `size_of::<CertificateBlockHeader>()`. -/
def size : Nat := 32

/-- The fields of a buffer that is long enough, in the order of the structure. The
device is little-endian. -/
def parse (data : List UInt8) : CertificateBlockHeader where
  signature := u32At data 0
  headerMajorVersion := u16At data 4
  headerMinorVersion := u16At data 6
  headerLength := u32At data 8
  flags := u32At data 12
  buildNumber := u32At data 16
  totalImageLength := u32At data 20
  certificateCount := u32At data 24
  certificateTableLength := u32At data 28

/-- `CertificateBlockHeader::read_from_slice`. -/
def readFromSlice (data : List UInt8) : Option CertificateBlockHeader :=
  if data.length < size then none else some (parse data)

end CertificateBlockHeader

end EcSlimloader
