import EcSlimloader.State.Journal

/-!
# `EcSlimloader.State.Mock`: the mock flash

`MockFlashBase` from `ec-slimloader-state/src/flash/mock.rs`: an in-memory NOR
flash with a write-once flag per word and a countdown to a power cut. A write
ANDs its bytes in ascending order and an erase sets bytes to `0xff` in ascending
order. The countdown is checked before each byte, so a cut run has changed
exactly the bytes before the cut.

The source's countdown is a `u32`. Here it is a `Nat`, so that a cut can come
after any number of bytes. The source's check that the write buffer is aligned
looks at a pointer, and is switched off in the tests. It is left out.

The flags are per word: a word can be written once after an erase, even if the write changes no bit.
A write to a word whose flag is taken is refused before its first byte. An erase gives the flag of
a word back with the first byte of the word that it erases, so a torn erase leaves words that are
half erased and writable.
-/

set_option autoImplicit false

namespace EcSlimloader

/-- State of a word in the flash. -/
inductive Writable where
  /-- Once: can only convert 1 bits to 0. -/
  | O
  /-- Never: must be cleared before being writable again. -/
  | N
  deriving DecidableEq, Repr

/-- The operation that a power cut interrupted. -/
inductive Operation where
  | Write
  | Erase
  deriving DecidableEq, Repr

/-- Errors reported by the mock flash. -/
inductive MockFlashError where
  | OutOfBounds
  | NotAligned
  | NotWritable (address : UInt32)
  | EarlyShutoff (address : UInt32) (operation : Operation)
  deriving DecidableEq, Repr

/-- In-memory flash: `PAGES` pages of `PAGE_WORDS` words of `BYTES_PER_WORD`
bytes. -/
structure MockFlashBase (pages bytesPerWord pageWords : Nat) where
  writable : Vector Writable (pages * pageWords)
  data : Vector UInt8 (pages * pageWords * bytesPerWord)
  /-- A countdown to shutoff. When some and 0, an early shutoff will happen. -/
  bytesUntilShutoff : Option Nat
  deriving DecidableEq

namespace MockFlashBase

variable {pages bytesPerWord pageWords : Nat}

/-- `CAPACITY_BYTES`. -/
def capacityBytes (pages bytesPerWord pageWords : Nat) : Nat := pages * pageWords * bytesPerWord

/-- `PAGE_BYTES`. -/
def pageBytes (bytesPerWord pageWords : Nat) : Nat := pageWords * bytesPerWord

/-- `MockFlashBase::new`: every word writable, every byte `u8::MAX`. -/
def new (bytesUntilShutoff : Option Nat) : MockFlashBase pages bytesPerWord pageWords where
  writable := Vector.replicate _ .O
  data := Vector.replicate _ 0xff
  bytesUntilShutoff

/-- `as_bytes_mut()[index] = f(old)`. -/
def modifyByte (index : Nat) (f : UInt8 → UInt8)
    (self : MockFlashBase pages bytesPerWord pageWords) :
    MockFlashBase pages bytesPerWord pageWords :=
  { self with data := self.data.setIfInBounds index (f (self.data[index]?.getD 0xff)) }

/-- `writable[word] = flag`. -/
def setWritable (word : Nat) (flag : Writable)
    (self : MockFlashBase pages bytesPerWord pageWords) :
    MockFlashBase pages bytesPerWord pageWords :=
  { self with writable := self.writable.setIfInBounds word flag }

/-- `validate_operation`: the byte range of an access. -/
def validateOperation (pages bytesPerWord pageWords : Nat) (offset : UInt32) (length : Nat) :
    Except MockFlashError Nat :=
  if offset.toNat % bytesPerWord ≠ 0 then
    .error .NotAligned
  else if offset.toNat > capacityBytes pages bytesPerWord pageWords ∨
      offset.toNat + length > capacityBytes pages bytesPerWord pageWords then
    .error .OutOfBounds
  else
    .ok offset.toNat

/-- `check_shutoff`: count one byte operation, or lose power. -/
def checkShutoff (address : Nat) (operation : Operation) :
    Exec MockFlashError (MockFlashBase pages bytesPerWord pageWords) Unit := do
  let self ← get
  match self.bytesUntilShutoff with
  | some (next + 1) => set { self with bytesUntilShutoff := some next }
  | some 0 =>
      set { self with bytesUntilShutoff := none }
      Exec.fail (.EarlyShutoff (UInt32.ofNat address) operation)
  | none => pure ()

/-- `remove_shutoff`. -/
def removeShutoff (self : MockFlashBase pages bytesPerWord pageWords) :
    MockFlashBase pages bytesPerWord pageWords :=
  { self with bytesUntilShutoff := none }

/-- Lift the result of a check into a program. -/
def liftCheck {α : Type} :
    Except MockFlashError α → Exec MockFlashError (MockFlashBase pages bytesPerWord pageWords) α
  | .ok a => pure a
  | .error e => Exec.fail e

/-- `ReadNorFlash::read`. -/
def read (offset : UInt32) (length : Nat) :
    Exec MockFlashError (MockFlashBase pages bytesPerWord pageWords) (List UInt8) := do
  Exec.require (length % bytesPerWord = 0)
    "any read must be a multiple of Self::READ_SIZE bytes"
  let start ← liftCheck (validateOperation pages bytesPerWord pageWords offset length)
  let self ← get
  pure ((self.data.toList.drop start).take length)

/-- One iteration of the loop of `erase`. -/
def eraseByte (index : Nat) :
    Exec MockFlashError (MockFlashBase pages bytesPerWord pageWords) Unit := do
  checkShutoff index .Erase
  modify (modifyByte index fun _ => 0xff)
  if index % bytesPerWord = 0 then
    modify (setWritable (index / bytesPerWord) .O)

/-- `NorFlash::erase`. -/
def erase (start stop : UInt32) :
    Exec MockFlashError (MockFlashBase pages bytesPerWord pageWords) Unit := do
  Exec.require (start.toNat ≤ stop.toNat) "assertion failed: from <= to"
  if stop.toNat > capacityBytes pages bytesPerWord pageWords then
    Exec.fail .OutOfBounds
  else if start.toNat % pageBytes bytesPerWord pageWords ≠ 0 ∨
      stop.toNat % pageBytes bytesPerWord pageWords ≠ 0 then
    Exec.fail .NotAligned
  else
    (List.range' start.toNat (stop.toNat - start.toNat)).forM eraseByte

/-- One iteration of the inner loop of `write`: the byte at `byteIndex` of the
word at `address`. The first byte of a word takes its write-once flag. -/
def writeByte (address : Nat) (byte : UInt8) (byteIndex : Nat) :
    Exec MockFlashError (MockFlashBase pages bytesPerWord pageWords) Unit := do
  checkShutoff (address + byteIndex) .Write
  if byteIndex = 0 then
    match (← get).writable[address / bytesPerWord]?.getD .O with
    | .O => modify (setWritable (address / bytesPerWord) .N)
    | .N => Exec.fail (.NotWritable (UInt32.ofNat address))
  modify (modifyByte (address + byteIndex) (· &&& byte))

/-- `bytes.chunks_exact(n)`. -/
def wordsOf (n : Nat) (bytes : List UInt8) : List (List UInt8) :=
  (List.range (bytes.length / n)).map fun i => (bytes.drop (i * n)).take n

/-- `NorFlash::write`. -/
def write (offset : UInt32) (bytes : List UInt8) :
    Exec MockFlashError (MockFlashBase pages bytesPerWord pageWords) Unit := do
  let start ← liftCheck (validateOperation pages bytesPerWord pageWords offset bytes.length)
  Exec.require (bytes.length % bytesPerWord = 0)
    "any write must be a multiple of Self::WRITE_SIZE bytes"
  (wordsOf bytesPerWord bytes).zipIdx.forM fun (sourceWord, wordIndex) =>
    sourceWord.zipIdx.forM fun (byte, byteIndex) =>
      writeByte (start + wordIndex * bytesPerWord) byte byteIndex

instance : NorFlash (MockFlashBase pages bytesPerWord pageWords) MockFlashError where
  eraseSize := pageBytes bytesPerWord pageWords
  capacity _ := capacityBytes pages bytesPerWord pageWords
  read := read
  write := write
  erase := erase

end MockFlashBase

end EcSlimloader
