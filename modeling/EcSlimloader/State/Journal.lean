import EcSlimloader.Lib.Exec
import EcSlimloader.State.State

/-!
# `EcSlimloader.State.Journal`: the flash-backed state journal

`FlashJournal` from `ec-slimloader-state/src/flash.rs`, generic over the storage
as in the source. `NorFlash` is the storage trait of `embedded-storage-async`.
Its operations are programs over the storage, because a failed operation can
leave the storage changed.

Addresses are `usize` inside the journal and `u32` in the trait. The model has
`Nat` inside and `UInt32` in the trait, and casts where the source casts.

`computeCache` is a fold over the blocks of the storage, with the cache as its accumulator, as the
loop of the source is. `scanBlock` is the body of that loop, a fold over the words of a block. The
asserts at the beginning of the source's function are panics here.

An error of the storage leaves the handle as it was, with the storage as the operation left it.
That is the `?` of the source, and it is why `set` can leave a stale cache behind.
-/

set_option autoImplicit false

namespace EcSlimloader

/-- The `NorFlash` and `ReadNorFlash` traits: `T` is the storage, `E` its error.
`read` returns the bytes the source reads into its buffer. -/
class NorFlash (T : Type) (E : outParam Type) where
  /-- `T::ERASE_SIZE`, the page size in bytes. -/
  eraseSize : Nat
  /-- `capacity()` in bytes. -/
  capacity : T → Nat
  /-- `read(offset, bytes)` with a buffer of the given length. -/
  read : UInt32 → Nat → Exec E T (List UInt8)
  /-- `write(offset, bytes)`. -/
  write : UInt32 → List UInt8 → Exec E T Unit
  /-- `erase(from, to)`. -/
  erase : UInt32 → UInt32 → Exec E T Unit

/-- A state with its address in the storage. -/
structure StateWithAddr where
  state : State
  address : Nat
  deriving DecidableEq

/-- What the journal keeps in RAM: the last valid state, and the address of the
first empty slot behind it. -/
structure Cache where
  lastValidState : Option StateWithAddr := none
  firstEmptySlot : Option Nat := none
  deriving DecidableEq

/-- Bootloader `State` journal: the storage and the cache of what it holds. -/
structure FlashJournal (T : Type) where
  inner : T
  cache : Cache

namespace FlashJournal

/-- `flash::Error`. -/
inductive Error (E : Type) where
  /-- The storage does not have at least two pages. -/
  | NotEnoughPartitions
  /-- After a write, the readback does not yield the same state. -/
  | ReadbackFailed
  /-- The storage yielded an error. -/
  | Other (e : E)
  deriving DecidableEq, Repr

/-- `usize::div_ceil`. -/
def divCeil (a b : Nat) : Nat := (a + b - 1) / b

/-- `CHUNK_SIZE` of `compute_cache`: the size of one record. -/
def chunkSize : Nat := 2

/-- `chunks_exact(2)`: the full words of a buffer. A trailing odd byte is
dropped. -/
def chunksExact : List UInt8 → List (UInt8 × UInt8)
  | a :: b :: rest => (a, b) :: chunksExact rest
  | _ => []

/-- The body of the inner loop of `compute_cache`. -/
def scanChunk (result : Cache) (address : Nat) (chunk : UInt8 × UInt8) : Cache :=
  match State.tryNew chunk with
  | .ok state => { lastValidState := some { state, address }, firstEmptySlot := none }
  | .error .Unset =>
      if result.firstEmptySlot.isNone then
        { result with firstEmptySlot := some address }
      else
        result
  | .error .Invalid => result

/-- The inner loop of `compute_cache`, over one block that was read at
`blockStart`. -/
def scanBlock (result : Cache) (blockStart : Nat) (slice : List UInt8) : Cache :=
  (chunksExact slice).zipIdx.foldl
    (fun result (chunk, chunkI) => scanChunk result (blockStart + chunkI * chunkSize) chunk)
    result

variable {T E : Type} [NorFlash T E]

/-- `page_count`: number of pages in the storage. -/
def pageCount (inner : T) : Nat := divCeil (NorFlash.capacity inner) (NorFlash.eraseSize T)

/-- `address_to_page_i`. -/
def addressToPageI (T : Type) {E : Type} [NorFlash T E] (address : UInt32) : Nat :=
  address.toNat / NorFlash.eraseSize T

/-- `compute_cache::<BLOCK_SIZE>`: read the storage block by block, and find the
last valid state and the first empty slot behind it. The source counts in `usize`,
here a `Nat`: the two agree as long as `capacity + BLOCK_SIZE` stays below `2 ^ 32` on
the 32-bit target, where the block size is that of a buffer on the stack. -/
def computeCache (blockSize : Nat) : Exec E T Cache := do
  Exec.require (blockSize ≥ chunkSize) "assertion failed: BLOCK_SIZE >= CHUNK_SIZE"
  Exec.require (blockSize % chunkSize = 0)
    "assertion failed: BLOCK_SIZE.is_multiple_of(CHUNK_SIZE)"
  let capacity := NorFlash.capacity (← get)
  let blockCount := divCeil capacity blockSize
  (List.range blockCount).foldlM (fun result blockI => do
    let blockStart := blockI * blockSize
    let blockEnd := min (blockStart + blockSize) capacity
    let slice ← NorFlash.read (UInt32.ofNat blockStart) (blockEnd - blockStart)
    pure (scanBlock result blockStart slice)) {}

/-- `FlashJournal::new::<N>`: open the journal on a storage. -/
def new (n : Nat) : Exec (Error E) T (FlashJournal T) := do
  if pageCount (← get) < 2 then
    Exec.fail .NotEnoughPartitions
  else
    let cache ← Exec.zoom id (fun t _ => t) .Other (computeCache n)
    pure { inner := ← get, cache }

/-- `get`: the latest state in the journal, if any. -/
def get (self : FlashJournal T) : Option State :=
  self.cache.lastValidState.map StateWithAddr.state

/-- `erase_pages`: erase the pages `startPage ≤ i < endPage` with one erase
operation of the storage. -/
def erasePages (startPage endPage : Nat) : Exec E T Unit := do
  let start := startPage * NorFlash.eraseSize T
  let stop := min (endPage * NorFlash.eraseSize T) (NorFlash.capacity (← MonadState.get))
  NorFlash.erase (UInt32.ofNat start) (UInt32.ofNat stop)

/-- The bytes of `as_bytes` as the slice that `write` takes. -/
def recordBytes (state : State) : List UInt8 := [state.asBytes.1, state.asBytes.2]

/-- "Write the new state somewhere": the four branches of `set`, from what the
cache holds. -/
def writeState (cache : Cache) (state : State) : Exec E T Unit := do
  match cache.firstEmptySlot, cache.lastValidState with
  | some firstEmptySlot, _ =>
      -- The slot is all `0xff`, so it can be written.
      NorFlash.write (UInt32.ofNat firstEmptySlot) (recordBytes state)
  | none, some lastValidState =>
      if addressToPageI T (UInt32.ofNat lastValidState.address) > 0 then
        -- The last state is not in the first page: erase that page and write there.
        -- The erasure of the final page then validates the new state.
        erasePages 0 1
        NorFlash.write 0 (recordBytes state)
        erasePages 1 (pageCount (← MonadState.get))
      else
        -- The last state is in the first page: free the other pages, and write
        -- to the second one.
        erasePages 1 (pageCount (← MonadState.get))
        NorFlash.write (UInt32.ofNat (1 * NorFlash.eraseSize T)) (recordBytes state)
  | none, none =>
      -- No state and no empty slot: clear everything.
      NorFlash.erase 0 (UInt32.ofNat (NorFlash.capacity (← MonadState.get)))
      NorFlash.write 0 (recordBytes state)

/-- Run a program on the inner storage. Its errors become `Error::Other`. -/
def onInner {α : Type} (x : Exec E T α) : Exec (Error E) (FlashJournal T) α :=
  Exec.zoom inner (fun t self => { self with inner := t }) .Other x

/-- `set::<N>`: make `state` the latest state of the journal. -/
def set (n : Nat) (state : State) : Exec (Error E) (FlashJournal T) Unit := do
  let self ← MonadState.get
  if self.get = some state then
    pure ()
  else
    onInner (writeState self.cache state)
    -- Re-compute the cache to check if the journal is valid.
    let cache ← onInner (computeCache n)
    modify fun self => { self with cache }
    if (← MonadState.get).get = some state then
      pure ()
    else
      Exec.fail .ReadbackFailed

end FlashJournal

end EcSlimloader
