import EcSlimloader.State.Mock

/-!
# `EcSlimloader.State.Faulty`: a flash whose operations fail one by one

The mock flash has one countdown, so a run of it fails once. `FaultyFlash` puts a
plan in front of the mock flash: one entry per operation, which says whether this
operation is interrupted, and what it has done by then. An interrupted operation
returns an error, and the next operation works again.

An interrupted write has programmed a prefix of its bytes, as on the mock flash.
An interrupted erase depends on the order in which the flash erases. With
`ascending` it has erased a prefix of its bytes. With `unordered` it has erased
any of the words of its range: the storage trait promises no order.

The questions that need it are about what comes after an error: a handle that goes on with a stale
cache, an erase that loses words in an order of its own, and several errors in one run.
-/

set_option autoImplicit false

namespace EcSlimloader

/-- What an interrupted erase has erased: a prefix of the bytes, or any words. -/
inductive EraseOrder where
  | ascending
  | unordered
  deriving DecidableEq, Repr

/-- How far an interrupted operation got. -/
structure Interruption where
  /-- The number of bytes that were programmed, or erased in ascending order. -/
  bytes : Nat
  /-- The words that an erase without an order has erased. -/
  words : Nat → Bool

/-- The errors of a faulty flash. -/
inductive FaultyFlashError where
  /-- The operation was interrupted. -/
  | Interrupted
  /-- The mock flash failed: it lost power, or refused the operation. -/
  | Mock (e : MockFlashError)
  deriving DecidableEq, Repr

/-- A mock flash with a plan: the head of `plan` is for the next operation. Behind
the plan nothing is interrupted. -/
structure FaultyFlash (order : EraseOrder) (pages pageWords : Nat) where
  flash : MockFlashBase pages 2 pageWords
  plan : List (Option Interruption)

namespace FaultyFlash

variable {order : EraseOrder} {pages pageWords : Nat}

/-- Take the entry for this operation from the plan. -/
def next : Exec FaultyFlashError (FaultyFlash order pages pageWords) (Option Interruption) :=
  fun t => match t.plan with
    | [] => .ok none t
    | i :: rest => .ok i { t with plan := rest }

/-- Run an operation of the mock flash, with a power cut after `cut` bytes. -/
def onFlash {α : Type} (cut : Option Nat)
    (x : Exec MockFlashError (MockFlashBase pages 2 pageWords) α) :
    Exec FaultyFlashError (FaultyFlash order pages pageWords) α :=
  Exec.zoom (fun t => { t.flash with bytesUntilShutoff := cut })
    (fun f t => { t with flash := f.removeShutoff }) .Mock x

/-- Erase the words `w` with `start ≤ 2 * w < stop` that `words` selects, and make
them writable again. -/
def clearWords (words : Nat → Bool) (start stop : Nat) (f : MockFlashBase pages 2 pageWords) :
    MockFlashBase pages 2 pageWords :=
  { f with
    data := Vector.ofFn fun i =>
      if start ≤ i.val ∧ i.val < stop ∧ words (i.val / 2) then 0xff else f.data[i]
    writable := Vector.ofFn fun i =>
      if start ≤ 2 * i.val ∧ 2 * i.val < stop ∧ words i.val then .O else f.writable[i] }

/-- `read` of a faulty flash. -/
def read (offset : UInt32) (length : Nat) :
    Exec FaultyFlashError (FaultyFlash order pages pageWords) (List UInt8) := do
  match ← next with
  | none => onFlash none (NorFlash.read offset length)
  | some _ => Exec.fail .Interrupted

/-- `write` of a faulty flash. -/
def write (offset : UInt32) (bytes : List UInt8) :
    Exec FaultyFlashError (FaultyFlash order pages pageWords) Unit := do
  match ← next with
  | none => onFlash none (NorFlash.write offset bytes)
  | some i =>
      onFlash (some i.bytes) (NorFlash.write offset bytes)
      Exec.fail .Interrupted

/-- `erase` of a faulty flash. An interrupted erase without an order goes through
the checks of the mock flash first. -/
def erase (start stop : UInt32) :
    Exec FaultyFlashError (FaultyFlash order pages pageWords) Unit := do
  match ← next with
  | none => onFlash none (NorFlash.erase start stop)
  | some i =>
      match order with
      | .ascending =>
          onFlash (some i.bytes) (NorFlash.erase start stop)
          Exec.fail .Interrupted
      | .unordered =>
          let f := (← get).flash
          onFlash none (NorFlash.erase start stop)
          modify fun t => { t with flash := clearWords i.words start.toNat stop.toNat f }
          Exec.fail .Interrupted

instance : NorFlash (FaultyFlash order pages pageWords) FaultyFlashError where
  eraseSize := MockFlashBase.pageBytes 2 pageWords
  capacity _ := MockFlashBase.capacityBytes pages 2 pageWords
  read := read
  write := write
  erase := erase

end FaultyFlash

end EcSlimloader
