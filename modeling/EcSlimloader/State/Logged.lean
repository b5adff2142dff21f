import EcSlimloader.State.Mock

/-!
# `EcSlimloader.State.Logged`: a storage that keeps a log of its requests

`LoggedFlash T` is the storage `T` with a log. Each request to write or to erase goes into
the log first, together with the storage as it is then. After that the storage does
what it does without the log. A request that fails is in the log too. Reads are not logged.

The journal does not see the log. It is there for statements about what the journal asks
of a storage: which words it writes to, how often it erases a page.

The log is a wrapper around the storage and not a field of the mock flash. So the storage that a
theorem is about stays the one of the source, and the same journal code runs on both.
-/

set_option autoImplicit false

namespace EcSlimloader

/-- A request that changes a storage. -/
inductive FlashOp where
  /-- `write(offset, bytes)`. -/
  | write (offset : UInt32) (bytes : List UInt8)
  /-- `erase(from, to)`. -/
  | erase (start stop : UInt32)
  deriving DecidableEq, Repr

/-- The request to a storage. -/
def FlashOp.run {T E : Type} [NorFlash T E] : FlashOp → Exec E T Unit
  | .write offset bytes => NorFlash.write offset bytes
  | .erase start stop => NorFlash.erase start stop

/-- An entry of the log: a request, and the storage before it. -/
structure Request (T : Type) where
  before : T
  op : FlashOp

/-- A storage with a log. -/
structure LoggedFlash (T : Type) where
  flash : T
  log : List (Request T)

namespace LoggedFlash

variable {T E : Type} [NorFlash T E]

/-- The requests of the log, in order. -/
def ops (t : LoggedFlash T) : List FlashOp := t.log.map Request.op

/-- Run a program on the storage. -/
def onFlash {α : Type} (x : Exec E T α) : Exec E (LoggedFlash T) α :=
  Exec.zoom flash (fun f t => { t with flash := f }) id x

/-- Log a request, then make it. -/
def request (op : FlashOp) : Exec E (LoggedFlash T) Unit := do
  modify fun t => { t with log := t.log ++ [{ before := t.flash, op }] }
  onFlash op.run

instance : NorFlash (LoggedFlash T) E where
  eraseSize := NorFlash.eraseSize T
  capacity t := NorFlash.capacity t.flash
  read offset length := onFlash (NorFlash.read offset length)
  write offset bytes := request (.write offset bytes)
  erase start stop := request (.erase start stop)

/-- A request to a logged storage is logged and made. -/
theorem run_eq (op : FlashOp) :
    (op.run : Exec E (LoggedFlash T) Unit) = request op := by
  cases op with
  | write offset bytes => rfl
  | erase start stop => rfl

/-- The run of a request. The log grows by one entry, also when the request fails. -/
theorem request_run (op : FlashOp) (t : LoggedFlash T) :
    (request op : Exec E (LoggedFlash T) Unit) t = match (op.run : Exec E T Unit) t.flash with
      | .ok _ f => .ok () { flash := f, log := t.log ++ [{ before := t.flash, op }] }
      | .error e f => .error e { flash := f, log := t.log ++ [{ before := t.flash, op }] } := by
  have hrun : (request op : Exec E (LoggedFlash T) Unit) t
      = onFlash op.run { t with log := t.log ++ [{ before := t.flash, op }] } := rfl
  rw [hrun]
  cases hop : (op.run : Exec E T Unit) t.flash with
  | ok u f => exact Exec.zoom_ok hop
  | error e f =>
      have herror : onFlash op.run { t with log := t.log ++ [{ before := t.flash, op }] }
          = .error (e.map id) { flash := f, log := t.log ++ [{ before := t.flash, op }] } :=
        Exec.zoom_error hop
      rw [herror, Fault.map_id]

end LoggedFlash

end EcSlimloader
