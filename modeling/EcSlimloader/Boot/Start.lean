import EcSlimloader.State.Journal

/-!
# `EcSlimloader.Boot.Start`: the boot state machine

`start` from `ec-slimloader/src/lib.rs`, generic over the board as in the source.
It never returns, so its program ends in a `Halt`: a board hands over control,
gives up, or loses power. A panic is a panic.

`B::init` creates the board. It is not a part of `start` here: `start` begins with
the board that `init` returns, and the boards below say what their `init` does.
The logging calls are left out.

The text of `start` is cut into the functions `selectState`, `determineIntent`, `intendedSlot`,
`markFailed` and `attemptBoot`, with the comments of the source as their docstrings. The state is
passed from one to the next, where the source has a mutable variable.

A board may be in any state behind a failed `check_and_boot`. The `Board` class says nothing about
it: the journal is reached through `journal` and `withJournal`, and that an attempt leaves it alone
is a hypothesis of the theorems that need it.
-/

set_option autoImplicit false

namespace EcSlimloader

/-- `BootStatePolicy`, with the defaults of the source. -/
structure BootStatePolicy where
  /-- `default_state()`. -/
  defaultState : State := State.new .Initial .S0 .S0
  /-- `is_valid_state(state)`. -/
  isValidState : State → Bool := fun _ => true

/-- Why a board did not boot an image. -/
inductive BootError where
  /-- Slot is not defined. -/
  | SlotUnknown
  /-- Image is too large to fit. -/
  | TooLarge
  /-- Image cannot possibly be this small. -/
  | TooSmall
  /-- Image did not contain the correct markers. -/
  | Markers
  /-- Image requested to be copied into a disallowed memory region. -/
  | MemoryRegion
  /-- What was copied from the storage has changed after the initial read. -/
  | ChangeAfterRead
  /-- Image failed to authenticate. -/
  | Authenticate
  /-- The underlying storage threw an error. -/
  | Io
  /-- Hashing error. -/
  | Hash
  deriving DecidableEq, Repr

/-- How a run of the bootloader ends, when it does not panic. -/
inductive Halt where
  /-- The application in a slot has been given control. -/
  | handOver (slot : Slot)
  /-- The board has given up. -/
  | abort
  /-- The power was cut. -/
  | powerLoss
  deriving DecidableEq, Repr

/-- The `Board` trait: a board with a journal, which can try to boot a slot. -/
class Board (B : Type) (T E : outParam Type) [NorFlash T E] where
  /-- `journal()`. -/
  journal : B → FlashJournal T
  /-- The board with a changed journal. -/
  withJournal : FlashJournal T → B → B
  /-- `check_and_boot(slot)`: it returns when the boot has failed. -/
  checkAndBoot : Slot → Exec Halt B BootError
  /-- `abort()`. -/
  abort : Exec Halt B Empty

/-- Intent which denotes which slot should be booted. -/
inductive BootIntent where
  | Target
  | Backup
  deriving DecidableEq, Repr

section Start

variable {B T E : Type} [NorFlash T E] [Board B T E]

/-- Run a program on the journal of the board, and look at its error. -/
def onJournal {α : Type} (x : Exec (FlashJournal.Error E) (FlashJournal T) α) :
    Exec Halt B (Except (FlashJournal.Error E) α) :=
  fun board => match x (Board.journal board) with
    | .ok a j => .ok (.ok a) (Board.withJournal j board)
    | .error (.error e) j => .ok (.error e) (Board.withJournal j board)
    | .error (.panic msg) j => .error (.panic msg) (Board.withJournal j board)

/-- `set_status`: store the state with a new status in the journal. -/
def setStatus (n : Nat) (state : State) (status : Status) : Exec Halt B State := do
  let state := state.withStatus status
  match ← onJournal (B := B) (FlashJournal.set n state) with
  | .error _ => Exec.panic "Failed to update state"
  | .ok () => pure state

/-- The state that `start` works with: the journal's one if the policy accepts it,
or else the default. -/
def selectState (policy : BootStatePolicy) : Option State → State
  | some state => if policy.isValidState state then state else policy.defaultState
  | none => policy.defaultState

/-- "Determine our intended slot to boot", with the state after the status
update. -/
def determineIntent (n : Nat) (state : State) : Exec Halt B (State × BootIntent) :=
  match state.status with
  | .Initial => do
      -- So that the application can mark the status as confirmed.
      let state ← setStatus n state .Attempting
      pure (state, .Target)
  | .Attempting => do
      -- An attempt was made, and the application did not confirm it.
      let state ← setStatus n state .Failed
      pure (state, .Backup)
  | .Failed => pure (state, .Backup)
  | .Confirmed => pure (state, .Target)

/-- "Translate the abstract intention to a concrete slot." -/
def intendedSlot (state : State) : BootIntent → Slot
  | .Target => state.target
  | .Backup => state.backup

/-- "Mark our state as failed if it was not set to be so already." -/
def markFailed (n : Nat) (state : State) : Exec Halt B State :=
  if state.status ≠ .Failed then setStatus n state .Failed else pure state

/-- The attempts of `start`: the intended slot first, then a separate backup. -/
def attemptBoot (n : Nat) (state : State) (slot : Slot) : Exec Halt B Empty := do
  let _error ← Board.checkAndBoot slot
  let state ← markFailed n state
  if slot ≠ state.backup then
    -- The status was `Initial` or `Confirmed` before, and is `Failed` now.
    let _error ← Board.checkAndBoot state.backup
    Board.abort
  else
    Board.abort

/-- `start`, behind `B::init`. -/
def start (n : Nat) (policy : BootStatePolicy) : Exec Halt B Empty := do
  let state := selectState policy (Board.journal (← get)).get
  let (state, intent) ← determineIntent n state
  attemptBoot n state (intendedSlot state intent)

end Start

end EcSlimloader
