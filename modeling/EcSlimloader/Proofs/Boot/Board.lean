import EcSlimloader.Imxrt.Boot
import EcSlimloader.Lib.Sim
import EcSlimloader.Proofs.Boot.Update
import EcSlimloader.Proofs.Boot.Wear
import EcSlimloader.Proofs.Imxrt.Placement

/-!
# `EcSlimloader.Proofs.Boot.Board`: what holds on the bench holds on every board

The properties of `start` are proved on the bench board, which answers each slot with a verdict.
A `LawfulBoard` is a board whose attempts leave the journal alone and end in one of the ways
that a board has. `start_simulated` says that a run of `start` on such a board is a run on the
bench, with the verdicts that `benchVerdict` reads off the run: the journals are the same, and
the same slot gets control. A panic inside `check_and_boot` shows up as a power cut on the
bench.

The i.MX RT is lawful, whatever its slots, its memory and its chip do, so
`imxrt_powerCycles_simulated` carries every result about sequences of power cycles to it.

`start_simulated` is assembled in the order of the source: one lemma for a status update, one for
the first update, one for each attempt. In each of them the run of the board and the run of the
bench are compared: `Alike` says that the two have the same journal, and `SameEnd` that they end
alike. That the i.MX RT is lawful needs one frame lemma for each part of `check_and_boot`, because
the journal is on the same board as the memory that an attempt writes to.

A power cycle of the board becomes one of the bench by `PowerUp.toCycle`, which reads the verdicts
off the run. So what is known of the bench is used as it is, and nothing about records and updates
is proved a second time.
-/

set_option autoImplicit false

namespace EcSlimloader

open FlashJournal

/-- How an attempt at a slot can end a run: the slot gets control, the power is cut, or the
attempt panics. -/
def EndsAttempt (slot : Slot) (halt : Fault Halt) : Prop :=
  halt = .error (.handOver slot) ∨ halt = .error .powerLoss ∨ ∃ msg, halt = .panic msg

/-- A board whose attempts leave the journal alone. -/
class LawfulBoard (B : Type) {T E : outParam Type} [NorFlash T E] [Board B T E] : Prop where
  journal_withJournal : ∀ (j : FlashJournal T) (board : B),
    Board.journal (Board.withJournal j board) = j
  checkAndBoot_ok : ∀ (slot : Slot) (board board' : B) (e : BootError),
    Board.checkAndBoot slot board = .ok e board' → Board.journal board' = Board.journal board
  checkAndBoot_error : ∀ (slot : Slot) (board board' : B) (halt : Fault Halt),
    Board.checkAndBoot slot board = .error halt board' →
      Board.journal board' = Board.journal board ∧ EndsAttempt slot halt
  abort_run : ∀ board : B, ∃ board', Board.abort board = .error (.error .abort) board' ∧
    Board.journal board' = Board.journal board

/-- The verdict that the end of an attempt stands for. -/
def attemptVerdict {B : Type} : EStateM.Result (Fault Halt) B BootError → Verdict
  | .ok e _ => .reject e
  | .error (.error (.handOver _)) _ => .accept
  | .error _ _ => .cut

/-- The two ends of a run and its bench: they are the same, but for a panic inside an attempt. -/
def SameEnd (halt benchHalt : Fault Halt) : Prop :=
  halt = benchHalt ∨ (∃ msg, halt = .panic msg) ∧ benchHalt = .error .powerLoss

section Simulation

variable {B T E : Type} [NorFlash T E] [Board B T E] {n : Nat}

/-- A board and a bench with the same journal. -/
def Alike (verdict : Slot → Verdict) (board : B) (bench : BenchBoard T) : Prop :=
  Board.journal board = bench.journal ∧ bench.verdict = verdict

/-- The run of `setStatus` on any board. -/
theorem setStatus_run_board (state : State) (status : Status) (board : B) :
    setStatus n state status board
      = match set n (state.withStatus status) (Board.journal board) with
        | .ok _ j => .ok (state.withStatus status) (Board.withJournal j board)
        | .error (.error _) j =>
            .error (.panic "Failed to update state") (Board.withJournal j board)
        | .error (.panic msg) j => .error (.panic msg) (Board.withJournal j board) := by
  unfold setStatus
  -- `onJournal` hands an error back as a value, and `setStatus` makes a panic of it. A panic of
  -- the journal stays the panic that it is.
  cases hset : set n (state.withStatus status) (Board.journal board) with
  | ok u j =>
      have hrun : (onJournal (set n (state.withStatus status)) : Exec Halt B _) board
          = .ok (.ok u) (Board.withJournal j board) := by
        rw [onJournal, hset]
      rw [Exec.bind_ok hrun]
      rfl
  | error e j =>
      cases e with
      | error e =>
          have hrun : (onJournal (set n (state.withStatus status)) : Exec Halt B _) board
              = .ok (.error e) (Board.withJournal j board) := by
            rw [onJournal, hset]
          rw [Exec.bind_ok hrun]
          rfl
      | panic msg =>
          have hrun : (onJournal (set n (state.withStatus status)) : Exec Halt B _) board
              = .error (.panic msg) (Board.withJournal j board) := by
            rw [onJournal, hset]
          rw [Exec.bind_error hrun]

/-- The run of `start`, with its first two steps in view. -/
theorem start_run (policy : BootStatePolicy) (board : B) :
    (start n policy : Exec Halt B Empty) board
      = (determineIntent n (selectState policy (Board.journal board).get) >>= fun r =>
          attemptBoot n r.1 (intendedSlot r.1 r.2) : Exec Halt B Empty) board := rfl

variable [LawfulBoard B] {verdict : Slot → Verdict}

/-- A status update does the same on both. -/
theorem setStatus_sim (state : State) (status : Status) :
    Sim (Alike verdict) (setStatus n state status : Exec Halt B State)
      (setStatus n state status : Exec Halt (BenchBoard T) State)
      (fun s board s' bench => s = s' ∧ Alike verdict board bench)
      (fun halt board benchHalt bench => Alike verdict board bench ∧ SameEnd halt benchHalt) := by
  rintro board bench ⟨hj, hv⟩
  rw [setStatus_run_board, setStatus_run, hj]
  -- Both sides make the same update of the same journal.
  have halike : ∀ j, Alike verdict (Board.withJournal j board) { bench with journal := j } :=
    fun j => ⟨LawfulBoard.journal_withJournal j board, hv⟩
  cases hset : set n (state.withStatus status) bench.journal with
  | ok u j => exact ⟨rfl, halike j⟩
  | error e j =>
      cases e with
      | error e => exact ⟨halike j, .inl rfl⟩
      | panic msg => exact ⟨halike j, .inl rfl⟩

/-- "Determine our intended slot to boot", on both. -/
theorem determineIntent_sim (state : State) :
    Sim (Alike verdict) (determineIntent n state : Exec Halt B (State × BootIntent))
      (determineIntent n state : Exec Halt (BenchBoard T) (State × BootIntent))
      (fun r board r' bench => r = r' ∧ Alike verdict board bench)
      (fun halt board benchHalt bench => Alike verdict board bench ∧ SameEnd halt benchHalt) := by
  -- A status that is stored first.
  have hstore : ∀ (status : Status) (intent : BootIntent),
      Sim (Alike verdict)
        (do
          let state ← setStatus n state status
          pure (state, intent) : Exec Halt B (State × BootIntent))
        (do
          let state ← setStatus n state status
          pure (state, intent) : Exec Halt (BenchBoard T) (State × BootIntent))
        (fun r board r' bench => r = r' ∧ Alike verdict board bench)
        (fun halt board benchHalt bench =>
          Alike verdict board bench ∧ SameEnd halt benchHalt) := by
    intro status intent
    refine Sim.bind (setStatus_sim state status) fun s s' => ?_
    exact Sim.pure _ _ fun board bench h => ⟨by rw [h.1], h.2⟩
  unfold determineIntent
  cases state.status with
  | Initial => exact hstore .Attempting .Target
  | Attempting => exact hstore .Failed .Backup
  | Failed => exact Sim.pure _ _ fun board bench h => ⟨rfl, h⟩
  | Confirmed => exact Sim.pure _ _ fun board bench h => ⟨rfl, h⟩

/-- "Mark our state as failed", on both. -/
theorem markFailed_sim (state : State) :
    Sim (Alike verdict) (markFailed n state : Exec Halt B State)
      (markFailed n state : Exec Halt (BenchBoard T) State)
      (fun s board s' bench => s = s' ∧ Alike verdict board bench)
      (fun halt board benchHalt bench => Alike verdict board bench ∧ SameEnd halt benchHalt) := by
  unfold markFailed
  split
  · exact setStatus_sim state .Failed
  · exact Sim.pure _ _ fun board bench h => ⟨rfl, h⟩

/-- An attempt from a board for which the bench has the right verdict. -/
theorem checkAndBoot_sim (slot : Slot) (board : B)
    (hv : verdict slot = attemptVerdict (Board.checkAndBoot slot board)) :
    Sim (fun b bench => b = board ∧ Alike verdict b bench)
      (Board.checkAndBoot slot : Exec Halt B BootError)
      (Board.checkAndBoot slot : Exec Halt (BenchBoard T) BootError)
      (fun e b' e' bench => e = e' ∧ Board.checkAndBoot slot board = .ok e b' ∧
        Alike verdict b' bench)
      (fun halt b benchHalt bench => Alike verdict b bench ∧ SameEnd halt benchHalt) := by
  rintro b bench ⟨hb, hj, hbench⟩
  subst hb
  rw [checkAndBoot_run slot bench, hbench, hv]
  cases hrun : (Board.checkAndBoot slot : Exec Halt B BootError) b with
  | ok e b' =>
      -- A slot that was rejected: the board is lawful, so the journal is as before.
      have hjournal := LawfulBoard.checkAndBoot_ok slot b b' e hrun
      exact ⟨rfl, rfl, hjournal.trans hj, rfl⟩
  | error halt b' =>
      obtain ⟨hjournal, hends⟩ := LawfulBoard.checkAndBoot_error slot b b' halt hrun
      rcases hends with rfl | rfl | ⟨msg, rfl⟩
      · exact ⟨⟨hjournal.trans hj, rfl⟩, .inl rfl⟩
      · exact ⟨⟨hjournal.trans hj, rfl⟩, .inl rfl⟩
      · -- The bench has no panic here. It shows a power cut instead.
        exact ⟨⟨hjournal.trans hj, rfl⟩, .inr ⟨⟨msg, rfl⟩, rfl⟩⟩

/-- The verdict on the slot that is tried second, if it comes to that. -/
def backupVerdict (n : Nat) (state : State) (first : EStateM.Result (Fault Halt) B BootError) :
    Verdict :=
  match first with
  | .ok _ board =>
      match (markFailed n state : Exec Halt B State) board with
      | .ok state' board' => attemptVerdict (Board.checkAndBoot state'.backup board')
      | .error _ _ => .cut
  | .error _ _ => .cut

/-- The verdicts that a run of `start` on a board comes down to. No slot is tried twice, so
there is one for each. -/
def benchVerdict (n : Nat) (policy : BootStatePolicy) (board : B) (slot : Slot) : Verdict :=
  match (determineIntent n (selectState policy (Board.journal board).get) :
      Exec Halt B (State × BootIntent)) board with
  | .ok (state, intent) board' =>
      let first := Board.checkAndBoot (intendedSlot state intent) board'
      if slot = intendedSlot state intent then attemptVerdict first
      else backupVerdict n state first
  | .error _ _ => .cut

/-- The attempts of `start`, from a board for which the bench has the right verdicts. -/
theorem attemptBoot_sim (state : State) (slot : Slot) (board : B)
    (hv : verdict slot = attemptVerdict (Board.checkAndBoot slot board))
    (hbackup : ∀ s, s ≠ slot →
      verdict s = backupVerdict n state (Board.checkAndBoot slot board)) :
    Sim (fun b bench => b = board ∧ Alike verdict b bench)
      (attemptBoot n state slot : Exec Halt B Empty)
      (attemptBoot n state slot : Exec Halt (BenchBoard T) Empty)
      (fun _ _ _ _ => False)
      (fun halt b benchHalt bench => Alike verdict b bench ∧ SameEnd halt benchHalt) := by
  have habort : Sim (Alike verdict) (Board.abort : Exec Halt B Empty)
      (Board.abort : Exec Halt (BenchBoard T) Empty) (fun _ _ _ _ => False)
      (fun halt b benchHalt bench => Alike verdict b bench ∧ SameEnd halt benchHalt) := by
    rintro b bench ⟨hj, hv⟩
    obtain ⟨b', hrun, hj'⟩ := LawfulBoard.abort_run (B := B) b
    rw [hrun]
    exact ⟨⟨hj'.trans hj, hv⟩, .inl rfl⟩
  unfold attemptBoot
  refine Sim.bind (checkAndBoot_sim slot board hv) fun e e' => ?_
  -- The board behind the first attempt is fixed, and so is the one behind `markFailed`.
  rintro b₁ bench₁ ⟨rfl, hfirst, halike₁⟩
  rcases (markFailed_sim (n := n) state).cases halike₁ with
    ⟨state', b₂, state'', bench₂, hmark, hmark', rfl, halike₂⟩ |
    ⟨halt, b₂, benchHalt, bench₂, hmark, hmark', hend⟩
  · rw [Exec.bind_ok hmark, Exec.bind_ok hmark']
    by_cases hslot : slot ≠ state'.backup
    · rw [if_pos hslot, if_pos hslot]
      have hv' : verdict state'.backup
          = attemptVerdict (Board.checkAndBoot state'.backup b₂) := by
        rw [hbackup _ (Ne.symm hslot), hfirst]
        simp only [backupVerdict, hmark]
      refine Sim.bind ((checkAndBoot_sim state'.backup b₂ hv').conseq (fun _ _ h => h)
        (fun _ _ _ _ h => h.2.2) fun _ _ _ _ h => h) (fun _ _ => habort) b₂ bench₂
        ⟨rfl, halike₂⟩
    · rw [if_neg hslot, if_neg hslot]
      exact habort b₂ bench₂ halike₂
  · rw [Exec.bind_error hmark, Exec.bind_error hmark']
    exact hend

/-- A run of `start` on a lawful board is a run on the bench. -/
theorem start_simulated (policy : BootStatePolicy) (board : B) :
    ∃ halt board' benchHalt bench',
      (start n policy : Exec Halt B Empty) board = .error halt board' ∧
      (start n policy : Exec Halt (BenchBoard T) Empty)
          { journal := Board.journal board, verdict := benchVerdict n policy board, tried := [] }
        = .error benchHalt bench' ∧
      Board.journal board' = bench'.journal ∧ SameEnd halt benchHalt := by
  have halike : Alike (benchVerdict n policy board) board
      { journal := Board.journal board, verdict := benchVerdict n policy board, tried := [] } :=
    ⟨rfl, rfl⟩
  rw [start_run, start_run]
  show ∃ halt board' benchHalt bench', _ ∧ (determineIntent n
      (selectState policy (Board.journal board).get) >>= fun r =>
        attemptBoot n r.1 (intendedSlot r.1 r.2) : Exec Halt (BenchBoard T) Empty) _ = _ ∧ _
  -- Up to the first attempt, the two boards run the same code on the same journal.
  rcases (determineIntent_sim (n := n) (selectState policy (Board.journal board).get)).cases
      halike with ⟨r, b₁, r', bench₁, hrun, hrun', rfl, halike₁⟩ |
    ⟨halt, b₁, benchHalt, bench₁, hrun, hrun', halike₁, hend⟩
  · rw [Exec.bind_ok hrun, Exec.bind_ok hrun']
    -- The verdicts are read off the attempts of the other board. The intended slot has the verdict
    -- of the first attempt, and every other slot that of the second one, which is made for the
    -- backup only.
    have hverdict : ∀ s, benchVerdict n policy board s
        = if s = intendedSlot r.1 r.2 then
            attemptVerdict (Board.checkAndBoot (intendedSlot r.1 r.2) b₁)
          else backupVerdict n r.1 (Board.checkAndBoot (intendedSlot r.1 r.2) b₁) := by
      intro s
      unfold benchVerdict
      rw [hrun]
    have hintended : benchVerdict n policy board (intendedSlot r.1 r.2)
        = attemptVerdict (Board.checkAndBoot (intendedSlot r.1 r.2) b₁) := by
      rw [hverdict, if_pos rfl]
    have hother : ∀ s, s ≠ intendedSlot r.1 r.2 → benchVerdict n policy board s
        = backupVerdict n r.1 (Board.checkAndBoot (intendedSlot r.1 r.2) b₁) := by
      intro s hs
      rw [hverdict, if_neg hs]
    have hsim := attemptBoot_sim (n := n) r.1 (intendedSlot r.1 r.2) b₁ hintended hother
    rcases hsim.cases ⟨rfl, halike₁⟩ with ⟨never, -⟩ |
      ⟨halt, b', benchHalt, bench', hattempt, hattempt', halike', hend⟩
    · exact never.elim
    · exact ⟨halt, b', benchHalt, bench', hattempt, hattempt', halike'.1, hend⟩
  · rw [Exec.bind_error hrun, Exec.bind_error hrun']
    exact ⟨halt, b₁, benchHalt, bench₁, rfl, rfl, halike₁.1, hend⟩

end Simulation

/-! ### The i.MX RT

An attempt goes through `load_image`, the checks of the header and `check_image`. The frame lemmas
follow these calls from the inside out: each of them leaves the journal of the board as it was, and
says how the part can end. -/

namespace Imxrt

variable {T E H : Type} [NorFlash T E]

/-- The journal is `j`. -/
def HasJournal (j : FlashJournal T) (board : Imxrt T H) : Prop := board.journal = j

section Frame

variable {ε : Type} (j : FlashJournal T)

/-- A read of a slot leaves the journal alone. -/
theorem readSlot_frame (slotPartition : SlotPartition) (len : Nat) :
    Triple (HasJournal j) (readSlot slotPartition len : Exec ε (Imxrt T H) ReadAnswer)
      (fun _ => HasJournal j) (fun _ => HasJournal j) :=
  fun _ h => h

/-- Writing the RAM does not touch the journal. -/
theorem writeRam_frame (target count : Nat) (bytes : Nat → UInt8) :
    Triple (HasJournal j) (writeRam target count bytes : Exec ε (Imxrt T H) Unit)
      (fun _ => HasJournal j) (fun _ => HasJournal j) :=
  fun _ h => h

/-- A failure without an effect. -/
theorem fail_frame {α : Type} (e : ε) :
    Triple (HasJournal j) (Exec.fail e : Exec ε (Imxrt T H) α)
      (fun _ => HasJournal j) (fun _ => HasJournal j) :=
  fun _ h => h

/-- Neither does reading the vector table of a slot. -/
theorem readIvt_frame (slotPartition : SlotPartition) :
    Triple (HasJournal j) (readIvt slotPartition : Exec BootError (Imxrt T H) Ivt)
      (fun _ => HasJournal j) (fun _ => HasJournal j) := by
  refine Triple.bind (readSlot_frame j slotPartition Ivt.readSize) fun answer => ?_
  cases answer with
  | done bytes => exact Triple.pure _ fun _ h => h
  | failed count bytes => exact fail_frame j _

/-- Neither does copying the image, which reads the slot and writes the RAM. -/
theorem copyImage_frame (slotPartition : SlotPartition) (ivt : Ivt) :
    Triple (HasJournal j) (copyImage slotPartition ivt : Exec BootError (Imxrt T H) Unit)
      (fun _ => HasJournal j) (fun _ => HasJournal j) := by
  refine Triple.bind (readSlot_frame j slotPartition _) fun answer => ?_
  cases answer with
  | done bytes => exact writeRam_frame j _ _ _
  | failed count bytes => exact Triple.bind (writeRam_frame j _ _ _) fun _ => fail_frame j _

/-- Loading an image does not touch the journal, whether it returns, fails or panics. -/
theorem loadImage_frame (slotPartition : SlotPartition) :
    Triple (HasJournal j) (loadImage slotPartition : Exec BootError (Imxrt T H) Ivt)
      (fun _ => HasJournal j) (fun _ => HasJournal j) := by
  intro board hj
  unfold loadImage
  rw [Exec.get_bind]
  simp only
  -- The steps of `loadImage` one after the other. Only the two reads touch the board at all.
  by_cases hsize : slotPartition.capacity ≥ board.config.slotSizeRange.stop
  · rw [if_pos hsize]
    exact hj
  · rw [if_neg hsize]
    refine Triple.bind (readIvt_frame j slotPartition) (fun ivt => ?_) board hj
    refine Triple.bind (R := fun _ => HasJournal j) ?_ fun _ => ?_
    · cases checkHeader board.config slotPartition.capacity ivt with
      | ok u => exact fun _ h => h
      | error e => exact fun _ h => h
    · refine Triple.bind (copyImage_frame j slotPartition ivt) fun _ => ?_
      intro board' hj'
      rw [Exec.get_bind]
      cases Ivt.readFromSlice (ramSlice board'.ram ivt.targetPtr.toNat ivt.imageLen.toNat) with
      | error e => exact hj'
      | ok ramIvt =>
          simp only
          by_cases hivt : ivt ≠ ramIvt
          · rw [if_pos hivt]
            exact hj'
          · rw [if_neg hivt]
            exact hj'

/-- `check_image` works on the chip. -/
theorem runCheckImage_frame (ramIvt : Ivt) :
    Triple (HasJournal j) (runCheckImage ramIvt : Exec BootError (Imxrt T H) Unit)
      (fun _ => HasJournal j) (fun _ => HasJournal j) := by
  intro board hj
  unfold runCheckImage
  rw [Exec.get_bind, Exec.zoom]
  cases board.checkImage ramIvt (ramSlice board.ram ramIvt.targetPtr.toNat
      ramIvt.imageLen.toNat) board.hw with
  | ok a hw => exact hj
  | error e hw => exact hj

/-- A program with another error type has the same effect. -/
theorem mapError_frame {ε' α : Type} {f : ε → ε'} {x : Exec ε (Imxrt T H) α}
    (h : Triple (HasJournal j) x (fun _ => HasJournal j) (fun _ => HasJournal j)) :
    Triple (HasJournal j) (Exec.mapError f x) (fun _ => HasJournal j) (fun _ => HasJournal j) := by
  intro board hj
  cases hrun : x board with
  | ok a board' =>
      rw [Exec.mapError_ok hrun]
      exact h.of_ok hj hrun
  | error e board' =>
      rw [Exec.mapError_error hrun]
      exact h.of_error hj hrun

/-- A whole `check_and_boot` does not touch the journal. It ends in an `Exit`, so what counts is
the second condition: the journal is still there when the image has control, too. -/
theorem checkAndBoot_frame (slot : Slot) :
    Triple (HasJournal j) (checkAndBoot slot : Exec Exit (Imxrt T H) Empty)
      (fun _ => HasJournal j) (fun _ => HasJournal j) := by
  intro board hj
  unfold checkAndBoot
  rw [Exec.get_bind]
  cases board.slots[slot.toU8.toNat]? with
  | none => exact hj
  | some slotPartition =>
      refine Triple.bind (mapError_frame j (loadImage_frame j slotPartition)) (fun ramIvt => ?_)
        board hj
      exact Triple.bind (mapError_frame j (runCheckImage_frame j ramIvt)) fun _ => fail_frame j _

end Frame

/-- The ends of an attempt on this board. -/
theorem attempt_cases (slot : Slot) (board : Imxrt T H) :
    ∃ board', board'.journal = board.journal ∧
      ((∃ e, Board.checkAndBoot slot board = .ok e board') ∨
        Board.checkAndBoot slot board = .error (.error (.handOver slot)) board' ∨
        ∃ msg, Board.checkAndBoot slot board = .error (.panic msg) board') := by
  have hframe := checkAndBoot_frame board.journal slot board rfl
  cases h : checkAndBoot slot board with
  | ok never _ => exact never.elim
  | error fault board' =>
      rw [h] at hframe
      refine ⟨board', hframe, ?_⟩
      cases fault with
      | panic msg => exact .inr (.inr ⟨msg, by simp only [Board.checkAndBoot, h]⟩)
      | error exit =>
          -- An error of the board becomes the result of the attempt, a jump ends the run.
          cases exit with
          | bootError e => exact .inl ⟨e, by simp only [Board.checkAndBoot, h]⟩
          | bootApplication p => exact .inr (.inl (by simp only [Board.checkAndBoot, h]))

/-- The board of the i.MX RT is lawful. -/
instance : LawfulBoard (Imxrt T H) where
  journal_withJournal _ _ := rfl
  checkAndBoot_ok slot board board' e hrun := by
    obtain ⟨b, hj, ⟨e', h⟩ | h | ⟨msg, h⟩⟩ := attempt_cases slot board
    · rw [hrun] at h
      cases h
      exact hj
    · rw [hrun] at h
      cases h
    · rw [hrun] at h
      cases h
  checkAndBoot_error slot board board' halt hrun := by
    obtain ⟨b, hj, ⟨e', h⟩ | h | ⟨msg, h⟩⟩ := attempt_cases slot board
    · rw [hrun] at h
      cases h
    · rw [hrun] at h
      cases h
      exact ⟨hj, .inl rfl⟩
    · rw [hrun] at h
      cases h
      exact ⟨hj, .inr (.inr ⟨msg, rfl⟩)⟩
  abort_run board := ⟨board, rfl, rfl⟩

/-- The verdicts that a boot of this board comes down to. -/
def verdictOn (n : Nat) (policy : BootStatePolicy) (hardware : Hardware H) (flash : T) :
    Slot → Verdict :=
  match (FlashJournal.new n : Exec (FlashJournal.Error E) T (FlashJournal T)) flash with
  | .ok journal _ => benchVerdict n policy (ofHardware hardware journal)
  | .error _ _ => fun _ => .cut

/-- A boot of this board is a boot of the bench. -/
theorem boot_simulated (n : Nat) (policy : BootStatePolicy) (hardware : Hardware H) (flash : T) :
    (boot n policy hardware flash).2
        = (EcSlimloader.boot n policy (verdictOn n policy hardware flash) flash).flash ∧
      SameEnd (boot n policy hardware flash).1
        (EcSlimloader.boot n policy (verdictOn n policy hardware flash) flash).halt := by
  unfold boot EcSlimloader.boot verdictOn
  -- A journal that cannot be opened ends both runs in the same way.
  cases (FlashJournal.new n : Exec (FlashJournal.Error E) T (FlashJournal T)) flash with
  | error e t =>
      cases e with
      | error e => exact ⟨rfl, .inl rfl⟩
      | panic msg => exact ⟨rfl, .inl rfl⟩
  | ok journal t =>
      obtain ⟨halt, board', benchHalt, bench', hrun, hrun', hj, hend⟩ :=
        start_simulated (n := n) policy (ofHardware hardware journal)
      have hrun'' : (start n policy : Exec Halt (BenchBoard T) Empty)
          { journal, verdict := benchVerdict n policy (ofHardware hardware journal), tried := [] }
          = .error benchHalt bench' := hrun'
      simp only [hrun, hrun'']
      exact ⟨congrArg FlashJournal.inner hj, hend⟩

/-! ### Power cycles

The verdicts of a cycle are read off its run: the verdict of a slot is what its attempt comes to, if
the run makes one. A slot that is not tried may have any verdict. -/

variable (arm : Option Nat → T → T) (n m : Nat) (policy : BootStatePolicy)

/-- The cycle of the bench that a power cycle of this board comes down to. -/
def PowerUp.toCycle (cycle : PowerUp H) (flash : T) : Cycle where
  bootCut := cycle.bootCut
  verdict := verdictOn n policy cycle.hardware (arm cycle.bootCut flash)
  presses := cycle.presses
  appCut := cycle.appCut

/-- The cycles of the bench that a run of this board comes down to. -/
def benchCycles : List (PowerUp H) → T → List Cycle
  | [], _ => []
  | cycle :: cycles, flash =>
      cycle.toCycle arm n policy flash
        :: benchCycles cycles (powerCycle arm n m policy cycle flash).flash

end Imxrt

/-- Two cycles with the same effect and, but for a panic inside an attempt, the same end. -/
structure SameCycle {T : Type} (r r' : CycleResult T) : Prop where
  halt : SameEnd r.halt r'.halt
  loaded : r.loaded = r'.loaded
  panicked : r.panicked = r'.panicked
  presses : r.presses = r'.presses
  flash : r.flash = r'.flash

section Cycles

variable {T E H : Type} [NorFlash T E]

/-- A hand-over is seen on both. -/
theorem SameEnd.handOver_iff {halt benchHalt : Fault Halt} (h : SameEnd halt benchHalt)
    (slot : Slot) : halt = .error (.handOver slot) ↔ benchHalt = .error (.handOver slot) := by
  rcases h with rfl | ⟨⟨msg, rfl⟩, rfl⟩
  · exact Iff.rfl
  · exact ⟨fun h => (by cases h), fun h => (by cases h)⟩

/-- The application does not see how the bootloader has ended otherwise. -/
theorem finishCycle_sameCycle (arm : Option Nat → T → T) (m presses : Nat) (appCut : Option Nat)
    {halt benchHalt : Fault Halt} (h : SameEnd halt benchHalt) (flash : T) :
    SameCycle (finishCycle arm m presses appCut halt flash)
      (finishCycle arm m presses appCut benchHalt flash) := by
  rcases h with rfl | ⟨⟨msg, rfl⟩, rfl⟩
  · exact ⟨.inl rfl, rfl, rfl, rfl, rfl⟩
  · exact ⟨.inr ⟨⟨msg, rfl⟩, rfl⟩, rfl, rfl, rfl, rfl⟩

/-- A power cycle of the i.MX RT is a power cycle of the bench. -/
theorem Imxrt.powerCycle_simulated (arm : Option Nat → T → T) (n m : Nat)
    (policy : BootStatePolicy) (cycle : PowerUp H) (flash : T) :
    SameCycle (Imxrt.powerCycle arm n m policy cycle flash)
      (EcSlimloader.powerCycle arm n m policy (cycle.toCycle arm n policy flash) flash) := by
  obtain ⟨hflash, hend⟩ := boot_simulated n policy cycle.hardware (arm cycle.bootCut flash)
  unfold Imxrt.powerCycle EcSlimloader.powerCycle
  simp only [hflash]
  exact finishCycle_sameCycle arm m cycle.presses cycle.appCut hend _

/-- Power cycles of the i.MX RT, on any storage, with any slots, memories and chips that may
differ from cycle to cycle: they are power cycles of the bench, with the same effect on the
storage and the same slots getting control. -/
theorem imxrt_powerCycles_simulated (arm : Option Nat → T → T) (n m : Nat)
    (policy : BootStatePolicy) (cycles : List (Imxrt.PowerUp H)) (flash : T) :
    List.Forall₂ SameCycle (Imxrt.powerCycles arm n m policy cycles flash)
      (powerCycles arm n m policy (Imxrt.benchCycles arm n m policy cycles flash) flash) := by
  induction cycles generalizing flash with
  | nil => exact .nil
  | cons cycle cycles ih =>
      have hcycle := Imxrt.powerCycle_simulated arm n m policy cycle flash
      refine .cons hcycle ?_
      -- The next cycle starts on the same flash.
      rw [← hcycle.flash]
      exact ih _

end Cycles

/-! ### The update protocol on the i.MX RT

The results of `EcSlimloader.Proofs.Boot.Update`, read along the simulation. Each of them is
followed by a history of a concrete device. -/

section Protocol

variable {pages pageWords : Nat} [Geometry pages pageWords] {n m : Nat} {H : Type}

/-- The abstract power cycle does not see the difference. -/
theorem PowerCycle.of_same {record : Option State}
    {r r' : CycleResult (MockFlashBase pages 2 pageWords)} (hsame : SameCycle r r')
    (h : PowerCycle record r'.halt r'.loaded r'.presses (persisted pages pageWords r'.flash)) :
    PowerCycle record r.halt r.loaded r.presses (persisted pages pageWords r.flash) := by
  obtain ⟨hhalt, hloaded, -, hpresses, hflash⟩ := hsame
  rw [hloaded, hpresses, hflash]
  rcases hhalt with hhalt | ⟨⟨msg, hhalt⟩, hcut⟩
  · rw [hhalt]
    exact h
  · -- A panic is as dark as a power cut.
    rw [hcut] at h
    rw [hhalt]
    generalize r'.loaded = loaded at h ⊢
    generalize r'.presses = presses at h ⊢
    cases h with
    | dark _ _ _ hmoves => exact .dark _ _ (fun s hs => by cases hs) hmoves

/-- A power cycle of the i.MX RT refines the abstract one. -/
theorem Imxrt.powerCycle_spec (hn : BlockSize n) (hm : BlockSize m) (cycle : PowerUp H)
    (flash : MockFlashBase pages 2 pageWords) :
    PowerCycle (persisted pages pageWords flash)
      (Imxrt.powerCycle MockFlashBase.withCut n m {} cycle flash).halt
      (Imxrt.powerCycle MockFlashBase.withCut n m {} cycle flash).loaded
      (Imxrt.powerCycle MockFlashBase.withCut n m {} cycle flash).presses
      (persisted pages pageWords
        (Imxrt.powerCycle MockFlashBase.withCut n m {} cycle flash).flash) :=
  .of_same (Imxrt.powerCycle_simulated MockFlashBase.withCut n m {} cycle flash)
    (EcSlimloader.powerCycle_spec hn hm _ flash)

/-- Power cycles of the i.MX RT refine abstract ones. -/
theorem Imxrt.powerCycles_run (hn : BlockSize n) (hm : BlockSize m) (cycles : List (PowerUp H))
    (flash : MockFlashBase pages 2 pageWords) :
    CycleRun flash (Imxrt.powerCycles MockFlashBase.withCut n m {} cycles flash) := by
  induction cycles generalizing flash with
  | nil => exact .nil flash
  | cons cycle cycles ih => exact .cons flash _ _ (Imxrt.powerCycle_spec hn hm cycle flash) (ih _)

end Protocol

/-- The update protocol on the i.MX RT: power cycles with any content of the journal, any slots,
memories and chips, any numbers of presses and any power cuts. Each of them is a `PowerCycle` of
the records before and after it. So the bootloader never confirms an image by itself, and never
asks for an attempt. -/
theorem imxrt_powerCycles_protocol {pages pageWords : Nat} [Geometry pages pageWords] {n m : Nat}
    {H : Type} (hn : BlockSize n) (hm : BlockSize m) (cycles : List (Imxrt.PowerUp H))
    (flash : MockFlashBase pages 2 pageWords) :
    FollowsProtocol flash
      (Imxrt.powerCycles MockFlashBase.withCut n m {} cycles flash) :=
  (Imxrt.powerCycles_run hn hm cycles flash).followsProtocol

/-- The example board with two images, without authentication. -/
def exampleHardware (image₀ image₁ : List UInt8) : Imxrt.Hardware Unit where
  slots := [Imxrt.sampleSlot image₀, Imxrt.sampleSlot image₁]
  config := exampleConfig
  checkImage := checkImageNonSecure
  hw := ()
  ram _ := 0

/-- A power cycle without a cut, with the same image in both slots. -/
def plainPowerUp (presses : Nat) : Imxrt.PowerUp Unit where
  bootCut := none
  hardware := exampleHardware (Imxrt.placedImage 0x10020000) (Imxrt.placedImage 0x10020000)
  presses
  appCut := none

/-- A power cycle in which the image of the second slot has the wrong type. -/
def rejectingPowerUp : Imxrt.PowerUp Unit :=
  { plainPowerUp 0 with
    hardware := exampleHardware (Imxrt.placedImage 0x10020000)
      (ivtBytes { imageLen := 64, imageType := 0, headerOffset := 0, targetPtr := 0x10020000 }) }

/-- A cut inside the first status update, and then a cut inside the confirmation. -/
theorem imxrt_powerCycles_protocol_cut :
    FollowsProtocol (.new none : MockFlashBase 2 2 2)
      (Imxrt.powerCycles MockFlashBase.withCut 4 2 {}
        [{ plainPowerUp 0 with bootCut := some 1 }, { plainPowerUp 1 with appCut := some 1 }]
        (.new none)) :=
  imxrt_powerCycles_protocol ⟨by decide, by decide⟩ ⟨by decide, by decide⟩ _ _

/-- On the i.MX RT, from an empty journal on: the bootloader falls back to a separate backup only
after that slot has run as a confirmed one. -/
theorem imxrt_fallback_confirmed {pages pageWords : Nat} [Geometry pages pageWords] {n m : Nat}
    {H : Type} (hn : BlockSize n) (hm : BlockSize m) (cycles : List (Imxrt.PowerUp H))
    (flash : MockFlashBase pages 2 pageWords) (hempty : flash.Reads none)
    {before after : List (CycleResult (MockFlashBase pages 2 pageWords))}
    {r : CycleResult (MockFlashBase pages 2 pageWords)}
    (hrun : Imxrt.powerCycles MockFlashBase.withCut n m {} cycles flash = before ++ r :: after)
    {slot : Slot} (hslot : r.halt = .error (.handOver slot)) {st : State}
    (hloaded : r.loaded = some st) (hfailed : st.status = .Failed)
    (hne : st.target ≠ st.backup) : ∃ r' ∈ before, RanConfirmed slot r' := by
  have h := Imxrt.powerCycles_run hn hm cycles flash
  rw [hrun] at h
  exact h.fallback_of_empty hempty hslot hloaded hfailed hne

/-- Two cycles on an erased flash: the first slot is confirmed, and then asks for the second
one. -/
def askedResults : CycleResult (MockFlashBase 2 2 2) × CycleResult (MockFlashBase 2 2 2) :=
  let first := Imxrt.powerCycle MockFlashBase.withCut 4 2 {} (plainPowerUp 1) (.new none)
  (first, Imxrt.powerCycle MockFlashBase.withCut 4 2 {} (plainPowerUp 2) first.flash)

/-- The cycle behind them: the bootloader falls back to the first slot. -/
def fallbackResult : CycleResult (MockFlashBase 2 2 2) :=
  Imxrt.powerCycle MockFlashBase.withCut 4 2 {} rejectingPowerUp askedResults.2.flash

/-- The first slot gets control in the third cycle, and ran confirmed before. -/
theorem imxrt_fallback_confirmed_third :
    fallbackResult.loaded = some (State.new .Failed .S1 .S0) ∧
      ∃ r' ∈ [askedResults.1, askedResults.2], RanConfirmed .S0 r' := by
  have hloaded : fallbackResult.loaded = some (State.new .Failed .S1 .S0) := by decide +kernel
  refine ⟨hloaded, ?_⟩
  exact imxrt_fallback_confirmed (n := 4) (m := 2) ⟨by decide, by decide⟩ ⟨by decide, by decide⟩
    [plainPowerUp 1, plainPowerUp 2, rejectingPowerUp] (.new none)
    (MockFlashBase.reads_iff.mpr (by decide +kernel)) rfl (by decide +kernel) hloaded
    (State.status_new _ _ _) (by rw [State.target_new, State.backup_new]; decide)

/-- On the i.MX RT, from any content of the journal on: between two trials of an unconfirmed image
USER1 was pressed in a confirmed image or in the backup of a failed one. -/
theorem imxrt_trials_requested {pages pageWords : Nat} [Geometry pages pageWords] {n m : Nat}
    {H : Type} (hn : BlockSize n) (hm : BlockSize m) (cycles : List (Imxrt.PowerUp H))
    (flash : MockFlashBase pages 2 pageWords)
    {before between after : List (CycleResult (MockFlashBase pages 2 pageWords))}
    {r r' : CycleResult (MockFlashBase pages 2 pageWords)}
    (hrun : Imxrt.powerCycles MockFlashBase.withCut n m {} cycles flash
      = before ++ r :: (between ++ r' :: after))
    (htrial : IsTrial r) (htrial' : IsTrial r') : ∃ q ∈ between, IsRequest q := by
  have h := Imxrt.powerCycles_run hn hm cycles flash
  rw [hrun] at h
  exact h.request_between htrial htrial'

/-- Two cycles on a flash that asks for the second slot: a trial that is not confirmed, and a boot
of the backup in which USER1 is pressed twice. -/
def retriedResults : CycleResult (MockFlashBase 2 2 2) × CycleResult (MockFlashBase 2 2 2) :=
  let first := Imxrt.powerCycle MockFlashBase.withCut 4 2 {} (plainPowerUp 0) initialFlash
  (first, Imxrt.powerCycle MockFlashBase.withCut 4 2 {} (plainPowerUp 2) first.flash)

/-- The cycle behind them: the second slot is tried again. -/
def trialResult : CycleResult (MockFlashBase 2 2 2) :=
  Imxrt.powerCycle MockFlashBase.withCut 4 2 {} (plainPowerUp 0) retriedResults.2.flash

/-- The second trial was requested. -/
theorem imxrt_trials_requested_twice : IsTrial retriedResults.1 ∧ IsTrial trialResult ∧
    ∃ q ∈ [retriedResults.2], IsRequest q := by
  have htrial : IsTrial retriedResults.1 :=
    ⟨State.new .Attempting .S1 .S0, by decide +kernel, State.status_new _ _ _⟩
  have htrial' : IsTrial trialResult :=
    ⟨State.new .Attempting .S1 .S0, by decide +kernel, State.status_new _ _ _⟩
  refine ⟨htrial, htrial', ?_⟩
  have hrun : Imxrt.powerCycles MockFlashBase.withCut 4 2 {}
      [plainPowerUp 0, plainPowerUp 2, plainPowerUp 0] initialFlash
      = [] ++ retriedResults.1 :: ([retriedResults.2] ++ trialResult :: []) := rfl
  exact imxrt_trials_requested ⟨by decide, by decide⟩ ⟨by decide, by decide⟩ _ initialFlash hrun
    htrial htrial'

end EcSlimloader
