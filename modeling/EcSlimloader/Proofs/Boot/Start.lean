import EcSlimloader.Boot.Bench
import EcSlimloader.Proofs.Journal.PowerLoss

/-!
# `EcSlimloader.Proofs.Boot.Start`: what one run of `start` can do

`Boots` is the abstract model of a run: the journal is one record that a status
update replaces in one step, and a run reads it, updates it at most twice, and
tries at most two slots. `boot_spec` says that `boot` on the mock flash refines it:
every run ends as `Boots` says, for every content of the flash, every policy, every
verdict and every power cut. The properties of `start` are then case analyses over
`Boots`.

`G` stands for "the flash was good at the start". With it no status update is cut.

The refinement goes through the text of `start` once. `Ready` is the relation between the board and
the abstract record, and each function of the source has one triple about it. Where the source
returns early, the triple has a crash condition, and the run that ends there is one of `Boots`.

An interrupted update leaves the old record or the new one, as the mock flash does in
`persisted_of_set_error`. No lemma here looks at the words of the flash again.
-/

set_option autoImplicit false

namespace EcSlimloader

open FlashJournal

/-! ### The abstract run -/

/-- The state after the first status update. -/
def attemptedState (state : State) : State :=
  match state.status with
  | .Initial => state.withStatus .Attempting
  | .Attempting => state.withStatus .Failed
  | .Failed => state
  | .Confirmed => state

/-- The slot that is tried first. -/
def attemptedSlot (state : State) : Slot :=
  match state.status with
  | .Initial => state.target
  | .Attempting => state.backup
  | .Failed => state.backup
  | .Confirmed => state.target

/-- The record after the first status update. A state that is `Failed` or
`Confirmed` is not stored. -/
def attemptedRecord (state : State) (record : Option State) : Option State :=
  match state.status with
  | .Initial => some (attemptedState state)
  | .Attempting => some (attemptedState state)
  | .Failed => record
  | .Confirmed => record

/-- The record after a failed attempt. -/
def failedRecord (state : State) (record : Option State) : Option State :=
  if state.status ≠ .Failed then some (state.withStatus .Failed) else record

/-- How a run ends when `check_and_boot` is called for the last time. -/
def Verdict.halt (slot : Slot) : Verdict → Halt
  | .accept => .handOver slot
  | .reject _ => .abort
  | .cut => .powerLoss

/-- A hand-over goes to the slot that was tried. -/
theorem Verdict.eq_of_halt {v : Verdict} {slot s : Slot} (h : v.halt slot = .handOver s) :
    s = slot := by
  cases v with
  | accept => exact (Halt.handOver.inj h).symm
  | reject e => cases h
  | cut => cases h

/-- The run from the first attempt on: `slot` is tried with the journal's record
`record`. The indices are the end of the run, the slots that were tried, and the
record in the end. -/
inductive Attempt (state : State) (slot : Slot) (verdict : Slot → Verdict) (G : Prop)
    (record : Option State) : Fault Halt → List Slot → Option State → Prop where
  | handOver (hv : verdict slot = .accept) :
      Attempt state slot verdict G record (.error (.handOver slot)) [slot] record
  | cut (hv : verdict slot = .cut) :
      Attempt state slot verdict G record (.error .powerLoss) [slot] record
  | statusCut (e : BootError) (hv : verdict slot = .reject e) (hst : state.status ≠ .Failed)
      (hG : ¬ G) (msg : String) (record' : Option State)
      (hr : record' = record ∨ record' = some (state.withStatus .Failed)) :
      Attempt state slot verdict G record (.panic msg) [slot] record'
  | noBackup (e : BootError) (hv : verdict slot = .reject e) (hb : slot = state.backup) :
      Attempt state slot verdict G record (.error .abort) [slot] (failedRecord state record)
  | backup (e : BootError) (hv : verdict slot = .reject e) (hb : slot ≠ state.backup) :
      Attempt state slot verdict G record
        (.error ((verdict state.backup).halt state.backup)) [slot, state.backup]
        (failedRecord state record)

/-- A run with the selected state `state` and the journal's record `record`. -/
inductive Boots (state : State) (verdict : Slot → Verdict) (G : Prop) (record : Option State) :
    Fault Halt → List Slot → Option State → Prop where
  | statusCut (hst : state.status = .Initial ∨ state.status = .Attempting) (hG : ¬ G)
      (msg : String) (record' : Option State)
      (hr : record' = record ∨ record' = some (attemptedState state)) :
      Boots state verdict G record (.panic msg) [] record'
  | attempt (halt : Fault Halt) (tried : List Slot) (record' : Option State)
      (h : Attempt (attemptedState state) (attemptedSlot state) verdict G
        (attemptedRecord state record) halt tried record') :
      Boots state verdict G record halt tried record'

/-! ### The refinement -/

section Refinement

variable {pages pageWords : Nat} [Geometry pages pageWords]

/-- The board between two operations: its journal is in sync, holds `record`, and is
good if `G` holds. -/
structure Ready (verdict : Slot → Verdict) (tried : List Slot) (record : Option State)
    (G : Prop) (board : BenchBoard (MockFlashBase pages 2 pageWords)) : Prop where
  verdict_eq : board.verdict = verdict
  tried_eq : board.tried = tried
  inSync : InSync board.journal
  record_eq : persisted pages pageWords board.journal.inner = record
  good : G → ReadableFlash.Good board.journal.inner

variable {verdict : Slot → Verdict} {tried : List Slot} {record : Option State} {G : Prop}
  {n : Nat}

omit [Geometry pages pageWords] in
/-- The run of `setStatus`: a `set` of the journal, whose error becomes a panic. -/
theorem setStatus_run {T E : Type} [NorFlash T E] (state : State) (status : Status)
    (board : BenchBoard T) :
    setStatus n state status board
      = match set n (state.withStatus status) board.journal with
        | .ok _ j => .ok (state.withStatus status) { board with journal := j }
        | .error (.error _) j =>
            .error (.panic "Failed to update state") { board with journal := j }
        | .error (.panic msg) j => .error (.panic msg) { board with journal := j } := by
  have hj : Board.journal board = board.journal := rfl
  unfold setStatus
  -- The journal returns, fails or panics, and only the failure is translated.
  cases hset : set n (state.withStatus status) board.journal with
  | ok u j =>
      have hrun : (onJournal (set n (state.withStatus status)) :
          Exec Halt (BenchBoard T) _) board
          = .ok (.ok u) { board with journal := j } := by
        rw [onJournal, hj, hset]
        rfl
      rw [Exec.bind_ok hrun]
      rfl
  | error e j =>
      cases e with
      | error e =>
          have hrun : (onJournal (set n (state.withStatus status)) :
              Exec Halt (BenchBoard T) _) board
              = .ok (.error e) { board with journal := j } := by
            rw [onJournal, hj, hset]
            rfl
          rw [Exec.bind_ok hrun]
          rfl
      | panic msg =>
          have hrun : (onJournal (set n (state.withStatus status)) :
              Exec Halt (BenchBoard T) _) board
              = .error (.panic msg) { board with journal := j } := by
            rw [onJournal, hj, hset]
            rfl
          rw [Exec.bind_error hrun]

/-- A status update replaces the record. When it fails, the record is the old or the
new one, and the flash was not good. -/
theorem setStatus_triple (hn : BlockSize n) (state : State) (status : Status) :
    Triple (fun board : BenchBoard (MockFlashBase pages 2 pageWords) =>
        Ready verdict tried record G board)
      (setStatus n state status)
      (fun state' board => state' = state.withStatus status ∧
        Ready verdict tried (some (state.withStatus status)) G board)
      (fun halt board => (∃ msg, halt = .panic msg) ∧ board.tried = tried ∧ ¬ G ∧
        (persisted pages pageWords board.journal.inner = record ∨
          persisted pages pageWords board.journal.inner
            = some (state.withStatus status))) := by
  rintro board ⟨hv, ht, hsync, hrec, hgood⟩
  rw [setStatus_run]
  have hspec := set_spec (T := MockFlashBase pages 2 pageWords)
    (word (ReadableFlash.content board.journal.inner)) G hn (state.withStatus status)
  cases hset : set n (state.withStatus status) board.journal with
  | ok u j =>
      obtain ⟨hsync', hrec', -, hgood'⟩ := hspec.of_ok ⟨hsync, rfl, hgood⟩ hset
      exact ⟨rfl, hv, ht, hsync', hrec', hgood'⟩
  | error e j =>
      have hG := (hspec.of_error ⟨hsync, rfl, hgood⟩ hset).2
      -- A status update that is cut leaves the old record or the new one, by the power-loss
      -- atomicity of the journal.
      have hatomic := MockFlashBase.persisted_of_set_error hsync hn hset
      rw [hrec] at hatomic
      cases e with
      | error e => exact ⟨⟨_, rfl⟩, ht, hG, hatomic⟩
      | panic msg => exact ⟨⟨_, rfl⟩, ht, hG, hatomic⟩

/-- `check_and_boot` returns for a slot that is rejected, and ends the run for the
others. -/
theorem checkAndBoot_triple (slot : Slot) :
    Triple (fun board : BenchBoard (MockFlashBase pages 2 pageWords) =>
        Ready verdict tried record G board)
      (Board.checkAndBoot slot)
      (fun e board => verdict slot = .reject e ∧
        Ready verdict (tried ++ [slot]) record G board)
      (fun halt board => (∀ e, verdict slot ≠ .reject e) ∧
        halt = .error ((verdict slot).halt slot) ∧
        Ready verdict (tried ++ [slot]) record G board) := by
  rintro board ⟨rfl, rfl, hsync, hrec, hgood⟩
  have hready : Ready board.verdict (board.tried ++ [slot]) record G
      { board with tried := board.tried ++ [slot] } := ⟨rfl, rfl, hsync, hrec, hgood⟩
  have hrun : (Board.checkAndBoot slot :
      Exec Halt (BenchBoard (MockFlashBase pages 2 pageWords)) BootError) board
      = (match board.verdict slot with
        | .accept => Exec.fail (.handOver slot)
        | .reject e => pure e
        | .cut => Exec.fail .powerLoss :
          Exec Halt (BenchBoard (MockFlashBase pages 2 pageWords)) BootError)
        { board with tried := board.tried ++ [slot] } := rfl
  rw [hrun]
  -- Only a rejected slot comes back to `start`.
  cases board.verdict slot with
  | accept => exact ⟨fun e h => (nomatch h), rfl, hready⟩
  | reject e => exact ⟨rfl, hready⟩
  | cut => exact ⟨fun e h => (nomatch h), rfl, hready⟩

/-- After a failed attempt the record is the failed one. -/
theorem markFailed_triple (hn : BlockSize n) (state : State) :
    Triple (fun board : BenchBoard (MockFlashBase pages 2 pageWords) =>
        Ready verdict tried record G board)
      (markFailed n state)
      (fun state' board => state'.backup = state.backup ∧
        Ready verdict tried (failedRecord state record) G board)
      (fun halt board => state.status ≠ .Failed ∧ (∃ msg, halt = .panic msg) ∧
        board.tried = tried ∧ ¬ G ∧
        (persisted pages pageWords board.journal.inner = record ∨
          persisted pages pageWords board.journal.inner = some (state.withStatus .Failed))) := by
  unfold markFailed failedRecord
  by_cases hst : state.status ≠ .Failed
  · rw [if_pos hst, if_pos hst]
    refine (setStatus_triple hn state .Failed).conseq (fun _ h => h) ?_ fun _ _ h => ⟨hst, h⟩
    rintro state' board ⟨rfl, hready⟩
    exact ⟨State.backup_withStatus state .Failed, hready⟩
  · rw [if_neg hst, if_neg hst]
    exact Triple.pure state fun board hready => ⟨rfl, hready⟩

/-- The attempts of `start` end as `Attempt` says. -/
theorem attemptBoot_triple (hn : BlockSize n) (state : State) (slot : Slot) :
    Triple (fun board : BenchBoard (MockFlashBase pages 2 pageWords) =>
        Ready verdict [] record G board)
      (attemptBoot n state slot) (fun _ _ => False)
      (fun halt board => Attempt state slot verdict G record halt board.tried
        (persisted pages pageWords board.journal.inner)) := by
  unfold attemptBoot
  refine Triple.bind ((checkAndBoot_triple slot).mono_crash ?_)
    fun e => ?_
  · -- The first attempt ends the run.
    rintro halt board ⟨hne, rfl, -, ht, -, hrec, -⟩
    rw [ht, hrec]
    cases hv : verdict slot with
    | accept => exact .handOver hv
    | reject e => exact absurd hv (hne e)
    | cut => exact .cut hv
  · rintro board ⟨hv, hready⟩
    -- The first attempt has come back. The status becomes `Failed` before anything else is tried.
    refine Triple.bind ((markFailed_triple hn state).mono_crash ?_)
      (fun state' => ?_) board hready
    · rintro halt board ⟨hst, ⟨msg, rfl⟩, ht, hG, hrec⟩
      rw [ht]
      exact .statusCut e hv hst hG msg _ hrec
    · rintro board ⟨hb, hready⟩
      rw [hb]
      by_cases hslot : slot ≠ state.backup
      · rw [if_pos hslot]
        refine Triple.bind ((checkAndBoot_triple state.backup).mono_crash ?_) (fun e' => ?_)
          board hready
        · rintro halt board ⟨-, rfl, -, ht, -, hrec, -⟩
          rw [ht, hrec]
          exact .backup e hv hslot
        · -- The backup has come back too, which is the abort that the verdict of the backup stands
          -- for.
          rintro board ⟨hv', -, ht, -, hrec, -⟩
          show Attempt state slot verdict G record (.error .abort) board.tried _
          have habort : Halt.abort = (verdict state.backup).halt state.backup := by
            rw [hv']
            rfl
          rw [ht, hrec, habort]
          exact .backup e hv hslot
      · rw [if_neg hslot]
        obtain ⟨-, ht, -, hrec, -⟩ := hready
        show Attempt state slot verdict G record (.error .abort) board.tried _
        rw [ht, hrec]
        exact .noBackup e hv (Classical.not_not.mp hslot)

/-- The first status update, and the slot it leads to. -/
theorem determineIntent_triple (hn : BlockSize n) (state : State) :
    Triple (fun board : BenchBoard (MockFlashBase pages 2 pageWords) =>
        Ready verdict [] record G board)
      (determineIntent n state)
      (fun r board => r.1 = attemptedState state ∧
        intendedSlot r.1 r.2 = attemptedSlot state ∧
        Ready verdict [] (attemptedRecord state record) G board)
      (fun halt board => Boots state verdict G record halt board.tried
        (persisted pages pageWords board.journal.inner)) := by
  -- A status that is stored first: the update, and then the intent.
  have hstore : ∀ (status : Status) (intent : BootIntent),
      state.status = .Initial ∨ state.status = .Attempting →
      attemptedState state = state.withStatus status →
      attemptedRecord state record = some (attemptedState state) →
      intendedSlot (state.withStatus status) intent = attemptedSlot state →
      Triple (fun board : BenchBoard (MockFlashBase pages 2 pageWords) =>
          Ready verdict [] record G board)
        (do
          let state ← setStatus n state status
          pure (state, intent))
        (fun r board => r.1 = attemptedState state ∧
          intendedSlot r.1 r.2 = attemptedSlot state ∧
          Ready verdict [] (attemptedRecord state record) G board)
        (fun halt board => Boots state verdict G record halt board.tried
          (persisted pages pageWords board.journal.inner)) := by
    intro status intent hst hstate hrecord hslot
    refine Triple.bind ((setStatus_triple hn state status).mono_crash ?_)
      fun state' => Triple.pure _ ?_
    · rintro halt board ⟨⟨msg, rfl⟩, ht, hG, hrec⟩
      rw [ht]
      exact .statusCut hst hG msg _ (by rw [hstate]; exact hrec)
    · rintro board ⟨rfl, hready⟩
      exact ⟨hstate.symm, hslot, by rw [hrecord, hstate]; exact hready⟩
  unfold determineIntent
  cases hst : state.status with
  | Initial =>
      refine hstore .Attempting .Target (.inl hst) ?_ ?_ ?_
      · rw [attemptedState, hst]
      · rw [attemptedRecord, hst]
      · rw [attemptedSlot, hst]
        exact State.target_withStatus state .Attempting
  | Attempting =>
      refine hstore .Failed .Backup (.inr hst) ?_ ?_ ?_
      · rw [attemptedState, hst]
      · rw [attemptedRecord, hst]
      · rw [attemptedSlot, hst]
        exact State.backup_withStatus state .Failed
  | Failed =>
      rw [attemptedState, attemptedSlot, attemptedRecord, hst]
      exact Triple.pure _ fun board hready => ⟨rfl, rfl, hready⟩
  | Confirmed =>
      rw [attemptedState, attemptedSlot, attemptedRecord, hst]
      exact Triple.pure _ fun board hready => ⟨rfl, rfl, hready⟩

/-- `start` ends as `Boots` says. -/
theorem start_triple (hn : BlockSize n) (policy : BootStatePolicy) :
    Triple (fun board : BenchBoard (MockFlashBase pages 2 pageWords) =>
        Ready verdict [] record G board)
      (start n policy) (fun _ _ => False)
      (fun halt board => Boots (selectState policy record) verdict G record halt board.tried
        (persisted pages pageWords board.journal.inner)) := by
  rintro board hready
  -- The handle is in sync, so the state that `start` selects is that of the record.
  have hget : (Board.journal board).get = record := by
    rw [← hready.record_eq]
    exact hready.inSync.get_eq
  have hrun : (start n policy :
      Exec Halt (BenchBoard (MockFlashBase pages 2 pageWords)) Empty) board
      = (determineIntent n (selectState policy record) >>= fun r =>
          attemptBoot n r.1 (intendedSlot r.1 r.2) :
          Exec Halt (BenchBoard (MockFlashBase pages 2 pageWords)) Empty) board := by
    rw [← hget]
    rfl
  rw [hrun]
  refine Triple.bind (determineIntent_triple hn _) (fun r => ?_) board hready
  obtain ⟨state', intent⟩ := r
  rintro board ⟨hstate, hslot, hready⟩
  simp only at hstate hslot ⊢
  rw [hstate] at hslot ⊢
  rw [hslot]
  exact (attemptBoot_triple hn _ _).mono_crash
    (fun halt board h => .attempt halt _ _ h) board hready

/-- `boot` refines the abstract run: from the last valid record of the flash, with
the flash as good as it was. -/
theorem boot_spec (hn : BlockSize n) (policy : BootStatePolicy) (verdict : Slot → Verdict)
    (flash : MockFlashBase pages 2 pageWords) :
    Boots (selectState policy (persisted pages pageWords flash)) verdict
      (ReadableFlash.Good flash) (persisted pages pageWords flash)
      (boot n policy verdict flash).halt (boot n policy verdict flash).tried
      (persisted pages pageWords (boot n policy verdict flash).flash) := by
  obtain ⟨j, f', hnew, -⟩ := MockFlashBase.new_ok hn flash
  obtain ⟨rfl, hsync, hcontent, hgood⟩ :=
    (new_spec _ (ReadableFlash.Good flash) hn).of_ok ⟨rfl, fun h => h⟩ hnew
  -- Opening the journal changes nothing, so the record is still the one of the flash.
  have hready : Ready verdict [] (persisted pages pageWords flash) (ReadableFlash.Good flash)
      { journal := j, verdict, tried := [] } :=
    ⟨rfl, rfl, hsync, congrArg (fun c => RecordLog.current State.read? (word c) _) hcontent,
      hgood⟩
  have hstart := start_triple hn policy _ hready
  unfold boot
  rw [hnew]
  simp only
  cases hrun : start n policy
      ({ journal := j, verdict, tried := [] } : BenchBoard (MockFlashBase pages 2 pageWords)) with
  | ok never _ => nomatch never
  | error halt board =>
      rw [hrun] at hstart
      exact hstart

end Refinement

end EcSlimloader
