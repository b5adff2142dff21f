import EcSlimloader.Proofs.Boot.Board
import EcSlimloader.Proofs.Boot.Outcome
import EcSlimloader.Proofs.Journal.Discipline

/-!
# `EcSlimloader.Proofs.Boot.Recovery`: a device recovers from every power cut

The properties of sequences of power cycles so far say what never happens. Here is what does
happen: after any power cycles, with cuts before any byte, a cycle without a cut comes to its end.
The invariant behind it is `Consistent`: the words that read `0xffff` stay writable. Every legal
operation keeps it, and so every cycle does (`UpdatesKeep`).

A cycle in which no update is cut has one outcome. `Undisturbed` states it in terms of the record
and of the presses of USER1, for an image that boots. `imxrt_recovers`, `imxrt_update_completes`
and `imxrt_rolls_back` follow from it: the device comes up, it comes up with a new image, and it
goes back to the old one.

`UpdatesKeep` is the interface between the journal and the programs above it. It says what the
updates of a journal keep, and is proved once for `set`. From there it is carried through each
function of the bootloader and of the application, in the order in which they call each other, down
to `main`. The i.MX RT gets it from the bench by the simulation.

That a cycle comes up is not a statement about one run only. The verdict of the slot has to be the
one of its image, so `Imxrt.Hardware.BootsSlot` says what a slot must hold for `check_and_boot` to
jump to it.
-/

set_option autoImplicit false

namespace EcSlimloader

open FlashJournal
open Application (newState otherSlot)
open Relation (ReflTransGen)

/-! ### What the updates of a journal keep

The programs above the journal call `set` and nothing else, so what `set` keeps is kept by all of
them. A panic ends a program early, with what the failed update has left. -/

/-- The updates of a journal keep `I`, and an update that fails leaves `J`. -/
structure UpdatesKeep {T E : Type} [NorFlash T E] (n : Nat) (I J : FlashJournal T → Prop) :
    Prop where
  ok : ∀ {s j u j'}, I j → set n s j = .ok u j' → I j'
  error : ∀ {s j e j'}, I j → set n s j = .error e j' → J j'
  weaken : ∀ {j}, I j → J j

section Keep

variable {T E : Type} [NorFlash T E] {n : Nat} {I J : FlashJournal T → Prop}

/-- A status update. -/
theorem UpdatesKeep.setStatus (h : UpdatesKeep n I J) (state : State) (status : Status) :
    Triple (fun board => I board.journal)
      (EcSlimloader.setStatus n state status : Exec Halt (BenchBoard T) State)
      (fun _ board => I board.journal) (fun _ board => J board.journal) := by
  intro board hboard
  rw [setStatus_run]
  cases hset : set n (state.withStatus status) board.journal with
  | ok u j => exact h.ok hboard hset
  | error e j =>
      cases e with
      | error e => exact h.error hboard hset
      | panic msg => exact h.error hboard hset

/-- An attempt does not touch the journal. -/
theorem UpdatesKeep.checkAndBoot (h : UpdatesKeep n I J) (slot : Slot) :
    Triple (fun board => I board.journal)
      (Board.checkAndBoot slot : Exec Halt (BenchBoard T) BootError)
      (fun _ board => I board.journal) (fun _ board => J board.journal) := by
  intro board hboard
  rw [checkAndBoot_run]
  cases board.verdict slot with
  | accept => exact h.weaken hboard
  | reject e => exact hboard
  | cut => exact h.weaken hboard

/-- "Determine our intended slot to boot". -/
theorem UpdatesKeep.determineIntent (h : UpdatesKeep n I J) (state : State) :
    Triple (fun board => I board.journal)
      (EcSlimloader.determineIntent n state : Exec Halt (BenchBoard T) (State × BootIntent))
      (fun _ board => I board.journal) (fun _ board => J board.journal) := by
  have hpure : ∀ r : State × BootIntent, Triple (fun board : BenchBoard T => I board.journal)
      (pure r : Exec Halt (BenchBoard T) (State × BootIntent))
      (fun _ board => I board.journal) (fun _ board => J board.journal) :=
    fun r => Triple.pure r fun _ hboard => hboard
  unfold EcSlimloader.determineIntent
  cases state.status with
  | Initial => exact Triple.bind (h.setStatus state .Attempting) fun _ => hpure _
  | Attempting => exact Triple.bind (h.setStatus state .Failed) fun _ => hpure _
  | Failed => exact hpure _
  | Confirmed => exact hpure _

/-- A run of `start`. -/
theorem UpdatesKeep.start (h : UpdatesKeep n I J) (policy : BootStatePolicy) :
    Triple (fun board => I board.journal)
      (EcSlimloader.start n policy : Exec Halt (BenchBoard T) Empty)
      (fun _ _ => False) (fun _ board => J board.journal) := by
  have habort : Triple (fun board : BenchBoard T => I board.journal)
      (Board.abort : Exec Halt (BenchBoard T) Empty) (fun _ _ => False)
      (fun _ board => J board.journal) := fun _ hboard => h.weaken hboard
  -- The second update is the same rule as the first, or no update at all.
  have hmark : ∀ state, Triple (fun board : BenchBoard T => I board.journal)
      (markFailed n state : Exec Halt (BenchBoard T) State)
      (fun _ board => I board.journal) (fun _ board => J board.journal) := by
    intro state
    unfold markFailed
    split
    · exact h.setStatus state .Failed
    · exact Triple.pure state fun _ hboard => hboard
  intro board hboard
  rw [start_run]
  refine Triple.bind (h.determineIntent _) (fun r => ?_) board hboard
  unfold attemptBoot
  refine Triple.bind (h.checkAndBoot _) fun _ => ?_
  refine Triple.bind (hmark _) fun state => ?_
  split
  · exact Triple.bind (h.checkAndBoot _) fun _ => habort
  · exact habort

/-- A boot, from a journal that can be opened. -/
theorem UpdatesKeep.boot (h : UpdatesKeep n I J) (policy : BootStatePolicy)
    (verdict : Slot → Verdict) {t t' : T} {j : FlashJournal T} (hnew : new n t = .ok j t')
    (hj : I j) : ∃ j', J j' ∧ (EcSlimloader.boot n policy verdict t).flash = j'.inner := by
  have hstart := h.start policy { journal := j, verdict, tried := [] } hj
  unfold EcSlimloader.boot
  rw [hnew]
  simp only
  cases hrun : (EcSlimloader.start n policy : Exec Halt (BenchBoard T) Empty)
      { journal := j, verdict, tried := [] } with
  | ok never _ => exact never.elim
  | error halt board =>
      rw [hrun] at hstart
      exact ⟨board.journal, hstart, rfl⟩

/-- The presses of the application. -/
theorem UpdatesKeep.button1 (h : UpdatesKeep n I J) (s : State) (presses : Nat) :
    Triple I (Application.button1 n s presses : Exec Empty (FlashJournal T) Unit)
      (fun _ => I) (fun _ => J) := by
  induction presses with
  | zero => exact Triple.pure () fun _ hj => hj
  | succ presses ih =>
      have hset : Triple I (set n s) (fun _ => I) (fun _ => J) := by
        intro j hj
        cases hrun : set n s j with
        | ok u j' => exact h.ok hj hrun
        | error e j' => exact h.error hj hrun
      exact Triple.bind hset.unwrap fun _ => ih

/-- A run of the application, from a journal that can be opened. -/
theorem UpdatesKeep.main (h : UpdatesKeep n I J) (presses : Nat) {t t' : T} {j : FlashJournal T}
    (hnew : new n t = .ok j t') (hj : I j) :
    ∃ j', J j' ∧ (Application.main n presses t).flash = j'.inner := by
  have hpress := h.button1 (newState (Application.loadedState j.get)) presses j hj
  unfold Application.main
  rw [hnew]
  simp only
  cases hrun : (Application.button1 n (newState (Application.loadedState j.get)) presses :
      Exec Empty (FlashJournal T) Unit) j with
  | ok u j' =>
      rw [hrun] at hpress
      exact ⟨j', h.weaken hpress, rfl⟩
  | error e j' =>
      rw [hrun] at hpress
      exact ⟨j', hpress, rfl⟩

end Keep

/-! ### The mock flash -/

section Paged

variable {T E : Type} [NorFlash T E] {pages pageWords : Nat} [PagedFlash T E pages pageWords]
  {n : Nat}

/-- A property of the storage that every legal operation keeps is kept by the updates of a
journal. -/
theorem updatesKeep_of_step (hreads : SteadyReads T) (hn : BlockSize n) {I J : T → Prop}
    (step : OpStep T (fun _ => I) fun _ => J) (hweaken : ∀ t, I t → J t) :
    UpdatesKeep n (fun j : FlashJournal T => InSync j ∧ I j.inner) (fun j => J j.inner) where
  ok {s j u j'} hj hrun := by
    -- A `set` of the current state returns early and asks nothing of the flash.
    by_cases hcur : RecordLog.current State.read? (word (ReadableFlash.content j.inner))
        (pages * pageWords) = some s
    · rw [set_run_of_eq (hj.1.get_eq.trans hcur)] at hrun
      cases hrun
      exact hj
    · have hset := (set_triple step hreads hn _ s hcur).of_ok ⟨hj.1, rfl, hj.2⟩ hrun
      exact ⟨hset.1, hset.2.2.2⟩
  error {s j e j'} hj hrun := by
    by_cases hcur : RecordLog.current State.read? (word (ReadableFlash.content j.inner))
        (pages * pageWords) = some s
    · rw [set_run_of_eq (hj.1.get_eq.trans hcur)] at hrun
      cases hrun
    · obtain ⟨e', -, hJ⟩ := (set_triple step hreads hn _ s hcur).of_error ⟨hj.1, rfl, hj.2⟩ hrun
      exact hJ
  weaken hj := hweaken _ hj.2

/-- Operations on a good storage do not fail. -/
theorem good_step : OpStep T (fun _ => ReadableFlash.Good) fun _ _ => False := by
  rintro w op ops hlegal t ⟨hw, hgood⟩
  obtain ⟨t', hrun, hw', hgood'⟩ := op_good (T := T) hlegal hw hgood
  rw [hrun]
  exact ⟨hw', hgood'⟩

/-- An update on a good storage returns. -/
theorem set_returns (hreads : SteadyReads T) (hn : BlockSize n) (s : State) {j : FlashJournal T}
    (hsync : InSync j) (hgood : ReadableFlash.Good j.inner) : ∃ j', set n s j = .ok () j' := by
  by_cases hcur : RecordLog.current State.read? (word (ReadableFlash.content j.inner))
      (pages * pageWords) = some s
  · exact ⟨j, set_run_of_eq (hsync.get_eq.trans hcur)⟩
  · obtain ⟨u, j', hrun, -⟩ := (set_triple good_step hreads hn _ s hcur).returns
      (by rintro e j' ⟨-, -, hfalse⟩; exact hfalse) ⟨hsync, rfl, hgood⟩
    exact ⟨j', hrun⟩

/-- Presses on a good storage return. -/
theorem button1_returns (hreads : SteadyReads T) (hn : BlockSize n) (s : State) (presses : Nat)
    {j : FlashJournal T} (hsync : InSync j) (hgood : ReadableFlash.Good j.inner) :
    ∃ j', (Application.button1 n s presses : Exec Empty (FlashJournal T) Unit) j = .ok () j' := by
  have hkeep : UpdatesKeep n (fun j : FlashJournal T => InSync j ∧ ReadableFlash.Good j.inner)
      (fun j => ReadableFlash.Good j.inner) :=
    updatesKeep_of_step hreads hn
      (fun w op ops hlegal => (good_step w op ops hlegal).of_no_fault) fun _ h => h
  -- Each press starts with the handle that the one before has left, which is in sync again.
  induction presses generalizing j with
  | zero => exact ⟨j, rfl⟩
  | succ presses ih =>
      obtain ⟨j₁, hset⟩ := set_returns hreads hn s hsync hgood
      obtain ⟨hsync₁, hgood₁⟩ := hkeep.ok ⟨hsync, hgood⟩ hset
      obtain ⟨j', hrest⟩ := ih hsync₁ hgood₁
      refine ⟨j', ?_⟩
      unfold Application.button1
      rw [Exec.bind_ok (Exec.unwrap_ok hset)]
      exact hrest

end Paged

section Mock

variable {pages pageWords : Nat} [Geometry pages pageWords] {n m : Nat}

/-- For a reader the flash stays as it is. -/
@[reducible] def MockFlashBase.readableAt (f₀ : MockFlashBase pages 2 pageWords) :
    ReadableFlash (MockFlashBase pages 2 pageWords) MockFlashError where
  content f := ReadableFlash.content f
  Good f := f = f₀
  length_content f := ReadableFlash.length_content f
  capacity_lt f := ReadableFlash.capacity_lt f
  read_law f offset length heven hlen hodd := by
    rw [MockFlashBase.read_run f heven hlen hodd]
    exact ⟨rfl, rfl, fun h => h⟩

/-- Reads of the mock flash are steady. -/
theorem MockFlashBase.steadyReads : SteadyReads (MockFlashBase pages 2 pageWords) := by
  intro n hn f
  have hcompute := @computeCache_spec _ _ _ (MockFlashBase.readableAt f) f.data.toList True n hn
  obtain ⟨cache, f', hr, hcache, -, hf'⟩ :=
    hcompute.returns (fun _ _ h => h.2 trivial) ⟨rfl, fun _ => rfl⟩
  rw [hr, hcache, hf' trivial]
  rfl

/-- Opening a journal changes nothing. -/
theorem MockFlashBase.new_run_eq (hn : BlockSize n) (f : MockFlashBase pages 2 pageWords) :
    FlashJournal.new n f = .ok ⟨f, scanCache f.data.toList⟩ f := by
  rw [new_run, MockFlashBase.steadyReads hn f]
  rfl

/-- A legal operation keeps the words that read `0xffff` writable. -/
theorem MockFlashBase.consistent_step :
    OpStep (MockFlashBase pages 2 pageWords) (fun _ => Consistent) fun _ => Consistent := by
  rintro w op ops hlegal t ⟨rfl, hc⟩
  have hop := op_consistent hlegal hc
  cases hr : ((op.request pageWords).run : Exec MockFlashError _ Unit) t with
  | ok u t' =>
      rw [hr] at hop
      exact hop
  | error e t' =>
      rw [hr] at hop
      exact hop.2

/-- Updates keep the flash consistent, wherever the power is cut. -/
theorem MockFlashBase.keepsConsistent (hn : BlockSize n) :
    UpdatesKeep n (fun j : FlashJournal (MockFlashBase pages 2 pageWords) =>
      InSync j ∧ j.inner.Consistent) (fun j => j.inner.Consistent) :=
  updatesKeep_of_step steadyReads hn consistent_step fun _ h => h

/-- A boot keeps the flash consistent. -/
theorem boot_consistent (hn : BlockSize n) (verdict : Slot → Verdict)
    {flash : MockFlashBase pages 2 pageWords} (hflash : flash.Consistent) :
    (boot n {} verdict flash).flash.Consistent := by
  obtain ⟨j, hj, hboot⟩ := (MockFlashBase.keepsConsistent hn).boot {} verdict
    (MockFlashBase.new_run_eq hn flash) ⟨rfl, hflash⟩
  rw [hboot]
  exact hj

/-- The application keeps the flash consistent. -/
theorem main_consistent (hm : BlockSize m) (presses : Nat)
    {flash : MockFlashBase pages 2 pageWords} (hflash : flash.Consistent) :
    (Application.main m presses flash).flash.Consistent := by
  obtain ⟨j, hj, hmain⟩ := (MockFlashBase.keepsConsistent hm).main presses
    (MockFlashBase.new_run_eq hm flash) ⟨rfl, hflash⟩
  rw [hmain]
  exact hj

/-- A cycle keeps the flash consistent. -/
theorem powerCycle_consistent (hn : BlockSize n) (hm : BlockSize m) (cycle : Cycle)
    {flash : MockFlashBase pages 2 pageWords} (hflash : flash.Consistent) :
    (powerCycle MockFlashBase.withCut n m {} cycle flash).flash.Consistent := by
  have hboot := boot_consistent hn cycle.verdict
    (show (flash.withCut cycle.bootCut).Consistent from hflash)
  unfold powerCycle
  simp only
  -- A device that stays dark runs no application.
  by_cases hdark : ∀ s, (boot n {} cycle.verdict (flash.withCut cycle.bootCut)).halt
      ≠ .error (.handOver s)
  · rw [finishCycle_of_dark hdark]
    exact hboot
  · obtain ⟨slot, hhalt⟩ := not_forall_not.mp hdark
    rw [hhalt]
    exact main_consistent hm cycle.presses hboot

/-- The application on a good flash: it does not panic, and a press stores the new state. Without
a press any flash will do. -/
theorem main_undisturbed (hm : BlockSize m) (presses : Nat)
    {flash : MockFlashBase pages 2 pageWords}
    (hgood : ReadableFlash.Good flash ∨ presses = 0) :
    (Application.main m presses flash).panicked = false ∧
      persisted pages pageWords (Application.main m presses flash).flash
        = if presses = 0 then persisted pages pageWords flash
          else some (newState (Application.loadedState (persisted pages pageWords flash))) := by
  have hsync : InSync (FlashJournal.mk flash (scanCache flash.data.toList)) := rfl
  have hget : (FlashJournal.mk flash (scanCache flash.data.toList)).get
      = persisted pages pageWords flash := hsync.get_eq
  have hpress := button1_record hm
    (newState (Application.loadedState (persisted pages pageWords flash))) presses hsync
  -- Without a press nothing is written, so a planned cut does not come about.
  have hreturns : ∃ j', (Application.button1 m
      (newState (Application.loadedState (persisted pages pageWords flash))) presses :
      Exec Empty (FlashJournal (MockFlashBase pages 2 pageWords)) Unit)
      (FlashJournal.mk flash (scanCache flash.data.toList)) = .ok () j' := by
    rcases hgood with hgood | rfl
    · exact button1_returns MockFlashBase.steadyReads hm _ presses hsync hgood
    · exact ⟨_, rfl⟩
  obtain ⟨j', hrun⟩ := hreturns
  rw [hrun] at hpress
  unfold Application.main
  rw [MockFlashBase.new_run_eq hm]
  simp only [hget, hrun]
  exact ⟨trivial, hpress.2⟩

/-- The record that the first status update leaves, with the default policy. -/
theorem attemptedRecord_default (record : Option State) :
    attemptedRecord (selectState {} record) record
      = some (attemptedState (selectState {} record)) := by
  cases record with
  | none => decide
  | some st =>
      have hselect : selectState {} (some st) = st := rfl
      rw [hselect]
      unfold attemptedRecord attemptedState
      cases st.status with
      | Initial => rfl
      | Attempting => rfl
      | Failed => rfl
      | Confirmed => rfl

/-- The slot to boot is determined without a status update. -/
def Settled (state : State) : Prop := state.status = .Confirmed ∨ state.status = .Failed

/-- A run in which the first image is accepted, and in which no status update can be cut. -/
theorem Boots.of_accept {state : State} {verdict : Slot → Verdict} {G : Prop}
    {record record' : Option State} {halt : Fault Halt} {tried : List Slot}
    (hG : G ∨ Settled state)
    (hv : verdict (attemptedSlot state) = .accept)
    (h : Boots state verdict G record halt tried record') :
    halt = .error (.handOver (attemptedSlot state)) ∧ record' = attemptedRecord state record := by
  -- The first update is not cut: the flash is good, or there is no first update.
  cases h with
  | statusCut hst hG' =>
      rcases hG with hG | hG
      · exact absurd hG hG'
      · rcases hst with hst | hst <;> rcases hG with hG | hG <;> rw [hst] at hG <;> cases hG
  | attempt _ _ _ h =>
      cases h with
      | handOver _ => exact ⟨rfl, rfl⟩
      -- The slot is accepted, which leaves the hand-over only.
      | cut hv' =>
          rw [hv] at hv'
          cases hv'
      | statusCut e hv' =>
          rw [hv] at hv'
          cases hv'
      | noBackup e hv' =>
          rw [hv] at hv'
          cases hv'
      | backup e hv' =>
          rw [hv] at hv'
          cases hv'

/-- The effect of a cycle in which the first image is accepted and no update is cut. -/
structure Undisturbed {pages pageWords : Nat} [Geometry pages pageWords] (presses : Nat)
    (flash : MockFlashBase pages 2 pageWords) (r : CycleResult (MockFlashBase pages 2 pageWords)) :
    Prop where
  handOver : r.halt
    = .error (.handOver (attemptedSlot (selectState {} (persisted pages pageWords flash))))
  loaded : r.loaded = some (attemptedState (selectState {} (persisted pages pageWords flash)))
  panicked : r.panicked = false
  record : persisted pages pageWords r.flash
    = some (if presses = 0 then attemptedState (selectState {} (persisted pages pageWords flash))
        else newState (attemptedState (selectState {} (persisted pages pageWords flash))))

/-- Such a cycle on the bench, on a consistent flash. -/
theorem powerCycle_undisturbed (hn : BlockSize n) (hm : BlockSize m) {cycle : Cycle}
    {flash : MockFlashBase pages 2 pageWords} (hflash : flash.Consistent)
    (hboot : cycle.bootCut = none ∨ Settled (selectState {} (persisted pages pageWords flash)))
    (happ : cycle.appCut = none ∨ cycle.presses = 0)
    (hv : cycle.verdict (attemptedSlot (selectState {} (persisted pages pageWords flash)))
      = .accept) :
    Undisturbed cycle.presses flash (powerCycle MockFlashBase.withCut n m {} cycle flash) := by
  have hgood : ReadableFlash.Good (flash.withCut cycle.bootCut) ∨
      Settled (selectState {} (persisted pages pageWords flash)) :=
    hboot.imp_left fun h => ⟨h, hflash⟩
  obtain ⟨hhalt, hrecord⟩ :=
    (boot_spec hn {} cycle.verdict (flash.withCut cycle.bootCut)).of_accept hgood hv
  -- What the application finds: the record behind the bootloader's update.
  have hmid : persisted pages pageWords
      ((boot n {} cycle.verdict (flash.withCut cycle.bootCut)).flash.withCut cycle.appCut)
      = some (attemptedState (selectState {} (persisted pages pageWords flash))) :=
    hrecord.trans (attemptedRecord_default _)
  have hgood : ReadableFlash.Good
      ((boot n {} cycle.verdict (flash.withCut cycle.bootCut)).flash.withCut cycle.appCut) ∨
      cycle.presses = 0 :=
    happ.imp_left fun h => ⟨h, boot_consistent hn cycle.verdict hflash⟩
  obtain ⟨hpanicked, hpress⟩ := main_undisturbed hm cycle.presses hgood
  have hloaded := (main_record hm cycle.presses
    ((boot n {} cycle.verdict (flash.withCut cycle.bootCut)).flash.withCut cycle.appCut)).1
  rw [hmid] at hpress hloaded
  unfold powerCycle
  simp only
  rw [hhalt, finishCycle]
  refine ⟨rfl, hloaded, hpanicked, hpress.trans ?_⟩
  by_cases hp : cycle.presses = 0
  · rw [if_pos hp, if_pos hp]
  · rw [if_neg hp, if_neg hp]
    rfl

end Mock

/-! ### The i.MX RT

The same for the board. A slot that holds an image which passes every check has the verdict
`accept`, so the cycle is the one that `Undisturbed` describes. -/

section Board

variable {pages pageWords : Nat} [Geometry pages pageWords] {n m : Nat} {H : Type}

/-- An attempt at the slot ends with the jump to its image. -/
def Imxrt.Hardware.BootsSlot (T : Type) (hardware : Imxrt.Hardware H) (slot : Slot) : Prop :=
  ∀ journal : FlashJournal T, ∃ p after,
    Imxrt.checkAndBoot slot (Imxrt.ofHardware hardware journal)
      = .error (.error (.bootApplication p)) after

/-- A slot boots if its header passes the checks and `check_image` accepts its image. -/
theorem Imxrt.bootsSlot_of_passes {T H : Type} {hardware : Hardware H} {slot : Slot}
    {content : Nat → UInt8} {slotPartition : SlotPartition}
    (hpasses : ∀ journal : FlashJournal T,
      Passes (ofHardware hardware journal) slot content slotPartition)
    (hlen : 64 ≤ (slotIvt content).imageLen.toNat) {hw : H}
    (hcheck : hardware.checkImage (slotIvt content) (slotImage content) hardware.hw = .ok () hw) :
    hardware.BootsSlot T slot := by
  intro journal
  obtain ⟨loaded, w, hconf, hslice, hload⟩ := loadImage_of_passes (hpasses journal)
  rw [if_pos hlen] at hload
  refine ⟨(slotIvt content).targetPtr, { loaded with hw }, ?_⟩
  rw [checkAndBoot_of_load (hpasses journal).slot hload, hslice, hconf.checkImage, hconf.hw]
  simp only [ofHardware, hcheck]

/-- "Determine our intended slot to boot" returns, if no status update can be cut. -/
theorem Imxrt.determineIntent_returns (hn : BlockSize n) (hardware : Hardware H) (state : State)
    {journal : FlashJournal (MockFlashBase pages 2 pageWords)} (hsync : InSync journal)
    (hgood : ReadableFlash.Good journal.inner ∨ Settled state) :
    ∃ r journal', determineIntent n state (ofHardware hardware journal)
        = .ok r (ofHardware hardware journal') ∧
      intendedSlot r.1 r.2 = attemptedSlot state := by
  -- On a good flash a status update returns, on this board as on any other.
  have hstore : ReadableFlash.Good journal.inner → ∀ (status : Status) (intent : BootIntent),
      ∃ journal', (do
        let state ← setStatus n state status
        pure (state, intent) : Exec Halt (Imxrt _ H) (State × BootIntent))
          (ofHardware hardware journal)
        = .ok (state.withStatus status, intent) (ofHardware hardware journal') := by
    intro hgood status intent
    obtain ⟨journal', hset⟩ :=
      set_returns MockFlashBase.steadyReads hn (state.withStatus status) hsync hgood
    have hrun : (setStatus n state status : Exec Halt (Imxrt _ H) State)
        (ofHardware hardware journal)
        = .ok (state.withStatus status) (ofHardware hardware journal') := by
      have hjournal : Board.journal (ofHardware hardware journal) = journal := rfl
      rw [setStatus_run_board, hjournal, hset]
      rfl
    exact ⟨journal', by rw [Exec.bind_ok hrun]; rfl⟩
  unfold determineIntent attemptedSlot
  unfold Settled at hgood
  cases hst : state.status with
  | Initial =>
      obtain ⟨journal', hrun⟩ := hstore (hgood.resolve_right (by simp [hst])) .Attempting .Target
      exact ⟨_, journal', hrun, State.target_withStatus state .Attempting⟩
  | Attempting =>
      obtain ⟨journal', hrun⟩ := hstore (hgood.resolve_right (by simp [hst])) .Failed .Backup
      exact ⟨_, journal', hrun, State.backup_withStatus state .Failed⟩
  | Failed => exact ⟨(state, .Backup), journal, rfl, rfl⟩
  | Confirmed => exact ⟨(state, .Target), journal, rfl, rfl⟩

/-- The verdict on a slot that boots is to accept it. -/
theorem Imxrt.verdictOn_accept (hn : BlockSize n) {hardware : Hardware H}
    {flash : MockFlashBase pages 2 pageWords}
    (hgood : ReadableFlash.Good flash ∨ Settled (selectState {} (persisted pages pageWords flash)))
    (hboots : hardware.BootsSlot (MockFlashBase pages 2 pageWords)
      (attemptedSlot (selectState {} (persisted pages pageWords flash)))) :
    verdictOn n {} hardware flash
      (attemptedSlot (selectState {} (persisted pages pageWords flash))) = .accept := by
  have hsync : InSync (FlashJournal.mk flash (scanCache flash.data.toList)) := rfl
  have hget : (FlashJournal.mk flash (scanCache flash.data.toList)).get
      = persisted pages pageWords flash := hsync.get_eq
  -- The verdict is read off the attempt that `start` makes, so that attempt has to be reached.
  obtain ⟨r, journal', hrun, hslot⟩ := determineIntent_returns hn hardware
    (selectState {} (persisted pages pageWords flash)) hsync hgood
  obtain ⟨p, after, hboot⟩ := hboots journal'
  have hattempt : Board.checkAndBoot
      (attemptedSlot (selectState {} (persisted pages pageWords flash)))
      (ofHardware hardware journal')
      = .error (.error (.handOver
          (attemptedSlot (selectState {} (persisted pages pageWords flash))))) after := by
    simp only [Board.checkAndBoot, hboot]
  unfold verdictOn
  rw [MockFlashBase.new_run_eq hn]
  show benchVerdict n {} (ofHardware hardware _) _ = _
  unfold benchVerdict
  have hjournal : (Board.journal (ofHardware hardware
      (FlashJournal.mk flash (scanCache flash.data.toList)))).get
      = persisted pages pageWords flash := hget
  rw [hjournal, hrun]
  show (if _ = intendedSlot r.1 r.2 then attemptVerdict (Board.checkAndBoot (intendedSlot r.1 r.2)
    (ofHardware hardware journal')) else _) = _
  rw [hslot, if_pos rfl, hattempt]
  rfl

/-- A cycle in which no update is cut, on the i.MX RT. -/
theorem Imxrt.powerCycle_undisturbed (hn : BlockSize n) (hm : BlockSize m) {cycle : PowerUp H}
    {flash : MockFlashBase pages 2 pageWords} (hflash : flash.Consistent)
    (hboot : cycle.bootCut = none ∨ Settled (selectState {} (persisted pages pageWords flash)))
    (happ : cycle.appCut = none ∨ cycle.presses = 0)
    (hboots : cycle.hardware.BootsSlot (MockFlashBase pages 2 pageWords)
      (attemptedSlot (selectState {} (persisted pages pageWords flash)))) :
    Undisturbed cycle.presses flash
      (Imxrt.powerCycle MockFlashBase.withCut n m {} cycle flash) := by
  have hgood : ReadableFlash.Good (flash.withCut cycle.bootCut) ∨
      Settled (selectState {} (persisted pages pageWords (flash.withCut cycle.bootCut))) :=
    hboot.imp_left fun h => ⟨h, hflash⟩
  -- The bench has the verdict of the board, and the board accepts the slot.
  have haccept : (cycle.toCycle MockFlashBase.withCut n {} flash).verdict
      (attemptedSlot (selectState {} (persisted pages pageWords flash))) = .accept :=
    verdictOn_accept hn hgood hboots
  obtain ⟨hhalt, hloaded, hpanicked, -, hrecord⟩ :=
    Imxrt.powerCycle_simulated MockFlashBase.withCut n m {} cycle flash
  have hbench : Undisturbed cycle.presses flash (EcSlimloader.powerCycle MockFlashBase.withCut n m
      {} (cycle.toCycle MockFlashBase.withCut n {} flash) flash) :=
    EcSlimloader.powerCycle_undisturbed hn hm hflash hboot happ haccept
  exact ⟨(hhalt.handOver_iff _).mpr hbench.handOver, hloaded.trans hbench.loaded,
    hpanicked.trans hbench.panicked, by rw [hrecord]; exact hbench.record⟩

/-- A cycle keeps the flash consistent, on the i.MX RT. -/
theorem Imxrt.powerCycle_consistent (hn : BlockSize n) (hm : BlockSize m) (cycle : PowerUp H)
    {flash : MockFlashBase pages 2 pageWords} (hflash : flash.Consistent) :
    (Imxrt.powerCycle MockFlashBase.withCut n m {} cycle flash).flash.Consistent := by
  rw [(Imxrt.powerCycle_simulated MockFlashBase.withCut n m {} cycle flash).flash]
  exact EcSlimloader.powerCycle_consistent hn hm _ hflash

/-- The application behind a boot, without a cut: a press stores the new state. -/
theorem finishCycle_pressed (hm : BlockSize m) (presses : Nat) (halt : Fault Halt)
    {flash : MockFlashBase pages 2 pageWords} (hflash : flash.Consistent) {st : State}
    (hloaded : (finishCycle MockFlashBase.withCut m presses none halt flash).loaded = some st)
    (hpress : 0 < (finishCycle MockFlashBase.withCut m presses none halt flash).presses) :
    persisted pages pageWords (finishCycle MockFlashBase.withCut m presses none halt flash).flash
      = some (newState st) := by
  by_cases hdark : ∀ s, halt ≠ .error (.handOver s)
  · rw [finishCycle_of_dark hdark] at hloaded
    cases hloaded
  · obtain ⟨slot, rfl⟩ := not_forall_not.mp hdark
    -- The cut of the bootloader does not reach the application, so its update is not interrupted.
    have hgood : ReadableFlash.Good (flash.withCut none) := ⟨rfl, hflash⟩
    obtain ⟨-, hrecord⟩ := main_undisturbed hm presses (.inl hgood)
    have hst : (Application.main m presses (flash.withCut none)).loaded = some st := hloaded
    rw [(main_record hm presses (flash.withCut none)).1] at hst
    have hpos : presses ≠ 0 := Nat.ne_of_gt hpress
    rw [if_neg hpos, Option.some.inj hst] at hrecord
    exact hrecord

/-- A press in a cycle whose application is not cut, on the i.MX RT. -/
theorem Imxrt.powerCycle_pressed (hn : BlockSize n) (hm : BlockSize m) {cycle : PowerUp H}
    (happ : cycle.appCut = none) {flash : MockFlashBase pages 2 pageWords}
    (hflash : flash.Consistent) {st : State}
    (hloaded : (Imxrt.powerCycle MockFlashBase.withCut n m {} cycle flash).loaded = some st)
    (hpress : 0 < (Imxrt.powerCycle MockFlashBase.withCut n m {} cycle flash).presses) :
    persisted pages pageWords (Imxrt.powerCycle MockFlashBase.withCut n m {} cycle flash).flash
      = some (newState st) := by
  have hboot : (Imxrt.boot n {} cycle.hardware (flash.withCut cycle.bootCut)).2.Consistent := by
    rw [(Imxrt.boot_simulated n {} cycle.hardware (flash.withCut cycle.bootCut)).1]
    exact boot_consistent hn _ hflash
  unfold Imxrt.powerCycle at hloaded hpress ⊢
  rw [happ] at hloaded hpress ⊢
  exact finishCycle_pressed hm cycle.presses _ hboot hloaded hpress

/-- The flash after power cycles. -/
def Imxrt.flashAfter {T E : Type} [NorFlash T E] (arm : Option Nat → T → T) (n m : Nat)
    (policy : BootStatePolicy) : List (PowerUp H) → T → T
  | [], flash => flash
  | cycle :: cycles, flash =>
      flashAfter arm n m policy cycles (Imxrt.powerCycle arm n m policy cycle flash).flash

/-- A flash that is consistent and names two slots stays so, over power cycles. -/
theorem Imxrt.flashAfter_invariant (hn : BlockSize n) (hm : BlockSize m)
    (cycles : List (PowerUp H)) {flash : MockFlashBase pages 2 pageWords}
    (hflash : flash.Consistent) :
    (flashAfter MockFlashBase.withCut n m {} cycles flash).Consistent ∧
      (TwoSlots (persisted pages pageWords flash) → TwoSlots (persisted pages pageWords
        (flashAfter MockFlashBase.withCut n m {} cycles flash))) := by
  induction cycles generalizing flash with
  | nil => exact ⟨hflash, fun h => h⟩
  | cons cycle cycles ih =>
      obtain ⟨hconsistent, hslots⟩ := ih (Imxrt.powerCycle_consistent hn hm cycle hflash)
      have hmoves := (Imxrt.powerCycle_spec hn hm cycle flash).moves
      exact ⟨hconsistent, fun h => hslots (h.moves hmoves)⟩

/-- The first slot that is tried is one of two. -/
theorem TwoSlots.attemptedSlot {record : Option State} (h : TwoSlots record) :
    (attemptedSlot (selectState {} record)).IsFirstTwo := by
  cases record with
  | none => exact .inl (by decide)
  | some st =>
      have hslots := h st rfl
      have hselect : selectState {} (some st) = st := rfl
      rw [hselect]
      unfold EcSlimloader.attemptedSlot
      cases st.status with
      | Initial => exact hslots.1
      | Attempting => exact hslots.2
      | Failed => exact hslots.2
      | Confirmed => exact hslots.1

/-- The state behind the first status update stands for the slot that is tried. -/
theorem runningSlot_attemptedState (state : State) :
    (attemptedState state).status ≠ .Initial ∧
      (runningSlot (attemptedState state)).1 = attemptedSlot state := by
  unfold runningSlot attemptedState attemptedSlot
  cases hst : state.status with
  | Initial => simp
  | Attempting => simp
  | Failed => simp [hst]
  | Confirmed => simp [hst]

/-- The slot that is tried first, in terms of the fields. -/
theorem attemptedSlot_new (st : Status) (t b : Slot) :
    attemptedSlot (State.new st t b) = match st with
      | .Initial => t
      | .Attempting => b
      | .Failed => b
      | .Confirmed => t := by
  cases st <;> simp [attemptedSlot]

/-- The state behind the first status update, in terms of the fields. -/
theorem attemptedState_new (st : Status) (t b : Slot) :
    attemptedState (State.new st t b) = match st with
      | .Initial => State.new .Attempting t b
      | .Attempting => State.new .Failed t b
      | .Failed => State.new .Failed t b
      | .Confirmed => State.new .Confirmed t b := by
  rw [attemptedState, State.status_new]
  cases st with
  | Initial => exact State.withStatus_new _ _ _ _
  | Attempting => exact State.withStatus_new _ _ _ _
  | Failed => rfl
  | Confirmed => rfl

end Board

/-! ### What a cycle without a cut does -/

/-- A cycle that comes to its end: the application in the slot of its record has run, and a press
is stored. -/
structure ComesUp {pages pageWords : Nat} (presses : Nat) (st : State)
    (r : CycleResult (MockFlashBase pages 2 pageWords)) : Prop where
  handOver : r.halt = .error (.handOver (runningSlot st).1)
  loaded : r.loaded = some st
  panicked : r.panicked = false
  record : r.flash.Reads (some (if presses = 0 then st else newState st))

section Up

variable {pages pageWords : Nat} [Geometry pages pageWords]
  {flash : MockFlashBase pages 2 pageWords}
  {r : CycleResult (MockFlashBase pages 2 pageWords)} {presses : Nat}

/-- Undisturbed cycles come to their end. -/
theorem Undisturbed.comesUp (h : Undisturbed presses flash r) :
    ComesUp presses (attemptedState (selectState {} (persisted pages pageWords flash))) r where
  handOver := by
    rw [(runningSlot_attemptedState _).2]
    exact h.handOver
  loaded := h.loaded
  panicked := h.panicked
  record := by
    rw [MockFlashBase.reads_iff, h.record]

end Up

/-- The moves of the bootloader from a record. -/
theorem BootMove.of_some {st : State} {record' : Option State} (h : BootMove (some st) record') :
    (st.status = .Initial ∧ record' = some (st.withStatus .Attempting)) ∨
      ((st.status = .Attempting ∨ st.status = .Confirmed) ∧
        record' = some (st.withStatus .Failed)) := by
  cases h with
  | attempt t b => exact .inl ⟨State.status_new _ _ _, by rw [State.withStatus_new]⟩
  | fail t b => exact .inr ⟨.inl (State.status_new _ _ _), by rw [State.withStatus_new]⟩
  | reject t b => exact .inr ⟨.inr (State.status_new _ _ _), by rw [State.withStatus_new]⟩

/-- An unconfirmed trial of `t` is over, with `b` as its backup. -/
def TrialOver (t b : Slot) (record : Option State) : Prop :=
  record = some (State.new .Attempting t b) ∨ record = some (State.new .Failed t b)

section TrialOver

variable {t b : Slot} {record record' loaded : Option State} {halt : Fault Halt} {presses : Nat}

/-- The bootloader does not start it again. -/
theorem TrialOver.bootMoves (h : TrialOver t b record)
    (hmoves : ReflTransGen BootMove record record') : TrialOver t b record' := by
  induction hmoves with
  | refl => exact h
  | tail _ hmove ih =>
      rcases ih with rfl | rfl
      · rcases hmove.of_some with ⟨hst, -⟩ | ⟨-, rfl⟩
        · rw [State.status_new] at hst
          cases hst
        · exact .inr (by rw [State.withStatus_new])
      · rcases hmove.of_some with ⟨hst, -⟩ | ⟨hst | hst, -⟩ <;> rw [State.status_new] at hst <;>
          cases hst

/-- A cycle without a press: it is still over, and only the backup can have run. -/
theorem PowerCycle.trialOver (h : PowerCycle record halt loaded 0 record')
    (hover : TrialOver t b record) :
    TrialOver t b record' ∧ ∀ s, halt = .error (.handOver s) → s = b := by
  -- The trial is over, so the bootloader has no attempt to make, and no image is on trial.
  have hnot : ¬ Pending record := by
    intro hpending
    rcases hover with rfl | rfl
    · exact absurd (hpending _ rfl) (by rw [State.status_new]; decide)
    · exact absurd (hpending _ rfl) (by rw [State.status_new]; decide)
  cases h with
  | dark _ _ hdark hmoves => exact ⟨hover.bootMoves hmoves, fun s hs => absurd hs (hdark s)⟩
  | ran slot st _ _ hmoves hst hslot htrial hpress =>
      have hst' := hover.bootMoves hmoves
      have hrecord : record' = some st := by
        rcases hpress with h | ⟨hpos, -⟩
        · exact h
        · exact absurd hpos (Nat.lt_irrefl 0)
      rw [hrecord]
      refine ⟨hst', fun s hs => ?_⟩
      cases hs
      rcases hst' with h | h
      · cases h
        exact absurd (htrial (State.status_new _ _ _)) hnot
      · cases h
        rw [← hslot, runningSlot_new, if_pos rfl]

end TrialOver

section Recovery

variable {pages pageWords : Nat} [Geometry pages pageWords] {n m : Nat} {H : Type}

/-- A cycle on a flash with a known record. -/
theorem Imxrt.powerCycle_comesUp (hn : BlockSize n) (hm : BlockSize m) {cycle : PowerUp H}
    {flash : MockFlashBase pages 2 pageWords} (hflash : flash.Consistent) {st st' : State}
    {slot : Slot} (hrecord : persisted pages pageWords flash = some st)
    (hslot : attemptedSlot st = slot) (hstate : attemptedState st = st')
    (hboot : cycle.bootCut = none ∨ Settled st) (happ : cycle.appCut = none ∨ cycle.presses = 0)
    (hboots : cycle.hardware.BootsSlot (MockFlashBase pages 2 pageWords) slot) :
    ComesUp cycle.presses st' (Imxrt.powerCycle MockFlashBase.withCut n m {} cycle flash) := by
  have hselect : selectState {} (persisted pages pageWords flash) = st := by
    rw [hrecord]
    rfl
  -- What `Undisturbed` says in terms of the selected state, this says in terms of the record.
  have hcycle : Undisturbed cycle.presses flash
      (Imxrt.powerCycle MockFlashBase.withCut n m {} cycle flash) := by
    refine Imxrt.powerCycle_undisturbed hn hm hflash ?_ happ ?_
    · rw [hselect]
      exact hboot
    · rw [hselect, hslot]
      exact hboots
  have hup := hcycle.comesUp
  rw [hselect, hstate] at hup
  exact hup

/-- Cycles on a confirmed image without a press: it keeps coming up, wherever cuts are planned. -/
theorem Imxrt.powerCycles_confirmed (hn : BlockSize n) (hm : BlockSize m) {t b : Slot}
    (cycles : List (PowerUp H)) {flash : MockFlashBase pages 2 pageWords}
    (hflash : flash.Consistent)
    (hrecord : persisted pages pageWords flash = some (State.new .Confirmed t b))
    (hcycles : ∀ cycle ∈ cycles, cycle.presses = 0 ∧
      cycle.hardware.BootsSlot (MockFlashBase pages 2 pageWords) t) :
    ∀ r ∈ Imxrt.powerCycles MockFlashBase.withCut n m {} cycles flash,
      ComesUp 0 (State.new .Confirmed t b) r := by
  induction cycles generalizing flash with
  | nil => exact fun r hr => absurd hr List.not_mem_nil
  | cons cycle cycles ih =>
      obtain ⟨⟨hpresses, hboots⟩, hrest⟩ := List.forall_mem_cons.mp hcycles
      -- Nothing is stored in such a cycle, so it does not matter where a cut is planned.
      have hup : ComesUp cycle.presses (State.new .Confirmed t b)
          (Imxrt.powerCycle MockFlashBase.withCut n m {} cycle flash) :=
        Imxrt.powerCycle_comesUp hn hm hflash hrecord (attemptedSlot_new _ _ _)
          (attemptedState_new _ _ _) (.inr (.inl (State.status_new _ _ _))) (.inr hpresses) hboots
      rw [hpresses] at hup
      intro r hr
      rcases List.mem_cons.mp hr with rfl | hr
      · exact hup
      · exact ih (Imxrt.powerCycle_consistent hn hm cycle hflash)
          (MockFlashBase.reads_iff.mp hup.record) hrest r hr

/-- Cycles without a press behind an unconfirmed trial: it stays over, and only the backup can
run. -/
theorem Imxrt.powerCycles_trialOver (hn : BlockSize n) (hm : BlockSize m) {t b : Slot}
    (cycles : List (PowerUp H)) {flash : MockFlashBase pages 2 pageWords}
    (hover : TrialOver t b (persisted pages pageWords flash))
    (hquiet : ∀ r ∈ Imxrt.powerCycles MockFlashBase.withCut n m {} cycles flash, r.presses = 0) :
    TrialOver t b (persisted pages pageWords
        (flashAfter MockFlashBase.withCut n m {} cycles flash)) ∧
      ∀ r ∈ Imxrt.powerCycles MockFlashBase.withCut n m {} cycles flash,
        ∀ s, r.halt = .error (.handOver s) → s = b := by
  -- Induction on the cycles. Without a press, no cycle makes a new request.
  induction cycles generalizing flash with
  | nil => exact ⟨hover, fun r hr => absurd hr List.not_mem_nil⟩
  | cons cycle cycles ih =>
      obtain ⟨hpresses, hrest⟩ := List.forall_mem_cons.mp hquiet
      have hcycle := Imxrt.powerCycle_spec hn hm cycle flash
      rw [hpresses] at hcycle
      obtain ⟨hover', hslot⟩ := hcycle.trialOver hover
      obtain ⟨hafter, hslots⟩ := ih hover' hrest
      refine ⟨hafter, fun r hr => ?_⟩
      rcases List.mem_cons.mp hr with rfl | hr
      · exact hslot
      · exact hslots r hr

end Recovery

/-- The example board boots both slots. -/
theorem plainPowerUp_boots {T : Type} (presses : Nat) {slot : Slot} (hslot : slot.IsFirstTwo) :
    (plainPowerUp presses).hardware.BootsSlot T slot := by
  have hpasses : ∀ journal : FlashJournal T,
      (Imxrt.ofHardware (plainPowerUp presses).hardware journal).Passes slot
        ((Imxrt.placedImage 0x10020000).getD · 0xff)
        (Imxrt.sampleSlot (Imxrt.placedImage 0x10020000)) := by
    intro journal
    refine ⟨?_, fun _ _ hlen => if_pos hlen, ?_, ?_, ?_⟩
    · rcases hslot with rfl | rfl <;> rfl
    · show 64 ≤ (0xec000 : UInt32).toNat
      decide
    · show (0xec000 : UInt32) < 0x100000
      decide
    · show checkHeader exampleConfig 0xec000 _ = .ok ()
      decide +kernel
  exact Imxrt.bootsSlot_of_passes hpasses (by decide +kernel) rfl

/-- An erased flash, with every word writable. -/
theorem consistent_erased : (.new none : MockFlashBase 2 2 2).Consistent := (good_erasedMock 2 2).2

/-- On the i.MX RT, after any power cycles with any cuts: a cycle without a cut comes up, if both
slots hold an image that boots. -/
theorem imxrt_recovers {pages pageWords : Nat} [Geometry pages pageWords] {n m : Nat} {H : Type}
    (hn : BlockSize n) (hm : BlockSize m) {flash : MockFlashBase pages 2 pageWords}
    (hflash : flash.Consistent) (hslots : TwoSlots (persisted pages pageWords flash))
    (cycles : List (Imxrt.PowerUp H)) {last : Imxrt.PowerUp H} (hboot : last.bootCut = none)
    (happ : last.appCut = none)
    (hboots : ∀ slot : Slot, slot.IsFirstTwo →
      last.hardware.BootsSlot (MockFlashBase pages 2 pageWords) slot) :
    ∃ st, st.status ≠ .Initial ∧ ComesUp last.presses st
      (Imxrt.powerCycle MockFlashBase.withCut n m {} last
        (Imxrt.flashAfter MockFlashBase.withCut n m {} cycles flash)) := by
  obtain ⟨hconsistent, htwo⟩ := Imxrt.flashAfter_invariant hn hm cycles hflash
  have hcycle := Imxrt.powerCycle_undisturbed hn hm hconsistent (.inl hboot) (.inl happ)
    (hboots _ (htwo hslots).attemptedSlot)
  exact ⟨_, (runningSlot_attemptedState _).1, hcycle.comesUp⟩

/-- A cut in the first status update, and then one in the confirmation. -/
theorem imxrt_recovers_cuts :
    ∃ st, st.status ≠ .Initial ∧ ComesUp 1 st
      (Imxrt.powerCycle MockFlashBase.withCut 4 2 {} (plainPowerUp 1)
        (Imxrt.flashAfter MockFlashBase.withCut 4 2 {}
          [{ plainPowerUp 0 with bootCut := some 1 }, { plainPowerUp 1 with appCut := some 1 }]
          (.new none : MockFlashBase 2 2 2))) := by
  have hslots : TwoSlots (persisted 2 2 (.new none : MockFlashBase 2 2 2)) := by
    have hempty : persisted 2 2 (.new none : MockFlashBase 2 2 2) = none := by decide +kernel
    rw [hempty]
    intro st hst
    cases hst
  exact imxrt_recovers ⟨by decide, by decide⟩ ⟨by decide, by decide⟩ consistent_erased hslots _ rfl
    rfl fun slot hslot => plainPowerUp_boots 1 hslot

/-- On the i.MX RT: USER1 is pressed in a confirmed image, and the other slot comes up in the next
cycle. If it is pressed there too, that image is confirmed, and it comes up in every cycle until
USER1 is pressed again. -/
theorem imxrt_update_completes {pages pageWords : Nat} [Geometry pages pageWords] {n m : Nat}
    {H : Type} (hn : BlockSize n) (hm : BlockSize m) {flash : MockFlashBase pages 2 pageWords}
    (hflash : flash.Consistent) {first second : Imxrt.PowerUp H} {t b : Slot}
    (hconfirmed : (Imxrt.powerCycle MockFlashBase.withCut n m {} first flash).loaded
      = some (State.new .Confirmed t b))
    (hpress : 0 < (Imxrt.powerCycle MockFlashBase.withCut n m {} first flash).presses)
    (hfirst : first.appCut = none) (hboot : second.bootCut = none) (happ : second.appCut = none)
    (hboots : second.hardware.BootsSlot (MockFlashBase pages 2 pageWords) (otherSlot t))
    {r : CycleResult (MockFlashBase pages 2 pageWords)}
    (hr : r = Imxrt.powerCycle MockFlashBase.withCut n m {} second
      (Imxrt.powerCycle MockFlashBase.withCut n m {} first flash).flash) :
    ComesUp second.presses (State.new .Attempting (otherSlot t) t) r ∧
      (0 < second.presses → ∀ cycles : List (Imxrt.PowerUp H),
        (∀ cycle ∈ cycles, cycle.presses = 0 ∧
          cycle.hardware.BootsSlot (MockFlashBase pages 2 pageWords) (otherSlot t)) →
        ∀ r' ∈ Imxrt.powerCycles MockFlashBase.withCut n m {} cycles r.flash,
          ComesUp 0 (State.new .Confirmed (otherSlot t) t) r') := by
  have hmid := Imxrt.powerCycle_consistent hn hm first hflash
  have hrecord := Imxrt.powerCycle_pressed hn hm hfirst hflash hconfirmed hpress
  rw [newState_new] at hrecord
  -- The second cycle: the request becomes an attempt.
  have hup : ComesUp second.presses (State.new .Attempting (otherSlot t) t) r := by
    rw [hr]
    exact Imxrt.powerCycle_comesUp hn hm hmid hrecord (attemptedSlot_new _ _ _)
      (attemptedState_new _ _ _) (.inl hboot) (.inl happ) hboots
  refine ⟨hup, fun hpos cycles hcycles => ?_⟩
  have hconsistent : r.flash.Consistent := by
    rw [hr]
    exact Imxrt.powerCycle_consistent hn hm second hmid
  -- A press in it confirms the image, and a confirmed image comes up in every cycle.
  have hdone := MockFlashBase.reads_iff.mp hup.record
  rw [if_neg (Nat.ne_of_gt hpos), newState_new] at hdone
  exact Imxrt.powerCycles_confirmed hn hm cycles hconsistent hdone hcycles

/-- The first slot is confirmed, asks for the second one, and the second one is confirmed. It
comes up twice more, with a cut planned for the first byte that is written. -/
theorem imxrt_update_completes_second :
    ∃ r : CycleResult (MockFlashBase 2 2 2), ComesUp 1 (State.new .Attempting .S1 .S0) r ∧
      ∀ r' ∈ Imxrt.powerCycles MockFlashBase.withCut 4 2 {}
          [{ plainPowerUp 0 with bootCut := some 0 }, plainPowerUp 0] r.flash,
        ComesUp 0 (State.new .Confirmed .S1 .S0) r' := by
  have hconfirmed : (Imxrt.powerCycle MockFlashBase.withCut 4 2 {} (plainPowerUp 1)
      askedResults.1.flash).loaded = some (State.new .Confirmed .S0 .S0) := by decide +kernel
  have hflash : askedResults.1.flash.Consistent :=
    Imxrt.powerCycle_consistent ⟨by decide, by decide⟩ ⟨by decide, by decide⟩ (plainPowerUp 1)
      consistent_erased
  obtain ⟨hup, hcycles⟩ := imxrt_update_completes ⟨by decide, by decide⟩ ⟨by decide, by decide⟩
    hflash hconfirmed (by decide +kernel) rfl rfl rfl (plainPowerUp_boots 1 (.inr rfl)) rfl
  refine ⟨_, hup, hcycles (by decide) _ fun cycle hcycle => ?_⟩
  rcases List.mem_cons.mp hcycle with rfl | hcycle
  · exact ⟨rfl, plainPowerUp_boots 0 (.inr rfl)⟩
  · rw [List.mem_singleton.mp hcycle]
    exact ⟨rfl, plainPowerUp_boots 0 (.inr rfl)⟩

/-- On the i.MX RT: an image that is tried and not confirmed does not run again, whatever cuts
follow, until USER1 is pressed. The backup comes up in the first cycle without a cut. -/
theorem imxrt_rolls_back {pages pageWords : Nat} [Geometry pages pageWords] {n m : Nat}
    {H : Type} (hn : BlockSize n) (hm : BlockSize m) {flash : MockFlashBase pages 2 pageWords}
    (hflash : flash.Consistent) {t b : Slot}
    (hrecord : flash.Reads (some (State.new .Attempting t b))) (cycles : List (Imxrt.PowerUp H))
    (hquiet : ∀ r ∈ Imxrt.powerCycles MockFlashBase.withCut n m {} cycles flash, r.presses = 0)
    {last : Imxrt.PowerUp H} (hboot : last.bootCut = none) (happ : last.appCut = none)
    (hboots : last.hardware.BootsSlot (MockFlashBase pages 2 pageWords) b) :
    (∀ r ∈ Imxrt.powerCycles MockFlashBase.withCut n m {} cycles flash,
      ∀ s, r.halt = .error (.handOver s) → s = b) ∧
      ComesUp last.presses (State.new .Failed t b)
        (Imxrt.powerCycle MockFlashBase.withCut n m {} last
          (Imxrt.flashAfter MockFlashBase.withCut n m {} cycles flash)) := by
  obtain ⟨hover, hslots⟩ := Imxrt.powerCycles_trialOver hn hm cycles
    (.inl (MockFlashBase.reads_iff.mp hrecord)) hquiet
  refine ⟨hslots, ?_⟩
  have hconsistent := (Imxrt.flashAfter_invariant hn hm cycles hflash).1
  rcases hover with hover | hover
  · exact Imxrt.powerCycle_comesUp hn hm hconsistent hover (attemptedSlot_new _ _ _)
      (attemptedState_new _ _ _) (.inl hboot) (.inl happ) hboots
  · exact Imxrt.powerCycle_comesUp hn hm hconsistent hover (attemptedSlot_new _ _ _)
      (attemptedState_new _ _ _) (.inl hboot) (.inl happ) hboots

/-- The flash behind `askedResults` and a trial of the second slot that is not confirmed. -/
def triedFlash : MockFlashBase 2 2 2 :=
  (Imxrt.powerCycle MockFlashBase.withCut 4 2 {} (plainPowerUp 0) askedResults.2.flash).flash

/-- The first status update behind the trial is cut, and the first slot comes up in the next
cycle. -/
theorem imxrt_rolls_back_cut :
    ComesUp 0 (State.new .Failed .S1 .S0)
      (Imxrt.powerCycle MockFlashBase.withCut 4 2 {} (plainPowerUp 0)
        (Imxrt.flashAfter MockFlashBase.withCut 4 2 {}
          [{ plainPowerUp 0 with bootCut := some 1 }] triedFlash)) := by
  have hflash : triedFlash.Consistent := by
    have hn : BlockSize 4 := ⟨by decide, by decide⟩
    have hm : BlockSize 2 := ⟨by decide, by decide⟩
    have hfirst : askedResults.1.flash.Consistent :=
      Imxrt.powerCycle_consistent hn hm (plainPowerUp 1) consistent_erased
    have hsecond : askedResults.2.flash.Consistent :=
      Imxrt.powerCycle_consistent hn hm (plainPowerUp 2) hfirst
    exact Imxrt.powerCycle_consistent hn hm (plainPowerUp 0) hsecond
  have hrecord : triedFlash.Reads (some (State.new .Attempting .S1 .S0)) :=
    MockFlashBase.reads_iff.mpr (by decide +kernel)
  exact (imxrt_rolls_back ⟨by decide, by decide⟩ ⟨by decide, by decide⟩ hflash hrecord
    [{ plainPowerUp 0 with bootCut := some 1 }] (by decide +kernel) rfl rfl
    (plainPowerUp_boots 0 (.inl rfl))).2

end EcSlimloader
