import EcSlimloader.Proofs.Boot.Outcome
import EcSlimloader.Proofs.Journal.Layout

/-!
# `EcSlimloader.Proofs.Boot.Wear`: a boot loop does not wear the journal

`boot_loop_wear` is about any number of boots on a flash that does not fail, with a policy
that accepts every state and with verdicts that may change from boot to boot. At most two
records are written in all of them, every boot selects the same slots, and after a boot that
ends with the status `Failed` nothing is written or erased any more.

`statusUpdates` lists the states that one run of `start` stores. `boot_eq` says that a boot
is these updates of the journal, as far as the flash is concerned. `updatesLeft` is the
budget: a boot spends one of it for each update, and no boot gives anything back.

The updates of one run are computed from the verdicts and the selected state alone, so the number of
writes is a fact about lists (`length_statusUpdates_add`). That each update is one write at most is
a fact about the journal (`countP_isWrite_storeOps`). The two meet in `writeCount_bootEach`.

The flash has a log. Without it "nothing is written" could be said only of the content, and a write
of the same bytes would go unnoticed.
-/

set_option autoImplicit false

namespace EcSlimloader

open FlashJournal

/-! ### The updates of one run -/

/-- The states that are stored before the first attempt. -/
def intentUpdates (state : State) : List State :=
  match state.status with
  | .Initial => [attemptedState state]
  | .Attempting => [attemptedState state]
  | .Failed => []
  | .Confirmed => []

/-- The states that are stored after the first attempt. -/
def failureUpdates (state : State) : Verdict → List State
  | .accept => []
  | .reject _ => if state.status ≠ .Failed then [state.withStatus .Failed] else []
  | .cut => []

/-- The states that a run stores, in order. -/
def statusUpdates (state : State) (verdict : Slot → Verdict) : List State :=
  intentUpdates state ++ failureUpdates (attemptedState state) (verdict (attemptedSlot state))

section Runs

variable {T E : Type} [NorFlash T E] {n : Nat}

/-- Store the states one after the other, if no `set` fails. -/
def storeEach (n : Nat) : List State → FlashJournal T → Option (FlashJournal T)
  | [], j => some j
  | s :: states, j =>
      match set n s j with
      | .ok _ j' => storeEach n states j'
      | .error _ _ => none

/-- Storing a list begins with its first state. -/
theorem storeEach_cons {s : State} {states : List State} {j j' : FlashJournal T}
    (h : storeEach n (s :: states) j = some j') :
    ∃ j₁, set n s j = .ok () j₁ ∧ storeEach n states j₁ = some j' := by
  unfold storeEach at h
  cases hset : set n s j with
  | ok u j₁ =>
      rw [hset] at h
      exact ⟨j₁, rfl, h⟩
  | error e j₁ =>
      rw [hset] at h
      cases h

/-- Storing one list behind another goes through a handle in between. -/
theorem storeEach_append {states states' : List State} {j j' : FlashJournal T}
    (h : storeEach n (states ++ states') j = some j') :
    ∃ j₁, storeEach n states j = some j₁ ∧ storeEach n states' j₁ = some j' := by
  induction states generalizing j with
  | nil => exact ⟨j, rfl, h⟩
  | cons s states ih =>
      obtain ⟨j₁, hset, hrest⟩ := storeEach_cons h
      obtain ⟨j₂, hstates, hstates'⟩ := ih hrest
      refine ⟨j₂, ?_, hstates'⟩
      rw [storeEach, hset]
      exact hstates

/-- A status update that is stored. -/
theorem setStatus_ok {state : State} {status : Status} {board : BenchBoard T}
    {j : FlashJournal T} (h : set n (state.withStatus status) board.journal = .ok () j) :
    setStatus n state status board
      = .ok (state.withStatus status) { board with journal := j } := by
  rw [setStatus_run, h]

/-- The two cases of `determineIntent` that update the status. -/
theorem setStatus_intent {state : State} {status : Status} {intent : BootIntent}
    {board : BenchBoard T} {j : FlashJournal T}
    (h : storeEach n [state.withStatus status] board.journal = some j) :
    (do
        let state ← setStatus n state status
        pure (state, intent) : Exec Halt (BenchBoard T) (State × BootIntent)) board
      = .ok (state.withStatus status, intent) { board with journal := j } := by
  obtain ⟨j₁, hset, hj⟩ := storeEach_cons h
  cases hj
  rw [Exec.bind_ok (setStatus_ok hset)]
  rfl

/-- "Determine our intended slot to boot", when the updates are stored. -/
theorem determineIntent_ok {state : State} {board : BenchBoard T} {j : FlashJournal T}
    (h : storeEach n (intentUpdates state) board.journal = some j) :
    ∃ intent, determineIntent n state board
        = .ok (attemptedState state, intent) { board with journal := j } ∧
      intendedSlot (attemptedState state) intent = attemptedSlot state := by
  unfold determineIntent
  unfold intentUpdates at h
  cases hst : state.status with
  | Initial =>
      simp only [hst, attemptedState, attemptedSlot] at h ⊢
      exact ⟨.Target, setStatus_intent h, State.target_withStatus state .Attempting⟩
  | Attempting =>
      simp only [hst, attemptedState, attemptedSlot] at h ⊢
      exact ⟨.Backup, setStatus_intent h, State.backup_withStatus state .Failed⟩
  | Failed =>
      -- The other two store nothing, so the journal is still the one before.
      simp only [hst, attemptedState, attemptedSlot] at h ⊢
      cases h
      exact ⟨.Backup, rfl, rfl⟩
  | Confirmed =>
      simp only [hst, attemptedState, attemptedSlot] at h ⊢
      cases h
      exact ⟨.Target, rfl, rfl⟩

/-- The run of `check_and_boot` on the bench board. -/
theorem checkAndBoot_run (slot : Slot) (board : BenchBoard T) :
    (Board.checkAndBoot slot : Exec Halt (BenchBoard T) BootError) board
      = match board.verdict slot with
        | .accept => .error (.error (.handOver slot)) { board with tried := board.tried ++ [slot] }
        | .reject e => .ok e { board with tried := board.tried ++ [slot] }
        | .cut => .error (.error .powerLoss) { board with tried := board.tried ++ [slot] } := by
  have hrun : (Board.checkAndBoot slot : Exec Halt (BenchBoard T) BootError) board
      = (match board.verdict slot with
        | .accept => Exec.fail (.handOver slot)
        | .reject e => pure e
        | .cut => Exec.fail .powerLoss : Exec Halt (BenchBoard T) BootError)
        { board with tried := board.tried ++ [slot] } := rfl
  rw [hrun]
  cases board.verdict slot with
  | accept => rfl
  | reject e => rfl
  | cut => rfl

/-- Whatever the last attempt does, it leaves the journal alone. -/
theorem lastAttempt_journal (slot : Slot) (board : BenchBoard T) :
    ∃ halt board', ((do
        let _error ← Board.checkAndBoot slot
        Board.abort) : Exec Halt (BenchBoard T) Empty) board = .error halt board' ∧
      board'.journal = board.journal := by
  -- `check_and_boot` of the bench board has three outcomes, and none of them writes.
  have hrun := checkAndBoot_run slot board
  cases hv : board.verdict slot with
  | accept =>
      rw [hv] at hrun
      exact ⟨_, _, Exec.bind_error hrun, rfl⟩
  | reject e =>
      rw [hv] at hrun
      exact ⟨_, _, Exec.bind_ok hrun, rfl⟩
  | cut =>
      rw [hv] at hrun
      exact ⟨_, _, Exec.bind_error hrun, rfl⟩

/-- The attempts, when the updates are stored. -/
theorem attemptBoot_ok {state : State} {slot : Slot} {board : BenchBoard T} {j : FlashJournal T}
    (h : storeEach n (failureUpdates state (board.verdict slot)) board.journal = some j) :
    ∃ halt board', attemptBoot n state slot board = .error halt board' ∧ board'.journal = j := by
  have hrun := checkAndBoot_run slot board
  unfold attemptBoot
  cases hv : board.verdict slot with
  | accept =>
      rw [hv] at hrun h
      cases h
      exact ⟨_, _, Exec.bind_error hrun, rfl⟩
  | cut =>
      rw [hv] at hrun h
      cases h
      exact ⟨_, _, Exec.bind_error hrun, rfl⟩
  | reject e =>
      rw [hv] at hrun h
      rw [Exec.bind_ok hrun]
      -- The board after `markFailed`. What follows does not touch the journal.
      obtain ⟨state', hmark⟩ : ∃ state', (markFailed n state : Exec Halt (BenchBoard T) State)
          { board with tried := board.tried ++ [slot] }
          = .ok state' { board with tried := board.tried ++ [slot], journal := j } := by
        unfold markFailed
        unfold failureUpdates at h
        by_cases hst : state.status ≠ .Failed
        · rw [if_pos hst] at h ⊢
          obtain ⟨j₁, hset, hj⟩ := storeEach_cons h
          cases hj
          have hset' : set n (state.withStatus .Failed)
              ({ board with tried := board.tried ++ [slot] } : BenchBoard T).journal
              = .ok () j := hset
          exact ⟨_, setStatus_ok hset'⟩
        · rw [if_neg hst] at h ⊢
          cases h
          exact ⟨state, rfl⟩
      rw [Exec.bind_ok hmark]
      split
      · exact lastAttempt_journal _ _
      · exact ⟨_, _, rfl, rfl⟩

/-- As far as the flash is concerned, a boot is its status updates. -/
theorem boot_eq {policy : BootStatePolicy} {verdict : Slot → Verdict} {t t' : T}
    {j j' : FlashJournal T} (hnew : new n t = .ok j t')
    (h : storeEach n (statusUpdates (selectState policy j.get) verdict) j = some j') :
    (boot n policy verdict t).flash = j'.inner := by
  obtain ⟨j₁, hintent, hfailure⟩ := storeEach_append h
  have hboard : storeEach n (intentUpdates (selectState policy j.get))
      (BenchBoard.mk j verdict []).journal = some j₁ := hintent
  -- The second part starts with the board that the first part has left.
  have hboard₁ : storeEach n (failureUpdates (attemptedState (selectState policy j.get))
      ((BenchBoard.mk j₁ verdict []).verdict (attemptedSlot (selectState policy j.get))))
      (BenchBoard.mk j₁ verdict []).journal = some j' := hfailure
  obtain ⟨intent, hrun, hslot⟩ := determineIntent_ok hboard
  obtain ⟨halt, board', hattempt, hj'⟩ := attemptBoot_ok hboard₁
  have hstart : (start n policy : Exec Halt (BenchBoard T) Empty)
      { journal := j, verdict, tried := [] } = .error halt board' := by
    rw [start, Exec.get_bind]
    rw [show Board.journal ({ journal := j, verdict, tried := [] } : BenchBoard T) = j from rfl,
      Exec.bind_ok hrun]
    simp only [hslot]
    exact hattempt
  unfold boot
  rw [hnew]
  simp only [hstart, hj']

end Runs

/-! ### The budget -/

/-- How many updates there can be from a state on. -/
def updatesLeft (state : State) : Nat :=
  match state.status with
  | .Initial => 2
  | .Attempting => 1
  | .Failed => 0
  | .Confirmed => 1

/-- At most two updates are left, from whatever state. -/
theorem updatesLeft_le (state : State) : updatesLeft state ≤ 2 := by
  unfold updatesLeft
  cases state.status <;> decide

/-- The state that the next boot selects, with a policy that accepts every state. -/
def nextState (state : State) (verdict : Slot → Verdict) : State :=
  (statusUpdates state verdict).getLast?.getD state

/-- The states that can come next are `attemptedState` and, after a rejected image, the same
with the status `Failed`. -/
theorem nextState_cases (state : State) (verdict : Slot → Verdict) :
    (statusUpdates state verdict = intentUpdates state ∧
      nextState state verdict = attemptedState state) ∨
    ((attemptedState state).status ≠ .Failed ∧
      statusUpdates state verdict
        = intentUpdates state ++ [(attemptedState state).withStatus .Failed] ∧
      nextState state verdict = (attemptedState state).withStatus .Failed) := by
  -- The state behind the first updates is the last one of them, or the selected state if there is
  -- none.
  have hintent : (intentUpdates state).getLast?.getD state = attemptedState state := by
    unfold intentUpdates attemptedState
    cases state.status with
    | Initial => rfl
    | Attempting => rfl
    | Failed => rfl
    | Confirmed => rfl
  unfold nextState statusUpdates failureUpdates
  cases verdict (attemptedSlot state) with
  | accept => exact .inl ⟨List.append_nil _, by rw [List.append_nil, hintent]⟩
  | cut => exact .inl ⟨List.append_nil _, by rw [List.append_nil, hintent]⟩
  | reject e =>
      by_cases hst : (attemptedState state).status ≠ .Failed
      · rw [if_pos hst]
        exact .inr ⟨hst, rfl, by rw [List.getLast?_concat, Option.getD_some]⟩
      · rw [if_neg hst]
        exact .inl ⟨List.append_nil _, by rw [List.append_nil, hintent]⟩

/-- The updates are paid from the budget. -/
theorem length_statusUpdates_add (state : State) (verdict : Slot → Verdict) :
    (statusUpdates state verdict).length + updatesLeft (nextState state verdict)
      ≤ updatesLeft state := by
  rcases nextState_cases state verdict with ⟨hupdates, hnext⟩ | ⟨hst, hupdates, hnext⟩
  · rw [hupdates, hnext]
    unfold intentUpdates updatesLeft attemptedState
    cases hstatus : state.status <;> simp [hstatus]
  · rw [hupdates, hnext, List.length_append]
    unfold attemptedState at hst
    unfold intentUpdates updatesLeft
    cases hstatus : state.status <;> simp [hstatus] at hst ⊢

/-- The slots stay. -/
theorem nextState_slots (state : State) (verdict : Slot → Verdict) :
    (nextState state verdict).target = state.target ∧
      (nextState state verdict).backup = state.backup := by
  have htarget : (attemptedState state).target = state.target := by
    unfold attemptedState
    cases state.status with
    | Initial => exact State.target_withStatus state _
    | Attempting => exact State.target_withStatus state _
    | Failed => rfl
    | Confirmed => rfl
  rcases nextState_cases state verdict with ⟨-, hnext⟩ | ⟨-, -, hnext⟩
  · rw [hnext]
    exact ⟨htarget, backup_attemptedState state⟩
  · rw [hnext, State.target_withStatus, State.backup_withStatus]
    exact ⟨htarget, backup_attemptedState state⟩

/-- From a failed state there are no updates. -/
theorem statusUpdates_of_failed {state : State} (h : state.status = .Failed)
    (verdict : Slot → Verdict) : statusUpdates state verdict = [] := by
  have hle := length_statusUpdates_add state verdict
  have hzero : updatesLeft state = 0 := by
    rw [updatesLeft, h]
  exact List.eq_nil_of_length_eq_zero (by omega)

/-! ### The runs

A boot spends its updates from the budget of the selected state, and leaves the budget of the next
one. With nothing left, the next boot selects a failed state and stores nothing. -/

/-- The request is a write. -/
def FlashOp.isWrite : FlashOp → Bool
  | .write _ _ => true
  | .erase _ _ => false

/-- How many writes the log holds. -/
def LoggedFlash.writeCount {T : Type} (t : LoggedFlash T) : Nat := t.ops.countP FlashOp.isWrite

/-- An update writes one record. -/
theorem countP_isWrite_storeOps (pages pageWords : Nat) (w : Nat → Word) (s : State) :
    ((storeOps pages pageWords w s).map (WordOp.request pageWords)).countP FlashOp.isWrite
      = 1 := by
  unfold storeOps
  split
  · rfl
  · split <;> rfl
  · rfl

/-- A `set` asks for at most one write, in each branch of `storeOps` and for the current state. -/
theorem countP_isWrite_setOps (pages pageWords : Nat) (w : Nat → Word) (s : State) :
    (setOps pages pageWords w s).countP FlashOp.isWrite ≤ 1 := by
  unfold setOps
  split
  · exact Nat.zero_le 1
  · exact Nat.le_of_eq (countP_isWrite_storeOps pages pageWords w s)

section Loop

variable {pages pageWords : Nat} [Geometry pages pageWords] {n : Nat}

/-- Storing states on a good flash: each of them costs at most one write. -/
theorem storeEach_good (hn : BlockSize n) (states : List State)
    {j : FlashJournal (LoggedMock pages pageWords)} (hsync : InSync j)
    (hgood : ReadableFlash.Good j.inner) :
    ∃ j', storeEach n states j = some j' ∧ InSync j' ∧ ReadableFlash.Good j'.inner ∧
      j'.get = states.getLast?.or j.get ∧
      j'.inner.writeCount ≤ j.inner.writeCount + states.length := by
  induction states generalizing j with
  | nil => exact ⟨j, rfl, hsync, hgood, rfl, Nat.le_refl _⟩
  | cons s states ih =>
      obtain ⟨j₁, hset, hsync₁, hgood₁, hget₁, -, hops⟩ :=
        set_good LoggedMock.steadyReads hn s hsync hgood
      obtain ⟨j', hstore, hsync', hgood', hget', hcount⟩ := ih hsync₁ hgood₁
      -- A `set` makes one write, or none for the current state.
      have hcount₁ : j₁.inner.writeCount ≤ j.inner.writeCount + 1 := by
        rw [LoggedFlash.writeCount, hops, List.countP_append]
        exact Nat.add_le_add_left (countP_isWrite_setOps _ _ _ s) _
      refine ⟨j', ?_, hsync', hgood', ?_, ?_⟩
      · rw [storeEach, hset]
        exact hstore
      · rw [hget', hget₁, List.getLast?_cons, Option.or_some]
        cases states.getLast? <;> rfl
      · rw [List.length_cons]
        omega

/-- The state that a boot on this flash selects. -/
def selected (policy : BootStatePolicy) (t : LoggedMock pages pageWords) : State :=
  selectState policy (persisted pages pageWords t)

/-- One boot on a good flash. -/
theorem boot_good (hn : BlockSize n) {policy : BootStatePolicy}
    (hpolicy : ∀ state, policy.isValidState state = true) (verdict : Slot → Verdict)
    {t : LoggedMock pages pageWords} (hgood : ReadableFlash.Good t) :
    ReadableFlash.Good (boot n policy verdict t).flash ∧
      selected policy (boot n policy verdict t).flash = nextState (selected policy t) verdict ∧
      (boot n policy verdict t).flash.writeCount
        ≤ t.writeCount + (statusUpdates (selected policy t) verdict).length ∧
      (statusUpdates (selected policy t) verdict = [] → (boot n policy verdict t).flash = t) := by
  have hnew := LoggedMock.new_run_eq hn t
  have hsync : InSync (FlashJournal.mk t (scanCache t.flash.data.toList)) := rfl
  have hget : (FlashJournal.mk t (scanCache t.flash.data.toList)).get
      = persisted pages pageWords t := hsync.get_eq
  obtain ⟨j', hstore, hsync', hgood', hget', hcount⟩ :=
    storeEach_good hn (statusUpdates (selected policy t) verdict) hsync hgood
  have hboot : (boot n policy verdict t).flash = j'.inner := by
    refine boot_eq hnew ?_
    rw [hget]
    exact hstore
  rw [hboot]
  refine ⟨hgood', ?_, hcount, fun hnil => ?_⟩
  · -- A state of the journal is accepted, so the last update is what is selected next.
    rw [selected, ← hsync'.get_eq, hget', hget, nextState]
    cases (statusUpdates (selected policy t) verdict).getLast? with
    | none => rfl
    | some state => exact if_pos (hpolicy state)
  · rw [hnil] at hstore
    cases hstore
    rfl

/-- The flash holds a record with the status `Failed`. -/
def FailedRecord (t : LoggedMock pages pageWords) : Prop :=
  ∃ state, t.flash.Reads (some state) ∧ state.status = .Failed

/-- A boot on this flash selects a state with these slots. -/
def SelectsSlots (policy : BootStatePolicy) (target backup : Slot)
    (t : LoggedMock pages pageWords) : Prop :=
  ∃ record, t.flash.Reads record ∧ (selectState policy record).target = target ∧
    (selectState policy record).backup = backup

/-- Boots that do not wear the flash `t` that they started with. -/
structure BootLoop (policy : BootStatePolicy) (t : LoggedMock pages pageWords)
    (results : List (BootResult (LoggedMock pages pageWords))) : Prop where
  /-- All the boots together write at most two records. -/
  writes : ∀ r ∈ results, r.flash.writeCount ≤ t.writeCount + 2
  /-- Every boot selects the same slots. -/
  slots : ∃ target backup, ∀ f ∈ t :: results.map BootResult.flash,
    SelectsSlots policy target backup f
  /-- A failed record ends the requests to write or to erase. -/
  quiet : (t :: results.map BootResult.flash).Pairwise fun f f' =>
    FailedRecord f → f'.ops = f.ops

omit [Geometry pages pageWords] in
/-- A list of boots begins with its first boot. -/
theorem bootEach_cons (policy : BootStatePolicy) (verdict : Slot → Verdict)
    (verdicts : List (Slot → Verdict)) (t : LoggedMock pages pageWords) :
    bootEach n policy (verdict :: verdicts) t
      = boot n policy verdict t :: bootEach n policy verdicts (boot n policy verdict t).flash :=
  rfl

section Policy

variable {policy : BootStatePolicy} (hpolicy : ∀ state, policy.isValidState state = true)
include hpolicy

/-- The writes of all boots are paid from the budget. -/
theorem writeCount_bootEach (hn : BlockSize n) (verdicts : List (Slot → Verdict))
    {t : LoggedMock pages pageWords} (hgood : ReadableFlash.Good t) :
    ∀ r ∈ bootEach n policy verdicts t,
      r.flash.writeCount ≤ t.writeCount + updatesLeft (selected policy t) := by
  induction verdicts generalizing t with
  | nil => exact fun r hr => absurd hr List.not_mem_nil
  | cons verdict verdicts ih =>
      -- This boot pays for its writes, and the next state has the rest of the budget.
      obtain ⟨hgood', hnext, hcount, -⟩ := boot_good hn hpolicy verdict hgood
      have hbudget := length_statusUpdates_add (selected policy t) verdict
      intro r hr
      rw [bootEach_cons, List.mem_cons] at hr
      rcases hr with rfl | hr
      · omega
      · have hrest := ih hgood' r hr
        rw [hnext] at hrest
        omega

/-- No boot changes the slots. -/
theorem slots_bootEach (hn : BlockSize n) (verdicts : List (Slot → Verdict))
    {t : LoggedMock pages pageWords} (hgood : ReadableFlash.Good t) :
    ∀ f ∈ t :: (bootEach n policy verdicts t).map BootResult.flash,
      SelectsSlots policy (selected policy t).target (selected policy t).backup f := by
  have hself : SelectsSlots policy (selected policy t).target (selected policy t).backup t :=
    ⟨persisted pages pageWords t, MockFlashBase.reads_iff.mpr rfl, rfl, rfl⟩
  induction verdicts generalizing t with
  | nil =>
      intro f hf
      rw [List.mem_singleton.mp hf]
      exact hself
  | cons verdict verdicts ih =>
      obtain ⟨hgood', hnext, -, -⟩ := boot_good hn hpolicy verdict hgood
      -- A status update keeps the slots, so the next boot selects the same ones.
      obtain ⟨htarget, hbackup⟩ := nextState_slots (selected policy t) verdict
      intro f hf
      rcases List.mem_cons.mp hf with rfl | hf
      · exact hself
      · have hrest := ih hgood'
          ⟨_, MockFlashBase.reads_iff.mpr rfl, rfl, rfl⟩ f hf
        rw [hnext, htarget, hbackup] at hrest
        exact hrest

/-- A boot on a flash with a failed record leaves it as it is. -/
theorem boot_of_failedRecord (hn : BlockSize n) (verdict : Slot → Verdict)
    {t : LoggedMock pages pageWords} (hgood : ReadableFlash.Good t) (hfailed : FailedRecord t) :
    (boot n policy verdict t).flash = t := by
  obtain ⟨state, hreads, hstatus⟩ := hfailed
  obtain ⟨-, -, -, hidle⟩ := boot_good hn hpolicy verdict hgood
  -- The record is selected, because the policy accepts it. Nothing is stored for `Failed`.
  refine hidle (statusUpdates_of_failed ?_ verdict)
  have hpersisted : persisted pages pageWords t = some state := MockFlashBase.reads_iff.mp hreads
  have hselected : selected policy t = state := by
    rw [selected, hpersisted]
    exact if_pos (hpolicy state)
  rw [hselected]
  exact hstatus

/-- The flash of a failed record does not change any more. -/
theorem quiet_bootEach (hn : BlockSize n) (verdicts : List (Slot → Verdict))
    {t : LoggedMock pages pageWords} (hgood : ReadableFlash.Good t) :
    (t :: (bootEach n policy verdicts t).map BootResult.flash).Pairwise fun f f' =>
      FailedRecord f → f'.ops = f.ops := by
  induction verdicts generalizing t with
  | nil => exact List.pairwise_singleton _ t
  | cons verdict verdicts ih =>
      obtain ⟨hgood', -⟩ := boot_good hn hpolicy verdict hgood
      have hrest := ih hgood'
      refine List.Pairwise.cons ?_ hrest
      intro f hf hfailed
      have hsame := boot_of_failedRecord hpolicy hn verdict hgood hfailed
      rcases List.mem_cons.mp hf with rfl | hf
      · rw [hsame]
      · -- The first boot has left the failed record where it was.
        have hops := List.rel_of_pairwise_cons hrest hf
        rw [hsame] at hops
        exact hops hfailed

end Policy

/-- A boot loop does not wear the journal. -/
theorem boot_loop_wear (hn : BlockSize n) (policy : BootStatePolicy)
    (hpolicy : ∀ state, policy.isValidState state = true) (t : LoggedMock pages pageWords)
    (hcut : t.flash.bytesUntilShutoff = none) (hflags : t.flash.Consistent)
    (verdicts : List (Slot → Verdict)) : BootLoop policy t (bootEach n policy verdicts t) := by
  have hgood : ReadableFlash.Good t := ⟨hcut, hflags⟩
  refine ⟨?_, ⟨_, _, slots_bootEach hpolicy hn verdicts hgood⟩,
    quiet_bootEach hpolicy hn verdicts hgood⟩
  -- The budget of any state is at most two.
  intro r hr
  have hwrites := writeCount_bootEach hpolicy hn verdicts hgood r hr
  have hbudget := updatesLeft_le (selected policy t)
  omega

end Loop

/-- Four boots on an erased flash, with images that are rejected from the second boot on. -/
theorem boot_loop_wear_four :
    BootLoop {} (erasedMock 2 2) (bootEach 2 {} [fun _ => .accept, fun _ => .reject .Markers,
      fun _ => .reject .Authenticate, fun _ => .accept] (erasedMock 2 2)) :=
  boot_loop_wear ⟨by decide, by decide⟩ {} (fun _ => rfl) (erasedMock 2 2) rfl
    (good_erasedMock 2 2).2 _

end EcSlimloader
