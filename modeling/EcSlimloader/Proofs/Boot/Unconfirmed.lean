import EcSlimloader.Proofs.Boot.Start

/-!
# `EcSlimloader.Proofs.Boot.Unconfirmed`: an unconfirmed image runs at most once

The journal holds `(Initial, t, b)`, and the application never writes to it.
`unconfirmed_once` is about any sequence of boots, each with its own verdicts and
its own power cut: slot `t` is given control at most once, a journal that is opened
then reads `(Attempting, t, b)`, and after it only slot `b` is given control.

The invariant is that the record is `(st, t, b)`, where `st` has only moved along
`Initial`, `Attempting`, `Failed`. `Boots.unconfirmed` is its step, and
`Boots.unconfirmed` also says that a boot which hands over to `t` moves the status
away from `Initial`.

The step is a fact about one boot, and the sequence an induction over it. `UnconfirmedOnce.cons`
puts a boot in front of a sequence: if it gives control to `t`, the status moves away from
`Initial`, and `unconfirmed_of_status` says of the rest that `t` is not started any more.

Each boot has a power cut of its own, so the record after it may be the one from before. The bound
still holds, because a boot whose update was cut hands over to nobody.
-/

set_option autoImplicit false

namespace EcSlimloader

open FlashJournal
open Relation (ReflTransGen)

/-- One move of the status of an image that is never confirmed. -/
inductive Status.Move : Status → Status → Prop where
  | attempt : Move .Initial .Attempting
  | fail : Move .Attempting .Failed

/-- Moves of the status. -/
abbrev Status.Moves : Status → Status → Prop := ReflTransGen Status.Move

/-- A move ends in a trial or in a failure. -/
theorem Status.Move.target_ne {st st' : Status} (h : st.Move st') :
    st' ≠ .Initial ∧ st' ≠ .Confirmed := by
  cases h with
  | attempt => decide
  | fail => decide

/-- No move leads back to `Initial`. The last move says it, so there is no induction. -/
theorem Status.Moves.ne_initial {st st' : Status} (h : st.Moves st') (hst : st ≠ .Initial) :
    st' ≠ .Initial := by
  rcases h.cases_tail with rfl | ⟨_, -, hmove⟩
  · exact hst
  · exact hmove.target_ne.1

/-- An image that is never confirmed stays unconfirmed. -/
theorem Status.Moves.ne_confirmed {st st' : Status} (h : st.Moves st')
    (hst : st ≠ .Confirmed) : st' ≠ .Confirmed := by
  rcases h.cases_tail with rfl | ⟨_, -, hmove⟩
  · exact hst
  · exact hmove.target_ne.2

/-- Changing the status keeps the slots. -/
theorem State.withStatus_new (st st' : Status) (t b : Slot) :
    (State.new st t b).withStatus st' = State.new st' t b := by
  rw [State.withStatus, State.target_new, State.backup_new]

section Step

variable {t b : Slot} {verdict : Slot → Verdict} {G : Prop} {st : Status}
  {halt : Fault Halt} {tried : List Slot} {record' : Option State}

/-- An attempt at the target: the record is still `Attempting` when `t` gets
control. -/
theorem Attempt.of_attempting
    (h : Attempt (State.new .Attempting t b) t verdict G (some (State.new .Attempting t b))
      halt tried record') :
    (record' = some (State.new .Attempting t b) ∨ record' = some (State.new .Failed t b)) ∧
      ∀ s, halt = .error (.handOver s) →
        (s = t ∧ record' = some (State.new .Attempting t b)) ∨ s = b := by
  -- Every way to go on behind a rejected image marks it as failed.
  have hfailed : failedRecord (State.new .Attempting t b) (some (State.new .Attempting t b))
      = some (State.new .Failed t b) := by
    rw [failedRecord, State.status_new, State.withStatus_new]
    rfl
  cases h with
  | handOver hv =>
      refine ⟨.inl rfl, fun s hs => .inl ⟨?_, rfl⟩⟩
      cases hs
      rfl
  | cut hv => exact ⟨.inl rfl, fun s hs => nomatch hs⟩
  | statusCut e hv hst hG msg _ hr =>
      rw [State.withStatus_new] at hr
      exact ⟨hr, fun s hs => nomatch hs⟩
  | noBackup e hv hb => exact ⟨.inr hfailed, fun s hs => nomatch hs⟩
  | backup e hv hb =>
      refine ⟨.inr hfailed, fun s hs => .inr ?_⟩
      rw [Verdict.eq_of_halt (Fault.error.inj hs), State.backup_new]

/-- An attempt at the backup of a failed image: the record stays `Failed`. -/
theorem Attempt.of_failed
    (h : Attempt (State.new .Failed t b) b verdict G (some (State.new .Failed t b))
      halt tried record') :
    record' = some (State.new .Failed t b) ∧ ∀ s, halt = .error (.handOver s) → s = b := by
  have hfailed : failedRecord (State.new .Failed t b) (some (State.new .Failed t b))
      = some (State.new .Failed t b) := by
    rw [failedRecord, State.status_new]
    rfl
  cases h with
  | handOver hv =>
      refine ⟨rfl, fun s hs => ?_⟩
      cases hs
      rfl
  | cut hv => exact ⟨rfl, fun s hs => nomatch hs⟩
  | statusCut e hv hst => exact absurd (State.status_new .Failed t b) hst
  | noBackup e hv hb => exact ⟨hfailed, fun s hs => nomatch hs⟩
  | backup e hv hb => exact absurd (State.backup_new .Failed t b).symm hb

/-- What one boot does to an unconfirmed image. The status moves on. A hand-over
goes to `t` from `Initial`, and leaves `Attempting`, or it goes to `b`. -/
structure UnconfirmedStep (t b : Slot) (st : Status) (halt : Fault Halt)
    (record' : Option State) : Prop where
  moves : ∃ st', record' = some (State.new st' t b) ∧ st.Moves st'
  handOver : ∀ s, halt = .error (.handOver s) →
    (s = t ∧ st = .Initial ∧ record' = some (State.new .Attempting t b)) ∨ s = b

/-- One boot of an unconfirmed image. -/
theorem Boots.unconfirmed (hst : st ≠ .Confirmed)
    (h : Boots (State.new st t b) verdict G (some (State.new st t b)) halt tried record') :
    UnconfirmedStep t b st halt record' := by
  have hattempt : Status.Moves .Initial .Attempting := .single .attempt
  have hfail : Status.Moves .Attempting .Failed := .single .fail
  cases st with
  | Confirmed => exact absurd rfl hst
  -- The attempt is recorded first. Only then does slot `t` get control.
  | Initial =>
      have hstate : attemptedState (State.new .Initial t b) = State.new .Attempting t b := by
        rw [attemptedState, State.status_new]
        exact State.withStatus_new _ _ _ _
      cases h with
      | statusCut _ hG msg _ hr =>
          rw [hstate] at hr
          refine ⟨?_, fun s hs => by cases hs⟩
          rcases hr with rfl | rfl
          · exact ⟨.Initial, rfl, .refl⟩
          · exact ⟨.Attempting, rfl, hattempt⟩
      | attempt _ _ _ h =>
          rw [attemptedRecord, attemptedSlot, State.status_new, hstate, State.target_new] at h
          obtain ⟨hr, hover⟩ := h.of_attempting
          refine ⟨?_, fun s hs => (hover s hs).imp_left fun h => ⟨h.1, rfl, h.2⟩⟩
          rcases hr with rfl | rfl
          · exact ⟨.Attempting, rfl, hattempt⟩
          · exact ⟨.Failed, rfl, hattempt.trans hfail⟩
  -- The image had its chance, and the record says so. From here on slot `b` is the only one.
  | Attempting =>
      have hstate : attemptedState (State.new .Attempting t b) = State.new .Failed t b := by
        rw [attemptedState, State.status_new]
        exact State.withStatus_new _ _ _ _
      cases h with
      | statusCut _ hG msg _ hr =>
          rw [hstate] at hr
          refine ⟨?_, fun s hs => by cases hs⟩
          rcases hr with rfl | rfl
          · exact ⟨.Attempting, rfl, .refl⟩
          · exact ⟨.Failed, rfl, hfail⟩
      | attempt _ _ _ h =>
          rw [attemptedRecord, attemptedSlot, State.status_new, hstate, State.backup_new] at h
          obtain ⟨rfl, hover⟩ := h.of_failed
          exact ⟨⟨.Failed, rfl, hfail⟩, fun s hs => .inr (hover s hs)⟩
  -- Nothing is stored any more.
  | Failed =>
      have hstate : attemptedState (State.new .Failed t b) = State.new .Failed t b := by
        rw [attemptedState, State.status_new]
      cases h with
      | statusCut h =>
          rw [State.status_new] at h
          rcases h with h | h <;> cases h
      | attempt _ _ _ h =>
          rw [attemptedRecord, attemptedSlot, State.status_new, hstate, State.backup_new] at h
          obtain ⟨rfl, hover⟩ := h.of_failed
          exact ⟨⟨.Failed, rfl, .refl⟩, fun s hs => .inr (hover s hs)⟩

end Step

/-! ### Sequences of boots -/

section Runs

variable {pages pageWords : Nat}

/-- What holds of a sequence of boots that starts with an unconfirmed image, given
the results of the boots. -/
structure UnconfirmedOnce (t b : Slot) (flash : MockFlashBase pages 2 pageWords)
    (results : List (BootResult (MockFlashBase pages 2 pageWords))) : Prop where
  /-- Slot `t` is given control at most once. -/
  once : (results.countP fun r => r.halt = .error (.handOver t)) ≤ 1
  /-- When it is, a journal that is opened reads `(Attempting, t, b)`. -/
  attempting : ∀ r ∈ results, r.halt = .error (.handOver t) →
    r.flash.Reads (some (State.new .Attempting t b))
  /-- After it, only slot `b` is given control. -/
  later : results.Pairwise fun r r' => r.halt = .error (.handOver t) →
    ∀ s, r'.halt = .error (.handOver s) → s = b
  /-- From boot to boot the slots stay, and the status only moves along `Initial`,
  `Attempting`, `Failed`. -/
  moves : (flash :: results.map BootResult.flash).IsChain fun f f' => ∃ st st',
    f.Reads (some (State.new st t b)) ∧ f'.Reads (some (State.new st' t b)) ∧ st.Moves st'

variable [Geometry pages pageWords]

/-- One more boot in front. If it gives control to `t`, the record is `Attempting`
then, and the rest must go to `b`. -/
theorem UnconfirmedOnce.cons {t b : Slot} (htb : t ≠ b) {st : Status}
    {f : MockFlashBase pages 2 pageWords} {r : BootResult (MockFlashBase pages 2 pageWords)}
    {results : List (BootResult (MockFlashBase pages 2 pageWords))}
    (hf : persisted pages pageWords f = some (State.new st t b))
    (hstep : UnconfirmedStep t b st r.halt (persisted pages pageWords r.flash))
    (hlater : persisted pages pageWords r.flash = some (State.new .Attempting t b) →
      ∀ r' ∈ results, ∀ s, r'.halt = .error (.handOver s) → s = b)
    (hrest : UnconfirmedOnce t b r.flash results) : UnconfirmedOnce t b f (r :: results) := by
  obtain ⟨⟨st', hf', hmoves⟩, hover⟩ := hstep
  -- A boot that runs slot `t` has recorded the attempt, and every later boot runs slot `b`.
  have htarget : r.halt = .error (.handOver t) →
      persisted pages pageWords r.flash = some (State.new .Attempting t b) := by
    intro h
    rcases hover t h with ⟨-, -, h'⟩ | h'
    · exact h'
    · exact absurd h' htb
  refine ⟨?_, ?_, ?_, ?_⟩
  · rw [List.countP_cons]
    split
    · rename_i h
      have hzero : (results.countP fun r => r.halt = .error (.handOver t)) = 0 := by
        refine List.countP_eq_zero.mpr fun r' hr' hrt => htb ?_
        exact hlater (htarget (of_decide_eq_true h)) r' hr' t (of_decide_eq_true hrt)
      omega
    · exact hrest.once
  · intro r' hr' hrt
    rcases List.mem_cons.mp hr' with rfl | hr'
    · exact MockFlashBase.reads_iff.mpr (htarget hrt)
    · exact hrest.attempting r' hr' hrt
  · exact List.pairwise_cons.mpr ⟨fun r' hr' h => hlater (htarget h) r' hr', hrest.later⟩
  · exact List.isChain_cons_cons.mpr ⟨⟨st, st', MockFlashBase.reads_iff.mpr hf,
      MockFlashBase.reads_iff.mpr hf', hmoves⟩, hrest.moves⟩

variable {n : Nat} (hn : BlockSize n) (policy : BootStatePolicy)
  {t b : Slot} (hpolicy : ∀ st, policy.isValidState (State.new st t b) = true)

include hn hpolicy

/-- One boot from a record `(st, t, b)`. -/
theorem unconfirmed_step {st : Status} (hst : st ≠ .Confirmed) (env : BootEnv)
    {f : MockFlashBase pages 2 pageWords}
    (hf : persisted pages pageWords f = some (State.new st t b)) :
    UnconfirmedStep t b st
      (boot n policy env.verdict { f with bytesUntilShutoff := env.cut }).halt
      (persisted pages pageWords
        (boot n policy env.verdict { f with bytesUntilShutoff := env.cut }).flash) := by
  have hspec := boot_spec hn policy env.verdict { f with bytesUntilShutoff := env.cut }
  have hf' : persisted pages pageWords { f with bytesUntilShutoff := env.cut }
      = some (State.new st t b) := hf
  have hselect : selectState policy (some (State.new st t b)) = State.new st t b :=
    if_pos (hpolicy st)
  rw [hf', hselect] at hspec
  exact hspec.unconfirmed hst

/-- After `Initial` only slot `b` is given control. -/
theorem handOver_of_ne_initial (envs : List BootEnv) {st : Status} (hst : st ≠ .Confirmed)
    (hinit : st ≠ .Initial) {f : MockFlashBase pages 2 pageWords}
    (hf : persisted pages pageWords f = some (State.new st t b)) :
    ∀ r ∈ bootAll n policy envs f, ∀ s, r.halt = .error (.handOver s) → s = b := by
  induction envs generalizing f st with
  | nil => exact fun r hr => nomatch hr
  | cons env envs ih =>
      obtain ⟨⟨st', hf', hmoves⟩, hover⟩ := unconfirmed_step hn policy hpolicy hst env hf
      intro r hr s hs
      rcases List.mem_cons.mp hr with rfl | hr
      · rcases hover s hs with ⟨-, h, -⟩ | h
        · exact absurd h hinit
        · exact h
      · exact ih (hmoves.ne_confirmed hst) (hmoves.ne_initial hinit) hf' r hr s hs

/-- The invariant carries any sequence of boots. -/
theorem unconfirmed_of_status (htb : t ≠ b) (envs : List BootEnv) {st : Status}
    (hst : st ≠ .Confirmed) {f : MockFlashBase pages 2 pageWords}
    (hf : persisted pages pageWords f = some (State.new st t b)) :
    UnconfirmedOnce t b f (bootAll n policy envs f) := by
  induction envs generalizing f st with
  | nil =>
      exact ⟨Nat.zero_le 1, fun r hr => (nomatch hr), .nil, .singleton f⟩
  | cons env envs ih =>
      have hstep := unconfirmed_step hn policy hpolicy hst env hf
      obtain ⟨st', hf', hmoves⟩ := hstep.moves
      refine UnconfirmedOnce.cons htb hf hstep (fun h => ?_)
        (ih (hmoves.ne_confirmed hst) hf')
      exact handOver_of_ne_initial hn policy hpolicy envs (by decide) (by decide) h

end Runs

/-- An unconfirmed image runs at most once, in every sequence of boots with any
verdicts and any power cuts. -/
theorem unconfirmed_once {pages pageWords : Nat} [Geometry pages pageWords] {n : Nat}
    (hn : BlockSize n) (policy : BootStatePolicy) {t b : Slot} (htb : t ≠ b)
    (hpolicy : ∀ st, policy.isValidState (State.new st t b) = true)
    (flash : MockFlashBase pages 2 pageWords)
    (hflash : flash.Reads (some (State.new .Initial t b))) (envs : List BootEnv) :
    UnconfirmedOnce t b flash (bootAll n policy envs flash) :=
  unconfirmed_of_status hn policy hpolicy htb envs (by decide : Status.Initial ≠ .Confirmed)
    (MockFlashBase.reads_iff.mp hflash)

/-- A flash with the record `(Initial, S1, S0)` in its first word. -/
def initialFlash : MockFlashBase 2 2 2 :=
  match set 2 (State.new .Initial .S1 .S0) erasedHandle with
  | .ok _ j => j.inner
  | .error _ j => j.inner

/-- Three boots from it: a power cut between the two bytes of the status update, then
a boot of both slots, then one more. -/
theorem unconfirmed_once_initialFlash :
    UnconfirmedOnce .S1 .S0 initialFlash (bootAll 2 {}
      [⟨some 1, fun _ => .accept⟩, ⟨none, fun _ => .accept⟩, ⟨none, fun _ => .accept⟩]
      initialFlash) :=
  unconfirmed_once ⟨by decide, by decide⟩ {} (by decide) (fun _ => rfl) initialFlash
    (MockFlashBase.reads_iff.mpr (by decide +kernel)) _

end EcSlimloader
