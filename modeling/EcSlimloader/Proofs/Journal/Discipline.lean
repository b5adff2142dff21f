import EcSlimloader.Proofs.Journal.Layout
import EcSlimloader.Proofs.Journal.PowerLoss

/-!
# `EcSlimloader.Proofs.Journal.Discipline`: what the journal asks of the flash

A NOR flash can program a word once after an erase, and it erases whole pages.
`discipline_of_run` says that the journal keeps to that. In every run from an erased flash,
with opens, sets and power cuts before any byte, each write in the log went to an erased word
whose write-once flag was free, and each erase covered whole pages of the flash. So a power
cut is the only error of a `set`, and a `set` without one returns.

`Clean` is the invariant. Its first half is `Consistent`: a word that reads `0xffff` is
writable. A torn write keeps it, because the data byte of a record, which goes first, is not
`0xff`. A torn erase keeps it, because the first erased byte of a word frees its flag.

A request is disciplined by what the flash was when it was made, so the log keeps that too. Each
request of an update is legal when its turn comes (`legalAll_storeOps`), and on a clean flash a
legal request is disciplined. So the step is one lemma about one request, and the rules of
`EcSlimloader.Proofs.Journal.Ops` do the rest.

A read asks nothing of the flash, so an open keeps `Clean` however it ends.
-/

set_option autoImplicit false

namespace EcSlimloader

open FlashJournal

variable {pages pageWords : Nat}

/-- The request was allowed when it was made. A write has the size of a word, and its word
is erased and was not programmed since. An erase covers whole pages of the flash. -/
def Request.Disciplined (r : Request (MockFlashBase pages 2 pageWords)) : Prop :=
  match r.op with
  | .write offset bytes => bytes.length = 2 ∧ ∃ k, k < pages * pageWords ∧ offset.toNat = 2 * k ∧
      word r.before.data.toList k = (0xff, 0xff) ∧ r.before.flagAt k = .O
  | .erase start stop => start.toNat ≤ stop.toNat ∧
      stop.toNat ≤ MockFlashBase.capacityBytes pages 2 pageWords ∧
      start.toNat % MockFlashBase.pageBytes 2 pageWords = 0 ∧
      stop.toNat % MockFlashBase.pageBytes 2 pageWords = 0

/-- The words that read `0xffff` are writable, and all requests so far were allowed. -/
structure Clean (t : LoggedMock pages pageWords) : Prop where
  consistent : t.flash.Consistent
  disciplined : ∀ r ∈ t.log, r.Disciplined

/-- A fault is a power cut. -/
def IsPowerCut (e : Fault MockFlashError) : Prop :=
  ∃ address operation, e = .error (.EarlyShutoff address operation)

section Step

variable [hg : Geometry pages pageWords] {f : MockFlashBase pages 2 pageWords}

/-- A legal operation on a consistent flash is an allowed request. -/
theorem disciplined_of_legal {op : WordOp}
    (hlegal : op.Legal pages pageWords (word f.data.toList)) (hc : f.Consistent) :
    (Request.mk f (op.request pageWords)).Disciplined := by
  cases op with
  | program k s =>
      obtain ⟨hk, hblank⟩ := hlegal
      have haddr := hg.addressable
      exact ⟨rfl, k, hk, UInt32.toNat_ofNat_of_lt' (by omega : 2 * k < 2 ^ 32), hblank,
        hc k hk hblank⟩
  | erase lo hi =>
      obtain ⟨hle, hhi⟩ := hlegal
      -- A page starts at a multiple of the page size.
      have hpage : ∀ n, 2 * (n * pageWords) % MockFlashBase.pageBytes 2 pageWords = 0 := by
        intro n
        rw [MockFlashBase.pageBytes_two, Nat.mul_left_comm]
        exact Nat.mul_mod_left n _
      have hcap := Nat.mul_le_mul_right pageWords hhi
      have hpages := Nat.mul_le_mul_right pageWords hle
      simp only [Request.Disciplined, WordOp.request, Geometry.toNat_page (Nat.le_trans hle hhi),
        Geometry.toNat_page hhi, MockFlashBase.capacityBytes_two, hpage, and_true]
      omega

/-- What a legal operation does to a consistent flash: it keeps it consistent, and fails
only by a power cut. -/
theorem op_consistent {op : WordOp} (hlegal : op.Legal pages pageWords (word f.data.toList))
    (hc : f.Consistent) :
    match ((op.request pageWords).run : Exec MockFlashError _ Unit) f with
    | .ok _ f' => word f'.data.toList = op.apply pageWords (word f.data.toList) ∧ f'.Consistent
    | .error e f' => IsPowerCut e ∧ f'.Consistent := by
  cases op with
  | program k s =>
      obtain ⟨hk, hblank⟩ := hlegal
      have h := MockFlashBase.write_cases f s hk
      have hrun : ((WordOp.program k s).request pageWords).run f
          = MockFlashBase.write (UInt32.ofNat (2 * k)) (recordBytes s) f := rfl
      rw [hrun]
      cases hr : MockFlashBase.write (UInt32.ofNat (2 * k)) (recordBytes s) f with
      | ok u f' =>
          rw [hr] at h
          obtain ⟨c, rfl, -⟩ := h
          -- The data byte of the record is not `0xff`, so the word is not erased any more.
          exact ⟨MockFlashBase.word_programRecord (f := { f with bytesUntilShutoff := c }) s hk
              hblank,
            MockFlashBase.consistent_programRecord (f := { f with bytesUntilShutoff := c }) s hk
              hblank hc⟩
      | error e f' =>
          rw [hr] at h
          obtain ⟨⟨c, hf'⟩, hcause⟩ := h
          refine ⟨?_, ?_⟩
          · rcases hcause with ⟨-, address, he⟩ | hflag
            · exact ⟨address, .Write, he⟩
            · -- The flag of an erased word is free.
              cases hflag.symm.trans (hc k hk hblank)
          · rcases hf' with rfl | rfl
            · exact hc
            · exact MockFlashBase.consistent_programData (f := { f with bytesUntilShutoff := c })
                s hk hblank hc
  | erase lo hi =>
      obtain ⟨hle, hhi⟩ := hlegal
      have h := MockFlashBase.erase_spec f hle hhi
      have hrun : ((WordOp.erase lo hi).request pageWords).run f
          = MockFlashBase.erase (UInt32.ofNat (lo * (2 * pageWords)))
              (UInt32.ofNat (hi * (2 * pageWords))) f := rfl
      rw [hrun]
      cases hr : MockFlashBase.erase (UInt32.ofNat (lo * (2 * pageWords)))
          (UInt32.ofNat (hi * (2 * pageWords))) f with
      | ok u f' =>
          rw [hr, Nat.mul_left_comm lo, Nat.mul_left_comm hi] at h
          exact ⟨h.1.words, h.1.consistent hc⟩
      | error e f' =>
          rw [hr, Nat.mul_left_comm lo, Nat.mul_left_comm hi] at h
          -- Whatever byte the cut came before, a prefix of the range was erased.
          obtain ⟨⟨m, -, herased⟩, -, address, he⟩ := h
          exact ⟨⟨address, .Erase, he⟩, herased.consistent hc⟩

/-- One operation of an update keeps the invariant, also when the power is cut inside it. -/
theorem clean_step :
    OpStep (LoggedMock pages pageWords) (fun _ t => Clean t) fun e t => IsPowerCut e ∧ Clean t := by
  rintro w op ops hlegal t ⟨rfl, hc, hlog⟩
  have hlegal' : op.Legal pages pageWords (word t.flash.data.toList) := hlegal
  have hlog' : ∀ r ∈ t.log ++ [{ before := t.flash, op := op.request pageWords }],
      r.Disciplined := by
    intro r hr
    rcases List.mem_append.mp hr with hr | hr
    · exact hlog r hr
    · rw [List.mem_singleton.mp hr]
      exact disciplined_of_legal hlegal' hc
  -- The request is in the log now, also if the operation does not come to its end.
  have hop := op_consistent hlegal' hc
  rw [LoggedFlash.run_eq, LoggedFlash.request_run]
  cases hr : ((op.request pageWords).run : Exec MockFlashError _ Unit) t.flash with
  | ok u f =>
      rw [hr] at hop
      exact ⟨hop.1, hop.2, hlog'⟩
  | error e f =>
      rw [hr] at hop
      exact ⟨hop.1, hop.2, hlog'⟩

/-- A `set` on a handle in sync keeps the invariant, and fails only by a power cut. -/
theorem set_clean {j : FlashJournal (LoggedMock pages pageWords)} (hsync : InSync j)
    (hclean : Clean j.inner) {n : Nat} (hn : BlockSize n) (s : State) :
    match set n s j with
    | .ok _ j' => Clean j'.inner
    | .error e j' => (∃ e', e = e'.map .Other ∧ IsPowerCut e') ∧ Clean j'.inner := by
  by_cases hcur : RecordLog.current State.read? (word (ReadableFlash.content j.inner))
      (pages * pageWords) = some s
  · -- For the current state the source returns early.
    rw [set_run_of_eq (hsync.get_eq.trans hcur)]
    exact hclean
  · have h := set_triple clean_step LoggedMock.steadyReads hn _ s hcur j ⟨hsync, rfl, hclean⟩
    cases hr : set n s j with
    | ok u j' =>
        rw [hr] at h
        exact h.2.2.2
    | error e j' =>
        rw [hr] at h
        obtain ⟨e', he, hcut, hclean'⟩ := h
        exact ⟨⟨e', he, hcut⟩, hclean'⟩

end Step

/-! ### Runs -/

/-- The environment of a flash with a log plans the power cuts of the flash. -/
instance : Powered (LoggedMock pages pageWords) (Option Nat) where
  arm cut t := { t with flash := Powered.arm cut t.flash }

section Runs

variable [Geometry pages pageWords]

instance : LawfulPowered (LoggedMock pages pageWords) MockFlashError (Option Nat) where
  content_arm _ _ := rfl

/-- A step of a device keeps the invariant. -/
theorem clean_of_step {d d' : Device (LoggedMock pages pageWords)} (hsync : Device.Synced d)
    (hclean : Clean d.flash) (h : Device.Step d d') : Clean d'.flash := by
  have harmed : ∀ (cut : Option Nat) {t : LoggedMock pages pageWords}, Clean t →
      Clean (Powered.arm cut t) := fun _ _ h => ⟨h.consistent, h.disciplined⟩
  cases h with
  | openOk _ n cut j t hn h =>
      -- Opening only reads.
      rw [LoggedMock.new_run_eq hn] at h
      cases h
      exact harmed cut hclean
  | openFail _ n cut e t hn h =>
      rw [LoggedMock.new_run_eq hn] at h
      cases h
  | setOk j n s cut j' hn h =>
      have hset := set_clean (Device.inSync_armed cut hsync) (harmed cut hclean) hn s
      rw [h] at hset
      exact hset
  | setFail j n s cut e j' hn h =>
      have hset := set_clean (Device.inSync_armed cut hsync) (harmed cut hclean) hn s
      rw [h] at hset
      exact hset.2

/-- An erased flash is clean. -/
theorem clean_erasedMock : Clean (erasedMock pages pageWords) :=
  ⟨(good_erasedMock pages pageWords).2, fun _ h => absurd h List.not_mem_nil⟩

/-- Every run from an erased flash keeps the invariant. -/
theorem clean_of_run {d : Device (LoggedMock pages pageWords)}
    (h : Device.Run (.off (erasedMock pages pageWords)) d) : Clean d.flash := by
  induction h with
  | refl => exact clean_erasedMock
  | tail hrun hstep ih => exact clean_of_step (Device.synced_of_run hrun) ih hstep

end Runs

/-- Every run from an erased flash, with power cuts before any byte. The requests that were
made were allowed. The journal can be opened. A `set` on the handle of the run fails only by
a power cut, and without a power cut it returns. -/
theorem discipline_of_run {pages pageWords : Nat} [Geometry pages pageWords]
    (d : Device (LoggedMock pages pageWords))
    (hrun : Device.Run (.off (erasedMock pages pageWords)) d) :
    (∀ r ∈ d.flash.log, r.Disciplined) ∧
    (∀ n, BlockSize n → ∀ cut, ∃ j t, new n (Powered.arm cut d.flash) = .ok j t) ∧
    ∀ j, d = .on j → ∀ n, BlockSize n → ∀ s,
      (∀ cut e j', set n s (Device.armed cut j) = .error e j' →
        ∃ address operation, e = .error (.Other (.EarlyShutoff address operation))) ∧
      ∃ j', set n s (Device.armed none j) = .ok () j' := by
  have hclean := clean_of_run hrun
  refine ⟨hclean.disciplined, fun n hn cut => ⟨_, _, LoggedMock.new_run_eq hn _⟩, ?_⟩
  rintro j rfl n hn s
  have hsync : InSync j := Device.synced_of_run hrun
  -- Arming the flash plans a cut, and changes neither the words nor the log.
  have hclean' : ∀ cut, Clean (Device.armed cut j).inner :=
    fun _ => ⟨hclean.consistent, hclean.disciplined⟩
  refine ⟨fun cut e j' h => ?_, ?_⟩
  · have hset := set_clean (Device.inSync_armed cut hsync) (hclean' cut) hn s
    rw [h] at hset
    obtain ⟨⟨e', rfl, address, operation, rfl⟩, -⟩ := hset
    exact ⟨address, operation, rfl⟩
  · have hgood : ReadableFlash.Good (Device.armed none j).inner := ⟨rfl, hclean.consistent⟩
    obtain ⟨j', hset, -⟩ :=
      set_good LoggedMock.steadyReads hn s (Device.inSync_armed none hsync) hgood
    exact ⟨j', hset⟩

/-- The journal that is opened on a flash with a log. -/
def openedMock (t : LoggedMock 2 2) : FlashJournal (LoggedMock 2 2) :=
  ⟨Powered.arm none t, scanCache t.flash.data.toList⟩

/-- The flash after the first `set` on an erased one, with the power cut between the two
bytes of the record. -/
def tornMock : LoggedMock 2 2 :=
  match set 2 (State.new .Initial .S1 .S0) (Device.armed (some 1) (openedMock (erasedMock 2 2)))
    with
  | .ok _ j | .error _ j => j.inner

/-- A run with an open, a `set` that a power cut interrupts, and a second open. Behind the
torn record the next `set` returns. -/
theorem discipline_of_run_torn :
    tornMock.log.length = 1 ∧
      ∃ j', set 2 (State.new .Initial .S1 .S0) (Device.armed none (openedMock tornMock))
        = .ok () j' := by
  have hsize : BlockSize 2 := ⟨by decide, by decide⟩
  have hopen : ∀ d : Device (LoggedMock 2 2), Device.Step d (.on (openedMock d.flash)) :=
    fun d => .openOk d 2 none _ _ hsize (LoggedMock.new_run_eq hsize _)
  -- The cut comes before the second byte of the record, so the first `set` fails.
  have hcut : Device.Step (.on (openedMock (erasedMock 2 2))) (.off tornMock) := by
    have hfails : (match set 2 (State.new .Initial .S1 .S0)
        (Device.armed (some 1) (openedMock (erasedMock 2 2))) with
      | .ok _ _ => false
      | .error _ _ => true) = true := by decide +kernel
    cases hset : set 2 (State.new .Initial .S1 .S0)
        (Device.armed (some 1) (openedMock (erasedMock 2 2))) with
    | ok u j =>
        rw [hset] at hfails
        cases hfails
    | error e j =>
        have htorn : tornMock = j.inner := by
          unfold tornMock
          rw [hset]
        rw [htorn]
        exact .setFail _ 2 _ (some 1) e j hsize hset
  have hrun : Device.Run (.off (erasedMock 2 2)) (.on (openedMock tornMock)) :=
    .tail (.tail (.single (hopen _)) hcut) (hopen _)
  exact ⟨by decide +kernel, ((discipline_of_run _ hrun).2.2 _ rfl 2 hsize _).2⟩

end EcSlimloader
