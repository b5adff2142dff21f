import EcSlimloader.Proofs.Journal.Logged

/-!
# `EcSlimloader.Proofs.Journal.Layout`: what the flash looks like after `k` changes

Start with an erased flash of `N` words and make any number of calls without a fault: `set`,
and opening the journal again. `layout_of_calls` says what the flash holds after the `k`
calls that changed the state. The words are filled from the front, round after round.
The last round has `(k - 1) % N + 1` records, and every page was erased once for each round
that is over.

`filled` is the content of a flash with a round of records, and `setWords_filled` is the
step: an update appends to the round, or a full flash starts a new round. `Round` carries it
through the calls, with the number of rounds that are over.

The rounds are counted by the changes alone. A `set` of the current state is no change, and neither
is an open, so `Round` keeps its number through both. `storeOps_filled` says which operations an
update makes on a flash with a round: one write while there is room, and an erase of all pages
around a write when the flash is full.

Erases are counted per page in the log, so that "once for each round" is a statement about the
flash, and not about the content.
-/

set_option autoImplicit false

namespace EcSlimloader

open FlashJournal

/-! ### One round

A round fills the flash from the front. While there is room, an update writes one word behind the
last. When there is none, all pages are erased and the round starts again with one record. -/

/-- The words of a flash that holds the records of a round, and is erased behind them. -/
def filled (round : List State) (i : Nat) : Word :=
  match round[i]? with
  | some s => s.asBytes
  | none => blank

/-- A word of the round is the record of its state. -/
theorem filled_of_lt {round : List State} {i : Nat} (h : i < round.length) :
    filled round i = round[i].asBytes := by
  rw [filled, List.getElem?_eq_getElem h]

/-- Behind the round the words are blank. -/
theorem filled_of_le {round : List State} {i : Nat} (h : round.length ≤ i) :
    filled round i = blank := by
  rw [filled, List.getElem?_eq_none h]

/-- A record is not an erased word. -/
theorem asBytes_ne_blank (s : State) : s.asBytes ≠ blank := fun h =>
  s.bytes_fst_ne (congrArg Prod.fst h)

/-- The words of the round are those that are not erased. -/
theorem filled_ne_blank_iff {round : List State} {i : Nat} :
    filled round i ≠ blank ↔ i < round.length := by
  constructor
  · intro h
    by_contra hle
    exact h (filled_of_le (by omega))
  · intro h
    rw [filled_of_lt h]
    exact asBytes_ne_blank _

/-- The last record of a round is the last one on the flash. -/
theorem last_filled {round : List State} {n : Nat} (h0 : round ≠ []) (hn : round.length ≤ n) :
    RecordLog.last State.read? (filled round) n
      = some (round.getLast h0, round.length - 1) := by
  have hpos := List.length_pos_iff.mpr h0
  refine RecordLog.last_eq_some_iff.mpr ⟨by omega, ?_, fun j hj _ => ?_⟩
  · rw [filled_of_lt (by omega), State.read?_asBytes, List.getLast_eq_getElem]
  · rw [filled_of_le (by omega)]
    exact read?_blank

/-- The next free word is behind the round. -/
theorem empty_filled {round : List State} {n : Nat} (hn : round.length < n) :
    (scanWords (filled round) n).empty = some round.length := by
  refine empty_of_first hn (filled_of_le (Nat.le_refl _)) ?_ ?_
  · intro b j hj
    -- A record was found, so the round is not empty.
    have hround : round ≠ [] := by
      rintro rfl
      obtain ⟨-, hread, -⟩ := RecordLog.last_eq_some_iff.mp hj
      rw [filled_of_le (Nat.zero_le j), read?_blank] at hread
      cases hread
    rw [last_filled hround (by omega)] at hj
    have hpos := List.length_pos_iff.mpr hround
    cases hj
    omega
  · intro k hk _
    exact filled_ne_blank_iff.mpr hk

/-- A full flash has no free word. -/
theorem full_filled {round : List State} {n : Nat} (hn : round.length = n) :
    (scanWords (filled round) n).empty = none :=
  empty_of_full fun _ hk _ => filled_ne_blank_iff.mpr (by omega)

/-- A record behind the round. -/
theorem program_filled (round : List State) (s : State) :
    RecordLog.program round.length s.asBytes (filled round) = filled (round ++ [s]) := by
  funext i
  by_cases hi : i = round.length
  · subst hi
    rw [RecordLog.program_self, filled_of_lt (by simp)]
    simp
  · rw [RecordLog.program_of_ne hi]
    -- The other words are those of the old round, or erased on both sides.
    by_cases hlt : i < round.length
    · rw [filled_of_lt hlt, filled_of_lt (by rw [List.length_append]; omega),
        List.getElem_append_left hlt]
    · rw [filled_of_le (by omega),
        filled_of_le (by rw [List.length_append, List.length_singleton]; omega)]

section Pages

variable {pages pageWords : Nat} (hP : 2 ≤ pages) (hW : 0 < pageWords)
include hP hW

/-- The last record of a full flash is behind the first page. -/
theorem pageWords_le_last {round : List State} (hfull : round.length = pages * pageWords) :
    pageWords ≤ round.length - 1 := by
  have h := pageWords_lt_words hP hW
  omega

/-- A full round is not empty, because the flash has words. -/
theorem ne_nil_of_full {round : List State} (hfull : round.length = pages * pageWords) :
    round ≠ [] := by
  have h := pageWords_lt_words hP hW
  exact List.length_pos_iff.mp (by omega)

/-- The words of an update: one more record in the round, or a new round. -/
theorem storeWords_filled {round : List State} (hle : round.length ≤ pages * pageWords)
    (s : State) :
    storeWords pages pageWords (filled round) s
      = if round.length < pages * pageWords then filled (round ++ [s]) else filled [s] := by
  unfold storeWords
  split
  next a _ he =>
    -- The append branch: there is a free word, so the round is not full.
    by_cases hlt : round.length < pages * pageWords
    · rw [empty_filled hlt] at he
      cases he
      rw [if_pos hlt]
      exact program_filled round s
    · rw [full_filled (by omega)] at he
      cases he
  next _ b i he hl =>
    -- There is no free word, so the round is full. Its last record is on the last page.
    have hfull : round.length = pages * pageWords := by
      by_contra hne
      rw [empty_filled (by omega)] at he
      cases he
    have hround := ne_nil_of_full hP hW hfull
    rw [last_of_scan, last_filled hround hle] at hl
    cases hl
    rw [if_pos (pageWords_le_last hP hW hfull), if_neg (by omega)]
    -- The roll-over leaves the new record alone on the flash.
    funext k
    by_cases hk : k = 0
    · subst hk
      rw [RecordLog.erase_of_not_mem (by omega), RecordLog.program_self,
        filled_of_lt (by simp)]
      rfl
    · rw [filled_of_le (by rw [List.length_singleton]; omega)]
      by_cases hin : pageWords ≤ k ∧ k < pages * pageWords
      · exact RecordLog.erase_of_mem hin.1 hin.2 _
      · rw [RecordLog.erase_of_not_mem hin, RecordLog.program_of_ne hk]
        by_cases hfirst : k < pageWords
        · exact RecordLog.erase_of_mem (Nat.zero_le k) hfirst _
        · rw [RecordLog.erase_of_not_mem (by omega), filled_of_le (by omega)]
  next _ _ he hl =>
    have hfull : round.length = pages * pageWords := by
      by_contra hne
      rw [empty_filled (by omega)] at he
      cases he
    rw [last_of_scan, last_filled (ne_nil_of_full hP hW hfull) hle] at hl
    cases hl

/-- The operations of an update: one write, or the roll-over of a full flash. -/
theorem storeOps_filled {round : List State} (hle : round.length ≤ pages * pageWords)
    (s : State) :
    storeOps pages pageWords (filled round) s
      = if round.length < pages * pageWords then [.program round.length s]
        else [.erase 0 1, .program 0 s, .erase 1 pages] := by
  by_cases hlt : round.length < pages * pageWords
  · rw [if_pos hlt, storeOps_append (empty_filled hlt)]
  · have hfull : round.length = pages * pageWords := by omega
    have hround := ne_nil_of_full hP hW hfull
    rw [if_neg hlt, storeOps_roll (full_filled hfull) (last_of_scan.trans (last_filled hround hle))
      (pageWords_le_last hP hW hfull)]

end Pages

/-! ### Erases of a page -/

/-- The request erases the page with the number `page`, for pages of `pageBytes` bytes. -/
def FlashOp.erasesPage (pageBytes page : Nat) : FlashOp → Bool
  | .write _ _ => false
  | .erase start stop =>
      decide (start.toNat ≤ page * pageBytes) && decide ((page + 1) * pageBytes ≤ stop.toNat)

/-- How often a page has been erased, for pages of `pageBytes` bytes. -/
def LoggedFlash.eraseCount {T : Type} (t : LoggedFlash T) (pageBytes page : Nat) : Nat :=
  t.ops.countP (FlashOp.erasesPage pageBytes page)

section Erases

variable {pages pageWords : Nat} [hg : Geometry pages pageWords]

/-- An erase of the pages `lo ≤ i < hi` erases exactly these pages. -/
theorem erasesPage_request {lo hi page : Nat} (hlo : lo ≤ pages) (hhi : hi ≤ pages) :
    FlashOp.erasesPage (2 * pageWords) page ((WordOp.erase lo hi).request pageWords)
      = decide (lo ≤ page ∧ page < hi) := by
  have hW := hg.pageWords_pos
  -- Byte addresses of pages compare like their numbers.
  have hle {a b : Nat} : 2 * (a * pageWords) ≤ b * (2 * pageWords) ↔ a ≤ b := by
    rw [← Nat.mul_left_comm a]
    exact Nat.mul_le_mul_right_iff (by omega)
  have hle' {a b : Nat} : a * (2 * pageWords) ≤ 2 * (b * pageWords) ↔ a ≤ b := by
    rw [← Nat.mul_left_comm b]
    exact Nat.mul_le_mul_right_iff (by omega)
  simp only [WordOp.request, FlashOp.erasesPage, Geometry.toNat_page hlo, Geometry.toNat_page hhi,
    hle, hle', Nat.succ_le_iff, Bool.decide_and]

/-- An update of a flash with a round on it erases no page, or every page once. -/
theorem countP_storeOps {round : List State} (hle : round.length ≤ pages * pageWords) (s : State)
    {page : Nat} (hpage : page < pages) :
    ((storeOps pages pageWords (filled round) s).map (WordOp.request pageWords)).countP
        (FlashOp.erasesPage (2 * pageWords) page)
      = if round.length < pages * pageWords then 0 else 1 := by
  have hP := hg.two_le_pages
  rw [storeOps_filled hP hg.pageWords_pos hle]
  split
  · rfl
  · rw [List.map_cons, List.map_cons, List.map_cons, List.map_nil, List.countP_cons,
      List.countP_cons, List.countP_cons, List.countP_nil,
      erasesPage_request (by omega : 0 ≤ pages) (by omega : 1 ≤ pages),
      erasesPage_request (by omega : 1 ≤ pages) (Nat.le_refl pages)]
    have hwrite : FlashOp.erasesPage (2 * pageWords) page
        ((WordOp.program 0 s).request pageWords) = false := rfl
    rw [hwrite]
    -- The first page goes in the first erase, and the others in the second one.
    by_cases hzero : page = 0
    · subst hzero
      simp
    · simp [hzero, hpage, Nat.one_le_iff_ne_zero]

end Erases

/-! ### Calls without a fault

The calls that change nothing are the ones that set the current state, and opens. `Round` is kept by
each call, and `Round.layout` reads the final statement off it. -/

/-- A call on a journal: a `set`, or opening the journal again. -/
inductive JournalCall where
  | set (n : Nat) (s : State)
  | reopen (n : Nat)

/-- The buffer size of a call. -/
def JournalCall.bufferSize : JournalCall → Nat
  | .set n _ => n
  | .reopen n => n

section Calls

variable {T E : Type} [NorFlash T E]

/-- The calls one after the other, if none fails: the handle in the end, and the states of
the `set` calls that differ from the state that was current then. -/
def runCalls : List JournalCall → FlashJournal T → Option (FlashJournal T × List State)
  | [], j => some (j, [])
  | .set n s :: calls, j =>
      match FlashJournal.set n s j with
      | .ok _ j' => (runCalls calls j').map fun (end_, changed) =>
          (end_, if j.get = some s then changed else s :: changed)
      | .error _ _ => none
  | .reopen n :: calls, j =>
      match new n j.inner with
      | .ok j' _ => runCalls calls j'
      | .error _ _ => none

end Calls

section Layout

variable {pages pageWords : Nat}

/-- The flash after the changes `changed`: `m` words from the front hold the last `m` changes
in order, all other words are erased, and each page was erased as often as the flash was
full. -/
structure Layout (changed : List State) (t : LoggedMock pages pageWords) : Prop where
  /-- The programmed words are the first `m` ones. -/
  programmed : ∀ i, i < pages * pageWords →
    (word t.flash.data.toList i ≠ (0xff, 0xff) ↔
      i < (changed.length - 1) % (pages * pageWords) + 1)
  /-- They hold the last `m` changes, in order. -/
  records : ∀ i, i < (changed.length - 1) % (pages * pageWords) + 1 →
    ∃ s, changed[changed.length - ((changed.length - 1) % (pages * pageWords) + 1) + i]? = some s ∧
      word t.flash.data.toList i = s.asBytes
  /-- Every page has been erased equally often. -/
  erases : ∀ page, page < pages →
    t.eraseCount (2 * pageWords) page = (changed.length - 1) / (pages * pageWords)

/-- The handle between two calls. `changed` are the changes so far: `rounds` full ones, and
then the round that is on the flash. -/
structure Round (changed : List State) (j : FlashJournal (LoggedMock pages pageWords))
    [Geometry pages pageWords] : Prop where
  inSync : InSync j
  good : ReadableFlash.Good j.inner
  round : ∃ rounds before round, changed = before ++ round ∧
    before.length = rounds * (pages * pageWords) ∧ round.length ≤ pages * pageWords ∧
    (round = [] → rounds = 0) ∧ word j.inner.flash.data.toList = filled round ∧
    ∀ page, page < pages → j.inner.eraseCount (2 * pageWords) page = rounds

variable [hg : Geometry pages pageWords]

/-- One `set`. -/
theorem Round.set {changed : List State} {j : FlashJournal (LoggedMock pages pageWords)}
    (h : Round changed j) {n : Nat} (hn : BlockSize n) (s : State) :
    ∃ j', FlashJournal.set n s j = .ok () j' ∧
      Round (if j.get = some s then changed else changed ++ [s]) j' := by
  obtain ⟨hsync, hgood, rounds, before, round, hchanged, hbefore, hle, hempty, hwords, herases⟩ := h
  obtain ⟨j', hset, hsync', hgood', -, hwords', hops⟩ :=
    set_good LoggedMock.steadyReads hn s hsync hgood
  have hget : j.get = RecordLog.current State.read? (filled round) (pages * pageWords) := by
    rw [← hwords]
    exact hsync.get_eq
  have hcontent : word (ReadableFlash.content j.inner) = filled round := hwords
  have hcontent' : word j'.inner.flash.data.toList
      = setWords pages pageWords (filled round) s := by
    rw [← hcontent]
    exact hwords'
  rw [hcontent] at hops
  refine ⟨j', hset, hsync', hgood', ?_⟩
  by_cases hcur : j.get = some s
  · rw [if_pos hcur]
    rw [hget] at hcur
    rw [setWords, if_pos hcur] at hcontent'
    rw [setOps, if_pos hcur, List.append_nil] at hops
    -- A `set` of the current state leaves the words and the log as they are.
    refine ⟨rounds, before, round, hchanged, hbefore, hle, hempty, hcontent', fun page hpage => ?_⟩
    rw [LoggedFlash.eraseCount, hops]
    exact herases page hpage
  · rw [if_neg hcur]
    rw [hget] at hcur
    rw [setWords, if_neg hcur, storeWords_filled hg.two_le_pages hg.pageWords_pos hle] at hcontent'
    rw [setOps, if_neg hcur] at hops
    have hcount : ∀ page, page < pages → j'.inner.eraseCount (2 * pageWords) page
        = rounds + if round.length < pages * pageWords then 0 else 1 := by
      intro page hpage
      rw [LoggedFlash.eraseCount, hops, List.countP_append, countP_storeOps hle s hpage,
        ← herases page hpage]
      rfl
    by_cases hlt : round.length < pages * pageWords
    · rw [if_pos hlt] at hcontent'
      refine ⟨rounds, before, round ++ [s], ?_, hbefore, ?_, ?_, hcontent', fun page hpage => ?_⟩
      · rw [hchanged, List.append_assoc]
      · rw [List.length_append, List.length_singleton]
        omega
      · intro h
        exact absurd h (by simp)
      · rw [hcount page hpage, if_pos hlt, Nat.add_zero]
    · -- The flash was full, so this round is over.
      rw [if_neg hlt] at hcontent'
      have hone := pageWords_lt_words hg.two_le_pages hg.pageWords_pos
      refine ⟨rounds + 1, before ++ round, [s], ?_, ?_, ?_, ?_, hcontent', fun page hpage => ?_⟩
      · rw [hchanged]
      · rw [List.length_append, hbefore, Nat.succ_mul]
        omega
      · rw [List.length_singleton]
        omega
      · intro h
        cases h
      · rw [hcount page hpage, if_neg hlt]

/-- Opening the journal again. -/
theorem Round.reopen {changed : List State} {j : FlashJournal (LoggedMock pages pageWords)}
    (h : Round changed j) {n : Nat} (hn : BlockSize n) :
    ∃ j' t, new n j.inner = .ok j' t ∧ Round changed j' :=
  ⟨_, _, LoggedMock.new_run_eq hn j.inner, rfl, h.good, h.round⟩

/-- The calls, by induction: none fails, and the changes are those before with the new
ones. -/
theorem Round.run {changed : List State} {j : FlashJournal (LoggedMock pages pageWords)}
    (h : Round changed j) (calls : List JournalCall)
    (hcalls : ∀ call ∈ calls, BlockSize call.bufferSize) :
    ∃ j' changed', runCalls calls j = some (j', changed') ∧ Round (changed ++ changed') j' := by
  induction calls generalizing changed j with
  | nil => exact ⟨j, [], rfl, by rw [List.append_nil]; exact h⟩
  | cons call calls ih =>
      have hrest : ∀ call ∈ calls, BlockSize call.bufferSize :=
        fun call h => hcalls call (List.mem_cons_of_mem _ h)
      have hbuffer := hcalls call List.mem_cons_self
      cases call with
      | set n s =>
          have hn : BlockSize n := hbuffer
          obtain ⟨j₁, hset, h₁⟩ := h.set hn s
          obtain ⟨j', changed', hrun, h'⟩ := ih h₁ hrest
          -- A state is counted exactly if the handle does not have it already.
          refine ⟨j', if j.get = some s then changed' else s :: changed', ?_, ?_⟩
          · rw [runCalls, hset]
            simp only [hrun, Option.map_some]
          · split
            next hcur =>
              rw [if_pos hcur] at h'
              exact h'
            next hcur =>
              rw [if_neg hcur, List.append_assoc] at h'
              exact h'
      | reopen n =>
          have hn : BlockSize n := hbuffer
          obtain ⟨j₁, t, hnew, h₁⟩ := h.reopen hn
          obtain ⟨j', changed', hrun, h'⟩ := ih h₁ hrest
          refine ⟨j', changed', ?_, h'⟩
          rw [runCalls, hnew]
          exact hrun

/-- The closed form of the invariant. -/
theorem Round.layout {changed : List State} {j : FlashJournal (LoggedMock pages pageWords)}
    (h : Round changed j) (hone : 1 ≤ changed.length) : Layout changed j.inner := by
  obtain ⟨-, -, rounds, before, round, rfl, hbefore, hle, hempty, hwords, herases⟩ := h
  have hpos : 0 < pages * pageWords := by
    have := pageWords_lt_words hg.two_le_pages hg.pageWords_pos
    omega
  -- The round on the flash is only empty before the first change.
  have hround : 1 ≤ round.length := by
    rcases round with _ | ⟨s, round⟩
    · rw [hempty rfl, Nat.zero_mul] at hbefore
      rw [List.append_nil, hbefore] at hone
      exact hone
    · simp
  -- From here on it is arithmetic: `before` is a multiple of the words of the flash.
  have hlen : (before ++ round).length - 1 = (round.length - 1) + rounds * (pages * pageWords) := by
    rw [List.length_append, hbefore]
    omega
  have hmod : ((before ++ round).length - 1) % (pages * pageWords) + 1 = round.length := by
    rw [hlen, Nat.add_mul_mod_self_right, Nat.mod_eq_of_lt (by omega)]
    omega
  have hdiv : ((before ++ round).length - 1) / (pages * pageWords) = rounds := by
    rw [hlen, Nat.add_mul_div_right _ _ hpos, Nat.div_eq_of_lt (by omega), Nat.zero_add]
  refine ⟨?_, ?_, ?_⟩
  · intro i _
    rw [hmod, hwords]
    exact filled_ne_blank_iff
  · intro i hi
    rw [hmod] at hi
    refine ⟨round[i], ?_, ?_⟩
    · rw [hmod, List.length_append, Nat.add_sub_cancel, List.getElem?_append_right (by omega),
        Nat.add_sub_cancel_left, List.getElem?_eq_getElem hi]
    · rw [hwords, filled_of_lt hi]
  · intro page hpage
    rw [hdiv]
    exact herases page hpage

end Layout

/-- An erased flash with an empty log. -/
def erasedMock (pages pageWords : Nat) : LoggedMock pages pageWords :=
  { flash := .new none, log := [] }

/-- The words of an erased flash. -/
theorem word_erasedMock (pages pageWords : Nat) :
    word (erasedMock pages pageWords).flash.data.toList = filled [] := by
  have hbyte : ∀ i, (erasedMock pages pageWords).flash.data.toList.getD i 0xff = 0xff := by
    intro i
    show (Vector.replicate _ (0xff : UInt8)).toList.getD i 0xff = 0xff
    rw [Vector.toList_replicate, List.getD_eq_getElem?_getD, List.getElem?_replicate]
    split <;> rfl
  funext k
  rw [filled_of_le (Nat.zero_le k), word, hbyte, hbyte]
  rfl

/-- Every word of an erased flash is writable. -/
theorem good_erasedMock (pages pageWords : Nat) [Geometry pages pageWords] :
    ReadableFlash.Good (erasedMock pages pageWords) := by
  refine ⟨rfl, fun k hk _ => ?_⟩
  show (Vector.replicate _ Writable.O)[k]?.getD .O = .O
  rw [Vector.getElem?_replicate]
  split <;> rfl

/-- The layout of the flash after any calls without a fault. -/
theorem layout_of_calls {pages pageWords : Nat} [Geometry pages pageWords] {n : Nat}
    (hn : BlockSize n) (calls : List JournalCall)
    (hcalls : ∀ call ∈ calls, BlockSize call.bufferSize) :
    ∃ j₀ t₀ j changed, new n (erasedMock pages pageWords) = .ok j₀ t₀ ∧
      runCalls calls j₀ = some (j, changed) ∧
      (1 ≤ changed.length → Layout changed j.inner) := by
  have hround : Round [] (FlashJournal.mk (erasedMock pages pageWords)
      (scanCache (erasedMock pages pageWords).flash.data.toList)) :=
    ⟨rfl, good_erasedMock pages pageWords, 0, [], [], rfl, by simp, by simp, fun _ => rfl,
      word_erasedMock pages pageWords, fun _ _ => rfl⟩
  obtain ⟨j, changed, hrun, h⟩ := hround.run calls hcalls
  exact ⟨_, _, j, changed, LoggedMock.new_run_eq hn _, hrun, h.layout⟩

/-- Five changes on a flash of four words, with a call that changes nothing and an open in
between. -/
theorem layout_of_calls_five :
    ∃ j₀ t₀ j changed, new 2 (erasedMock 2 2) = .ok j₀ t₀ ∧
      runCalls [.set 2 (State.new .Initial .S1 .S0), .set 4 (State.new .Initial .S1 .S0),
        .set 2 (State.new .Attempting .S1 .S0), .reopen 6, .set 2 (State.new .Confirmed .S1 .S0),
        .set 2 (State.new .Initial .S2 .S1), .set 2 (State.new .Attempting .S2 .S1)] j₀
        = some (j, changed) ∧ (1 ≤ changed.length → Layout changed j.inner) :=
  layout_of_calls ⟨by decide, by decide⟩ _ (fun call h => by
    simp only [List.mem_cons, List.not_mem_nil, or_false] at h
    rcases h with rfl | rfl | rfl | rfl | rfl | rfl | rfl <;> exact ⟨by decide, by decide⟩)

end EcSlimloader
