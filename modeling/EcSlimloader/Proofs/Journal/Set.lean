import EcSlimloader.Proofs.Journal.Scan

/-!
# `EcSlimloader.Proofs.Journal.Set`: what `set` does to the words

`storeWords` says on the words of the storage what a completed `set` does: it is
the abstract model of the update, with one case per branch of `writeState`.
`TornSet` lists what an interrupted one can leave behind: each operation of each
branch, stopped half way. `writeState_spec` and `set_spec` connect both with the
source's code, for every storage that satisfies the laws of `PagedFlash`.

The laws of `PagedFlash` cover a storage that can fail. An operation that fails
leaves a torn program or a torn erase, and how an erase tears is a field of the
class. In a `Good` state nothing fails. The proposition `G` in the triples
stands for "the storage was good at the start": with `G` true a triple says that
the program returns, with `G` false it also covers the failures.

`InSync` is the relation between a handle and its storage: the cache is the one that a scan of the
content would find. It holds behind `new` and, by `set_spec`, behind a `set` that returns. Behind
one that fails the handle may be out of sync, which is why the devices of
`EcSlimloader.Proofs.Journal.Runs` drop it.

`setWords` is `storeWords` with the early return in front of it. It is what later modules use, and
none of them unfolds `writeState`.
-/

set_option autoImplicit false

namespace EcSlimloader

open RecordLog (program erase last current Behind TornProgram)

/-- A word of the storage. -/
abbrev Word : Type := UInt8 × UInt8

/-- The scan of the words of a content. -/
abbrev scanWords (w : Nat → Word) (n : Nat) : RecordLog.Scan State :=
  RecordLog.scan State.read? isBlank w n

/-- A storage of `pages` pages of `pageWords` two-byte words. A failed operation
has done a part of its work, and `tornErase` says which part an erase can have
done. -/
class PagedFlash (T : Type) (E : outParam Type) [NorFlash T E] (pages pageWords : outParam Nat)
    extends ReadableFlash T E where
  /-- What a failed erase of the words `lo ≤ i < hi` can leave behind. -/
  tornErase : Nat → Nat → (Nat → Word) → (Nat → Word) → Prop
  two_le_pages : 2 ≤ pages
  pageWords_pos : 0 < pageWords
  eraseSize_eq : NorFlash.eraseSize T = 2 * pageWords
  capacity_eq : ∀ t : T, NorFlash.capacity t = 2 * (pages * pageWords)
  write_law : ∀ (t : T) (k : Nat) (s : State), k < pages * pageWords →
    word (content t) k = blank →
    match NorFlash.write (UInt32.ofNat (2 * k)) (FlashJournal.recordBytes s) t with
    | .ok _ t' => word (content t') = program k s.asBytes (word (content t)) ∧
        (Good t → Good t')
    | .error _ t' => TornProgram State.read? k s.asBytes (word (content t)) (word (content t')) ∧
        ¬ Good t
  erase_law : ∀ (t : T) (lo hi : Nat), lo ≤ hi → hi ≤ pages →
    match NorFlash.erase (UInt32.ofNat (lo * (2 * pageWords)))
      (UInt32.ofNat (hi * (2 * pageWords))) t with
    | .ok _ t' => word (content t') = erase blank (lo * pageWords) (hi * pageWords)
        (word (content t)) ∧ (Good t → Good t')
    | .error _ t' => tornErase (lo * pageWords) (hi * pageWords) (word (content t))
        (word (content t')) ∧ ¬ Good t

/-! ### The words before and after

`storeWords` has a case for each branch of the source, and `TornSet` a case for each operation of
each branch. What is known of the cache by the branch is turned into facts about words here, once.
-/

/-- The words after a completed update with the record `s`: one case per branch
of `writeState`. -/
def storeWords (pages pageWords : Nat) (w : Nat → Word) (s : State) : Nat → Word :=
  match (scanWords w (pages * pageWords)).empty, (scanWords w (pages * pageWords)).last with
  | some a, _ => program a s.asBytes w
  | none, some (_, i) =>
      if pageWords ≤ i then
        erase blank pageWords (pages * pageWords)
          (program 0 s.asBytes (erase blank 0 pageWords w))
      else
        program pageWords s.asBytes (erase blank pageWords (pages * pageWords) w)
  | none, none => program 0 s.asBytes (erase blank 0 (pages * pageWords) w)

/-- What an interrupted update with the record `s` can leave behind. The names
follow the branches of `writeState`: `append` writes behind the last record,
`roll` starts over in the first page, `spill` moves on to the second page, and
`clear` starts with an empty storage. -/
inductive TornSet (tornErase : Nat → Nat → (Nat → Word) → (Nat → Word) → Prop)
    (pages pageWords : Nat) (w : Nat → Word) (s : State) (w' : Nat → Word) : Prop where
  | append (a : Nat) (he : (scanWords w (pages * pageWords)).empty = some a)
      (h : TornProgram State.read? a s.asBytes w w')
  | rollEraseFirst (b : State) (i : Nat)
      (he : (scanWords w (pages * pageWords)).empty = none)
      (hl : (scanWords w (pages * pageWords)).last = some (b, i)) (hi : pageWords ≤ i)
      (h : tornErase 0 pageWords w w')
  | rollWrite (b : State) (i : Nat)
      (he : (scanWords w (pages * pageWords)).empty = none)
      (hl : (scanWords w (pages * pageWords)).last = some (b, i)) (hi : pageWords ≤ i)
      (h : TornProgram State.read? 0 s.asBytes (erase blank 0 pageWords w) w')
  | rollEraseRest (b : State) (i : Nat)
      (he : (scanWords w (pages * pageWords)).empty = none)
      (hl : (scanWords w (pages * pageWords)).last = some (b, i)) (hi : pageWords ≤ i)
      (h : tornErase pageWords (pages * pageWords)
        (program 0 s.asBytes (erase blank 0 pageWords w)) w')
  | spillErase (b : State) (i : Nat)
      (he : (scanWords w (pages * pageWords)).empty = none)
      (hl : (scanWords w (pages * pageWords)).last = some (b, i)) (hi : i < pageWords)
      (h : tornErase pageWords (pages * pageWords) w w')
  | spillWrite (b : State) (i : Nat)
      (he : (scanWords w (pages * pageWords)).empty = none)
      (hl : (scanWords w (pages * pageWords)).last = some (b, i)) (hi : i < pageWords)
      (h : TornProgram State.read? pageWords s.asBytes
        (erase blank pageWords (pages * pageWords) w) w')
  | clearErase (he : (scanWords w (pages * pageWords)).empty = none)
      (hl : (scanWords w (pages * pageWords)).last = none)
      (h : tornErase 0 (pages * pageWords) w w')
  | clearWrite (he : (scanWords w (pages * pageWords)).empty = none)
      (hl : (scanWords w (pages * pageWords)).last = none)
      (h : TornProgram State.read? 0 s.asBytes (erase blank 0 (pages * pageWords) w) w')

/-- The scan of words, read back. -/
theorem isScan_scanWords (w : Nat → Word) (n : Nat) :
    RecordLog.IsScan State.read? isBlank w n (scanWords w n) :=
  RecordLog.isScan_scan w n

/-- The empty word that the scan found is behind the last record. -/
theorem behind_of_empty {w : Nat → Word} {n a : Nat} (he : (scanWords w n).empty = some a) :
    a < n ∧ w a = blank ∧ Behind (last State.read? w n) a := by
  have hs := isScan_scanWords w n
  obtain ⟨ha, hb, hbehind, -⟩ := hs.empty_some a he
  exact ⟨ha, isBlank_iff.mp hb, by rw [← hs.last_eq]; exact hbehind⟩

/-- The scan finds the first erased word behind the last record. -/
theorem empty_of_first {w : Nat → Word} {n a : Nat} (ha : a < n) (hblank : w a = blank)
    (hbehind : Behind (last State.read? w n) a)
    (hfirst : ∀ k, k < a → Behind (last State.read? w n) k → w k ≠ blank) :
    (scanWords w n).empty = some a := by
  have hscan := isScan_scanWords w n
  rw [← hscan.last_eq] at hbehind hfirst
  cases he : (scanWords w n).empty with
  | none => exact absurd (isBlank_iff.mpr hblank) (hscan.empty_none he a ha hbehind)
  | some a' =>
      obtain ⟨-, hblank', hbehind', hfirst'⟩ := hscan.empty_some a' he
      rcases Nat.lt_trichotomy a a' with hlt | rfl | hlt
      · exact absurd (isBlank_iff.mpr hblank) (hfirst' a hlt hbehind)
      · rfl
      · exact absurd (isBlank_iff.mp hblank') (hfirst a' hlt hbehind')

/-- Without an erased word behind the last record the scan finds none. -/
theorem empty_of_full {w : Nat → Word} {n : Nat}
    (hfull : ∀ k, k < n → Behind (last State.read? w n) k → w k ≠ blank) :
    (scanWords w n).empty = none := by
  cases he : (scanWords w n).empty with
  | none => rfl
  | some a =>
      obtain ⟨ha, hblank, hbehind⟩ := behind_of_empty he
      exact absurd hblank (hfull a ha hbehind)

/-- The last record that the scan found. -/
theorem last_of_scan {w : Nat → Word} {n : Nat} :
    (scanWords w n).last = last State.read? w n := (isScan_scanWords w n).last_eq

/-- The last record is one of the words. -/
theorem lt_of_last {w : Nat → Word} {n : Nat} {b : State} {i : Nat}
    (h : (scanWords w n).last = some (b, i)) : i < n := by
  rw [last_of_scan] at h
  exact (RecordLog.last_eq_some_iff.mp h).1

section Pages

variable {pages pageWords : Nat} (hP : 2 ≤ pages) (hW : 0 < pageWords)
include hP hW

/-- The second page exists. -/
theorem pageWords_lt_words : pageWords < pages * pageWords := by
  have h : 2 * pageWords ≤ pages * pageWords := Nat.mul_le_mul_right pageWords hP
  omega

/-- After a completed update the record `s` is the current one. -/
theorem current_storeWords (w : Nat → Word) (s : State) :
    current State.read? (storeWords pages pageWords w s) (pages * pageWords) = some s := by
  have hlt := pageWords_lt_words hP hW
  have hs : State.read? s.asBytes = some s := State.read?_asBytes s
  unfold storeWords
  cases he : (scanWords w (pages * pageWords)).empty with
  | some a =>
      obtain ⟨ha, -, hbehind⟩ := behind_of_empty he
      exact RecordLog.current_eq_some (RecordLog.last_program ha hs hbehind)
  | none =>
      cases hl : (scanWords w (pages * pageWords)).last with
      | none =>
          refine RecordLog.current_eq_some (RecordLog.last_program (by omega) hs ?_)
          rw [(RecordLog.tornErase_erase read?_blank 0 _ w).last_eq_none
            (by rw [← last_of_scan, hl])]
          exact fun b j h => nomatch h
      | some p =>
          obtain ⟨b, i⟩ := p
          by_cases hi : pageWords ≤ i
          · -- Only the new record in word 0 is left.
            simp only [if_pos hi]
            refine RecordLog.current_eq_some (i := 0)
              (RecordLog.last_eq_some_iff.mpr ⟨by omega, ?_, fun j hj hjn => ?_⟩)
            · rw [RecordLog.erase_of_not_mem (by omega), RecordLog.program_self]
              exact hs
            · by_cases hjw : pageWords ≤ j
              · rw [RecordLog.erase_of_mem hjw hjn]; exact read?_blank
              · rw [RecordLog.erase_of_not_mem (by omega), RecordLog.program_of_ne (by omega),
                  RecordLog.erase_of_mem (by omega) (by omega)]
                exact read?_blank
          · simp only [if_neg hi]
            refine RecordLog.current_eq_some (RecordLog.last_program hlt hs ?_)
            rw [(RecordLog.tornErase_erase read?_blank _ _ w).last_eq
              (by rw [← last_of_scan, hl]) (by omega : ¬ (pageWords ≤ i ∧ i < _))]
            intro b' j h
            cases h
            omega

end Pages

namespace FlashJournal

variable {T E : Type} [NorFlash T E] {pages pageWords : Nat} [PagedFlash T E pages pageWords]

/-! ### The operations as triples -/

/-- The storage holds the words `w`, and is good if `G` holds. -/
def Holds (w : Nat → Word) (G : Prop) (t : T) : Prop :=
  word (ReadableFlash.content t) = w ∧ (G → ReadableFlash.Good t)

/-- A write of a record into an erased word. -/
theorem write_triple (w : Nat → Word) (G : Prop) {k : Nat} (s : State)
    (hk : k < pages * pageWords) (hblank : w k = blank) :
    Triple (Holds (T := T) w G)
      (NorFlash.write (UInt32.ofNat (2 * k)) (recordBytes s))
      (fun _ => Holds (program k s.asBytes w) G)
      (fun _ t =>
        TornProgram State.read? k s.asBytes w (word (ReadableFlash.content t)) ∧ ¬ G) := by
  rintro t ⟨rfl, hgood⟩
  have h := PagedFlash.write_law t k s hk hblank
  cases hr : (NorFlash.write (UInt32.ofNat (2 * k)) (recordBytes s) : Exec E T Unit) t with
  | ok _ t' =>
      rw [hr] at h
      exact ⟨h.1, fun hG => h.2 (hgood hG)⟩
  | error e t' =>
      rw [hr] at h
      exact ⟨h.1, fun hG => h.2 (hgood hG)⟩

/-- An erase of the pages `lo ≤ i < hi`, which are the words `first ≤ i < stop`. -/
theorem erase_triple (w : Nat → Word) (G : Prop) {lo hi first stop : Nat} (hle : lo ≤ hi)
    (hhi : hi ≤ pages) (hfirst : lo * pageWords = first) (hstop : hi * pageWords = stop) :
    Triple (Holds (T := T) w G)
      (NorFlash.erase (UInt32.ofNat (lo * (2 * pageWords)))
        (UInt32.ofNat (hi * (2 * pageWords))))
      (fun _ => Holds (erase blank first stop w) G)
      (fun _ t => PagedFlash.tornErase T first stop w (word (ReadableFlash.content t)) ∧
        ¬ G) := by
  subst hfirst hstop
  rintro t ⟨rfl, hgood⟩
  have h := PagedFlash.erase_law t lo hi hle hhi
  cases hr : (NorFlash.erase (UInt32.ofNat (lo * (2 * pageWords)))
      (UInt32.ofNat (hi * (2 * pageWords))) : Exec E T Unit) t with
  | ok _ t' =>
      rw [hr] at h
      exact ⟨h.1, fun hG => h.2 (hgood hG)⟩
  | error e t' =>
      rw [hr] at h
      exact ⟨h.1, fun hG => h.2 (hgood hG)⟩

/-- The storage has `pages` pages. -/
theorem pageCount_eq {pageWords : Nat} [PagedFlash T E pages pageWords] (t : T) :
    pageCount t = pages := by
  have hW := PagedFlash.pageWords_pos (T := T)
  unfold pageCount divCeil
  rw [PagedFlash.capacity_eq, PagedFlash.eraseSize_eq]
  rw [show 2 * (pages * pageWords) + 2 * pageWords - 1
      = 2 * pageWords - 1 + 2 * pageWords * pages by
    rw [Nat.mul_assoc, Nat.mul_comm pageWords pages]; omega]
  rw [Nat.add_mul_div_left _ _ (by omega), Nat.div_eq_of_lt (by omega), Nat.zero_add]

/-- `erasePages` inside the storage is one erase of these pages. -/
theorem erasePages_eq {lo hi : Nat} (hhi : hi ≤ pages) :
    (erasePages lo hi : Exec E T Unit)
      = NorFlash.erase (UInt32.ofNat (lo * (2 * pageWords)))
          (UInt32.ofNat (hi * (2 * pageWords))) := by
  have hle : hi * (2 * pageWords) ≤ 2 * (pages * pageWords) := by
    have h := Nat.mul_le_mul_right (2 * pageWords) hhi
    rw [Nat.mul_left_comm pages 2 pageWords] at h
    exact h
  unfold erasePages
  refine Exec.get_bind_eq fun t => ?_
  rw [PagedFlash.capacity_eq, PagedFlash.eraseSize_eq, Nat.min_eq_left hle]

/-- The page of an address: the source's page index of word `i`. -/
theorem addressToPageI_pos (t : T) {i : Nat} (hi : i < pages * pageWords) :
    addressToPageI T (UInt32.ofNat (2 * i)) > 0 ↔ pageWords ≤ i := by
  have hW := PagedFlash.pageWords_pos (T := T)
  have hcap := ReadableFlash.capacity_lt t
  rw [PagedFlash.capacity_eq] at hcap
  have hlt : 2 * i < 2 ^ 32 := by omega
  have haddr : (UInt32.ofNat (2 * i)).toNat = 2 * i := UInt32.toNat_ofNat_of_lt' hlt
  unfold addressToPageI
  rw [haddr, PagedFlash.eraseSize_eq, Nat.mul_div_mul_left _ _ (by omega), gt_iff_lt,
    Nat.div_pos_iff]
  omega

/-! ### The update

`writeState_spec` splits into the branches, and the three with an erase have a lemma of their own.
`set_spec` puts the early return in front and the readback behind. -/

/-- The page-0 record of the roll-over goes into an erased word. -/
theorem erase_zero_eq_blank {w : Nat → Word} {hi : Nat} (h : 0 < hi) :
    erase blank 0 hi w 0 = blank := RecordLog.erase_of_mem (Nat.le_refl 0) h w

/-- The roll-over branch as three operations of the storage. -/
theorem roll_eq (s : State) :
    (do
      erasePages 0 1
      NorFlash.write 0 (recordBytes s)
      erasePages 1 (pageCount (← MonadState.get)) : Exec E T Unit)
    = (do
      NorFlash.erase (UInt32.ofNat (0 * (2 * pageWords))) (UInt32.ofNat (1 * (2 * pageWords)))
      NorFlash.write (UInt32.ofNat (2 * 0)) (recordBytes s)
      NorFlash.erase (UInt32.ofNat (1 * (2 * pageWords)))
        (UInt32.ofNat (pages * (2 * pageWords)))) := by
  have hP := PagedFlash.two_le_pages (T := T)
  have hrest : (MonadState.get >>= fun t : T => erasePages 1 (pageCount t) : Exec E T Unit)
      = NorFlash.erase (UInt32.ofNat (1 * (2 * pageWords)))
          (UInt32.ofNat (pages * (2 * pageWords))) :=
    Exec.get_bind_eq fun t => by rw [pageCount_eq t, erasePages_eq (Nat.le_refl pages)]
  rw [hrest, erasePages_eq (by omega : 1 ≤ pages)]
  rfl

/-- The spill branch as two operations of the storage. -/
theorem spill_eq (s : State) :
    (do
      erasePages 1 (pageCount (← MonadState.get))
      NorFlash.write (UInt32.ofNat (1 * NorFlash.eraseSize T)) (recordBytes s) : Exec E T Unit)
    = (do
      NorFlash.erase (UInt32.ofNat (1 * (2 * pageWords)))
        (UInt32.ofNat (pages * (2 * pageWords)))
      NorFlash.write (UInt32.ofNat (2 * pageWords)) (recordBytes s)) :=
  Exec.get_bind_eq fun t => by
    rw [pageCount_eq t, erasePages_eq (Nat.le_refl pages), PagedFlash.eraseSize_eq, Nat.one_mul]

/-- The clear branch as two operations of the storage. -/
theorem clear_eq (s : State) :
    (do
      NorFlash.erase 0 (UInt32.ofNat (NorFlash.capacity (← MonadState.get)))
      NorFlash.write 0 (recordBytes s) : Exec E T Unit)
    = (do
      NorFlash.erase (UInt32.ofNat (0 * (2 * pageWords)))
        (UInt32.ofNat (pages * (2 * pageWords)))
      NorFlash.write (UInt32.ofNat (2 * 0)) (recordBytes s)) :=
  Exec.get_bind_eq fun t => by
    rw [PagedFlash.capacity_eq, Nat.zero_mul, Nat.mul_left_comm]
    rfl

/-- The roll-over branch: the last record is behind the first page. -/
theorem writeState_roll (w : Nat → Word) (G : Prop) (s b : State) {i : Nat}
    (he : (scanWords w (pages * pageWords)).empty = none)
    (hl : (scanWords w (pages * pageWords)).last = some (b, i)) (hi : pageWords ≤ i) :
    Triple (Holds (T := T) w G)
      (do
        erasePages 0 1
        NorFlash.write 0 (recordBytes s)
        erasePages 1 (pageCount (← MonadState.get)))
      (fun _ => Holds (erase blank pageWords (pages * pageWords)
        (program 0 s.asBytes (erase blank 0 pageWords w))) G)
      (fun _ t => TornSet (PagedFlash.tornErase T) pages pageWords w s
        (word (ReadableFlash.content t)) ∧ ¬ G) := by
  have hP := PagedFlash.two_le_pages (T := T)
  have hW := PagedFlash.pageWords_pos (T := T)
  have hlt := pageWords_lt_words hP hW
  rw [roll_eq]
  -- One triple for each of the three operations. Where the update is interrupted decides which case
  -- of `TornSet` it is.
  have h1 := erase_triple (T := T) w G (by omega : 0 ≤ 1) (by omega : 1 ≤ pages)
    (Nat.zero_mul pageWords) (Nat.one_mul pageWords)
  have h2 := write_triple (T := T) (erase blank 0 pageWords w) G s
    (by omega : 0 < pages * pageWords) (erase_zero_eq_blank hW)
  have h3 := erase_triple (T := T) (program 0 s.asBytes (erase blank 0 pageWords w)) G
    (by omega : 1 ≤ pages) (Nat.le_refl pages) (Nat.one_mul pageWords) rfl
  exact Triple.bind (h1.mono_crash fun _ _ h => ⟨.rollEraseFirst b i he hl hi h.1, h.2⟩) fun _ =>
    Triple.bind (h2.mono_crash fun _ _ h => ⟨.rollWrite b i he hl hi h.1, h.2⟩) fun _ =>
    h3.mono_crash fun _ _ h => ⟨.rollEraseRest b i he hl hi h.1, h.2⟩

/-- The spill branch: the last record is in the first page, and there is no
empty word behind it. -/
theorem writeState_spill (w : Nat → Word) (G : Prop) (s b : State) {i : Nat}
    (he : (scanWords w (pages * pageWords)).empty = none)
    (hl : (scanWords w (pages * pageWords)).last = some (b, i)) (hi : i < pageWords) :
    Triple (Holds (T := T) w G)
      (do
        erasePages 1 (pageCount (← MonadState.get))
        NorFlash.write (UInt32.ofNat (1 * NorFlash.eraseSize T)) (recordBytes s))
      (fun _ => Holds (program pageWords s.asBytes
        (erase blank pageWords (pages * pageWords) w)) G)
      (fun _ t => TornSet (PagedFlash.tornErase T) pages pageWords w s
        (word (ReadableFlash.content t)) ∧ ¬ G) := by
  have hP := PagedFlash.two_le_pages (T := T)
  have hlt := pageWords_lt_words hP (PagedFlash.pageWords_pos (T := T))
  rw [spill_eq]
  have h1 := erase_triple (T := T) w G (by omega : 1 ≤ pages) (Nat.le_refl pages)
    (Nat.one_mul pageWords) rfl
  have h2 := write_triple (T := T) (erase blank pageWords (pages * pageWords) w) G s hlt
    (RecordLog.erase_of_mem (Nat.le_refl pageWords) hlt w)
  exact Triple.bind (h1.mono_crash fun _ _ h => ⟨.spillErase b i he hl hi h.1, h.2⟩) fun _ =>
    h2.mono_crash fun _ _ h => ⟨.spillWrite b i he hl hi h.1, h.2⟩

/-- The clear branch: no record and no empty word. -/
theorem writeState_clear (w : Nat → Word) (G : Prop) (s : State)
    (he : (scanWords w (pages * pageWords)).empty = none)
    (hl : (scanWords w (pages * pageWords)).last = none) :
    Triple (Holds (T := T) w G)
      (do
        NorFlash.erase 0 (UInt32.ofNat (NorFlash.capacity (← MonadState.get)))
        NorFlash.write 0 (recordBytes s))
      (fun _ => Holds (program 0 s.asBytes (erase blank 0 (pages * pageWords) w)) G)
      (fun _ t => TornSet (PagedFlash.tornErase T) pages pageWords w s
        (word (ReadableFlash.content t)) ∧ ¬ G) := by
  have hP := PagedFlash.two_le_pages (T := T)
  have hlt := pageWords_lt_words hP (PagedFlash.pageWords_pos (T := T))
  rw [clear_eq]
  have h1 := erase_triple (T := T) w G (Nat.zero_le pages) (Nat.le_refl pages)
    (Nat.zero_mul pageWords) rfl
  have h2 := write_triple (T := T) (erase blank 0 (pages * pageWords) w) G s
    (by omega : 0 < pages * pageWords) (erase_zero_eq_blank (by omega))
  exact Triple.bind (h1.mono_crash fun _ _ h => ⟨.clearErase he hl h.1, h.2⟩) fun _ =>
    h2.mono_crash fun _ _ h => ⟨.clearWrite he hl h.1, h.2⟩

/-- `writeState` takes the roll-over branch when there is no empty word behind the
last record, and that record is behind the first page. -/
theorem writeState_eq_roll {w : Nat → Word} (s : State) {b : State} {i : Nat}
    (he : (scanWords w (pages * pageWords)).empty = none)
    (hl : (scanWords w (pages * pageWords)).last = some (b, i)) (hi : pageWords ≤ i) (t : T) :
    (writeState (cacheOfScan (scanWords w (pages * pageWords))) s : Exec E T Unit)
      = (do
        erasePages 0 1
        NorFlash.write 0 (recordBytes s)
        erasePages 1 (pageCount (← MonadState.get))) := by
  have hin := lt_of_last hl
  unfold writeState
  simp only [cacheOfScan, he, hl, Option.map_none, Option.map_some]
  -- The page test of the source is the word test of `storeWords`.
  rw [if_pos ((addressToPageI_pos t hin).mpr hi)]

/-- `writeState` takes the spill branch when that record is in the first page. -/
theorem writeState_eq_spill {w : Nat → Word} (s : State) {b : State} {i : Nat}
    (he : (scanWords w (pages * pageWords)).empty = none)
    (hl : (scanWords w (pages * pageWords)).last = some (b, i)) (hi : ¬ pageWords ≤ i) (t : T) :
    (writeState (cacheOfScan (scanWords w (pages * pageWords))) s : Exec E T Unit)
      = (do
        erasePages 1 (pageCount (← MonadState.get))
        NorFlash.write (UInt32.ofNat (1 * NorFlash.eraseSize T)) (recordBytes s)) := by
  have hin := lt_of_last hl
  unfold writeState
  simp only [cacheOfScan, he, hl, Option.map_none, Option.map_some]
  rw [if_neg fun h => hi ((addressToPageI_pos t hin).mp h)]

/-- `writeState`, from the cache of the words `w`: it completes the update, or
stops inside one of its operations. -/
theorem writeState_spec (w : Nat → Word) (G : Prop) (s : State) :
    Triple (Holds (T := T) w G)
      (writeState (cacheOfScan (scanWords w (pages * pageWords))) s)
      (fun _ => Holds (storeWords pages pageWords w s) G)
      (fun _ t => TornSet (PagedFlash.tornErase T) pages pageWords w s
        (word (ReadableFlash.content t)) ∧ ¬ G) := by
  unfold writeState storeWords
  -- The four branches of the source: the cache has an empty word, or no record, or a record on a
  -- later page or on the first one.
  cases he : (scanWords w (pages * pageWords)).empty with
  | some a =>
      obtain ⟨ha, hblank, -⟩ := behind_of_empty he
      simp only [cacheOfScan, he, Option.map_some]
      exact (write_triple w G s ha hblank).mono_crash fun _ _ h => ⟨.append a he h.1, h.2⟩
  | none =>
      cases hl : (scanWords w (pages * pageWords)).last with
      | none =>
          simp only [cacheOfScan, he, hl, Option.map_none]
          exact writeState_clear w G s he hl
      | some p =>
          obtain ⟨b, i⟩ := p
          by_cases hpage : pageWords ≤ i
          · intro t ht
            have hroll := writeState_eq_roll (T := T) s he hl hpage t
            unfold writeState at hroll
            rw [hroll]
            simp only [if_pos hpage]
            exact writeState_roll w G s b he hl hpage t ht
          · intro t ht
            have hspill := writeState_eq_spill (T := T) s he hl hpage t
            unfold writeState at hspill
            rw [hspill]
            simp only [if_neg hpage]
            exact writeState_spill w G s b he hl (by omega) t ht

/-- The cache of a storage that holds the words `w`. -/
theorem scanCache_content (t : T) :
    scanCache (ReadableFlash.content t)
      = cacheOfScan (scanWords (word (ReadableFlash.content t)) (pages * pageWords)) := by
  rw [scanCache_eq, ReadableFlash.length_content, PagedFlash.capacity_eq,
    Nat.mul_div_cancel_left _ (by omega)]

/-- The handle knows what its storage holds. -/
def InSync (j : FlashJournal T) : Prop := j.cache = scanCache (ReadableFlash.content j.inner)

/-- The record that a reader of the storage finds. -/
def persisted (pages pageWords : Nat) (t : T) : Option State :=
  current State.read? (word (ReadableFlash.content t)) (pages * pageWords)

/-- What `get` returns on a cache of words: the current record. -/
theorem map_state_cacheOfScan (w : Nat → Word) (n : Nat) :
    (cacheOfScan (scanWords w n)).lastValidState.map StateWithAddr.state
      = current State.read? w n := by
  rw [current, ← last_of_scan, cacheOfScan, Option.map_map]
  rfl

/-- A handle in sync reads the persisted record. -/
theorem InSync.get_eq {j : FlashJournal T} (h : InSync j) :
    j.get = persisted pages pageWords j.inner := by
  rw [get, h, scanCache_content, map_state_cacheOfScan, persisted]

/-- The run of `set` for a state other than the cached one: `writeState` on the
storage, then `computeCache`, then the readback check. -/
theorem set_run_of_ne {n : Nat} {s : State} {j : FlashJournal T} (h : j.get ≠ some s) :
    (set n s : Exec (Error E) (FlashJournal T) Unit) j
      = match writeState j.cache s j.inner with
        | .error e t => .error (e.map .Other) { j with inner := t }
        | .ok _ t =>
            match computeCache n t with
            | .error e t' => .error (e.map .Other) { j with inner := t' }
            | .ok cache t' =>
                if (FlashJournal.mk t' cache).get = some s then .ok () ⟨t', cache⟩
                else .error (.error .ReadbackFailed) ⟨t', cache⟩ := by
  have hset : (set n s : Exec (Error E) (FlashJournal T) Unit) j
      = (do
        onInner (writeState j.cache s)
        let cache ← onInner (computeCache n)
        modify fun self => { self with cache }
        if (← MonadState.get).get = some s then
          pure ()
        else
          Exec.fail .ReadbackFailed : Exec (Error E) (FlashJournal T) Unit) j := by
    show (if j.get = some s then _ else _ : Exec (Error E) (FlashJournal T) Unit) j = _
    rw [if_neg h]
  rw [hset]
  cases hw : (writeState j.cache s : Exec E T Unit) j.inner with
  | error e t =>
      have hwrite : (onInner (writeState j.cache s) : Exec (Error E) (FlashJournal T) Unit) j
          = .error (e.map .Other) { j with inner := t } := Exec.zoom_error hw
      rw [Exec.bind_error hwrite]
  | ok _ t =>
      have hwrite : (onInner (writeState j.cache s) : Exec (Error E) (FlashJournal T) Unit) j
          = .ok () { j with inner := t } := Exec.zoom_ok hw
      rw [Exec.bind_ok hwrite]
      cases hc : (computeCache n : Exec E T Cache) t with
      | error e t' =>
          -- The handle keeps the cache from before the write.
          have hcompute : (onInner (computeCache n) : Exec (Error E) (FlashJournal T) Cache)
              { j with inner := t } = .error (e.map .Other) { j with inner := t' } :=
            Exec.zoom_error hc
          rw [Exec.bind_error hcompute]
          simp only [hc]
      | ok cache t' =>
          have hcompute : (onInner (computeCache n) : Exec (Error E) (FlashJournal T) Cache)
              { j with inner := t } = .ok cache { j with inner := t' } := Exec.zoom_ok hc
          rw [Exec.bind_ok hcompute]
          simp only [hc]
          show (if (FlashJournal.mk t' cache).get = some s then _ else _ :
            Exec (Error E) (FlashJournal T) Unit) ⟨t', cache⟩ = _
          split <;> rfl

/-- The run of `set` for the cached state: nothing happens. -/
theorem set_run_of_eq {n : Nat} {s : State} {j : FlashJournal T} (h : j.get = some s) :
    (set n s : Exec (Error E) (FlashJournal T) Unit) j = .ok () j := by
  show (if j.get = some s then _ else _ : Exec (Error E) (FlashJournal T) Unit) j = _
  rw [if_pos h]
  rfl

/-- The words after a completed `set`: unchanged for the current record. -/
def setWords (pages pageWords : Nat) (w : Nat → Word) (s : State) : Nat → Word :=
  if current State.read? w (pages * pageWords) = some s then w
  else storeWords pages pageWords w s

/-- `set` on a handle in sync. It returns with the record persisted and the
handle in sync, or it fails and leaves a torn update, or a complete one whose
readback failed. -/
theorem set_spec (w : Nat → Word) (G : Prop) {n : Nat} (hn : BlockSize n) (s : State) :
    Triple (fun j : FlashJournal T => InSync j ∧ Holds w G j.inner) (set n s)
      (fun _ j' => InSync j' ∧ persisted pages pageWords j'.inner = some s ∧
        Holds (setWords pages pageWords w s) G j'.inner)
      (fun _ j' => (TornSet (PagedFlash.tornErase T) pages pageWords w s
          (word (ReadableFlash.content j'.inner)) ∨
        word (ReadableFlash.content j'.inner) = storeWords pages pageWords w s) ∧ ¬ G) := by
  rintro j ⟨hsync, hw, hgood⟩
  have hget : j.get = current State.read? w (pages * pageWords) := by
    rw [hsync.get_eq, persisted, hw]
  by_cases h : j.get = some s
  · -- The early return: a handle in sync is right about the current record.
    rw [set_run_of_eq h]
    refine ⟨hsync, by rw [← hsync.get_eq, h], ?_, hgood⟩
    rw [setWords, if_pos (by rw [← hget, h]), hw]
  · rw [set_run_of_ne h]
    have hcache : j.cache = cacheOfScan (scanWords w (pages * pageWords)) := by
      rw [hsync, scanCache_content, hw]
    rw [hcache]
    have hwrite := writeState_spec (T := T) w G s j.inner ⟨hw, hgood⟩
    cases hr : (writeState (cacheOfScan (scanWords w (pages * pageWords))) s : Exec E T Unit)
        j.inner with
    | error e t =>
        rw [hr] at hwrite
        exact ⟨.inl hwrite.1, hwrite.2⟩
    | ok _ t =>
        rw [hr] at hwrite
        obtain ⟨ht, htgood⟩ := hwrite
        have hcompute := computeCache_spec (T := T) (ReadableFlash.content t) G hn t
          ⟨rfl, htgood⟩
        simp only
        cases hc : (computeCache n : Exec E T Cache) t with
        | error e t' =>
            -- The update is complete, only the readback failed.
            rw [hc] at hcompute
            refine ⟨.inr ?_, hcompute.2⟩
            rw [← ht]
            exact congrArg word hcompute.1
        | ok cache t' =>
            rw [hc] at hcompute
            obtain ⟨hcache', hcontent', hgood'⟩ := hcompute
            have hsync' : InSync (FlashJournal.mk t' cache) := by
              rw [InSync, hcontent']; exact hcache'
            have hwords : word (ReadableFlash.content t') = storeWords pages pageWords w s := by
              rw [hcontent', ht]
            have hpers : persisted pages pageWords t' = some s := by
              rw [persisted, hwords]
              exact current_storeWords (PagedFlash.two_le_pages (T := T))
                (PagedFlash.pageWords_pos (T := T)) w s
            -- So the readback check never fails.
            simp only
            rw [if_pos (by rw [hsync'.get_eq]; exact hpers)]
            refine ⟨hsync', hpers, ?_, hgood'⟩
            rw [hwords, setWords, if_neg (by rw [← hget]; exact h)]

/-- The run of `new` on a storage with enough pages: `computeCache`, and a handle
with what it found. -/
theorem new_run {pageWords : Nat} [PagedFlash T E pages pageWords] (n : Nat) (t : T) :
    (new n : Exec (Error E) T (FlashJournal T)) t
      = match computeCache n t with
        | .ok cache t' => .ok ⟨t', cache⟩ t'
        | .error e t' => .error (e.map .Other) t' := by
  have hpages : 2 ≤ pageCount t := by
    rw [pageCount_eq t]
    exact PagedFlash.two_le_pages (T := T)
  exact new_of_pages hpages

/-- `new` opens a handle in sync and leaves the content as it is. -/
theorem new_spec (content : List UInt8) (G : Prop) {n : Nat} (hn : BlockSize n) :
    Triple (fun t : T => ReadableFlash.content t = content ∧ (G → ReadableFlash.Good t))
      (new n)
      (fun j t => j.inner = t ∧ InSync j ∧ ReadableFlash.content t = content ∧
        (G → ReadableFlash.Good t))
      (fun _ t => ReadableFlash.content t = content ∧ ¬ G) := by
  rintro t ⟨hcontent, hgood⟩
  have hcompute := computeCache_spec (T := T) content G hn t ⟨hcontent, hgood⟩
  rw [new_run]
  cases hc : (computeCache n : Exec E T Cache) t with
  | error e t' =>
      rw [hc] at hcompute
      exact hcompute
  | ok cache t' =>
      rw [hc] at hcompute
      obtain ⟨hcache, hcontent', hgood'⟩ := hcompute
      refine ⟨rfl, ?_, hcontent', hgood'⟩
      show cache = scanCache (ReadableFlash.content t')
      rw [hcontent', hcache]

/-- `new` succeeds when no read fails. `R` has the same content as the storage, and
says when no read fails: the storage itself need not be good. -/
theorem new_of_readable (R : ReadableFlash T E)
    (hR : ∀ t, R.content t = @ReadableFlash.content T E _ PagedFlash.toReadableFlash t) {n : Nat}
    (hn : BlockSize n) {t : T} (hgood : R.Good t) :
    ∃ j t', (new n : Exec (Error E) T (FlashJournal T)) t = .ok j t' ∧ j.inner = t' ∧
      InSync j ∧ R.content t' = R.content t ∧ j.get = persisted pages pageWords t := by
  have hcompute := @computeCache_spec _ _ _ R (R.content t) True n hn
  obtain ⟨cache, t', hr, hcache, hcontent, -⟩ :=
    hcompute.returns (fun _ _ h => h.2 trivial) ⟨rfl, fun _ => hgood⟩
  have hsync : InSync (FlashJournal.mk t' cache) := by
    unfold InSync
    rw [← hR, hcontent]
    exact hcache
  refine ⟨⟨t', cache⟩, t', ?_, rfl, hsync, hcontent, ?_⟩
  · rw [new_run, hr]
  · rw [hsync.get_eq]
    unfold persisted
    rw [← hR, ← hR, hcontent]

end FlashJournal

end EcSlimloader
