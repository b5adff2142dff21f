import EcSlimloader.Lib.RecordLog
import EcSlimloader.State.Journal

/-!
# `EcSlimloader.Proofs.Journal.Scan`: what `computeCache` finds

`computeCache` reads the storage in blocks and keeps a running cache.
`computeCache_triple` states its result for every block size the source accepts:
the cache is `scanCache` of the whole content, the plain scan with one block.
`scanCache_eq` connects the plain scan with `RecordLog.scan` over the words of
the content, so the cache holds the last record and the first empty word behind
it, at their byte addresses.

The storage enters through `ReadsContent`: it has a content, and an aligned
read inside the content returns that part of it or fails. `ReadableFlash` is the
class of storages with such reads, and `computeCache_spec` the result for them.

The step of the block loop is `scanBlock_append`: scanning two pieces one after the other is
scanning them as one, when the first has an even length. A block has an even size, which the source
asserts, so the records do not straddle two blocks. The last block may be shorter.

A read that fails ends the loop. The class of the storage says in which state, so the triples have a
crash condition instead of an assumption that reads succeed.
-/

set_option autoImplicit false

namespace EcSlimloader

open RecordLog (Scan)

/-! ### Words of a content -/

/-- The word `k` of a content. Behind the content every byte is erased. -/
def word (content : List UInt8) (k : Nat) : UInt8 × UInt8 :=
  (content.getD (2 * k) 0xff, content.getD (2 * k + 1) 0xff)

/-- The erased word. -/
def blank : UInt8 × UInt8 := (0xff, 0xff)

/-- A word is empty when it is erased. -/
def isBlank (w : UInt8 × UInt8) : Bool := w == blank

/-- The check of the source for an erased word. -/
@[simp] theorem isBlank_iff {w : UInt8 × UInt8} : isBlank w = true ↔ w = blank := beq_iff_eq

/-- An erased word holds no record. -/
@[simp] theorem read?_blank : State.read? blank = none := State.read?_erased 0xff

namespace FlashJournal

/-! ### The plain scan

`scanCache` is the loop with one block and no buffer. Its steps are the words in order, so it is a
scan in the sense of `RecordLog`. -/

/-- A full number of words can be split off. -/
theorem chunksExact_append : ∀ (n : Nat) (xs ys : List UInt8), xs.length = 2 * n →
    chunksExact (xs ++ ys) = chunksExact xs ++ chunksExact ys := by
  intro n
  induction n with
  | zero =>
      intro xs ys h
      rw [List.length_eq_zero_iff.mp (by omega : xs.length = 0)]
      simp [chunksExact]
  | succ n ih =>
      intro xs ys h
      match xs, h with
      | a :: b :: rest, h =>
          have hrest : rest.length = 2 * n := by
            simp only [List.length_cons] at h; omega
          simp [chunksExact, ih rest ys hrest]

/-- The number of full words. -/
theorem length_chunksExact : ∀ (n : Nat) (xs : List UInt8), xs.length = 2 * n →
    (chunksExact xs).length = n := by
  intro n
  induction n with
  | zero =>
      intro xs h
      rw [List.length_eq_zero_iff.mp (by omega : xs.length = 0)]
      rfl
  | succ n ih =>
      intro xs h
      match xs, h with
      | a :: b :: rest, h =>
          have hrest : rest.length = 2 * n := by
            simp only [List.length_cons] at h; omega
          simp [chunksExact, ih rest hrest]

/-- Scanning two parts one after the other, when the first part is full words:
the second part starts where the first one ends. -/
theorem scanBlock_append (result : Cache) (start n : Nat) (xs ys : List UInt8)
    (h : xs.length = 2 * n) :
    scanBlock result start (xs ++ ys)
      = scanBlock (scanBlock result start xs) (start + xs.length) ys := by
  have hshift : (chunksExact ys).zipIdx (0 + n)
      = (chunksExact ys).zipIdx.map fun p => (p.1, 0 + n + p.2) := List.zipIdx_eq_map_add
  have haddr : ∀ j, start + (0 + n + j) * chunkSize = start + xs.length + j * chunkSize := by
    intro j
    rw [h, chunkSize]
    omega
  unfold scanBlock
  rw [chunksExact_append n xs ys h, List.zipIdx_append, List.foldl_append,
    length_chunksExact n xs h, hshift, List.foldl_map]
  simp only [haddr]

/-- The cache of a content: the scan of the whole content as one block. -/
def scanCache (content : List UInt8) : Cache := scanBlock {} 0 content

/-- The cache that a scan of words stands for: word `i` is at address `2 * i`. -/
def cacheOfScan (s : Scan State) : Cache where
  lastValidState := s.last.map fun p => { state := p.1, address := 2 * p.2 }
  firstEmptySlot := s.empty.map (2 * ·)

/-- One word of the source's scan is one step of `RecordLog.scan`. -/
theorem scanChunk_cacheOfScan (s : Scan State) (i : Nat) (w : UInt8 × UInt8) :
    scanChunk (cacheOfScan s) (2 * i) w
      = cacheOfScan (s.step State.read? isBlank i w) := by
  unfold scanChunk RecordLog.Scan.step
  cases h : State.tryNew w with
  | ok state => simp [State.read?, h, Except.toOption, cacheOfScan]
  | error e =>
      have hread : State.read? w = none := by simp [State.read?, h, Except.toOption]
      cases e with
      | Unset =>
          -- Only the erased word is `Unset`, so both scans take it for an empty one.
          have hb : isBlank w = true := isBlank_iff.mpr (State.tryNew_eq_unset_iff.mp h)
          cases he : s.empty with
          | none => simp [hread, hb, he, cacheOfScan]
          | some a => simp [hread, he, cacheOfScan]
      | Invalid =>
          have hb : ¬ isBlank w = true := by
            intro hb
            rw [State.tryNew_eq_unset_iff.mpr (isBlank_iff.mp hb)] at h
            cases h
          simp [hread, hb]

/-- A word-aligned prefix of a content grows by one word. -/
theorem take_succ_word (content : List UInt8) (n : Nat) (h : 2 * (n + 1) ≤ content.length) :
    content.take (2 * (n + 1))
      = content.take (2 * n) ++ [(word content n).1, (word content n).2] := by
  have h0 : 2 * n < content.length := by omega
  have h1 : 2 * n + 1 < content.length := by omega
  have hw : word content n = (content[2 * n], content[2 * n + 1]) := by
    simp [word, List.getD_eq_getElem?_getD, List.getElem?_eq_getElem h0,
      List.getElem?_eq_getElem h1]
  rw [hw, show 2 * (n + 1) = 2 * n + 1 + 1 by omega, List.take_succ_eq_append_getElem h1,
    List.take_succ_eq_append_getElem h0, List.append_assoc]
  rfl

/-- The plain scan of the first `n` words is the word scan. -/
theorem scanCache_take (content : List UInt8) (n : Nat) (h : 2 * n ≤ content.length) :
    scanCache (content.take (2 * n))
      = cacheOfScan (RecordLog.scan State.read? isBlank (word content) n) := by
  induction n with
  | zero => simp [scanCache, scanBlock, chunksExact, RecordLog.scan, cacheOfScan]
  | succ n ih =>
      have hlen : (content.take (2 * n)).length = 2 * n := by
        rw [List.length_take]; omega
      rw [take_succ_word content n h, scanCache,
        scanBlock_append {} 0 n _ _ hlen, ← scanCache, ih (by omega), hlen]
      simp only [scanBlock, chunksExact, RecordLog.scan, List.zipIdx_cons, List.zipIdx_nil,
        List.foldl_cons, List.foldl_nil, Nat.zero_mul, Nat.zero_add, Nat.add_zero]
      exact scanChunk_cacheOfScan _ n _

/-- The plain scan drops a trailing odd byte. -/
theorem scanCache_eq (content : List UInt8) :
    scanCache content
      = cacheOfScan (RecordLog.scan State.read? isBlank (word content)
          (content.length / 2)) := by
  rw [← scanCache_take content (content.length / 2) (by omega)]
  have hlen : (content.take (2 * (content.length / 2))).length
      = 2 * (content.length / 2) := by
    rw [List.length_take]; omega
  have hrest : chunksExact (content.drop (2 * (content.length / 2))) = [] := by
    have hdrop : (content.drop (2 * (content.length / 2))).length ≤ 1 := by
      rw [List.length_drop]; omega
    match content.drop (2 * (content.length / 2)), hdrop with
    | [], _ => rfl
    | [_], _ => rfl
  conv_lhs => rw [← List.take_append_drop (2 * (content.length / 2)) content]
  rw [scanCache, scanBlock_append {} 0 _ _ _ hlen, ← scanCache]
  simp only [scanBlock, hrest, List.zipIdx_nil, List.foldl_nil]

end FlashJournal

/-! ### The block loop

The invariant counts the blocks that were scanned. The last block may be shorter than the buffer,
which is why the count is rounded up. -/

/-- A storage with a content. An aligned read inside the content returns that
part of it. A read can fail, but not in a `Good` state, and never changes the
content. -/
class ReadableFlash (T : Type) (E : outParam Type) [NorFlash T E] where
  /-- The bytes a reader sees. -/
  content : T → List UInt8
  /-- No operation fails from here on. -/
  Good : T → Prop
  length_content : ∀ t, (content t).length = NorFlash.capacity t
  /-- Every address fits the `u32` of the trait. -/
  capacity_lt : ∀ t : T, NorFlash.capacity t < 2 ^ 32
  read_law : ∀ (t : T) (offset : UInt32) (length : Nat), offset.toNat % 2 = 0 →
    offset.toNat + length ≤ NorFlash.capacity t →
    length % 2 = 0 ∨ offset.toNat + length = NorFlash.capacity t →
    match NorFlash.read offset length t with
    | .ok bytes t' => bytes = ((content t).drop offset.toNat).take length ∧
        content t' = content t ∧ (Good t → Good t')
    | .error _ t' => content t' = content t ∧ ¬ Good t

namespace FlashJournal

variable {T E : Type} [NorFlash T E]

/-- The block sizes that `computeCache` accepts. -/
structure BlockSize (n : Nat) : Prop where
  two_le : 2 ≤ n
  even : n % 2 = 0

/-- Reads of a storage that holds `content`, in the states of `I`. An aligned read inside the
content returns that part of it and stays in `I`, or fails with `C`. The offset is the address
cast to the `u32` of the trait. -/
structure ReadsContent (content : List UInt8) (I : T → Prop) (C : Fault E → T → Prop) :
    Prop where
  capacity_eq : ∀ t, I t → NorFlash.capacity t = content.length
  read : ∀ address length, address % 2 = 0 → address + length ≤ content.length →
    length % 2 = 0 ∨ address + length = content.length →
    Triple I (NorFlash.read (UInt32.ofNat address) length)
      (fun bytes t => bytes = (content.drop address).take length ∧ I t) C

/-- The loop invariant of `computeCache`, with the blocks `l` still to come: the
blocks before them have been scanned, and the reads go on. -/
structure ScanLoop (content : List UInt8) (I : T → Prop) (blockSize blockCount : Nat)
    (l : List Nat) (result : Cache) (t : T) : Prop where
  todo : ∃ b, b ≤ blockCount ∧ l = List.range' b (blockCount - b) ∧
    result = scanCache (content.take (b * blockSize))
  inv : I t

/-- A block that is counted starts inside the content. -/
theorem mul_lt_of_lt_divCeil {b n length : Nat} (hn : 0 < n) (h : b < divCeil length n) :
    b * n < length := by
  have hle := (Nat.le_div_iff_mul_le hn).mp (Nat.succ_le_of_lt h)
  rw [Nat.succ_mul] at hle
  omega

/-- The counted blocks cover the content. -/
theorem le_divCeil_mul {n length : Nat} (hn : 0 < n) : length ≤ divCeil length n * n := by
  have h := Nat.lt_div_mul_add hn (a := length + n - 1)
  unfold divCeil
  omega

/-- The head of the blocks from `b` on is `b`, and the tail are the blocks behind it. -/
theorem range'_eq_cons {b count i : Nat} {l : List Nat}
    (h : i :: l = List.range' b (count - b)) :
    b < count ∧ i = b ∧ l = List.range' (b + 1) (count - (b + 1)) := by
  have hb : b < count := by
    rcases Nat.lt_or_ge b count with hlt | hge
    · exact hlt
    · rw [Nat.sub_eq_zero_of_le hge] at h
      exact nomatch h
  rw [show count - b = (count - (b + 1)) + 1 by omega, List.range'_succ] at h
  exact ⟨hb, List.cons.inj h⟩

/-- One block of `computeCache`. The invariant moves on by one block, which is a
short one at the end of the content. -/
theorem scanLoop_step {content : List UInt8} {I : T → Prop} {C : Fault E → T → Prop}
    (hreads : ReadsContent content I C) {n : Nat} (hn : BlockSize n) (i : Nat) (l : List Nat)
    (result : Cache) :
    Triple (ScanLoop content I n (divCeil content.length n) (i :: l) result)
      (do
        let slice ← NorFlash.read (UInt32.ofNat (i * n))
          (min (i * n + n) content.length - i * n)
        pure (scanBlock result (i * n) slice))
      (fun result' => ScanLoop content I n (divCeil content.length n) l result') C := by
  rintro t ⟨⟨b, hb, hl, hresult⟩, hinv⟩
  obtain ⟨hpos, heven⟩ := hn
  obtain ⟨hblocks, rfl, hl'⟩ := range'_eq_cons hl
  have hstart : i * n < content.length := mul_lt_of_lt_divCeil (by omega) hblocks
  have hmod : i * n % 2 = 0 := by rw [Nat.mul_mod, heven, Nat.mul_zero, Nat.zero_mod]
  -- The last block can be short and odd. It ends the content, so the reads cover it.
  have hread := hreads.read (i * n) (min (i * n + n) content.length - i * n) hmod (by omega)
    (by omega)
  cases hr : (NorFlash.read (UInt32.ofNat (i * n))
      (min (i * n + n) content.length - i * n) : Exec E T (List UInt8)) t with
  | error e t' =>
      rw [Exec.bind_error hr]
      exact hread.of_error hinv hr
  | ok bytes t' =>
      rw [Exec.bind_ok hr]
      obtain ⟨hbytes, hinv'⟩ := hread.of_ok hinv hr
      refine ⟨⟨i + 1, hblocks, hl', ?_⟩, hinv'⟩
      -- The block extends the scanned prefix.
      have hsplit : content.take ((i + 1) * n) = content.take (i * n) ++ bytes := by
        rw [hbytes, ← List.take_add, List.take_eq_take_iff, Nat.succ_mul]
        omega
      have hlen : (content.take (i * n)).length = i * n := by
        rw [List.length_take]; omega
      rw [hsplit, scanCache,
        scanBlock_append {} 0 (i * n / 2) _ _ (by rw [hlen]; omega), ← scanCache, ← hresult,
        hlen, Nat.zero_add]

/-- `computeCache` returns the plain scan of the content, whatever the block size. It fails
only when a read fails. -/
theorem computeCache_triple {content : List UInt8} {I : T → Prop} {C : Fault E → T → Prop}
    (hreads : ReadsContent content I C) {n : Nat} (hn : BlockSize n) :
    Triple I (computeCache n) (fun cache t => cache = scanCache content ∧ I t) C := by
  intro t hinv
  have hrun : (computeCache n : Exec E T Cache) t
      = ((List.range (divCeil content.length n)).foldlM (fun result blockI => do
          let slice ← NorFlash.read (UInt32.ofNat (blockI * n))
            (min (blockI * n + n) content.length - blockI * n)
          pure (scanBlock result (blockI * n) slice)) {} : Exec E T Cache) t := by
    have hsize : n ≥ chunkSize := hn.two_le
    have hmultiple : n % chunkSize = 0 := hn.even
    rw [← hreads.capacity_eq t hinv]
    unfold computeCache
    rw [Exec.require_of hsize, Exec.require_of hmultiple]
    rfl
  rw [hrun]
  -- No block is scanned at the start, and none is left at the end.
  have hloop := Triple.foldlM (scanLoop_step hreads hn)
    (List.range (divCeil content.length n)) {} t
    ⟨⟨0, Nat.zero_le _, by rw [Nat.sub_zero, List.range_eq_range'],
      by simp [scanCache, scanBlock, chunksExact]⟩, hinv⟩
  split at hloop
  · rename_i cache t' heq
    rw [heq]
    obtain ⟨⟨b, hb, hl, hresult⟩, hinv'⟩ := hloop
    have hbc : b = divCeil content.length n := by
      have := congrArg List.length hl
      rw [List.length_range', List.length_nil] at this
      omega
    refine ⟨?_, hinv'⟩
    have hpos := hn.two_le
    rw [hresult, hbc, List.take_of_length_le (le_divCeil_mul (by omega))]
  · rename_i e t' heq
    rw [heq]
    exact hloop

/-- The law of a `ReadableFlash`, as reads of its content. -/
theorem readsContent_of_readable [ReadableFlash T E] (content : List UInt8) (G : Prop) :
    ReadsContent content
      (fun t : T => ReadableFlash.content t = content ∧ (G → ReadableFlash.Good t))
      (fun _ t => ReadableFlash.content t = content ∧ ¬ G) where
  capacity_eq t := by
    rintro ⟨hcontent, -⟩
    rw [← hcontent, ReadableFlash.length_content]
  read address length heven hlen hodd := by
    rintro t ⟨hcontent, hgood⟩
    have hcap : NorFlash.capacity t = content.length := by
      rw [← hcontent, ReadableFlash.length_content]
    -- The capacity fits into a `u32`, so the cast of the address loses nothing.
    have hlt : address < 2 ^ 32 := by
      have := ReadableFlash.capacity_lt t
      omega
    have hoff : (UInt32.ofNat address).toNat = address := UInt32.toNat_ofNat_of_lt' hlt
    have hread := ReadableFlash.read_law t (UInt32.ofNat address) length (by rw [hoff]; exact heven)
      (by rw [hoff, hcap]; exact hlen) (by rw [hoff, hcap]; exact hodd)
    rw [hoff, hcontent] at hread
    cases hr : (NorFlash.read (UInt32.ofNat address) length : Exec E T (List UInt8)) t with
    | error e t' =>
        rw [hr] at hread
        exact ⟨hread.1, fun hG => hread.2 (hgood hG)⟩
    | ok bytes t' =>
        rw [hr] at hread
        obtain ⟨hbytes, hcontent', hgood'⟩ := hread
        exact ⟨hbytes, hcontent', fun hG => hgood' (hgood hG)⟩

/-- `computeCache` returns the plain scan of the content, whatever the block
size. It fails only when a read fails, and leaves the content as it is. -/
theorem computeCache_spec [ReadableFlash T E] (content : List UInt8) (G : Prop) {n : Nat}
    (hn : BlockSize n) :
    Triple (fun t : T => ReadableFlash.content t = content ∧ (G → ReadableFlash.Good t))
      (computeCache n)
      (fun cache t => cache = scanCache content ∧ ReadableFlash.content t = content ∧
        (G → ReadableFlash.Good t))
      (fun _ t => ReadableFlash.content t = content ∧ ¬ G) :=
  computeCache_triple (readsContent_of_readable content G) hn

/-- The run of `new` on a storage with enough pages: `computeCache`, and a handle
with what it found. -/
theorem new_of_pages {n : Nat} {t : T} (hpages : 2 ≤ pageCount t) :
    (new n : Exec (Error E) T (FlashJournal T)) t
      = match computeCache n t with
        | .ok cache t' => .ok ⟨t', cache⟩ t'
        | .error e t' => .error (e.map .Other) t' := by
  have hP : ¬ pageCount t < 2 := by omega
  have hnew : (new n : Exec (Error E) T (FlashJournal T)) t
      = (do
        let cache ← Exec.zoom id (fun t _ => t) .Other (computeCache n)
        pure { inner := ← MonadState.get, cache } : Exec (Error E) T (FlashJournal T)) t := by
    show (if pageCount t < 2 then _ else _ : Exec (Error E) T (FlashJournal T)) t = _
    rw [if_neg hP]
  rw [hnew]
  -- `zoom` changes the type of the error, and leaves the storage as `computeCache` does.
  cases hc : (computeCache n : Exec E T Cache) t with
  | error e t' =>
      have hcompute : (Exec.zoom id (fun t _ => t) .Other (computeCache n) :
          Exec (Error E) T Cache) t = .error (e.map .Other) t' := Exec.zoom_error hc
      rw [Exec.bind_error hcompute]
  | ok cache t' =>
      have hcompute : (Exec.zoom id (fun t _ => t) .Other (computeCache n) :
          Exec (Error E) T Cache) t = .ok cache t' := Exec.zoom_ok hc
      rw [Exec.bind_ok hcompute]
      rfl

end FlashJournal

end EcSlimloader
