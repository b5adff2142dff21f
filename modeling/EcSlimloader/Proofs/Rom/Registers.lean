import EcSlimloader.Rom.Registers

/-!
# `EcSlimloader.Proofs.Rom.Registers`: registers survive their encoding in words

`dataToOtpWords` splits the bytes of a register in words with consecutive indices, and
`otpWordsToData` puts them together again (`otpWordsToData_of_words`). It asks for the words
in the order of their indices, whatever the effect of a query is (`otpWordsToData_eq_mapM`).
`recorded` makes the order visible: its state is the list of the indices that were asked for.

A write to the shadow registers stores exactly these words. It succeeds when every index is
mapped (`writeRegister_run`), and it leaves the words of the other indices alone, because two
indices never share an address (`otpToShadowAddr_inj`).

A register whose size is not a multiple of four has a last word that is partly used. Its bytes are
padded with zeros when they are written, and the padding is cut off again when they are read. So
`register_words_roundTrip` is about data of any length for which there are enough indices.

The map of the addresses has a hole: some indices have no shadow register. `otpToShadowAddr_cases`
is the case analysis, and `isMapped_of_range` is what the uses need of it.
-/

set_option autoImplicit false

namespace EcSlimloader

open Bytes (fromLe toLe toLe_fromLe length_toLe)

/-! ### The address map -/

/-- The index has a shadow register. -/
def IsMapped (otpWordI : Nat) : Prop := ∃ addr, otpToShadowAddr otpWordI = .ok addr

/-- The two blocks of the map that hold the boot configuration and the root key. -/
theorem isMapped_of_range {otpWordI : Nat}
    (h : 95 ≤ otpWordI ∧ otpWordI ≤ 104 ∨ 106 ≤ otpWordI ∧ otpWordI ≤ 127) :
    IsMapped otpWordI := by
  have h8 : ¬(8 ≤ otpWordI ∧ otpWordI ≤ 9) := by omega
  rcases h with h | h
  · exact ⟨_, by rw [otpToShadowAddr, otpToShadowOffset, if_neg h8, if_pos h]; rfl⟩
  · have h95 : ¬(95 ≤ otpWordI ∧ otpWordI ≤ 104) := by omega
    exact ⟨_, by rw [otpToShadowAddr, otpToShadowOffset, if_neg h8, if_neg h95, if_pos h]; rfl⟩

/-- Where a mapped index lies. -/
theorem otpToShadowAddr_cases {otpWordI addr : Nat} (h : otpToShadowAddr otpWordI = .ok addr) :
    (8 ≤ otpWordI ∧ otpWordI ≤ 9 ∧ addr = 0x40130000 + ((otpWordI - 8) * 4 + 0x020)) ∨
    (95 ≤ otpWordI ∧ otpWordI ≤ 104 ∧ addr = 0x40130000 + ((otpWordI - 95) * 4 + 0x17C)) ∨
    (106 ≤ otpWordI ∧ otpWordI ≤ 127 ∧ addr = 0x40130000 + ((otpWordI - 106) * 4 + 0x1A8)) ∨
    (492 ≤ otpWordI ∧ otpWordI ≤ 495 ∧ addr = 0x40130000 + ((otpWordI - 492) * 4 + 0x7B0)) := by
  simp only [otpToShadowAddr, otpToShadowOffset, otpShadowBaseAddr] at h
  split at h
  · simp only [Except.map, Except.ok.injEq] at h
    omega
  · split at h
    · simp only [Except.map, Except.ok.injEq] at h
      omega
    · split at h
      · simp only [Except.map, Except.ok.injEq] at h
        omega
      · split at h
        · simp only [Except.map, Except.ok.injEq] at h
          omega
        · cases h

/-- Two indices do not share an address. -/
theorem otpToShadowAddr_inj {i j addr : Nat} (hi : otpToShadowAddr i = .ok addr)
    (hj : otpToShadowAddr j = .ok addr) : i = j := by
  have hi := otpToShadowAddr_cases hi
  have hj := otpToShadowAddr_cases hj
  omega

namespace Shadow

/-- The word of a mapped index. -/
theorem word_of_addr {i addr : Nat} (h : otpToShadowAddr i = .ok addr) (shadow : Shadow) :
    shadow.word i = .ok (shadow addr) := by
  rw [word, h]
  rfl

/-- The word that was stored. -/
theorem word_store_self {i addr : Nat} (h : otpToShadowAddr i = .ok addr) (shadow : Shadow)
    (w : UInt32) : (shadow.store addr w).word i = .ok w := by
  rw [word_of_addr h, store, if_pos rfl]

/-- The word of another index. -/
theorem word_store_of_ne {i j addr : Nat} (h : otpToShadowAddr i = .ok addr) (hne : j ≠ i)
    (shadow : Shadow) (w : UInt32) : (shadow.store addr w).word j = shadow.word j := by
  cases hj : otpToShadowAddr j with
  | error e => simp only [word, hj, Except.map]
  | ok addr' =>
      have haddr : addr' ≠ addr := by
        intro heq
        exact hne (otpToShadowAddr_inj (heq ▸ hj) h)
      rw [word_of_addr hj, word_of_addr hj, store, if_neg haddr]

end Shadow

/-! ### Words and bytes -/

/-- One whole chunk. -/
theorem dataToOtpWords_cons (i : Nat) (b0 b1 b2 b3 : UInt8) (rest : List UInt8) :
    dataToOtpWords i (b0 :: b1 :: b2 :: b3 :: rest)
      = (i, fromLe b0 b1 b2 b3) :: dataToOtpWords (i + 1) rest := by
  simp only [dataToOtpWords, chunksToWords, List.zipIdx_cons, List.map_cons, Nat.add_zero,
    List.zipIdx_succ, List.map_map, List.cons.injEq, true_and]
  apply List.map_congr_left
  intro p _
  show (i + (p.2 + 1), p.1) = (i + 1 + p.2, p.1)
  rw [Nat.add_comm p.2, Nat.add_assoc]

/-- The indices of the words are consecutive, one for each four bytes. -/
theorem map_fst_dataToOtpWords (i : Nat) (data : List UInt8) :
    (dataToOtpWords i data).map Prod.fst = List.range' i ((data.length + 3) / 4) := by
  induction data using chunksToWords.induct generalizing i with
  | case1 => rfl
  | case2 b0 | case3 b0 b1 | case4 b0 b1 b2 => simp [dataToOtpWords, chunksToWords]
  | case5 b0 b1 b2 b3 rest ih =>
      have hlen : ((b0 :: b1 :: b2 :: b3 :: rest).length + 3) / 4 = (rest.length + 3) / 4 + 1 := by
        simp only [List.length_cons]
        omega
      rw [dataToOtpWords_cons, List.map_cons, ih, hlen, List.range'_succ]

/-- The bytes of the words are the data, and zeros up to the end of the last word. -/
theorem flatMap_dataToOtpWords (i : Nat) (data : List UInt8) :
    (dataToOtpWords i data).flatMap (fun p => toLe p.2)
      = data ++ List.replicate (4 * ((data.length + 3) / 4) - data.length) 0 := by
  induction data using chunksToWords.induct generalizing i with
  | case1 => rfl
  | case2 b0 | case3 b0 b1 | case4 b0 b1 b2 =>
      simp [dataToOtpWords, chunksToWords, toLe_fromLe, List.replicate]
  | case5 b0 b1 b2 b3 rest ih =>
      -- A whole word needs no padding, so the padding is the one of the rest.
      have hpad : 4 * (((b0 :: b1 :: b2 :: b3 :: rest).length + 3) / 4)
          - (b0 :: b1 :: b2 :: b3 :: rest).length
          = 4 * ((rest.length + 3) / 4) - rest.length := by
        simp only [List.length_cons]
        omega
      rw [dataToOtpWords_cons, List.flatMap_cons, ih, toLe_fromLe, hpad]
      rfl

/-- The front of the bytes of the words is the data. -/
theorem take_dataToOtpWords (i : Nat) (data : List UInt8) :
    (((dataToOtpWords i data).map Prod.snd).flatMap toLe).take data.length = data := by
  rw [List.flatMap_map, flatMap_dataToOtpWords, List.take_left]

/-- Four bytes for each word. -/
theorem length_flatMap_toLe (words : List UInt32) :
    (words.flatMap toLe).length = words.length * 4 := by
  rw [List.length_flatMap]
  show (words.map fun _ => 4).sum = _
  rw [List.map_const', List.sum_replicate_nat]

/-- A read asks for the words of the register one after the other, and takes the front of
their bytes. The closure can have any effect. -/
theorem otpWordsToData_eq_mapM {m : Type → Type} [Monad m] [LawfulMonad m]
    (f : Nat → m UInt32) (i length : Nat) :
    otpWordsToData f i length
      = (fun words => (words.flatMap toLe).take length)
          <$> (List.range' i ((length + 3) / 4)).mapM f := by
  fun_induction otpWordsToData f i length with
  | case1 i => simp
  | case2 i | case3 i | case4 i => simp
  | case5 i length ih =>
      have hcount : (length + 4 + 3) / 4 = (length + 3) / 4 + 1 := by omega
      rw [ih, hcount, List.range'_succ, List.mapM_cons]
      simp only [map_bind, bind_map_left, map_pure, List.flatMap_cons]
      -- `take` goes through the four bytes of the first word.
      rfl

section Read

variable {ε : Type} {f : Nat → Except ε UInt32}

/-- Reading succeeds if every word can be read, and fills the buffer. -/
theorem otpWordsToData_ok {i length : Nat}
    (h : ∀ j, i ≤ j → j < i + (length + 3) / 4 → ∃ w, f j = .ok w) :
    ∃ data, otpWordsToData f i length = .ok data ∧ data.length = length := by
  have hall : ∀ j ∈ List.range' i ((length + 3) / 4), ∃ w, f j = .ok w := by
    intro j hj
    rw [List.mem_range'_1] at hj
    exact h j hj.1 hj.2
  obtain ⟨words, hwords, hcount⟩ := Except.mapM_returns hall
  refine ⟨(words.flatMap toLe).take length, ?_, ?_⟩
  · rw [otpWordsToData_eq_mapM, hwords]
    rfl
  · -- Four bytes for each word are enough for the buffer.
    rw [List.length_range'] at hcount
    rw [List.length_take, length_flatMap_toLe, hcount]
    omega

/-- Reading the words of a byte string gives the byte string. -/
theorem otpWordsToData_of_words {i : Nat} {data : List UInt8}
    (h : ∀ p ∈ dataToOtpWords i data, f p.1 = .ok p.2) :
    otpWordsToData f i data.length = .ok data := by
  have hwords : (dataToOtpWords i data).mapM (f ∘ Prod.fst) = .ok _ := Except.mapM_ok h
  rw [otpWordsToData_eq_mapM, ← map_fst_dataToOtpWords, List.mapM_map, hwords]
  exact congrArg Except.ok (take_dataToOtpWords i data)

end Read

/-! ### The queries of a read

The store is a function that may fail, and `recorded` wraps it with a list. A failing query ends the
read, and it is the last one in the list. -/

section Queries

variable {ε : Type}

/-- A closure that asks a word store, and keeps the indices it was asked for. -/
def recorded (store : Nat → Except ε UInt32) (otpWordI : Nat) : Exec ε (List Nat) UInt32 := do
  modify (· ++ [otpWordI])
  match store otpWordI with
  | .ok word => pure word
  | .error e => Exec.fail e

variable {store : Nat → Except ε UInt32} {j : Nat}

/-- A query with an answer. -/
theorem recorded_ok {word : UInt32} (h : store j = .ok word) (queries : List Nat) :
    recorded store j queries = .ok word (queries ++ [j]) := by
  unfold recorded
  rw [h]
  rfl

/-- A query without an answer. -/
theorem recorded_error {e : ε} (h : store j = .error e) (queries : List Nat) :
    recorded store j queries = .error (.error e) (queries ++ [j]) := by
  unfold recorded
  rw [h]
  rfl

/-- Every query is answered. -/
theorem mapM_recorded_ok {words : List (Nat × UInt32)} (h : ∀ p ∈ words, store p.1 = .ok p.2)
    (queries : List Nat) :
    (words.map Prod.fst).mapM (recorded store) queries
      = .ok (words.map Prod.snd) (queries ++ words.map Prod.fst) := by
  induction words generalizing queries with
  | nil =>
      rw [List.map_nil, List.append_nil]
      rfl
  | cons p words ih =>
      have hp := h p List.mem_cons_self
      have hrest := ih (fun q hq => h q (List.mem_cons_of_mem _ hq)) (queries ++ [p.1])
      rw [List.map_cons, List.mapM_cons, Exec.bind_ok (recorded_ok hp queries),
        Exec.bind_ok hrest, List.append_assoc]
      rfl

/-- The first query without an answer ends the read. -/
theorem mapM_recorded_error {e : ε} (front back : List Nat)
    (hfront : ∀ k ∈ front, ∃ word, store k = .ok word) (hj : store j = .error e)
    (queries : List Nat) :
    (front ++ j :: back).mapM (recorded store) queries
      = .error (.error e) (queries ++ (front ++ [j])) := by
  induction front generalizing queries with
  | nil =>
      rw [List.nil_append, List.mapM_cons]
      exact Exec.bind_error (recorded_error hj queries)
  | cons k front ih =>
      obtain ⟨word, hword⟩ := hfront k List.mem_cons_self
      have hrest := ih (fun k' hk' => hfront k' (List.mem_cons_of_mem _ hk')) (queries ++ [k])
      rw [List.append_assoc] at hrest
      rw [List.cons_append, List.mapM_cons, Exec.bind_ok (recorded_ok hword queries)]
      exact Exec.bind_error hrest

/-- A read from a store that holds the words of a byte string: it returns the byte string,
and asks for the indices of the words in order. -/
theorem otpWordsToData_recorded_ok {i : Nat} {data : List UInt8}
    (h : ∀ p ∈ dataToOtpWords i data, store p.1 = .ok p.2) (queries : List Nat) :
    otpWordsToData (recorded store) i data.length queries
      = .ok data (queries ++ List.range' i ((data.length + 3) / 4)) := by
  have hwords := mapM_recorded_ok h queries
  rw [map_fst_dataToOtpWords] at hwords
  rw [otpWordsToData_eq_mapM, map_eq_pure_bind, Exec.bind_ok hwords, take_dataToOtpWords,
    Exec.pure_run]

/-- A read that fails at the index `j`: it returns the error, and has asked for the indices up
to `j`. -/
theorem otpWordsToData_recorded_error {e : ε} {i length : Nat} (hij : i ≤ j)
    (hj : j < i + (length + 3) / 4) (hfront : ∀ k, i ≤ k → k < j → ∃ word, store k = .ok word)
    (herr : store j = .error e) (queries : List Nat) :
    otpWordsToData (recorded store) i length queries
      = .error (.error e) (queries ++ List.range' i (j + 1 - i)) := by
  obtain ⟨d, rfl⟩ := Nat.exists_eq_add_of_le hij
  -- The indices before the failing one, that one, and the ones that are not asked for.
  have hsplit : List.range' i ((length + 3) / 4)
      = List.range' i d ++ (i + d) :: List.range' (i + d + 1) ((length + 3) / 4 - d - 1) := by
    rw [← List.range'_succ, List.range'_append_1]
    congr 1
    omega
  have hasked : List.range' i (i + d + 1 - i) = List.range' i d ++ [i + d] := by
    rw [show i + d + 1 - i = d + 1 by omega, List.range'_1_concat]
  have hrun := mapM_recorded_error (List.range' i d)
    (List.range' (i + d + 1) ((length + 3) / 4 - d - 1))
    (fun k hk => by
      rw [List.mem_range'_1] at hk
      exact hfront k hk.1 hk.2) herr queries
  rw [otpWordsToData_eq_mapM, map_eq_pure_bind, hsplit, hasked]
  exact Exec.bind_error hrun

/-- The bytes of a register survive their encoding in words. The words have consecutive
indices, each one only once and none beyond a `u32`, and the last one is filled up with zeros.
A read from a store that holds the words returns the bytes and asks for these indices in
order. It ends with the error of the first index that cannot be read. -/
theorem register_words_roundTrip (i : Nat) (data : List UInt8)
    (hfit : i + (data.length + 3) / 4 < 2 ^ 32) :
    ((dataToOtpWords i data).length = (data.length + 3) / 4 ∧
      (dataToOtpWords i data).map Prod.fst = List.range' i ((data.length + 3) / 4) ∧
      ((dataToOtpWords i data).map Prod.fst).Nodup ∧
      (∀ p ∈ dataToOtpWords i data, p.1 < 2 ^ 32) ∧
      (dataToOtpWords i data).flatMap (fun p => toLe p.2)
        = data ++ List.replicate (4 * ((data.length + 3) / 4) - data.length) 0) ∧
    ∀ (ε : Type) (store : Nat → Except ε UInt32) (queries : List Nat),
      ((∀ p ∈ dataToOtpWords i data, store p.1 = .ok p.2) →
        otpWordsToData (recorded store) i data.length queries
          = .ok data (queries ++ List.range' i ((data.length + 3) / 4))) ∧
      ∀ j e, i ≤ j → j < i + (data.length + 3) / 4 →
        (∀ k, i ≤ k → k < j → ∃ word, store k = .ok word) → store j = .error e →
        otpWordsToData (recorded store) i data.length queries
          = .error (.error e) (queries ++ List.range' i (j + 1 - i)) := by
  have hfst := map_fst_dataToOtpWords i data
  refine ⟨⟨?_, hfst, ?_, ?_, flatMap_dataToOtpWords i data⟩, fun ε store queries => ⟨?_, ?_⟩⟩
  · rw [← List.length_map Prod.fst, hfst, List.length_range']
  · rw [hfst]
    exact List.nodup_range'
  · -- The indices are consecutive, and the last one fits into 32 bits by hypothesis.
    intro p hp
    have hmem : p.1 ∈ (dataToOtpWords i data).map Prod.fst := List.mem_map_of_mem hp
    rw [hfst, List.mem_range'_1] at hmem
    omega
  · intro hstore
    exact otpWordsToData_recorded_ok hstore queries
  · intro j e hij hj hfront herr
    exact otpWordsToData_recorded_error hij hj hfront herr queries

/-- A register of seven bytes: a full word, and a partial one whose missing byte is zero.
The store holds only the two words of the register. -/
theorem register_words_roundTrip_partial :
    (100 + (([0x78, 0x56, 0x34, 0x12, 0xef, 0xcd, 0xab] : List UInt8).length + 3) / 4 < 2 ^ 32 ∧
      dataToOtpWords 100 [0x78, 0x56, 0x34, 0x12, 0xef, 0xcd, 0xab]
        = [(100, 0x12345678), (101, 0x00abcdef)]) ∧
    otpWordsToData (recorded fun j =>
        if j = 100 then .ok 0x12345678 else if j = 101 then .ok 0x00abcdef else .error ())
      100 7 [] = .ok [0x78, 0x56, 0x34, 0x12, 0xef, 0xcd, 0xab] [100, 101] :=
  ⟨⟨by decide, by decide⟩,
    ((register_words_roundTrip 100 [0x78, 0x56, 0x34, 0x12, 0xef, 0xcd, 0xab] (by decide)).2
      Unit _ []).1 (by decide)⟩

end Queries

/-! ### Shadow registers -/

namespace Shadow

/-- One word of a write. -/
theorem storeWord_run {i addr : Nat} (h : otpToShadowAddr i = .ok addr) (shadow : Shadow)
    (w : UInt32) : storeWord i w shadow = .ok () (shadow.store addr w) := by
  rw [storeWord, h]
  rfl

/-- Stores to mapped indices, all different: each index holds its new word afterwards,
and the others are left alone. -/
theorem store_words (words : List (Nat × UInt32)) (hmapped : ∀ p ∈ words, IsMapped p.1)
    (hnodup : (words.map Prod.fst).Nodup) (shadow : Shadow) :
    ∃ shadow' : Shadow,
      (words.forM fun (otpWordI, word) => storeWord otpWordI word :
        Exec NotShadowRegister Shadow PUnit) shadow = .ok () shadow' ∧
      (∀ p ∈ words, shadow'.word p.1 = .ok p.2) ∧
      ∀ j, j ∉ words.map Prod.fst → shadow'.word j = shadow.word j := by
  induction words generalizing shadow with
  | nil => exact ⟨shadow, rfl, by simp, fun _ _ => rfl⟩
  | cons p words ih =>
      obtain ⟨i, w⟩ := p
      obtain ⟨addr, haddr⟩ := hmapped (i, w) List.mem_cons_self
      rw [List.map_cons, List.nodup_cons] at hnodup
      obtain ⟨hi, hnodup⟩ := hnodup
      -- The words behind the first one have other indices, so they leave it alone.
      obtain ⟨shadow', hrun, hwords, hothers⟩ :=
        ih (fun p hp => hmapped p (List.mem_cons_of_mem _ hp)) hnodup (shadow.store addr w)
      refine ⟨shadow', ?_, ?_, ?_⟩
      · exact (Exec.bind_ok (storeWord_run haddr shadow w)).trans hrun
      · intro p hp
        rcases List.mem_cons.mp hp with rfl | hp
        · rw [hothers i hi, word_store_self haddr]
        · exact hwords p hp
      · intro j hj
        rw [List.map_cons, List.mem_cons, not_or] at hj
        rw [hothers j hj.2, word_store_of_ne haddr hj.1]

/-- A write to a register whose words are all mapped: the register holds the data
afterwards, and the words of the other indices are left alone. -/
theorem writeRegister_run {i : Nat} {data : List UInt8}
    (hmapped : ∀ j, i ≤ j → j < i + (data.length + 3) / 4 → IsMapped j) (shadow : Shadow) :
    ∃ shadow', writeRegister i data shadow = .ok () shadow' ∧
      readRegister shadow' i data.length = .ok data ∧
      (∀ p ∈ dataToOtpWords i data, shadow'.word p.1 = .ok p.2) ∧
      ∀ j, j < i ∨ i + (data.length + 3) / 4 ≤ j → shadow'.word j = shadow.word j := by
  have hfst := map_fst_dataToOtpWords i data
  obtain ⟨shadow', hrun, hwords, hothers⟩ := store_words (dataToOtpWords i data)
    (fun p hp => by
      have hp1 : p.1 ∈ (dataToOtpWords i data).map Prod.fst := List.mem_map_of_mem hp
      rw [hfst, List.mem_range'_1] at hp1
      exact hmapped p.1 hp1.1 hp1.2)
    (by rw [hfst]; exact List.nodup_range') shadow
  refine ⟨shadow', hrun, otpWordsToData_of_words hwords, hwords, ?_⟩
  intro j hj
  apply hothers
  rw [hfst, List.mem_range'_1]
  omega

/-- Reading a register whose words are all mapped. -/
theorem readRegister_ok {i length : Nat}
    (hmapped : ∀ j, i ≤ j → j < i + (length + 3) / 4 → IsMapped j) (shadow : Shadow) :
    ∃ data, readRegister shadow i length = .ok data ∧ data.length = length := by
  apply otpWordsToData_ok
  intro j hj hj'
  obtain ⟨addr, haddr⟩ := hmapped j hj hj'
  exact ⟨shadow addr, word_of_addr haddr shadow⟩

end Shadow

end EcSlimloader
