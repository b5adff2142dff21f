import EcSlimloader.Tool.Hex

/-!
# `EcSlimloader.Proofs.Tool.Hex`: which texts are read as key material

A key is written as 64 hexadecimal digits (`IsKeyText`), and `denotedBytes` are the bytes that
the digits stand for. `ReadExactly` is what a caller of `from_hex` counts on: a key text is read
as its bytes, and every other text is an error.

`from_hex` meets this for every text except two kinds. It goes over pairs of bytes and takes a
pair for a number when `ReadsAsByte` holds: two digits, or a plus sign and a digit.

* `TakenForKey`: 32 such pairs, with a sign in one of them or an odd byte behind the last one. The
  text is read, although it is no key text.
* `CutsCharacter`: such pairs, and then a pair with a part of a character. This is a panic.

`readExactly_iff` states that these are all. What `as_hex` writes is a key text, so it reads back
(`arrayFromHex_generateHex`).

The text is read as bytes, and a character of more than one byte may be split by a pair. So the
lemmas about digits go from characters to bytes first. `readsAsByte_cases` is the case analysis over
the loop: every pair reads as a byte, or there is a first one that does not.
-/

set_option autoImplicit false

namespace EcSlimloader

open FlashJournal (chunksExact)

/-! ### Key texts -/

/-- A hexadecimal digit, in either case. -/
def IsHexDigit (c : Char) : Prop :=
  '0' ≤ c ∧ c ≤ '9' ∨ 'a' ≤ c ∧ c ≤ 'f' ∨ 'A' ≤ c ∧ c ≤ 'F'

instance : DecidablePred IsHexDigit :=
  fun _ => inferInstanceAs (Decidable (_ ∧ _ ∨ _ ∧ _ ∨ _ ∧ _))

/-- The number that a digit stands for. -/
def digitValue (c : Char) : Nat :=
  if c ≤ '9' then c.toNat - '0'.toNat
  else if 'a' ≤ c then c.toNat - 'a'.toNat + 10
  else c.toNat - 'A'.toNat + 10

/-- The bytes that pairs of digits stand for. -/
def denotedBytes : List Char → List UInt8
  | hi :: lo :: rest => UInt8.ofNat (16 * digitValue hi + digitValue lo) :: denotedBytes rest
  | _ => []

/-- Exactly 64 hexadecimal digits. -/
def IsKeyText (s : String) : Prop := s.toList.length = 64 ∧ ∀ c ∈ s.toList, IsHexDigit c

/-- The text is read as it should be: as the bytes of its digits if it is a key text, and with
an error, not a panic, if it is not. -/
structure ReadExactly (s : String) (result : HexResult Digest) : Prop where
  ok_iff : (∃ key, result = .ok key) ↔ IsKeyText s
  value : ∀ key, result = .ok key → key.val = denotedBytes s.toList
  err : ¬ IsKeyText s → ∃ e, result = .error (.error e)

/-! ### Digits as bytes -/

/-- A byte that is a hexadecimal digit. -/
def IsHexByte (b : UInt8) : Prop := ∃ x, Text.toDigit 16 b = some x

instance : DecidablePred IsHexByte :=
  fun _ => decidable_of_iff _ Option.isSome_iff_exists

/-- A digit is a character of one byte. -/
theorem IsHexDigit.toNat_lt {c : Char} (h : IsHexDigit c) : c.toNat < 0x80 := by
  have hle (d : Char) (hd : c ≤ d) : c.toNat ≤ d.toNat := UInt32.le_iff_toNat_le.mp hd
  rcases h with h | h | h
  · exact Nat.lt_of_le_of_lt (hle _ h.2) (by decide)
  · exact Nat.lt_of_le_of_lt (hle _ h.2) (by decide)
  · exact Nat.lt_of_le_of_lt (hle _ h.2) (by decide)

/-- `toDigit` of every character of one byte. -/
theorem toDigit_ascii : ∀ n : Fin 0x80,
    Text.toDigit 16 (UInt8.ofNat n)
      = if IsHexDigit (Char.ofNat n) then some (digitValue (Char.ofNat n)) else none := by
  decide +kernel

/-- `toDigit` finds the digits, with their values. -/
theorem toDigit_char {c : Char} (h : c.toNat < 0x80) :
    Text.toDigit 16 (UInt8.ofNat c.toNat)
      = if IsHexDigit c then some (digitValue c) else none := by
  have hall := toDigit_ascii ⟨c.toNat, h⟩
  rwa [Char.ofNat_toNat] at hall

/-- A character is a digit exactly when every byte of its encoding is one. -/
theorem isHexByte_utf8EncodeChar {c : Char} :
    (∀ b ∈ String.utf8EncodeChar c, IsHexByte b) ↔ IsHexDigit c := by
  rcases Nat.lt_or_ge c.toNat 0x80 with hlt | hge
  · rw [Text.utf8EncodeChar_of_lt hlt, List.forall_mem_singleton, IsHexByte, toDigit_char hlt]
    by_cases hc : IsHexDigit c
    · simp [hc]
    · simp [hc]
  · -- The first byte of a longer encoding is no digit.
    obtain ⟨b, rest, hencode, hb⟩ := Text.utf8EncodeChar_of_ge hge
    refine ⟨fun h => ?_, fun h => absurd h.toNat_lt (by omega)⟩
    obtain ⟨x, hx⟩ := h b (by rw [hencode]; exact List.mem_cons_self)
    have hlt := (Text.of_toDigit hx).1
    omega

/-- The bytes of digits, one for each digit. -/
theorem flatMap_utf8EncodeChar {l : List Char} (h : ∀ c ∈ l, IsHexDigit c) :
    l.flatMap String.utf8EncodeChar = l.map fun c => UInt8.ofNat c.toNat := by
  induction l with
  | nil => rfl
  | cons c l ih =>
      rw [List.flatMap_cons, Text.utf8EncodeChar_of_lt (h c List.mem_cons_self).toNat_lt,
        ih fun c' hc' => h c' (List.mem_cons_of_mem _ hc')]
      rfl

/-- A key text in terms of its bytes. -/
theorem isKeyText_iff {s : String} :
    IsKeyText s ↔ (Text.bytes s).length = 64 ∧ ∀ b ∈ Text.bytes s, IsHexByte b := by
  -- A digit is one byte of UTF-8, so the bytes are hexadecimal exactly if the characters are.
  have hdigits : (∀ b ∈ Text.bytes s, IsHexByte b) ↔ ∀ c ∈ s.toList, IsHexDigit c := by
    rw [Text.bytes_eq_flatMap]
    constructor
    · intro h c hc
      exact isHexByte_utf8EncodeChar.mp fun b hb => h b (List.mem_flatMap.mpr ⟨c, hc, hb⟩)
    · intro h b hb
      obtain ⟨c, hc, hb⟩ := List.mem_flatMap.mp hb
      exact isHexByte_utf8EncodeChar.mpr (h c hc) b hb
  rw [hdigits, IsKeyText, and_congr_left_iff]
  intro h
  rw [Text.bytes_eq_flatMap, flatMap_utf8EncodeChar h, List.length_map]

/-! ### Pairs of bytes -/

/-- The pairs that `parseHex` goes over. -/
def pairs (s : String) : List (UInt8 × UInt8) := chunksExact (Text.bytes s)

/-- The pair is taken for a number: two digits, or a plus sign and a digit. -/
def ReadsAsByte (p : UInt8 × UInt8) : Prop := (IsHexByte p.1 ∨ p.1 = 0x2b) ∧ IsHexByte p.2

instance : DecidablePred ReadsAsByte :=
  fun _ => inferInstanceAs (Decidable ((_ ∨ _) ∧ _))

/-- A list without two items. -/
theorem length_lt_two {α : Type} {l : List α} (h : ∀ x y rest, l = x :: y :: rest → False) :
    l.length < 2 := by
  rcases l with _ | ⟨x, _ | ⟨y, rest⟩⟩
  · simp
  · simp
  · exact (h x y rest rfl).elim

/-- One pair for each two bytes. -/
theorem length_chunksExact_eq (b : List UInt8) : (chunksExact b).length = b.length / 2 := by
  fun_induction chunksExact b with
  | case1 a b rest ih =>
      simp only [List.length_cons, ih]
      omega
  | case2 b hshort =>
      have hlen := length_lt_two hshort
      rw [List.length_nil]
      omega

/-- One byte for each two digits. -/
theorem length_denotedBytes (l : List Char) : (denotedBytes l).length = l.length / 2 := by
  fun_induction denotedBytes l with
  | case1 hi lo rest ih =>
      simp only [List.length_cons, ih]
      omega
  | case2 l hshort =>
      have hlen := length_lt_two hshort
      rw [List.length_nil]
      omega

/-- What holds of every byte holds of both bytes of every pair, and the other way round if no
byte is left over. -/
theorem forall_mem_chunksExact {P : UInt8 → Prop} {b : List UInt8} (heven : b.length % 2 = 0) :
    (∀ p ∈ chunksExact b, P p.1 ∧ P p.2) ↔ ∀ x ∈ b, P x := by
  fun_induction chunksExact b with
  | case1 a b rest ih =>
      have hrest : rest.length % 2 = 0 := by
        simp only [List.length_cons] at heven
        omega
      rw [List.forall_mem_cons, List.forall_mem_cons, List.forall_mem_cons, ih hrest, and_assoc]
  | case2 b hshort =>
      have hlen := length_lt_two hshort
      rw [List.length_eq_zero_iff.mp (by omega : b.length = 0)]
      simp

/-- A key text has 32 pairs of digits, and no byte behind them. -/
theorem isKeyText_iff_pairs {s : String} :
    IsKeyText s ↔ (pairs s).length = 32 ∧ (Text.bytes s).length % 2 = 0 ∧
      ∀ p ∈ pairs s, IsHexByte p.1 ∧ IsHexByte p.2 := by
  rw [isKeyText_iff, pairs, length_chunksExact_eq]
  constructor
  · rintro ⟨hlen, hdigits⟩
    have heven : (Text.bytes s).length % 2 = 0 := by omega
    exact ⟨by omega, heven, (forall_mem_chunksExact heven).mpr hdigits⟩
  · rintro ⟨hcount, heven, hdigits⟩
    exact ⟨by omega, (forall_mem_chunksExact heven).mp hdigits⟩

/-- Two digits are a number. -/
theorem parseChunk_of_digits {p : UInt8 × UInt8} {x y : Nat}
    (hx : Text.toDigit 16 p.1 = some x) (hy : Text.toDigit 16 p.2 = some y) :
    parseChunk p = .ok (UInt8.ofNat (16 * x + y)) := by
  obtain ⟨hx', hplus⟩ := Text.of_toDigit hx
  obtain ⟨hy', -⟩ := Text.of_toDigit hy
  -- Both bytes are ASCII, so the pair is valid UTF-8.
  obtain ⟨s, hs⟩ := Text.fromUtf8_of_lt (b := [p.1, p.2]) (by simp [hx', hy'])
  have hxlt := Text.toDigit_lt hx
  have hylt := Text.toDigit_lt hy
  rw [parseChunk, hs]
  show (Text.u8FromStrRadix s 16).mapError Fault.error = _
  rw [Text.u8FromStrRadix_two (Text.bytes_of_fromUtf8 hs), if_neg hplus,
    Text.parseDigits_of_some hx _ (by omega), Text.parseDigits_of_some hy _ (by omega),
    Text.parseDigits, show (0 * 16 + x) * 16 + y = 16 * x + y by omega]
  rfl

/-- A digit behind a plus sign is a number. -/
theorem parseChunk_of_plus {p : UInt8 × UInt8} {y : Nat} (hplus : p.1 = 0x2b)
    (hy : Text.toDigit 16 p.2 = some y) : parseChunk p = .ok (UInt8.ofNat y) := by
  obtain ⟨hy', -⟩ := Text.of_toDigit hy
  have hx' : p.1.toNat < 0x80 := by rw [hplus]; decide
  obtain ⟨s, hs⟩ := Text.fromUtf8_of_lt (b := [p.1, p.2]) (by simp [hx', hy'])
  have hylt := Text.toDigit_lt hy
  rw [parseChunk, hs]
  show (Text.u8FromStrRadix s 16).mapError Fault.error = _
  -- `from_str_radix` accepts a leading plus sign, so the pair denotes its second digit.
  rw [Text.u8FromStrRadix_two (Text.bytes_of_fromUtf8 hs), if_pos hplus,
    Text.parseDigits_of_some hy _ (by omega), Text.parseDigits,
    show 0 * 16 + y = y by omega]
  rfl

/-- A pair that is taken for a number is a number. -/
theorem ReadsAsByte.parseChunk_eq {p : UInt8 × UInt8} (h : ReadsAsByte p) :
    ∃ b, parseChunk p = .ok b := by
  obtain ⟨⟨x, hx⟩ | hplus, y, hy⟩ := h
  · exact ⟨_, parseChunk_of_digits hx hy⟩
  · exact ⟨_, parseChunk_of_plus hplus hy⟩

/-- Any other pair is an error, if it is a text of its own. -/
theorem parseChunk_of_not_readsAsByte {p : UInt8 × UInt8} (h : ¬ ReadsAsByte p)
    (htext : Text.fromUtf8 [p.1, p.2] ≠ none) :
    parseChunk p = .error (.error .InvalidDigit) := by
  obtain ⟨s, hs⟩ := Option.ne_none_iff_exists'.mp htext
  rw [parseChunk, hs]
  show (Text.u8FromStrRadix s 16).mapError Fault.error = _
  rw [Text.u8FromStrRadix_two (Text.bytes_of_fromUtf8 hs)]
  by_cases hplus : p.1 = 0x2b
  · -- The digit behind the sign is missing.
    rw [if_pos hplus]
    cases hy : Text.toDigit 16 p.2 with
    | none =>
        rw [Text.parseDigits_of_none hy]
        rfl
    | some y => exact absurd ⟨.inr hplus, y, hy⟩ h
  · rw [if_neg hplus]
    cases hx : Text.toDigit 16 p.1 with
    | none =>
        rw [Text.parseDigits_of_none hx]
        rfl
    | some x =>
        have hxlt := Text.toDigit_lt hx
        rw [Text.parseDigits_of_some hx _ (by omega)]
        cases hy : Text.toDigit 16 p.2 with
        | none =>
            rw [Text.parseDigits_of_none hy]
            rfl
        | some y => exact absurd ⟨.inl ⟨x, hx⟩, y, hy⟩ h

/-! ### The loop over the pairs -/

/-- All pairs are numbers, or there is a first one that is not. -/
theorem readsAsByte_cases (l : List (UInt8 × UInt8)) :
    (∀ p ∈ l, ReadsAsByte p) ∨
      ∃ front p back, l = front ++ p :: back ∧ (∀ q ∈ front, ReadsAsByte q) ∧ ¬ ReadsAsByte p := by
  induction l with
  | nil => exact .inl (by simp)
  | cons p l ih =>
      -- The first pair that is not a byte splits the list. If there is none, all pairs are.
      by_cases hp : ReadsAsByte p
      · rcases ih with hall | ⟨front, q, back, rfl, hfront, hq⟩
        · exact .inl (List.forall_mem_cons.mpr ⟨hp, hall⟩)
        · exact .inr ⟨p :: front, q, back, rfl, List.forall_mem_cons.mpr ⟨hp, hfront⟩, hq⟩
      · exact .inr ⟨[], p, l, rfl, by simp, hp⟩

/-- Digits give the bytes that they stand for. -/
theorem mapM_parseChunk_digits {l : List Char} (h : ∀ c ∈ l, IsHexDigit c) :
    (chunksExact (l.map fun c => UInt8.ofNat c.toNat)).mapM parseChunk = .ok (denotedBytes l) := by
  fun_induction denotedBytes l with
  | case1 hi lo rest ih =>
      have hhi := h hi (by simp)
      have hlo := h lo (by simp)
      -- The value of a pair is what two digits denote.
      have hpair : parseChunk (UInt8.ofNat hi.toNat, UInt8.ofNat lo.toNat)
          = .ok (UInt8.ofNat (16 * digitValue hi + digitValue lo)) :=
        parseChunk_of_digits (by rw [toDigit_char hhi.toNat_lt, if_pos hhi])
          (by rw [toDigit_char hlo.toNat_lt, if_pos hlo])
      rw [List.map_cons, List.map_cons, chunksExact, List.mapM_cons, hpair,
        ih fun c hc => h c (by simp [hc])]
      rfl
  | case2 l hshort =>
      rcases l with _ | ⟨x, _ | ⟨y, rest⟩⟩
      · rfl
      · rfl
      · exact (hshort x y rest rfl).elim

/-! ### What `from_hex` returns

Three kinds of text: all pairs read as bytes, a pair is an error, or a pair cuts a character. The
length is checked in the end, so a text of another length is an error of its size only if all of its
pairs are read. -/

variable {s : String}

/-- Numbers only: the size decides. -/
theorem arrayFromHex_of_reads (h : ∀ p ∈ pairs s, ReadsAsByte p) :
    if (pairs s).length = 32 then ∃ key, arrayFromHex s = .ok key
    else arrayFromHex s = .error (.error .size) := by
  obtain ⟨bytes, hbytes, hlen⟩ := Except.mapM_returns fun p hp => (h p hp).parseChunk_eq
  have hparse : parseHex s = .ok bytes := by
    rw [parseHex, ← pairs, hbytes]
    rfl
  rw [arrayFromHex, hparse, Except.ok_bind, ← hlen]
  split
  · exact ⟨_, rfl⟩
  · rfl

/-- A pair that is not a number: its error is the result. -/
theorem arrayFromHex_of_error {front back : List (UInt8 × UInt8)} {p : UInt8 × UInt8}
    {e : Fault Text.IntErrorKind} (hpairs : pairs s = front ++ p :: back)
    (hfront : ∀ q ∈ front, ReadsAsByte q) (hp : parseChunk p = .error e) :
    arrayFromHex s = .error (e.map .notHexidecimal) := by
  have hparse : parseHex s = .error (e.map .notHexidecimal) := by
    rw [parseHex, ← pairs, hpairs, Except.mapM_error (fun q hq => (hfront q hq).parseChunk_eq) hp]
    rfl
  rw [arrayFromHex, hparse, Except.error_bind]

/-- A key text is read as the bytes of its digits. -/
theorem arrayFromHex_of_isKeyText (h : IsKeyText s) :
    ∃ key, arrayFromHex s = .ok key ∧ key.val = denotedBytes s.toList := by
  have hparse : parseHex s = .ok (denotedBytes s.toList) := by
    rw [parseHex, Text.bytes_eq_flatMap, flatMap_utf8EncodeChar h.2, mapM_parseChunk_digits h.2]
    rfl
  have hlen : (denotedBytes s.toList).length = 32 := by rw [length_denotedBytes, h.1]
  refine ⟨⟨denotedBytes s.toList, hlen⟩, ?_, rfl⟩
  rw [arrayFromHex, hparse, Except.ok_bind, dif_pos hlen]
  rfl

/-- A text that is taken for key material, although it is no key text: 32 pairs that are numbers,
and an odd byte behind them or a sign in one of them. -/
structure TakenForKey (s : String) : Prop where
  count : (pairs s).length = 32
  reads : ∀ p ∈ pairs s, ReadsAsByte p
  excess : (Text.bytes s).length % 2 = 1 ∨ ∃ p ∈ pairs s, p.1 = 0x2b

/-- A text in which a pair cuts a character: behind pairs that are numbers there is one that is
not a text of its own. -/
def CutsCharacter (s : String) : Prop :=
  ∃ front p back, pairs s = front ++ p :: back ∧ (∀ q ∈ front, ReadsAsByte q) ∧
    Text.fromUtf8 [p.1, p.2] = none

/-- A text that is taken for key material is no key text. -/
theorem TakenForKey.not_isKeyText (h : TakenForKey s) : ¬ IsKeyText s := by
  intro hkey
  obtain ⟨-, heven, hdigits⟩ := isKeyText_iff_pairs.mp hkey
  rcases h.excess with hodd | ⟨p, hp, hplus⟩
  · omega
  · obtain ⟨x, hx⟩ := (hdigits p hp).1
    exact (Text.of_toDigit hx).2 hplus

/-- It is read. -/
theorem TakenForKey.arrayFromHex_eq (h : TakenForKey s) : ∃ key, arrayFromHex s = .ok key := by
  have hrun := arrayFromHex_of_reads h.reads
  rwa [if_pos h.count] at hrun

/-- A text that cuts a character is a panic. -/
theorem CutsCharacter.arrayFromHex_eq (h : CutsCharacter s) :
    ∃ msg, arrayFromHex s = .error (.panic msg) := by
  obtain ⟨front, p, back, hpairs, hfront, hcut⟩ := h
  obtain ⟨msg, hp⟩ : ∃ msg, parseChunk p = .error (.panic msg) := ⟨_, by rw [parseChunk, hcut]⟩
  exact ⟨_, arrayFromHex_of_error hpairs hfront hp⟩

/-- Numbers of the right count, without a sign and without an odd byte, are a key text. -/
theorem isKeyText_of_reads (hcount : (pairs s).length = 32)
    (hreads : ∀ p ∈ pairs s, ReadsAsByte p) (h : ¬ TakenForKey s) : IsKeyText s := by
  have hexcess : ¬ ((Text.bytes s).length % 2 = 1 ∨ ∃ p ∈ pairs s, p.1 = 0x2b) :=
    fun hexcess => h ⟨hcount, hreads, hexcess⟩
  rw [not_or] at hexcess
  refine isKeyText_iff_pairs.mpr ⟨hcount, by omega, fun p hp => ?_⟩
  obtain ⟨hfst | hplus, hsnd⟩ := hreads p hp
  · exact ⟨hfst, hsnd⟩
  · exact absurd ⟨p, hp, hplus⟩ hexcess.2

/-- A text of neither kind is read exactly. -/
theorem readExactly_of_not (htaken : ¬ TakenForKey s) (hcut : ¬ CutsCharacter s) :
    ReadExactly s (arrayFromHex s) := by
  by_cases hkey : IsKeyText s
  · obtain ⟨key, hrun, hval⟩ := arrayFromHex_of_isKeyText hkey
    rw [hrun]
    refine ⟨iff_of_true ⟨key, rfl⟩ hkey, fun key' h => ?_, fun hnot => absurd hkey hnot⟩
    cases h
    exact hval
  · -- Everything else is an error: for its size, or for its first pair that is not a number.
    have herr : ∃ e, arrayFromHex s = .error (.error e) := by
      rcases readsAsByte_cases (pairs s) with hreads | ⟨front, p, back, hpairs, hfront, hp⟩
      · have hcount : (pairs s).length ≠ 32 :=
          fun hcount => hkey (isKeyText_of_reads hcount hreads htaken)
        have hrun := arrayFromHex_of_reads hreads
        rw [if_neg hcount] at hrun
        exact ⟨_, hrun⟩
      · have htext : Text.fromUtf8 [p.1, p.2] ≠ none :=
          fun hnone => hcut ⟨front, p, back, hpairs, hfront, hnone⟩
        exact ⟨_, arrayFromHex_of_error hpairs hfront (parseChunk_of_not_readsAsByte hp htext)⟩
    obtain ⟨e, hrun⟩ := herr
    rw [hrun]
    exact ⟨iff_of_false (by simp) hkey, by simp, fun _ => ⟨e, rfl⟩⟩

/-- A text of one of the two kinds is not. -/
theorem not_readExactly_of_taken (h : TakenForKey s) : ¬ ReadExactly s (arrayFromHex s) := by
  intro hexact
  exact h.not_isKeyText (hexact.ok_iff.mp h.arrayFromHex_eq)

/-- Neither is a text that cuts a character: the source panics where it is read. -/
theorem not_readExactly_of_cut (h : CutsCharacter s) : ¬ ReadExactly s (arrayFromHex s) := by
  intro hexact
  obtain ⟨msg, hrun⟩ := h.arrayFromHex_eq
  rw [hrun] at hexact
  by_cases hkey : IsKeyText s
  · obtain ⟨key, hok⟩ := hexact.ok_iff.mpr hkey
    cases hok
  · obtain ⟨e, herr⟩ := hexact.err hkey
    cases herr

/-- The texts that are read exactly. -/
theorem readExactly_iff (s : String) :
    ReadExactly s (arrayFromHex s) ↔ ¬ TakenForKey s ∧ ¬ CutsCharacter s := by
  constructor
  · intro h
    exact ⟨fun htaken => not_readExactly_of_taken htaken h,
      fun hcut => not_readExactly_of_cut hcut h⟩
  · rintro ⟨htaken, hcut⟩
    exact readExactly_of_not htaken hcut

/-! ### Written keys -/

/-- The digits that are written are hexadecimal digits, with the value that they were written
for. -/
theorem upperHexDigit_spec : ∀ n : Fin 16,
    IsHexDigit (upperHexDigit n) ∧ digitValue (upperHexDigit n) = n := by
  decide +kernel

/-- The two digits of a byte. -/
def byteDigits (b : UInt8) : List Char :=
  [upperHexDigit (b.toNat / 16), upperHexDigit (b.toNat % 16)]

/-- The digits of a byte stand for the byte. -/
theorem byteDigits_spec (b : UInt8) :
    (∀ c ∈ byteDigits b, IsHexDigit c) ∧ ∀ rest : List Char,
      denotedBytes (byteDigits b ++ rest) = b :: denotedBytes rest := by
  have hb := b.toNat_lt
  -- A byte is its upper and its lower half, with one digit for each.
  obtain ⟨hhi, hhi'⟩ := upperHexDigit_spec ⟨b.toNat / 16, by omega⟩
  obtain ⟨hlo, hlo'⟩ := upperHexDigit_spec ⟨b.toNat % 16, by omega⟩
  constructor
  · simp only [byteDigits, List.forall_mem_cons]
    exact ⟨hhi, hlo, by simp⟩
  · intro rest
    show UInt8.ofNat (16 * digitValue (upperHexDigit (b.toNat / 16))
      + digitValue (upperHexDigit (b.toNat % 16))) :: denotedBytes rest = _
    rw [hhi', hlo', Nat.div_add_mod, UInt8.ofNat_toNat]

/-- `generateHex` writes the digits of the bytes in order. -/
theorem toList_generateHex (buf : List UInt8) :
    (generateHex buf).toList = buf.flatMap byteDigits := by
  -- Generalised over the text that is built up, which is what the loop of the source starts with.
  have hfold : ∀ (buf : List UInt8) (result : String),
      (buf.foldl (fun result b => result ++ formatByte b) result).toList
        = result.toList ++ buf.flatMap byteDigits := by
    intro buf
    induction buf with
    | nil => intro result; simp
    | cons b buf ih =>
        intro result
        rw [List.foldl_cons, ih, String.toList_append, formatByte, String.toList_ofList,
          List.flatMap_cons, List.append_assoc]
        rfl
  exact hfold buf ""

/-- The digits of a byte string stand for it. -/
theorem denotedBytes_flatMap (buf : List UInt8) : denotedBytes (buf.flatMap byteDigits) = buf := by
  induction buf with
  | nil => rfl
  | cons b buf ih => rw [List.flatMap_cons, (byteDigits_spec b).2, ih]

/-- What is written for 32 bytes is a key text. -/
theorem isKeyText_generateHex {buf : List UInt8} (h : buf.length = 32) :
    IsKeyText (generateHex buf) := by
  rw [IsKeyText, toList_generateHex]
  constructor
  · have hlen : (buf.map fun b => (byteDigits b).length).sum = buf.length * 2 := by
      show (buf.map fun _ => 2).sum = _
      rw [List.map_const', List.sum_replicate_nat]
    rw [List.length_flatMap, hlen, h]
  · intro c hc
    obtain ⟨b, -, hc⟩ := List.mem_flatMap.mp hc
    exact (byteDigits_spec b).1 c hc

/-- A key that was written reads back. -/
theorem arrayFromHex_generateHex (key : Digest) : arrayFromHex (generateHex key.val) = .ok key := by
  obtain ⟨key', hrun, hval⟩ := arrayFromHex_of_isKeyText (isKeyText_generateHex key.property)
  rw [toList_generateHex, denotedBytes_flatMap] at hval
  rw [hrun, Subtype.ext hval]

/-! ### Both types -/

/-- `Otp::from_hex` and `Rkth::from_hex` read a text exactly unless it is taken for key material
or cuts a character. What `as_hex` writes reads back. -/
theorem fromHex_exact_iff (s : String) :
    (ReadExactly s (Tool.Otp.fromHex s) ↔ ¬ TakenForKey s ∧ ¬ CutsCharacter s) ∧
    (ReadExactly s (Tool.Rkth.fromHex s) ↔ ¬ TakenForKey s ∧ ¬ CutsCharacter s) ∧
    (∀ key : Tool.Otp, Tool.Otp.fromHex key.asHex = .ok key) ∧
    ∀ key : Tool.Rkth, Tool.Rkth.fromHex key.asHex = .ok key :=
  ⟨readExactly_iff s, readExactly_iff s, arrayFromHex_generateHex, arrayFromHex_generateHex⟩

/-- A key as a text editor leaves it in a file: 64 digits and a line feed. -/
def keyWithLineFeed : String := String.ofList (List.replicate 64 '0' ++ ['\n'])

/-- A key with a sign in front of its last digit. -/
def signedKey : String := String.ofList (List.replicate 62 '0' ++ ['+', 'f'])

/-- A text with a character of two bytes behind a digit. -/
def cutText : String := "0é"

/-- The line feed has no second byte, so `chunks_exact` drops it. -/
theorem pairs_keyWithLineFeed :
    pairs keyWithLineFeed = List.replicate 32 (0x30, 0x30) := by
  decide +kernel

/-- The sign and the last digit are a pair, which `from_str_radix` reads as one digit. -/
theorem pairs_signedKey :
    pairs signedKey = List.replicate 31 (0x30, 0x30) ++ [(0x2b, 0x66)] := by
  decide +kernel

/-- The first two texts are read although they are no key texts, and the third one is a panic. -/
theorem fromHex_not_exact :
    ((∃ key, Tool.Otp.fromHex keyWithLineFeed = .ok key) ∧
      ¬ ReadExactly keyWithLineFeed (Tool.Otp.fromHex keyWithLineFeed)) ∧
    ((∃ key, Tool.Rkth.fromHex signedKey = .ok key) ∧
      ¬ ReadExactly signedKey (Tool.Rkth.fromHex signedKey)) ∧
    (∃ msg, Tool.Otp.fromHex cutText = .error (.panic msg)) ∧
      ¬ ReadExactly cutText (Tool.Otp.fromHex cutText) := by
  have hzeros : ReadsAsByte (0x30, 0x30) := by decide
  have hfeed : TakenForKey keyWithLineFeed := by
    refine ⟨by rw [pairs_keyWithLineFeed, List.length_replicate], ?_, .inl (by decide +kernel)⟩
    rw [pairs_keyWithLineFeed]
    intro p hp
    rw [List.eq_of_mem_replicate hp]
    exact hzeros
  have hsigned : TakenForKey signedKey := by
    refine ⟨by rw [pairs_signedKey]; rfl, ?_, .inr ⟨(0x2b, 0x66), by simp [pairs_signedKey], rfl⟩⟩
    rw [pairs_signedKey]
    intro p hp
    rcases List.mem_append.mp hp with hp | hp
    · rw [List.eq_of_mem_replicate hp]
      exact hzeros
    · rw [List.mem_singleton.mp hp]
      decide
  -- The pair holds the digit and the first byte of the character.
  have hcut : CutsCharacter cutText :=
    ⟨[], (0x30, 0xc3), [], by decide +kernel, by simp, by decide +kernel⟩
  exact ⟨⟨hfeed.arrayFromHex_eq, not_readExactly_of_taken hfeed⟩,
    ⟨hsigned.arrayFromHex_eq, not_readExactly_of_taken hsigned⟩,
    hcut.arrayFromHex_eq, not_readExactly_of_cut hcut⟩

end EcSlimloader
