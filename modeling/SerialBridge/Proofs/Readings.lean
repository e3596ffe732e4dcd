import SerialBridge.Proofs.Pieces

/-! # What is read stands in the bytes

Cutting bytes into pieces never makes up a character: each character that comes out has its own
bytes in the input, at its place (`reads_pieces`).

Within a character the machine has forgotten the bytes it took but for the bits gathered from
them.  They still determine these bytes: whatever number the owed bytes would complete, its
character is written with the bytes taken and then the owed ones (`Opens`).  The ranges of the
first and the second byte are what makes this so, as they admit a number only in the length it is
written in.

So characters are read off the front exactly when their bytes stand there (`prefix_pieces_iff`),
and no character is read that does not stand somewhere in the bytes (`infix_of_mem_pieces`).
-/

namespace SerialBridge.Utf8

/-- Pieces, one after another, are these bytes: a character stands for its own, and a broken piece
may stand for any. -/
inductive Reads : List (Option Char) → Bytes → Prop
  | nothing : Reads [] []
  | character (c : Char) {ps : List (Option Char)} {bytes : Bytes} :
      Reads ps bytes → Reads (some c :: ps) (String.utf8EncodeChar c ++ bytes)
  | broken (part : Bytes) {ps : List (Option Char)} {bytes : Bytes} :
      Reads ps bytes → Reads (none :: ps) (part ++ bytes)

theorem Reads.append {ps qs : List (Option Char)} {front rest : Bytes} (hfront : Reads ps front)
    (hrest : Reads qs rest) : Reads (ps ++ qs) (front ++ rest) := by
  induction hfront with
  | nothing => exact hrest
  | character c _ ih =>
    rw [List.append_assoc]
    exact .character c ih
  | broken part _ ih =>
    rw [List.append_assoc]
    exact .broken part ih

theorem reads_character (c : Char) : Reads [some c] (String.utf8EncodeChar c) := by
  rw [← List.append_nil (String.utf8EncodeChar c)]
  exact .character c .nothing

theorem reads_broken (part : Bytes) : Reads [none] part := by
  rw [← List.append_nil part]
  exact .broken part .nothing

/-! ## How a number is written -/

theorem toNat_ofNat_of_valid {v : Nat} (hv : v < 0xD800 ∨ 0xDFFF < v ∧ v < 0x110000) :
    (Char.ofNat v).val.toNat = v := by
  have hvalid : v.isValidChar := hv
  rw [Char.ofNat, dif_pos hvalid]
  rfl

theorem encodeChar_one {v : Nat} (hv : v ≤ 127) :
    String.utf8EncodeChar (Char.ofNat v) = [UInt8.ofNat v] := by
  rw [String.utf8EncodeChar]
  simp only [toNat_ofNat_of_valid (v := v) (by omega)]
  rw [if_pos hv]

theorem encodeChar_two {v : Nat} (hlow : 128 ≤ v) (hhigh : v ≤ 2047) :
    String.utf8EncodeChar (Char.ofNat v) = UInt8.ofNat (v / 64 % 32 + 192) :: tail v 1 := by
  rw [String.utf8EncodeChar]
  simp only [toNat_ofNat_of_valid (v := v) (by omega)]
  rw [if_neg (by omega), if_pos hhigh]
  rfl

theorem encodeChar_three {v : Nat} (hlow : 2048 ≤ v) (hhigh : v ≤ 65535)
    (hvalid : v < 0xD800 ∨ 0xDFFF < v) :
    String.utf8EncodeChar (Char.ofNat v) = UInt8.ofNat (v / 4096 % 16 + 224) :: tail v 2 := by
  rw [String.utf8EncodeChar]
  simp only [toNat_ofNat_of_valid (v := v) (by omega)]
  rw [if_neg (by omega), if_neg (by omega), if_pos hhigh]
  rfl

theorem encodeChar_four {v : Nat} (hlow : 65536 ≤ v) (hhigh : v < 0x110000) :
    String.utf8EncodeChar (Char.ofNat v) = UInt8.ofNat (v / 262144 % 8 + 240) :: tail v 3 := by
  rw [String.utf8EncodeChar]
  simp only [toNat_ofNat_of_valid (v := v) (by omega)]
  rw [if_neg (by omega), if_neg (by omega), if_neg (by omega), ← above_two]
  rfl

/-! ## What the machine remembers -/

/-- The bytes taken open a character: each number that the owed bytes can complete is written with
the bytes taken and then the owed ones. -/
def Opens (taken : Bytes) (k : Nat) (low high : UInt8) (value : Nat) : Prop :=
  ∀ v, above v (k + 1) = value → low.toNat ≤ above v k % 64 + 128 →
    above v k % 64 + 128 ≤ high.toNat →
    String.utf8EncodeChar (Char.ofNat v) = taken ++ tail v (k + 1)

/-- The machine stands behind these bytes of an unfinished character. -/
inductive Remembers : State → Bytes → Prop
  | between : Remembers .between []
  | within {taken : Bytes} {k value : Nat} {low high : UInt8} :
      0x80 ≤ low.toNat → high.toNat ≤ 0xBF → Opens taken k low high value →
      Remembers (.within (k + 1) low high value) taken

theorem remembers_two {b : UInt8} (hlow : 0xC2 ≤ b.toNat) (hhigh : b.toNat < 0xE0) :
    Remembers (.within 1 0x80 0xBF (b.toNat - 0xC0)) [b] := by
  refine .within (Nat.le_refl _) (Nat.le_refl _) fun v hv _ _ => ?_
  rw [above_one] at hv
  have hfirst : v / 64 % 32 + 192 = b.toNat := by omega
  rw [encodeChar_two (by omega) (by omega), hfirst, UInt8.ofNat_toNat]
  rfl

/-- A first byte of a character of three bytes, with the range it leaves for the second. -/
theorem remembers_three (b low high : UInt8) (hfirst : 0xE0 ≤ b.toNat) (hlast : b.toNat < 0xF0)
    (hlow : 0x80 ≤ low.toNat) (hhigh : high.toNat ≤ 0xBF)
    (hshort : b.toNat = 0xE0 → 0xA0 ≤ low.toNat) (hsurrogate : b.toNat = 0xED → high.toNat ≤ 0x9F) :
    Remembers (.within 2 low high (b.toNat - 0xE0)) [b] := by
  refine .within hlow hhigh fun v hv hleast hmost => ?_
  rw [above_two] at hv
  rw [above_one] at hleast hmost
  have hbyte : v / 4096 % 16 + 224 = b.toNat := by omega
  rw [encodeChar_three (by omega) (by omega) (by omega), hbyte, UInt8.ofNat_toNat]
  rfl

/-- A first byte of a character of four bytes, with the range it leaves for the second. -/
theorem remembers_four (b low high : UInt8) (hfirst : 0xF0 ≤ b.toNat) (hlast : b.toNat ≤ 0xF4)
    (hlow : 0x80 ≤ low.toNat) (hhigh : high.toNat ≤ 0xBF)
    (hshort : b.toNat = 0xF0 → 0x90 ≤ low.toNat) (hbeyond : b.toNat = 0xF4 → high.toNat ≤ 0x8F) :
    Remembers (.within 3 low high (b.toNat - 0xF0)) [b] := by
  refine .within hlow hhigh fun v hv hleast hmost => ?_
  rw [above_three] at hv
  rw [above_two] at hleast hmost
  have hbyte : v / 262144 % 8 + 240 = b.toNat := by omega
  rw [encodeChar_four (by omega) (by omega), hbyte, UInt8.ofNat_toNat]
  rfl

/-- The first byte of a piece is the piece, or is remembered. -/
theorem exists_reads_enter (b : UInt8) :
    ∃ front taken, Reads (enter b).1 front ∧ Remembers (enter b).2 taken ∧
      front ++ taken = [b] := by
  have hbyte := b.toNat_lt
  have opened : ∀ {s}, Remembers s [b] → ∃ front taken, Reads [] front ∧ Remembers s taken ∧
      front ++ taken = [b] := fun h => ⟨[], [b], .nothing, h, rfl⟩
  have whole : ∀ {piece}, Reads [piece] [b] → ∃ front taken, Reads [piece] front ∧
      Remembers .between taken ∧ front ++ taken = [b] := fun h => ⟨[b], [], h, .between, rfl⟩
  simp only [enter]
  split
  · rename_i h
    refine whole ?_
    have hone := encodeChar_one (Nat.le_of_lt_succ h)
    rw [UInt8.ofNat_toNat] at hone
    rw [← hone]
    exact reads_character _
  split
  · exact whole (reads_broken [b])
  split
  · exact opened (remembers_two (by omega) (by omega))
  split
  · rename_i h
    have hthree := remembers_three b 0xA0 0xBF (by omega) (by omega)
      (by decide) (by decide) (fun _ => by decide) (by omega)
    rw [h] at hthree
    exact opened hthree
  split
  · rename_i h
    have hthree := remembers_three b 0x80 0x9F (by omega) (by omega)
      (by decide) (by decide) (by omega) (fun _ => by decide)
    rw [h] at hthree
    exact opened hthree
  split
  · exact opened (remembers_three _ _ _ (by omega) (by omega) (by decide) (by decide) (by omega)
      (by omega))
  split
  · rename_i h
    have hfour := remembers_four b 0x90 0xBF (by omega) (by omega)
      (by decide) (by decide) (fun _ => by decide) (by omega)
    rw [h] at hfour
    exact opened hfour
  split
  · exact opened (remembers_four _ _ _ (by omega) (by omega) (by decide) (by decide) (by omega)
      (by omega))
  split
  · rename_i h
    have hfour := remembers_four b 0x80 0x8F (by omega) (by omega)
      (by decide) (by decide) (by omega) (fun _ => by decide)
    rw [h] at hfour
    exact opened hfour
  · exact whole (reads_broken [b])

/-- A byte within the range continues the character, whatever number it is part of. -/
theorem opens_continued {taken : Bytes} {k value : Nat} {low high b : UInt8}
    (hlow : 0x80 ≤ low.toNat) (hhigh : high.toNat ≤ 0xBF)
    (hopens : Opens taken (k + 1) low high value)
    (hleast : low.toNat ≤ b.toNat) (hmost : b.toNat ≤ high.toNat) :
    Opens (taken ++ [b]) k 0x80 0xBF (value * 64 + b.toNat % 64) := by
  intro v hv _ _
  have hvalue : above v (k + 2) = value := by
    rw [above, hv]
    omega
  have hbyte : above v (k + 1) % 64 + 128 = b.toNat := by omega
  rw [hopens v hvalue (by omega) (by omega), List.append_assoc]
  have htail : tail v (k + 2) = UInt8.ofNat (above v (k + 1) % 64 + 128) :: tail v (k + 1) := rfl
  rw [htail, hbyte, UInt8.ofNat_toNat, List.singleton_append]

/-- The last byte owed completes the character. -/
theorem encodeChar_of_opens {taken : Bytes} {value : Nat} {low high b : UInt8}
    (hlow : 0x80 ≤ low.toNat) (hhigh : high.toNat ≤ 0xBF) (hopens : Opens taken 0 low high value)
    (hleast : low.toNat ≤ b.toNat) (hmost : b.toNat ≤ high.toNat) :
    String.utf8EncodeChar (Char.ofNat (value * 64 + b.toNat % 64)) = taken ++ [b] := by
  have hvalue : above (value * 64 + b.toNat % 64) 1 = value := by
    rw [above_one]
    omega
  have hbyte : above (value * 64 + b.toNat % 64) 0 % 64 + 128 = b.toNat := by
    rw [above]
    omega
  have htail : tail (value * 64 + b.toNat % 64) 1 = [b] := by
    rw [tail, hbyte, UInt8.ofNat_toNat, tail]
  rw [hopens _ hvalue (by omega) (by omega), htail]

/-- **One byte.**  The pieces it completes are bytes off the front of those taken and itself, and
the rest of them is remembered. -/
theorem exists_reads_step {s : State} {taken : Bytes} (hs : Remembers s taken) (b : UInt8) :
    ∃ front later, Reads (step s b).1 front ∧ Remembers (step s b).2 later ∧
      front ++ later = taken ++ [b] := by
  cases hs with
  | between => exact exists_reads_enter b
  | @within _ k value low high hlow hhigh hopens =>
    simp only [step]
    by_cases hrange : low ≤ b ∧ b ≤ high
    · rw [if_pos hrange]
      obtain ⟨hleast, hmost⟩ : low.toNat ≤ b.toNat ∧ b.toNat ≤ high.toNat := hrange
      cases k with
      | zero =>
        refine ⟨taken ++ [b], [], ?_, .between, List.append_nil _⟩
        rw [← encodeChar_of_opens hlow hhigh hopens hleast hmost]
        exact reads_character _
      | succ k =>
        rw [if_neg (by omega)]
        exact ⟨[], taken ++ [b], .nothing,
          .within (Nat.le_refl _) (Nat.le_refl _) (opens_continued hlow hhigh hopens hleast hmost),
          rfl⟩
    -- the character breaks off, and the byte starts a piece of its own
    · rw [if_neg hrange]
      obtain ⟨front, later, hreads, hremembers, heq⟩ := exists_reads_enter b
      exact ⟨taken ++ front, later, .broken taken hreads, hremembers, by
        rw [List.append_assoc, heq]⟩

theorem reads_piecesFrom {s : State} {taken : Bytes} (hs : Remembers s taken) (bytes : Bytes) :
    Reads (piecesFrom s bytes) (taken ++ bytes) := by
  induction bytes generalizing s taken with
  | nil =>
    rw [List.append_nil]
    cases hs with
    | between => exact .nothing
    | within => exact reads_broken taken
  | cons b bytes ih =>
    obtain ⟨front, later, hreads, hremembers, heq⟩ := exists_reads_step hs b
    rw [piecesFrom, List.append_cons, ← heq, List.append_assoc]
    exact hreads.append (ih hremembers)

/-- **Every character that is read stands in the bytes**, at its place. -/
theorem reads_pieces (bytes : Bytes) : Reads (pieces bytes) bytes :=
  reads_piecesFrom .between bytes

/-! ## Characters at the front, and anywhere -/

theorem Reads.front {ps : List (Option Char)} {bytes : Bytes} (h : Reads ps bytes)
    {cs : List Char} (hcs : cs.map some <+: ps) : cs.flatMap String.utf8EncodeChar <+: bytes := by
  induction h generalizing cs with
  | nothing =>
    rw [List.map_eq_nil_iff.mp (List.prefix_nil.mp hcs)]
    exact List.nil_prefix
  | character c _ ih =>
    cases cs with
    | nil => exact List.nil_prefix
    | cons c' cs =>
      obtain ⟨hc, hrest⟩ := List.cons_prefix_cons.mp hcs
      cases hc
      exact (List.prefix_append_right_inj _).mpr (ih hrest)
  | broken =>
    cases cs with
    | nil => exact List.nil_prefix
    | cons c' cs => cases (List.cons_prefix_cons.mp hcs).1

theorem pieces_append (cs : List Char) (rest : Bytes) :
    pieces (cs.flatMap String.utf8EncodeChar ++ rest) = cs.map some ++ pieces rest := by
  induction cs with
  | nil => rfl
  | cons c cs ih =>
    rw [List.flatMap_cons, List.append_assoc, pieces, piecesFrom_encodeChar, ← pieces, ih]
    rfl

/-- Characters are read off the front exactly when their bytes stand there. -/
theorem prefix_pieces_iff (cs : List Char) (bytes : Bytes) :
    cs.map some <+: pieces bytes ↔ cs.flatMap String.utf8EncodeChar <+: bytes := by
  constructor
  · exact (reads_pieces bytes).front
  · rintro ⟨rest, rfl⟩
    rw [pieces_append]
    exact List.prefix_append _ _

theorem Reads.stretch {ps : List (Option Char)} {bytes : Bytes} (h : Reads ps bytes) {c : Char}
    (hc : some c ∈ ps) : String.utf8EncodeChar c <:+: bytes := by
  induction h with
  | nothing => cases hc
  | character c' _ ih =>
    rcases List.mem_cons.mp hc with heq | hc
    · cases heq
      exact (List.prefix_append _ _).isInfix
    · exact (ih hc).trans (List.suffix_append _ _).isInfix
  | broken part _ ih =>
    rcases List.mem_cons.mp hc with heq | hc
    · cases heq
    · exact (ih hc).trans (List.suffix_append _ _).isInfix

/-- A character that is read has its bytes in the input. -/
theorem infix_of_mem_pieces {c : Char} {bytes : Bytes} (hc : some c ∈ pieces bytes) :
    String.utf8EncodeChar c <:+: bytes :=
  (reads_pieces bytes).stretch hc

end SerialBridge.Utf8
