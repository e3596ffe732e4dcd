import SerialBridge.Text.Utf8

/-! # A text is read back from its bytes

The bytes of a character beyond seven bits are a first byte, which says how many follow, and the
rest of its bits in sixes (`tail`).  The machine that cuts bytes into pieces gathers these bits
again: behind so many of them it holds what stands above the bits to come
(`piecesFrom_within`).  The first byte also narrows the range of the second, and the number of a
character keeps to that range, as it is written in the shortest form, is no surrogate and lies
below U+110000 (`enter_three`, `enter_four`).

So every character is one piece (`piecesFrom_encodeChar`), and a text is read back
(`decode?_encode`).
-/

namespace SerialBridge.Utf8

/-- What a number holds above its last `k` sixes of bits. -/
def above (v : Nat) : Nat → Nat
  | 0 => v
  | k + 1 => above v k / 64

theorem above_one (v : Nat) : above v 1 = v / 64 := rfl

theorem above_two (v : Nat) : above v 2 = v / 4096 :=
  Nat.div_div_eq_div_mul v 64 64

theorem above_three (v : Nat) : above v 3 = v / 262144 := by
  rw [above, above_two, Nat.div_div_eq_div_mul]

/-- The last `k` bytes of a character, six bits in each. -/
def tail (v : Nat) : Nat → Bytes
  | 0 => []
  | k + 1 => UInt8.ofNat (above v k % 64 + 128) :: tail v k

/-- **The bytes that are owed complete the character.** -/
theorem piecesFrom_within {v k : Nat} {low high : UInt8} (hlow : low.toNat ≤ above v k % 64 + 128)
    (hhigh : above v k % 64 + 128 ≤ high.toNat) (rest : Bytes) :
    piecesFrom (.within (k + 1) low high (above v (k + 1))) (tail v (k + 1) ++ rest) =
      some (Char.ofNat v) :: piecesFrom .between rest := by
  induction k generalizing low high with
  | zero =>
    have hbyte : v % 64 + 128 < UInt8.size := by
      show _ < 256
      omega
    have hvalue : v / 64 * 64 + (v % 64 + 128) % 64 = v := by omega
    simp only [above] at hlow hhigh
    simp only [above, tail, Nat.zero_add, List.singleton_append, piecesFrom, step,
      UInt8.le_ofNat_iff hbyte, UInt8.ofNat_le_iff hbyte, hlow, hhigh, and_self, if_true,
      UInt8.toNat_ofNat_of_lt' hbyte, hvalue, Nat.le_refl]
  | succ k ih =>
    have hbyte : above v (k + 1) % 64 + 128 < UInt8.size := by
      show _ < 256
      omega
    have hvalue : above v (k + 2) * 64 + (above v (k + 1) % 64 + 128) % 64 = above v (k + 1) := by
      rw [above]
      omega
    -- the bytes to come are owed in the full range
    have hleast : (0x80 : UInt8).toNat ≤ above v k % 64 + 128 := Nat.le_add_left _ _
    have hmost : above v k % 64 + 128 ≤ (0xBF : UInt8).toNat := by
      show _ ≤ 191
      omega
    have htail : tail v (k + 2) =
        UInt8.ofNat (above v (k + 1) % 64 + 128) :: tail v (k + 1) := rfl
    have howed : ¬k + 1 + 1 ≤ 1 := by omega
    rw [htail, List.cons_append, piecesFrom]
    simp only [step, UInt8.le_ofNat_iff hbyte, UInt8.ofNat_le_iff hbyte, hlow, hhigh, and_self,
      if_true, UInt8.toNat_ofNat_of_lt' hbyte, hvalue, howed, if_false, List.nil_append,
      Nat.add_sub_cancel]
    exact ih hleast hmost

/-- The first byte of a character of two bytes. -/
theorem enter_two {v : Nat} (hlow : 128 ≤ v) (hhigh : v ≤ 2047) :
    enter (UInt8.ofNat (v / 64 % 32 + 192)) = ([], .within 1 0x80 0xBF (above v 1)) := by
  have hbyte : v / 64 % 32 + 192 < UInt8.size := by
    show _ < 256
    omega
  simp only [enter, UInt8.toNat_ofNat_of_lt' hbyte]
  rw [if_neg (by omega), if_neg (by omega), if_pos (by omega)]
  have hvalue : v / 64 % 32 + 192 - 192 = v / 64 := by omega
  rw [hvalue, above_one]

/-- The first byte of a character of three bytes leaves room for the second. -/
theorem enter_three {v : Nat} (hlow : 2048 ≤ v) (hhigh : v ≤ 65535)
    (hvalid : v < 0xD800 ∨ 0xDFFF < v) :
    ∃ low high : UInt8, low.toNat ≤ above v 1 % 64 + 128 ∧ above v 1 % 64 + 128 ≤ high.toNat ∧
      enter (UInt8.ofNat (v / 4096 % 16 + 224)) = ([], .within 2 low high (above v 2)) := by
  have hbyte : v / 4096 % 16 + 224 < UInt8.size := by
    show _ < 256
    omega
  simp only [enter, UInt8.toNat_ofNat_of_lt' hbyte, above_one, above_two]
  rw [if_neg (by omega), if_neg (by omega), if_neg (by omega)]
  by_cases hshort : v / 4096 = 0
  · refine ⟨0xA0, 0xBF, ?_, ?_, ?_⟩
    · show 160 ≤ _
      omega
    · show _ ≤ 191
      omega
    · rw [if_pos (by omega), show v / 4096 = 0 by omega]
  by_cases hsurrogate : v / 4096 = 13
  · refine ⟨0x80, 0x9F, ?_, ?_, ?_⟩
    · show 128 ≤ _
      omega
    · show _ ≤ 159
      omega
    · rw [if_neg (by omega), if_pos (by omega), show v / 4096 = 13 by omega]
  · refine ⟨0x80, 0xBF, ?_, ?_, ?_⟩
    · show 128 ≤ _
      omega
    · show _ ≤ 191
      omega
    · rw [if_neg (by omega), if_neg (by omega), if_pos (by omega),
        show v / 4096 % 16 + 224 - 224 = v / 4096 by omega]

/-- The first byte of a character of four bytes leaves room for the second. -/
theorem enter_four {v : Nat} (hlow : 65536 ≤ v) (hhigh : v < 0x110000) :
    ∃ low high : UInt8, low.toNat ≤ above v 2 % 64 + 128 ∧ above v 2 % 64 + 128 ≤ high.toNat ∧
      enter (UInt8.ofNat (v / 262144 % 8 + 240)) = ([], .within 3 low high (above v 3)) := by
  have hbyte : v / 262144 % 8 + 240 < UInt8.size := by
    show _ < 256
    omega
  simp only [enter, UInt8.toNat_ofNat_of_lt' hbyte, above_two, above_three]
  rw [if_neg (by omega), if_neg (by omega), if_neg (by omega), if_neg (by omega),
    if_neg (by omega), if_neg (by omega)]
  by_cases hshort : v / 262144 = 0
  · refine ⟨0x90, 0xBF, ?_, ?_, ?_⟩
    · show 144 ≤ _
      omega
    · show _ ≤ 191
      omega
    · rw [if_pos (by omega), show v / 262144 = 0 by omega]
  by_cases hlast : v / 262144 = 4
  · refine ⟨0x80, 0x8F, ?_, ?_, ?_⟩
    · show 128 ≤ _
      omega
    · show _ ≤ 143
      omega
    · rw [if_neg (by omega), if_neg (by omega), if_pos (by omega), show v / 262144 = 4 by omega]
  · refine ⟨0x80, 0xBF, ?_, ?_, ?_⟩
    · show 128 ≤ _
      omega
    · show _ ≤ 191
      omega
    · rw [if_neg (by omega), if_pos (by omega),
        show v / 262144 % 8 + 240 - 240 = v / 262144 by omega]

/-- A first byte and the bytes it announces are a character. -/
theorem piecesFrom_enter {b low high : UInt8} {c : Char} {k : Nat}
    (henter : enter b = ([], .within (k + 1) low high (above c.toNat (k + 1))))
    (hlow : low.toNat ≤ above c.toNat k % 64 + 128)
    (hhigh : above c.toNat k % 64 + 128 ≤ high.toNat) (rest : Bytes) :
    piecesFrom .between (b :: (tail c.toNat (k + 1) ++ rest)) =
      some c :: piecesFrom .between rest := by
  rw [piecesFrom, step, henter, List.nil_append, piecesFrom_within hlow hhigh, Char.ofNat_toNat]

/-- **The bytes of a character are one piece**, whatever follows them. -/
theorem piecesFrom_encodeChar (c : Char) (rest : Bytes) :
    piecesFrom .between (String.utf8EncodeChar c ++ rest) = some c :: piecesFrom .between rest := by
  have hval : c.val.toNat = c.toNat := rfl
  have hvalid : c.toNat < 0xD800 ∨ 0xDFFF < c.toNat ∧ c.toNat < 0x110000 := c.valid
  have htwoTail : [UInt8.ofNat (c.toNat % 64 + 128)] = tail c.toNat 1 := rfl
  have hthreeTail : UInt8.ofNat (c.toNat / 64 % 64 + 128) :: tail c.toNat 1 = tail c.toNat 2 := rfl
  have hfourTail : UInt8.ofNat (c.toNat / 4096 % 64 + 128) :: tail c.toNat 2 = tail c.toNat 3 := by
    rw [← above_two]
    rfl
  rw [String.utf8EncodeChar]
  simp only [hval, htwoTail, hthreeTail, hfourTail]
  by_cases hone : c.toNat ≤ 127
  · have hbyte : c.toNat < UInt8.size := by
      show _ < 256
      omega
    have henter : enter (UInt8.ofNat c.toNat) = ([some c], .between) := by
      simp only [enter, UInt8.toNat_ofNat_of_lt' hbyte]
      rw [if_pos (by omega), Char.ofNat_toNat]
    rw [if_pos hone, List.singleton_append, piecesFrom, step, henter]
    rfl
  by_cases htwo : c.toNat ≤ 2047
  · rw [if_neg hone, if_pos htwo]
    refine piecesFrom_enter (enter_two (by omega) htwo) ?_ ?_ rest
    · show 128 ≤ _
      omega
    · show _ ≤ 191
      omega
  by_cases hthree : c.toNat ≤ 65535
  · rw [if_neg hone, if_neg htwo, if_pos hthree]
    obtain ⟨low, high, hlow, hhigh, henter⟩ := enter_three (by omega) hthree (by omega)
    exact piecesFrom_enter henter hlow hhigh rest
  · rw [if_neg hone, if_neg htwo, if_neg hthree]
    obtain ⟨low, high, hlow, hhigh, henter⟩ := enter_four (v := c.toNat) (by omega) (by omega)
    exact piecesFrom_enter henter hlow hhigh rest

theorem pieces_encode (s : String) : pieces (encode s) = s.toList.map some := by
  rw [pieces, encode]
  induction s.toList with
  | nil => rfl
  | cons c cs ih => rw [List.flatMap_cons, piecesFrom_encodeChar, ih, List.map_cons]

/-- **A text is read back from its bytes.** -/
theorem decode?_encode (s : String) : decode? (encode s) = some s := by
  have hall : ∀ cs : List Char, (cs.map some).mapM id = some cs := by
    intro cs
    induction cs with
    | nil => rfl
    | cons c cs ih => simp [ih]
  rw [decode?, pieces_encode, hall, Option.map_some, String.ofList_toList]

end SerialBridge.Utf8
