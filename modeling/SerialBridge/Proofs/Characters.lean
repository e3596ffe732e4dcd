import SerialBridge.Proofs.Framing

/-! # Characters and their bytes

A text is the bytes of its characters one after another.  A seven-bit character is one byte,
and no byte of another character looks like it, so seven-bit characters are found in the bytes
of a text just where they stand in the text (`mem_encodeChar_iff`, `prefix_flatMap_iff`).

Bytes can be cut anywhere, and a cut may fall inside a character.  It does not exactly when the
bytes end there or the next byte begins a character (`isText_take_iff`); and then what is on
either side of the cut is the bytes of a text.
-/

namespace SerialBridge.Utf8

/-- A seven-bit character is one byte, and the bytes of any other lie beyond seven bits. -/
theorem encodeChar_cases (c : Char) :
    (c.toNat < 128 ∧ String.utf8EncodeChar c = [UInt8.ofNat c.toNat]) ∨
      (128 ≤ c.toNat ∧ ∀ b ∈ String.utf8EncodeChar c, 128 ≤ b.toNat) := by
  have hval : c.val.toNat = c.toNat := rfl
  by_cases hc : c.toNat ≤ 127
  · refine .inl ⟨Nat.lt_succ_of_le hc, ?_⟩
    rw [String.utf8EncodeChar, hval, if_pos hc]
  · refine .inr ⟨Nat.lt_of_not_le hc, fun b hb => ?_⟩
    rw [String.utf8EncodeChar, hval, if_neg hc] at hb
    split at hb
    · simp only [List.mem_cons, List.not_mem_nil, or_false] at hb
      rcases hb with rfl | rfl <;> rw [UInt8.toNat_ofNat'] <;> omega
    · split at hb
      · simp only [List.mem_cons, List.not_mem_nil, or_false] at hb
        rcases hb with rfl | rfl | rfl <;> rw [UInt8.toNat_ofNat'] <;> omega
      · simp only [List.mem_cons, List.not_mem_nil, or_false] at hb
        rcases hb with rfl | rfl | rfl | rfl <;> rw [UInt8.toNat_ofNat'] <;> omega

/-- The byte of a seven-bit character is a byte of no other character. -/
theorem mem_encodeChar_iff {a c : Char} (ha : a.toNat < 128) :
    UInt8.ofNat a.toNat ∈ String.utf8EncodeChar c ↔ c = a := by
  have hbyte : ∀ n, n < 128 → (UInt8.ofNat n).toNat = n := by
    intro n hn
    rw [UInt8.toNat_ofNat']
    omega
  rcases encodeChar_cases c with ⟨hc, heq⟩ | ⟨hc, hhigh⟩
  · rw [heq, List.mem_singleton, ← UInt8.toNat_inj, hbyte _ ha, hbyte _ hc, Char.toNat_inj]
    exact eq_comm
  · refine iff_of_false (fun hmem => ?_) fun he => ?_
    · have := hhigh _ hmem
      rw [hbyte _ ha] at this
      omega
    · rw [he] at hc
      omega

/-- Seven-bit characters stand at the front of a text exactly when their bytes stand at the
front of its bytes. -/
theorem prefix_flatMap_iff {p cs : List Char} (hp : ∀ a ∈ p, a.toNat < 128) :
    p.flatMap String.utf8EncodeChar <+: cs.flatMap String.utf8EncodeChar ↔ p <+: cs := by
  induction p generalizing cs with
  | nil => exact iff_of_true List.nil_prefix List.nil_prefix
  | cons a p ih =>
    obtain ⟨ha, hp⟩ := List.forall_mem_cons.mp hp
    have hbyte : String.utf8EncodeChar a = [UInt8.ofNat a.toNat] := by
      rcases encodeChar_cases a with ⟨-, heq⟩ | ⟨hhigh, -⟩
      · exact heq
      · omega
    cases cs with
    | nil =>
      refine iff_of_false (fun h => ?_) fun h => ?_
      · rw [List.flatMap_cons, hbyte] at h
        exact List.cons_ne_nil _ _ (List.prefix_nil.mp h)
      · exact List.cons_ne_nil _ _ (List.prefix_nil.mp h)
    | cons c cs =>
      rw [List.flatMap_cons, List.flatMap_cons, List.cons_prefix_cons]
      by_cases hca : c = a
      · rw [hca, List.prefix_append_right_inj, ih hp]
        exact ⟨fun h => ⟨rfl, h⟩, And.right⟩
      -- the first byte of another character would be the byte of `a`
      · refine iff_of_false (fun h => ?_) fun h => hca h.1.symm
        obtain ⟨b, rest, hfirst⟩ : ∃ b rest, String.utf8EncodeChar c = b :: rest :=
          List.exists_cons_of_ne_nil String.utf8EncodeChar_ne_nil
        rw [hbyte, hfirst, List.singleton_append, List.cons_append, List.cons_prefix_cons] at h
        have hmem : UInt8.ofNat a.toNat ∈ String.utf8EncodeChar c := by
          rw [hfirst, h.1]
          exact List.mem_cons_self
        exact hca ((mem_encodeChar_iff ha).mp hmem)

/-- Leaving out the bytes of carriage returns is leaving out carriage returns. -/
theorem filter_flatMap (cs : List Char) :
    (cs.flatMap String.utf8EncodeChar).filter (· != carriageReturn) =
      (cs.filter (· != '\r')).flatMap String.utf8EncodeChar := by
  induction cs with
  | nil => rfl
  | cons c cs ih =>
    rw [List.flatMap_cons, List.filter_append, ih]
    by_cases hc : c = '\r'
    · rw [hc]
      rfl
    · have hnone : carriageReturn ∉ String.utf8EncodeChar c :=
        fun hmem => hc ((mem_encodeChar_iff (a := '\r') (by decide)).mp hmem)
      have hkept : (String.utf8EncodeChar c).filter (· != carriageReturn) =
          String.utf8EncodeChar c :=
        List.filter_eq_self.mpr fun b hb => bne_iff_ne.mpr fun he => hnone (he ▸ hb)
      rw [hkept, List.filter_cons, if_pos (bne_iff_ne.mpr hc), List.flatMap_cons]

/-! ## Bytes of a text -/

/-- The bytes are those of a text. -/
def IsText (bytes : Bytes) : Prop :=
  ∃ text, encode text = bytes

/-- A cut behind so many bytes falls between characters: the bytes end there, or the next one
begins a character. -/
def IsBoundary (bytes : Bytes) (n : Nat) : Prop :=
  ∀ b ∈ bytes[n]?, b.IsUTF8FirstByte

instance (bytes : Bytes) (n : Nat) : Decidable (IsBoundary bytes n) :=
  Option.decidableForallMem bytes[n]?

theorem toByteArray_encode (text : String) : (encode text).toByteArray = text.toByteArray := by
  rw [← String.utf8Encode_toList, List.utf8Encode, encode]

theorem isText_iff {bytes : Bytes} : IsText bytes ↔ bytes.toByteArray.IsValidUTF8 := by
  constructor
  · rintro ⟨text, rfl⟩
    rw [toByteArray_encode]
    exact text.isValidUTF8
  · rintro ⟨cs, hcs⟩
    refine ⟨String.ofList cs, ?_⟩
    rw [← List.toByteArray_inj, hcs, toByteArray_encode, String.toByteArray_ofList]

theorem isText_encode (text : String) : IsText (encode text) :=
  ⟨text, rfl⟩

theorem isText_flatMap (cs : List Char) : IsText (cs.flatMap String.utf8EncodeChar) :=
  ⟨String.ofList cs, by rw [encode, String.toList_ofList]⟩

theorem isText_nil : IsText [] :=
  isText_flatMap []

theorem isText_encodeChar (c : Char) : IsText (String.utf8EncodeChar c) := by
  have h := isText_flatMap [c]
  rwa [List.flatMap_singleton] at h

theorem IsText.append {front rest : Bytes} (hfront : IsText front) (hrest : IsText rest) :
    IsText (front ++ rest) := by
  rw [isText_iff, List.toByteArray_append]
  exact (isText_iff.mp hfront).append (isText_iff.mp hrest)

theorem isText_flatten {parts : List Bytes} (h : ∀ p ∈ parts, IsText p) :
    IsText parts.flatten := by
  induction parts with
  | nil => exact isText_nil
  | cons p parts ih =>
    obtain ⟨hp, hparts⟩ := List.forall_mem_cons.mp h
    exact hp.append (ih hparts)

theorem isBoundary_of_length_le {bytes : Bytes} {n : Nat} (h : bytes.length ≤ n) :
    IsBoundary bytes n := by
  intro b hb
  rw [List.getElem?_eq_none h] at hb
  cases hb

theorem isBoundary_append_cons {b : UInt8} (hb : b.IsUTF8FirstByte) (front rest : Bytes) :
    IsBoundary (front ++ b :: rest) front.length := by
  intro x hx
  rw [List.getElem?_append_right (Nat.le_refl _), Nat.sub_self, List.getElem?_cons_zero] at hx
  cases hx
  exact hb

theorem isBoundary_drop (bytes : Bytes) (m n : Nat) :
    IsBoundary (bytes.drop m) n ↔ IsBoundary bytes (m + n) := by
  rw [IsBoundary, List.getElem?_drop, IsBoundary]

/-- A cut between the characters of a text is a position of the text. -/
theorem isBoundary_encode_iff {text : String} {n : Nat} (hn : n ≤ (encode text).length) :
    IsBoundary (encode text) n ↔ (⟨n⟩ : String.Pos.Raw).IsValid text := by
  rw [String.Pos.Raw.isValid_iff_isUTF8FirstByte]
  rcases Nat.lt_or_eq_of_le hn with hlt | heq
  · have hbyte : (encode text)[n]? = some (text.getUTF8Byte ⟨n⟩ (by
        rw [String.Pos.Raw.lt_iff, String.byteIdx_rawEndPos, ← length_encode]
        exact hlt)) := by
      rw [List.getElem?_eq_getElem hlt, List.getElem_eq_getElem_toByteArray]
      simp only [toByteArray_encode, String.getUTF8Byte]
    have hne : (⟨n⟩ : String.Pos.Raw) ≠ text.rawEndPos := by
      intro he
      have := congrArg String.Pos.Raw.byteIdx he
      rw [String.byteIdx_rawEndPos, ← length_encode] at this
      exact Nat.ne_of_lt hlt this
    rw [IsBoundary, hbyte]
    constructor
    · intro h
      exact .inr ⟨_, h _ rfl⟩
    · rintro (he | ⟨_, hfirst⟩) b hb
      · exact absurd he hne
      · cases hb
        exact hfirst
  · refine iff_of_true (isBoundary_of_length_le (Nat.le_of_eq heq.symm)) (.inl ?_)
    ext
    rw [String.byteIdx_rawEndPos, ← length_encode, heq]

/-- **The bytes before a cut are a text** exactly when the cut falls between characters. -/
theorem isText_take_iff {bytes : Bytes} (h : IsText bytes) (n : Nat) :
    IsText (bytes.take n) ↔ IsBoundary bytes n := by
  rcases Nat.lt_or_ge bytes.length n with hlt | hle
  · rw [List.take_of_length_le (Nat.le_of_lt hlt)]
    exact iff_of_true h (isBoundary_of_length_le (Nat.le_of_lt hlt))
  · obtain ⟨text, rfl⟩ := h
    have hextract : ((encode text).take n).toByteArray = text.toByteArray.extract 0 n := by
      ext1
      simp [← toByteArray_encode, ByteArray.data_extract, List.data_toByteArray]
    have hend : (⟨n⟩ : String.Pos.Raw) ≤ text.rawEndPos := by
      rw [String.Pos.Raw.le_iff, String.byteIdx_rawEndPos, ← length_encode]
      exact hle
    rw [isBoundary_encode_iff hle, String.Pos.Raw.isValid_iff_isValidUTF8_extract_zero, isText_iff,
      hextract]
    exact (and_iff_right hend).symm

/-- With a text taken off its front, a text leaves a text. -/
theorem IsText.of_append {front rest : Bytes} (h : IsText (front ++ rest)) (hfront : IsText front) :
    IsText rest := by
  have hboundary : IsBoundary (front ++ rest) front.length := by
    rw [← isText_take_iff h, List.take_left]
    exact hfront
  obtain ⟨text, htext⟩ := h
  have hsize : text.utf8ByteSize = front.length + rest.length := by
    rw [← length_encode, htext, List.length_append]
  have hextract : text.toByteArray.extract front.length text.utf8ByteSize = rest.toByteArray := by
    ext1
    simp [← toByteArray_encode, htext, hsize, ByteArray.data_extract, List.data_toByteArray]
  rw [← htext] at hboundary
  have hle : front.length ≤ (encode text).length := by
    rw [htext, List.length_append]
    exact Nat.le_add_right _ _
  have hvalid := (isBoundary_encode_iff hle).mp hboundary
  rw [String.Pos.Raw.isValid_iff_isValidUTF8_extract_utf8ByteSize] at hvalid
  rw [isText_iff, ← hextract]
  exact hvalid.2

/-- So are the bytes after a cut between characters. -/
theorem IsText.drop {bytes : Bytes} (h : IsText bytes) {n : Nat} (hn : IsBoundary bytes n) :
    IsText (bytes.drop n) := by
  refine IsText.of_append ?_ ((isText_take_iff h n).mpr hn)
  rwa [List.take_append_drop]

end SerialBridge.Utf8
