import Mathlib.Data.List.DropRight
import SerialBridge.Proofs.Echoes
import SerialBridge.Proofs.Readings

/-! # What a line from the device means

A line is read as text, with U+FFFD for what is no text, and loses the blanks at its end.  Then it
is nothing, an echo or a report.  All three can be told from the bytes as they came in.

The command tag is made of characters that reading never makes up, and its last one is no blank.
So the tag stands at the front of the trimmed text exactly when its bytes stand at the front of
the line (`tag_prefix_trimEnd_iff`, `prefix_decodeLossy_iff`).  Nor does reading make up a line
feed.  A report is read back from its own bytes, and no blank is left at its end, so it means
itself.  The result is `decode_is_exact`.
-/

namespace SerialBridge

/-! ## Trimming -/

namespace Text

/-- A text is another one without the blanks at its end. -/
structure Trimmed (s t : String) : Prop where
  front : ∃ blanks, s.toList = t.toList ++ blanks ∧ ∀ c ∈ blanks, isBlank c = true
  last : ∀ c, t.toList.getLast? = some c → isBlank c = false

theorem toList_trimEnd (s : String) : (trimEnd s).toList = s.toList.rdropWhile isBlank :=
  String.toList_ofList

theorem trimmed_trimEnd (s : String) : Trimmed s (trimEnd s) where
  front := by
    refine ⟨s.toList.rtakeWhile isBlank, ?_, fun c hc => List.mem_rtakeWhile_imp hc⟩
    rw [toList_trimEnd, List.rdropWhile_append_rtakeWhile]
  last := by
    intro c hc
    rw [toList_trimEnd] at hc
    have hne : s.toList.rdropWhile isBlank ≠ [] := by
      intro hnil
      rw [hnil] at hc
      cases hc
    rw [List.getLast?_eq_some_getLast hne] at hc
    cases hc
    simpa using List.rdropWhile_last_not isBlank s.toList hne

/-- A text with no blank at its end stays as it is. -/
theorem trimEnd_eq_self {t : String} (h : ∀ c, t.toList.getLast? = some c → isBlank c = false) :
    trimEnd t = t := by
  have hlast : t.toList.rdropWhile isBlank = t.toList := by
    refine List.rdropWhile_eq_self_iff.mpr fun hne => ?_
    simp [h _ (List.getLast?_eq_some_getLast hne)]
  rw [← String.toList_inj, toList_trimEnd, hlast]

/-- Nothing is left of a text exactly when it is blank throughout. -/
theorem trimEnd_eq_empty_iff (s : String) :
    trimEnd s = "" ↔ ∀ c ∈ s.toList, isBlank c = true := by
  rw [← String.toList_inj, toList_trimEnd, String.toList_empty, List.rdropWhile_eq_nil_iff]

/-- The command tag does not end with a blank, so trimming leaves it at the front. -/
theorem tag_prefix_trimEnd_iff (s : String) :
    Frame.commandTag.toList <+: (trimEnd s).toList ↔ Frame.commandTag.toList <+: s.toList := by
  have hchars : Frame.commandTag.toList = ['C', 'M', 'D'] ++ [':'] := by decide
  constructor
  · intro h
    rw [toList_trimEnd] at h
    exact h.trans (List.rdropWhile_prefix isBlank _)
  · rintro ⟨rest, hrest⟩
    have htrim : (trimEnd s).toList = dropEnd isBlank s.toList := String.toList_ofList
    rw [hchars, List.append_assoc, List.singleton_append] at hrest
    rw [htrim, ← hrest, dropEnd_append_cons (by decide), hchars]
    exact ⟨dropEnd isBlank rest, by simp⟩

end Text

/-! ## Reading -/

namespace Utf8

theorem toList_decodeLossy (bytes : Bytes) :
    (decodeLossy bytes).toList = (pieces bytes).map (·.getD '\uFFFD') :=
  String.toList_ofList

/-- Text is read as it is. -/
theorem decodeLossy_encode (s : String) : decodeLossy (encode s) = s := by
  rw [← String.toList_inj, toList_decodeLossy, pieces_encode, List.map_map]
  exact List.map_id _

/-- A character that is read, and does not stand for a broken piece, stands in the bytes. -/
theorem infix_of_mem_decodeLossy {c : Char} (hc : c ≠ '\uFFFD') {bytes : Bytes}
    (h : c ∈ (decodeLossy bytes).toList) : String.utf8EncodeChar c <:+: bytes := by
  rw [toList_decodeLossy] at h
  obtain ⟨piece, hpiece, heq⟩ := List.mem_map.mp h
  cases piece with
  | none => exact absurd heq.symm hc
  | some c' =>
    cases heq
    exact infix_of_mem_pieces hpiece

theorem prefix_map_getD_iff {cs : List Char} (hcs : '\uFFFD' ∉ cs) (ps : List (Option Char)) :
    cs <+: ps.map (·.getD '\uFFFD') ↔ cs.map some <+: ps := by
  induction cs generalizing ps with
  | nil => exact iff_of_true List.nil_prefix List.nil_prefix
  | cons c cs ih =>
    obtain ⟨hc, hcs⟩ := List.ne_and_not_mem_of_not_mem_cons hcs
    cases ps with
    | nil => simp
    | cons p ps =>
      rw [List.map_cons, List.map_cons, List.cons_prefix_cons, List.cons_prefix_cons, ih hcs]
      refine and_congr_left fun _ => ?_
      cases p with
      | none => exact iff_of_false hc.symm (Option.some_ne_none c)
      | some c' => exact (Option.some_inj).symm

/-- A text stands at the front of what is read exactly when its bytes stand at the front. -/
theorem prefix_decodeLossy_iff {s : String} (hs : '\uFFFD' ∉ s.toList) (bytes : Bytes) :
    s.toList <+: (decodeLossy bytes).toList ↔ encode s <+: bytes := by
  rw [toList_decodeLossy, prefix_map_getD_iff hs, prefix_pieces_iff, encode]

end Utf8

/-! ## The meaning of a line -/

namespace Inbound

/-- The text of a line as it is looked at. -/
def textOf (raw : Bytes) : String :=
  Text.trimEnd (Utf8.decodeLossy raw)

theorem tag_prefix_textOf_iff (raw : Bytes) :
    Frame.commandTag.toList <+: (textOf raw).toList ↔ Utf8.encode Frame.commandTag <+: raw := by
  rw [textOf, Text.tag_prefix_trimEnd_iff, Utf8.prefix_decodeLossy_iff (by decide)]

theorem decode_of_empty {raw : Bytes} (h : textOf raw = "") : decode raw = none := by
  rw [textOf] at h
  simp [decode, h]

theorem decode_of_tag {raw : Bytes} (h : Utf8.encode Frame.commandTag <+: raw) :
    decode raw = some .echo := by
  have htag := (tag_prefix_textOf_iff raw).mpr h
  have hne : textOf raw ≠ "" := by
    intro hempty
    rw [hempty] at htag
    exact absurd (List.prefix_nil.mp htag) (by decide)
  rw [textOf] at htag hne
  simp only [decode, String.isEmpty_iff, if_neg hne, List.isPrefixOf_iff_prefix, if_pos htag]

theorem decode_of_status {raw : Bytes} (hne : textOf raw ≠ "")
    (htag : ¬ Utf8.encode Frame.commandTag <+: raw) :
    decode raw = some (.status (textOf raw)) := by
  rw [← tag_prefix_textOf_iff] at htag
  rw [textOf] at htag hne
  simp only [decode, String.isEmpty_iff, if_neg hne, List.isPrefixOf_iff_prefix, if_neg htag,
    textOf]

/-- The text is the report that a line holds. -/
structure ReportOf (raw : Bytes) (t : String) : Prop where
  nonempty : t ≠ ""
  untagged : ¬ Frame.commandTag.toList <+: t.toList
  /-- It is what is read, without the blanks at its end. -/
  trimmed : Text.Trimmed (Utf8.decodeLossy raw) t
  /-- So it is the line itself without the blanks at its end, if that is a text. -/
  of_text : ∀ s, Utf8.encode s = raw → Text.Trimmed s t
  unbroken : '\n' ∈ t.toList → lineFeed ∈ raw
  /-- It means itself. -/
  again : decode (Utf8.encode t) = some (.status t)

theorem reportOf_textOf {raw : Bytes} (hne : textOf raw ≠ "")
    (htag : ¬ Utf8.encode Frame.commandTag <+: raw) : ReportOf raw (textOf raw) := by
  have htrimmed : Text.Trimmed (Utf8.decodeLossy raw) (textOf raw) := Text.trimmed_trimEnd _
  have huntagged : ¬ Frame.commandTag.toList <+: (textOf raw).toList :=
    fun h => htag ((tag_prefix_textOf_iff raw).mp h)
  -- the text is read back and stays as it is, and its own bytes are no echo either
  have hself : textOf (Utf8.encode (textOf raw)) = textOf raw := by
    rw [textOf.eq_def (Utf8.encode _), Utf8.decodeLossy_encode]
    exact Text.trimEnd_eq_self htrimmed.last
  constructor
  case nonempty => exact hne
  case untagged => exact huntagged
  case trimmed => exact htrimmed
  case of_text =>
    rintro s rfl
    rwa [Utf8.decodeLossy_encode] at htrimmed
  case unbroken =>
    intro h
    obtain ⟨blanks, hblanks, -⟩ := htrimmed.front
    have hread : '\n' ∈ (Utf8.decodeLossy raw).toList := hblanks ▸ List.mem_append_left blanks h
    have hbyte : [lineFeed] <:+: raw := Utf8.infix_of_mem_decodeLossy (by decide) hread
    exact hbyte.subset List.mem_cons_self
  case again =>
    have hnone : ¬ Utf8.encode Frame.commandTag <+: Utf8.encode (textOf raw) := by
      rwa [← tag_prefix_textOf_iff, hself]
    have hkept : textOf (Utf8.encode (textOf raw)) ≠ "" := by rwa [hself]
    rw [decode_of_status hkept hnone, hself]

/-- **What a line means, told from its bytes.**  It is an echo exactly when it begins with the
bytes of the command tag, and nothing exactly when what is read is blank throughout.  Every other
line holds a report, which is no echo and not blank, keeps all that is read but the blanks at its
end, has no line feed that was not there, and means itself. -/
theorem decode_is_exact (raw : Bytes) :
    (decode raw = some .echo ↔ Utf8.encode Frame.commandTag <+: raw) ∧
      (decode raw = none ↔ ∀ c ∈ (Utf8.decodeLossy raw).toList, Text.isBlank c = true) ∧
      (¬ Utf8.encode Frame.commandTag <+: raw →
        ¬ (∀ c ∈ (Utf8.decodeLossy raw).toList, Text.isBlank c = true) →
        ∃ t, decode raw = some (.status t) ∧ ReportOf raw t) := by
  rw [← Text.trimEnd_eq_empty_iff]
  change _ ∧ (_ ↔ textOf raw = "") ∧ (_ → ¬ textOf raw = "" → _)
  by_cases hempty : textOf raw = ""
  · have hdecode := decode_of_empty hempty
    have hnone : ¬ Utf8.encode Frame.commandTag <+: raw := by
      intro htag
      rw [decode_of_tag htag] at hdecode
      cases hdecode
    exact ⟨iff_of_false (by rw [hdecode]; exact nofun) hnone, iff_of_true hdecode hempty,
      fun _ hne => absurd hempty hne⟩
  by_cases htag : Utf8.encode Frame.commandTag <+: raw
  · have hdecode := decode_of_tag htag
    exact ⟨iff_of_true hdecode htag, iff_of_false (by rw [hdecode]; exact nofun) hempty,
      fun hnot => absurd htag hnot⟩
  · have hdecode := decode_of_status hempty htag
    exact ⟨iff_of_false (by rw [hdecode]; exact nofun) htag,
      iff_of_false (by rw [hdecode]; exact nofun) hempty,
      fun _ _ => ⟨textOf raw, hdecode, reportOf_textOf hempty htag⟩⟩

/-- The letters "ok", a byte of no text, a wide blank and the front of a character. -/
def brokenLine : Bytes :=
  [0x6F, 0x6B, 0xFF, 0xE2, 0x80, 0x83, 0xE2, 0x80]

/-- What is no text is read as U+FFFD, so the blank before it stays. -/
theorem decode_is_exact_broken :
    ∃ t, decode brokenLine = some (.status t) ∧ ReportOf brokenLine t ∧
      t = "ok\uFFFD\u2003\uFFFD" := by
  obtain ⟨-, -, h⟩ := decode_is_exact brokenLine
  have hletter : ¬ ∀ c ∈ (Utf8.decodeLossy brokenLine).toList, Text.isBlank c = true :=
    fun hblank => absurd (hblank 'o' (.head _)) (by decide)
  obtain ⟨t, hdecode, hreport⟩ := h (by decide) hletter
  refine ⟨t, hdecode, hreport, ?_⟩
  have hvalue : decode brokenLine = some (.status "ok\uFFFD\u2003\uFFFD") := by decide
  rw [hvalue] at hdecode
  cases hdecode
  rfl

end Inbound

end SerialBridge
