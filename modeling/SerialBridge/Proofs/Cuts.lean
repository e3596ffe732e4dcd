import SerialBridge.Proofs.Assembly
import SerialBridge.Proofs.Characters
import SerialBridge.Proofs.Planning

/-! # Where a payload is cut

A text that is uploaded goes out as frames, and every frame that carries a text is a line of
text: the tag and the terminator are seven-bit characters, and escaping a text is escaping its
characters (`isText_encode_iff`).

But a payload is cut by counting bytes.  A blob is cut at the ceiling, and a line longer than a
chunk is cut at every multiple of the chunk size, wherever these fall.  A cut inside a character
leaves a part of the character at the end of one frame, and escaping does not mend it; so the
frames are text exactly when every cut falls between characters (`frames_are_text_iff`).
Between lines nothing can go wrong: a line feed is a character of its own.
-/

namespace SerialBridge

open Utf8

/-! ## Escaping a text -/

/-- What a character becomes in a body on the wire. -/
def escapeChar (c : Char) : List Char :=
  if c = '\n' then ['\uE000'] else if c = '\r' then [] else [c]

theorem escape_append (front rest : Bytes) : escape (front ++ rest) = escape front ++ escape rest :=
  List.flatMap_append

theorem escape_of_notMem {body : Bytes} (hlf : lineFeed ∉ body) (hcr : carriageReturn ∉ body) :
    escape body = body := by
  induction body with
  | nil => rfl
  | cons b body ih =>
    obtain ⟨hb, hbody⟩ := List.ne_and_not_mem_of_not_mem_cons hlf
    obtain ⟨hb', hbody'⟩ := List.ne_and_not_mem_of_not_mem_cons hcr
    rw [escape_cons, escapeByte_of_ne hb.symm hb'.symm, ih hbody hbody', List.singleton_append]

theorem escape_encodeChar (c : Char) :
    escape (String.utf8EncodeChar c) = (escapeChar c).flatMap String.utf8EncodeChar := by
  by_cases hlf : c = '\n'
  · rw [hlf]
    rfl
  by_cases hcr : c = '\r'
  · rw [hcr]
    rfl
  rw [escapeChar, if_neg hlf, if_neg hcr, List.flatMap_singleton]
  refine escape_of_notMem (fun hmem => hlf ?_) fun hmem => hcr ?_
  · exact (mem_encodeChar_iff (a := '\n') (by decide)).mp hmem
  · exact (mem_encodeChar_iff (a := '\r') (by decide)).mp hmem

/-- Escaping a text is escaping its characters. -/
theorem escape_flatMap (cs : List Char) :
    escape (cs.flatMap String.utf8EncodeChar) =
      (cs.flatMap escapeChar).flatMap String.utf8EncodeChar := by
  induction cs with
  | nil => rfl
  | cons c cs ih =>
    rw [List.flatMap_cons, escape_append, escape_encodeChar, ih, List.flatMap_cons,
      List.flatMap_append]

theorem isText_escape {body : Bytes} (h : IsText body) : IsText (escape body) := by
  obtain ⟨text, rfl⟩ := h
  rw [encode, escape_flatMap]
  exact isText_flatMap _

/-- Escaping mends no cut: the front of a text that is text once it is escaped was text before. -/
theorem isText_of_isText_escape {body rest : Bytes} (h : IsText (body ++ rest))
    (hescape : IsText (escape body)) : IsText body := by
  obtain ⟨text, htext⟩ := h
  rw [encode] at htext
  generalize text.toList = cs at htext
  induction cs generalizing body with
  | nil =>
    rw [(List.append_eq_nil_iff.mp htext.symm).1]
    exact isText_nil
  | cons c cs ih =>
    rw [List.flatMap_cons] at htext
    rcases List.append_eq_append_iff.mp htext with ⟨body', rfl, hrest⟩ | ⟨part, hc, -⟩
    · rw [escape_append, escape_encodeChar] at hescape
      have hlater := ih (hescape.of_append (isText_flatMap _)) hrest
      exact (isText_encodeChar c).append hlater
    · rcases encodeChar_cases c with ⟨-, hone⟩ | ⟨-, hhigh⟩
      -- a character of one byte is not cut apart
      · rw [hone, List.singleton_eq_append_iff] at hc
        rcases hc with ⟨rfl, -⟩ | ⟨rfl, -⟩
        · exact isText_nil
        · rw [← hone]
          exact isText_encodeChar c
      -- a part of a longer one holds nothing that escaping changes
      · have hmem : ∀ b ∈ body, 128 ≤ b.toNat := fun b hb =>
          hhigh b (hc ▸ List.mem_append_left _ hb)
        rwa [escape_of_notMem (fun hlf => absurd (hmem _ hlf) (by decide)) fun hcr =>
          absurd (hmem _ hcr) (by decide)] at hescape

/-! ## Frames of a text -/

theorem isText_lineFeed : IsText [lineFeed] :=
  isText_encodeChar '\n'

namespace Frame

/-- **A frame of an upload is text** exactly when its body is, if the body is cut off the front
of a text. -/
theorem isText_encode_iff {f : Frame} (hof : f.OfUpload) {rest : Bytes}
    (h : IsText (f.body ++ rest)) : IsText f.encode ↔ IsText f.body := by
  obtain ⟨tag, hline⟩ : ∃ tag, f.line = Utf8.encode tag ++ escape f.body := by
    cases f with
    | command | message => exact hof.elim
    | chunk body => exact ⟨chunkTag, rfl⟩
    | blob body => exact ⟨blobTag, rfl⟩
  rw [Frame.encode, hline]
  constructor
  · intro hframe
    have hcut := (isText_take_iff hframe _).mpr (isBoundary_append_cons (by decide) _ [])
    rw [List.take_left] at hcut
    exact isText_of_isText_escape h (hcut.of_append (Utf8.isText_encode tag))
  · exact fun hbody =>
      ((Utf8.isText_encode tag).append (isText_escape hbody)).append isText_lineFeed

/-- The frames that carry a text one after another are text exactly when their bodies are. -/
theorem forall_isText_encode_iff {frames : List Frame} (hof : ∀ f ∈ frames, f.OfUpload)
    {rest : Bytes} (h : IsText (frames.flatMap body ++ rest)) :
    (∀ f ∈ frames, IsText f.encode) ↔ ∀ f ∈ frames, IsText f.body := by
  induction frames with
  | nil => exact iff_of_true (List.forall_mem_nil _) (List.forall_mem_nil _)
  | cons f frames ih =>
    obtain ⟨hf, hframes⟩ := List.forall_mem_cons.mp hof
    rw [List.flatMap_cons, List.append_assoc] at h
    rw [List.forall_mem_cons, List.forall_mem_cons, isText_encode_iff hf h]
    exact and_congr_right fun hbody => ih hframes (h.of_append hbody)

end Frame

/-! ## Cuts of a line -/

theorem isBoundary_zero {bytes : Bytes} (h : IsText bytes) : IsBoundary bytes 0 :=
  (isText_take_iff h 0).mp isText_nil

/-- The pieces of a line are text exactly when every multiple of their size falls between
characters. -/
theorem isText_pieces_iff {size : Nat} (hsize : 0 < size) {n : Nat} {line : Bytes}
    (hn : line.length ≤ n) (h : IsText line) :
    (∀ p ∈ (cutFull size n line).1, IsText p) ↔ ∀ k, IsBoundary line (k * size) := by
  induction n generalizing line with
  | zero =>
    refine iff_of_true (List.forall_mem_nil _) fun k => isBoundary_of_length_le ?_
    omega
  | succ n ih =>
    rw [cutFull]
    split
    · rename_i hlast
      have hshort : line.length ≤ size := List.drop_eq_nil_iff.mp (List.isEmpty_iff.mp hlast)
      refine iff_of_true (List.forall_mem_nil _) fun k => ?_
      cases k with
      | zero =>
        rw [Nat.zero_mul]
        exact isBoundary_zero h
      | succ k =>
        refine isBoundary_of_length_le (Nat.le_trans hshort ?_)
        exact Nat.le_mul_of_pos_left size (Nat.succ_pos k)
    · rename_i hmore
      have hlength : (line.drop size).length ≤ n := by
        rw [List.length_drop]
        omega
      rw [List.forall_mem_cons, isText_take_iff h]
      -- the first cut is a multiple of the size, and the others are those of what is left
      constructor
      · rintro ⟨hfirst, hrest⟩ k
        cases k with
        | zero =>
          rw [Nat.zero_mul]
          exact isBoundary_zero h
        | succ k =>
          have hleft : IsText (line.drop size) := h.drop hfirst
          rw [Nat.succ_mul, Nat.add_comm, ← isBoundary_drop]
          exact (ih hlength hleft).mp hrest k
      · intro hall
        have hfirst : IsBoundary line size := by
          have := hall 1
          rwa [Nat.one_mul] at this
        refine ⟨hfirst, (ih hlength (h.drop hfirst)).mpr fun k => ?_⟩
        rw [isBoundary_drop, Nat.add_comm, ← Nat.succ_mul]
        exact hall (k + 1)

/-- Packing lines into chunks cuts nothing that is not cut into pieces. -/
theorem isText_packLines_iff {size : Nat} (hsize : 0 < size) {current : Bytes}
    (hcurrent : IsText current) {lines : List Bytes} (hlines : ∀ line ∈ lines, IsText line) :
    (∀ c ∈ packLines size current lines, IsText c) ↔
      ∀ line ∈ lines, ∀ k, IsBoundary line (k * size) := by
  induction lines generalizing current with
  | nil =>
    refine iff_of_true (fun c hc => ?_) (List.forall_mem_nil _)
    rw [packLines] at hc
    split at hc
    · cases hc
    · rw [List.mem_singleton.mp hc]
      exact hcurrent
  | cons line lines ih =>
    obtain ⟨hline, hrest⟩ := List.forall_mem_cons.mp hlines
    rw [packLines, List.forall_mem_append, List.forall_mem_append, List.forall_mem_cons,
      ← isText_pieces_iff hsize (Nat.le_refl _) hline, and_assoc]
    have hclosed : ∀ c ∈ (if !current.isEmpty && size < current.length + line.length then [current]
        else []), IsText c := by
      intro c hc
      split at hc
      · rw [List.mem_singleton.mp hc]
        exact hcurrent
      · cases hc
    refine (and_iff_right hclosed).trans (and_congr_right fun hpieces => ih ?_ hrest)
    have hleft : IsText (cutFull size line.length line).2 := by
      rw [← flatten_cutFull size line.length line] at hline
      exact hline.of_append (isText_flatten hpieces)
    refine IsText.append ?_ hleft
    split
    · exact isText_nil
    · exact hcurrent

/-! ## Lines of a text -/

theorem inclusiveLines_of_notMem {bytes : Bytes} (h : lineFeed ∉ bytes) :
    inclusiveLines bytes = if bytes.isEmpty then [] else [bytes] := by
  induction bytes with
  | nil => rfl
  | cons b bytes ih =>
    obtain ⟨hb, hbytes⟩ := List.ne_and_not_mem_of_not_mem_cons h
    rw [inclusiveLines, if_neg hb.symm, ih hbytes]
    cases bytes <;> rfl

theorem inclusiveLines_line {line : Bytes} (h : lineFeed ∉ line) (rest : Bytes) :
    inclusiveLines (line ++ lineFeed :: rest) = (line ++ [lineFeed]) :: inclusiveLines rest := by
  induction line with
  | nil => rw [List.nil_append, inclusiveLines, if_pos rfl, List.nil_append]
  | cons b line ih =>
    obtain ⟨hb, hline⟩ := List.ne_and_not_mem_of_not_mem_cons h
    rw [List.cons_append, inclusiveLines, if_neg hb.symm, ih hline]
    rfl

/-- The lines of a text are texts. -/
theorem isText_of_mem_inclusiveLines {bytes : Bytes} (h : IsText bytes) :
    ∀ line ∈ inclusiveLines bytes, IsText line := by
  induction bytes using line_induction with
  | stretch bytes hnot =>
    intro line hline
    rw [inclusiveLines_of_notMem hnot] at hline
    split at hline
    · cases hline
    · rw [List.mem_singleton.mp hline]
      exact h
  | line front rest hnot ih =>
    have hcut := (isText_take_iff h _).mpr (isBoundary_append_cons (by decide) front rest)
    rw [List.take_left] at hcut
    have hfirst : IsText (front ++ [lineFeed]) := hcut.append isText_lineFeed
    rw [inclusiveLines_line hnot, List.forall_mem_cons]
    refine ⟨hfirst, ih ?_⟩
    rw [← List.singleton_append, ← List.append_assoc] at h
    exact h.of_append hfirst

/-! ## Frames of a plan -/

namespace Plan

/-- Where a payload is cut under the settings, it is cut between characters: at the ceiling, or
within each line at the multiples of the chunk size. -/
def CutsBetweenCharacters (payload : Bytes) (settings : TransferSettings) : Prop :=
  match choose payload settings with
  | .singleShot => IsBoundary payload settings.blobCeiling.toNat
  | .paced => ∀ line ∈ inclusiveLines payload, ∀ k,
      IsBoundary line (k * max settings.chunkSize.toNat 1)

/-- **When the frames of a text are text**: exactly when the text is cut between characters. -/
theorem frames_are_text_iff (text : String) (settings : TransferSettings) :
    (∀ f ∈ (build (Utf8.encode text) settings).frames, IsText f.encode) ↔
      CutsBetweenCharacters (Utf8.encode text) settings := by
  obtain ⟨payload, hpayload⟩ : ∃ payload, payload = Utf8.encode text := ⟨_, rfl⟩
  have htext : IsText payload := ⟨text, hpayload.symm⟩
  rw [← hpayload]
  obtain ⟨rest, hrest⟩ := body_build_front payload settings
  rw [← hrest, body] at htext
  rw [Frame.forall_isText_encode_iff (fun f hf => ofUpload_of_mem_build payload settings hf) htext]
  rw [← body, hrest] at htext
  rw [CutsBetweenCharacters]
  cases h : choose payload settings with
  | singleShot =>
    rw [build_singleShot _ _ h, List.forall_mem_singleton]
    exact isText_take_iff htext _
  | paced =>
    have hsize : 0 < max settings.chunkSize.toNat 1 :=
      Nat.lt_of_lt_of_le Nat.one_pos (Nat.le_max_right _ _)
    rw [build_paced _ _ h, List.forall_mem_map]
    exact isText_packLines_iff hsize isText_nil (isText_of_mem_inclusiveLines htext)

/-- Of two letters of two bytes each, the second one is cut apart where a chunk has three. -/
theorem letter_is_cut_apart :
    ¬ ∀ (text : String) (settings : TransferSettings),
      ∀ f ∈ (build (Utf8.encode text) settings).frames, IsText f.encode := by
  intro h
  have hletters : IsText (Utf8.encode "éé") := Utf8.isText_encode _
  have hframe : .chunk ((Utf8.encode "éé").take 3) ∈
      (build (Utf8.encode "éé") { mode := .paced, chunkSize := 3 }).frames := by decide
  have hfirst := h "éé" { mode := .paced, chunkSize := 3 } _ hframe
  have hwhole : IsText ((Utf8.encode "éé").take 3 ++ (Utf8.encode "éé").drop 3) := by
    rwa [List.take_append_drop]
  have hcut := (Frame.isText_encode_iff (f := .chunk _) trivial hwhole).mp hfirst
  exact absurd ((isText_take_iff hletters 3).mp hcut) (by decide)

end Plan

end SerialBridge
