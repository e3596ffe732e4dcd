import SerialBridge.Proofs.Chunking
import SerialBridge.Proofs.Cuts
import SerialBridge.Proofs.Wire

/-! # How lines are packed into chunks

Packing keeps one chunk under way.  A line that fits beside it joins it; one that does not
closes it first; and a line longer than a chunk gives off pieces of full size until what is
left of it fits.  `Packs` is this course of events, one constructor for each, and the chunks of
a payload are such a course over its lines (`packs_packLines`).

What is said of the chunks is then read off the course.  The chunk under way is nothing or ends
with a line feed as long as a line is still to come, so a chunk is closed at the end of a line
or is a full piece of one.  The chunk that follows a closed one begins with the line that did
not fit, whole or as a full piece, which is why two neighbours never fit into one chunk.

All this is about payloads that are cut, and how they are does not depend on the bound
(`packed_chunks`).  Whether they are does: past `maxBuffer` there is no buffer for the chunk under
way, and the result, `made_chunks_are_packed`, says so.
-/

namespace SerialBridge

/-! ## Lines of a payload -/

/-- The bytes between `front` and `rest` are a line of the payload, with its terminator: what
stands before it ends a line, and it holds no line feed but its last byte, which only the end
of the payload may stand in for. -/
structure IsLine (payload front line rest : Bytes) : Prop where
  parts : payload = front ++ line ++ rest
  begins : AtLineStart front
  nonempty : line ≠ []
  unbroken : lineFeed ∉ line.dropLast
  ends : line.getLast? = some lineFeed ∨ rest = []

/-- Lines one after another, of which only the last may go without its terminator. -/
inductive AreLines : List Bytes → Prop
  | nil : AreLines []
  | stretch {bytes : Bytes} : bytes ≠ [] → lineFeed ∉ bytes → AreLines [bytes]
  | line {bytes : Bytes} {lines : List Bytes} :
      lineFeed ∉ bytes → AreLines lines → AreLines ((bytes ++ [lineFeed]) :: lines)

theorem areLines_inclusiveLines (payload : Bytes) : AreLines (inclusiveLines payload) := by
  induction payload using line_induction with
  | stretch bytes hnot =>
    rw [inclusiveLines_of_notMem hnot]
    split
    · exact .nil
    · rename_i hne
      exact .stretch (by simpa using hne) hnot
  | line bytes rest hnot ih =>
    rw [inclusiveLines_line hnot]
    exact .line hnot ih

namespace AreLines

variable {line : Bytes} {lines : List Bytes}

theorem tail (h : AreLines (line :: lines)) : AreLines lines := by
  cases h with
  | stretch => exact .nil
  | line _ h => exact h

theorem ne_nil (h : AreLines (line :: lines)) : line ≠ [] := by
  cases h with
  | stretch hne => exact hne
  | line => simp

/-- A line before another has its terminator. -/
theorem getLast?_eq (h : AreLines (line :: lines)) (hmore : lines ≠ []) :
    line.getLast? = some lineFeed := by
  cases h with
  | stretch => exact absurd rfl hmore
  | line => exact List.getLast?_concat

/-- What a piece takes of a line holds no line feed. -/
theorem notMem_take {size : Nat} (h : AreLines (line :: lines)) (hlong : size < line.length) :
    lineFeed ∉ line.take size := by
  cases h with
  | stretch _ hnot => exact fun hmem => hnot (List.mem_of_mem_take hmem)
  | line hnot =>
    rw [List.length_append, List.length_singleton] at hlong
    rw [List.take_append_of_le_length (by omega)]
    exact fun hmem => hnot (List.mem_of_mem_take hmem)

/-- What a piece leaves of a line is a line. -/
theorem drop {size : Nat} (h : AreLines (line :: lines)) (hlong : size < line.length) :
    AreLines (line.drop size :: lines) := by
  cases h with
  | stretch _ hnot =>
    refine .stretch (fun hnil => ?_) fun hmem => hnot (List.mem_of_mem_drop hmem)
    have := List.drop_eq_nil_iff.mp hnil
    omega
  | line hnot h =>
    rw [List.length_append, List.length_singleton] at hlong
    rw [List.drop_append_of_le_length (by omega)]
    exact .line (fun hmem => hnot (List.mem_of_mem_drop hmem)) h

end AreLines

/-- Cutting a payload where a line begins cuts its lines there. -/
theorem inclusiveLines_append {front : Bytes} (h : AtLineStart front) (rest : Bytes) :
    inclusiveLines (front ++ rest) = inclusiveLines front ++ inclusiveLines rest := by
  induction front using line_induction with
  | stretch front hnot =>
    rcases h with rfl | hlast
    · rfl
    · exact absurd (List.mem_of_getLast? hlast) hnot
  | line line front hnot ih =>
    have hfront : AtLineStart front := by
      rcases List.eq_nil_or_concat front with rfl | ⟨front, b, rfl⟩
      · exact .inl rfl
      · rcases h with hnil | hlast
        · simp at hnil
        · right
          simpa [List.getLast?_cons] using hlast
    rw [List.append_assoc, List.cons_append, inclusiveLines_line hnot, inclusiveLines_line hnot,
      ih hfront, List.cons_append]

theorem IsLine.inclusiveLines_eq {payload front line rest : Bytes}
    (h : IsLine payload front line rest) :
    inclusiveLines payload = inclusiveLines front ++ line :: inclusiveLines rest := by
  rw [h.parts, List.append_assoc, inclusiveLines_append h.begins]
  congr 1
  obtain ⟨bytes, b, rfl⟩ := (List.eq_nil_or_concat line).resolve_left h.nonempty
  have hbytes : lineFeed ∉ bytes := by
    have := h.unbroken
    rwa [List.concat_eq_append, List.dropLast_concat] at this
  by_cases hb : b = lineFeed
  · rw [hb, List.concat_eq_append, List.append_assoc, List.singleton_append,
      inclusiveLines_line hbytes]
  · have hrest : rest = [] := by
      rcases h.ends with hlast | hrest
      · rw [List.concat_eq_append, List.getLast?_concat] at hlast
        exact absurd (Option.some.inj hlast) hb
      · exact hrest
    have hline : lineFeed ∉ bytes.concat b := by
      simp [List.concat_eq_append, hbytes, Ne.symm hb]
    rw [hrest, List.append_nil, inclusiveLines_of_notMem hline]
    simp [inclusiveLines]

/-! ## The course of packing -/

theorem forall_mem_dropLast_cons {P : Bytes → Prop} {x : Bytes} {xs : List Bytes} (hx : P x)
    (h : ∀ y ∈ xs.dropLast, P y) : ∀ y ∈ (x :: xs).dropLast, P y := by
  cases xs with
  | nil => exact List.forall_mem_nil _
  | cons y xs => exact List.forall_mem_cons.mpr ⟨hx, h⟩

/-- Packing lines beside a chunk under way gives some chunks. -/
inductive Packs (size : Nat) : Bytes → List Bytes → List Bytes → Prop
  | nothing : Packs size [] [] []
  /-- The chunk under way goes out last. -/
  | last {current : Bytes} : current ≠ [] → Packs size current [] [current]
  /-- A line fits beside the chunk under way. -/
  | fits {current line : Bytes} {lines parts : List Bytes} :
      current.length + line.length ≤ size → Packs size (current ++ line) lines parts →
      Packs size current (line :: lines) parts
  /-- A line does not fit and closes the chunk under way. -/
  | closed {current line : Bytes} {lines parts : List Bytes} :
      current ≠ [] → size < current.length + line.length → Packs size [] (line :: lines) parts →
      Packs size current (line :: lines) (current :: parts)
  /-- A line longer than a chunk gives off a piece. -/
  | piece {line : Bytes} {lines parts : List Bytes} :
      size < line.length → Packs size [] (line.drop size :: lines) parts →
      Packs size [] (line :: lines) (line.take size :: parts)

variable {size : Nat}

/-- The pieces of a line and what is left of it are given off one by one. -/
theorem packs_cutFull (hsize : 0 < size) {lines : List Bytes}
    (hlines : ∀ current, Packs size current lines (packLines size current lines)) {n : Nat}
    {line : Bytes} (hn : line.length ≤ n) :
    Packs size [] (line :: lines)
      ((cutFull size n line).1 ++ packLines size (cutFull size n line).2 lines) := by
  induction n generalizing line with
  | zero =>
    have hnil : line = [] := List.length_eq_zero_iff.mp (Nat.le_zero.mp hn)
    subst hnil
    exact .fits (Nat.zero_le size) (hlines [])
  | succ n ih =>
    rw [cutFull]
    split
    · rename_i hlast
      have hshort : line.length ≤ size := List.drop_eq_nil_iff.mp (List.isEmpty_iff.mp hlast)
      exact .fits (by simpa using hshort) (hlines line)
    · rename_i hmore
      have hlong : size < line.length := by
        simpa using hmore
      have hleft : (line.drop size).length ≤ n := by
        rw [List.length_drop]
        omega
      exact .piece hlong (ih hleft)

/-- **Packing runs this course.** -/
theorem packs_packLines (hsize : 0 < size) (current : Bytes) (lines : List Bytes) :
    Packs size current lines (packLines size current lines) := by
  induction lines generalizing current with
  | nil =>
    rw [packLines]
    split
    · rename_i hnil
      rw [List.isEmpty_iff.mp hnil]
      exact .nothing
    · rename_i hne
      exact .last (by simpa using hne)
  | cons line lines ih =>
    have hpieces := packs_cutFull hsize ih (Nat.le_refl line.length)
    by_cases hnil : current = []
    · subst hnil
      simpa [packLines] using hpieces
    · by_cases hroom : current.length + line.length ≤ size
      · have hline : cutFull size line.length line = ([], line) :=
          cutFull_of_length_le (by omega) _
        have hstep : packLines size current (line :: lines) =
            packLines size (current ++ line) lines := by
          simp [packLines, hline, Nat.not_lt.mpr hroom]
        rw [hstep]
        exact .fits hroom (ih _)
      · have hfull : size < current.length + line.length := by omega
        have hstep : packLines size current (line :: lines) =
            current :: ((cutFull size line.length line).1 ++
              packLines size (cutFull size line.length line).2 lines) := by
          simp [packLines, hnil, hfull]
        rw [hstep]
        exact .closed hnil hfull hpieces

namespace Packs

variable {current line : Bytes} {lines parts : List Bytes}

/-- The first chunk continues the chunk under way. -/
theorem exists_head (h : Packs size current lines parts) (hne : current ≠ []) :
    ∃ more others, parts = (current ++ more) :: others := by
  induction h with
  | nothing => exact absurd rfl hne
  | last => exact ⟨[], [], by rw [List.append_nil]⟩
  | @fits current line _ _ _ _ ih =>
    obtain ⟨more, others, rfl⟩ := ih (by simp [hne])
    exact ⟨line ++ more, others, by rw [List.append_assoc]⟩
  | @closed _ _ _ parts => exact ⟨[], parts, by rw [List.append_nil]⟩
  | piece => exact absurd rfl hne

/-- With no chunk under way, the first chunk begins with the next line or is a piece of it. -/
theorem exists_first (h : Packs size [] (line :: lines) parts) (hne : line ≠ []) :
    ∃ first others, parts = first :: others ∧ min size line.length ≤ first.length := by
  cases h with
  | fits _ h =>
    obtain ⟨more, others, rfl⟩ := h.exists_head hne
    refine ⟨_, _, rfl, ?_⟩
    simp only [List.nil_append, List.length_append]
    omega
  | closed hnil => exact absurd rfl hnil
  | piece hlong _ =>
    exact ⟨_, _, rfl, Nat.le_of_eq List.length_take.symm⟩

/-- No chunk is empty, and none is longer than the bound. -/
theorem sized (h : Packs size current lines parts) (hsize : 0 < size)
    (hcurrent : current.length ≤ size) : ∀ part ∈ parts, 1 ≤ part.length ∧ part.length ≤ size := by
  induction h with
  | nothing => exact List.forall_mem_nil _
  | last hne =>
    rw [List.forall_mem_singleton]
    exact ⟨List.length_pos_iff.mpr hne, hcurrent⟩
  | fits hroom _ ih => exact ih (by rwa [List.length_append])
  | closed hne _ _ ih =>
    exact List.forall_mem_cons.mpr
      ⟨⟨List.length_pos_iff.mpr hne, hcurrent⟩, ih (Nat.zero_le size)⟩
  | piece hlong _ ih =>
    refine List.forall_mem_cons.mpr ⟨?_, ih (Nat.zero_le size)⟩
    rw [List.length_take]
    omega

/-- A chunk before the last ends with a line, or is a full piece of one. -/
theorem full (h : Packs size current lines parts) (hlines : AreLines lines)
    (hcurrent : lines ≠ [] → AtLineStart current) :
    ∀ part ∈ parts.dropLast,
      part.getLast? = some lineFeed ∨ part.length = size ∧ lineFeed ∉ part := by
  induction h with
  | nothing => exact List.forall_mem_nil _
  | last => exact List.forall_mem_nil _
  | fits _ _ ih =>
    refine ih hlines.tail fun hmore => .inr ?_
    rw [List.getLast?_append, hlines.getLast?_eq hmore]
    rfl
  | closed hne _ _ ih =>
    have hlast := (hcurrent (List.cons_ne_nil _ _)).resolve_left hne
    exact forall_mem_dropLast_cons (.inl hlast) (ih hlines fun _ => .inl rfl)
  | piece hlong _ ih =>
    have hlength : (List.take size _).length = size := List.length_take_of_le (Nat.le_of_lt hlong)
    exact forall_mem_dropLast_cons (.inr ⟨hlength, hlines.notMem_take hlong⟩)
      (ih (hlines.drop hlong) fun _ => .inl rfl)

/-- Two neighbours do not fit into one chunk: the second begins with what did not fit beside the
first, and a piece leaves no room at all. -/
theorem apart (h : Packs size current lines parts) (hsize : 0 < size) (hlines : AreLines lines) :
    parts.IsChain fun a b => size < a.length + b.length := by
  induction h with
  | nothing => exact .nil
  | last => exact .singleton _
  | fits _ _ ih => exact ih hlines.tail
  | @closed current line _ _ hne hfull h ih =>
    obtain ⟨first, others, rfl, hfirst⟩ := h.exists_first hlines.ne_nil
    have hpos := List.length_pos_iff.mpr hne
    exact .cons_cons (by omega) (ih hlines)
  | @piece line _ _ hlong h ih =>
    have hleft := hlines.drop hlong
    obtain ⟨first, others, rfl, hfirst⟩ := h.exists_first hleft.ne_nil
    have hpos := List.length_pos_iff.mpr hleft.ne_nil
    have hlength : (line.take size).length = size := List.length_take_of_le (Nat.le_of_lt hlong)
    exact .cons_cons (by omega) (ih hleft)

/-- A line that fits into a chunk lies in one, at its own place. -/
theorem kept (h : Packs size current lines parts) {before after : List Bytes}
    (hline : lines = before ++ line :: after) (hne : line ≠ []) (hshort : line.length ≤ size) :
    ∃ earlier part later left right, parts = earlier ++ part :: later ∧
      part = left ++ line ++ right ∧ earlier.flatten ++ left = current ++ before.flatten := by
  induction h generalizing before with
  | nothing => simp at hline
  | last => simp at hline
  | @fits current head _ _ _ h ih =>
    cases before with
    | nil =>
      obtain ⟨rfl, rfl⟩ := List.cons.inj hline
      obtain ⟨more, others, rfl⟩ := h.exists_head (by simp [hne])
      exact ⟨[], _, others, current, more, rfl, rfl, by simp⟩
    | cons b before =>
      obtain ⟨rfl, rfl⟩ := List.cons.inj hline
      obtain ⟨earlier, part, later, left, right, hparts, hpart, hplace⟩ := ih rfl
      refine ⟨earlier, part, later, left, right, hparts, hpart, ?_⟩
      rw [hplace, List.flatten_cons, List.append_assoc]
  | @closed current _ _ _ _ _ _ ih =>
    obtain ⟨earlier, part, later, left, right, rfl, hpart, hplace⟩ := ih hline
    refine ⟨current :: earlier, part, later, left, right, rfl, hpart, ?_⟩
    rw [List.flatten_cons, List.append_assoc, hplace, List.nil_append]
  | @piece head _ _ hlong _ ih =>
    cases before with
    | nil =>
      obtain ⟨rfl, rfl⟩ := List.cons.inj hline
      omega
    | cons b before =>
      obtain ⟨rfl, rfl⟩ := List.cons.inj hline
      have hrest : head.drop size :: (before ++ line :: after) =
          (head.drop size :: before) ++ line :: after := rfl
      obtain ⟨earlier, part, later, left, right, rfl, hpart, hplace⟩ := ih hrest
      refine ⟨head.take size :: earlier, part, later, left, right, rfl, hpart, ?_⟩
      rw [List.flatten_cons, List.append_assoc, hplace, List.nil_append, List.nil_append,
        List.flatten_cons, List.flatten_cons, ← List.append_assoc, List.take_append_drop]

end Packs

/-! ## Chunks of a payload -/

/-- Parts of a payload that are as they should be under a bound. -/
structure Packed (bound : Nat) (payload : Bytes) (parts : List Bytes) : Prop where
  /-- They make up the payload. -/
  whole : parts.flatten = payload
  /-- None is empty, and none is longer than the bound. -/
  sized : ∀ part ∈ parts, 1 ≤ part.length ∧ part.length ≤ bound
  /-- A line that is no longer than the bound lies in one of them, at its own place. -/
  kept : ∀ front line rest, IsLine payload front line rest → line.length ≤ bound →
    ∃ earlier part later left right, parts = earlier ++ part :: later ∧
      part = left ++ line ++ right ∧ earlier.flatten ++ left = front
  /-- All but the last end with a line, or are as long as the bound and within a line. -/
  full : ∀ part ∈ parts.dropLast,
    part.getLast? = some lineFeed ∨ part.length = bound ∧ lineFeed ∉ part
  /-- Two neighbours do not fit into one. -/
  apart : parts.IsChain fun a b => bound < a.length + b.length

/-- Chunks are packed as they should be, whatever the bound. -/
theorem packed_chunks (payload : Bytes) (size : Nat) :
    Packed (max size 1) payload (chunks payload size) := by
  have hsize : 0 < max size 1 := by omega
  have hlines := areLines_inclusiveLines payload
  have hpacks : Packs (max size 1) [] (inclusiveLines payload) (chunks payload size) :=
    packs_packLines hsize [] (inclusiveLines payload)
  constructor
  case whole => exact flatten_chunks payload size
  case sized => exact hpacks.sized hsize (Nat.zero_le _)
  case kept =>
    intro front line rest hline hshort
    obtain ⟨earlier, part, later, left, right, hparts, hpart, hplace⟩ :=
      hpacks.kept hline.inclusiveLines_eq hline.nonempty hshort
    refine ⟨earlier, part, later, left, right, hparts, hpart, ?_⟩
    rw [hplace, List.nil_append, flatten_inclusiveLines]
  case full => exact hpacks.full hlines fun _ => .inl rfl
  case apart => exact hpacks.apart hsize hlines

/-- **When a payload is cut, and how.**  It is cut exactly if a buffer can be made for the bound,
however short it is itself, and its chunks are then packed as they should be. -/
theorem made_chunks_are_packed (payload : Bytes) (size : Nat) :
    ((∃ parts, chunks? payload size = some parts) ↔ size ≤ maxBuffer) ∧
      ∀ parts, chunks? payload size = some parts → Packed (max size 1) payload parts := by
  constructor
  · constructor
    · rintro ⟨parts, hparts⟩
      exact (chunks?_eq_some_iff.mp hparts).1
    · intro hsize
      exact ⟨_, chunks?_eq_some_iff.mpr ⟨hsize, rfl⟩⟩
  · intro parts hparts
    obtain ⟨-, rfl⟩ := chunks?_eq_some_iff.mp hparts
    exact packed_chunks payload size

/-- Two lines in chunks of three bytes: the first is full, and the second takes what is left. -/
theorem made_chunks_of_two_lines :
    let payload : Bytes := [0x61, 0x62, lineFeed, 0x63]
    chunks? payload 3 = some [[0x61, 0x62, lineFeed], [0x63]] ∧
      Packed 3 payload [[0x61, 0x62, lineFeed], [0x63]] := by
  intro payload
  have hparts : chunks? payload 3 = some [[0x61, 0x62, lineFeed], [0x63]] := by decide
  exact ⟨hparts, (made_chunks_are_packed payload 3).2 _ hparts⟩

/-- A single letter is not cut if a chunk may be as long as a word can count. -/
theorem letter_without_chunks :
    ¬ ∀ (payload : Bytes) (size : Nat), size < UInt64.size →
      ∃ parts, chunks? payload size = some parts ∧ Packed (max size 1) payload parts := by
  intro h
  obtain ⟨parts, hparts, -⟩ := h [0x61] (UInt64.size - 1) (by decide)
  obtain ⟨hsize, -⟩ := chunks?_eq_some_iff.mp hparts
  exact absurd hsize (by decide)

end SerialBridge
