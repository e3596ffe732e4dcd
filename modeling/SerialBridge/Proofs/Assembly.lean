import Mathlib.Data.List.Induction
import SerialBridge.LineBuffer
import SerialBridge.Proofs.Framing

/-! # Lines put together from reads

A byte string falls apart into its lines, each ended by a line feed, and a stretch after the
last of them (`linesOf`, `unfinishedOf`).  How much of the stretch a line buffer still holds
depends on nothing but the bytes that came in so far (`pending_assemble`): whole pieces of it
have been handed over, and the rest is held back.

What it handed over does depend on how the input was cut into reads, but only where a line is
long.  Lines shorter than a piece come out whole (`handed_assemble`).  A longer one comes out
in pieces, as many as were full when the read began that brought its line feed, and then what
is left of it (`handed_assemble_long`).
-/

namespace SerialBridge

/-! ## Lines and the stretch after them -/

/-- The bytes after the last line feed. -/
def unfinishedOf (received : Bytes) : Bytes :=
  (Text.splitAt lineFeed received).getLastD []

/-- Without a mark there is one part. -/
theorem splitAt_of_notMem [BEq α] [LawfulBEq α] {mark : α} {part : List α} (h : mark ∉ part) :
    Text.splitAt mark part = [part] := by
  induction part with
  | nil => rfl
  | cons x part ih =>
    obtain ⟨hx, hpart⟩ := List.ne_and_not_mem_of_not_mem_cons h
    simp [Text.splitAt, hx.symm, ih hpart]

theorem linesOf_of_notMem {x : Bytes} (h : lineFeed ∉ x) : linesOf x = [] := by
  simp [linesOf, splitAt_of_notMem h]

theorem unfinishedOf_of_notMem {x : Bytes} (h : lineFeed ∉ x) : unfinishedOf x = x := by
  simp [unfinishedOf, splitAt_of_notMem h]

theorem linesOf_line {line : Bytes} (h : lineFeed ∉ line) (rest : Bytes) :
    linesOf (line ++ lineFeed :: rest) = line :: linesOf rest := by
  rw [linesOf, splitAt_append_mark h, List.dropLast_cons_of_ne_nil (splitAt_ne_nil _ _), linesOf]

theorem unfinishedOf_line {line : Bytes} (h : lineFeed ∉ line) (rest : Bytes) :
    unfinishedOf (line ++ lineFeed :: rest) = unfinishedOf rest := by
  obtain ⟨part, parts, hparts⟩ := List.exists_cons_of_ne_nil (splitAt_ne_nil lineFeed rest)
  simp [unfinishedOf, splitAt_append_mark h, hparts]

/-- A byte string is a stretch without a line feed, or it begins with a line. -/
theorem line_induction {P : Bytes → Prop} (stretch : ∀ x, lineFeed ∉ x → P x)
    (line : ∀ l rest, lineFeed ∉ l → P rest → P (l ++ lineFeed :: rest)) (x : Bytes) : P x := by
  induction hn : x.length using Nat.strongRecOn generalizing x with
  | ind n ih =>
    by_cases h : lineFeed ∈ x
    · obtain ⟨l, rest, rfl, hl⟩ := List.eq_append_cons_of_mem h
      refine line l rest hl (ih rest.length ?_ rest rfl)
      simp at hn
      omega
    · exact stretch x h

theorem lineFeed_notMem_unfinishedOf (x : Bytes) : lineFeed ∉ unfinishedOf x := by
  induction x using line_induction with
  | stretch x h => rwa [unfinishedOf_of_notMem h]
  | line l rest hl ih => rwa [unfinishedOf_line hl]

theorem lineFeed_notMem_of_mem_linesOf {x line : Bytes} (h : line ∈ linesOf x) :
    lineFeed ∉ line := by
  induction x using line_induction with
  | stretch x hx =>
    rw [linesOf_of_notMem hx] at h
    cases h
  | line l rest hl ih =>
    rw [linesOf_line hl] at h
    rcases List.mem_cons.mp h with rfl | h
    · exact hl
    · exact ih h

/-- More bytes continue the stretch after the last line. -/
theorem linesOf_append (x y : Bytes) :
    linesOf (x ++ y) = linesOf x ++ linesOf (unfinishedOf x ++ y) := by
  induction x using line_induction with
  | stretch x h => rw [linesOf_of_notMem h, unfinishedOf_of_notMem h, List.nil_append]
  | line l rest hl ih =>
    rw [List.append_assoc, List.cons_append, linesOf_line hl, linesOf_line hl,
      unfinishedOf_line hl, ih, List.cons_append]

theorem unfinishedOf_append (x y : Bytes) :
    unfinishedOf (x ++ y) = unfinishedOf (unfinishedOf x ++ y) := by
  induction x using line_induction with
  | stretch x h => rw [unfinishedOf_of_notMem h]
  | line l rest hl ih =>
    rw [List.append_assoc, List.cons_append, unfinishedOf_line hl, unfinishedOf_line hl, ih]

/-- Each line feed ends one line. -/
theorem length_linesOf (x : Bytes) : (linesOf x).length = x.count lineFeed := by
  induction x using line_induction with
  | stretch x h => rw [linesOf_of_notMem h, List.count_eq_zero.mpr h, List.length_nil]
  | line l rest hl ih =>
    rw [linesOf_line hl, List.count_append, List.count_eq_zero.mpr hl, List.count_cons_self,
      List.length_cons, ih, Nat.zero_add]

/-- The stretch after the last line, and every line, is a stretch of the bytes. -/
theorem unfinishedOf_suffix (x : Bytes) : unfinishedOf x <:+ x := by
  induction x using line_induction with
  | stretch x h => exact ⟨[], unfinishedOf_of_notMem h⟩
  | line l rest hl ih =>
    rw [unfinishedOf_line hl]
    exact ih.trans ((List.suffix_cons lineFeed rest).trans (List.suffix_append l _))

theorem infix_of_mem_linesOf {x line : Bytes} (h : line ∈ linesOf x) : line <:+: x := by
  induction x using line_induction with
  | stretch x hx =>
    rw [linesOf_of_notMem hx] at h
    cases h
  | line l rest hl ih =>
    rw [linesOf_line hl] at h
    rcases List.mem_cons.mp h with rfl | h
    · exact (List.prefix_append line _).isInfix
    · exact (ih h).trans ((List.suffix_cons lineFeed rest).trans (List.suffix_append l _)).isInfix

/-- Bytes that end a line, or none, have nothing after their lines. -/
theorem unfinishedOf_of_complete {x : Bytes} (h : x = [] ∨ x.getLast? = some lineFeed) :
    unfinishedOf x = [] := by
  rcases h with rfl | h
  · rfl
  · obtain ⟨front, rfl⟩ := List.getLast?_eq_some_iff.mp h
    rw [unfinishedOf_append, unfinishedOf_line (lineFeed_notMem_unfinishedOf front)]
    rfl

/-! ## Pieces of a long stretch -/

namespace LineBuffer

/-- The first whole pieces of a stretch, so many of them. -/
def pieces (k : Nat) (stretch : Bytes) : List Bytes :=
  (List.range k).map fun i => (stretch.drop (i * maxLength)).take maxLength

/-- What is held back of a stretch once every whole piece of it was handed over. -/
def heldBack (stretch : Bytes) : Bytes :=
  stretch.drop (stretch.length / maxLength * maxLength)

theorem pieces_succ (k : Nat) (stretch : Bytes) :
    pieces (k + 1) stretch = stretch.take maxLength :: pieces k (stretch.drop maxLength) := by
  have hdrop : ∀ i, (i + 1) * maxLength = maxLength + i * maxLength := by
    intro i
    rw [Nat.succ_mul, Nat.add_comm]
  simp [pieces, List.range_succ_eq_map, Function.comp_def, hdrop]

theorem pieces_add (j k : Nat) (stretch : Bytes) :
    pieces (j + k) stretch = pieces j stretch ++ pieces k (stretch.drop (j * maxLength)) := by
  induction j generalizing stretch with
  | zero => simp [pieces]
  | succ j ih =>
    have hdrop : maxLength + j * maxLength = (j + 1) * maxLength := by
      rw [Nat.succ_mul, Nat.add_comm]
    rw [Nat.succ_add, pieces_succ, ih, pieces_succ, List.drop_drop, hdrop, List.cons_append]

/-- Whole pieces lie in the front of a stretch. -/
theorem pieces_append {k : Nat} {stretch : Bytes} (h : k * maxLength ≤ stretch.length)
    (more : Bytes) : pieces k (stretch ++ more) = pieces k stretch := by
  refine List.map_congr_left fun i hi => ?_
  have hi : (i + 1) * maxLength ≤ k * maxLength :=
    Nat.mul_le_mul_right _ (List.mem_range.mp hi)
  rw [Nat.succ_mul] at hi
  rw [List.drop_append_of_le_length (by omega), List.take_append_of_le_length]
  rw [List.length_drop]
  omega

theorem wholePieces_eq {k : Nat} {stretch : Bytes} (h : k * maxLength ≤ stretch.length) :
    wholePieces k stretch = (pieces k stretch, stretch.drop (k * maxLength)) := by
  induction k generalizing stretch with
  | zero => simp [wholePieces, pieces]
  | succ k ih =>
    rw [Nat.succ_mul] at h
    have hlen : ¬ stretch.length < maxLength := by omega
    have hrest : k * maxLength ≤ (stretch.drop maxLength).length := by
      rw [List.length_drop]
      omega
    rw [wholePieces, if_neg hlen, ih hrest, pieces_succ, List.drop_drop, Nat.succ_mul,
      Nat.add_comm (k * maxLength)]

theorem length_heldBack_lt (stretch : Bytes) : (heldBack stretch).length < maxLength := by
  have hpos : 0 < maxLength := by decide
  have hmod := Nat.mod_lt stretch.length hpos
  have hdiv := Nat.div_add_mod stretch.length maxLength
  rw [heldBack, List.length_drop, Nat.mul_comm]
  omega

theorem heldBack_suffix (stretch : Bytes) : heldBack stretch <:+ stretch :=
  List.drop_suffix _ _

theorem div_of_lt {stretch : Bytes} (h : stretch.length < maxLength) :
    stretch.length / maxLength = 0 :=
  Nat.div_eq_of_lt h

theorem heldBack_of_lt {stretch : Bytes} (h : stretch.length < maxLength) :
    heldBack stretch = stretch := by
  rw [heldBack, div_of_lt h, Nat.zero_mul, List.drop_zero]

/-- A stretch that goes on: whole pieces are cut off as if it had come in at once. -/
theorem heldBack_append (stretch more : Bytes) :
    heldBack (heldBack stretch ++ more) = heldBack (stretch ++ more) ∧
      pieces (stretch.length / maxLength) stretch ++
          pieces ((heldBack stretch ++ more).length / maxLength) (heldBack stretch ++ more) =
        pieces ((stretch ++ more).length / maxLength) (stretch ++ more) := by
  have hpos : 0 < maxLength := by decide
  have hle : stretch.length / maxLength * maxLength ≤ stretch.length := Nat.div_mul_le_self _ _
  have hlen : (stretch ++ more).length =
      stretch.length / maxLength * maxLength + (heldBack stretch ++ more).length := by
    simp only [heldBack, List.length_append, List.length_drop]
    omega
  have hdiv : (stretch ++ more).length / maxLength =
      stretch.length / maxLength + (heldBack stretch ++ more).length / maxLength := by
    rw [hlen, Nat.add_comm, Nat.add_mul_div_right _ _ hpos, Nat.add_comm]
  have hfront : heldBack stretch ++ more =
      (stretch ++ more).drop (stretch.length / maxLength * maxLength) :=
    (List.drop_append_of_le_length hle).symm
  constructor
  · rw [heldBack.eq_def (heldBack stretch ++ more), heldBack.eq_def (stretch ++ more), hdiv,
      Nat.add_mul, ← List.drop_drop, ← hfront]
  · rw [hdiv, pieces_add, pieces_append hle, hfront]

/-- What comes in is handed over line by line, and whole pieces of the stretch after the last
line as well; the rest is held back. -/
theorem push_eq (b : LineBuffer) (now : Nat) (bytes : Bytes) :
    let stretch := unfinishedOf (b.pending ++ bytes)
    b.push now bytes =
      ({ pending := heldBack stretch, lastInput := some now },
        linesOf (b.pending ++ bytes) ++ pieces (stretch.length / maxLength) stretch) := by
  intro stretch
  have hpieces := wholePieces_eq (Nat.div_mul_le_self stretch.length maxLength)
  change ((⟨(wholePieces (stretch.length / maxLength) stretch).2, some now⟩ : LineBuffer),
    linesOf (b.pending ++ bytes) ++ (wholePieces (stretch.length / maxLength) stretch).1) = _
  rw [hpieces]
  rfl

end LineBuffer

/-! ## Reads one after another -/

/-- What has come of some reads: what is held back, and all that was handed over. -/
structure Assembly where
  /-- The bytes held back. -/
  pending : Bytes := []
  /-- The lines and pieces handed over, in order. -/
  handed : List Bytes := []

namespace Assembly

open LineBuffer

/-- One more read. -/
def read (s : Assembly) (bytes : Bytes) : Assembly :=
  let stretch := unfinishedOf (s.pending ++ bytes)
  { pending := heldBack stretch
    handed := s.handed ++ (linesOf (s.pending ++ bytes) ++
      pieces (stretch.length / maxLength) stretch) }

/-- Reads, one after another. -/
def readAll (s : Assembly) (reads : List Bytes) : Assembly :=
  reads.foldl read s

@[simp] theorem readAll_nil (s : Assembly) : s.readAll [] = s := rfl

@[simp] theorem readAll_cons (s : Assembly) (bytes : Bytes) (reads : List Bytes) :
    s.readAll (bytes :: reads) = (s.read bytes).readAll reads := rfl

theorem readAll_append (s : Assembly) (first later : List Bytes) :
    s.readAll (first ++ later) = (s.readAll first).readAll later :=
  List.foldl_append

/-- What was handed over before does not matter to what comes after. -/
theorem readAll_handed (pending : Bytes) (before handed : List Bytes) (reads : List Bytes) :
    (⟨pending, before ++ handed⟩ : Assembly).readAll reads =
      ⟨((⟨pending, handed⟩ : Assembly).readAll reads).pending,
        before ++ ((⟨pending, handed⟩ : Assembly).readAll reads).handed⟩ := by
  induction reads generalizing pending handed with
  | nil => rfl
  | cons bytes reads ih =>
    simp only [readAll_cons, read, List.append_assoc]
    exact ih _ _

/-- A read that does not end the line continues the stretch. -/
theorem read_stretch {s : Assembly} {bytes : Bytes} (hp : lineFeed ∉ s.pending)
    (hbytes : lineFeed ∉ bytes) :
    s.read bytes =
      { pending := heldBack (s.pending ++ bytes)
        handed := s.handed ++
          pieces ((s.pending ++ bytes).length / maxLength) (s.pending ++ bytes) } := by
  have h : lineFeed ∉ s.pending ++ bytes := by simp [hp, hbytes]
  simp [read, linesOf_of_notMem h, unfinishedOf_of_notMem h]

/-- A read that ends a line hands over all lines that end there; what follows in the read is
as if it were the first. -/
theorem read_complete (s : Assembly) (bytes rest : Bytes) :
    s.read (bytes ++ lineFeed :: rest) =
      ({ handed := s.handed ++ linesOf (s.pending ++ bytes ++ [lineFeed]) } : Assembly).read
        rest := by
  have hfront : s.pending ++ (bytes ++ lineFeed :: rest) =
      s.pending ++ bytes ++ [lineFeed] ++ rest := by simp
  have hnone : unfinishedOf (s.pending ++ bytes ++ [lineFeed]) = [] :=
    unfinishedOf_of_complete (.inr List.getLast?_concat)
  rw [read, hfront, linesOf_append, unfinishedOf_append, hnone]
  simp [read]

end Assembly

/-- What comes of reads from the beginning. -/
def assemble (reads : List Bytes) : Assembly :=
  ({} : Assembly).readAll reads

theorem assemble_concat (reads : List Bytes) (bytes : Bytes) :
    assemble (reads ++ [bytes]) = (assemble reads).read bytes :=
  Assembly.readAll_append _ _ _

open LineBuffer

/-- **What is held back depends on the bytes alone**, however they were cut into reads. -/
theorem pending_assemble (reads : List Bytes) :
    (assemble reads).pending = heldBack (unfinishedOf reads.flatten) := by
  induction reads using List.reverseRecOn with
  | nil => rfl
  | append_singleton reads bytes ih =>
    have hstretch := lineFeed_notMem_unfinishedOf reads.flatten
    have hheld : lineFeed ∉ heldBack (unfinishedOf reads.flatten) :=
      fun h => hstretch ((heldBack_suffix _).subset h)
    rw [assemble_concat, List.flatten_append, List.flatten_singleton, unfinishedOf_append]
    by_cases h : lineFeed ∈ bytes
    · obtain ⟨line, rest, rfl, hline⟩ := List.eq_append_cons_of_mem h
      have hwhole : lineFeed ∉ unfinishedOf reads.flatten ++ line := by simp [hstretch, hline]
      rw [Assembly.read_complete, ← List.append_assoc, unfinishedOf_line hwhole]
      rfl
    · have hwhole : lineFeed ∉ unfinishedOf reads.flatten ++ bytes := by simp [hstretch, h]
      rw [Assembly.read_stretch (ih ▸ hheld) h, ih, unfinishedOf_of_notMem hwhole]
      exact (heldBack_append _ _).1

theorem lineFeed_notMem_pending (reads : List Bytes) : lineFeed ∉ (assemble reads).pending := by
  rw [pending_assemble]
  exact fun h => lineFeed_notMem_unfinishedOf _ ((heldBack_suffix _).subset h)

theorem length_pending_lt (reads : List Bytes) :
    (assemble reads).pending.length < maxLength := by
  rw [pending_assemble]
  exact length_heldBack_lt _

/-- **Lines shorter than a piece come out whole**, and of the stretch after them every whole
piece. -/
theorem handed_assemble {reads : List Bytes}
    (hshort : ∀ line ∈ linesOf reads.flatten, line.length < maxLength) :
    (assemble reads).handed = linesOf reads.flatten ++
      pieces ((unfinishedOf reads.flatten).length / maxLength) (unfinishedOf reads.flatten) := by
  induction reads using List.reverseRecOn with
  | nil => rfl
  | append_singleton reads bytes ih =>
    have hstretch := lineFeed_notMem_unfinishedOf reads.flatten
    have hpending := pending_assemble reads
    have hnot := lineFeed_notMem_pending reads
    rw [List.flatten_append, List.flatten_singleton, linesOf_append] at hshort ⊢
    rw [List.forall_mem_append] at hshort
    rw [assemble_concat, unfinishedOf_append]
    by_cases h : lineFeed ∈ bytes
    · obtain ⟨line, rest, rfl, hline⟩ := List.eq_append_cons_of_mem h
      have hwhole : lineFeed ∉ unfinishedOf reads.flatten ++ line := by simp [hstretch, hline]
      -- the line that ends here is short, so no piece of it went out before
      have hlt : (unfinishedOf reads.flatten).length < maxLength := by
        have hmem := hshort.2
        rw [← List.append_assoc, linesOf_line hwhole] at hmem
        have := hmem _ List.mem_cons_self
        rw [List.length_append] at this
        omega
      rw [Assembly.read_complete, ih hshort.1, hpending, heldBack_of_lt hlt, div_of_lt hlt,
        linesOf_line hwhole, ← List.append_assoc, linesOf_line hwhole, unfinishedOf_line hwhole]
      simp [Assembly.read, pieces, linesOf, Text.splitAt]
    · have hwhole : lineFeed ∉ unfinishedOf reads.flatten ++ bytes := by simp [hstretch, h]
      rw [Assembly.read_stretch hnot h, ih hshort.1, hpending, linesOf_of_notMem hwhole,
        unfinishedOf_of_notMem hwhole, List.append_nil, List.append_assoc,
        (heldBack_append _ _).2]

/-- Where no stretch without a line feed is as long as a piece, lines and nothing else are
handed over. -/
theorem handed_assemble_of_short {reads : List Bytes}
    (hshort : ∀ stretch, stretch <:+: reads.flatten → lineFeed ∉ stretch →
      stretch.length < maxLength) : (assemble reads).handed = linesOf reads.flatten := by
  have hlines : ∀ line ∈ linesOf reads.flatten, line.length < maxLength := fun line hline =>
    hshort line (infix_of_mem_linesOf hline) (lineFeed_notMem_of_mem_linesOf hline)
  have hstretch := hshort _ (unfinishedOf_suffix reads.flatten).isInfix
    (lineFeed_notMem_unfinishedOf _)
  rw [handed_assemble hlines, div_of_lt hstretch]
  exact List.append_nil _

/-- Bytes that stop short of the end of a short line leave less than a piece behind. -/
theorem length_unfinishedOf_lt {x more : Bytes}
    (hcomplete : x ++ more = [] ∨ (x ++ more).getLast? = some lineFeed)
    (hshort : ∀ line ∈ linesOf (x ++ more), line.length < maxLength) :
    (unfinishedOf x).length < maxLength := by
  have hstretch := lineFeed_notMem_unfinishedOf x
  by_cases h : lineFeed ∈ more
  · obtain ⟨front, rest, rfl, hfront⟩ := List.eq_append_cons_of_mem h
    have hwhole : lineFeed ∉ unfinishedOf x ++ front := by simp [hstretch, hfront]
    have hmem : unfinishedOf x ++ front ∈ linesOf (x ++ (front ++ lineFeed :: rest)) := by
      rw [linesOf_append, ← List.append_assoc, linesOf_line hwhole]
      simp
    have := hshort _ hmem
    rw [List.length_append] at this
    omega
  · have hwhole : lineFeed ∉ unfinishedOf x ++ more := by simp [hstretch, h]
    have hnone := unfinishedOf_of_complete hcomplete
    rw [unfinishedOf_append, unfinishedOf_of_notMem hwhole, List.append_eq_nil_iff] at hnone
    rw [hnone.1]
    decide

/-- The read that brings the line feed of a long line, and what came before that read. -/
theorem exists_cut {x r later front rest : Bytes}
    (h : x ++ (r ++ later) = front ++ lineFeed :: rest) (hstart : x.length ≤ front.length)
    (hstop : front.length < x.length + r.length) :
    ∃ w first, front = x ++ w ∧ r = w ++ lineFeed :: first ∧ rest = first ++ later := by
  have hx : x <+: front := by
    refine List.prefix_of_prefix_length_le (List.prefix_append x (r ++ later)) ?_ hstart
    rw [h]
    exact List.prefix_append _ _
  obtain ⟨w, rfl⟩ := hx
  rw [List.append_assoc, List.append_cancel_left_eq] at h
  rw [List.length_append] at hstop
  have hw : w ++ [lineFeed] <+: r := by
    have hfirst : w ++ [lineFeed] <+: r ++ later := by
      rw [h, List.append_cons w lineFeed rest]
      exact List.prefix_append _ _
    refine List.prefix_of_prefix_length_le hfirst (List.prefix_append r later) ?_
    simp
    omega
  obtain ⟨first, rfl⟩ := hw
  refine ⟨w, first, rfl, by simp, ?_⟩
  simpa using h.symm

section LongLine

variable {a e x w : Bytes} (ha : a = [] ∨ a.getLast? = some lineFeed) (he : lineFeed ∉ e)

include ha he

theorem linesOf_append_stretch : linesOf (a ++ e) = linesOf a ∧ unfinishedOf (a ++ e) = e := by
  have hnone := unfinishedOf_of_complete ha
  rw [linesOf_append, unfinishedOf_append, hnone, List.nil_append, linesOf_of_notMem he,
    unfinishedOf_of_notMem he, List.append_nil]
  exact ⟨rfl, rfl⟩

/-- A line is handed over whole by a read that began before it, after short lines. -/
theorem handed_of_read_before (hfront : a ++ e = x ++ w) (hle : x.length ≤ a.length)
    (hashort : ∀ line ∈ linesOf a, line.length < maxLength) :
    linesOf x ++ pieces ((unfinishedOf x).length / maxLength) (unfinishedOf x) ++
        linesOf (heldBack (unfinishedOf x) ++ w ++ [lineFeed]) = linesOf a ++ [e] := by
  obtain ⟨hlines, hend⟩ := linesOf_append_stretch ha he
  obtain ⟨w', rfl⟩ : x <+: a :=
    List.prefix_of_prefix_length_le (hfront ▸ List.prefix_append x w)
      (List.prefix_append a e) hle
  have hlt := length_unfinishedOf_lt ha hashort
  have hwhole : linesOf (x ++ w ++ [lineFeed]) = linesOf (x ++ w') ++ [e] := by
    rw [linesOf_append, ← hfront, hend, linesOf_line he, hlines]
    rfl
  rw [heldBack_of_lt hlt, div_of_lt hlt, ← hwhole, List.append_assoc x, linesOf_append x]
  simp [pieces]

/-- A read that began within a line hands over what is left of it: the whole pieces of what
came before went out already. -/
theorem handed_of_read_within (hw : lineFeed ∉ w) :
    linesOf (a ++ e) ++
        pieces ((unfinishedOf (a ++ e)).length / maxLength) (unfinishedOf (a ++ e)) ++
        linesOf (heldBack (unfinishedOf (a ++ e)) ++ w ++ [lineFeed]) =
      linesOf a ++ (pieces (e.length / maxLength) (e ++ w) ++
        [(e ++ w).drop (e.length / maxLength * maxLength)]) := by
  obtain ⟨hlines, hend⟩ := linesOf_append_stretch ha he
  have hfull : e.length / maxLength * maxLength ≤ e.length := Nat.div_mul_le_self _ _
  have hheld : lineFeed ∉ heldBack e ++ w := by
    simp only [List.mem_append, not_or]
    exact ⟨fun h => he ((heldBack_suffix _).subset h), hw⟩
  have hrest : linesOf (heldBack e ++ w ++ [lineFeed]) = [heldBack e ++ w] := by
    rw [linesOf_line hheld]
    rfl
  rw [hlines, hend, hrest, pieces_append hfull, List.drop_append_of_le_length hfull,
    List.append_assoc, heldBack]

end LongLine

/-- **A long line comes out in pieces**, and short lines before and after it come out whole.
So many pieces of it go out as were full when the read began that brought its line feed; what
was left of it then, with what the read still brought, goes out as one more. -/
theorem handed_assemble_long {a e b r : Bytes} {before after : List Bytes}
    (hread : (before ++ r :: after).flatten = a ++ e ++ lineFeed :: b)
    (ha : a = [] ∨ a.getLast? = some lineFeed)
    (hashort : ∀ line ∈ linesOf a, line.length < maxLength)
    (hb : b = [] ∨ b.getLast? = some lineFeed)
    (hbshort : ∀ line ∈ linesOf b, line.length < maxLength)
    (he : lineFeed ∉ e) (hstart : before.flatten.length ≤ a.length + e.length)
    (hstop : a.length + e.length < before.flatten.length + r.length) :
    let k := (before.flatten.length - a.length) / maxLength
    (assemble (before ++ r :: after)).handed =
      linesOf a ++ (pieces k e ++ [e.drop (k * maxLength)]) ++ linesOf b := by
  intro k
  rw [← List.length_append] at hstart hstop
  rw [List.flatten_append, List.flatten_cons] at hread
  obtain ⟨w, first, hfront, rfl, rfl⟩ := exists_cut hread hstart hstop
  have hshort : ∀ line ∈ linesOf before.flatten, line.length < maxLength := by
    intro line hline
    refine hashort line ?_
    rw [← (linesOf_append_stretch ha he).1, hfront, linesOf_append]
    exact List.mem_append_left _ hline
  -- what has been handed over once the line is complete
  have hgiven : (assemble before).handed ++
      linesOf ((assemble before).pending ++ w ++ [lineFeed]) =
        linesOf a ++ (pieces k e ++ [e.drop (k * maxLength)]) := by
    rw [handed_assemble hshort, pending_assemble]
    obtain ⟨x, hx⟩ : ∃ x, before.flatten = x := ⟨_, rfl⟩
    rw [hx] at hfront ⊢
    have hk : k = (x.length - a.length) / maxLength := by rw [← hx]
    by_cases hle : x.length ≤ a.length
    · have hzero : k = 0 := by rw [hk, Nat.sub_eq_zero_of_le hle, Nat.zero_div]
      have hone : pieces k e ++ [e.drop (k * maxLength)] = [e] := by simp [hzero, pieces]
      rw [hone]
      exact handed_of_read_before ha he hfront hle hashort
    · obtain ⟨e', rfl⟩ : a <+: x :=
        List.prefix_of_prefix_length_le (List.prefix_append a e)
          (hfront ▸ List.prefix_append x w) (by omega)
      rw [List.append_assoc, List.append_cancel_left_eq] at hfront
      subst hfront
      obtain ⟨he', hw⟩ : lineFeed ∉ e' ∧ lineFeed ∉ w := by simpa using he
      rw [List.length_append, Nat.add_sub_cancel_left] at hk
      rw [hk]
      exact handed_of_read_within ha he' hw
  -- the rest of the read and the later ones are as if they were the first
  have hlater := @handed_assemble (first :: after) hbshort
  rw [List.flatten_cons, unfinishedOf_of_complete hb, List.length_nil, Nat.zero_div] at hlater
  rw [assemble, Assembly.readAll_append, Assembly.readAll_cons]
  change (((assemble before).read (w ++ lineFeed :: first)).readAll after).handed = _
  rw [Assembly.read_complete, hgiven, ← Assembly.readAll_cons,
    ← List.append_nil (linesOf a ++ _), Assembly.readAll_handed]
  change _ ++ (assemble (first :: after)).handed = _
  rw [hlater]
  simp [pieces]

end SerialBridge
