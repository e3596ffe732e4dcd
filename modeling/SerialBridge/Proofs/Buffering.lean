import SerialBridge.Proofs.Assembly

/-! # A line buffer keeps every byte

A line buffer is pushed bytes and asked to flush, in any order and at any times.  Beside the
buffer a course of such calls keeps what was pushed, what was handed over, and what of that came
from a flush (`Course`).

A push takes what is held back and what comes in together.  It takes this apart into lines, full
pieces of the stretch after them and a short rest (`Parts`), hands over the lines and the pieces,
and holds back the rest (`exists_parts`).  A flush hands over what is held back, or nothing.  So
whatever the calls are, what was handed over and what is held back are the bytes pushed but for
their line feeds (`Kept`).

Until a flush hands something over, the course is that of the reads alone, and where no stretch
fills a piece the lines do not depend on how the bytes were cut.  The result is
`calls_keep_every_byte`.
-/

namespace SerialBridge

theorem filter_of_notMem {x : Bytes} (h : lineFeed ∉ x) : x.filter (· != lineFeed) = x :=
  List.filter_eq_self.mpr fun _ hb => bne_iff_ne.mpr fun heq => h (heq ▸ hb)

/-- The lines of some bytes, each with its line feed, and the stretch after them are the bytes. -/
theorem linesOf_unfinishedOf (x : Bytes) :
    (linesOf x).flatMap (· ++ [lineFeed]) ++ unfinishedOf x = x := by
  induction x using line_induction with
  | stretch x h => rw [linesOf_of_notMem h, unfinishedOf_of_notMem h, List.flatMap_nil,
      List.nil_append]
  | line l rest hl ih =>
    rw [linesOf_line hl, unfinishedOf_line hl, List.flatMap_cons, List.append_assoc, ih,
      List.append_assoc, List.singleton_append]

namespace LineBuffer

/-! ## Full pieces -/

theorem flatten_pieces (k : Nat) (stretch : Bytes) :
    (pieces k stretch).flatten = stretch.take (k * maxLength) := by
  induction k generalizing stretch with
  | zero => simp [pieces]
  | succ k ih =>
    rw [pieces_succ, List.flatten_cons, ih, Nat.succ_mul, Nat.add_comm, List.take_add]

theorem length_of_mem_pieces {k : Nat} {stretch piece : Bytes}
    (hk : k * maxLength ≤ stretch.length) (h : piece ∈ pieces k stretch) :
    piece.length = maxLength := by
  obtain ⟨i, hi, rfl⟩ := List.mem_map.mp h
  have hle : (i + 1) * maxLength ≤ k * maxLength :=
    Nat.mul_le_mul_right _ (List.mem_range.mp hi)
  rw [Nat.succ_mul] at hle
  rw [List.length_take, List.length_drop]
  omega

/-! ## What a push does -/

/-- Some bytes come apart into lines that each ended with a line feed, full pieces of the stretch
after them, and a rest that fills no piece. -/
structure Parts (bytes : Bytes) (lines pieces : List Bytes) (rest : Bytes) : Prop where
  whole : bytes = lines.flatMap (· ++ [lineFeed]) ++ pieces.flatten ++ rest
  lines_unbroken : ∀ line ∈ lines, lineFeed ∉ line
  pieces_unbroken : ∀ piece ∈ pieces, lineFeed ∉ piece
  rest_unbroken : lineFeed ∉ rest
  full : ∀ piece ∈ pieces, piece.length = maxLength
  short : rest.length < maxLength

/-- All bytes but the line feeds are there. -/
theorem Parts.filter_eq {bytes rest : Bytes} {lines pieces : List Bytes}
    (h : Parts bytes lines pieces rest) :
    bytes.filter (· != lineFeed) = (lines ++ pieces).flatten ++ rest := by
  have hpieces : lineFeed ∉ pieces.flatten ++ rest := by
    intro hmem
    rcases List.mem_append.mp hmem with hmem | hmem
    · obtain ⟨piece, hpiece, hmem⟩ := List.mem_flatten.mp hmem
      exact h.pieces_unbroken piece hpiece hmem
    · exact h.rest_unbroken hmem
  have hlines : ∀ lines : List Bytes, (∀ line ∈ lines, lineFeed ∉ line) →
      (lines.flatMap (· ++ [lineFeed])).filter (· != lineFeed) = lines.flatten := by
    intro lines hlines
    induction lines with
    | nil => rfl
    | cons line lines ih =>
      obtain ⟨hline, hlines⟩ := List.forall_mem_cons.mp hlines
      rw [List.flatMap_cons, List.filter_append, List.filter_append, filter_of_notMem hline,
        ih hlines, List.flatten_cons]
      simp
  rw [h.whole, List.append_assoc, List.filter_append, hlines lines h.lines_unbroken,
    filter_of_notMem hpieces, List.flatten_append, List.append_assoc]

/-- **What a push does.**  What is held back and what comes in are taken apart; every line feed
that comes in ends one of the lines. -/
theorem exists_parts {b : LineBuffer} (hb : lineFeed ∉ b.pending) (now : Nat) (bytes : Bytes) :
    ∃ lines pieces, (b.push now bytes).2 = lines ++ pieces ∧
      Parts (b.pending ++ bytes) lines pieces (b.push now bytes).1.pending ∧
      lines.length = bytes.count lineFeed := by
  have hstretch := lineFeed_notMem_unfinishedOf (b.pending ++ bytes)
  have hfull := Nat.div_mul_le_self (unfinishedOf (b.pending ++ bytes)).length maxLength
  rw [push_eq]
  refine ⟨_, _, rfl, ?_, ?_⟩
  · constructor
    case whole =>
      rw [flatten_pieces, heldBack, List.append_assoc, List.take_append_drop,
        linesOf_unfinishedOf]
    case lines_unbroken => exact fun line hline => lineFeed_notMem_of_mem_linesOf hline
    case pieces_unbroken =>
      intro piece hpiece hmem
      have hflat := List.mem_flatten.mpr ⟨piece, hpiece, hmem⟩
      rw [flatten_pieces] at hflat
      exact hstretch (List.mem_of_mem_take hflat)
    case rest_unbroken => exact fun hmem => hstretch ((heldBack_suffix _).subset hmem)
    case full => exact fun piece hpiece => length_of_mem_pieces hfull hpiece
    case short => exact length_heldBack_lt _
  · rw [length_linesOf, List.count_append, List.count_eq_zero.mpr hb, Nat.zero_add]

/-- A flush hands over nothing, or all that is held back. -/
theorem flushIdle_cases (b : LineBuffer) (now idle : Nat) :
    b.flushIdle now idle = (b, none) ∨
      b.flushIdle now idle = ({ b with pending := [] }, some b.pending) := by
  rw [flushIdle]
  split
  · exact .inr rfl
  · exact .inl rfl

/-! ## Calls one after another -/

/-- A call on a line buffer. -/
inductive Call where
  /-- Input comes in at a time. -/
  | push (now : Nat) (bytes : Bytes)
  /-- At a time, an unfinished line is asked for that has waited so many milliseconds. -/
  | flush (now idle : Nat)
  deriving DecidableEq, Repr

/-- A buffer, and what has come of the calls on it. -/
structure Course where
  /-- The buffer. -/
  buffer : LineBuffer := .empty
  /-- The bytes of each push, in order. -/
  pushed : List Bytes := []
  /-- What was handed over, in order. -/
  given : List Bytes := []
  /-- What of it a flush handed over. -/
  flushed : List Bytes := []
  deriving DecidableEq, Repr

/-- One more call. -/
def Course.call (s : Course) : Call → Course
  | .push now bytes =>
    let (buffer, given) := s.buffer.push now bytes
    { s with buffer, pushed := s.pushed ++ [bytes], given := s.given ++ given }
  | .flush now idle =>
    let (buffer, line) := s.buffer.flushIdle now idle
    { s with buffer, given := s.given ++ line.toList, flushed := s.flushed ++ line.toList }

/-- What comes of some calls on a buffer that has seen no input. -/
def course (calls : List Call) : Course :=
  calls.foldl Course.call {}

theorem course_concat (calls : List Call) (c : Call) :
    course (calls ++ [c]) = (course calls).call c :=
  List.foldl_append

/-- What holds after every call. -/
structure Kept (s : Course) : Prop where
  whole : s.given.flatten ++ s.buffer.pending = s.pushed.flatten.filter (· != lineFeed)
  given_unbroken : ∀ piece ∈ s.given, lineFeed ∉ piece
  pending_unbroken : lineFeed ∉ s.buffer.pending
  pending_short : s.buffer.pending.length < maxLength
  unflushed : s.flushed = [] →
    s.given = (assemble s.pushed).handed ∧ s.buffer.pending = (assemble s.pushed).pending

theorem kept_push {s : Course} (hs : Kept s) (now : Nat) (bytes : Bytes) :
    Kept (s.call (.push now bytes)) := by
  obtain ⟨lines, pieces, hgiven, hparts, -⟩ := exists_parts hs.pending_unbroken now bytes
  constructor
  case whole =>
    change (s.given ++ (s.buffer.push now bytes).2).flatten ++ (s.buffer.push now bytes).1.pending =
      (s.pushed ++ [bytes]).flatten.filter (· != lineFeed)
    rw [hgiven, List.flatten_append, List.append_assoc, ← hparts.filter_eq, List.flatten_append,
      List.flatten_singleton, List.filter_append, List.filter_append, ← hs.whole,
      filter_of_notMem hs.pending_unbroken, List.append_assoc]
  case given_unbroken =>
    intro piece hpiece
    change piece ∈ s.given ++ (s.buffer.push now bytes).2 at hpiece
    rw [hgiven, List.mem_append, List.mem_append] at hpiece
    rcases hpiece with hold | hline | hfull
    · exact hs.given_unbroken piece hold
    · exact hparts.lines_unbroken piece hline
    · exact hparts.pieces_unbroken piece hfull
  case pending_unbroken => exact hparts.rest_unbroken
  case pending_short => exact hparts.short
  case unflushed =>
    intro hnone
    obtain ⟨hhanded, hpending⟩ := hs.unflushed hnone
    change s.given ++ (s.buffer.push now bytes).2 = (assemble (s.pushed ++ [bytes])).handed ∧
      (s.buffer.push now bytes).1.pending = (assemble (s.pushed ++ [bytes])).pending
    rw [assemble_concat, Assembly.read, push_eq, hhanded, hpending]
    exact ⟨rfl, rfl⟩

theorem kept_flush {s : Course} (hs : Kept s) (now idle : Nat) :
    Kept (s.call (.flush now idle)) := by
  have hcall : s.call (.flush now idle) =
      { s with
        buffer := (s.buffer.flushIdle now idle).1
        given := s.given ++ (s.buffer.flushIdle now idle).2.toList
        flushed := s.flushed ++ (s.buffer.flushIdle now idle).2.toList } := rfl
  rw [hcall]
  rcases s.buffer.flushIdle_cases now idle with heq | heq
  · rw [heq]
    simpa using hs
  · rw [heq]
    constructor
    case whole =>
      simpa using hs.whole
    case given_unbroken =>
      intro piece hpiece
      rcases List.mem_append.mp hpiece with hold | hnew
      · exact hs.given_unbroken piece hold
      · rw [List.mem_singleton.mp hnew]
        exact hs.pending_unbroken
    case pending_unbroken => exact List.not_mem_nil
    case pending_short => exact Nat.zero_lt_of_lt hs.pending_short
    case unflushed =>
      intro hnone
      exact absurd hnone (List.append_ne_nil_of_right_ne_nil _ (List.cons_ne_nil _ _))

theorem kept_course (calls : List Call) : Kept (course calls) := by
  induction calls using List.reverseRecOn with
  | nil =>
    exact ⟨rfl, List.forall_mem_nil _, List.not_mem_nil, by decide, fun _ => ⟨rfl, rfl⟩⟩
  | append_singleton calls c ih =>
    rw [course_concat]
    cases c with
    | push now bytes => exact kept_push ih now bytes
    | flush now idle => exact kept_flush ih now idle

/-- Some bytes have no stretch without a line feed that fills a piece. -/
def NoFullStretch (bytes : Bytes) : Prop :=
  ∀ stretch, stretch <:+: bytes → lineFeed ∉ stretch → stretch.length < maxLength

/-- Without a flush and without a full stretch, lines are handed over, and what follows them is
held back. -/
theorem Kept.lines_eq {s : Course} (hs : Kept s) (hnone : s.flushed = [])
    (hshort : NoFullStretch s.pushed.flatten) :
    s.given = linesOf s.pushed.flatten ∧ s.buffer.pending = unfinishedOf s.pushed.flatten := by
  obtain ⟨hgiven, hpending⟩ := hs.unflushed hnone
  have hstretch := hshort _ (unfinishedOf_suffix s.pushed.flatten).isInfix
    (lineFeed_notMem_unfinishedOf _)
  rw [hgiven, hpending, pending_assemble, heldBack_of_lt hstretch]
  exact ⟨handed_assemble_of_short hshort, rfl⟩

/-- **A line buffer loses nothing and makes up nothing**, whatever the calls on it.  What was
handed over and what is held back are the bytes pushed without their line feeds; all of it is
free of line feeds, and what is held back fills no piece.  A push hands over one line for each
line feed it brings, and then nothing but full pieces.  Where nothing was flushed and no stretch
fills a piece, it does not matter how the bytes were cut into pushes. -/
theorem calls_keep_every_byte (calls : List Call) :
    let s := course calls
    s.given.flatten ++ s.buffer.pending = s.pushed.flatten.filter (· != lineFeed) ∧
      (∀ piece ∈ s.given, lineFeed ∉ piece) ∧ lineFeed ∉ s.buffer.pending ∧
      s.buffer.pending.length < maxLength ∧
      (∀ now bytes, ∃ lines pieces, (s.buffer.push now bytes).2 = lines ++ pieces ∧
        Parts (s.buffer.pending ++ bytes) lines pieces (s.buffer.push now bytes).1.pending ∧
        lines.length = bytes.count lineFeed) ∧
      ∀ others, (course others).pushed.flatten = s.pushed.flatten →
        NoFullStretch s.pushed.flatten → s.flushed = [] → (course others).flushed = [] →
        (course others).given = s.given ∧
          (course others).buffer.pending = s.buffer.pending := by
  intro s
  have hs : Kept s := kept_course calls
  refine ⟨hs.whole, hs.given_unbroken, hs.pending_unbroken, hs.pending_short,
    fun now bytes => exists_parts hs.pending_unbroken now bytes, ?_⟩
  intro others hsame hshort hnone hnone'
  obtain ⟨hgiven, hpending⟩ := hs.lines_eq hnone hshort
  obtain ⟨hgiven', hpending'⟩ := (kept_course others).lines_eq hnone' (hsame ▸ hshort)
  rw [hgiven, hpending, hgiven', hpending', hsame]
  exact ⟨rfl, rfl⟩

/-- The line "ab" and the letter "c", cut within the line, or after it with a flush that comes
too early. -/
theorem calls_keep_cut_line :
    (course [.push 0 [0x61, 0x62, lineFeed], .flush 5 10, .push 7 [0x63]]).given =
        (course [.push 0 [0x61], .push 3 [0x62, lineFeed, 0x63]]).given ∧
      (course [.push 0 [0x61], .push 3 [0x62, lineFeed, 0x63]]).given = [[0x61, 0x62]] := by
  have hshort : NoFullStretch [0x61, 0x62, lineFeed, 0x63] := fun stretch hstretch _ =>
    Nat.lt_of_le_of_lt hstretch.length_le (by decide)
  obtain ⟨-, -, -, -, -, hcut⟩ :=
    calls_keep_every_byte [.push 0 [0x61], .push 3 [0x62, lineFeed, 0x63]]
  exact ⟨(hcut [.push 0 [0x61, 0x62, lineFeed], .flush 5 10, .push 7 [0x63]] rfl hshort rfl
    rfl).1, rfl⟩

end LineBuffer

end SerialBridge
