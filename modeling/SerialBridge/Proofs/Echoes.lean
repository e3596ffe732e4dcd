import SerialBridge.Proofs.Reports

/-! # What becomes of an echo

The device sends every command back, and a line that begins with the command tag is never
reported (`report?_of_tag`).  That holds of what the line buffer hands over, and of an echo as
long as a piece or longer it hands over pieces: the first one begins with the tag, the later
ones need not.  Which pieces there are depends on how many were full when the read began that
brought the end of the echo (`readStart`).

So an echo leaves what is published as it is exactly if none of its later pieces holds a
report, and always if it is shorter than a piece (`echo_stays_out_iff`).  A longer one gets out
in part even of a device that does nothing wrong (`long_echo_gets_out`).
-/

namespace SerialBridge

open LineBuffer

/-! ## Lines that begin with the tag -/

theorem dropEnd_append_cons {α : Type} {p : α → Bool} {c : α} (hc : p c = false)
    (front rest : List α) :
    Text.dropEnd p (front ++ c :: rest) = front ++ c :: Text.dropEnd p rest := by
  have hreverse : (front ++ c :: rest).reverse = rest.reverse ++ c :: front.reverse := by simp
  have hfront : (c :: front.reverse).dropWhile p = c :: front.reverse := by
    rw [List.dropWhile_cons, if_neg (by simp [hc])]
  rw [Text.dropEnd, Text.dropEnd, hreverse, List.dropWhile_append, hfront]
  split
  · rename_i hnone
    simp [List.isEmpty_iff.mp hnone]
  · simp

/-- The tag stands at the front of the text of bytes that begin with it, whatever follows. -/
theorem decodeLossy_tag (rest : Bytes) :
    (Utf8.decodeLossy (Utf8.encode Frame.commandTag ++ rest)).toList =
      Frame.commandTag.toList ++ (Utf8.decodeLossy rest).toList := by
  have htag : Utf8.encode Frame.commandTag = [0x43, 0x4D, 0x44, 0x3A] := by decide
  have hchars : Frame.commandTag.toList = ['C', 'M', 'D', ':'] := by decide
  rw [htag, hchars, Utf8.decodeLossy, Utf8.decodeLossy, String.toList_ofList,
    String.toList_ofList]
  rfl

/-- **A line that begins with the command tag holds no report.** -/
theorem report?_of_tag {raw : Bytes} (h : Utf8.encode Frame.commandTag <+: raw) :
    Inbound.report? raw = none := by
  obtain ⟨rest, rfl⟩ := h
  have hchars : Frame.commandTag.toList = ['C', 'M', 'D', ':'] := by decide
  have htext : (Text.trimEnd
      (Utf8.decodeLossy (Utf8.encode Frame.commandTag ++ rest))).toList =
        'C' :: 'M' :: 'D' :: ':' :: Text.dropEnd Text.isBlank (Utf8.decodeLossy rest).toList := by
    rw [Text.trimEnd, String.toList_ofList, decodeLossy_tag, hchars]
    exact dropEnd_append_cons (by decide) ['C', 'M', 'D'] _
  have hsome : (Text.trimEnd
      (Utf8.decodeLossy (Utf8.encode Frame.commandTag ++ rest))).isEmpty = false := by
    rw [Bool.eq_false_iff, Ne, String.isEmpty_iff]
    intro hempty
    rw [hempty] at htext
    cases htext
  have htag : Frame.commandTag.toList.isPrefixOf (Text.trimEnd
      (Utf8.decodeLossy (Utf8.encode Frame.commandTag ++ rest))).toList = true := by
    rw [htext, hchars]
    rfl
  rw [Inbound.report?, Inbound.decode]
  simp only [hsome, htag]
  rfl

/-! ## Input made of lines -/

/-- Some lines, each with a line feed at its end. -/
def inLines (lines : List Bytes) : Bytes :=
  lines.flatMap (· ++ [lineFeed])

/-- The line is one, and shorter than a piece. -/
def ShortLine (line : Bytes) : Prop :=
  lineFeed ∉ line ∧ line.length < maxLength

instance (line : Bytes) : Decidable (ShortLine line) :=
  inferInstanceAs (Decidable (_ ∧ _))

theorem inLines_append (a b : List Bytes) : inLines (a ++ b) = inLines a ++ inLines b :=
  List.flatMap_append

theorem linesOf_inLines {lines : List Bytes} (h : ∀ line ∈ lines, ShortLine line) :
    linesOf (inLines lines) = lines := by
  induction lines with
  | nil => rfl
  | cons line lines ih =>
    rw [List.forall_mem_cons] at h
    rw [inLines, List.flatMap_cons, List.append_assoc, List.singleton_append,
      linesOf_line h.1.1, ← inLines, ih h.2]

theorem inLines_complete (lines : List Bytes) :
    inLines lines = [] ∨ (inLines lines).getLast? = some lineFeed := by
  induction lines using List.reverseRecOn with
  | nil => exact .inl rfl
  | append_singleton lines line _ =>
    refine .inr ?_
    rw [inLines_append]
    simp [inLines]

/-! ## The pieces of an echo -/

/-- Where the read begins that brings the byte at a position. -/
def readStart : List Bytes → Nat → Nat
  | [], _ => 0
  | r :: reads, p => if p < r.length then 0 else r.length + readStart reads (p - r.length)

theorem exists_read {reads : List Bytes} {p : Nat} (h : p < reads.flatten.length) :
    ∃ before r after, reads = before ++ r :: after ∧ readStart reads p = before.flatten.length ∧
      before.flatten.length ≤ p ∧ p < before.flatten.length + r.length := by
  induction reads generalizing p with
  | nil => exact absurd h (Nat.not_lt_zero p)
  | cons r reads ih =>
    rw [readStart]
    by_cases hp : p < r.length
    · refine ⟨[], r, reads, rfl, if_pos hp, Nat.zero_le _, ?_⟩
      simpa using hp
    · rw [List.flatten_cons, List.length_append] at h
      obtain ⟨before, r', after, rfl, heq, hle, hlt⟩ := ih (p := p - r.length) (by omega)
      refine ⟨r :: before, r', after, rfl, ?_, ?_, ?_⟩
      · rw [if_neg hp, heq, List.flatten_cons, List.length_append]
      · rw [List.flatten_cons, List.length_append]
        omega
      · rw [List.flatten_cons, List.length_append]
        omega

/-- What is handed over of an echo after its first piece: it comes after so many bytes of
input, in some reads. -/
def laterPieces (reads : List Bytes) (start : Nat) (echo : Bytes) : List Bytes :=
  let k := (readStart reads (start + echo.length) - start) / maxLength
  (pieces k echo ++ [echo.drop (k * maxLength)]).tail

/-- An echo that is shorter than a piece comes out whole. -/
theorem laterPieces_of_short {reads : List Bytes} {start : Nat} {echo : Bytes}
    (hpos : start + echo.length < reads.flatten.length) (hshort : echo.length < maxLength) :
    laterPieces reads start echo = [] := by
  obtain ⟨before, r, after, -, heq, hle, -⟩ := exists_read hpos
  have hk : (readStart reads (start + echo.length) - start) / maxLength = 0 :=
    Nat.div_eq_of_lt (by omega)
  rw [laterPieces, hk]
  rfl

/-- The first piece of an echo begins with the tag. -/
theorem reports_pieces {echo : Bytes} (htag : Utf8.encode Frame.commandTag <+: echo) (k : Nat) :
    (pieces k echo ++ [echo.drop (k * maxLength)]).filterMap Inbound.report? =
      (pieces k echo ++ [echo.drop (k * maxLength)]).tail.filterMap Inbound.report? := by
  have hfirst : ∃ first rest, pieces k echo ++ [echo.drop (k * maxLength)] = first :: rest ∧
      Utf8.encode Frame.commandTag <+: first := by
    cases k with
    | zero => exact ⟨echo, [], by simp [pieces], htag⟩
    | succ k =>
      rw [pieces_succ]
      refine ⟨_, _, rfl, List.prefix_take_iff.mpr ⟨htag, ?_⟩⟩
      decide
  obtain ⟨first, rest, heq, hprefix⟩ := hfirst
  rw [heq, List.filterMap_cons_none (report?_of_tag hprefix), List.tail_cons]

namespace Watched

/-- What is published of input with an echo in it: the reports among the lines before it, its
own later pieces, and the lines after it. -/
theorem Kept.saidAt_echo {w : Watched} (hw : Kept w) {h : Nat} {a b : List Bytes} {echo : Bytes}
    (ha : ∀ line ∈ a, ShortLine line) (hb : ∀ line ∈ b, ShortLine line)
    (htag : Utf8.encode Frame.commandTag <+: echo) (hecho : lineFeed ∉ echo)
    (hread : w.readAt h = inLines (a ++ echo :: b)) :
    w.saidAt h = ((a ++ laterPieces (w.readsAt h) (inLines a).length echo ++ b).filterMap
      Inbound.report?).map Bridge.report := by
  have hflat : (w.readsAt h).flatten = inLines a ++ echo ++ lineFeed :: inLines b := by
    rw [← readAt, hread, inLines_append]
    simp [inLines]
  have hpos : (inLines a).length + echo.length < (w.readsAt h).flatten.length := by
    rw [hflat]
    simp
  have hashort : ∀ line ∈ linesOf (inLines a), line.length < maxLength := by
    rw [linesOf_inLines ha]
    exact fun line hline => (ha line hline).2
  have hbshort : ∀ line ∈ linesOf (inLines b), line.length < maxLength := by
    rw [linesOf_inLines hb]
    exact fun line hline => (hb line hline).2
  obtain ⟨before, r, after, hreads, hstart, hle, hlt⟩ := exists_read hpos
  have hhanded := handed_assemble_long (hreads ▸ hflat) (inLines_complete a) hashort
    (inLines_complete b) hbshort hecho hle hlt
  rw [← hreads, linesOf_inLines ha, linesOf_inLines hb, ← hstart] at hhanded
  rw [hw.said_eq, hhanded, List.filterMap_append, List.filterMap_append, reports_pieces htag,
    ← List.filterMap_append, ← List.filterMap_append, laterPieces]

/-- What is published of short lines. -/
theorem Kept.saidAt_lines {w : Watched} (hw : Kept w) {h : Nat} {lines : List Bytes}
    (hlines : ∀ line ∈ lines, ShortLine line) (hread : w.readAt h = inLines lines) :
    w.saidAt h = (lines.filterMap Inbound.report?).map Bridge.report := by
  have hshort : ∀ line ∈ linesOf (w.readsAt h).flatten, line.length < maxLength := by
    rw [← readAt, hread, linesOf_inLines hlines]
    exact fun line hline => (hlines line hline).2
  have hhanded := handed_assemble hshort
  rw [← readAt, hread, linesOf_inLines hlines, unfinishedOf_of_complete (inLines_complete lines),
    List.length_nil, Nat.zero_div, pieces, List.range_zero, List.map_nil,
    List.append_nil] at hhanded
  rw [hw.said_eq, hhanded]

/-- **An echo stays out exactly if none of its later pieces holds a report.**  With it among
short lines, the looks through a handle publish what they would without it, however either
input is cut into reads; so it is for every echo that is shorter than a piece. -/
theorem echo_stays_out_iff (settings settings' : Settings) (bench bench' : Bench)
    (turns turns' : List Turn) (h h' : Nat) (a b : List Bytes) (echo : Bytes)
    (hquiet : ((new settings bench).run turns).Unflushed)
    (hquiet' : ((new settings' bench').run turns').Unflushed)
    (ha : ∀ line ∈ a, ShortLine line) (hb : ∀ line ∈ b, ShortLine line)
    (htag : Utf8.encode Frame.commandTag <+: echo) (hecho : lineFeed ∉ echo)
    (hread : ((new settings bench).run turns).readAt h = inLines (a ++ echo :: b))
    (hread' : ((new settings' bench').run turns').readAt h' = inLines (a ++ b)) :
    let w := (new settings bench).run turns
    let v := (new settings' bench').run turns'
    (w.saidAt h = v.saidAt h' ↔
      ∀ piece ∈ laterPieces (w.readsAt h) (inLines a).length echo,
        Inbound.report? piece = none) ∧
      (echo.length < maxLength → w.saidAt h = v.saidAt h') := by
  intro w v
  have hw : Kept w := kept_run (kept_new settings bench) hquiet
  have hv : Kept v := kept_run (kept_new settings' bench') hquiet'
  have hiff : w.saidAt h = v.saidAt h' ↔
      ∀ piece ∈ laterPieces (w.readsAt h) (inLines a).length echo,
        Inbound.report? piece = none := by
    rw [hw.saidAt_echo ha hb htag hecho hread,
      hv.saidAt_lines (List.forall_mem_append.mpr ⟨ha, hb⟩) hread', ← List.filterMap_eq_nil_iff]
    simp only [List.filterMap_append, List.map_append, List.append_assoc,
      List.append_cancel_left_eq, List.append_left_eq_self, List.map_eq_nil_iff]
  refine ⟨hiff, fun hshort => hiff.mpr ?_⟩
  have hpos : (inLines a).length + echo.length < (w.readsAt h).flatten.length := by
    have hflat : (w.readsAt h).flatten = inLines (a ++ echo :: b) := hread
    rw [hflat, inLines_append]
    simp [inLines]
  rw [laterPieces_of_short hpos hshort]
  exact fun piece hpiece => nomatch hpiece

/-- A port is opened, and its device has some input. -/
def feeding (faults : Faults) (input : Bytes) : List Turn :=
  [.other (.link (.surround (.plug "p" faults)) trivial) trivial,
    .other (.link (.openPort ["p"] 0) trivial) trivial,
    .other (.link (.surround (.feed 0 input)) trivial) trivial]

/-- The line "CMD:x" between "a" and "b", read four bytes at a time. -/
theorem short_echo_stays_out :
    ((new {} {}).run (feeding { maxRead := some 4 }
        [0x61, 0x0A, 0x43, 0x4D, 0x44, 0x3A, 0x78, 0x0A, 0x62, 0x0A] ++
          [.look 0, .look 0, .look 0])).saidAt 0 =
      ((new {} {}).run (feeding {} [0x61, 0x0A, 0x62, 0x0A] ++ [.look 0])).saidAt 0 := by
  have hquiet : ((new {} {}).run (feeding { maxRead := some 4 }
      [0x61, 0x0A, 0x43, 0x4D, 0x44, 0x3A, 0x78, 0x0A, 0x62, 0x0A] ++
        [.look 0, .look 0, .look 0])).Unflushed := by
    simp only [Unflushed]
    decide
  have hquiet' :
      ((new {} {}).run (feeding {} [0x61, 0x0A, 0x62, 0x0A] ++ [.look 0])).Unflushed := by
    simp only [Unflushed]
    decide
  obtain ⟨-, hsame⟩ := echo_stays_out_iff {} {} {} {} _ _ 0 0 [[0x61]] [[0x62]]
    [0x43, 0x4D, 0x44, 0x3A, 0x78] hquiet hquiet' (by decide) (by decide)
    (by decide) (by decide) (by decide) (by decide)
  exact hsame (by decide)

/-! ## A device that does nothing wrong -/

/-- The current link is open, and the device behind it does nothing wrong. -/
structure Plain (l : Link) (h d : Nat) : Prop where
  current_eq : l.current = some h
  isOpen : l.openAt h = true
  port : ∃ path, l.portOf h = some (path, d)
  faults_eq : l.bench.faultsOf d = some {}

theorem takeInput_of_plain {l : Link} {h d : Nat} (hl : Plain l h d)
    (hinput : l.inputAt h ≠ []) :
    (l.takeInput h).2 = .ok (some ((l.inputAt h).take Link.readSize)) := by
  obtain ⟨handle, hh, hopen⟩ := Link.exists_handle_of_openAt hl.isOpen
  obtain ⟨path, hport⟩ := hl.port
  rw [Link.portOf_of_handle hh] at hport
  cases hport
  obtain ⟨device, hdevice, hfaults⟩ := Option.map_eq_some_iff.mp hl.faults_eq
  have heq : l.inputAt h = device.input := by simp [Link.inputAt, Bench.inputOf, hh, hdevice]
  rw [heq] at hinput ⊢
  obtain ⟨n, hn⟩ : ∃ n, device.input.length = n + 1 :=
    Nat.exists_eq_add_one.mpr (List.length_pos_iff.mpr hinput)
  have havailable : device.available = .ok (n + 1) := by
    simp [Device.available, hfaults, hn]
  have hread : (device.read (min (n + 1) Link.readSize)).2 =
      .ok (device.input.take Link.readSize) := by
    simp only [Device.read, hfaults, ← hn]
    rcases Nat.le_total device.input.length Link.readSize with hle | hge
    · rw [Nat.min_eq_left hle, List.take_length, List.take_of_length_le hle]
    · rw [Nat.min_eq_right hge]
  rw [Link.takeInput, hh, Option.filter_some, hopen, if_pos rfl]
  simp only [hdevice, havailable]
  generalize device.read (min (n + 1) Link.readSize) = read at hread
  obtain ⟨device', result⟩ := read
  cases hread
  rfl

/-- A look leaves the link and the behaviour of its device as they are. -/
theorem plain_poll {b : Bridge} {h d : Nat} (hb : Plain b.link h d) (now : Nat) :
    Plain (b.poll now).1.link h d := by
  obtain ⟨n, hlink⟩ := Bridge.link_poll hb.current_eq now
  obtain ⟨bench, handles, heq, hfaults, -⟩ := b.link.readLines_cases now h
  rw [hlink]
  constructor
  · rw [heq]
    exact hb.current_eq
  · exact (b.link.openAt_readLines now h h).trans hb.isOpen
  · obtain ⟨path, hport⟩ := hb.port
    exact ⟨path, (b.link.portOf_readLines now h h).trans hport⟩
  · rw [heq]
    exact (hfaults d).trans hb.faults_eq

/-- What so many reads take of some input, as much at a time as a read takes. -/
def readsOf : Nat → Bytes → List Bytes
  | 0, _ => []
  | n + 1, input => input.take Link.readSize :: readsOf n (input.drop Link.readSize)

theorem flatten_readsOf (n : Nat) (input : Bytes) :
    (readsOf n input).flatten = input.take (n * Link.readSize) := by
  induction n generalizing input with
  | zero => simp [readsOf]
  | succ n ih =>
    rw [readsOf, List.flatten_cons, ih, Nat.succ_mul, Nat.add_comm, List.take_add]

theorem readStart_readsOf {n p : Nat} {input : Bytes} (hp : p < input.length)
    (hn : p < n * Link.readSize) :
    readStart (readsOf n input) p = p / Link.readSize * Link.readSize := by
  have hpos : 0 < Link.readSize := by decide
  induction n generalizing input p with
  | zero => simp at hn
  | succ n ih =>
    rw [Nat.succ_mul] at hn
    rw [readsOf, readStart, List.length_take]
    by_cases h : p < Link.readSize
    · rw [if_pos (Nat.lt_min.mpr ⟨h, hp⟩), Nat.div_eq_of_lt h, Nat.zero_mul]
    · have hge : Link.readSize ≤ p := Nat.le_of_not_lt h
      have hmin : min Link.readSize input.length = Link.readSize := by omega
      have hlen : p - Link.readSize < (input.drop Link.readSize).length := by
        rw [List.length_drop]
        omega
      rw [hmin, if_neg h, ih hlen (by omega), Nat.div_eq_sub_div hpos hge, Nat.succ_mul,
        Nat.add_comm]

/-- A device that does nothing wrong is read as much at a time as a read takes, until nothing
is left. -/
theorem run_of_plain {w : Watched} (hw : Kept w) (hunflushed : w.Unflushed) {h d : Nat}
    (hplain : Plain w.bridge.link h d) {n : Nat}
    (hn : n * Link.readSize < w.bridge.waiting.length + Link.readSize) (now : Nat) :
    (w.run (List.replicate n (.look now))).Unflushed ∧
      (w.run (List.replicate n (.look now))).readsAt h =
        w.readsAt h ++ readsOf n w.bridge.waiting := by
  induction n generalizing w with
  | zero => exact ⟨hunflushed, (List.append_nil _).symm⟩
  | succ n ih =>
    rw [Nat.succ_mul] at hn
    have hwaiting := Bridge.waiting_of_current hplain.current_eq
    have hinput : w.bridge.link.inputAt h ≠ [] := by
      rw [← hwaiting, ← List.length_pos_iff]
      omega
    have htake := takeInput_of_plain hplain hinput
    have hflush : w.bridge.flushes now = false := by
      rw [Bridge.flushes, hplain.current_eq]
      simp only [htake]
    have htook := hw.took hplain.current_eq hflush
    have htaken : w.bridge.link.inputTaken h = w.bridge.waiting.take Link.readSize := by
      rw [Link.inputTaken, htake, hwaiting]
    rw [htaken] at htook
    obtain ⟨hbytes, -⟩ := Bridge.look_of_took htook
    have hleft : (w.bridge.poll now).1.waiting = w.bridge.waiting.drop Link.readSize := by
      have hsplit := htook.1
      nth_rewrite 1 [← List.take_append_drop Link.readSize w.bridge.waiting] at hsplit
      exact (List.append_cancel_left hsplit).symm
    obtain ⟨hquiet, hreads⟩ := ih (kept_look hw hflush)
      (List.forall_mem_cons.mpr ⟨hflush, hunflushed⟩) (plain_poll hplain now) (by
        change _ < (w.bridge.poll now).1.waiting.length + _
        rw [hleft, List.length_drop]
        omega)
    rw [List.replicate_succ, run_cons]
    refine ⟨hquiet, hreads.trans ?_⟩
    change (w.turn (.look now)).readsAt h ++ readsOf n (w.bridge.poll now).1.waiting = _
    rw [readsAt, looksAt_look_of_current hplain.current_eq, List.map_append, List.map_singleton,
      hbytes, hleft, List.append_assoc]
    rfl

theorem run_of_feeding {n : Nat} {input : Bytes}
    (hn : n * Link.readSize < input.length + Link.readSize) :
    ((new {} {}).run (feeding {} input ++ List.replicate n (.look 0))).Unflushed ∧
      ((new {} {}).run (feeding {} input ++ List.replicate n (.look 0))).readsAt 0 =
        readsOf n input := by
  have hrun : (new {} {}).run (feeding {} input ++ List.replicate n (.look 0)) =
      ((new {} {}).run (feeding {} input)).run (List.replicate n (.look 0)) := List.foldl_append
  have hquiet : ((new {} {}).run (feeding {} input)).Unflushed := fun look hlook => nomatch hlook
  rw [hrun]
  exact run_of_plain (kept_run (kept_new {} {}) hquiet) hquiet ⟨rfl, rfl, ⟨"p", rfl⟩, rfl⟩ hn 0

/-- The tag and so many letters behind it, one byte more than a piece. -/
def longEcho : Bytes :=
  Utf8.encode Frame.commandTag ++ List.replicate 4093 0x78

theorem length_longEcho : longEcho.length = 4097 := by
  rw [longEcho, List.length_append, List.length_replicate]
  rfl

/-- The fifth read brings the end of the echo, and one piece was full when it began. -/
theorem laterPieces_longEcho :
    laterPieces (readsOf 5 (longEcho ++ [lineFeed])) 0 longEcho = [[0x78]] := by
  have hdrop : longEcho.drop maxLength = [0x78] := by
    have hle : (Utf8.encode Frame.commandTag).length ≤ maxLength := by decide
    have hrest : maxLength - (Utf8.encode Frame.commandTag).length = 4092 := by decide
    rw [longEcho, List.drop_append, List.drop_eq_nil_of_le hle, hrest, List.drop_replicate]
    rfl
  have hlength : (longEcho ++ [lineFeed]).length = 4098 := by
    rw [List.length_append, length_longEcho, List.length_singleton]
  rw [laterPieces, length_longEcho, readStart_readsOf (by rw [hlength]; decide) (by decide)]
  exact congrArg (fun piece => [piece]) hdrop

/-- **A long echo gets out in part.**  A device that does nothing wrong sends an echo of one
byte more than a piece, and the last letter of it is reported. -/
theorem long_echo_gets_out :
    ¬ ∀ (settings settings' : Settings) (bench bench' : Bench) (turns turns' : List Turn)
      (h h' : Nat) (a b : List Bytes) (echo : Bytes),
      ((new settings bench).run turns).Unflushed → ((new settings' bench').run turns').Unflushed →
      (∀ line ∈ a, ShortLine line) → (∀ line ∈ b, ShortLine line) →
      Utf8.encode Frame.commandTag <+: echo → lineFeed ∉ echo →
      ((new settings bench).run turns).readAt h = inLines (a ++ echo :: b) →
      ((new settings' bench').run turns').readAt h' = inLines (a ++ b) →
      ((new settings bench).run turns).saidAt h =
        ((new settings' bench').run turns').saidAt h' := by
  intro hclaim
  have htag : Utf8.encode Frame.commandTag <+: longEcho := List.prefix_append _ _
  have hecho : lineFeed ∉ longEcho := by
    rw [longEcho, List.mem_append, List.mem_replicate]
    decide
  have hlength : (longEcho ++ [lineFeed]).length = 4098 := by
    rw [List.length_append, length_longEcho, List.length_singleton]
  have hall : 5 * Link.readSize < (longEcho ++ [lineFeed]).length + Link.readSize := by
    rw [hlength]
    decide
  obtain ⟨hquiet, hreads⟩ := run_of_feeding hall
  have hread : ((new {} {}).run (feeding {} (longEcho ++ [lineFeed]) ++
      List.replicate 5 (.look 0))).readAt 0 = inLines ([] ++ longEcho :: []) := by
    rw [readAt, hreads, flatten_readsOf, List.take_of_length_le (by rw [hlength]; decide)]
    exact (List.append_nil _).symm
  have hsame := hclaim {} {} {} {} _ [] 0 0 [] [] longEcho hquiet (List.forall_mem_nil _)
    (List.forall_mem_nil _) (List.forall_mem_nil _) htag hecho hread rfl
  have hsaid := (kept_run (kept_new {} {}) hquiet).saidAt_echo (List.forall_mem_nil _)
    (List.forall_mem_nil _) htag hecho hread
  rw [hreads, show (inLines []).length = 0 from rfl, laterPieces_longEcho] at hsaid
  rw [hsaid] at hsame
  exact absurd hsame (by decide)

end Watched

end SerialBridge
