import Mathlib.Data.List.Basic
import SerialBridge.Proofs.Looks

/-! # What the reader reports

A bridge is watched from outside: of each look for input one sees which handle was current,
which bytes left the device and which envelopes were published (`Look`).  Between two looks
anything else may happen to the bridge, except that nobody else reads (`Watched.Turn`).

The invariant (`Kept`) ties all that was seen of a handle to the assembly of the reads through
it: what the handle holds back is what the assembly holds back, what was published is the
reports among what the assembly handed over, and the total counts that.  Handles are current
one after another, so what was seen falls apart into what was seen of each of them.

Where every line is shorter than a piece the assembly hands over the lines, and the reports
are those of the complete lines, however the input was cut (`reports_are_of_whole_lines`).
-/

namespace SerialBridge

/-- What is seen of one look for input. -/
structure Look where
  /-- The handle that was current. -/
  handle : Option Nat
  /-- The bytes that left the device. -/
  bytes : Bytes
  /-- The envelopes published, in order. -/
  said : List Envelope
  /-- Whether an unfinished line was handed over for want of input. -/
  flushed : Bool
  deriving DecidableEq, Repr

namespace Bridge

/-- What is seen of a look at a time. -/
def look (b : Bridge) (now : Nat) : Look where
  handle := b.link.current
  bytes := b.waiting.take (b.waiting.length - (b.poll now).1.waiting.length)
  said :=
    ((b.poll now).1.published.take
      ((b.poll now).1.published.length - b.published.length)).reverse
  flushed := b.flushes now

/-- The action leaves the reader's side of the link alone. -/
def Action.ReadsNothing : Action → Prop
  | .link step _ => step.ReadsNothing
  | _ => True

theorem link_act_of_readsNothing (b : Bridge) {a : Action} (ha : a.ReadsNothing) :
    (b.act a).link = b.link ∨
      ∃ step : Link.Step, step.ReadsNothing ∧ (b.act a).link = b.link.step step := by
  rcases b.link_act a with heq | ⟨step, heq, ⟨others, rfl⟩ | ⟨u, h, frame, -, -, rfl⟩⟩
  · exact .inl heq
  · exact .inr ⟨step, ha, heq⟩
  · exact .inr ⟨.writeOn (.upload u.id) h frame, trivial, heq⟩

/-- Of the link a look changes what a read changes, and the number of lines. -/
theorem link_poll {b : Bridge} {h : Nat} (hcurrent : b.link.current = some h) (now : Nat) :
    ∃ n, (b.poll now).1.link = (b.link.readLines now h).1.countLines n := by
  rw [poll, takeLines, hcurrent]
  dsimp only
  rcases b.link.readLines now h with ⟨link, _ | _ | _⟩
  · exact ⟨0, (Link.countLines_zero link).symm⟩
  · exact ⟨0, (Link.countLines_zero link).symm⟩
  · exact ⟨_, congrArg Bridge.link (deliver_eq _ _)⟩

/-- Without a link a look finds nothing. -/
theorem poll_of_no_link {b : Bridge} (hcurrent : b.link.current = none) (now : Nat) :
    (b.poll now).1 = b := by
  rw [poll, takeLines, hcurrent]

/-- A look makes no handle and leaves the current one. -/
theorem handles_poll (b : Bridge) (now : Nat) :
    (b.poll now).1.link.current = b.link.current ∧
      (b.poll now).1.link.handles.length = b.link.handles.length := by
  cases hcurrent : b.link.current with
  | none =>
    rw [poll_of_no_link hcurrent]
    exact ⟨hcurrent, rfl⟩
  | some h =>
    obtain ⟨n, hlink⟩ := link_poll hcurrent now
    obtain ⟨bench, handles, heq, -, hhandles⟩ := b.link.readLines_cases now h
    rw [hlink, heq]
    refine ⟨hcurrent, ?_⟩
    change handles.length = b.link.handles.length
    rcases hhandles with rfl | ⟨lines, rfl⟩
    · rfl
    · exact List.length_modify ..

theorem look_of_no_link {b : Bridge} (hcurrent : b.link.current = none) (now : Nat) :
    (b.look now).bytes = [] ∧ (b.look now).said = [] := by
  constructor
  · simp [look, waiting, Link.currentHandle?, hcurrent]
  · simp [look, poll_of_no_link hcurrent]

/-- What is seen of a look that takes some bytes: those bytes, and the reports. -/
theorem look_of_took {b : Bridge} {now h : Nat} {bytes : Bytes}
    (htook : b.Took h bytes (b.poll now).1) :
    let s := ({ pending := (b.link.lines h).pending } : Assembly).read bytes
    (b.look now).bytes = bytes ∧
      (b.look now).said = (s.handed.filterMap Inbound.report?).map report := by
  obtain ⟨hwaiting, bench, lines, -, heq⟩ := htook
  constructor
  · rw [look, hwaiting]
    simp
  · rw [look, heq]
    simp

end Bridge

/-- A bridge and what was seen of the looks so far, most recent first. -/
structure Watched where
  /-- The bridge. -/
  bridge : Bridge
  /-- The looks. -/
  looks : List Look := []
  deriving DecidableEq, Repr

namespace Watched

/-- A look for input, or something else that happens. -/
inductive Turn where
  /-- A look at a time. -/
  | look (now : Nat)
  /-- An action, and nothing is read. -/
  | other (a : Bridge.Action) (apart : a.ReadsNothing)

/-- What a turn leads to. -/
def turn (w : Watched) : Turn → Watched
  | .look now =>
    { bridge := (w.bridge.poll now).1, looks := w.bridge.look now :: w.looks }
  | .other a _ => { w with bridge := w.bridge.act a }

/-- What some turns lead to. -/
def run (w : Watched) (turns : List Turn) : Watched :=
  turns.foldl turn w

/-- A new bridge, before the first look. -/
def new (settings : Settings) (bench : Bench) : Watched where
  bridge := .new settings bench

@[simp] theorem run_nil (w : Watched) : w.run [] = w := rfl

@[simp] theorem run_cons (w : Watched) (t : Turn) (turns : List Turn) :
    w.run (t :: turns) = (w.turn t).run turns := rfl

/-- No look seen so far handed over an unfinished line. -/
def Unflushed (w : Watched) : Prop :=
  ∀ look ∈ w.looks, look.flushed = false

/-- All bytes read, in order. -/
def bytesRead (w : Watched) : Bytes :=
  w.looks.reverse.flatMap (·.bytes)

/-- All envelopes the looks published, in order. -/
def said (w : Watched) : List Envelope :=
  w.looks.reverse.flatMap (·.said)

/-- The looks through the handle of a number, in order. -/
def looksAt (w : Watched) (h : Nat) : List Look :=
  w.looks.reverse.filter (·.handle = some h)

/-- The reads through a handle. -/
def readsAt (w : Watched) (h : Nat) : List Bytes :=
  (w.looksAt h).map (·.bytes)

/-- The bytes read through a handle. -/
def readAt (w : Watched) (h : Nat) : Bytes :=
  (w.readsAt h).flatten

/-- The envelopes published by the looks through a handle. -/
def saidAt (w : Watched) (h : Nat) : List Envelope :=
  (w.looksAt h).flatMap (·.said)

/-! ## One handle after another -/

/-- Only the last part of a sequence of parts grows. -/
theorem flatMap_range_of_last {α : Type} {f g : Nat → List α} {n h : Nat} (hlast : h + 1 = n)
    (hsame : ∀ k, k ≠ h → g k = f k) {more : List α} (hmore : g h = f h ++ more) :
    (List.range n).flatMap g = (List.range n).flatMap f ++ more := by
  have hfront : (List.range h).flatMap g = (List.range h).flatMap f :=
    List.flatMap_congr fun k hk => hsame k (Nat.ne_of_lt (List.mem_range.mp hk))
  subst hlast
  simp [List.range_succ, hfront, hmore]

/-- Empty parts at the end add nothing. -/
theorem flatMap_range_of_le {α : Type} {f : Nat → List α} {m n : Nat} (hle : m ≤ n)
    (hnil : ∀ k, m ≤ k → f k = []) : (List.range n).flatMap f = (List.range m).flatMap f := by
  obtain ⟨d, rfl⟩ := Nat.exists_eq_add_of_le hle
  induction d with
  | zero => rfl
  | succ d ih =>
    rw [← Nat.add_assoc, List.range_succ, List.flatMap_append, ih (Nat.le_add_right m d),
      List.flatMap_singleton, hnil _ (Nat.le_add_right m d), List.append_nil]

theorem looksAt_look (w : Watched) (now h : Nat) :
    (w.turn (.look now)).looksAt h =
      w.looksAt h ++ if w.bridge.link.current = some h then [w.bridge.look now] else [] := by
  rw [looksAt, turn, List.reverse_cons, List.filter_append, looksAt]
  by_cases hc : w.bridge.link.current = some h <;> simp [Bridge.look, hc]

theorem looksAt_look_of_current {w : Watched} {now h : Nat}
    (hc : w.bridge.link.current = some h) :
    (w.turn (.look now)).looksAt h = w.looksAt h ++ [w.bridge.look now] := by
  rw [looksAt_look, if_pos hc]

theorem looksAt_look_of_ne {w : Watched} {now h : Nat}
    (hc : w.bridge.link.current ≠ some h) : (w.turn (.look now)).looksAt h = w.looksAt h := by
  rw [looksAt_look, if_neg hc, List.append_nil]

/-- Handles were looked at one after another. -/
structure InTurn (w : Watched) : Prop where
  latest : w.bridge.link.Latest
  /-- Only handles that there are were looked at. -/
  looksAt_eq_nil : ∀ h, w.bridge.link.handles.length ≤ h → w.looksAt h = []
  /-- A look without a link came to nothing. -/
  mute : ∀ look ∈ w.looks, look.handle = none → look.bytes = [] ∧ look.said = []
  order : w.looks.reverse.filter (·.handle.isSome) =
    (List.range w.bridge.link.handles.length).flatMap w.looksAt

theorem inTurn_new (settings : Settings) (bench : Bench) : InTurn (new settings bench) where
  latest := fun _ hh => nomatch hh
  looksAt_eq_nil := fun _ _ => rfl
  mute := fun _ hlook => nomatch hlook
  order := rfl

theorem inTurn_other {w : Watched} (hw : InTurn w) {a : Bridge.Action} (ha : a.ReadsNothing) :
    InTurn (w.turn (.other a ha)) := by
  have hlink : (w.bridge.act a).link.Latest ∧
      w.bridge.link.handles.length ≤ (w.bridge.act a).link.handles.length := by
    rcases w.bridge.link_act_of_readsNothing ha with heq | ⟨step, -, heq⟩ <;> rw [heq]
    · exact ⟨hw.latest, Nat.le_refl _⟩
    · exact Link.latest_step hw.latest step
  obtain ⟨hlatest, hle⟩ := hlink
  constructor
  · exact hlatest
  · exact fun h hh => hw.looksAt_eq_nil h (Nat.le_trans hle hh)
  · exact hw.mute
  · exact hw.order.trans (flatMap_range_of_le hle hw.looksAt_eq_nil).symm

theorem inTurn_look {w : Watched} (hw : InTurn w) (now : Nat) :
    InTurn (w.turn (.look now)) := by
  obtain ⟨hcurrent, hlength⟩ := w.bridge.handles_poll now
  constructor
  · intro h hh
    change h + 1 = (w.bridge.poll now).1.link.handles.length
    rw [hlength]
    exact hw.latest h (hcurrent.symm.trans hh)
  · intro h hh
    change (w.bridge.poll now).1.link.handles.length ≤ h at hh
    rw [hlength] at hh
    rw [looksAt_look_of_ne, hw.looksAt_eq_nil h hh]
    intro hc
    have := hw.latest h hc
    omega
  · intro look hlook hnone
    rcases List.mem_cons.mp hlook with rfl | hlook
    · exact Bridge.look_of_no_link hnone now
    · exact hw.mute look hlook hnone
  · change _ = (List.range (w.bridge.poll now).1.link.handles.length).flatMap _
    rw [hlength]
    cases hc : w.bridge.link.current with
    | none =>
      have hsame : (w.turn (.look now)).looksAt = w.looksAt :=
        funext fun h => looksAt_look_of_ne (by simp [hc])
      rw [hsame, ← hw.order]
      simp [turn, Bridge.look, hc]
    | some h =>
      have hother : ∀ k, k ≠ h → (w.turn (.look now)).looksAt k = w.looksAt k := by
        intro k hk
        refine looksAt_look_of_ne fun hk' => hk ?_
        exact Option.some_inj.mp (hk'.symm.trans hc)
      rw [flatMap_range_of_last (hw.latest h hc) hother (looksAt_look_of_current hc), ← hw.order]
      simp [turn, Bridge.look, hc]

/-- What the looks came to is what those through each handle came to, one handle after
another. -/
theorem InTurn.flatMap_looks {w : Watched} (hw : InTurn w) {α : Type} {f : Look → List α}
    (hf : ∀ look ∈ w.looks, look.handle = none → f look = []) :
    w.looks.reverse.flatMap f =
      (List.range w.bridge.link.handles.length).flatMap fun h => (w.looksAt h).flatMap f := by
  have drop : ∀ looks : List Look, (∀ look ∈ looks, look.handle = none → f look = []) →
      looks.flatMap f = (looks.filter (·.handle.isSome)).flatMap f := by
    intro looks hlooks
    induction looks with
    | nil => rfl
    | cons look looks ih =>
      rw [List.forall_mem_cons] at hlooks
      rw [List.flatMap_cons, ih hlooks.2, List.filter_cons]
      cases hhandle : look.handle with
      | none => simp [hlooks.1 hhandle]
      | some h => simp
  rw [drop _ fun look hlook => hf look (List.mem_reverse.mp hlook), hw.order, List.flatMap_assoc]

theorem InTurn.said_eq {w : Watched} (hw : InTurn w) :
    w.said = (List.range w.bridge.link.handles.length).flatMap w.saidAt :=
  hw.flatMap_looks fun look hlook hnone => (hw.mute look hlook hnone).2

theorem InTurn.bytesRead_eq {w : Watched} (hw : InTurn w) :
    w.bytesRead = (List.range w.bridge.link.handles.length).flatMap w.readAt := by
  refine (hw.flatMap_looks fun look hlook hnone => (hw.mute look hlook hnone).1).trans ?_
  refine List.flatMap_congr fun h _ => ?_
  rw [readAt, readsAt, List.flatMap_def]

/-! ## What was seen of a handle -/

/-- All that was handed over of the reads through the first so many handles. -/
def handedUpTo (w : Watched) (n : Nat) : List Bytes :=
  (List.range n).flatMap fun h => (assemble (w.readsAt h)).handed

/-- What was seen of each handle is the assembly of the reads through it. -/
structure Kept (w : Watched) : Prop where
  inTurn : InTurn w
  pending_eq : ∀ h, (w.bridge.link.lines h).pending = (assemble (w.readsAt h)).pending
  said_eq : ∀ h, w.saidAt h =
    ((assemble (w.readsAt h)).handed.filterMap Inbound.report?).map Bridge.report
  linesRead_eq : w.bridge.link.counters.linesRead =
    UInt64.ofNat (w.handedUpTo w.bridge.link.handles.length).length

theorem kept_new (settings : Settings) (bench : Bench) : Kept (new settings bench) where
  inTurn := inTurn_new settings bench
  pending_eq := fun _ => rfl
  said_eq := fun _ => rfl
  linesRead_eq := rfl

/-- What happens between two looks leaves what was seen as it is, and a handle that is new
has held nothing back. -/
theorem kept_other {w : Watched} (hw : Kept w) {a : Bridge.Action} (ha : a.ReadsNothing) :
    Kept (w.turn (.other a ha)) where
  inTurn := inTurn_other hw.inTurn ha
  pending_eq := by
    intro h
    change ((w.bridge.act a).link.lines h).pending = _
    rcases w.bridge.link_act_of_readsNothing ha with heq | ⟨step, hstep, heq⟩ <;> rw [heq]
    · exact hw.pending_eq h
    · rw [Link.lines_step _ hstep]
      exact hw.pending_eq h
  said_eq := hw.said_eq
  linesRead_eq := by
    change (w.bridge.act a).link.counters.linesRead =
      UInt64.ofNat (w.handedUpTo (w.bridge.act a).link.handles.length).length
    rcases w.bridge.link_act_of_readsNothing ha with heq | ⟨step, hstep, heq⟩ <;> rw [heq]
    · exact hw.linesRead_eq
    · have hle := (Link.latest_step hw.inTurn.latest step).2
      have hsame : w.handedUpTo (w.bridge.link.step step).handles.length =
          w.handedUpTo w.bridge.link.handles.length := by
        refine flatMap_range_of_le hle fun h hh => ?_
        rw [readsAt, hw.inTurn.looksAt_eq_nil h hh]
        rfl
      rw [Link.linesRead_step _ hstep, hsame]
      exact hw.linesRead_eq

/-- The current handle is there, and what it holds back is less than a piece. -/
theorem Kept.current {w : Watched} (hw : Kept w) {h : Nat}
    (hcurrent : w.bridge.link.current = some h) :
    (∃ handle, w.bridge.link.handle? h = some handle) ∧
      lineFeed ∉ (w.bridge.link.lines h).pending ∧
      (w.bridge.link.lines h).pending.length < LineBuffer.maxLength := by
  have hlast := hw.inTurn.latest h hcurrent
  refine ⟨⟨_, List.getElem?_eq_getElem (by omega)⟩, ?_, ?_⟩ <;> rw [hw.pending_eq]
  · exact lineFeed_notMem_pending _
  · exact length_pending_lt _

/-- What a look does that hands over no unfinished line. -/
theorem Kept.took {w : Watched} (hw : Kept w) {h now : Nat}
    (hcurrent : w.bridge.link.current = some h) (hflush : w.bridge.flushes now = false) :
    w.bridge.Took h (w.bridge.link.inputTaken h) (w.bridge.poll now).1 := by
  obtain ⟨⟨handle, hh⟩, hnot, hlt⟩ := hw.current hcurrent
  exact Bridge.poll_eq hcurrent hh hnot hlt hflush

theorem readsAt_look_of_ne {w : Watched} {now h : Nat} (hc : w.bridge.link.current ≠ some h) :
    (w.turn (.look now)).readsAt h = w.readsAt h := by
  rw [readsAt, looksAt_look_of_ne hc, readsAt]

/-- A look without a link is no read. -/
theorem kept_look_of_no_link {w : Watched} (hw : Kept w)
    (hcurrent : w.bridge.link.current = none) (now : Nat) : Kept (w.turn (.look now)) := by
  have hne : ∀ h, w.bridge.link.current ≠ some h := fun h => by simp [hcurrent]
  have hreads : (w.turn (.look now)).readsAt = w.readsAt :=
    funext fun h => readsAt_look_of_ne (hne h)
  have hbridge : (w.turn (.look now)).bridge = w.bridge := Bridge.poll_of_no_link hcurrent now
  constructor
  · exact inTurn_look hw.inTurn now
  · rw [hbridge, hreads]
    exact hw.pending_eq
  · intro h
    rw [saidAt, looksAt_look_of_ne (hne h), hreads]
    exact hw.said_eq h
  · rw [hbridge, handedUpTo, hreads]
    exact hw.linesRead_eq

/-- A look that flushes nothing is one more read through the current handle. -/
theorem kept_look_of_current {w : Watched} (hw : Kept w) {now h : Nat}
    (hcurrent : w.bridge.link.current = some h) (hflush : w.bridge.flushes now = false) :
    Kept (w.turn (.look now)) := by
  obtain ⟨⟨handle, hh⟩, -⟩ := hw.current hcurrent
  have htook := hw.took hcurrent hflush
  generalize w.bridge.link.inputTaken h = bytes at htook
  obtain ⟨hbytes, hsaid⟩ := Bridge.look_of_took htook
  obtain ⟨-, bench, lines, hlines, heq⟩ := htook
  rw [hw.pending_eq] at hlines hsaid heq
  obtain ⟨s, hs⟩ : ∃ s : Assembly,
      s = ({ pending := (assemble (w.readsAt h)).pending } : Assembly).read bytes := ⟨_, rfl⟩
  rw [← hs] at hlines hsaid heq
  have hassembly : assemble ((w.turn (.look now)).readsAt h) =
      ⟨s.pending, (assemble (w.readsAt h)).handed ++ s.handed⟩ := by
    rw [readsAt, looksAt_look_of_current hcurrent, List.map_append, List.map_singleton, hbytes,
      ← readsAt, assemble_concat, hs]
    simp [Assembly.read]
  have hother : ∀ k, k ≠ h → w.bridge.link.current ≠ some k := by
    intro k hk hc
    exact hk (Option.some_inj.mp (hc.symm.trans hcurrent))
  constructor
  · exact inTurn_look hw.inTurn now
  · intro k
    have hsetLines : (w.turn (.look now)).bridge.link.lines k =
        if k = h then lines else w.bridge.link.lines k := by
      rw [turn, heq]
      exact Link.lines_setLines hh lines k
    rw [hsetLines]
    by_cases hk : k = h
    · subst hk
      rw [if_pos rfl, hassembly, hlines]
    · rw [if_neg hk, readsAt_look_of_ne (hother k hk)]
      exact hw.pending_eq k
  · intro k
    by_cases hk : k = h
    · subst hk
      rw [saidAt, looksAt_look_of_current hcurrent, hassembly, List.flatMap_append,
        List.flatMap_singleton, hsaid, List.filterMap_append, List.map_append, ← hw.said_eq,
        saidAt]
    · rw [saidAt, looksAt_look_of_ne (hother k hk), readsAt_look_of_ne (hother k hk)]
      exact hw.said_eq k
  · have hmore : (w.turn (.look now)).handedUpTo w.bridge.link.handles.length =
        w.handedUpTo w.bridge.link.handles.length ++ s.handed := by
      refine flatMap_range_of_last (hw.inTurn.latest h hcurrent) (fun k hk => ?_) ?_
      · rw [readsAt_look_of_ne (hother k hk)]
      · rw [hassembly]
    have hlength : (w.turn (.look now)).bridge.link.handles.length =
        w.bridge.link.handles.length := (w.bridge.handles_poll now).2
    rw [hlength, hmore, List.length_append, UInt64.ofNat_add, ← hw.linesRead_eq, turn, heq]
    rfl

theorem kept_look {w : Watched} (hw : Kept w) {now : Nat}
    (hflush : w.bridge.flushes now = false) : Kept (w.turn (.look now)) := by
  cases hcurrent : w.bridge.link.current with
  | none => exact kept_look_of_no_link hw hcurrent now
  | some h => exact kept_look_of_current hw hcurrent hflush

/-- **What was seen of each handle is the assembly of the reads through it**, in every run in
which no unfinished line was handed over for want of input. -/
theorem kept_run {w : Watched} (hw : Kept w) {turns : List Turn}
    (hquiet : (w.run turns).Unflushed) : Kept (w.run turns) := by
  induction turns using List.reverseRecOn with
  | nil => exact hw
  | append_singleton turns t ih =>
    have hrun : w.run (turns ++ [t]) = (w.run turns).turn t := List.foldl_append
    rw [hrun] at hquiet ⊢
    cases t with
    | look now =>
      have hquiet := List.forall_mem_cons.mp hquiet
      exact kept_look (ih hquiet.2) hquiet.1
    | other a ha => exact kept_other (ih hquiet) ha

/-! ## What was published -/

/-- The bytes of a look are those it takes off the front of what waits. -/
theorem Kept.waiting_eq {w : Watched} (hw : Kept w) {now : Nat}
    (hflush : w.bridge.flushes now = false) :
    w.bridge.waiting = (w.bridge.look now).bytes ++ (w.bridge.poll now).1.waiting := by
  cases hcurrent : w.bridge.link.current with
  | none =>
    rw [(Bridge.look_of_no_link hcurrent now).1, Bridge.poll_of_no_link hcurrent, List.nil_append]
  | some h =>
    have htook := hw.took hcurrent hflush
    rw [(Bridge.look_of_took htook).1]
    exact htook.1

/-- **The reader reports every complete line once, and nothing else.**  Whatever happens
between two looks, and however input is cut into reads, the looks publish, for one handle
after another and in order, the reports among the complete lines of the bytes read through it,
and every line feed read counts one line.  Excepted are runs in which an unfinished line is
handed over because the device is quiet, or a stretch without a line feed fills a piece. -/
theorem reports_are_of_whole_lines (settings : Settings) (bench : Bench) (turns : List Turn)
    (hquiet : ((new settings bench).run turns).Unflushed)
    (hshort : ∀ h stretch, stretch <:+: ((new settings bench).run turns).readAt h →
      lineFeed ∉ stretch → stretch.length < LineBuffer.maxLength) :
    let w := (new settings bench).run turns
    let handles := List.range w.bridge.link.handles.length
    w.said = handles.flatMap (fun h =>
        ((linesOf (w.readAt h)).filterMap Inbound.report?).map Bridge.report) ∧
      w.bytesRead = handles.flatMap w.readAt ∧
      w.bridge.link.counters.linesRead = UInt64.ofNat (w.bytesRead.count lineFeed) ∧
      ∀ now, w.bridge.flushes now = false →
        w.bridge.waiting = (w.bridge.look now).bytes ++ (w.bridge.poll now).1.waiting := by
  intro w handles
  have hw : Kept w := kept_run (kept_new settings bench) hquiet
  have hhanded : ∀ h, (assemble (w.readsAt h)).handed = linesOf (w.readAt h) :=
    fun h => handed_assemble_of_short (hshort h)
  refine ⟨?_, hw.inTurn.bytesRead_eq, ?_, fun now => hw.waiting_eq⟩
  · rw [hw.inTurn.said_eq]
    refine List.flatMap_congr fun h _ => ?_
    rw [hw.said_eq, hhanded]
  · have hcount : (w.handedUpTo w.bridge.link.handles.length).length =
        w.bytesRead.count lineFeed := by
      rw [hw.inTurn.bytesRead_eq, handedUpTo, List.length_flatMap, List.count_flatMap]
      refine congrArg List.sum (List.map_congr_left fun h _ => ?_)
      rw [hhanded]
      exact length_linesOf _
    rw [hw.linesRead_eq, hcount]

/-- A report is cut by the reads, and the port is opened anew within a line. -/
def reopening : List Turn :=
  [.other (.link (.surround (.plug "p" { maxRead := some 3 })) trivial) trivial,
    .other (.link (.openPort ["p"] 0) trivial) trivial,
    .other (.link (.surround (.feed 0 [0x6F, 0x6B, 0x0D, 0x0A, 0x68, 0x61])) trivial) trivial,
    .look 0, .look 0,
    .other (.link (.openPort ["p"] 0) trivial) trivial,
    .other (.link (.surround (.feed 0 [0x6C, 0x66, 0x0A])) trivial) trivial,
    .look 0]

theorem reports_of_reopening :
    ((new {} {}).run reopening).said = [Bridge.report "ok", Bridge.report "lf"] := by
  have hquiet : ((new {} {}).run reopening).Unflushed := by
    simp only [Unflushed]
    decide
  have hread : ∀ h, (((new {} {}).run reopening).readAt h).length < LineBuffer.maxLength := by
    intro h
    match h with
    | 0 => decide
    | 1 => decide
    | h + 2 =>
      have hnone : ((new {} {}).run reopening).readAt (h + 2) = [] := rfl
      rw [hnone]
      decide
  refine (reports_are_of_whole_lines {} {} reopening hquiet fun h stretch hin _ => ?_).1.trans ?_
  · exact Nat.lt_of_le_of_lt hin.length_le (hread h)
  · decide

end Watched

end SerialBridge
