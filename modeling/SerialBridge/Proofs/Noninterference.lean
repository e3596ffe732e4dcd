import SerialBridge.Proofs.Deafness
import SerialBridge.Proofs.Reports
import SerialBridge.Proofs.Wire

/-! # The reader disturbs nobody

Whatever is done to a bridge is a piece of reading (`Reading`) or something that reads nothing
(`Deed`).  A reader looks for input, through the current handle or through one that has long been
discarded, reports what it finds and counts it, and others may get their turns between any two of
its pieces; deeds are everything else, what the surroundings do included.

Of a deed one can see its answer, the envelopes it published and how the bridge looks from outside
afterwards (`Sight`).  Two runs with the same deeds in the same order show the same sights, wherever
the reading takes place, and whatever there is to be read (`reading_disturbs_nobody`).

What the reader leaves behind is left out on both sides (`Bridge.quiet`).  No reading changes what
is left then (`quiet_hear`), and no deed depends on more than that (`quiet_perform`).
-/

namespace SerialBridge

/-- A piece of what a reader does. -/
inductive Reading where
  /-- It looks for input once, at a time. -/
  | poll (now : Nat)
  /-- It takes input through a handle, current or not. -/
  | take (now handle : Nat)
  /-- It reports a line. -/
  | report (text : String)
  /-- It counts lines. -/
  | count (n : Nat)
  deriving DecidableEq, Repr

/-- Something that is done to a bridge and reads nothing. -/
inductive Deed where
  /-- An action of the surroundings, or a step of one of the deeds below. -/
  | act (a : Bridge.Action) (reads : a.ReadsNothing)
  /-- A link is opened. -/
  | openPort (candidates : List String) (baudRate : UInt32)
  /-- The link is closed. -/
  | close
  /-- The link is closed and opened again. -/
  | reconnect (candidates : List String) (baudRate : UInt32)
  /-- A frame is written to the current link. -/
  | write (frame : Frame)
  /-- A frame is written through a handle, current or not. -/
  | writeOn (handle : Nat) (frame : Frame)
  /-- A client claims the engine for a payload. -/
  | begin (client : ClientId) (payload : Bytes) (announced : Bool)
  /-- An upload is started. -/
  | start (id : Nat)
  /-- Whatever upload is under way is to stop. -/
  | cancel
  /-- An upload is asked to stop. -/
  | stop (id : Nat)
  /-- Time passes, and what comes due is done. -/
  | advance (ms : Nat)
  /-- A client is greeted. -/
  | connect (client : ClientId)
  /-- A request is dealt with. -/
  | dispatch (client : ClientId) (request : Request)
  deriving DecidableEq, Repr

/-- What a deed answers. -/
inductive Answer where
  /-- Nothing. -/
  | none
  /-- Whether a link could be opened, and where. -/
  | opened (result : Except LinkError String)
  /-- Whether a frame went out whole. -/
  | written (result : Except LinkError Unit)
  /-- The upload that was begun, if one was. -/
  | begun (result : Except TransferError (Option Upload))
  /-- Whether an upload was asked to stop. -/
  | asked (found : Bool)

/-- How a bridge looks to those who do not read. -/
structure View where
  /-- How the link stands. -/
  status : LinkStatus
  /-- Total of frames written. -/
  framesWritten : UInt64
  /-- Total of bytes written. -/
  bytesWritten : UInt64
  /-- The bytes that each device took. -/
  received : Nat → Bytes
  /-- The attempts to open a port. -/
  attempts : List Attempt
  /-- What is told of the upload under way. -/
  progress : Option Progress
  /-- How uploads ended. -/
  ended : List (Nat × Outcome)

/-- What can be seen of a deed. -/
structure Sight where
  /-- Its answer. -/
  answer : Answer
  /-- The envelopes it published, in order. -/
  told : List Envelope
  /-- How the bridge looks afterwards. -/
  view : View

namespace Bridge

/-- The bridge after a piece of reading. -/
def hear (b : Bridge) : Reading → Bridge
  | .poll now => (b.poll now).1
  | .take now handle => { b with link := (b.link.readLines now handle).1 }
  | .report text => b.announce text
  | .count n => { b with link := b.link.countLines n }

/-- The bridge after a deed, and what the deed answers. -/
def perform (b : Bridge) : Deed → Bridge × Answer
  | .act a _ => (b.act a, .none)
  | .openPort candidates baudRate =>
    let (link, result) := b.link.openPort candidates baudRate
    ({ b with link }, .opened result)
  | .close => ({ b with link := b.link.close }, .none)
  | .reconnect candidates baudRate =>
    let (link, result) := b.link.reconnect candidates baudRate
    ({ b with link }, .opened result)
  | .write frame =>
    let (link, result) := b.link.write frame
    ({ b with link }, .written result)
  | .writeOn handle frame =>
    let (link, result) := b.link.writeOn .line handle frame
    ({ b with link }, .written result)
  | .begin client payload announced =>
    let (b, result) := b.begin client payload announced
    (b, .begun result)
  | .start id => (b.start id, .none)
  | .cancel =>
    let (b, found) := b.cancel
    (b, .asked found)
  | .stop id => (b.stop id, .none)
  | .advance ms => (b.advance ms, .none)
  | .connect client => (b.connect client, .none)
  | .dispatch client request => (b.dispatch client request, .none)

/-- How the bridge looks. -/
def view (b : Bridge) : View where
  status := b.link.status
  framesWritten := b.link.counters.framesWritten
  bytesWritten := b.link.counters.bytesWritten
  received := b.link.receivedBy
  attempts := b.link.attempts
  progress := b.engine.progress?
  ended := b.engine.ended

/-- What can be seen of a deed. -/
def sight (b : Bridge) (d : Deed) : Sight where
  answer := (b.perform d).2
  told := b.toldSince (b.perform d).1
  view := (b.perform d).1.view

/-! ## Nothing depends on what was read -/

/-- The bridge as if nothing had been read and nothing published. -/
def quiet (b : Bridge) : Bridge :=
  { b with link := b.link.deaf, published := [] }

theorem quiet_deafAfter (b : Bridge) (earlier : List Envelope) :
    (b.deafAfter earlier).quiet = b.quiet := by
  rw [deafAfter, quiet, Link.deaf_deaf, quiet]

theorem deafAfter_quiet (b : Bridge) : b.quiet.deafAfter b.published = b.deafAfter [] := by
  rw [quiet, deafAfter, Link.deaf_deaf, List.nil_append, deafAfter, List.append_nil]

theorem view_quiet (b : Bridge) : b.quiet.view = b.view := by
  have hstatus : b.quiet.link.status = b.link.status := b.link.status_deaf
  rw [view, hstatus]
  rfl

theorem quiet_deliver (b : Bridge) (lines : List Bytes) : (b.deliver lines).quiet = b.quiet := by
  rw [deliver_eq]
  rfl

/-- No piece of reading changes anything else. -/
theorem quiet_hear (b : Bridge) (r : Reading) : (b.hear r).quiet = b.quiet := by
  have ofLink : ∀ {link : Link}, link.deaf = b.link.deaf → { b with link }.quiet = b.quiet := by
    intro link hlink
    rw [quiet, hlink]
    rfl
  cases r with
  | take now h => exact ofLink (b.link.deaf_readLines now h)
  | report | count => rfl
  | poll now =>
    rw [hear, poll, takeLines]
    cases b.link.current with
    | none => rfl
    | some h =>
      have hread := b.link.deaf_readLines now h
      dsimp only
      revert hread
      rcases b.link.readLines now h with ⟨link, e | lines⟩ <;> intro hread
      · exact ofLink hread
      · cases lines with
        | nil => exact ofLink hread
        | cons line lines => exact (quiet_deliver { b with link } _).trans (ofLink hread)

/-- A deed goes on from a deaf link as from any other, and comes to the same answer. -/
theorem deafAfter_perform (b : Bridge) (earlier : List Envelope) (d : Deed) :
    ((b.deafAfter earlier).perform d).1.deafAfter [] = (b.perform d).1.deafAfter earlier ∧
      ((b.deafAfter earlier).perform d).2 = (b.perform d).2 := by
  have twice : ∀ {b' after : Bridge}, b' = after.deafAfter earlier →
      b'.deafAfter [] = after.deafAfter earlier := by
    rintro _ after rfl
    rw [deafAfter, deafAfter, Link.deaf_deaf, List.append_nil]
  cases d with
  | act a reads =>
    refine ⟨?_, rfl⟩
    cases a with
    | link step others =>
      have hlink := b.link.deaf_step step
      simp only [perform, act, deafAfter, ← hlink, List.append_nil]
    | publish | begin | stop | drop | pass => exact twice rfl
    | launch id => exact twice (b.deafAfter_launch earlier id).symm
    | proceed => exact twice (b.deafAfter_proceed earlier).symm
  | openPort candidates baudRate =>
    have hlink : (b.deafAfter earlier).link.openPort candidates baudRate = _ :=
      b.link.deaf_openPort candidates baudRate
    rw [perform, hlink]
    exact ⟨twice rfl, rfl⟩
  | close =>
    have hlink : (b.deafAfter earlier).link.close = b.link.close.deaf := b.link.deaf_clear.symm
    rw [perform, hlink]
    exact ⟨twice rfl, rfl⟩
  | reconnect candidates baudRate =>
    have hlink : (b.deafAfter earlier).link.reconnect candidates baudRate = _ :=
      b.link.deaf_reconnect candidates baudRate
    rw [perform, hlink]
    exact ⟨twice rfl, rfl⟩
  | write frame =>
    have hlink : (b.deafAfter earlier).link.write frame = _ := b.link.deaf_write frame
    rw [perform, hlink]
    exact ⟨twice rfl, rfl⟩
  | writeOn handle frame =>
    have hlink : (b.deafAfter earlier).link.writeOn .line handle frame = _ :=
      b.link.deaf_writeOn .line handle frame
    rw [perform, hlink]
    exact ⟨twice rfl, rfl⟩
  | begin client payload announced => exact ⟨twice rfl, rfl⟩
  | start id => exact ⟨twice (b.deafAfter_start earlier id).symm, rfl⟩
  | cancel =>
    rw [perform, deafAfter_cancel]
    exact ⟨twice rfl, rfl⟩
  | stop id => exact ⟨twice (b.deafAfter_stop earlier id).symm, rfl⟩
  | advance ms => exact ⟨twice (b.deafAfter_advance earlier ms).symm, rfl⟩
  | connect client => exact ⟨twice (b.deafAfter_connect earlier client).symm, rfl⟩
  | dispatch client request =>
    exact ⟨twice (b.deafAfter_dispatch earlier client request).symm, rfl⟩

/-- **A deed depends on nothing that was read or published**: done to the quiet bridge it answers
the same, publishes the same on top, and leads to the same. -/
theorem perform_quiet (b : Bridge) (d : Deed) :
    (b.perform d).1.deafAfter [] = (b.quiet.perform d).1.deafAfter b.published ∧
      (b.perform d).2 = (b.quiet.perform d).2 := by
  -- both are compared with the deaf bridge after which nothing else was published
  obtain ⟨hstate, hanswer⟩ := b.deafAfter_perform [] d
  obtain ⟨hstate', hanswer'⟩ := b.quiet.deafAfter_perform b.published d
  rw [deafAfter_quiet] at hstate' hanswer'
  exact ⟨hstate.symm.trans hstate', hanswer.symm.trans hanswer'⟩

theorem quiet_perform (b : Bridge) (d : Deed) :
    (b.perform d).1.quiet = (b.quiet.perform d).1.quiet := by
  rw [← quiet_deafAfter _ [], (b.perform_quiet d).1, quiet_deafAfter]

theorem sight_quiet (b : Bridge) (d : Deed) : b.sight d = b.quiet.sight d := by
  obtain ⟨hstate, hanswer⟩ := b.perform_quiet d
  have hview : (b.perform d).1.view = (b.quiet.perform d).1.view := by
    rw [← view_quiet, quiet_perform, view_quiet]
  have htold : b.toldSince (b.perform d).1 = b.quiet.toldSince (b.quiet.perform d).1 := by
    have hpublished : (b.perform d).1.published =
        (b.quiet.perform d).1.published ++ b.published := by
      rw [← List.append_nil (b.perform d).1.published]
      exact congrArg published hstate
    have hquiet : (b.quiet.perform d).1.published =
        (b.quiet.perform d).1.published ++ b.quiet.published := (List.append_nil _).symm
    rw [toldSince_of_published hpublished, toldSince_of_published hquiet]
  rw [sight, sight, hanswer, htold, hview]

/-! ## Runs -/

/-- Something that is done to a bridge, by the reader or by others. -/
inductive Turn where
  /-- The reader does something. -/
  | reading (r : Reading)
  /-- Someone else does something. -/
  | deed (d : Deed)
  deriving DecidableEq, Repr

/-- The turn is not the reader's. -/
def Turn.isDeed : Turn → Bool
  | .reading _ => false
  | .deed _ => true

/-- The bridge after some turns. -/
def runTurns (b : Bridge) : List Turn → Bridge
  | [] => b
  | .reading r :: turns => (b.hear r).runTurns turns
  | .deed d :: turns => (b.perform d).1.runTurns turns

/-- What is seen of the deeds of some turns, in order. -/
def sights (b : Bridge) : List Turn → List Sight
  | [] => []
  | .reading r :: turns => (b.hear r).sights turns
  | .deed d :: turns => b.sight d :: (b.perform d).1.sights turns

/-- Without the reader's turns a run shows the same and leads to the same, but for what was read. -/
theorem filter_isDeed {b b' : Bridge} (h : b.quiet = b'.quiet) (turns : List Turn) :
    b.sights turns = b'.sights (turns.filter Turn.isDeed) ∧
      (b.runTurns turns).quiet = (b'.runTurns (turns.filter Turn.isDeed)).quiet := by
  induction turns generalizing b b' with
  | nil => exact ⟨rfl, h⟩
  | cons t turns ih =>
    cases t with
    | reading r => exact ih ((b.quiet_hear r).trans h)
    | deed d =>
      have hnext : (b.perform d).1.quiet = (b'.perform d).1.quiet := by
        rw [quiet_perform, h, ← quiet_perform]
      have hsight : b.sight d = b'.sight d := by
        rw [sight_quiet, h, ← sight_quiet]
      obtain ⟨hsights, hlater⟩ := ih hnext
      exact ⟨congrArg₂ List.cons hsight hsights, hlater⟩

/-- **The reader disturbs nobody.**  Two runs from one state that differ only in what the reader
does, and when, show the same answers, the same envelopes of others and the same view after every
deed, and end with the same view. -/
theorem reading_disturbs_nobody (b : Bridge) (turns turns' : List Turn)
    (h : turns.filter Turn.isDeed = turns'.filter Turn.isDeed) :
    b.sights turns = b.sights turns' ∧ (b.runTurns turns).view = (b.runTurns turns').view := by
  obtain ⟨hsights, hquiet⟩ := b.filter_isDeed rfl turns
  obtain ⟨hsights', hquiet'⟩ := b.filter_isDeed rfl turns'
  rw [← h] at hsights' hquiet'
  refine ⟨hsights.trans hsights'.symm, ?_⟩
  rw [← view_quiet, hquiet, ← hquiet', view_quiet]

/-- A device is opened and sends a line, and a client's line goes out and is answered. -/
def conversation : List Deed :=
  [.act (.link (.surround (.plug "p" {})) trivial) trivial,
    .openPort ["p"] 0,
    .act (.link (.surround (.feed 0 [0x6F, 0x6B, lineFeed])) trivial) trivial,
    .dispatch ⟨0⟩ (.sendCommand "hello")]

/-- One run has the line of the device reported before the client's line goes out, the other has no
reader.  Nobody can tell but those who read the report. -/
theorem conversation_is_undisturbed :
    let heard : List Turn := (conversation.take 3).map .deed ++
      [.reading (.poll 0), .reading (.take 1 5)] ++ (conversation.drop 3).map .deed
    let b := new {} {}
    heard.filter Turn.isDeed = (conversation.map Turn.deed).filter Turn.isDeed ∧
      (b.runTurns heard).published ≠ (b.runTurns (conversation.map .deed)).published ∧
      b.sights heard = b.sights (conversation.map .deed) := by
  intro heard b
  have hdeeds : heard.filter Turn.isDeed = (conversation.map Turn.deed).filter Turn.isDeed := rfl
  exact ⟨hdeeds, by decide, (reading_disturbs_nobody b heard (conversation.map .deed) hdeeds).1⟩

end Bridge

end SerialBridge
