import SerialBridge.Client
import SerialBridge.Error
import SerialBridge.Plan

/-! # Uploads

The engine carries at most one upload at a time.  `Engine.begin` claims it for a
payload and refuses while it is claimed; from then on the upload has a number of
its own, which later requests name, so that nothing meant for one upload ever
touches another.  An upload that has been started runs over one handle of the
link and waits until its next frame is due.

The engine only keeps books.  What writes the frames and moves the clock is the
bridge (`Bridge.work`).
-/

namespace SerialBridge

/-- How an upload ended. -/
inductive Outcome where
  /-- There was nothing to send. -/
  | skipped
  /-- Every frame went out. -/
  | completed (bytesSent frames : Nat)
  /-- It was stopped; the device holds a part. -/
  | cancelled (bytesSent frames : Nat)
  /-- The link failed. -/
  | failed (reason : LinkError) (bytesSent frames : Nat)
  deriving DecidableEq, Repr

/-- How far an upload has come. -/
inductive Stage where
  /-- It holds the engine and has not been started. -/
  | claimed
  /-- It runs over a handle, and its next frame is due at a time. -/
  | running (handle due : Nat)
  deriving DecidableEq, Repr

/-- An upload that holds the engine. -/
structure Upload where
  /-- Its number. -/
  id : Nat
  /-- The client it is for. -/
  client : ClientId
  /-- Its frames. -/
  plan : Plan
  /-- Whether its client is told how it ends. -/
  announced : Bool
  /-- Whether it has been asked to stop. -/
  stopped : Bool := false
  /-- The frames not yet written, in order. -/
  pending : List Frame := plan.frames
  /-- Frames written so far. -/
  framesSent : Nat := 0
  /-- Payload bytes written so far. -/
  bytesSent : Nat := 0
  /-- How far it has come. -/
  stage : Stage := .claimed
  deriving DecidableEq, Repr

/-- What is told about the upload under way. -/
structure Progress where
  /-- The client it is for. -/
  client : ClientId
  /-- How its frames go out. -/
  strategy : Strategy
  /-- Payload bytes of all its frames. -/
  totalBytes : Nat
  /-- Number of its frames. -/
  totalFrames : Nat
  /-- Payload bytes written so far. -/
  bytesSent : Nat
  /-- Frames written so far. -/
  framesSent : Nat
  deriving DecidableEq, Repr

namespace Upload

/-- What is told about the upload. -/
def progress (u : Upload) : Progress where
  client := u.client
  strategy := u.plan.strategy
  totalBytes := u.plan.payloadLength
  totalFrames := u.plan.frames.length
  bytesSent := u.bytesSent
  framesSent := u.framesSent

/-- The upload after one more frame, with the rest of them and the time the next one
is due. -/
def advance (u : Upload) (frame : Frame) (rest : List Frame) (handle due : Nat) : Upload :=
  { u with
    pending := rest
    framesSent := u.framesSent + 1
    bytesSent := u.bytesSent + frame.payloadLength
    stage := .running handle due }

/-- When the upload next has something to do: at once if it is to stop, else when
its next frame is due, and never before it is started. -/
def due? (u : Upload) : Option Nat :=
  match u.stage with
  | .claimed => none
  | .running _ due => some (if u.stopped then 0 else due)

end Upload

/-- The books of the uploads. -/
structure Engine where
  /-- How uploads are cut and paced. -/
  settings : TransferSettings := {}
  /-- The upload that holds the engine. -/
  active : Option Upload := none
  /-- The number of the next upload. -/
  nextId : Nat := 1
  /-- Uploads that ran to an end, by number, most recent first. -/
  ended : List (Nat × Outcome) := []
  deriving DecidableEq, Repr

namespace Engine

/-- Whether an upload holds the engine. -/
def isActive (e : Engine) : Bool :=
  e.active.isSome

/-- What is told about the upload under way. -/
def progress? (e : Engine) : Option Progress :=
  e.active.map Upload.progress

/-- Claims the engine for a payload whose plan can be made.  An empty payload needs no
upload. -/
def begin (e : Engine) (client : ClientId) (payload : Bytes) (announced : Bool) :
    Engine × Except TransferError (Option Upload) :=
  if payload.isEmpty then (e, .ok none)
  else
    match e.active with
    | some _ => (e, .error .busy)
    | none =>
      let u : Upload := { id := e.nextId, client, plan := .build payload e.settings, announced }
      ({ e with active := some u, nextId := e.nextId + 1 }, .ok (some u))

/-- Claims the engine for a payload.  A plan is made if there is something to send and
the engine is free; where making it breaks down, the engine stays as it was. -/
def begin? (e : Engine) (client : ClientId) (payload : Bytes) (announced : Bool) :
    Option (Engine × Except TransferError (Option Upload)) :=
  if payload.isEmpty || e.isActive then some (e.begin client payload announced)
  else (Plan.build? payload e.settings).map fun _ => e.begin client payload announced

/-- Changes the upload of a number, if it holds the engine. -/
def modify (e : Engine) (id : Nat) (f : Upload → Upload) : Engine :=
  { e with active := e.active.map fun u => if u.id = id then f u else u }

/-- Asks the upload of a number to stop, if it holds the engine. -/
def stop (e : Engine) (id : Nat) : Engine :=
  e.modify id fun u => { u with stopped := true }

/-- Asks the upload under way to stop, and tells whether there is one. -/
def cancel (e : Engine) : Engine × Bool :=
  match e.active with
  | some u => (e.stop u.id, true)
  | none => (e, false)

/-- Frees the engine, if the upload of a number holds it. -/
def release (e : Engine) (id : Nat) : Engine :=
  { e with active := e.active.filter (·.id != id) }

/-- Gives up an upload that has not been started. -/
def drop (e : Engine) (id : Nat) : Engine :=
  if e.active.any fun u => u.id == id && u.stage == .claimed then e.release id else e

/-- Frees the engine of an upload that has come to an end. -/
def finish (e : Engine) (id : Nat) (outcome : Outcome) : Engine :=
  { e.release id with ended := (id, outcome) :: e.ended }

end Engine

end SerialBridge
