import SerialBridge.Proofs.Delivery
import SerialBridge.Proofs.Noninterference

/-! # Turns and time

A turn, the reader's or anyone else's, is a run of actions (`reaches_turn`), so what every action
preserves every turn does.  A turn that spares an upload is a run of actions that spare it.

Time passes with one kind of turn only, which is to move the clock, and by as much as it says
(`clock_turn`).  Whatever else comes due on the way, and everything that requests bring about, takes
no time.  The exception is time that passes with nobody looking at what comes due; attentive turns
(`Turn.Attentive`) leave it out.
-/

namespace SerialBridge

/-- The deed neither stops an upload nor keeps its device from receiving. -/
def Deed.Spares (id d : Nat) : Deed → Prop
  | .act a _ => a.Spares id d
  | .openPort .. | .close | .reconnect .. | .cancel => False
  | .stop k => k ≠ id
  | .dispatch _ request => request.kind ≠ .stopTransfer ∧ request.kind ≠ .reconnect
  | .write _ | .writeOn .. | .begin .. | .start _ | .advance _ | .connect _ => True

namespace Bridge

/-! ## Turns as runs of actions -/

/-- The bridge after a turn. -/
def turn (b : Bridge) : Turn → Bridge
  | .reading r => b.hear r
  | .deed d => (b.perform d).1

theorem runTurns_cons (b : Bridge) (t : Turn) (turns : List Turn) :
    b.runTurns (t :: turns) = (b.turn t).runTurns turns := by
  cases t <;> rfl

/-- The turn neither stops an upload nor keeps its device from receiving. -/
def Turn.Spares (id d : Nat) : Turn → Prop
  | .reading _ => True
  | .deed what => what.Spares id d

section Reaches

variable {P : Action → Prop}

theorem reaches_deliver (b : Bridge) (lines : List Bytes) (hpublish : ∀ e, P (.publish e))
    (hcount : ∀ n, P (.link (.countLines n) trivial)) : Reaches P b (b.deliver lines) := by
  have told : ∀ (texts : List String) (b : Bridge), Reaches P b (texts.foldl announce b) := by
    intro texts
    induction texts with
    | nil => exact fun b => .refl P b
    | cons text texts ih =>
      intro b
      exact ((Reaches.refl P b).act (hpublish _)).trans (ih _)
  exact (told _ b).act (hcount lines.length)

/-- Reading is taking input, publishing and counting lines. -/
theorem reaches_hear (b : Bridge) (r : Reading)
    (hread : ∀ now h, P (.link (.readLines now h) trivial)) (hpublish : ∀ e, P (.publish e))
    (hcount : ∀ n, P (.link (.countLines n) trivial)) : Reaches P b (b.hear r) := by
  cases r with
  | take now h => exact (Reaches.refl P b).act (hread now h)
  | report text => exact (Reaches.refl P b).act (hpublish _)
  | count n => exact (Reaches.refl P b).act (hcount n)
  | poll now =>
    rw [hear, poll, takeLines]
    cases b.link.current with
    | none => exact .refl P b
    | some h =>
      have hlook := (Reaches.refl P b).act (hread now h)
      change Reaches P b { b with link := (b.link.readLines now h).1 } at hlook
      dsimp only
      revert hlook
      rcases b.link.readLines now h with ⟨link, e | lines⟩ <;> intro hlook
      · exact hlook
      · cases lines with
        | nil => exact hlook
        | cons line lines => exact hlook.trans (reaches_deliver _ _ hpublish hcount)

theorem reaches_connect (b : Bridge) (client : ClientId) (hpublish : ∀ e, P (.publish e)) :
    Reaches P b (b.connect client) :=
  (((Reaches.refl P b).act (hpublish _)).act (hpublish _)).act (hpublish _)

end Reaches

/-- **A turn is a run of actions**, and if the turn spares an upload, so do they. -/
theorem reaches_turn (b : Bridge) (t : Turn) (id d : Nat) :
    Reaches (fun a => t.Spares id d → a.Spares id d) b (b.turn t) := by
  cases t with
  | reading r =>
    exact b.reaches_hear r (fun _ _ _ => trivial) (fun _ _ => trivial) fun _ _ => trivial
  | deed what =>
    have ofTime : ∀ a : Action, a.OfTime → (Turn.deed what).Spares id d → a.Spares id d :=
      fun a ha _ => spares_of_ofTime ha id d
    cases what with
    | act a reads => exact (Reaches.refl _ b).act fun h => h
    | openPort candidates baudRate =>
      exact (Reaches.refl _ b).act (a := .link (.openPort candidates baudRate) trivial) fun h => h
    | close => exact (Reaches.refl _ b).act (a := .link .clear trivial) fun h => h
    | reconnect candidates baudRate =>
      exact ((Reaches.refl _ b).act (a := .link .clear trivial) fun h => h).act
        (a := .link (.openPort candidates baudRate) trivial) fun h => h
    | write frame => exact b.reaches_write frame fun _ _ => trivial
    | writeOn handle frame =>
      exact (Reaches.refl _ b).act (a := .link (.writeOn .line handle frame) trivial)
        fun _ => trivial
    | begin client payload announced =>
      exact (Reaches.refl _ b).act (a := .begin client payload announced) fun _ => trivial
    | start k =>
      refine (b.reaches_start k).mono ?_
      rintro a (rfl | ha)
      · exact fun _ => trivial
      · exact ofTime a ha
    | cancel => exact b.reaches_cancel.mono fun _ _ h => h.elim
    | stop k =>
      have stopped := (Reaches.refl (fun a => (Turn.deed (.stop k)).Spares id d → a.Spares id d)
        b).act (a := .stop k) fun h => h
      exact stopped.trans ((reaches_settle _).mono ofTime)
    | advance ms => exact (b.reaches_advance ms).mono ofTime
    | connect client => exact b.reaches_connect client fun _ _ => trivial
    | dispatch client request =>
      exact (b.reaches_dispatch client request).mono fun a ha hspares =>
        spares_of_serves hspares.1 hspares.2 ha id d

theorem sound_link_turn {b : Bridge} (hb : b.link.Sound) (t : Turn) : (b.turn t).link.Sound := by
  obtain ⟨actions, -, heq⟩ := b.reaches_turn t 0 0
  rw [← heq]
  exact sound_link_run hb actions

theorem sound_link_runTurns {b : Bridge} (hb : b.link.Sound) (turns : List Turn) :
    (b.runTurns turns).link.Sound := by
  induction turns generalizing b with
  | nil => exact hb
  | cons t turns ih =>
    rw [runTurns_cons]
    exact ih (sound_link_turn hb t)

/-! ## How far the clock moves -/

/-- The time that a turn takes. -/
def Turn.elapsed : Turn → Nat
  | .deed (.advance ms) => ms
  | _ => 0

/-- The turn lets no time pass without doing what comes due. -/
def Turn.Attentive : Turn → Prop
  | .deed (.act (.pass _) _) => False
  | _ => True

/-- The time that some turns take. -/
def elapsed : List Turn → Nat
  | [] => 0
  | t :: turns => t.elapsed + elapsed turns

/-- The action lets no time pass. -/
def Action.Timeless : Action → Prop
  | .pass _ => False
  | _ => True

theorem clock_act_of_timeless (b : Bridge) {a : Action} (ha : a.Timeless) :
    (b.act a).clock = b.clock := by
  cases a with
  | link | publish | begin | stop | drop => rfl
  | launch id => exact b.clock_launch id
  | proceed => exact b.clock_proceed
  | pass ms => exact ha.elim

theorem clock_of_reaches {b b' : Bridge} (h : Reaches Action.Timeless b b') :
    b'.clock = b.clock := by
  obtain ⟨actions, htimeless, rfl⟩ := h
  exact run_preserves (P := fun b' => b'.clock = b.clock)
    (fun b' a ha hb' => (b'.clock_act_of_timeless ha).trans hb') rfl htimeless

theorem clock_le_run (b : Bridge) (actions : List Action) : b.clock ≤ (b.run actions).clock :=
  run_keeps (P := fun b' => b.clock ≤ b'.clock)
    (fun b' a hb' => Nat.le_trans hb' (b'.clock_le_act a).1) (Nat.le_refl _) actions

/-- Doing what is due now takes no time. -/
theorem clock_settle (b : Bridge) : b.settle.clock = b.clock := by
  obtain ⟨actions, -, heq⟩ := b.reaches_settle
  have hle : b.settle.clock ≤ b.clock := (reaches_workFor _ (Nat.le_refl _)).2
  have hge := b.clock_le_run actions
  rw [heq] at hge
  omega

theorem clock_start (b : Bridge) (id : Nat) : (b.start id).clock = b.clock := by
  rw [start, clock_settle, clock_launch]

theorem clock_sendText (b : Bridge) (client : ClientId) (filename : Option String)
    (data : String) : (b.sendText client filename data).clock = b.clock := by
  have hbegin : (b.begin client (Utf8.encode data) true).1.clock = b.clock := rfl
  rw [sendText]
  split
  · rfl
  · split <;> rename_i heq <;> rw [heq] at hbegin
    · exact hbegin
    · exact hbegin
    · exact hbegin
    · exact (clock_start _ _).trans hbegin

theorem clock_stopUpload (b : Bridge) (client : ClientId) :
    (b.stopUpload client).clock = b.clock := by
  rw [stopUpload]
  split
  · exact clock_settle _
  · rfl

theorem clock_dispatch (b : Bridge) (client : ClientId) (request : Request) :
    (b.dispatch client request).clock = b.clock := by
  cases request with
  | sendCommand data =>
    exact clock_of_reaches (b.reaches_sendLine client (fun _ => trivial) fun _ => trivial)
  | sendBulk filename data => exact b.clock_sendText client filename data
  | stopTransfer => exact b.clock_stopUpload client
  | reconnect => rfl

/-- **The clock moves by the time that a turn takes.** -/
theorem clock_turn (b : Bridge) {t : Turn} (ht : t.Attentive) :
    (b.turn t).clock = b.clock + t.elapsed := by
  cases t with
  | reading r =>
    exact clock_of_reaches (b.reaches_hear r (fun _ _ => trivial) (fun _ => trivial)
      fun _ => trivial)
  | deed what =>
    cases what with
    | act a reads =>
      cases a with
      | pass ms => exact ht.elim
      | link | publish | begin | launch | proceed | stop | drop =>
        exact b.clock_act_of_timeless trivial
    | openPort | close | reconnect | write | writeOn | begin | advance | connect => rfl
    | start id => exact b.clock_start id
    | cancel => exact clock_settle _
    | stop id => exact clock_settle _
    | dispatch client request => exact b.clock_dispatch client request

end Bridge

end SerialBridge
