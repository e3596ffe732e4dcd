import SerialBridge.Bridge
import SerialBridge.Proofs.LinkRuns

/-! # What happens to a bridge

Whatever happens to a bridge falls apart into actions.  An action is one step of the link,
taken for a client, by the reader or by the surroundings, or it is one thing done to the
uploads: the engine is claimed, an upload is set running, the upload that runs does what is
due next, an upload is asked to stop or given up, or time passes.  Between two frames of an
upload anything can happen, even when the second one is due at once.

The functions of a bridge are runs of actions: `reaches_start`, `reaches_advance`,
`reaches_cancel` and `reaches_dispatch` say so of those that drive uploads.  What holds after
every run of actions holds whenever the functions are called in any order, and also in
between.
-/

namespace SerialBridge

/-- The step is not a write on behalf of an upload. -/
def Link.Step.ForOthers : Link.Step → Prop
  | .writeOn (.upload _) .. => False
  | _ => True

/-- How the books change at once. -/
inductive Engine.Change (e : Engine) : Engine → Prop where
  /-- They stay. -/
  | same : Change e e
  /-- A new upload claims the engine. -/
  | begun (u : Upload) (free : e.active = none) (fresh : u.id = e.nextId) :
    Change e { e with active := some u, nextId := e.nextId + 1 }
  /-- The upload that holds the engine goes on. -/
  | went (u v : Upload) (held : e.active = some u) (hid : v.id = u.id) (hplan : v.plan = u.plan) :
    Change e { e with active := some v }
  /-- The upload that holds the engine is given up. -/
  | dropped (u : Upload) (held : e.active = some u) : Change e { e with active := none }
  /-- The upload that holds the engine ends. -/
  | ended (u : Upload) (held : e.active = some u) (outcome : Outcome) :
    Change e { e with active := none, ended := (u.id, outcome) :: e.ended }

namespace Bridge

/-- What can happen to a bridge at once. -/
inductive Action where
  /-- Something happens to the link, on behalf of no upload. -/
  | link (step : Link.Step) (others : step.ForOthers)
  /-- An envelope is published. -/
  | publish (e : Envelope)
  /-- A client claims the engine for a payload. -/
  | begin (client : ClientId) (payload : Bytes) (announced : Bool)
  /-- An upload is set running. -/
  | launch (id : Nat)
  /-- The upload that runs does what is due. -/
  | proceed
  /-- An upload is asked to stop. -/
  | stop (id : Nat)
  /-- An upload that has not been started is given up. -/
  | drop (id : Nat)
  /-- Time passes. -/
  | pass (ms : Nat)
  deriving DecidableEq, Repr

/-- Does the next thing of the upload that runs, if it is due. -/
def proceed (b : Bridge) : Bridge :=
  match b.running? with
  | none => b
  | some (u, handle, due) => if due ≤ b.clock then b.stepUpload u handle else b

/-- The bridge after an action. -/
def act (b : Bridge) : Action → Bridge
  | .link step _ => { b with link := b.link.step step }
  | .publish e => b.publish e
  | .begin client payload announced => (b.begin client payload announced).1
  | .launch id => b.launch id
  | .proceed => b.proceed
  | .stop id => { b with engine := b.engine.stop id }
  | .drop id => b.drop id
  | .pass ms => { b with clock := b.clock + ms }

/-- The bridge after some actions. -/
def run (b : Bridge) (actions : List Action) : Bridge :=
  actions.foldl act b

@[simp] theorem run_nil (b : Bridge) : b.run [] = b := rfl

@[simp] theorem run_cons (b : Bridge) (a : Action) (actions : List Action) :
    b.run (a :: actions) = (b.act a).run actions := rfl

theorem run_append (b : Bridge) (first later : List Action) :
    b.run (first ++ later) = (b.run first).run later :=
  List.foldl_append

/-- What every one of some actions preserves, their run preserves. -/
theorem run_preserves {P : Bridge → Prop} {Q : Action → Prop}
    (hact : ∀ b a, Q a → P b → P (b.act a)) {b : Bridge} (hb : P b) {actions : List Action}
    (h : ∀ a ∈ actions, Q a) : P (b.run actions) := by
  induction actions generalizing b with
  | nil => exact hb
  | cons a actions ih =>
    rw [List.forall_mem_cons] at h
    exact ih (hact b a h.1 hb) h.2

/-- What every action preserves, every run preserves. -/
theorem run_keeps {P : Bridge → Prop} (hact : ∀ b a, P b → P (b.act a)) {b : Bridge} (hb : P b)
    (actions : List Action) : P (b.run actions) :=
  run_preserves (Q := fun _ => True) (fun b a _ => hact b a) hb fun _ _ => trivial

/-! ## What is published -/

/-- The envelopes published since an earlier state, in order. -/
def toldSince (before after : Bridge) : List Envelope :=
  (after.published.take (after.published.length - before.published.length)).reverse

theorem toldSince_of_published {before after : Bridge} {new : List Envelope}
    (h : after.published = new ++ before.published) : before.toldSince after = new.reverse := by
  rw [toldSince, h, List.length_append, Nat.add_sub_cancel, List.take_left]

theorem published_foldl_publish (b : Bridge) (envelopes : List Envelope) :
    (envelopes.foldl publish b).published = envelopes.reverse ++ b.published := by
  induction envelopes generalizing b with
  | nil => rfl
  | cons e envelopes ih =>
    rw [List.foldl_cons, ih, List.reverse_cons, List.append_assoc]
    rfl

/-- Where nothing was published before, what is published is all that is told. -/
theorem toldSince_foldl_publish {before b : Bridge} (h : b.published = before.published)
    (envelopes : List Envelope) : before.toldSince (envelopes.foldl publish b) = envelopes := by
  have hpublished := b.published_foldl_publish envelopes
  rw [h] at hpublished
  rw [toldSince_of_published hpublished, List.reverse_reverse]

/-! ## Ending, setting running, and going on -/

/-- Ending an upload frees the engine and may tell its client; nothing else changes. -/
theorem endUpload_eq (b : Bridge) (u : Upload) (outcome : Outcome) :
    ∃ published, b.endUpload u outcome =
      { b with engine := b.engine.finish u.id outcome, published } := by
  rw [endUpload]
  split
  · exact ⟨_, rfl⟩
  · exact ⟨b.published, rfl⟩

theorem tell_eq (b : Bridge) (client : ClientId) (texts : List String) :
    ∃ published, texts.foldl (·.tell client) b = { b with published } := by
  induction texts generalizing b with
  | nil => exact ⟨b.published, rfl⟩
  | cons text texts ih =>
    obtain ⟨published, heq⟩ := ih (b.tell client text)
    exact ⟨published, heq⟩

/-- The engine is free after the upload that holds it has ended. -/
theorem finish_of_active {e : Engine} {u : Upload} (h : e.active = some u) (outcome : Outcome) :
    e.finish u.id outcome = { e with active := none, ended := (u.id, outcome) :: e.ended } := by
  rw [Engine.finish, Engine.release, h, Option.filter_some, bne_self_eq_false]
  rfl

theorem modify_of_active {e : Engine} {u : Upload} (h : e.active = some u) (v : Upload) :
    e.modify u.id (fun _ => v) = { e with active := some v } := by
  rw [Engine.modify, h, Option.map_some, if_pos rfl]

/-- Setting an upload running changes nothing unless the upload holds the engine and has not
been started; then it runs over the current handle, or fails without one. -/
theorem launch_cases (b : Bridge) (id : Nat) :
    (b.launch id = b ∧ ∀ u, b.engine.active = some u → u.id = id → u.stage ≠ .claimed) ∨
    ∃ u published, b.engine.active = some u ∧ u.id = id ∧ u.stage = .claimed ∧
      ((b.link.current = none ∧ b.launch id =
          { b with engine := b.engine.finish id (.failed .closed 0 0), published }) ∨
        ∃ h, b.link.current = some h ∧ b.launch id =
          { b with
            engine := { b.engine with active := some { u with stage := .running h b.clock } }
            published }) := by
  rw [launch]
  cases hactive : b.engine.active with
  | none => exact .inl ⟨rfl, fun u hu => nomatch hu⟩
  | some u =>
    rw [Option.filter_some]
    split
    · rename_i hfilter
      refine .inl ⟨rfl, fun v hv hid hstage => ?_⟩
      cases hv
      simp [hid, hstage] at hfilter
    · rename_i v hfilter
      obtain ⟨hmatch, rfl⟩ : (u.id == id && u.stage == .claimed) = true ∧ u = v := by
        simpa using hfilter
      rw [Bool.and_eq_true, beq_iff_eq, beq_iff_eq] at hmatch
      obtain ⟨hid, hstage⟩ := hmatch
      obtain ⟨published, htell⟩ := tell_eq b u.client (startTexts b.engine.settings u.plan)
      dsimp only
      rw [htell]
      cases hcurrent : b.link.current with
      | none =>
        obtain ⟨published', heq⟩ :=
          endUpload_eq { b with published } u (.failed .closed 0 0)
        refine .inr ⟨u, published', rfl, hid, hstage, .inl ⟨rfl, ?_⟩⟩
        rw [← hid]
        exact heq
      | some h =>
        refine .inr ⟨u, published, rfl, hid, hstage, .inr ⟨h, rfl, ?_⟩⟩
        dsimp only
        rw [Engine.modify, hactive, Option.map_some, if_pos hid]

theorem link_launch (b : Bridge) (id : Nat) : (b.launch id).link = b.link := by
  rcases b.launch_cases id with ⟨heq, -⟩ | ⟨_, _, -, -, -, ⟨-, heq⟩ | ⟨_, -, heq⟩⟩ <;> rw [heq]

theorem clock_launch (b : Bridge) (id : Nat) : (b.launch id).clock = b.clock := by
  rcases b.launch_cases id with ⟨heq, -⟩ | ⟨_, _, -, -, -, ⟨-, heq⟩ | ⟨_, -, heq⟩⟩ <;> rw [heq]

/-- A stopped upload ends. -/
theorem stepUpload_of_stopped (b : Bridge) {u : Upload} (hstopped : u.stopped = true) (h : Nat) :
    ∃ published, b.stepUpload u h =
      { b with
        engine := b.engine.finish u.id (.cancelled u.bytesSent u.framesSent)
        published } := by
  rw [stepUpload, if_pos hstopped]
  exact endUpload_eq b u _

/-- An upload that has nothing left ends. -/
theorem stepUpload_of_nothing_left (b : Bridge) {u : Upload} (hstopped : u.stopped = false)
    (hpending : u.pending = []) (h : Nat) :
    ∃ published, b.stepUpload u h =
      { b with
        engine := b.engine.finish u.id (.completed u.bytesSent u.framesSent)
        published } := by
  rw [stepUpload, hstopped, if_neg Bool.false_ne_true, hpending]
  exact endUpload_eq b u _

/-- An upload that was not stopped writes its next frame, and it ends when the write fails
or the frame was the last one. -/
theorem stepUpload_of_pending {b : Bridge} {u : Upload} (hactive : b.engine.active = some u)
    (hstopped : u.stopped = false) {frame : Frame} {rest : List Frame}
    (hpending : u.pending = frame :: rest) (h : Nat) :
    let written := b.link.writeOn (.upload u.id) h frame
    let sent := u.advance frame rest h (b.clock + b.engine.settings.frameDelayMs.toNat)
    (∃ reason published, written.2 = .error reason ∧
      b.stepUpload u h = { b with
        link := written.1
        engine := b.engine.finish u.id (.failed reason u.bytesSent u.framesSent)
        published }) ∨
    (∃ published, written.2 = .ok () ∧ rest = [] ∧
      b.stepUpload u h = { b with
        link := written.1
        engine := b.engine.finish u.id (.completed sent.bytesSent sent.framesSent)
        published }) ∨
    (written.2 = .ok () ∧ rest ≠ [] ∧
      b.stepUpload u h = { b with
        link := written.1
        engine := { b.engine with active := some sent } }) := by
  intro written sent
  rw [stepUpload, hstopped, if_neg Bool.false_ne_true, hpending]
  dsimp only
  rcases hwritten : b.link.writeOn (.upload u.id) h frame with ⟨link, reason | ⟨⟩⟩
  · obtain ⟨published, heq⟩ :=
      endUpload_eq { b with link } u (.failed reason u.bytesSent u.framesSent)
    refine .inl ⟨reason, published, congrArg Prod.snd hwritten, ?_⟩
    dsimp only [written]
    rw [hwritten]
    exact heq
  · have hlink : written.1 = link := congrArg Prod.fst hwritten
    dsimp only
    rw [modify_of_active hactive, hlink]
    cases rest with
    | nil =>
      obtain ⟨published, heq⟩ := endUpload_eq
        { b with link, engine := { b.engine with active := some sent } } sent
        (.completed sent.bytesSent sent.framesSent)
      refine .inr (.inl ⟨published, congrArg Prod.snd hwritten, rfl, ?_⟩)
      rw [List.isEmpty_nil, if_pos rfl, finish_of_active hactive]
      refine heq.trans ?_
      rw [finish_of_active rfl]
      rfl
    | cons next rest =>
      exact .inr (.inr ⟨congrArg Prod.snd hwritten, List.cons_ne_nil _ _, rfl⟩)

/-- All that the upload that runs does is to write through its handle and to change its
books. -/
theorem stepUpload_eq {b : Bridge} {u : Upload} (hactive : b.engine.active = some u) (h : Nat) :
    ∃ link engine published, b.stepUpload u h = { b with link, engine, published } ∧
      b.engine.Change engine ∧
      (link = b.link ∨ ∃ frame, link = b.link.step (.writeOn (.upload u.id) h frame)) := by
  have ends : ∀ outcome, b.engine.Change (b.engine.finish u.id outcome) := by
    intro outcome
    rw [finish_of_active hactive]
    exact .ended u hactive outcome
  cases hstopped : u.stopped with
  | true =>
    obtain ⟨published, heq⟩ := b.stepUpload_of_stopped hstopped h
    exact ⟨b.link, _, published, heq, ends _, .inl rfl⟩
  | false =>
    cases hpending : u.pending with
    | nil =>
      obtain ⟨published, heq⟩ := b.stepUpload_of_nothing_left hstopped hpending h
      exact ⟨b.link, _, published, heq, ends _, .inl rfl⟩
    | cons frame rest =>
      rcases stepUpload_of_pending hactive hstopped hpending h with
        ⟨_, published, -, heq⟩ | ⟨published, -, -, heq⟩ | ⟨-, -, heq⟩
      · exact ⟨_, _, published, heq, ends _, .inr ⟨frame, rfl⟩⟩
      · exact ⟨_, _, published, heq, ends _, .inr ⟨frame, rfl⟩⟩
      · exact ⟨_, _, b.published, heq, .went u _ hactive rfl rfl, .inr ⟨frame, rfl⟩⟩

theorem change_stepUpload {b : Bridge} {u : Upload} (hactive : b.engine.active = some u)
    (h : Nat) : b.engine.Change (b.stepUpload u h).engine := by
  obtain ⟨_, _, _, heq, hchange, -⟩ := stepUpload_eq hactive h
  rw [heq]
  exact hchange

theorem link_stepUpload {b : Bridge} {u : Upload} (hactive : b.engine.active = some u) (h : Nat) :
    (b.stepUpload u h).link = b.link ∨
      ∃ frame, (b.stepUpload u h).link = b.link.step (.writeOn (.upload u.id) h frame) := by
  obtain ⟨_, _, _, heq, -, hlink⟩ := stepUpload_eq hactive h
  rw [heq]
  exact hlink

theorem clock_stepUpload {b : Bridge} {u : Upload} (hactive : b.engine.active = some u) (h : Nat) :
    (b.stepUpload u h).clock = b.clock := by
  obtain ⟨_, _, _, heq, -, -⟩ := stepUpload_eq hactive h
  rw [heq]

theorem running?_of_stage {b : Bridge} {u : Upload} {h due : Nat}
    (hactive : b.engine.active = some u) (hstage : u.stage = .running h due) :
    b.running? = some (u, h, if u.stopped then 0 else due) := by
  rw [running?, hactive, Option.bind_some, Upload.due?, hstage]

/-- An upload that runs does its next thing once that is due. -/
theorem proceed_of_running {b : Bridge} {u : Upload} {h due : Nat}
    (hactive : b.engine.active = some u) (hstage : u.stage = .running h due) :
    b.proceed =
      if (if u.stopped then 0 else due) ≤ b.clock then b.stepUpload u h else b := by
  rw [proceed, running?_of_stage hactive hstage]

/-- While no upload runs there is nothing to do next. -/
theorem proceed_of_not_running {b : Bridge}
    (hnone : ∀ u h due, b.engine.active = some u → u.stage ≠ .running h due) :
    b.proceed = b := by
  have hrunning : b.running? = none := by
    rw [running?]
    cases hactive : b.engine.active with
    | none => rfl
    | some u =>
      cases hstage : u.stage with
      | claimed => simp only [Option.bind_some, hstage]
      | running h due => exact absurd hstage (hnone u h due hactive)
  rw [proceed, hrunning]

/-- Going on is nothing, or the next thing of the upload that holds the engine. -/
theorem proceed_cases (b : Bridge) :
    b.proceed = b ∨ ∃ u h, b.engine.active = some u ∧ b.proceed = b.stepUpload u h := by
  cases hactive : b.engine.active with
  | none =>
    refine .inl (proceed_of_not_running fun u h due hu => ?_)
    rw [hactive] at hu
    cases hu
  | some u =>
    cases hstage : u.stage with
    | claimed =>
      refine .inl (proceed_of_not_running fun v h due hv hrunning => ?_)
      rw [hactive] at hv
      cases hv
      rw [hstage] at hrunning
      cases hrunning
    | running h due =>
      rw [proceed_of_running hactive hstage]
      by_cases hdue : (if u.stopped then 0 else due) ≤ b.clock
      · rw [if_pos hdue]
        exact .inr ⟨u, h, rfl, rfl⟩
      · rw [if_neg hdue]
        exact .inl rfl

/-- Going on takes no time. -/
theorem clock_proceed (b : Bridge) : b.proceed.clock = b.clock := by
  rcases b.proceed_cases with heq | ⟨u, h, hactive, heq⟩
  · rw [heq]
  · rw [heq, clock_stepUpload hactive]

/-! ## The link of a bridge -/

/-- An action is one step of the link, or none.  A step that is not taken for others is a
write of the upload that goes on. -/
theorem link_act (b : Bridge) (a : Action) :
    (b.act a).link = b.link ∨ ∃ step, (b.act a).link = b.link.step step ∧
      ((∃ others, a = .link step others) ∨
        ∃ u h frame, a = .proceed ∧ b.engine.active = some u ∧
          step = .writeOn (.upload u.id) h frame) := by
  cases a with
  | link step others => exact .inr ⟨step, rfl, .inl ⟨others, rfl⟩⟩
  | publish | begin | stop | drop | pass => exact .inl rfl
  | launch id => exact .inl (b.link_launch id)
  | proceed =>
    rw [act]
    rcases b.proceed_cases with heq | ⟨u, h, hactive, heq⟩
    · exact .inl (congrArg Bridge.link heq)
    · rw [heq]
      rcases link_stepUpload hactive h with hlink | ⟨frame, hlink⟩
      · exact .inl hlink
      · exact .inr ⟨_, hlink, .inr ⟨u, h, frame, rfl, hactive, rfl⟩⟩

/-- The write that the upload that runs is about to make, if it is due. -/
def nextWrite? (b : Bridge) : Option Link.Step :=
  match b.running? with
  | none => none
  | some (u, h, due) =>
    if due ≤ b.clock ∧ u.stopped = false then
      u.pending.head?.map fun frame => .writeOn (.upload u.id) h frame
    else none

/-- The step of the link that an action takes, if it takes one. -/
def linkStep? (b : Bridge) : Action → Option Link.Step
  | .link step _ => some step
  | .proceed => b.nextWrite?
  | .publish _ | .begin .. | .launch _ | .stop _ | .drop _ | .pass _ => none

/-- The steps of the link that some actions take, one after another. -/
def linkSteps (b : Bridge) : List Action → List Link.Step
  | [] => []
  | a :: actions => (b.linkStep? a).toList ++ (b.act a).linkSteps actions

theorem running?_of_running {b : Bridge} {u : Upload} {h due : Nat}
    (hrunning : b.running? = some (u, h, due)) :
    b.engine.active = some u ∧ ∃ next, u.stage = .running h next := by
  rw [running?] at hrunning
  obtain ⟨v, hactive, hv⟩ := Option.bind_eq_some_iff.mp hrunning
  split at hv
  · rename_i k next due' hstage hdue
    cases hv
    exact ⟨hactive, next, hstage⟩
  · cases hv

/-- An action takes the step that it is, or it goes on with the upload that holds the engine
and writes the first of the frames that the upload has left. -/
theorem linkStep?_cases {b : Bridge} {a : Action} {s : Link.Step} (hs : b.linkStep? a = some s) :
    (∃ others, a = .link s others) ∨
      (a = .proceed ∧ ∃ u h frame rest, b.engine.active = some u ∧ u.pending = frame :: rest ∧
        s = .writeOn (.upload u.id) h frame) := by
  cases a with
  | link step others =>
    cases hs
    exact .inl ⟨others, rfl⟩
  | proceed =>
    rw [linkStep?, nextWrite?] at hs
    cases hrunning : b.running? with
    | none =>
      rw [hrunning] at hs
      cases hs
    | some running =>
      obtain ⟨u, h, due⟩ := running
      rw [hrunning] at hs
      dsimp only at hs
      split at hs
      · obtain ⟨frame, hfirst, rfl⟩ := Option.map_eq_some_iff.mp hs
        obtain ⟨rest, hpending⟩ := List.head?_eq_some_iff.mp hfirst
        exact .inr ⟨rfl, u, h, frame, rest, (running?_of_running hrunning).1, hpending, rfl⟩
      · cases hs
  | publish | begin | launch | stop | drop | pass => cases hs

theorem link_proceed (b : Bridge) : b.proceed.link = b.link.run b.nextWrite?.toList := by
  rw [proceed, nextWrite?]
  cases hrunning : b.running? with
  | none => rfl
  | some running =>
    obtain ⟨u, h, due⟩ := running
    obtain ⟨hactive, -⟩ := running?_of_running hrunning
    dsimp only
    by_cases hdue : due ≤ b.clock
    · rw [if_pos hdue]
      cases hstopped : u.stopped with
      | true =>
        obtain ⟨published, heq⟩ := b.stepUpload_of_stopped hstopped h
        rw [heq, if_neg (fun hboth => nomatch hboth.2)]
        rfl
      | false =>
        rw [if_pos ⟨hdue, rfl⟩]
        cases hpending : u.pending with
        | nil =>
          obtain ⟨published, heq⟩ := b.stepUpload_of_nothing_left hstopped hpending h
          rw [heq]
          rfl
        | cons frame rest =>
          rcases stepUpload_of_pending hactive hstopped hpending h with
            ⟨_, _, -, heq⟩ | ⟨_, -, -, heq⟩ | ⟨-, -, heq⟩ <;>
          · rw [heq]
            rfl
    · rw [if_neg hdue, if_neg (fun hboth => hdue hboth.1)]
      rfl

/-- The link after an action is the link after the step that the action takes. -/
theorem link_act_eq (b : Bridge) (a : Action) :
    (b.act a).link = b.link.run (b.linkStep? a).toList := by
  cases a with
  | link | publish | begin | stop | drop | pass => rfl
  | launch id => exact b.link_launch id
  | proceed => exact b.link_proceed

/-- **The link of a bridge does what the actions have it do.** -/
theorem link_run (b : Bridge) (actions : List Action) :
    (b.run actions).link = b.link.run (b.linkSteps actions) := by
  induction actions generalizing b with
  | nil => rfl
  | cons a actions ih =>
    rw [run_cons, ih, link_act_eq, ← Link.run_append]
    rfl

theorem sound_link_act {b : Bridge} (hb : b.link.Sound) (a : Action) : (b.act a).link.Sound := by
  rcases b.link_act a with heq | ⟨step, heq, -⟩ <;> rw [heq]
  · exact hb
  · exact Link.sound_step hb step

theorem sound_link_run {b : Bridge} (hb : b.link.Sound) (actions : List Action) :
    (b.run actions).link.Sound :=
  run_keeps (P := fun b => b.link.Sound) (fun _ a h => sound_link_act h a) hb actions

/-! ## The functions of a bridge -/

/-- Actions of some kind lead from one state to another. -/
def Reaches (P : Action → Prop) (b b' : Bridge) : Prop :=
  ∃ actions, (∀ a ∈ actions, P a) ∧ b.run actions = b'

section Reaches

variable {P Q : Action → Prop} {b b' b'' : Bridge}

theorem Reaches.refl (P : Action → Prop) (b : Bridge) : Reaches P b b :=
  ⟨[], List.forall_mem_nil P, rfl⟩

theorem Reaches.act (h : Reaches P b b') {a : Action} (ha : P a) : Reaches P b (b'.act a) := by
  obtain ⟨actions, hactions, rfl⟩ := h
  refine ⟨actions ++ [a], ?_, run_append b actions [a]⟩
  rw [List.forall_mem_append]
  exact ⟨hactions, List.forall_mem_singleton.mpr ha⟩

theorem Reaches.trans (h : Reaches P b b') (h' : Reaches P b' b'') : Reaches P b b'' := by
  obtain ⟨first, hfirst, rfl⟩ := h
  obtain ⟨later, hlater, rfl⟩ := h'
  exact ⟨first ++ later, List.forall_mem_append.mpr ⟨hfirst, hlater⟩, run_append b first later⟩

theorem Reaches.mono (h : Reaches P b b') (hPQ : ∀ a, P a → Q a) : Reaches Q b b' := by
  obtain ⟨actions, hactions, heq⟩ := h
  exact ⟨actions, fun a ha => hPQ a (hactions a ha), heq⟩

end Reaches

/-- The action is one that time brings. -/
def Action.OfTime : Action → Prop
  | .proceed | .pass _ => True
  | _ => False

/-- What is due up to a time begins with what the upload that runs has to do next, at the time
when that is due. -/
theorem workFor_succ_of_due {b : Bridge} {u : Upload} {h due time : Nat}
    (hrunning : b.running? = some (u, h, due)) (hdue : due ≤ time) (n : Nat) :
    workFor (n + 1) time b = workFor n time ((b.act (.pass (due - b.clock))).act .proceed) := by
  obtain ⟨now, hnow⟩ : ∃ now : Bridge, now = { b with clock := max b.clock due } := ⟨_, rfl⟩
  have hpass : b.act (.pass (due - b.clock)) = now := by
    have hclock : max b.clock due = b.clock + (due - b.clock) := by omega
    rw [hnow, hclock]
    rfl
  have hproceed : now.act .proceed = now.stepUpload u h := by
    have hsame : now.running? = some (u, h, due) := by
      rw [hnow]
      exact hrunning
    have hreached : due ≤ now.clock := by
      rw [hnow]
      exact Nat.le_max_right _ _
    rw [act, proceed, hsame]
    dsimp only
    rw [if_pos hreached]
  rw [workFor, hrunning]
  dsimp only
  rw [if_pos hdue, hpass, hproceed, hnow]

/-- What was due before is done without waiting. -/
theorem workFor_succ_of_past {b : Bridge} {u : Upload} {h due time : Nat}
    (hrunning : b.running? = some (u, h, due)) (hpast : due ≤ b.clock) (hdue : due ≤ time)
    (n : Nat) : workFor (n + 1) time b = workFor n time (b.act .proceed) := by
  have hnow : b.act (.pass (due - b.clock)) = b := by
    rw [Nat.sub_eq_zero_of_le hpast]
    rfl
  rw [workFor_succ_of_due hrunning hdue, hnow]

/-- Doing what is due up to a time is letting time pass and going on, by turns. -/
theorem reaches_workFor (n : Nat) {time : Nat} {b : Bridge} (hb : b.clock ≤ time) :
    Reaches Action.OfTime b (workFor n time b) ∧ (workFor n time b).clock ≤ time := by
  induction n generalizing b with
  | zero => exact ⟨.refl _ _, hb⟩
  | succ n ih =>
    cases hrunning : b.running? with
    | none =>
      rw [workFor, hrunning]
      exact ⟨.refl _ _, hb⟩
    | some running =>
      obtain ⟨u, h, due⟩ := running
      by_cases hdue : due ≤ time
      · have hclock : ((b.act (.pass (due - b.clock))).act .proceed).clock ≤ time := by
          rw [act, clock_proceed]
          change b.clock + (due - b.clock) ≤ time
          omega
        have hstep : Reaches Action.OfTime b ((b.act (.pass (due - b.clock))).act .proceed) :=
          ((Reaches.refl _ b).act trivial).act trivial
        obtain ⟨hreach, hle⟩ := ih hclock
        rw [workFor_succ_of_due hrunning hdue]
        exact ⟨hstep.trans hreach, hle⟩
      · rw [workFor, hrunning]
        dsimp only
        rw [if_neg hdue]
        exact ⟨.refl _ _, hb⟩

theorem reaches_settle (b : Bridge) : Reaches Action.OfTime b b.settle :=
  (reaches_workFor _ (Nat.le_refl _)).1

/-- After what is due has been done, the rest of the time passes. -/
theorem advance_eq (b : Bridge) (ms : Nat) :
    b.advance ms =
      (b.work (b.clock + ms)).act (.pass (b.clock + ms - (b.work (b.clock + ms)).clock)) := by
  have hclock : (b.work (b.clock + ms)).clock ≤ b.clock + ms :=
    (reaches_workFor _ (Nat.le_add_right _ _)).2
  rw [act, Nat.add_sub_cancel' hclock]
  rfl

theorem reaches_advance (b : Bridge) (ms : Nat) : Reaches Action.OfTime b (b.advance ms) := by
  rw [advance_eq]
  exact (reaches_workFor _ (Nat.le_add_right _ _)).1.act trivial

/-- What comes due within some time is done within it. -/
theorem reaches_advance_of_due {b : Bridge} {u : Upload} {h due ms : Nat}
    (hrunning : b.running? = some (u, h, due)) (hdue : due ≤ b.clock + ms) :
    Reaches Action.OfTime ((b.act (.pass (due - b.clock))).act .proceed) (b.advance ms) := by
  have hclock : ((b.act (.pass (due - b.clock))).act .proceed).clock ≤ b.clock + ms := by
    rw [act, clock_proceed]
    change b.clock + (due - b.clock) ≤ b.clock + ms
    omega
  rw [advance_eq, work, workFor_succ_of_due hrunning hdue]
  exact (reaches_workFor _ hclock).1.act trivial

theorem reaches_start (b : Bridge) (id : Nat) :
    Reaches (fun a => a = .launch id ∨ a.OfTime) b (b.start id) := by
  have hlaunch : Reaches (fun a => a = .launch id ∨ a.OfTime) b (b.act (.launch id)) :=
    (Reaches.refl _ b).act (.inl rfl)
  exact hlaunch.trans ((reaches_settle _).mono fun _ => .inr)

/-- Asking the upload under way to stop is asking it by its number. -/
theorem reaches_cancel (b : Bridge) :
    Reaches (fun a => (∃ u, b.engine.active = some u ∧ a = .stop u.id) ∨ a.OfTime) b
      b.cancel.1 := by
  rw [cancel, Engine.cancel]
  cases hactive : b.engine.active with
  | none => exact (reaches_settle b).mono fun _ => .inr
  | some u =>
    have stopped : Reaches (fun a => (∃ v, some u = some v ∧ a = .stop v.id) ∨ a.OfTime) b
        (b.act (.stop u.id)) := (Reaches.refl _ b).act (.inl ⟨u, rfl, rfl⟩)
    exact stopped.trans ((reaches_settle _).mono fun _ => .inr)

/-- The action is part of serving requests of a kind. -/
def Action.Serves (kind : RequestKind) : Action → Prop
  | .publish _ => True
  | .link (.writeOn ..) _ => kind = .sendCommand
  | .link .clear _ | .link (.openPort ..) _ => kind = .reconnect
  | .link .. | .drop _ => False
  | .begin .. | .launch _ => kind = .sendBulk
  | .stop _ => kind = .stopTransfer
  | .proceed | .pass _ => kind = .sendBulk ∨ kind = .stopTransfer

theorem serves_of_ofTime {kind : RequestKind} (hkind : kind = .sendBulk ∨ kind = .stopTransfer)
    {a : Action} (ha : a.OfTime) : a.Serves kind := by
  cases a with
  | proceed | pass => exact hkind
  | link | publish | begin | launch | stop | drop => exact ha.elim

/-- Writing to the current link is writing through its handle, if there is one. -/
theorem reaches_write {P : Action → Prop} (b : Bridge) (frame : Frame)
    (hwrite : ∀ h, P (.link (.writeOn .line h frame) trivial)) :
    Reaches P b { b with link := (b.link.write frame).1 } := by
  rw [Link.write]
  cases b.link.current with
  | none => exact .refl P b
  | some h => exact (Reaches.refl P b).act (hwrite h)

/-- Sending a line is writing the frame for it, if a link is open, and publishing. -/
theorem reaches_sendLine {P : Action → Prop} (b : Bridge) (client : ClientId) {data : String}
    (hwrite : ∀ h, P (.link (.writeOn .line h (.ofInput data)) trivial))
    (hpublish : ∀ e, P (.publish e)) : Reaches P b (b.sendLine client data) := by
  have written := b.reaches_write (.ofInput data) hwrite
  rw [sendLine]
  split
  · exact .refl _ b
  · split <;> rename_i hresult <;> rw [hresult] at written <;> exact written.act (hpublish _)

theorem reaches_sendText (b : Bridge) (client : ClientId) (filename : Option String)
    (data : String) : Reaches (Action.Serves .sendBulk) b (b.sendText client filename data) := by
  have begun : Reaches (Action.Serves .sendBulk) b
      (b.begin client (Utf8.encode data) true).1 :=
    (Reaches.refl _ b).act (a := .begin client (Utf8.encode data) true) rfl
  have publish : ∀ e : Envelope, (Action.publish e).Serves .sendBulk := fun _ => trivial
  rw [sendText]
  split
  · exact .refl _ b
  · split <;> rename_i hbegin <;> rw [hbegin] at begun
    · exact begun
    · exact begun.act (publish _)
    · exact begun.act (publish _)
    · refine (begun.act (publish _)).trans ((reaches_start _ _).mono ?_)
      rintro a (rfl | ha)
      · rfl
      · exact serves_of_ofTime (.inl rfl) ha

theorem reaches_stopUpload (b : Bridge) (client : ClientId) :
    Reaches (Action.Serves .stopTransfer) b (b.stopUpload client) := by
  rw [stopUpload, Engine.cancel]
  cases hactive : b.engine.active with
  | none => exact .refl _ b
  | some u =>
    have stopped := (Reaches.refl (Action.Serves .stopTransfer) b).act (a := .stop u.id) rfl
    have told := stopped.act
      (a := .publish (.reply client (.log "Stopping transmission..."))) trivial
    exact told.trans ((reaches_settle _).mono fun a => serves_of_ofTime (.inr rfl))

theorem reaches_reopen (b : Bridge) : Reaches (Action.Serves .reconnect) b b.reopen := by
  have cleared := (Reaches.refl (Action.Serves .reconnect) b).act (a := .link .clear trivial) rfl
  have opened := cleared.act
    (a := .link (.openPort b.settings.candidates b.settings.baudRate) trivial) rfl
  have publish : ∀ e : Envelope, (Action.publish e).Serves .reconnect := fun _ => trivial
  exact (opened.act (publish _)).act (publish _)

/-- **Serving a request is a run of actions**, of the sorts its kind calls for. -/
theorem reaches_dispatch (b : Bridge) (client : ClientId) (request : Request) :
    Reaches (Action.Serves request.kind) b (b.dispatch client request) := by
  cases request with
  | sendCommand data => exact b.reaches_sendLine client (fun _ => rfl) fun _ => trivial
  | sendBulk filename data => exact b.reaches_sendText client filename data
  | stopTransfer => exact b.reaches_stopUpload client
  | reconnect => exact b.reaches_reopen

end Bridge

end SerialBridge
