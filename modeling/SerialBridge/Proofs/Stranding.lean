import SerialBridge.Proofs.Tally

/-! # Uploads whose link is gone

An upload runs over the handle that was current when it was set running, and over no other.
When the link is closed, or opened again at whatever path, that handle is closed for good, and
an upload that still has frames to send is *stranded*: it holds the engine and its counts stay
as they are until its next frame is due, or until it is asked to stop (`Stranded`).

What it then does is known (`stranded_proceed`).  Its write is refused before any device is
touched, so the upload fails because the link is closed; or it was asked to stop and is
cancelled.  Either way it tells what had been written before, and the engine is free.  For the
link it is as if the upload had not been there (`fate_run`): the writes of all others, on the
new link too, find the same state and come to the same.
-/

namespace SerialBridge

/-- The step takes the current link away.  Opening a link does so whether or not one can be
opened then; a reconnect begins by dropping the link and goes on by opening one. -/
def Link.Step.Withdraws : Link.Step → Prop
  | .clear | .openPort .. => True
  | .surround _ | .writeOn .. | .readLines .. | .countLines _ => False

/-- Whether the step is a write on behalf of the upload of a number. -/
def Link.Step.isFor (id : Nat) : Link.Step → Bool
  | .writeOn (.upload k) .. => k == id
  | _ => false

theorem Link.Step.isFor_of_forOthers {s : Link.Step} (hs : s.ForOthers) (id : Nat) :
    s.isFor id = false := by
  cases s with
  | writeOn author h frame =>
    cases author with
    | line => rfl
    | upload k => exact hs.elim
  | surround | clear | openPort | readLines | countLines => rfl

namespace Link

theorem writeOn_of_closed {l : Link} {h : Nat} (hclosed : l.openAt h = false) (author : Author)
    (frame : Frame) : l.writeOn author h frame = (l, .error .closed) := by
  rcases l.writeOn_cases author h frame with ⟨heq, -⟩ | ⟨handle, _, hh, hopen, -, -, -⟩
  · exact heq
  · rw [openAt_of_handle hh, hopen] at hclosed
    cases hclosed

/-- Taking the link away closes every handle there was. -/
theorem openAt_step_of_withdraws {l : Link} (hl : l.Sound) {h : Nat} {port : String × Nat}
    (hp : l.portOf h = some port) {s : Step} (hs : s.Withdraws) : (l.step s).openAt h = false := by
  cases s with
  | clear => exact openAt_clear_of_sound hl h
  | openPort candidates baudRate =>
    rw [step, openAt_openPort hp]
    exact openAt_clear_of_sound hl h
  | surround | writeOn | readLines | countLines => exact hs.elim

theorem writtenFor_step_of_not_for {l : Link} {id : Nat} {s : Step} (hs : s.isFor id = false) :
    (l.step s).writtenFor id = l.writtenFor id := by
  rcases l.transmissions_step s with heq | ⟨author, h, frame, t, rfl, hauthor, -, heq⟩
  · exact writtenFor_congr heq id
  · refine writtenFor_cons_of_ne heq fun hid => ?_
    rw [← hauthor, hid, Step.isFor, beq_self_eq_true] at hs
    cases hs

theorem writtenFor_run_of_not_for {l : Link} {id : Nat} {steps : List Step}
    (hsteps : ∀ s ∈ steps, s.isFor id = false) :
    (l.run steps).writtenFor id = l.writtenFor id := by
  induction steps generalizing l with
  | nil => rfl
  | cons s steps ih =>
    obtain ⟨hs, hrest⟩ := List.forall_mem_cons.mp hsteps
    rw [run_cons, ih hrest, writtenFor_step_of_not_for hs]

end Link

namespace Bridge

/-! ## The steps taken for an upload -/

/-- The steps of an action that are not taken for an upload. -/
def stepsBeside (b : Bridge) (id : Nat) (a : Action) : List Link.Step :=
  (b.linkStep? a).toList.filter (!·.isFor id)

/-- An action that takes no step for an upload takes all its steps beside it. -/
theorem link_act_of_not_for {b : Bridge} {id : Nat} {a : Action}
    (hnot : ∀ s, b.linkStep? a = some s → s.isFor id = false) :
    (b.act a).link = b.link.run (b.stepsBeside id a) := by
  have hall : b.stepsBeside id a = (b.linkStep? a).toList := by
    refine List.filter_eq_self.mpr fun s hs => ?_
    rw [hnot s (Option.mem_toList.mp hs)]
    rfl
  rw [hall, link_act_eq]

theorem link_act_of_not_held {b : Bridge} {id : Nat} (hnot : b.NotHeld id) (a : Action) :
    (b.act a).link = b.link.run (b.stepsBeside id a) := by
  refine link_act_of_not_for fun s hs => ?_
  rcases linkStep?_cases hs with ⟨others, -⟩ | ⟨-, u, h, frame, rest, hu, -, rfl⟩
  · exact Link.Step.isFor_of_forOthers others id
  · exact beq_false_of_ne (hnot u hu)

theorem link_act_of_ne_proceed {b : Bridge} {a : Action} (ha : a ≠ .proceed) (id : Nat) :
    (b.act a).link = b.link.run (b.stepsBeside id a) := by
  refine link_act_of_not_for fun s hs => ?_
  rcases linkStep?_cases hs with ⟨others, -⟩ | ⟨hproceed, -⟩
  · exact Link.Step.isFor_of_forOthers others id
  · exact absurd hproceed ha

/-- Going on takes no step beside the upload that holds the engine. -/
theorem stepsBeside_proceed {b : Bridge} {u : Upload} (hactive : b.engine.active = some u) :
    b.stepsBeside u.id .proceed = [] := by
  refine List.filter_eq_nil_iff.mpr fun s hs => ?_
  rcases linkStep?_cases (Option.mem_toList.mp hs) with
    ⟨others, hlink⟩ | ⟨-, v, h, frame, rest, hv, -, rfl⟩
  · cases hlink
  · rw [hactive] at hv
    cases hv
    simp [Link.Step.isFor]

/-! ## The handle of an upload that runs -/

/-- An upload that runs after an action ran over the same handle before, or was set running
over the current one. -/
theorem running_act_cases {b : Bridge} {a : Action} {v : Upload} {h due : Nat}
    (hv : (b.act a).engine.active = some v) (hstage : v.stage = .running h due) :
    (∃ u due', b.engine.active = some u ∧ u.stage = .running h due') ∨
      b.link.current = some h := by
  cases onward_act hv with
  | same hactive => exact .inl ⟨v, due, hactive, hstage⟩
  | begun client payload announced hnew =>
    rw [hnew] at hstage
    cases hstage
  | launched u k hactive hcurrent hlaunched =>
    rw [hlaunched] at hstage
    cases hstage
    exact .inr hcurrent
  | sent u frame rest k due' next hactive hrunning _ hsent =>
    rw [hsent] at hstage
    cases hstage
    exact .inl ⟨u, due', hactive, hrunning⟩
  | stopped u hactive hstopped =>
    rw [hstopped] at hstage
    exact .inl ⟨u, due, hactive, hstage⟩

/-- An upload that runs does so over a handle that there is. -/
def Anchored (b : Bridge) : Prop :=
  ∀ u h due, b.engine.active = some u → u.stage = .running h due →
    ∃ port, b.link.portOf h = some port

theorem portOf_act {b : Bridge} {h : Nat} {port : String × Nat} (hp : b.link.portOf h = some port)
    (a : Action) : (b.act a).link.portOf h = some port := by
  rw [link_act_eq]
  exact Link.portOf_run hp _

theorem anchored_act {b : Bridge} (hsound : b.link.Sound) (hb : b.Anchored) (a : Action) :
    (b.act a).Anchored := by
  intro v h due hv hstage
  have hport : ∃ port, b.link.portOf h = some port := by
    rcases running_act_cases hv hstage with ⟨u, due', hu, hrunning⟩ | hcurrent
    · exact hb u h due' hu hrunning
    · obtain ⟨handle, hh, -⟩ := Link.exists_handle_of_openAt ((hsound.openAt_iff h).mpr hcurrent)
      exact ⟨_, Link.portOf_of_handle hh⟩
  obtain ⟨port, hp⟩ := hport
  exact ⟨port, portOf_act hp a⟩

theorem anchored_run {b : Bridge} (hsound : b.link.Sound) (hb : b.Anchored)
    (actions : List Action) : (b.run actions).Anchored := by
  have hboth := run_keeps (P := fun b => b.link.Sound ∧ b.Anchored)
    (fun _ a h => ⟨sound_link_act h.1 a, anchored_act h.1 h.2 a⟩) ⟨hsound, hb⟩ actions
  exact hboth.2

/-! ## Stranded uploads -/

/-- What an upload that is at an end, because its link is gone or it was stopped, tells. -/
inductive GivesUp (u : Upload) (due clock : Nat) : Outcome → Prop where
  /-- Its next frame was due, and there was no link for it. -/
  | failed (hdue : due ≤ clock) :
    GivesUp u due clock (.failed .closed u.bytesSent u.framesSent)
  /-- It was asked to stop. -/
  | cancelled (hstopped : u.stopped = true) :
    GivesUp u due clock (.cancelled u.bytesSent u.framesSent)

/-- An upload runs over a handle that is closed. -/
structure Stranded (b : Bridge) (u : Upload) (h due : Nat) : Prop where
  running : Running b u h due
  port : ∃ port, b.link.portOf h = some port
  closed : b.link.openAt h = false

/-- **What a stranded upload does next**: it waits, or it ends without a write and frees the
engine. -/
theorem stranded_proceed {b : Bridge} {u : Upload} {h due : Nat} (hs : Stranded b u h due) :
    b.proceed.link = b.link ∧
      ((b.proceed = b ∧ b.clock < if u.stopped then 0 else due) ∨
        (b.proceed.engine.active = none ∧
          ∃ outcome, GivesUp u due b.clock outcome ∧ Ended b.proceed u.id u.plan h outcome)) := by
  obtain ⟨hr, -, hclosed⟩ := hs
  have hactive := hr.active_eq
  have hproceed := proceed_of_running hactive hr.stage_eq
  rcases Nat.lt_or_ge b.clock (if u.stopped then 0 else due) with hwait | hdue
  · rw [if_neg (Nat.not_le.mpr hwait)] at hproceed
    rw [hproceed]
    exact ⟨rfl, .inl ⟨rfl, hwait⟩⟩
  · rw [if_pos hdue] at hproceed
    rw [hproceed]
    -- either way the books are closed with the counts there are
    have ends : ∀ outcome published, GivesUp u due b.clock outcome →
        Truthful u.plan h outcome (b.link.writtenFor u.id) →
        b.stepUpload u h =
          { b with engine := b.engine.finish u.id outcome, published } →
        (b.stepUpload u h).link = b.link ∧ (b.stepUpload u h).engine.active = none ∧
          ∃ outcome, GivesUp u due b.clock outcome ∧
            Ended (b.stepUpload u h) u.id u.plan h outcome := by
      intro outcome published hgives htrue heq
      rw [heq]
      refine ⟨rfl, ?_, outcome, hgives, ended_of_finish hactive hr.id_lt rfl htrue⟩
      dsimp only
      rw [finish_of_active hactive]
    cases hstopped : u.stopped with
    | true =>
      obtain ⟨published, heq⟩ := b.stepUpload_of_stopped hstopped h
      obtain ⟨hlink, hrest⟩ :=
        ends _ published (.cancelled hstopped) ⟨hr.framesSent_lt, hr.carried⟩ heq
      exact ⟨hlink, .inr hrest⟩
    | false =>
      rw [hstopped, if_neg Bool.false_ne_true] at hdue
      obtain ⟨frame, hpending⟩ : ∃ frame,
          u.pending = frame :: u.plan.frames.drop (u.framesSent + 1) :=
        ⟨_, by rw [hr.pending_eq, List.drop_eq_getElem_cons hr.framesSent_lt]⟩
      have hrefused := Link.writeOn_of_closed hclosed (.upload u.id) frame
      rcases stepUpload_of_pending hactive hstopped hpending h with
        ⟨reason, published, herror, heq⟩ | ⟨published, hok, -, -⟩ | ⟨hok, -, -⟩
      · rw [hrefused] at herror heq
        cases herror
        obtain ⟨hlink, hrest⟩ :=
          ends _ published (.failed hdue) ⟨hr.framesSent_lt, .inl hr.carried⟩ heq
        exact ⟨hlink, .inr hrest⟩
      · rw [hrefused] at hok
        cases hok
      · rw [hrefused] at hok
        cases hok

/-- What is to be said of an upload from when its link was gone; the last argument says whether
it was asked to stop. -/
inductive Fate (b : Bridge) (u : Upload) (h due : Nat) (asked : Bool) : Prop where
  /-- It holds the engine, as it was. -/
  | holds (hs : Stranded b { u with stopped := asked } h due)
  /-- It has ended. -/
  | ended (outcome : Outcome) (hgives : GivesUp { u with stopped := asked } due b.clock outcome)
    (he : Ended b u.id u.plan h outcome)

theorem GivesUp.mono {u : Upload} {due clock clock' : Nat} {asked asked' : Bool}
    {outcome : Outcome} (hgives : GivesUp { u with stopped := asked } due clock outcome)
    (hclock : clock ≤ clock') (hasked : asked = true → asked' = true) :
    GivesUp { u with stopped := asked' } due clock' outcome := by
  cases hgives with
  | failed hdue => exact .failed (Nat.le_trans hdue hclock)
  | cancelled hstopped => exact .cancelled (hasked hstopped)

/-- What an action does while an upload is stranded: for the link it is as if the upload were
not there. -/
theorem fate_act_of_stranded {b : Bridge} {u : Upload} {h due : Nat} {asked : Bool}
    (hs : Stranded b { u with stopped := asked } h due) (a : Action) :
    Fate (b.act a) u h due (asked || a == .stop u.id) ∧
      (b.act a).link = b.link.run (b.stepsBeside u.id a) := by
  obtain ⟨port, hp⟩ := hs.port
  have hport : ∃ port, (b.act a).link.portOf h = some port := ⟨port, portOf_act hp a⟩
  have hclosed : (b.act a).link.openAt h = false := by
    rw [link_act_eq]
    exact Link.openAt_run hp hs.closed _
  by_cases hproceed : a = .proceed
  · -- its own write is the only step there is, and it is refused
    subst hproceed
    obtain ⟨hlink, hnext⟩ := stranded_proceed hs
    refine ⟨?_, ?_⟩
    · have hasked : (asked || Action.proceed == .stop u.id) = asked := Bool.or_false asked
      rw [hasked]
      rcases hnext with ⟨heq, -⟩ | ⟨-, outcome, hgives, he⟩
      · rw [show b.act .proceed = b from heq]
        exact .holds hs
      · exact .ended outcome (hgives.mono (Nat.le_of_eq b.clock_proceed.symm) id) he
    · rw [stepsBeside_proceed hs.running.active_eq]
      exact hlink
  · refine ⟨?_, link_act_of_ne_proceed hproceed u.id⟩
    by_cases hstop : a = .stop u.id
    · subst hstop
      rw [beq_self_eq_true, Bool.or_true]
      have hr : Running (b.act (.stop u.id)) { u with stopped := true } h due :=
        running_stop (u := { u with stopped := asked }) hs.running
      exact .holds ⟨hr, hport, hclosed⟩
    · rw [beq_false_of_ne hstop, Bool.or_false]
      exact .holds ⟨running_act hs.running hproceed hstop, hport, hclosed⟩

theorem fate_act {b : Bridge} {u : Upload} {h due : Nat} {asked : Bool}
    (hf : Fate b u h due asked) (a : Action) :
    Fate (b.act a) u h due (asked || a == .stop u.id) ∧
      (b.act a).link = b.link.run (b.stepsBeside u.id a) := by
  cases hf with
  | holds hs => exact fate_act_of_stranded hs a
  | ended outcome hgives he =>
    have hasked : asked = true → (asked || a == .stop u.id) = true := by
      intro htrue
      rw [htrue, Bool.true_or]
    exact ⟨.ended outcome (hgives.mono (b.clock_le_act a).1 hasked) (ended_act he a),
      link_act_of_not_held he.notHeld a⟩

/-- **What becomes of a stranded upload** in every run, and of the link beside it. -/
theorem fate_run {b : Bridge} {u : Upload} {h due : Nat} {asked : Bool}
    (hf : Fate b u h due asked) (actions : List Action) :
    Fate (b.run actions) u h due (asked || actions.contains (.stop u.id)) ∧
      (b.run actions).link = b.link.run ((b.linkSteps actions).filter (!·.isFor u.id)) := by
  induction actions generalizing b asked with
  | nil =>
    rw [List.contains_nil, Bool.or_false]
    exact ⟨hf, rfl⟩
  | cons a actions ih =>
    obtain ⟨hfate, hlink⟩ := fate_act hf a
    obtain ⟨hlater, hrest⟩ := ih hfate
    rw [List.contains_cons, Bool.beq_comm, ← Bool.or_assoc]
    refine ⟨hlater, ?_⟩
    rw [run_cons, hrest, hlink, ← Link.run_append, linkSteps, List.filter_append, stepsBeside]

/-! ## When it ends -/

/-- The engine is free after whatever takes it from an upload. -/
theorem free_of_release {b : Bridge} {u : Upload} (hactive : b.engine.active = some u) {a : Action}
    (hnot : (b.act a).NotHeld u.id) : (b.act a).engine.active = none := by
  have hchange := b.change_act a
  rw [NotHeld] at hnot
  generalize (b.act a).engine = e at hchange hnot ⊢
  cases hchange with
  | same => exact absurd rfl (hnot u hactive)
  | begun v free =>
    rw [hactive] at free
    cases free
  | went v w held hid =>
    rw [hactive] at held
    cases held
    exact absurd hid (hnot w rfl)
  | dropped | ended => rfl

/-- Time passes over a free engine and leaves it free. -/
theorem free_of_ofTime {b : Bridge} (hfree : b.engine.active = none) {a : Action}
    (ha : a.OfTime) : (b.act a).engine.active = none := by
  cases a with
  | pass ms => exact hfree
  | proceed =>
    have hsame : b.proceed = b := by
      refine proceed_of_not_running fun u h due hu => ?_
      rw [hfree] at hu
      cases hu
    rw [act, hsame]
    exact hfree
  | link | publish | begin | launch | stop | drop => exact ha.elim

theorem free_of_reaches {b b' : Bridge} (hfree : b.engine.active = none)
    (h : Reaches Action.OfTime b b') : b'.engine.active = none := by
  obtain ⟨actions, hactions, rfl⟩ := h
  exact run_preserves (P := fun b => b.engine.active = none) (Q := Action.OfTime)
    (fun _ _ ha hb => free_of_ofTime hb ha) hfree hactions

/-- A stranded upload that nobody asked to stop fails once its next frame is due. -/
theorem fails_of_stranded {b : Bridge} {u : Upload} {h due ms : Nat} (hs : Stranded b u h due)
    (hstopped : u.stopped = false) (hdue : due ≤ b.clock + ms) :
    (b.advance ms).engine.active = none ∧
      Ended (b.advance ms) u.id u.plan h (.failed .closed u.bytesSent u.framesSent) := by
  have hrunning : b.running? = some (u, h, due) := by
    rw [running?_of_stage hs.running.active_eq hs.running.stage_eq, hstopped]
    rfl
  have hlater := reaches_advance_of_due hrunning hdue
  -- at that time the upload is stranded as before, and what is next is due
  obtain ⟨now, hnow⟩ : ∃ now, now = b.act (.pass (due - b.clock)) := ⟨_, rfl⟩
  rw [← hnow] at hlater
  have hthen : Stranded now u h due := by
    rw [hnow]
    exact ⟨running_act hs.running (fun h => nomatch h) (fun h => nomatch h), hs.port, hs.closed⟩
  have hclock : due ≤ now.clock := by
    rw [hnow]
    change due ≤ b.clock + (due - b.clock)
    omega
  obtain ⟨-, ⟨-, hwait⟩ | ⟨hfree, outcome, hgives, he⟩⟩ := stranded_proceed hthen
  · rw [hstopped, if_neg Bool.false_ne_true] at hwait
    omega
  · cases hgives with
    | failed => exact ⟨free_of_reaches hfree hlater, ended_reaches hlater he⟩
    | cancelled htrue =>
      rw [hstopped] at htrue
      cases htrue

end Bridge

namespace Sessions

/-- An upload that holds the engine and has a handle is running, with a true account. -/
theorem Accounted.running_of_active {s : Sessions} (hs : Accounted s) {u : Upload} {h due : Nat}
    (hactive : s.bridge.engine.active = some u) (hstage : u.stage = .running h due) :
    s.bridge.Running u h due := by
  cases hs.kept.held with
  | free hfree =>
    rw [hactive] at hfree
    cases hfree
  | unrun v w hv hclaimed =>
    rw [hactive] at hv
    cases hv
    rw [hstage] at hclaimed
    cases hclaimed
  | running v w k due' hv _ hsame _ hrunning =>
    rw [hactive] at hv
    cases hv
    have hw : w ∈ s.running := by
      rw [hrunning]
      exact List.mem_singleton_self w
    obtain ⟨t, ht, rfl⟩ := List.mem_map.mp (List.mem_filter.mp hw).1
    obtain ⟨k', hover⟩ := t.exists_runsOver
    rcases hs.started t ht k' hover with ⟨v', due'', -, -, hr⟩ | ⟨outcome, he⟩
    · have hsame' := hr.active_eq
      rw [hactive] at hsame'
      cases hsame'
      have hstage' := hr.stage_eq
      rw [hstage] at hstage'
      cases hstage'
      exact hr
    · exact absurd hsame.1 (he.notHeld u hactive)

end Sessions

namespace Bridge

/-- What becomes of an upload that ran over a handle, with its next frame due at a time, when
the link was taken away and more actions have been done since. -/
structure LeftBehind (changed : Bridge) (u : Upload) (due : Nat) (after : List Action) : Prop where
  /-- No device has taken another byte of it. -/
  nothing_more : (changed.run after).link.writtenFor u.id = changed.link.writtenFor u.id
  /-- The link is the one that the others make of it without the upload. -/
  others_unaffected : (changed.run after).link =
    changed.link.run ((changed.linkSteps after).filter (!·.isFor u.id))
  /-- It holds the engine with the counts it had, or it has failed for want of a link, not before
  its next frame was due, or it was asked to stop and is cancelled. -/
  fate :
    (∃ v, (changed.run after).engine.active = some v ∧
      v = { u with stopped := u.stopped || after.contains (.stop u.id) } ∧
      (changed.run after).engine.outcome? u.id = none) ∨
    ((changed.run after).NotHeld u.id ∧ due ≤ (changed.run after).clock ∧
      (changed.run after).engine.outcome? u.id =
        some (.failed .closed u.bytesSent u.framesSent)) ∨
    ((changed.run after).NotHeld u.id ∧ (u.stopped = true ∨ .stop u.id ∈ after) ∧
      (changed.run after).engine.outcome? u.id = some (.cancelled u.bytesSent u.framesSent))
  /-- Unless it is asked to stop it fails just when its next frame is due. -/
  fails_in_time : u.stopped = false → .stop u.id ∉ after → ∀ ms,
    (((changed.run after).advance ms).engine.outcome? u.id =
        some (.failed .closed u.bytesSent u.framesSent) ↔ due ≤ (changed.run after).clock + ms)
  /-- With that the engine is free. -/
  frees_in_time : u.stopped = false → .stop u.id ∉ after → ¬ (changed.run after).NotHeld u.id →
    ∀ ms, due ≤ (changed.run after).clock + ms →
      ((changed.run after).advance ms).engine.active = none
  /-- Whatever else ends it frees the engine as well. -/
  frees : ¬ (changed.run after).NotHeld u.id → ∀ a, ((changed.run after).act a).NotHeld u.id →
    ((changed.run after).act a).engine.active = none

/-- Time asks no upload to stop. -/
theorem fate_reaches {b b' : Bridge} {u : Upload} {h due : Nat} {asked : Bool}
    (hf : Fate b u h due asked) (hreach : Reaches Action.OfTime b b') : Fate b' u h due asked := by
  obtain ⟨actions, hactions, rfl⟩ := hreach
  have hnot : .stop u.id ∉ actions := fun hmem => hactions _ hmem
  have hnone : actions.contains (.stop u.id) = false := by simpa using hnot
  obtain ⟨hlater, -⟩ := fate_run hf actions
  rwa [hnone, Bool.or_false] at hlater

theorem leftBehind_of_stranded {b : Bridge} {u : Upload} {h due : Nat} (hs : Stranded b u h due)
    (after : List Action) : LeftBehind b u due after := by
  have hheld : Fate b u h due u.stopped := .holds hs
  obtain ⟨hfate, hlink⟩ := fate_run hheld after
  have unasked : u.stopped = false → .stop u.id ∉ after → Fate (b.run after) u h due false := by
    intro hstopped hnot
    have hasked : (u.stopped || after.contains (.stop u.id)) = false := by simp [hstopped, hnot]
    rwa [hasked] at hfate
  refine ⟨?_, hlink, ?_, ?_, ?_, ?_⟩
  · rw [hlink]
    refine Link.writtenFor_run_of_not_for fun s hs => ?_
    simpa using (List.mem_filter.mp hs).2
  · cases hfate with
    | holds hs' => exact .inl ⟨_, hs'.running.active_eq, rfl, hs'.running.outcome_eq⟩
    | ended outcome hgives he =>
      cases hgives with
      | failed hdue => exact .inr (.inl ⟨he.notHeld, hdue, he.outcome_eq⟩)
      | cancelled hstopped =>
        exact .inr (.inr ⟨he.notHeld, by simpa using hstopped, he.outcome_eq⟩)
  · intro hstopped hnot ms
    have hreach := (b.run after).reaches_advance ms
    constructor
    · intro houtcome
      cases fate_reaches (unasked hstopped hnot) hreach with
      | holds hs' =>
        have hnone := hs'.running.outcome_eq
        rw [houtcome] at hnone
        cases hnone
      | ended outcome hgives he =>
        cases hgives with
        | failed hdue => exact hdue
        | cancelled htrue => cases htrue
    · intro hdue
      cases unasked hstopped hnot with
      | holds hs' => exact (fails_of_stranded hs' rfl hdue).2.outcome_eq
      | ended outcome hgives he =>
        cases hgives with
        | failed => exact (ended_reaches hreach he).outcome_eq
        | cancelled htrue => cases htrue
  · intro hstopped hnot hheld ms hdue
    cases unasked hstopped hnot with
    | holds hs' => exact (fails_of_stranded hs' rfl hdue).1
    | ended outcome hgives he => exact absurd he.notHeld hheld
  · intro hheld a hreleased
    cases hfate with
    | holds hs' => exact free_of_release hs'.running.active_eq hreleased
    | ended outcome hgives he => exact absurd he.notHeld hheld

/-- **An upload never moves to another port.**  In every state that can be reached, let an upload
run over a handle and have frames left, and let the link be closed, reconnected or opened, with
or without success and at whatever path.  What the upload has counted is what had been written,
all of it through its handle; and whatever happens then, it is left behind: nothing more is
written for it, it fails for want of a link when its next frame is due, unless it is asked to
stop before, and tells what it had counted; the engine is free; and the link is as without it
for all others. -/
theorem upload_never_changes_links (settings : Settings) (bench : Bench)
    (before after : List Action) (change : Link.Step) (others : change.ForOthers) (u : Upload)
    (h due : Nat) :
    let b := (new settings bench).run before
    let changed := b.act (.link change others)
    b.engine.active = some u → u.stage = .running h due → change.Withdraws →
    Carried u.plan h u.framesSent u.bytesSent (changed.link.writtenFor u.id) ∧
      u.framesSent < u.plan.frames.length ∧ LeftBehind changed u due after := by
  intro b changed hactive hstage hwithdraws
  have hsound : b.link.Sound :=
    sound_link_run (b := new settings bench) (Link.sound_new bench) before
  have hbridge : ((Sessions.new settings bench).run before).bridge = b :=
    Sessions.bridge_run _ before
  have hr : Running b u h due := by
    have haccounted := Sessions.accounted_run (Sessions.accounted_new settings bench) before
    rw [← hbridge] at hactive ⊢
    exact haccounted.running_of_active hactive hstage
  have hanchored : Anchored b :=
    anchored_run (b := new settings bench) (Link.sound_new bench) (fun _ _ _ hu => nomatch hu)
      before
  obtain ⟨port, hp⟩ := hanchored u h due hactive hstage
  have hr' : Running changed u h due := running_act hr (fun h => nomatch h) (fun h => nomatch h)
  have hstranded : Stranded changed u h due :=
    ⟨hr', ⟨port, portOf_act hp _⟩, Link.openAt_step_of_withdraws hsound hp hwithdraws⟩
  exact ⟨hr'.carried, hr.framesSent_lt, leftBehind_of_stranded hstranded after⟩

/-- The first of two chunks has gone out, and the second one is due after ten milliseconds. -/
def halfway : List Action :=
  opening ++ [.begin ⟨0⟩ [0x61, 0x62, 0x63, 0x64, 0x65] true, .launch 1, .proceed, .pass 4]

/-- The upload after its first chunk. -/
def halfSent : Upload where
  id := 1
  client := ⟨0⟩
  plan := .build [0x61, 0x62, 0x63, 0x64, 0x65] pacedSettings.transfer
  announced := true
  pending := [.chunk [0x64, 0x65]]
  framesSent := 1
  bytesSent := 3
  stage := .running 0 10

/-- The port is opened again in between, and a client writes a line to it. -/
theorem upload_never_changes_links_reopened :
    let b := (new pacedSettings {}).run halfway
    let changed := b.act (.link (.openPort ["p"] 0) trivial)
    let later := changed.run [.link (.writeOn .line 1 (.message "x")) trivial, .pass 3]
    b.engine.active = some halfSent ∧ changed.link.current = some 1 ∧
      later.link.writtenFor 1 = changed.link.writtenFor 1 ∧
      (later.advance 2).engine.outcome? 1 ≠ some (.failed .closed 3 1) ∧
      (later.advance 3).engine.outcome? 1 = some (.failed .closed 3 1) := by
  intro b changed later
  obtain ⟨-, -, hleft⟩ := upload_never_changes_links pacedSettings {} halfway
    [.link (.writeOn .line 1 (.message "x")) trivial, .pass 3] (.openPort ["p"] 0) trivial halfSent
    0 10 rfl rfl trivial
  have hfails := hleft.fails_in_time rfl (by decide)
  refine ⟨rfl, rfl, hleft.nothing_more, fun hearly => ?_, (hfails 3).mpr (by decide)⟩
  exact absurd ((hfails 2).mp hearly) (by decide)

end Bridge

end SerialBridge
