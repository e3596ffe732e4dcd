import SerialBridge.Proofs.Stopping
import SerialBridge.Proofs.Turns

/-! # The pace of an upload

An upload writes its first frame when it is started and waits before every other one.  The delay is
counted from frame to frame, and nothing takes time but waiting, so the time at which a frame is due
is fixed with the start: the frame of number `k`, from zero, is due after `k` delays (`Timely`).  It
goes out at that very time, however far the clock is moved at once: a move across several due frames
stops at each of them on its way (`punctual_workFor`).

So how many frames were written by some time can be told from the time alone (`framesDue`), and with
their number the bytes of the upload on the wire and whether it has ended (`OnSchedule`).  It plays no
role in how many moves the clock came there, nor what others did meanwhile (`uploads_keep_pace`).
Only an upload that is stopped, or whose write fails, leaves its schedule, and then it ends
(`CutShort`).
-/

namespace SerialBridge

/-- An upload that ends so did not get all of its frames out. -/
def Outcome.IsCut : Outcome → Prop
  | .cancelled .. | .failed .. => True
  | .skipped | .completed .. => False

namespace Bridge

/-! ## Keeping the pace -/

/-- An upload that runs keeps its pace.  Its next frame is due so many delays after the start as
frames were written, and so late at least that the one before was due. -/
structure Timely (b : Bridge) (u : Upload) (h due start delay : Nat) : Prop where
  running : Running b u h due
  delay_eq : b.engine.settings.frameDelayMs.toNat = delay
  due_eq : due = start + u.framesSent * delay
  clock_ge : start + (u.framesSent - 1) * delay ≤ b.clock
  clock_le : b.clock ≤ due

/-- An upload that was started keeps its pace, or it has left it for good. -/
inductive Punctual (b : Bridge) (id : Nat) (plan : Plan) (h start delay : Nat) : Prop where
  /-- It waits for its next frame to become due. -/
  | waits (u : Upload) (due : Nat) (hid : u.id = id) (hplan : u.plan = plan)
    (timely : Timely b u h due start delay) (early : b.clock < due)
  /-- It has written its last frame. -/
  | completed (bytes : Nat) (ended : Ended b id plan h (.completed bytes plan.frames.length))
    (late : start + (plan.frames.length - 1) * delay ≤ b.clock)
  /-- It was stopped, or a write failed. -/
  | cut (outcome : Outcome) (ended : Ended b id plan h outcome) (hcut : outcome.IsCut)

section Pace

variable {b : Bridge} {u : Upload} {id h due start delay : Nat} {plan : Plan}

/-- An upload stays timely while it writes nothing, until its next frame is due. -/
theorem Timely.congr {b' : Bridge} {v : Upload} (ht : Timely b u h due start delay)
    (hr : Running b' v h due) (hsettings : b'.engine.settings = b.engine.settings)
    (hsent : v.framesSent = u.framesSent) (hge : b.clock ≤ b'.clock) (hle : b'.clock ≤ due) :
    Timely b' v h due start delay where
  running := hr
  delay_eq := by
    rw [hsettings]
    exact ht.delay_eq
  due_eq := by
    rw [hsent]
    exact ht.due_eq
  clock_ge := by
    rw [hsent]
    exact Nat.le_trans ht.clock_ge hge
  clock_le := hle

/-- Time may pass until the next frame is due. -/
theorem timely_pass (ht : Timely b u h due start delay) {ms : Nat} (hle : b.clock + ms ≤ due) :
    Timely (b.act (.pass ms)) u h due start delay := by
  have hr : Running (b.act (.pass ms)) u h due := by
    apply running_act ht.running
    · intro heq
      cases heq
    · intro heq
      cases heq
  exact ht.congr hr rfl rfl (Nat.le_add_right _ _) hle

/-- **What an upload does when its next frame is due.**  The write fails, or the frame was the last
one, which was due then, or the next one is due a delay later. -/
theorem timely_write (ht : Timely b u h due start delay) (hstopped : u.stopped = false)
    (hclock : b.clock = due) :
    (∃ outcome, outcome.IsCut ∧ Ended (b.stepUpload u h) u.id u.plan h outcome) ∨
    (start + (u.plan.frames.length - 1) * delay = due ∧
      ∃ bytes, Ended (b.stepUpload u h) u.id u.plan h (.completed bytes u.plan.frames.length)) ∨
    ∃ v, v.id = u.id ∧ v.plan = u.plan ∧ v.framesSent = u.framesSent + 1 ∧
      Timely (b.stepUpload u h) v h (due + delay) start delay := by
  have hfirst := ht.due_eq
  rcases running_write ht.running hstopped with
    ⟨_, reason, -, -, he⟩ | ⟨hlast, bytes, he⟩ | ⟨v, hid, hplan, -, hsent, hv⟩
  · exact .inl ⟨.failed reason u.bytesSent u.framesSent, trivial, he⟩
  · refine .inr (.inl ⟨?_, bytes, he⟩)
    rw [← hlast, Nat.add_sub_cancel, hfirst]
  · rw [hclock, ht.delay_eq] at hv
    have hclock' := clock_stepUpload ht.running.active_eq h
    refine .inr (.inr ⟨v, hid, hplan, hsent, hv, ?_, ?_, ?_, ?_⟩)
    · rw [settings_of_change (change_stepUpload ht.running.active_eq h)]
      exact ht.delay_eq
    · rw [hsent, Nat.succ_mul]
      omega
    · rw [hsent, Nat.add_sub_cancel]
      omega
    · omega

/-- Nothing that takes no time makes an upload leave its pace. -/
theorem punctual_act (hp : Punctual b id plan h start delay) {a : Action}
    (hclock : (b.act a).clock = b.clock) : Punctual (b.act a) id plan h start delay := by
  cases hp with
  | waits u due hid hplan timely early =>
    subst hid hplan
    -- an upload that still runs is as timely as before
    have still : ∀ v : Upload, v.id = u.id → v.plan = u.plan → v.framesSent = u.framesSent →
        Running (b.act a) v h due → Punctual (b.act a) u.id u.plan h start delay := by
      intro v hid hplan hsent hr
      have hsettings := settings_of_change (b.change_act a)
      have hle := timely.clock_le
      exact .waits v due hid hplan
        (timely.congr hr hsettings hsent (by omega) (by omega)) (by omega)
    by_cases hproceed : a = .proceed
    · subst hproceed
      rcases running_proceed timely.running with ⟨hwait, -⟩ | ⟨-, he⟩ | ⟨-, hdue, -⟩
      · refine still u rfl rfl rfl ?_
        rw [act, hwait]
        exact timely.running
      · exact .cut _ he trivial
      · omega
    · by_cases hstop : a = .stop u.id
      · subst hstop
        exact still { u with stopped := true } rfl rfl rfl (running_stop timely.running)
      · exact still u rfl rfl rfl (running_act timely.running hproceed hstop)
  | completed bytes ended late =>
    refine .completed bytes (ended_act ended a) ?_
    rwa [hclock]
  | cut outcome ended hcut => exact .cut outcome (ended_act ended a) hcut

theorem punctual_run (hp : Punctual b id plan h start delay) {actions : List Action}
    (hclock : (b.run actions).clock = b.clock) :
    Punctual (b.run actions) id plan h start delay := by
  induction actions generalizing b with
  | nil => exact hp
  | cons a actions ih =>
    rw [run_cons] at hclock ⊢
    have hfirst := (b.clock_le_act a).1
    have hlater := (b.act a).clock_le_run actions
    have hsame : (b.act a).clock = b.clock := by omega
    exact ih (punctual_act hp hsame) (hclock.trans hsame.symm)

/-- The rest of the time up to a moment passes. -/
def passTo (b : Bridge) (time : Nat) : Bridge :=
  b.act (.pass (time - b.clock))

theorem clock_passTo (b : Bridge) {time : Nat} (h : b.clock ≤ time) :
    (b.passTo time).clock = time :=
  Nat.add_sub_cancel' h

/-- What has ended by the time that some work is done has ended when the time is up. -/
theorem ended_passTo {b' : Bridge} {outcome : Outcome} (n : Nat) {time : Nat}
    (he : Ended b' id plan h outcome) (hle : b'.clock ≤ time) :
    Ended ((workFor n time b').passTo time) id plan h outcome :=
  ended_act (ended_reaches (reaches_workFor n hle).1 he) _

/-- Work stops at the time when a frame is due that is due within the time, and writes it. -/
theorem workFor_of_timely (ht : Timely b u h due start delay) (hstopped : u.stopped = false)
    {time : Nat} (hdue : due ≤ time) (n : Nat) :
    ∃ now : Bridge, Timely now u h due start delay ∧ now.clock = due ∧
      workFor (n + 1) time b = workFor n time (now.stepUpload u h) := by
  have hrunning := running?_of_stage ht.running.active_eq ht.running.stage_eq
  rw [hstopped, if_neg Bool.false_ne_true] at hrunning
  have hclock : b.clock + (due - b.clock) = due := Nat.add_sub_cancel' ht.clock_le
  have hnow : Timely (b.act (.pass (due - b.clock))) u h due start delay :=
    timely_pass ht (Nat.le_of_eq hclock)
  refine ⟨_, hnow, hclock, ?_⟩
  have hreached : due ≤ (b.act (.pass (due - b.clock))).clock := Nat.le_of_eq hclock.symm
  have hstep : (b.act (.pass (due - b.clock))).act .proceed =
      (b.act (.pass (due - b.clock))).stepUpload u h := by
    rw [act, proceed_of_running hnow.running.active_eq hnow.running.stage_eq, hstopped,
      if_neg Bool.false_ne_true, if_pos hreached]
  rw [workFor_succ_of_due hrunning hdue, hstep]

/-- Work leaves alone what is due later. -/
theorem workFor_of_early (ht : Timely b u h due start delay) (hstopped : u.stopped = false)
    {time : Nat} (hearly : time < due) (n : Nat) : workFor n time b = b := by
  have hrunning := running?_of_stage ht.running.active_eq ht.running.stage_eq
  rw [hstopped, if_neg Bool.false_ne_true] at hrunning
  cases n with
  | zero => rfl
  | succ n =>
    rw [workFor, hrunning]
    dsimp only
    rw [if_neg (Nat.not_le.mpr hearly)]

/-- Work ends an upload that was asked to stop. -/
theorem ended_workFor_of_stopped (ht : Timely b u h due start delay) (hstopped : u.stopped = true)
    {time : Nat} (htime : b.clock ≤ time) (n : Nat) :
    Ended ((workFor (n + 1) time b).passTo time) u.id u.plan h
      (.cancelled u.bytesSent u.framesSent) := by
  have hrunning := running?_of_stage ht.running.active_eq ht.running.stage_eq
  rw [if_pos hstopped] at hrunning
  have hle : (b.act .proceed).clock ≤ time := by rwa [act, clock_proceed]
  rw [workFor_succ_of_past hrunning (Nat.zero_le _) (Nat.zero_le _)]
  exact ended_passTo n (ended_proceed_of_stopped ht.running hstopped) hle

/-- **Frames go out when they are due.**  Whatever is due up to some time is done at the time when
it is due, so that an upload is punctual when the time is up. -/
theorem punctual_workFor (n : Nat) (ht : Timely b u h due start delay) {time : Nat}
    (htime : b.clock ≤ time) (hn : u.plan.frames.length - u.framesSent ≤ n) :
    Punctual ((workFor n time b).passTo time) u.id u.plan h start delay := by
  have hlt := ht.running.framesSent_lt
  induction n generalizing b u due with
  | zero => omega
  | succ n ih =>
    cases hstopped : u.stopped with
    | true => exact .cut _ (ended_workFor_of_stopped ht hstopped htime n) trivial
    | false =>
      by_cases hdue : due ≤ time
      · obtain ⟨now, hnow, hclock, heq⟩ := workFor_of_timely ht hstopped hdue n
        have hle : (now.stepUpload u h).clock ≤ time := by
          rw [clock_stepUpload hnow.running.active_eq, hclock]
          exact hdue
        rw [heq]
        rcases timely_write hnow hstopped hclock with
          ⟨outcome, hcut, he⟩ | ⟨hlast, bytes, he⟩ | ⟨v, hid, hplan, hsent, hv⟩
        · exact .cut outcome (ended_passTo n he hle) hcut
        · refine .completed bytes (ended_passTo n he hle) ?_
          rw [clock_passTo _ (reaches_workFor n hle).2, hlast]
          exact hdue
        · rw [← hid, ← hplan]
          apply ih hv hle
          · rw [hplan, hsent]
            omega
          · exact hv.running.framesSent_lt
      · -- the time is up before the next frame is due
        have hclock := b.clock_passTo htime
        rw [workFor_of_early ht hstopped (Nat.not_le.mp hdue)]
        exact .waits u due rfl rfl (timely_pass ht (by omega)) (by omega)

/-- An upload that runs has been given enough steps to write all that is left of it. -/
theorem punctual_work (ht : Timely b u h due start delay) {time : Nat} (htime : b.clock ≤ time) :
    Punctual ((b.work time).passTo time) u.id u.plan h start delay := by
  apply punctual_workFor _ ht htime
  rw [ht.running.active_eq, Option.map_some, Option.getD_some, ht.running.pending_eq,
    List.length_drop]
  omega

theorem punctual_advance (hp : Punctual b id plan h start delay) (ms : Nat) :
    Punctual (b.advance ms) id plan h start delay := by
  cases hp with
  | waits u due hid hplan timely early =>
    subst hid hplan
    rw [advance_eq]
    exact punctual_work timely (Nat.le_add_right _ _)
  | completed bytes ended late =>
    exact .completed bytes (ended_reaches (b.reaches_advance ms) ended)
      (Nat.le_trans late (Nat.le_add_right _ _))
  | cut outcome ended hcut => exact .cut outcome (ended_reaches (b.reaches_advance ms) ended) hcut

/-- **A turn leaves an upload punctual**, whoever takes it. -/
theorem punctual_turn (hp : Punctual b id plan h start delay) {t : Turn} (ht : t.Attentive) :
    Punctual (b.turn t) id plan h start delay := by
  have hclock := b.clock_turn ht
  by_cases htime : t.elapsed = 0
  · obtain ⟨actions, -, heq⟩ := b.reaches_turn t id 0
    rw [← heq] at hclock ⊢
    rw [htime] at hclock
    exact punctual_run hp hclock
  · -- time passes with a move of the clock only
    cases t with
    | reading => exact absurd rfl htime
    | deed what =>
      cases what with
      | advance ms => exact punctual_advance hp ms
      | _ => exact absurd rfl htime

theorem punctual_runTurns (hp : Punctual b id plan h start delay) {turns : List Turn}
    (hturns : ∀ t ∈ turns, t.Attentive) :
    Punctual (b.runTurns turns) id plan h start delay ∧
      (b.runTurns turns).clock = b.clock + elapsed turns := by
  induction turns generalizing b with
  | nil => exact ⟨hp, rfl⟩
  | cons t turns ih =>
    obtain ⟨ht, hturns⟩ := List.forall_mem_cons.mp hturns
    obtain ⟨hlater, hclock⟩ := ih (punctual_turn hp ht) hturns
    rw [runTurns_cons]
    refine ⟨hlater, ?_⟩
    rw [hclock, b.clock_turn ht, elapsed, Nat.add_assoc]

theorem punctual_settle (ht : Timely b u h due start delay) :
    Punctual b.settle u.id u.plan h start delay := by
  have hnow : b.settle.passTo b.clock = b.settle := by
    rw [passTo, clock_settle, Nat.sub_self]
    rfl
  have hp : Punctual (b.settle.passTo b.clock) u.id u.plan h start delay :=
    punctual_work ht (Nat.le_refl _)
  rwa [hnow] at hp

/-- An upload is punctual from its start on, and its schedule begins then. -/
theorem punctual_start (hc : Claimed b u) :
    ∃ h, Punctual (b.start u.id) u.id u.plan h b.clock b.engine.settings.frameDelayMs.toNat := by
  cases hcurrent : b.link.current with
  | none =>
    exact ⟨0, .cut _ (ended_reaches (reaches_settle _) (ended_launch hc 0 hcurrent)) trivial⟩
  | some h =>
    have hsettings : (b.launch u.id).engine.settings = b.engine.settings :=
      settings_of_change (b.change_act (.launch u.id))
    have hnone : ({ u with stage := .running h b.clock } : Upload).framesSent = 0 :=
      hc.framesSent_eq
    have ht : Timely (b.launch u.id) { u with stage := .running h b.clock } h b.clock b.clock
        b.engine.settings.frameDelayMs.toNat := by
      refine ⟨running_launch hc hcurrent, by rw [hsettings], ?_, ?_, ?_⟩
      · rw [hnone, Nat.zero_mul, Nat.add_zero]
      · rw [hnone, Nat.zero_sub, Nat.zero_mul, b.clock_launch]
        exact Nat.le_refl _
      · exact Nat.le_of_eq (b.clock_launch u.id)
    have hp := punctual_settle ht
    exact ⟨h, hp⟩

end Pace

/-! ## The schedule -/

/-- How many of some frames are due when some time has passed since the first one: one more for
each delay, and all of them at once without a delay. -/
def framesDue (frames delay time : Nat) : Nat :=
  if delay = 0 then frames else min frames (time / delay + 1)

theorem framesDue_of_waiting {frames k delay time : Nat} (hk : k < frames)
    (hge : (k - 1) * delay ≤ time) (hlt : time < k * delay) : framesDue frames delay time = k := by
  have hdelay : delay ≠ 0 := by
    rintro rfl
    rw [Nat.mul_zero] at hlt
    exact Nat.not_lt_zero _ hlt
  obtain ⟨j, rfl⟩ : ∃ j, k = j + 1 := by
    cases k with
    | zero =>
      rw [Nat.zero_mul] at hlt
      exact absurd hlt (Nat.not_lt_zero _)
    | succ j => exact ⟨j, rfl⟩
  rw [Nat.add_sub_cancel] at hge
  rw [framesDue, if_neg hdelay, Nat.div_eq_of_lt_le hge hlt]
  exact Nat.min_eq_right (Nat.le_of_lt hk)

theorem framesDue_of_late {frames delay time : Nat} (h : (frames - 1) * delay ≤ time) :
    framesDue frames delay time = frames := by
  unfold framesDue
  by_cases hdelay : delay = 0
  · rw [if_pos hdelay]
  · have hdiv : frames - 1 ≤ time / delay :=
      (Nat.le_div_iff_mul_le (Nat.pos_of_ne_zero hdelay)).mpr h
    rw [if_neg hdelay]
    omega

/-- An upload has ended before all of its frames were out. -/
def CutShort (b : Bridge) (id : Nat) : Prop :=
  ∃ outcome, b.engine.outcome? id = some outcome ∧ outcome.IsCut

/-- Of an upload just so many frames were written, from the front of its plan, whole and in order,
and with the last of them it is over. -/
structure OnSchedule (b : Bridge) (u : Upload) (k : Nat) : Prop where
  /-- These frames were written for it. -/
  frames_eq : (b.link.wholeFor u.id).map (·.frame) = u.plan.frames.take k
  /-- Devices took the bytes of these frames for it and no others. -/
  sent_eq : b.link.sentFor u.id = (u.plan.frames.take k).flatMap Frame.encode
  /-- It is complete if they are all there are, and else it has not ended. -/
  outcome_eq : b.engine.outcome? u.id =
    if k = u.plan.frames.length then some (.completed u.plan.payloadLength k) else none
  /-- It holds the engine until then, and knows how many they are. -/
  held : k < u.plan.frames.length →
    ∃ v, b.engine.active = some v ∧ v.id = u.id ∧ v.framesSent = k
  /-- It does not hold the engine afterwards. -/
  released : k = u.plan.frames.length → b.NotHeld u.id

/-- What was carried for an upload is on the wire. -/
theorem onWire_of_carried {b : Bridge} (hsound : b.link.Sound) {u : Upload} {h k bytes : Nat}
    (hcarried : Carried u.plan h k bytes (b.link.writtenFor u.id)) :
    (b.link.wholeFor u.id).map (·.frame) = u.plan.frames.take k ∧
      b.link.sentFor u.id = (u.plan.frames.take k).flatMap Frame.encode := by
  constructor
  · rw [wholeFor_of_carried hcarried, List.map_reverse, hcarried.frames_eq]
  · exact (sentBy_of_carried hsound (fun _ ht => (List.mem_filter.mp ht).1) hcarried).1

/-- **An upload that is punctual is on schedule**, unless it was cut short. -/
theorem onSchedule_of_punctual {b : Bridge} {u : Upload} {h start delay time : Nat}
    (hp : Punctual b u.id u.plan h start delay) (hsound : b.link.Sound)
    (hclock : b.clock = start + time) (hcut : ¬ b.CutShort u.id) :
    OnSchedule b u (framesDue u.plan.frames.length delay time) := by
  cases hp with
  | waits v due hid hplan timely early =>
    have hr := timely.running
    have hdue := timely.due_eq
    have hge := timely.clock_ge
    have hlt := hr.framesSent_lt
    have hcarried := hr.carried
    have hnone := hr.outcome_eq
    rw [hid, hplan] at hcarried
    rw [hplan] at hlt
    rw [hid] at hnone
    obtain ⟨hframes, hsent⟩ := onWire_of_carried hsound hcarried
    rw [framesDue_of_waiting hlt (by omega) (by omega)]
    refine ⟨hframes, hsent, ?_, fun _ => ⟨v, hr.active_eq, hid, rfl⟩, fun heq => ?_⟩
    · rw [if_neg (Nat.ne_of_lt hlt)]
      exact hnone
    · exact absurd heq (Nat.ne_of_lt hlt)
  | completed bytes ended late =>
    obtain ⟨-, hcarried⟩ := ended.truthful
    obtain ⟨hframes, hsent⟩ := onWire_of_carried hsound hcarried
    rw [framesDue_of_late (by omega)]
    refine ⟨hframes, hsent, ?_, fun hlt => absurd hlt (Nat.lt_irrefl _), fun _ => ended.notHeld⟩
    rw [if_pos rfl, ended.outcome_eq, hcarried.bytes_eq, List.take_length, Plan.payloadLength]
  | cut outcome ended hcut' => exact absurd ⟨outcome, ended.outcome_eq, hcut'⟩ hcut

/-! ## Uploads that are spared -/

theorem onCourse_reaches {b b' : Bridge} {id h d : Nat} {plan : Plan}
    (ho : OnCourse b id plan h) (hready : b.link.Ready h d)
    (hreach : Reaches (Action.Spares id d) b b') :
    OnCourse b' id plan h ∧ b'.link.Ready h d := by
  obtain ⟨actions, hspares, rfl⟩ := hreach
  exact onCourse_run ho hready hspares

theorem onCourse_start {b : Bridge} {u : Upload} {h d : Nat} (hc : Claimed b u)
    (hstopped : u.stopped = false) (hready : b.link.Ready h d) :
    OnCourse (b.start u.id) u.id u.plan h ∧ (b.start u.id).link.Ready h d := by
  have ho : OnCourse (b.launch u.id) u.id u.plan h :=
    .inl ⟨{ u with stage := .running h b.clock }, b.clock, rfl, rfl, hstopped,
      running_launch hc hready.current_eq⟩
  have hready' : (b.launch u.id).link.Ready h d := by rwa [b.link_launch u.id]
  exact onCourse_reaches ho hready'
    ((reaches_settle _).mono fun a ha => spares_of_ofTime ha u.id d)

theorem onCourse_runTurns {b : Bridge} {id h d : Nat} {plan : Plan} (ho : OnCourse b id plan h)
    (hready : b.link.Ready h d) {turns : List Turn} (hturns : ∀ t ∈ turns, t.Spares id d) :
    OnCourse (b.runTurns turns) id plan h := by
  induction turns generalizing b with
  | nil => exact ho
  | cons t turns ih =>
    obtain ⟨ht, hturns⟩ := List.forall_mem_cons.mp hturns
    obtain ⟨ho', hready'⟩ :=
      onCourse_reaches ho hready ((b.reaches_turn t id d).mono fun a ha => ha ht)
    rw [runTurns_cons]
    exact ih ho' hready' hturns

/-- An upload on its course was not cut short. -/
theorem not_cutShort_of_onCourse {b : Bridge} {id h : Nat} {plan : Plan}
    (ho : OnCourse b id plan h) : ¬ b.CutShort id := by
  rintro ⟨outcome, houtcome, hcut⟩
  rcases ho with ⟨u, due, rfl, -, -, hr⟩ | ⟨bytes, he⟩
  · rw [hr.outcome_eq] at houtcome
    cases houtcome
  · rw [he.outcome_eq] at houtcome
    cases houtcome
    exact hcut

/-- **An upload keeps its pace.**  In every state that can be reached, let a client begin an upload,
and let it be started later, as a request of a client does at once, whatever turns everyone takes
afterwards.  At every time after its start just so many of its frames were written as are due by
then, unless it was cut short: one at the start and one more for each delay, or all at the start
without a delay.  It is complete with the last of them, and has not ended before.  So it makes no
difference how the time was split among moves of the clock, nor what others did in between.  It is
not cut short if the link is not replaced, its device accepts what is written, and nobody asks the
upload to stop. -/
theorem uploads_keep_pace (settings : Settings) (bench : Bench) (before during : List Action)
    (client : ClientId) (payload : Bytes) (announced : Bool) (u : Upload) :
    let idle := (new settings bench).run before
    let begun := (idle.begin client payload announced).1.run during
    let after := fun turns => (begun.start u.id).runTurns turns
    (idle.begin client payload announced).2 = .ok (some u) →
    (∀ a ∈ during, ¬ a.Concerns u.id) →
    (∀ turns, (∀ t ∈ turns, t.Attentive) → ¬ (after turns).CutShort u.id →
      OnSchedule (after turns) u
        (framesDue u.plan.frames.length settings.transfer.frameDelayMs.toNat (elapsed turns))) ∧
    (∀ turns turns', (∀ t ∈ turns, t.Attentive) → (∀ t ∈ turns', t.Attentive) →
      ¬ (after turns).CutShort u.id → ¬ (after turns').CutShort u.id →
      elapsed turns = elapsed turns' →
        ((after turns).link.wholeFor u.id).map (·.frame) =
            ((after turns').link.wholeFor u.id).map (·.frame) ∧
          (after turns).link.sentFor u.id = (after turns').link.sentFor u.id ∧
          (after turns).engine.outcome? u.id = (after turns').engine.outcome? u.id) ∧
    ∀ h d, begun.link.current = some h → (∃ path, begun.link.portOf h = some (path, d)) →
      (∃ faults, begun.link.bench.faultsOf d = some faults ∧ faults.Accepting) →
      ∀ turns, (∀ t ∈ turns, t.Spares u.id d) → ¬ (after turns).CutShort u.id := by
  intro idle begun after hbegin hduring
  have hnumbered : Numbered idle := numbered_run (numbered_new settings bench) before
  have hsound : begun.link.Sound :=
    sound_link_run (b := (idle.begin client payload announced).1)
      (sound_link_run (b := new settings bench) (Link.sound_new bench) before) during
  obtain ⟨hclaimed, hstopped, -⟩ := claimed_begin hnumbered hbegin
  have hclaimed' : Claimed begun u :=
    run_preserves (P := fun b => Claimed b u) (fun _ _ ha hc => claimed_act hc ha) hclaimed hduring
  have hsettings : begun.engine.settings = settings.transfer :=
    (settings_run _ during).trans
      ((settings_of_change (idle.change_act (.begin client payload announced))).trans
        (settings_run _ before))
  have hschedule : ∀ turns, (∀ t ∈ turns, t.Attentive) → ¬ (after turns).CutShort u.id →
      OnSchedule (after turns) u
        (framesDue u.plan.frames.length settings.transfer.frameDelayMs.toNat (elapsed turns)) := by
    intro turns hturns hcut
    obtain ⟨h, hp⟩ := punctual_start hclaimed'
    obtain ⟨hp', hclock⟩ := punctual_runTurns hp hturns
    rw [hsettings] at hp'
    have hstarted : (begun.start u.id).link.Sound := sound_link_turn hsound (.deed (.start u.id))
    refine onSchedule_of_punctual hp' (sound_link_runTurns hstarted turns) ?_ hcut
    rw [hclock, clock_start]
  refine ⟨hschedule, ?_, ?_⟩
  · intro turns turns' hturns hturns' hcut hcut' htime
    have hfirst := hschedule turns hturns hcut
    have hsecond := hschedule turns' hturns' hcut'
    rw [← htime] at hsecond
    refine ⟨?_, ?_, ?_⟩
    · rw [hfirst.frames_eq, hsecond.frames_eq]
    · rw [hfirst.sent_eq, hsecond.sent_eq]
    · rw [hfirst.outcome_eq, hsecond.outcome_eq]
  · intro h d hcurrent hport haccepting turns hturns
    obtain ⟨ho, hready⟩ :=
      onCourse_start hclaimed' hstopped ⟨hsound, hcurrent, hport, haccepting⟩
    exact not_cutShort_of_onCourse (onCourse_runTurns ho hready hturns)

/-- The upload of two lines in three chunks. -/
def pacedUpload : Upload where
  id := 1
  client := ⟨0⟩
  plan := .build [0x61, lineFeed, 0x62, 0x63, 0x64, 0x65] pacedSettings.transfer
  announced := true

/-- The clock comes to fifteen in two moves, with a client's line between them, or in one.  Two of
three chunks are out by then, and they are the same bytes. -/
theorem uploads_keep_pace_two_chunks :
    let begun := ((new pacedSettings {}).run opening).begin ⟨0⟩
      [0x61, lineFeed, 0x62, 0x63, 0x64, 0x65] true
    let busy : List Turn := [.deed (.advance 7), .deed (.dispatch ⟨1⟩ (.sendCommand "x")),
      .reading (.poll 0), .deed (.advance 8)]
    OnSchedule ((begun.1.start 1).runTurns busy) pacedUpload 2 ∧
      ((begun.1.start 1).runTurns busy).link.sentFor 1 =
        ((begun.1.start 1).runTurns [.deed (.advance 15)]).link.sentFor 1 := by
  intro begun busy
  have haccepting : ({ maxWrite := some 1 } : Faults).Accepting :=
    ⟨fun _ hstep => (nomatch hstep), rfl, rfl, by decide⟩
  obtain ⟨hschedule, hsame, hspared⟩ :=
    uploads_keep_pace pacedSettings {} opening [] ⟨0⟩
      [0x61, lineFeed, 0x62, 0x63, 0x64, 0x65] true pacedUpload rfl (fun _ ha => nomatch ha)
  have hbusy : ∀ t ∈ busy, t.Attentive ∧ t.Spares 1 0 := by
    simp [busy, Turn.Attentive, Turn.Spares, Deed.Spares, Request.kind]
  have hmove : ∀ t ∈ [Turn.deed (.advance 15)], t.Attentive ∧ t.Spares 1 0 := by
    simp [Turn.Attentive, Turn.Spares, Deed.Spares]
  have hcut := hspared 0 0 rfl ⟨"p", rfl⟩ ⟨_, rfl, haccepting⟩ busy fun t ht => (hbusy t ht).2
  have hcut' := hspared 0 0 rfl ⟨"p", rfl⟩ ⟨_, rfl, haccepting⟩ [.deed (.advance 15)]
    fun t ht => (hmove t ht).2
  have htwo : framesDue pacedUpload.plan.frames.length
      pacedSettings.transfer.frameDelayMs.toNat (elapsed busy) = 2 := by decide
  have hfirst := hschedule busy (fun t ht => (hbusy t ht).1) hcut
  rw [htwo] at hfirst
  refine ⟨hfirst, ?_⟩
  exact (hsame busy [.deed (.advance 15)] (fun t ht => (hbusy t ht).1)
    (fun t ht => (hmove t ht).1) hcut hcut' rfl).2.1

end Bridge

end SerialBridge
