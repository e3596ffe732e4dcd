import SerialBridge.Proofs.Books

/-! # One upload at a time

Callers keep their own books of the uploads (`Sessions`).  An upload is theirs from the moment
`begin` hands it to them; they set it running once, or give it up before that, and when it has
run they are told how it ended.  In between it is *live*.  These books are kept from what
callers see, without a look at who holds the engine.

The invariant (`Kept`) is that both books agree: the engine is free when no upload is live, and
otherwise the one live upload holds it (`Held`).  Uploads are numbered as they are begun, and
only the latest one holds the engine, so frames go out in the order of the numbers.

What is proved of every run of actions holds of the functions of a bridge in any order, with
any faults of link and devices: each of them is a run of actions (`reaches_dispatch` and
others), and the books can be kept along it (`exists_run_of_reaches`).
-/

namespace SerialBridge

/-- Two states of one upload: its number, client and plan never change. -/
def Upload.Continues (u v : Upload) : Prop :=
  u.id = v.id ∧ u.client = v.client ∧ u.plan = v.plan

namespace Engine

/-! ## What claiming, stopping and giving up come to -/

/-- The upload that a payload makes. -/
def newUpload (e : Engine) (client : ClientId) (payload : Bytes) (announced : Bool) : Upload :=
  { id := e.nextId, client, plan := .build payload e.settings, announced }

/-- Claiming the engine needs a payload and a free engine, and changes nothing otherwise. -/
theorem begin_cases (e : Engine) (client : ClientId) (payload : Bytes) (announced : Bool) :
    (payload = [] ∧ e.begin client payload announced = (e, .ok none)) ∨
    (payload ≠ [] ∧ e.active ≠ none ∧
      e.begin client payload announced = (e, .error .busy)) ∨
    (payload ≠ [] ∧ e.active = none ∧ e.begin client payload announced =
      ({ e with
          active := some (e.newUpload client payload announced)
          nextId := e.nextId + 1 }, .ok (some (e.newUpload client payload announced)))) := by
  cases payload with
  | nil => exact .inl ⟨rfl, rfl⟩
  | cons x payload =>
    cases hactive : e.active with
    | some u =>
      refine .inr (.inl ⟨List.cons_ne_nil _ _, Option.some_ne_none u, ?_⟩)
      simp [begin, hactive]
    | none =>
      refine .inr (.inr ⟨List.cons_ne_nil _ _, rfl, ?_⟩)
      simp [begin, hactive, newUpload]

theorem stop_cases (e : Engine) (id : Nat) :
    e.stop id = e ∨ ∃ u, e.active = some u ∧
      e.stop id = { e with active := some { u with stopped := true } } := by
  rw [stop, modify]
  cases hactive : e.active with
  | none =>
    rw [Option.map_none, ← hactive]
    exact .inl rfl
  | some u =>
    rw [Option.map_some]
    by_cases hid : u.id = id
    · rw [if_pos hid]
      exact .inr ⟨u, rfl, rfl⟩
    · rw [if_neg hid, ← hactive]
      exact .inl rfl

/-- Giving up frees the engine of the upload meant, if that has not been set running. -/
theorem drop_cases (e : Engine) (id : Nat) :
    (e.drop id = e ∧ ∀ u, e.active = some u → u.id = id → u.stage ≠ .claimed) ∨
    ∃ u, e.active = some u ∧ u.id = id ∧ u.stage = .claimed ∧
      e.drop id = { e with active := none } := by
  rw [drop]
  cases hactive : e.active with
  | none =>
    refine .inl ⟨rfl, fun u hu => ?_⟩
    cases hu
  | some u =>
    rw [Option.any_some]
    by_cases h : u.id = id ∧ u.stage = .claimed
    · obtain ⟨rfl, hstage⟩ := h
      refine .inr ⟨u, rfl, rfl, hstage, ?_⟩
      simp [hstage, release, hactive]
    · refine .inl ⟨?_, ?_⟩
      · rw [if_neg (by simpa using h)]
      · intro v hv hid hstage
        cases hv
        exact h ⟨hid, hstage⟩

/-- An outcome is never taken back. -/
theorem outcome?_of_change {e e' : Engine} (h : e.Change e') {id : Nat}
    (hnone : e'.outcome? id = none) : e.outcome? id = none := by
  cases h with
  | same | begun | went | dropped => exact hnone
  | ended u held outcome =>
    rw [outcome?, List.lookup_cons] at hnone
    split at hnone
    · cases hnone
    · exact hnone

end Engine

namespace Bridge

/-- The next thing of an upload ends it, or it has written the first frame it had left. -/
theorem books_stepUpload {b : Bridge} {u : Upload} (hactive : b.engine.active = some u)
    (h : Nat) :
    (∃ outcome, (b.stepUpload u h).engine =
        { b.engine with active := none, ended := (u.id, outcome) :: b.engine.ended }) ∨
      ∃ frame rest next, u.pending = frame :: rest ∧
        (b.stepUpload u h).engine =
          { b.engine with active := some (u.advance frame rest h next) } := by
  cases hstopped : u.stopped with
  | true =>
    obtain ⟨published, heq⟩ := b.stepUpload_of_stopped hstopped h
    rw [heq]
    exact .inl ⟨_, finish_of_active hactive _⟩
  | false =>
    cases hpending : u.pending with
    | nil =>
      obtain ⟨published, heq⟩ := b.stepUpload_of_nothing_left hstopped hpending h
      rw [heq]
      exact .inl ⟨_, finish_of_active hactive _⟩
    | cons frame rest =>
      rcases stepUpload_of_pending hactive hstopped hpending h with
        ⟨_, _, -, heq⟩ | ⟨_, -, -, heq⟩ | ⟨-, -, heq⟩ <;> rw [heq]
      · exact .inl ⟨_, finish_of_active hactive _⟩
      · exact .inl ⟨_, finish_of_active hactive _⟩
      · exact .inr ⟨frame, rest, _, rfl, rfl⟩

/-- Where an upload that holds the engine after an action comes from: it held it before, or it
is a new one. -/
inductive Onward (b : Bridge) (v : Upload) : Prop where
  /-- Nothing was done to it. -/
  | same (hactive : b.engine.active = some v)
  /-- It was begun. -/
  | begun (client : ClientId) (payload : Bytes) (announced : Bool)
    (hv : v = b.engine.newUpload client payload announced)
  /-- It was set running over the current handle. -/
  | launched (u : Upload) (h : Nat) (hactive : b.engine.active = some u)
    (hcurrent : b.link.current = some h) (hv : v = { u with stage := .running h b.clock })
  /-- It has written one more frame. -/
  | sent (u : Upload) (frame : Frame) (rest : List Frame) (h due next : Nat)
    (hactive : b.engine.active = some u) (hstage : u.stage = .running h due)
    (hpending : u.pending = frame :: rest) (hv : v = u.advance frame rest h next)
  /-- It was asked to stop. -/
  | stopped (u : Upload) (hactive : b.engine.active = some u)
    (hv : v = { u with stopped := true })

theorem onward_proceed {b : Bridge} {v : Upload} (hv : b.proceed.engine.active = some v) :
    Onward b v := by
  by_cases hrunning : ∃ u h due, b.engine.active = some u ∧ u.stage = .running h due
  · obtain ⟨u, h, due, hactive, hstage⟩ := hrunning
    rw [proceed_of_running hactive hstage] at hv
    by_cases hdue : (if u.stopped then 0 else due) ≤ b.clock
    · rw [if_pos hdue] at hv
      rcases books_stepUpload hactive h with ⟨_, heq⟩ | ⟨frame, rest, next, hpending, heq⟩ <;>
        rw [heq] at hv
      · cases hv
      · cases hv
        exact .sent u frame rest h due next hactive hstage hpending rfl
    · rw [if_neg hdue] at hv
      exact .same hv
  · rw [proceed_of_not_running fun u h due hu hstage => hrunning ⟨u, h, due, hu, hstage⟩] at hv
    exact .same hv

/-- **What an action does to the upload that holds the engine.** -/
theorem onward_act {b : Bridge} {a : Action} {v : Upload}
    (hv : (b.act a).engine.active = some v) : Onward b v := by
  cases a with
  | link | publish | pass => exact .same hv
  | begin client payload announced =>
    change (b.engine.begin client payload announced).1.active = some v at hv
    rcases b.engine.begin_cases client payload announced with
      ⟨-, heq⟩ | ⟨-, -, heq⟩ | ⟨-, -, heq⟩ <;> rw [heq] at hv
    · exact .same hv
    · exact .same hv
    · cases hv
      exact .begun client payload announced rfl
  | launch id =>
    rw [act] at hv
    rcases b.launch_cases id with ⟨heq, -⟩ | ⟨u, _, hactive, rfl, -, ⟨-, heq⟩ | ⟨h, hh, heq⟩⟩ <;>
      rw [heq] at hv
    · exact .same hv
    · rw [finish_of_active hactive] at hv
      cases hv
    · cases hv
      exact .launched u h hactive hh rfl
  | proceed => exact onward_proceed hv
  | stop id =>
    change (b.engine.stop id).active = some v at hv
    rcases b.engine.stop_cases id with heq | ⟨u, hu, heq⟩ <;> rw [heq] at hv
    · exact .same hv
    · cases hv
      exact .stopped u hu rfl
  | drop id =>
    change (b.engine.drop id).active = some v at hv
    rcases b.engine.drop_cases id with ⟨heq, -⟩ | ⟨u, -, -, -, heq⟩ <;> rw [heq] at hv
    · exact .same hv
    · cases hv

end Bridge

/-! ## The books of the callers -/

/-- An upload that was set running. -/
structure Started where
  /-- The upload, as `begin` gave it. -/
  upload : Upload
  /-- The handle that was current then. -/
  handle : Option Nat
  deriving DecidableEq, Repr

/-- A bridge and what its callers know of the uploads they began, most recent first. -/
structure Sessions where
  /-- The bridge. -/
  bridge : Bridge
  /-- All that were begun, as `begin` gave them. -/
  begun : List Upload := []
  /-- Those that were neither set running nor given up. -/
  unrun : List Upload := []
  /-- Those that were set running. -/
  started : List Started := []
  deriving DecidableEq, Repr

namespace Sessions

/-- A new bridge, before anything is begun. -/
def new (settings : Settings) (bench : Bench) : Sessions where
  bridge := .new settings bench

/-- The bridge and the books after an action. -/
def act (s : Sessions) (a : Bridge.Action) : Sessions :=
  let after := { s with bridge := s.bridge.act a }
  match a with
  | .begin client payload announced =>
    match (s.bridge.begin client payload announced).2 with
    | .ok (some u) => { after with begun := u :: s.begun, unrun := u :: s.unrun }
    | .ok none | .error _ => after
  | .launch id =>
    { after with
      unrun := s.unrun.filter (·.id != id)
      started := (s.unrun.filter (·.id == id)).map (⟨·, s.bridge.link.current⟩) ++ s.started }
  | .drop id => { after with unrun := s.unrun.filter (·.id != id) }
  | .link .. | .publish _ | .proceed | .stop _ | .pass _ => after

/-- The bridge and the books after some actions. -/
def run (s : Sessions) (actions : List Bridge.Action) : Sessions :=
  actions.foldl act s

/-- The uploads that were set running and of which no outcome is told yet. -/
def running (s : Sessions) : List Upload :=
  (s.started.map (·.upload)).filter fun u => (s.bridge.engine.outcome? u.id).isNone

/-- The uploads that are neither given up nor at an end. -/
def live (s : Sessions) : List Upload :=
  s.unrun ++ s.running

theorem bridge_act (s : Sessions) (a : Bridge.Action) : (s.act a).bridge = s.bridge.act a := by
  cases a with
  | begin client payload announced =>
    rw [act]
    dsimp only
    split <;> rfl
  | link | publish | launch | proceed | stop | drop | pass => rfl

/-- Keeping the books leaves the bridge as it is. -/
theorem bridge_run (s : Sessions) (actions : List Bridge.Action) :
    (s.run actions).bridge = s.bridge.run actions := by
  induction actions generalizing s with
  | nil => rfl
  | cons a actions ih => exact (ih (s.act a)).trans (congrArg (·.run actions) (s.bridge_act a))

/-- A claim hands out a new upload if the engine is free, or comes to nothing. -/
theorem act_begin_cases (s : Sessions) (client : ClientId) (payload : Bytes) (announced : Bool) :
    s.act (.begin client payload announced) = s ∨
      (s.bridge.engine.active = none ∧
        let u := s.bridge.engine.newUpload client payload announced
        s.act (.begin client payload announced) =
          { s with
            bridge := { s.bridge with engine := { s.bridge.engine with
              active := some u
              nextId := s.bridge.engine.nextId + 1 } }
            begun := u :: s.begun
            unrun := u :: s.unrun }) := by
  rcases s.bridge.engine.begin_cases client payload announced with
    ⟨-, heq⟩ | ⟨-, -, heq⟩ | ⟨-, hactive, heq⟩
  · refine .inl ?_
    simp only [act, Bridge.act, Bridge.begin, heq]
  · refine .inl ?_
    simp only [act, Bridge.act, Bridge.begin, heq]
  · refine .inr ⟨hactive, ?_⟩
    simp only [act, Bridge.act, Bridge.begin, heq]

/-- An upload is begun under the next number, or none is. -/
theorem begun_act (s : Sessions) (a : Bridge.Action) :
    (s.act a).begun = s.begun ∨ ∃ u, u.id = s.bridge.engine.nextId ∧
      (s.act a).bridge.engine.nextId = s.bridge.engine.nextId + 1 ∧
      (s.act a).begun = u :: s.begun := by
  cases a with
  | begin client payload announced =>
    rcases s.act_begin_cases client payload announced with heq | ⟨-, heq⟩ <;> rw [heq]
    · exact .inl rfl
    · exact .inr ⟨_, rfl, rfl, rfl⟩
  | link | publish | launch | proceed | stop | drop | pass => exact .inl rfl

/-! ## Who holds the engine -/

/-- Of the uploads that were not set running and those that run, at most one is there, and it
holds the engine. -/
inductive Held (e : Engine) (unrun running : List Upload) : Prop where
  /-- The engine is free. -/
  | free (hactive : e.active = none) (hunrun : unrun = []) (hrunning : running = [])
  /-- An upload that was not set running. -/
  | unrun (u v : Upload) (hactive : e.active = some u) (hstage : u.stage = .claimed)
      (hsame : u.Continues v) (houtcome : e.outcome? v.id = none) (hunrun : unrun = [v])
      (hrunning : running = [])
  /-- An upload that runs. -/
  | running (u v : Upload) (h due : Nat) (hactive : e.active = some u)
      (hstage : u.stage = .running h due) (hsame : u.Continues v) (hunrun : unrun = [])
      (hrunning : running = [v])

section Held

variable {e : Engine} {unrun running : List Upload} {u : Upload}

theorem Held.of_free (hheld : Held e unrun running) (hactive : e.active = none) :
    unrun = [] ∧ running = [] := by
  cases hheld with
  | free _ hunrun hrunning => exact ⟨hunrun, hrunning⟩
  | unrun u v hactive' | running u v h due hactive' =>
    rw [hactive] at hactive'
    cases hactive'

theorem Held.of_claimed (hheld : Held e unrun running) (hactive : e.active = some u)
    (hstage : u.stage = .claimed) :
    ∃ v, u.Continues v ∧ e.outcome? v.id = none ∧ unrun = [v] ∧ running = [] := by
  cases hheld with
  | free hactive' =>
    rw [hactive] at hactive'
    cases hactive'
  | unrun u' v hactive' hstage' hsame houtcome hunrun hrunning =>
    rw [hactive] at hactive'
    cases hactive'
    exact ⟨v, hsame, houtcome, hunrun, hrunning⟩
  | running u' v h due hactive' hstage' =>
    rw [hactive] at hactive'
    cases hactive'
    rw [hstage] at hstage'
    cases hstage'

/-- An upload that is asked to stop holds the engine as before. -/
theorem Held.stop (hheld : Held e unrun running) (hactive : e.active = some u) :
    Held { e with active := some { u with stopped := true } } unrun running := by
  cases hheld with
  | free hactive' =>
    rw [hactive] at hactive'
    cases hactive'
  | unrun u' v hactive' hstage hsame houtcome hunrun hrunning =>
    rw [hactive] at hactive'
    cases hactive'
    exact .unrun _ v rfl hstage hsame houtcome hunrun hrunning
  | running u' v h due hactive' hstage hsame hunrun hrunning =>
    rw [hactive] at hactive'
    cases hactive'
    exact .running _ v h due rfl hstage hsame hunrun hrunning

/-- Whoever holds the engine is known to callers. -/
theorem Held.exists_mem (hheld : Held e unrun running) (hactive : e.active = some u) :
    ∃ v, u.Continues v ∧ v ∈ unrun ++ running := by
  cases hheld with
  | free hactive' =>
    rw [hactive] at hactive'
    cases hactive'
  | unrun u' v hactive' hstage hsame houtcome hunrun =>
    rw [hactive] at hactive'
    cases hactive'
    exact ⟨v, hsame, by simp [hunrun]⟩
  | running u' v h due hactive' hstage hsame hunrun hrunning =>
    rw [hactive] at hactive'
    cases hactive'
    exact ⟨v, hsame, by simp [hrunning]⟩

end Held

/-- Both books agree. -/
structure Kept (s : Sessions) : Prop where
  numbered : s.bridge.Numbered
  held : Held s.bridge.engine s.unrun s.running
  /-- The latest upload holds the engine, or none does. -/
  newest : ∀ u, s.bridge.engine.active = some u → u.id + 1 = s.bridge.engine.nextId
  known : ∀ u ∈ s.unrun ++ s.started.map (·.upload), u ∈ s.begun
  begun_lt : ∀ u ∈ s.begun, u.id < s.bridge.engine.nextId
  falling : s.begun.Pairwise fun v u => u.id < v.id
  /-- Only uploads that were begun are written for. -/
  authors : ∀ t ∈ s.bridge.link.transmissions, ∀ id, t.author = .upload id →
    ∃ u ∈ s.begun, u.id = id
  /-- What is written later is written for the same upload or a later one. -/
  ordered : s.bridge.link.transmissions.Pairwise fun t t' =>
    ∀ i j, t.author = .upload i → t'.author = .upload j → j ≤ i

theorem kept_new (settings : Settings) (bench : Bench) : Kept (new settings bench) where
  numbered := Bridge.numbered_new settings bench
  held := .free rfl rfl rfl
  newest := fun _ hu => nomatch hu
  known := fun _ hu => nomatch hu
  begun_lt := fun _ hu => nomatch hu
  falling := .nil
  authors := fun _ ht => nomatch ht
  ordered := .nil

/-- When an upload has ended it does not run any more. -/
theorem filter_of_ended {e e' : Engine} {id : Nat} {outcome : Outcome}
    (h : e'.ended = (id, outcome) :: e.ended) (us : List Upload) :
    us.filter (fun u => (e'.outcome? u.id).isNone) =
      (us.filter fun u => (e.outcome? u.id).isNone).filter (·.id != id) := by
  rw [List.filter_filter]
  refine List.filter_congr fun u _ => ?_
  rw [Engine.outcome?, h, List.lookup_cons, Engine.outcome?]
  by_cases hid : u.id = id
  · simp [hid]
  · have hne : (u.id == id) = false := beq_false_of_ne hid
    simp [hne, bne]

theorem held_begin {s : Sessions} (hs : Kept s) (client : ClientId) (payload : Bytes)
    (announced : Bool) :
    let s' := s.act (.begin client payload announced)
    Held s'.bridge.engine s'.unrun s'.running := by
  intro s'
  rcases s.act_begin_cases client payload announced with heq | ⟨hfree, heq⟩
  · rw [show s' = s from heq]
    exact hs.held
  · obtain ⟨hunrun, hrunning⟩ := hs.held.of_free hfree
    have hnew : s.bridge.engine.outcome? s.bridge.engine.nextId = none :=
      Bridge.outcome?_of_nextId_le hs.numbered (Nat.le_refl _)
    rw [show s' = _ from heq]
    exact .unrun _ _ rfl rfl ⟨rfl, rfl, rfl⟩ hnew (congrArg (_ :: ·) hunrun) hrunning

/-- Setting an upload running that is not there to be set running does nothing. -/
theorem filter_of_not_unrun {e : Engine} {unrun running : List Upload}
    (hheld : Held e unrun running) {id : Nat}
    (hnot : ∀ u, e.active = some u → u.id = id → u.stage ≠ .claimed) :
    unrun.filter (·.id != id) = unrun ∧ unrun.filter (·.id == id) = [] := by
  cases hheld with
  | free hactive hunrun => simp [hunrun]
  | running u v h due hactive hstage hsame hunrun => simp [hunrun]
  | unrun u v hactive hstage hsame houtcome hunrun =>
    have hne : v.id ≠ id := fun hid => hnot u hactive (hsame.1.trans hid) hstage
    simp [hunrun, hne]

theorem held_launch {s : Sessions} (hs : Kept s) (id : Nat) :
    Held (s.act (.launch id)).bridge.engine (s.act (.launch id)).unrun
      (s.act (.launch id)).running := by
  rcases s.bridge.launch_cases id with
    ⟨heq, hnot⟩ | ⟨u, published, hactive, rfl, hstage, hlaunch⟩
  · obtain ⟨hkeep, hnone⟩ := filter_of_not_unrun hs.held hnot
    have hact : s.act (.launch id) = s := by
      simp only [act, Bridge.act, heq, hkeep, hnone, List.map_nil, List.nil_append]
    rw [hact]
    exact hs.held
  · obtain ⟨v, hsame, houtcome, hunrun, hrunning⟩ := hs.held.of_claimed hactive hstage
    have hid : v.id = u.id := hsame.1.symm
    have hact : s.act (.launch u.id) = { s with
        bridge := s.bridge.launch u.id
        unrun := []
        started := ⟨v, s.bridge.link.current⟩ :: s.started } := by
      simp [act, Bridge.act, hunrun, hid]
    -- before it was set running it was live, and it alone
    have hone : (v :: s.started.map (·.upload)).filter
        (fun w => (s.bridge.engine.outcome? w.id).isNone) = [v] := by
      rw [List.filter_cons, houtcome, ← running, hrunning]
      rfl
    rw [hact]
    rcases hlaunch with ⟨-, heq⟩ | ⟨h, -, heq⟩ <;> rw [heq]
    · rw [Bridge.finish_of_active hactive]
      refine .free rfl rfl ((filter_of_ended rfl _).trans ?_)
      rw [List.map_cons, hone]
      simp [hid]
    · exact .running _ v h _ rfl rfl hsame rfl hone

theorem held_proceed {s : Sessions} (hs : Kept s) :
    Held (s.act .proceed).bridge.engine (s.act .proceed).unrun (s.act .proceed).running := by
  have stays : s.bridge.proceed = s.bridge → s.act .proceed = s := by
    intro heq
    rw [act, Bridge.act, heq]
  cases hs.held with
  | free hactive hunrun hrunning =>
    rw [stays (Bridge.proceed_of_not_running fun u h due hu => by rw [hactive] at hu; cases hu)]
    exact hs.held
  | unrun u v hactive hstage hsame houtcome hunrun hrunning =>
    have hnot : ∀ u' h due, s.bridge.engine.active = some u' → u'.stage ≠ .running h due := by
      intro u' h due hu
      rw [hactive] at hu
      cases hu
      rw [hstage]
      exact Stage.noConfusion
    rw [stays (Bridge.proceed_of_not_running hnot)]
    exact hs.held
  | running u v h due hactive hstage hsame hunrun hrunning =>
    have hproceed := Bridge.proceed_of_running hactive hstage
    by_cases hdue : (if u.stopped then 0 else due) ≤ s.bridge.clock
    · rw [if_pos hdue] at hproceed
      have hact : s.act .proceed = { s with bridge := s.bridge.stepUpload u h } := by
        rw [act, Bridge.act, hproceed]
      rw [hact]
      rcases Bridge.books_stepUpload hactive h with
        ⟨outcome, heq⟩ | ⟨frame, rest, next, -, heq⟩
      · refine .free (congrArg Engine.active heq) hunrun ?_
        refine (filter_of_ended (congrArg Engine.ended heq) _).trans ?_
        rw [← running, hrunning]
        simp [hsame.1]
      · refine .running (u.advance frame rest h next) v h next (congrArg Engine.active heq) rfl
          hsame hunrun ?_
        rw [running, heq]
        exact hrunning
    · rw [stays (hproceed.trans (if_neg hdue))]
      exact hs.held

theorem held_stop {s : Sessions} (hs : Kept s) (id : Nat) :
    Held (s.act (.stop id)).bridge.engine (s.act (.stop id)).unrun
      (s.act (.stop id)).running := by
  change Held (s.bridge.engine.stop id) s.unrun
    ((s.started.map (·.upload)).filter fun u => ((s.bridge.engine.stop id).outcome? u.id).isNone)
  rcases s.bridge.engine.stop_cases id with heq | ⟨u, hactive, heq⟩ <;> rw [heq]
  · exact hs.held
  · exact hs.held.stop hactive

theorem held_drop {s : Sessions} (hs : Kept s) (id : Nat) :
    Held (s.act (.drop id)).bridge.engine (s.act (.drop id)).unrun
      (s.act (.drop id)).running := by
  change Held (s.bridge.engine.drop id) (s.unrun.filter (·.id != id))
    ((s.started.map (·.upload)).filter fun u => ((s.bridge.engine.drop id).outcome? u.id).isNone)
  rcases s.bridge.engine.drop_cases id with
    ⟨heq, hnot⟩ | ⟨u, hactive, rfl, hstage, heq⟩ <;> rw [heq]
  · rw [(filter_of_not_unrun hs.held hnot).1]
    exact hs.held
  · obtain ⟨v, hsame, -, hunrun, hrunning⟩ := hs.held.of_claimed hactive hstage
    exact .free rfl (by simp [hunrun, hsame.1]) hrunning

/-- **Both books go on agreeing** about who holds the engine. -/
theorem held_act {s : Sessions} (hs : Kept s) (a : Bridge.Action) :
    Held (s.act a).bridge.engine (s.act a).unrun (s.act a).running := by
  cases a with
  | link | publish | pass => exact hs.held
  | begin client payload announced => exact held_begin hs client payload announced
  | launch id => exact held_launch hs id
  | proceed => exact held_proceed hs
  | stop id => exact held_stop hs id
  | drop id => exact held_drop hs id

/-! ## The order of frames -/

theorem known_act {s : Sessions} (hs : Kept s) (a : Bridge.Action) :
    ∀ u ∈ (s.act a).unrun ++ (s.act a).started.map (·.upload), u ∈ (s.act a).begun := by
  have hknown := hs.known
  cases a with
  | link | publish | proceed | stop | pass => exact hknown
  | begin client payload announced =>
    rcases s.act_begin_cases client payload announced with heq | ⟨-, heq⟩ <;> rw [heq]
    · exact hknown
    · intro u hu
      rcases List.mem_cons.mp hu with rfl | hu
      · exact List.mem_cons_self
      · exact List.mem_cons_of_mem _ (hknown u hu)
  | launch id =>
    intro u hu
    refine hknown u ?_
    simp only [act, List.map_append, List.map_map, Function.comp_def, List.map_id',
      List.mem_append, List.mem_filter] at hu
    rw [List.mem_append]
    rcases hu with hu | hu | hu
    · exact .inl hu.1
    · exact .inl hu.1
    · exact .inr hu
  | drop id =>
    intro u hu
    refine hknown u ?_
    simp only [act, List.mem_append, List.mem_filter] at hu
    rw [List.mem_append]
    exact hu.imp_left And.left

/-- Whoever holds the engine was begun. -/
theorem Kept.exists_begun {s : Sessions} (hs : Kept s) {u : Upload}
    (hactive : s.bridge.engine.active = some u) : ∃ v ∈ s.begun, v.id = u.id := by
  obtain ⟨v, hsame, hv⟩ := hs.held.exists_mem hactive
  refine ⟨v, hs.known v ?_, hsame.1.symm⟩
  rw [List.mem_append] at hv ⊢
  exact hv.imp_right fun hv => (List.mem_filter.mp hv).1

theorem newest_of_change {e e' : Engine} (h : e.Change e')
    (hnewest : ∀ u, e.active = some u → u.id + 1 = e.nextId) :
    ∀ u, e'.active = some u → u.id + 1 = e'.nextId := by
  cases h with
  | same => exact hnewest
  | begun u free fresh =>
    intro v hv
    cases hv
    exact congrArg (· + 1) fresh
  | went u v held hid =>
    intro w hw
    cases hw
    rw [hid]
    exact hnewest u held
  | dropped | ended => exact fun v hv => nomatch hv

theorem mem_begun_act {s : Sessions} {u : Upload} (hu : u ∈ s.begun) (a : Bridge.Action) :
    u ∈ (s.act a).begun := by
  rcases s.begun_act a with heq | ⟨v, -, -, heq⟩ <;> rw [heq]
  · exact hu
  · exact List.mem_cons_of_mem _ hu

theorem authors_act {s : Sessions} (hs : Kept s) (a : Bridge.Action) :
    ∀ t ∈ (s.bridge.act a).link.transmissions, ∀ id, t.author = .upload id →
      ∃ u ∈ (s.act a).begun, u.id = id := by
  intro t ht id hid
  have hold : t ∈ s.bridge.link.transmissions → ∃ u ∈ (s.act a).begun, u.id = id := by
    intro ht
    obtain ⟨u, hu, heq⟩ := hs.authors t ht id hid
    exact ⟨u, mem_begun_act hu a, heq⟩
  rcases s.bridge.transmissions_act a with heq | ⟨t', heq, hauthor⟩ <;> rw [heq] at ht
  · exact hold ht
  · rcases List.mem_cons.mp ht with rfl | ht
    · rcases hauthor with hline | ⟨-, u, hactive, hupload⟩
      · rw [hline] at hid
        cases hid
      · rw [hupload] at hid
        cases hid
        obtain ⟨v, hv, heq⟩ := hs.exists_begun hactive
        exact ⟨v, mem_begun_act hv a, heq⟩
    · exact hold ht

/-- The upload that writes is the latest one, so its frame comes after those of all others. -/
theorem ordered_act {s : Sessions} (hs : Kept s) (a : Bridge.Action) :
    (s.bridge.act a).link.transmissions.Pairwise fun t t' =>
      ∀ i j, t.author = .upload i → t'.author = .upload j → j ≤ i := by
  rcases s.bridge.transmissions_act a with heq | ⟨t, heq, hauthor⟩ <;> rw [heq]
  · exact hs.ordered
  · refine List.pairwise_cons.mpr ⟨fun t' ht' i j hi hj => ?_, hs.ordered⟩
    rcases hauthor with hline | ⟨-, u, hactive, hupload⟩
    · rw [hline] at hi
      cases hi
    · rw [hupload] at hi
      cases hi
      have hlt := hs.numbered.author_lt t' ht' j hj
      have hlast := hs.newest u hactive
      omega

theorem kept_act {s : Sessions} (hs : Kept s) (a : Bridge.Action) : Kept (s.act a) where
  numbered := by
    rw [bridge_act]
    exact Bridge.numbered_act hs.numbered a
  held := held_act hs a
  newest := by
    rw [bridge_act]
    exact newest_of_change (s.bridge.change_act a) hs.newest
  known := known_act hs a
  begun_lt := by
    intro u hu
    rcases s.begun_act a with heq | ⟨v, hv, hnext, heq⟩ <;> rw [heq] at hu
    · rw [bridge_act]
      exact Nat.lt_of_lt_of_le (hs.begun_lt u hu)
        (Bridge.nextId_le_of_change (s.bridge.change_act a))
    · rw [hnext]
      rcases List.mem_cons.mp hu with rfl | hu
      · omega
      · exact Nat.lt_succ_of_lt (hs.begun_lt u hu)
  falling := by
    rcases s.begun_act a with heq | ⟨v, hv, -, heq⟩ <;> rw [heq]
    · exact hs.falling
    · refine List.pairwise_cons.mpr ⟨fun u hu => ?_, hs.falling⟩
      rw [hv]
      exact hs.begun_lt u hu
  authors := by
    rw [bridge_act]
    exact authors_act hs a
  ordered := by
    rw [bridge_act]
    exact ordered_act hs a

/-- Both books agree after every run. -/
theorem kept_run {s : Sessions} (hs : Kept s) (actions : List Bridge.Action) :
    Kept (s.run actions) := by
  induction actions generalizing s with
  | nil => exact hs
  | cons a actions ih => exact ih (kept_act hs a)

/-! ## One live upload -/

/-- Nothing is live while the engine is free, and else the one upload that holds it. -/
theorem Kept.live_cases {s : Sessions} (hs : Kept s) :
    (s.bridge.engine.active = none ∧ s.live = []) ∨
      ∃ u v, s.bridge.engine.active = some u ∧ u.Continues v ∧ s.live = [v] := by
  rw [live]
  cases hs.held with
  | free hactive hunrun hrunning => exact .inl ⟨hactive, by simp [hunrun, hrunning]⟩
  | unrun u v hactive hstage hsame houtcome hunrun hrunning =>
    exact .inr ⟨u, v, hactive, hsame, by simp [hunrun, hrunning]⟩
  | running u v h due hactive hstage hsame hunrun hrunning =>
    exact .inr ⟨u, v, hactive, hsame, by simp [hunrun, hrunning]⟩

/-- An upload that is live after an action was so before, or was begun, with nothing live. -/
theorem live_act {s : Sessions} (hs : Kept s) (a : Bridge.Action) :
    s.live = [] ∨ ∀ u ∈ (s.act a).live, u ∈ s.live := by
  -- an upload that runs on without an outcome had none before
  have running_act : ∀ u ∈ s.started.map (·.upload), u ∈ (s.act a).running → u ∈ s.running := by
    intro u hstarted hu
    have hnone := (List.mem_filter.mp hu).2
    rw [Option.isNone_iff_eq_none, bridge_act] at hnone
    refine List.mem_filter.mpr ⟨hstarted, ?_⟩
    rw [Option.isNone_iff_eq_none]
    exact Engine.outcome?_of_change (s.bridge.change_act a) hnone
  have keeps : (∀ u ∈ (s.act a).unrun, u ∈ s.unrun) →
      (∀ u ∈ (s.act a).started.map (·.upload),
        u ∈ s.unrun ∨ u ∈ s.started.map (·.upload)) →
      ∀ u ∈ (s.act a).live, u ∈ s.live := by
    intro hunrun hstarted u hu
    rcases List.mem_append.mp hu with hu | hu
    · exact List.mem_append_left _ (hunrun u hu)
    · rcases hstarted u (List.mem_filter.mp hu).1 with hbefore | hbefore
      · exact List.mem_append_left _ hbefore
      · exact List.mem_append_right _ (running_act u hbefore hu)
  cases a with
  | link | publish | proceed | stop | pass =>
    exact .inr (keeps (fun u hu => hu) fun u hu => .inr hu)
  | begin client payload announced =>
    rcases s.act_begin_cases client payload announced with heq | ⟨hfree, heq⟩
    · rw [heq]
      exact .inr fun u hu => hu
    · rcases hs.live_cases with ⟨-, hlive⟩ | ⟨u, v, hactive, -, -⟩
      · exact .inl hlive
      · rw [hfree] at hactive
        cases hactive
  | launch id =>
    refine .inr (keeps (fun u hu => (List.mem_filter.mp hu).1) fun u hu => ?_)
    simp only [act, List.map_append, List.map_map, Function.comp_def, List.map_id',
      List.mem_append, List.mem_filter] at hu
    exact hu.imp_left And.left
  | drop id => exact .inr (keeps (fun u hu => (List.mem_filter.mp hu).1) fun u hu => .inr hu)

/-- One upload at a time, as callers see it. -/
structure Exclusive (s : Sessions) : Prop where
  at_most_one : s.live.length ≤ 1
  active_iff : s.bridge.engine.isActive = true ↔ s.live ≠ []
  progress_of_none : s.live = [] → s.bridge.engine.progress? = none
  /-- The progress that is told is that of the live upload. -/
  progress_of_live : ∀ u ∈ s.live, ∃ p, s.bridge.engine.progress? = some p ∧
    p.client = u.client ∧ p.strategy = u.plan.strategy ∧
    p.totalBytes = u.plan.payloadLength ∧ p.totalFrames = u.plan.frames.length
  busy_iff : ∀ client payload announced, payload ≠ [] →
    ((s.bridge.begin client payload announced).2 = .error .busy ↔ s.live ≠ [])
  /-- A claim that is refused leaves everything as it is. -/
  busy_changes_nothing : ∀ client payload announced,
    (s.bridge.begin client payload announced).2 = .error .busy →
      (s.bridge.begin client payload announced).1 = s.bridge
  begin_of_none : ∀ client payload announced, payload ≠ [] → s.live = [] →
    ∃ u, (s.bridge.begin client payload announced).2 = .ok (some u) ∧
      u.client = client ∧ u.plan = .build payload s.bridge.engine.settings
  /-- Whatever ends the live upload, the engine is free then. -/
  free_after_end : ∀ a, ∀ u ∈ s.live, u ∉ (s.act a).live →
    (s.act a).bridge.engine.isActive = false
  free_after_drop : ∀ u ∈ s.unrun, (s.act (.drop u.id)).bridge.engine.isActive = false
  authors : ∀ t ∈ s.bridge.link.transmissions, ∀ id, t.author = .upload id →
    ∃ u ∈ s.begun, u.id = id
  /-- No frame of a later upload was written before one of an earlier upload. -/
  frames_in_order : s.begun.Pairwise fun later earlier => earlier.id ≠ later.id ∧
    s.bridge.link.transmissions.Pairwise fun t before =>
      t.author = .upload earlier.id → before.author ≠ .upload later.id

theorem Kept.active_iff {s : Sessions} (hs : Kept s) :
    s.bridge.engine.isActive = true ↔ s.live ≠ [] := by
  rcases hs.live_cases with ⟨hactive, hlive⟩ | ⟨u, v, hactive, -, hlive⟩ <;>
    simp [Engine.isActive, hactive, hlive]

theorem Kept.free_after_end {s : Sessions} (hs : Kept s) {a : Bridge.Action} {u : Upload}
    (hu : u ∈ s.live) (hend : u ∉ (s.act a).live) :
    (s.act a).bridge.engine.isActive = false := by
  rw [Bool.eq_false_iff, Ne, (kept_act hs a).active_iff, Classical.not_not]
  rcases hs.live_cases with ⟨-, hlive⟩ | ⟨u', v, -, -, hlive⟩
  · rw [hlive] at hu
    cases hu
  · rcases live_act hs a with hnone | hsub
    · rw [hnone] at hu
      cases hu
    · -- what is live after the action was the one live upload, which has ended
      rw [List.eq_nil_iff_forall_not_mem]
      intro w hw
      have hwv := hsub w hw
      rw [hlive, List.mem_singleton] at hu hwv
      rw [hwv, ← hu] at hw
      exact hend hw

theorem Kept.free_after_drop {s : Sessions} (hs : Kept s) {u : Upload} (hu : u ∈ s.unrun) :
    (s.act (.drop u.id)).bridge.engine.isActive = false := by
  change (s.bridge.engine.drop u.id).isActive = false
  cases hs.held with
  | free _ hunrun | running _ _ _ _ _ _ _ hunrun =>
    rw [hunrun] at hu
    cases hu
  | unrun u' v hactive hstage hsame houtcome hunrun =>
    rw [hunrun, List.mem_singleton] at hu
    subst hu
    rcases s.bridge.engine.drop_cases u.id with ⟨-, hnot⟩ | ⟨_, -, -, -, heq⟩
    · exact absurd hstage (hnot u' hactive hsame.1)
    · rw [heq]
      rfl

theorem Kept.exclusive {s : Sessions} (hs : Kept s) : Exclusive s where
  at_most_one := by
    rcases hs.live_cases with ⟨-, hlive⟩ | ⟨u, v, -, -, hlive⟩ <;> simp [hlive]
  active_iff := hs.active_iff
  progress_of_none := by
    intro hnone
    rcases hs.live_cases with ⟨hactive, -⟩ | ⟨u, v, -, -, hlive⟩
    · rw [Engine.progress?, hactive, Option.map_none]
    · rw [hnone] at hlive
      cases hlive
  progress_of_live := by
    intro w hw
    rcases hs.live_cases with ⟨-, hlive⟩ | ⟨u, v, hactive, hsame, hlive⟩
    · rw [hlive] at hw
      cases hw
    · rw [hlive, List.mem_singleton] at hw
      subst hw
      obtain ⟨-, hclient, hplan⟩ := hsame
      refine ⟨u.progress, by rw [Engine.progress?, hactive, Option.map_some], hclient, ?_⟩
      rw [← hplan]
      exact ⟨rfl, rfl, rfl⟩
  busy_iff := by
    intro client payload announced hpayload
    rw [← hs.active_iff, Bridge.begin]
    rcases s.bridge.engine.begin_cases client payload announced with
      ⟨hnil, -⟩ | ⟨-, hactive, heq⟩ | ⟨-, hactive, heq⟩
    · exact absurd hnil hpayload
    · rw [heq]
      exact iff_of_true rfl (Option.isSome_iff_ne_none.mpr hactive)
    · rw [heq, Engine.isActive, hactive]
      exact iff_of_false (fun h => nomatch h) Bool.false_ne_true
  busy_changes_nothing := by
    intro client payload announced hbusy
    rw [Bridge.begin] at hbusy ⊢
    rcases s.bridge.engine.begin_cases client payload announced with
      ⟨-, heq⟩ | ⟨-, -, heq⟩ | ⟨-, -, heq⟩ <;> rw [heq] at hbusy ⊢
    cases hbusy
  begin_of_none := by
    intro client payload announced hpayload hlive
    have hfree : s.bridge.engine.active = none := by
      rcases hs.live_cases with ⟨hactive, -⟩ | ⟨u, v, -, -, hone⟩
      · exact hactive
      · rw [hlive] at hone
        cases hone
    rw [Bridge.begin]
    rcases s.bridge.engine.begin_cases client payload announced with
      ⟨hnil, -⟩ | ⟨-, hactive, -⟩ | ⟨-, -, heq⟩
    · exact absurd hnil hpayload
    · exact absurd hfree hactive
    · rw [heq]
      exact ⟨_, rfl, rfl, rfl⟩
  free_after_end := fun _ _ hu hend => hs.free_after_end hu hend
  free_after_drop := fun _ hu => hs.free_after_drop hu
  authors := hs.authors
  frames_in_order := by
    refine hs.falling.imp fun {later earlier} hlt => ⟨Nat.ne_of_lt hlt, ?_⟩
    refine hs.ordered.imp fun {t before} hle ht hbefore => ?_
    have := hle _ _ ht hbefore
    omega

/-- **At most one upload is under way**, in every run: it holds the engine for itself until it
has ended or is given up, and all its frames go out before those of the next one. -/
theorem one_upload_at_a_time (settings : Settings) (bench : Bench)
    (actions : List Bridge.Action) : Exclusive ((new settings bench).run actions) :=
  (kept_run (kept_new settings bench) actions).exclusive

/-- While the upload of one client waits to be set running, that of another is refused. -/
theorem second_upload_is_refused :
    let s := (new {} {}).run [.begin ⟨0⟩ [0x61] true]
    s.live ≠ [] ∧ (s.bridge.begin ⟨1⟩ [0x62] true).2 = .error .busy := by
  intro s
  have hlive : s.live ≠ [] := List.cons_ne_nil _ _
  have hone := one_upload_at_a_time {} {} [.begin ⟨0⟩ [0x61] true]
  exact ⟨hlive, (hone.busy_iff ⟨1⟩ [0x62] true (List.cons_ne_nil _ _)).mpr hlive⟩

end Sessions

end SerialBridge
