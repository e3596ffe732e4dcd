import SerialBridge.Proofs.Deafness
import SerialBridge.Proofs.Tally

/-! # What is said on account of an upload

An upload speaks for itself: when it is set running it says whether its text is cut off and whether
it goes out in chunks, and in the end it says how it ended.  All this is told to the client that
asked for the upload, in the order in which it happens, by whichever action makes it happen
(`speaker`).

What was said so far can be read off the books at any time (`Sessions.remarks`): how the upload
sets out, once it was set running, and how it ended, once that is known.  An action moves the books
and what is published on together (`says_act`).  The books know of no other order and of nothing
that is said twice, so neither does the client.
-/

namespace SerialBridge

/-! ## Remarks -/

/-- What the client of an upload is told. -/
inductive Remark where
  /-- Another upload is live. -/
  | busy
  /-- The upload starts. -/
  | starting (name : String) (lines bytes : Nat)
  /-- Only the first part of the text is sent. -/
  | truncated (size ceiling : Nat)
  /-- The text goes out in chunks. -/
  | splitting (chunks : Nat)
  /-- All went out in one frame. -/
  | sentWhole (bytes : Nat)
  /-- All went out in chunks. -/
  | sentChunks (chunks : Nat)
  /-- The upload was stopped. -/
  | stopped (sent total : Nat)
  /-- The upload failed. -/
  | failed (reason : LinkError)
  deriving DecidableEq, Repr

namespace Remark

/-- The words of a remark. -/
def text : Remark → String
  | .busy => "Error: a file transfer is already in progress"
  | .starting name lines bytes =>
    "Starting file upload: " ++ name ++ " (" ++ toString lines ++ " lines, " ++ toString bytes
      ++ " bytes)"
  | .truncated size ceiling =>
    "Warning: " ++ (LinkError.payloadTooLarge size ceiling).message ++ "; only the first "
      ++ toString ceiling ++ " bytes will be sent"
  | .splitting chunks => "Splitting into " ++ toString chunks ++ " chunks for reliability..."
  | .sentWhole bytes => "✓ File sent as a single frame (" ++ toString bytes ++ " bytes)"
  | .sentChunks chunks => "✓ File sent in " ++ toString chunks ++ " chunks"
  | .stopped sent total =>
    "Transmission stopped after " ++ toString sent ++ " of " ++ toString total ++ " chunks"
  | .failed reason => "Error during transmission: " ++ reason.message

/-- A remark on its way to a client. -/
def envelope (client : ClientId) (r : Remark) : Envelope :=
  .reply client (.log r.text)

/-- The remark with which a text is taken on. -/
def opening (filename : Option String) (data : String) : Remark :=
  .starting (filename.getD "unknown.txt") (Text.lineCount data) data.utf8ByteSize

/-- The remarks with which an upload sets out. -/
def ofPlan (plan : Plan) (ceiling : Nat) : List Remark :=
  (plan.truncatedFrom.map (.truncated · ceiling)).toList ++
    if plan.strategy = .paced then [.splitting plan.frames.length] else []

/-- The remark with which an upload of so many frames ends. -/
def ofOutcome (total : Nat) : Outcome → Option Remark
  | .skipped => none
  | .completed bytes frames =>
    some (if frames = 1 then .sentWhole bytes else .sentChunks frames)
  | .cancelled _ frames => some (.stopped frames total)
  | .failed reason _ _ => some (.failed reason)

theorem startTexts_eq (settings : TransferSettings) (plan : Plan) :
    Bridge.startTexts settings plan = (ofPlan plan settings.blobCeiling.toNat).map text := by
  rw [Bridge.startTexts, ofPlan]
  cases plan.truncatedFrom <;> split <;> rfl

theorem closingText_eq (total : Nat) (outcome : Outcome) :
    Bridge.closingText total outcome = (ofOutcome total outcome).map text := by
  cases outcome with
  | completed bytes frames =>
    by_cases hone : frames = 1
    · rw [hone]
      rfl
    · rw [ofOutcome, if_neg hone]
      rcases frames with _ | _ | frames
      · rfl
      · exact absurd rfl hone
      · rfl
  | skipped | cancelled | failed => rfl

end Remark

namespace Bridge

/-! ## What uploads say -/

theorem published_tell (b : Bridge) (client : ClientId) (remarks : List Remark) :
    ((remarks.map Remark.text).foldl (·.tell client) b).published =
      (remarks.map (·.envelope client)).reverse ++ b.published := by
  induction remarks generalizing b with
  | nil => rfl
  | cons r remarks ih =>
    rw [List.map_cons, List.foldl_cons, ih, List.map_cons, List.reverse_cons, List.append_assoc]
    rfl

/-- Between two states, the client of an upload was told some remarks and, if the upload ended in
between, how. -/
def Said (before after : Bridge) (u : Upload) (remarks : List Remark) : Prop :=
  ∃ ended : Option Outcome, after.engine.outcome? u.id = ended ∧ ended ≠ some .skipped ∧
    after.published = ((remarks ++
      (ended.bind (Remark.ofOutcome u.plan.frames.length)).toList).map
        (·.envelope u.client)).reverse ++ before.published

theorem outcome?_finish (e : Engine) (id : Nat) (outcome : Outcome) :
    (e.finish id outcome).outcome? id = some outcome := by
  rw [Engine.outcome?, Engine.finish, List.lookup_cons, beq_self_eq_true]

/-- An upload that ends tells its client so, after what it has told before. -/
theorem said_endUpload {before b : Bridge} {u : Upload} (hannounced : u.announced = true)
    {outcome : Outcome} (hskipped : outcome ≠ .skipped) {remarks : List Remark}
    (hbefore : b.published = (remarks.map (·.envelope u.client)).reverse ++ before.published) :
    Said before (b.endUpload u outcome) u remarks := by
  have hengine : (b.endUpload u outcome).engine = b.engine.finish u.id outcome := by
    obtain ⟨_, heq⟩ := b.endUpload_eq u outcome
    rw [heq]
  refine ⟨some outcome, ?_, fun h => hskipped (Option.some_inj.mp h), ?_⟩
  · rw [hengine, outcome?_finish]
  · rw [endUpload, hannounced, if_pos rfl, Remark.closingText_eq, Option.bind_some,
      List.map_append, List.reverse_append, List.append_assoc, ← hbefore]
    cases Remark.ofOutcome u.plan.frames.length outcome <;> rfl

/-- What an upload does next it does in silence, unless it ends with it. -/
theorem said_stepUpload {b : Bridge} {u : Upload} (hannounced : u.announced = true)
    (hnone : b.engine.outcome? u.id = none) (h : Nat) : Said b (b.stepUpload u h) u [] := by
  have ends : ∀ (v : Upload) (b' : Bridge) (outcome : Outcome), v.announced = true →
      outcome ≠ .skipped → b'.published = b.published → Said b (b'.endUpload v outcome) v [] :=
    fun v b' outcome hv hskipped hsame => said_endUpload hv hskipped (hsame.trans rfl)
  rw [stepUpload]
  split
  · exact ends u b _ hannounced (by simp) rfl
  · cases u.pending with
    | nil => exact ends u b _ hannounced (by simp) rfl
    | cons frame rest =>
      dsimp only
      rcases b.link.writeOn (.upload u.id) h frame with ⟨link, reason | ⟨⟩⟩
      · exact ends u { b with link } (.failed reason _ _) hannounced (by simp) rfl
      · cases rest with
        | nil => exact ends (u.advance frame [] h _) _ (.completed _ _) hannounced (by simp) rfl
        | cons next rest => exact ⟨none, hnone, by simp, rfl⟩

/-- An upload that is set running says how it sets out. -/
theorem said_launch {b : Bridge} {u : Upload} (hactive : b.engine.active = some u)
    (hstage : u.stage = .claimed) (hannounced : u.announced = true)
    (hnone : b.engine.outcome? u.id = none) :
    Said b (b.launch u.id) u (Remark.ofPlan u.plan b.engine.settings.blobCeiling.toNat) := by
  have hfilter : (b.engine.active.filter fun v => v.id == u.id && v.stage == .claimed) =
      some u := by simp [hactive, hstage]
  have htold := b.published_tell u.client
    (Remark.ofPlan u.plan b.engine.settings.blobCeiling.toNat)
  rw [launch, hfilter]
  dsimp only
  rw [Remark.startTexts_eq]
  obtain ⟨published, heq⟩ := b.tell_eq u.client
    ((Remark.ofPlan u.plan b.engine.settings.blobCeiling.toNat).map Remark.text)
  rw [heq] at htold ⊢
  dsimp only at htold ⊢
  cases b.link.current with
  -- with no link the upload ends at once, after it has said how it sets out
  | none =>
    have hskipped : Outcome.failed .closed 0 0 ≠ .skipped := by simp
    exact said_endUpload (b := { b with published }) hannounced hskipped htold
  | some h =>
    refine ⟨none, hnone, by simp, ?_⟩
    rw [Option.bind_none, Option.toList_none, List.append_nil]
    exact htold

/-! ## Whom an action concerns -/

/-- The upload on whose account an action publishes what it publishes. -/
def speaker (b : Bridge) : Action → Option Nat
  | .launch id | .stop id | .drop id => some id
  | .proceed => b.engine.active.map (·.id)
  | .link .. | .publish _ | .begin .. | .pass _ => none

/-- Whoever holds the engine under the number of an upload is that upload, for its client and
announced as it is. -/
def Tied (b : Bridge) (u : Upload) : Prop :=
  ∀ v, b.engine.active = some v → v.id = u.id →
    v.client = u.client ∧ v.plan = u.plan ∧ v.announced = u.announced

theorem tied_act {b : Bridge} {u : Upload} (hid : u.id < b.engine.nextId) (hb : b.Tied u)
    (a : Action) : (b.act a).Tied u := by
  intro v hv hvid
  cases onward_act hv with
  | same hactive => exact hb v hactive hvid
  | begun client payload announced hnew =>
    rw [hnew] at hvid
    exact absurd hvid (Nat.ne_of_gt hid)
  | launched w h hactive _ hlaunched =>
    rw [hlaunched] at hvid ⊢
    exact hb w hactive hvid
  | sent w frame rest h due next hactive _ _ hsent =>
    rw [hsent] at hvid ⊢
    exact hb w hactive hvid
  | stopped w hactive hstopped =>
    rw [hstopped] at hvid ⊢
    exact hb w hactive hvid

/-- An action that does not concern an upload leaves open how the upload ends. -/
theorem outcome?_act_of_not_speaker {b : Bridge} {a : Action} {id : Nat}
    (hid : id < b.engine.nextId) (hnot : b.speaker a ≠ some id) :
    (b.act a).engine.outcome? id = b.engine.outcome? id := by
  by_cases hheld : ∃ u, b.engine.active = some u ∧ u.id = id
  · obtain ⟨u, hactive, rfl⟩ := hheld
    have hproceed : a ≠ .proceed := by
      rintro rfl
      exact hnot (by rw [speaker, hactive, Option.map_some])
    have hconcerns : ¬ a.Concerns u.id := by
      intro hconcerns
      cases a with
      | launch k | stop k | drop k => exact hnot (congrArg some hconcerns)
      | link | publish | begin | proceed | pass => exact hconcerns
    rw [(act_of_not_concerned hactive hconcerns hproceed).1]
  · exact (act_of_not_held hid (fun u hactive hu => hheld ⟨u, hactive, hu⟩) a).2.1

end Bridge

namespace Sessions

/-- Whether the upload of a number was set running. -/
def hasStarted (s : Sessions) (id : Nat) : Bool :=
  s.started.any (·.upload.id == id)

theorem hasStarted_act (s : Sessions) (a : Bridge.Action) (id : Nat) :
    (s.act a).hasStarted id =
      (s.hasStarted id || (a == .launch id && s.unrun.any (·.id == id))) := by
  cases a with
  | link | publish | proceed | stop | drop | pass => exact (Bool.or_false _).symm
  | begin client payload announced =>
    rcases s.act_begin_cases client payload announced with heq | ⟨-, heq⟩ <;> rw [heq]
    · exact (Bool.or_false _).symm
    · exact (Bool.or_false _).symm
  | launch k =>
    rw [hasStarted, act, List.any_append, Bool.or_comm, hasStarted]
    congr 1
    by_cases hk : k = id
    · subst hk
      simp
    · have hne : (Bridge.Action.launch k == .launch id) = false :=
        beq_false_of_ne fun h => hk (Bridge.Action.launch.inj h)
      rw [hne, Bool.false_and, List.any_map, List.any_filter, List.any_eq_false]
      intro u _ hboth
      obtain ⟨hu, hu'⟩ : u.id = k ∧ u.id = id := by simpa using hboth
      exact hk (hu.symm.trans hu')

/-- What was said on account of an upload after it was begun: how it set out, once it was set
running, and how it ended, once it has. -/
def remarks (s : Sessions) (u : Upload) : List Remark :=
  (if s.hasStarted u.id then Remark.ofPlan u.plan s.bridge.engine.settings.blobCeiling.toNat
    else []) ++
    ((s.bridge.engine.outcome? u.id).bind (Remark.ofOutcome u.plan.frames.length)).toList

theorem remarks_eq_nil {s : Sessions} {u : Upload} (hstarted : s.hasStarted u.id = false)
    (houtcome : s.bridge.engine.outcome? u.id = none) : s.remarks u = [] := by
  rw [remarks, hstarted, houtcome]
  rfl

/-- How an upload ended cannot be known while it holds the engine. -/
theorem Accounted.outcome_of_active {s : Sessions} (hs : Accounted s) {v : Upload}
    (hactive : s.bridge.engine.active = some v) : s.bridge.engine.outcome? v.id = none := by
  obtain ⟨w, hsame, hw⟩ := hs.kept.held.exists_mem hactive
  rw [hsame.1]
  exact hs.outcome_of_live hw

/-- An upload that waits to be set running is among those that do. -/
theorem Accounted.waits_of_claimed {s : Sessions} (hs : Accounted s) {v : Upload}
    (hactive : s.bridge.engine.active = some v) (hstage : v.stage = .claimed) :
    s.hasStarted v.id = false ∧ s.unrun.any (·.id == v.id) = true := by
  obtain ⟨w, hsame, -, hunrun, -⟩ := hs.kept.held.of_claimed hactive hstage
  refine ⟨?_, by simp [hunrun, hsame.1]⟩
  rw [hasStarted, List.any_eq_false]
  intro t ht hid
  have hid : t.upload.id = v.id := beq_iff_eq.mp hid
  obtain ⟨h, hover⟩ := t.exists_runsOver
  rcases hs.started t ht h hover with ⟨v', due, -, -, hr⟩ | ⟨outcome, he⟩
  · have hstage' := hr.stage_eq
    have hsame' := hr.active_eq
    rw [hactive] at hsame'
    cases hsame'
    rw [hstage] at hstage'
    cases hstage'
  · exact he.notHeld v hactive hid.symm

theorem Kept.hasStarted_of_running {s : Sessions} (hs : Kept s) {v : Upload} {h due : Nat}
    (hactive : s.bridge.engine.active = some v) (hstage : v.stage = .running h due) :
    s.hasStarted v.id = true := by
  cases hs.held with
  | free hfree =>
    rw [hactive] at hfree
    cases hfree
  | unrun u w hu hclaimed =>
    rw [hactive] at hu
    cases hu
    rw [hstage] at hclaimed
    cases hclaimed
  | running u w k due' hu _ hsame _ hrunning =>
    rw [hactive] at hu
    cases hu
    have hw : w ∈ s.running := by
      rw [hrunning]
      exact List.mem_singleton_self w
    obtain ⟨t, ht, rfl⟩ := List.mem_map.mp (List.mem_filter.mp hw).1
    rw [hasStarted, List.any_eq_true]
    exact ⟨t, ht, beq_iff_eq.mpr hsame.1.symm⟩

/-- What an action adds to what was said on account of an upload. -/
structure Adds (s : Sessions) (a : Bridge.Action) (u : Upload) (more : List Remark) : Prop where
  remarks_eq : (s.act a).remarks u = s.remarks u ++ more
  /-- It is published at once, if the action concerns the upload. -/
  published_eq : s.bridge.speaker a = some u.id → (s.bridge.act a).published =
    (more.map (·.envelope u.client)).reverse ++ s.bridge.published
  /-- Otherwise it is nothing. -/
  of_others : s.bridge.speaker a ≠ some u.id → more = []

/-- If it is known how an upload ended, it has run. -/
def Closed (s : Sessions) (u : Upload) : Prop :=
  ∀ outcome, s.bridge.engine.outcome? u.id = some outcome →
    outcome ≠ .skipped ∧ s.hasStarted u.id = true

/-- Nothing is added where nothing changes. -/
theorem adds_nothing {s : Sessions} {a : Bridge.Action} {u : Upload} (hclosed : s.Closed u)
    (hstarted : (s.act a).hasStarted u.id = s.hasStarted u.id)
    (houtcome : (s.bridge.act a).engine.outcome? u.id = s.bridge.engine.outcome? u.id)
    (hpublished : s.bridge.speaker a = some u.id →
      (s.bridge.act a).published = s.bridge.published) :
    ∃ more, Adds s a u more ∧ (s.act a).Closed u := by
  refine ⟨[], ⟨?_, hpublished, fun _ => rfl⟩, ?_⟩
  · have hsettings := Bridge.settings_of_change (s.bridge.change_act a)
    rw [remarks, hstarted, bridge_act, houtcome, hsettings, List.append_nil, remarks]
  · intro outcome hsome
    rw [bridge_act, houtcome] at hsome
    rw [hstarted]
    exact hclosed outcome hsome

/-- An upload that sets out or ends adds what it says then. -/
theorem adds_of_said {s : Sessions} {a : Bridge.Action} {u v : Upload} {out : List Remark}
    (hsaid : s.bridge.Said (s.bridge.act a) v out) (hid : v.id = u.id)
    (hclient : v.client = u.client) (hplan : v.plan = u.plan)
    (hspeaker : s.bridge.speaker a = some u.id) (hnone : s.bridge.engine.outcome? u.id = none)
    (hafter : (s.act a).hasStarted u.id = true)
    (hbefore : s.hasStarted u.id = true ∧ out = [] ∨ s.hasStarted u.id = false ∧
      out = Remark.ofPlan u.plan s.bridge.engine.settings.blobCeiling.toNat) :
    ∃ more, Adds s a u more ∧ (s.act a).Closed u := by
  obtain ⟨ended, houtcome, hskipped, hpublished⟩ := hsaid
  rw [hid] at houtcome
  rw [hclient, hplan] at hpublished
  refine ⟨_, ⟨?_, fun _ => hpublished, fun hnot => absurd hspeaker hnot⟩, ?_⟩
  · have hsettings := Bridge.settings_of_change (s.bridge.change_act a)
    rw [remarks, hafter, bridge_act, houtcome, hsettings, remarks, hnone, if_pos rfl]
    rcases hbefore with ⟨hstarted, rfl⟩ | ⟨hstarted, rfl⟩ <;> rw [hstarted] <;> simp
  · intro outcome hsome
    rw [bridge_act, houtcome] at hsome
    exact ⟨fun h => hskipped (hsome.trans (congrArg some h)), hafter⟩

theorem hasStarted_of_ne_launch {s : Sessions} {a : Bridge.Action} {id : Nat}
    (ha : a ≠ .launch id) : (s.act a).hasStarted id = s.hasStarted id := by
  rw [hasStarted_act, beq_false_of_ne ha, Bool.false_and, Bool.or_false]

/-- An upload that is set running says how it sets out, and one that is not there to be set running
says nothing. -/
theorem adds_launch {s : Sessions} (hs : Accounted s) {u : Upload} (htied : s.bridge.Tied u)
    (hannounced : u.announced = true) (hclosed : s.Closed u) :
    ∃ more, Adds s (.launch u.id) u more ∧ (s.act (.launch u.id)).Closed u := by
  have hstarts := s.hasStarted_act (.launch u.id) u.id
  rw [beq_self_eq_true, Bool.true_and] at hstarts
  by_cases hwaits : ∃ v, s.bridge.engine.active = some v ∧ v.id = u.id ∧ v.stage = .claimed
  · obtain ⟨v, hactive, hid, hstage⟩ := hwaits
    obtain ⟨hclient, hplan, hsame⟩ := htied v hactive hid
    obtain ⟨hnot, hunrun⟩ := hs.waits_of_claimed hactive hstage
    have hnone := hs.outcome_of_active hactive
    have hsaid := Bridge.said_launch hactive hstage (hsame.trans hannounced) hnone
    rw [hid] at hnot hunrun hnone hsaid
    rw [hplan] at hsaid
    rw [hunrun, Bool.or_true] at hstarts
    exact adds_of_said hsaid hid hclient hplan rfl hnone hstarts (.inr ⟨hnot, rfl⟩)
  -- otherwise the upload is not among those that wait, and the engine is not touched
  · have hstays : s.bridge.act (.launch u.id) = s.bridge := by
      rcases s.bridge.launch_cases u.id with ⟨heq, -⟩ | ⟨v, _, hactive, hid, hstage, -⟩
      · exact heq
      · exact absurd ⟨v, hactive, hid, hstage⟩ hwaits
    have hunrun : s.unrun.any (·.id == u.id) = false := by
      rw [List.any_eq_false]
      intro w hw hid
      obtain ⟨v, hsame, hc⟩ := hs.unrun w hw
      exact hwaits ⟨v, hc.active_eq, hsame.1.trans (beq_iff_eq.mp hid), hc.stage_eq⟩
    rw [hunrun, Bool.or_false] at hstarts
    exact adds_nothing hclosed hstarts (by rw [hstays]) fun _ => by rw [hstays]

/-- An upload that goes on says nothing, or how it ends. -/
theorem adds_proceed {s : Sessions} (hs : Accounted s) {u : Upload} (htied : s.bridge.Tied u)
    (hannounced : u.announced = true) (hclosed : s.Closed u)
    (hspeaker : s.bridge.speaker .proceed = some u.id) :
    ∃ more, Adds s .proceed u more ∧ (s.act .proceed).Closed u := by
  obtain ⟨v, hactive, hid⟩ := Option.map_eq_some_iff.mp hspeaker
  obtain ⟨hclient, hplan, hsame⟩ := htied v hactive hid
  have hnone := hs.outcome_of_active hactive
  have hstarts : (s.act .proceed).hasStarted u.id = s.hasStarted u.id :=
    hasStarted_of_ne_launch nofun
  have stays : s.bridge.act .proceed = s.bridge →
      ∃ more, Adds s .proceed u more ∧ (s.act .proceed).Closed u := fun heq =>
    adds_nothing hclosed hstarts (by rw [heq]) fun _ => by rw [heq]
  cases hstage : v.stage with
  | claimed =>
    refine stays (Bridge.proceed_of_not_running fun w h due hw hrunning => ?_)
    rw [hactive] at hw
    cases hw
    rw [hstage] at hrunning
    cases hrunning
  | running h due =>
    have hstarted := hs.kept.hasStarted_of_running hactive hstage
    rw [hid] at hstarted hnone
    have hproceed := Bridge.proceed_of_running hactive hstage
    by_cases hdue : (if v.stopped then 0 else due) ≤ s.bridge.clock
    · rw [if_pos hdue] at hproceed
      have hsaid : s.bridge.Said (s.bridge.act .proceed) v [] := by
        rw [Bridge.act, hproceed]
        exact Bridge.said_stepUpload (hsame.trans hannounced) (by rw [hid, hnone]) h
      exact adds_of_said hsaid hid hclient hplan hspeaker hnone (hstarts.trans hstarted)
        (.inl ⟨hstarted, rfl⟩)
    · rw [if_neg hdue] at hproceed
      exact stays hproceed

/-- **What is said on account of an upload keeps up with the books.** -/
theorem says_act {s : Sessions} (hs : Accounted s) {u : Upload}
    (hid : u.id < s.bridge.engine.nextId) (htied : s.bridge.Tied u)
    (hannounced : u.announced = true) (hclosed : s.Closed u) (a : Bridge.Action) :
    ∃ more, Adds s a u more ∧ (s.act a).Closed u := by
  by_cases hspeaker : s.bridge.speaker a = some u.id
  · cases a with
    | link | publish | begin | pass => cases hspeaker
    | launch k =>
      obtain rfl : k = u.id := Option.some_inj.mp hspeaker
      exact adds_launch hs htied hannounced hclosed
    | proceed => exact adds_proceed hs htied hannounced hclosed hspeaker
    | stop k => exact adds_nothing hclosed (hasStarted_of_ne_launch nofun) rfl fun _ => rfl
    | drop k =>
      refine adds_nothing hclosed (hasStarted_of_ne_launch nofun) ?_ fun _ => rfl
      change (s.bridge.engine.drop k).outcome? u.id = _
      rcases s.bridge.engine.drop_cases k with ⟨heq, -⟩ | ⟨_, -, -, -, heq⟩ <;> rw [heq]
      rfl
  · have hlaunch : a ≠ .launch u.id := fun h => hspeaker (by rw [h]; rfl)
    exact adds_nothing hclosed (hasStarted_of_ne_launch hlaunch)
      (Bridge.outcome?_act_of_not_speaker hid hspeaker) fun h => absurd h hspeaker

end Sessions

end SerialBridge
