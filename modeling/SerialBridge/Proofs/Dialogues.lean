import SerialBridge.Proofs.Remarks

/-! # How requests for uploads are answered

A client that asks for an upload is told something of it again and again, by whoever deals with the
request first and by the upload itself later on (`SerialBridge.Proofs.Remarks`), while other clients
ask for uploads as well, have them stopped, write lines and have the port opened again.  All that is
said on account of one request is the *dialogue* of the request (`Dialogue`).  Dialogues are kept
from what is published: what an action publishes belongs to the upload that the action concerns,
and to the dialogue of that upload.

A request that finds another upload live is refused, and that is all.  Otherwise it is told that the
upload starts, and from then on what is said on account of the upload.  So a dialogue, too, can be
read off the books (`Dialogue.script`), which is what every move preserves (`sound_move`).

The moves are smaller than what a bridge does at once: dealing with a request is a run of them,
among them the request for an upload, if it is one (`exists_moves_dispatch`).
-/

namespace SerialBridge

/-! ## Requests -/

theorem Utf8.encode_ne_nil {data : String} (hdata : data.isEmpty = false) : encode data ≠ [] := by
  intro hnil
  have hsize := length_encode data
  rw [hnil, List.length_nil] at hsize
  rw [String.isEmpty, beq_eq_false_iff_ne] at hdata
  exact hdata hsize.symm

namespace Sessions

/-- With a free engine, a payload makes a new upload. -/
theorem act_begin_of_free (s : Sessions) (client : ClientId) {payload : Bytes}
    (hpayload : payload ≠ []) (announced : Bool) (hfree : s.bridge.engine.active = none) :
    let u := s.bridge.engine.newUpload client payload announced
    s.act (.begin client payload announced) =
      { s with
        bridge := { s.bridge with engine := { s.bridge.engine with
          active := some u
          nextId := s.bridge.engine.nextId + 1 } }
        begun := u :: s.begun
        unrun := u :: s.unrun } := by
  rcases s.bridge.engine.begin_cases client payload announced with
    ⟨hnil, -⟩ | ⟨-, hbusy, -⟩ | ⟨-, -, heq⟩
  · exact absurd hnil hpayload
  · exact absurd hfree hbusy
  · simp only [act, Bridge.act, Bridge.begin, heq]

end Sessions

namespace Bridge

/-- What is done at once about a request for an upload: the engine is claimed, and the client is
told that the upload starts, or that it does not.  An upload that was begun waits to be started. -/
def ask (b : Bridge) (client : ClientId) (filename : Option String) (data : String) :
    Bridge × Option Upload :=
  match b.begin client (Utf8.encode data) true with
  | (b, .ok none) => (b, none)
  | (b, .error .busy) => (b.tell client "Error: a file transfer is already in progress", none)
  | (b, .error e) => (b.tell client ("Error during transmission: " ++ e.message), none)
  | (b, .ok (some u)) =>
    (b.tell client ("Starting file upload: " ++ filename.getD "unknown.txt" ++ " ("
      ++ toString (Text.lineCount data) ++ " lines, " ++ toString data.utf8ByteSize ++ " bytes)"),
      some u)

theorem ask_of_busy {b : Bridge} (client : ClientId) (filename : Option String) {data : String}
    (hdata : data.isEmpty = false) (hbusy : b.engine.active ≠ none) :
    b.ask client filename data = (b.tell client Remark.busy.text, none) := by
  rcases b.engine.begin_cases client (Utf8.encode data) true with
    ⟨hnil, -⟩ | ⟨-, -, heq⟩ | ⟨-, hfree, -⟩
  · exact absurd hnil (Utf8.encode_ne_nil hdata)
  · simp only [ask, begin, heq]
    rfl
  · exact absurd hfree hbusy

theorem ask_of_free {b : Bridge} (client : ClientId) (filename : Option String) {data : String}
    (hdata : data.isEmpty = false) (hfree : b.engine.active = none) :
    b.ask client filename data =
      ((b.act (.begin client (Utf8.encode data) true)).tell client
        (Remark.opening filename data).text,
        some (b.engine.newUpload client (Utf8.encode data) true)) := by
  rcases b.engine.begin_cases client (Utf8.encode data) true with
    ⟨hnil, -⟩ | ⟨-, hbusy, -⟩ | ⟨-, -, heq⟩
  · exact absurd hnil (Utf8.encode_ne_nil hdata)
  · exact absurd hfree hbusy
  · simp only [ask, act, begin, heq]
    rfl

/-- Where nothing was published before, a client is told this one remark. -/
theorem toldSince_tell {before b : Bridge} (h : b.published = before.published)
    (client : ClientId) (r : Remark) :
    before.toldSince (b.tell client r.text) = [r.envelope client] :=
  toldSince_foldl_publish h [r.envelope client]

end Bridge

/-- All that was said on account of one request for an upload. -/
structure Dialogue where
  /-- The client that asked. -/
  client : ClientId
  /-- The name of the text, if it has one. -/
  filename : Option String
  /-- The text. -/
  data : String
  /-- Whether another upload was live then. -/
  crowded : Bool
  /-- The upload that was begun, if one was. -/
  upload : Option Upload
  /-- The envelopes published on account of the request, in order. -/
  said : List Envelope
  deriving DecidableEq, Repr

namespace Dialogue

/-- Whether an upload that speaks is that of the dialogue. -/
def isOf (d : Dialogue) (speaker : Option Nat) : Bool :=
  speaker.any fun id => d.upload.any (·.id == id)

/-- The dialogue after more was said. -/
def hear (d : Dialogue) (speaker : Option Nat) (told : List Envelope) : Dialogue :=
  if d.isOf speaker then { d with said := d.said ++ told } else d

/-- A request that was refused hears no more. -/
theorem hear_of_refused {d : Dialogue} (h : d.upload = none) (speaker : Option Nat)
    (told : List Envelope) : d.hear speaker told = d := by
  rw [hear, isOf, h]
  cases speaker <;> rfl

theorem hear_eq {d : Dialogue} {u : Upload} (h : d.upload = some u) (speaker : Option Nat)
    (told : List Envelope) :
    d.hear speaker told =
      if speaker = some u.id then { d with said := d.said ++ told } else d := by
  rw [hear, isOf, h]
  cases speaker with
  | none => rfl
  | some id =>
    by_cases hid : u.id = id
    · simp [hid]
    · simp [hid, Ne.symm hid]

/-- What is to be said, by the books. -/
def script (d : Dialogue) (s : Sessions) : List Remark :=
  match d.upload with
  | none => [.busy]
  | some u => Remark.opening d.filename d.data :: s.remarks u

end Dialogue

/-- The books of the uploads and all dialogues, most recent first. -/
structure Dialogues where
  /-- The bridge and the books. -/
  sessions : Sessions
  /-- The dialogues. -/
  dialogues : List Dialogue := []
  deriving DecidableEq, Repr

namespace Dialogues

/-- What happens. -/
inductive Move where
  /-- A client asks for an upload, and is told whether it starts. -/
  | ask (client : ClientId) (filename : Option String) (data : String)
  /-- Anything else, which may be a piece of other requests. -/
  | act (a : Bridge.Action)
  deriving DecidableEq, Repr

/-- A new bridge, before anything is asked for. -/
def new (settings : Settings) (bench : Bench) : Dialogues where
  sessions := .new settings bench

/-- The books after a request for an upload. -/
def ask (s : Dialogues) (client : ClientId) (filename : Option String) (data : String) :
    Dialogues :=
  let asked := s.sessions.bridge.ask client filename data
  { sessions :=
      { s.sessions.act (.begin client (Utf8.encode data) true) with bridge := asked.1 }
    dialogues :=
      { client
        filename
        data
        crowded := !s.sessions.live.isEmpty
        upload := asked.2
        said := s.sessions.bridge.toldSince asked.1 } :: s.dialogues }

/-- The books after an action: what it publishes is said on account of the upload it concerns. -/
def act (s : Dialogues) (a : Bridge.Action) : Dialogues where
  sessions := s.sessions.act a
  dialogues := s.dialogues.map
    (·.hear (s.sessions.bridge.speaker a)
      (s.sessions.bridge.toldSince (s.sessions.bridge.act a)))

/-- The books after a move.  Nothing is done about an empty text. -/
def move (s : Dialogues) : Move → Dialogues
  | .ask client filename data => if data.isEmpty then s else s.ask client filename data
  | .act a => s.act a

/-- The books after some moves. -/
def run (s : Dialogues) (moves : List Move) : Dialogues :=
  moves.foldl move s

/-! ## Keeping dialogues -/

/-- The upload of a dialogue in the books. -/
structure Follows (s : Sessions) (d : Dialogue) (u : Upload) : Prop where
  client_eq : u.client = d.client
  plan_eq : u.plan = .build (Utf8.encode d.data) s.bridge.engine.settings
  announced_eq : u.announced = true
  id_lt : u.id < s.bridge.engine.nextId
  tied : s.bridge.Tied u
  closed : s.Closed u

/-- A dialogue says what it has to say by the books. -/
structure Faithful (s : Sessions) (d : Dialogue) : Prop where
  refused_iff : d.upload = none ↔ d.crowded = true
  said_eq : d.said = (d.script s).map (·.envelope d.client)
  sublist : d.said.Sublist s.bridge.published.reverse
  follows : ∀ u, d.upload = some u → Follows s d u

theorem follows_act {s : Sessions} {d : Dialogue} {u : Upload} (hd : Follows s d u)
    {a : Bridge.Action} (hclosed : (s.act a).Closed u) : Follows (s.act a) d u where
  client_eq := hd.client_eq
  plan_eq := by
    rw [hd.plan_eq, Sessions.bridge_act, Bridge.settings_of_change (s.bridge.change_act a)]
  announced_eq := hd.announced_eq
  id_lt := by
    rw [Sessions.bridge_act]
    exact Nat.lt_of_lt_of_le hd.id_lt (Bridge.nextId_le_of_change (s.bridge.change_act a))
  tied := by
    rw [Sessions.bridge_act]
    exact Bridge.tied_act hd.id_lt hd.tied a
  closed := hclosed

/-- What is published stays published. -/
theorem sublist_act {b : Bridge} {said : List Envelope}
    (h : said.Sublist b.published.reverse) (a : Bridge.Action) :
    said.Sublist (b.act a).published.reverse := by
  obtain ⟨new, hnew⟩ := b.published_act a
  rw [hnew, List.reverse_append]
  exact h.trans (List.sublist_append_left _ _)

/-- **What is said keeps up with what is to be said by the books**: an action that concerns the
upload of a dialogue publishes what it adds there, and other actions add nothing. -/
theorem faithful_act {s : Sessions} (hs : s.Accounted) {d : Dialogue} (hd : Faithful s d)
    (a : Bridge.Action) :
    Faithful (s.act a) (d.hear (s.bridge.speaker a) (s.bridge.toldSince (s.bridge.act a))) := by
  cases hupload : d.upload with
  | none =>
    rw [Dialogue.hear_of_refused hupload]
    refine ⟨hd.refused_iff, ?_, ?_, fun u hu => ?_⟩
    · rw [hd.said_eq, Dialogue.script, Dialogue.script, hupload]
    · rw [Sessions.bridge_act]
      exact sublist_act hd.sublist a
    · rw [hupload] at hu
      cases hu
  | some u =>
    have hfollows := hd.follows u hupload
    obtain ⟨more, hadds, hclosed⟩ := Sessions.says_act hs hfollows.id_lt hfollows.tied
      hfollows.announced_eq hfollows.closed a
    have hthen := follows_act hfollows hclosed
    have hscript : d.script (s.act a) = d.script s ++ more := by
      rw [Dialogue.script, Dialogue.script, hupload]
      dsimp only
      rw [hadds.remarks_eq, List.cons_append]
    rw [Dialogue.hear_eq hupload]
    -- what the action publishes is what it adds by the books, if it concerns the upload
    by_cases hspeaker : s.bridge.speaker a = some u.id
    · have hpublished := hadds.published_eq hspeaker
      rw [hfollows.client_eq] at hpublished
      rw [if_pos hspeaker, Bridge.toldSince_of_published hpublished, List.reverse_reverse]
      refine ⟨hd.refused_iff, ?_, ?_, fun v hv => ?_⟩
      · change d.said ++ _ = (d.script (s.act a)).map _
        rw [hscript, List.map_append, ← hd.said_eq]
      · rw [Sessions.bridge_act, hpublished, List.reverse_append, List.reverse_reverse]
        exact hd.sublist.append (List.Sublist.refl _)
      · obtain rfl : u = v := Option.some_inj.mp (hupload.symm.trans hv)
        exact { hthen with }
    · rw [if_neg hspeaker]
      refine ⟨hd.refused_iff, ?_, ?_, fun v hv => ?_⟩
      · rw [hscript, hadds.of_others hspeaker, List.append_nil, ← hd.said_eq]
      · rw [Sessions.bridge_act]
        exact sublist_act hd.sublist a
      · obtain rfl : u = v := Option.some_inj.mp (hupload.symm.trans hv)
        exact hthen

/-- An action that concerns no upload leaves dialogues as they are. -/
theorem faithful_of_no_speaker {s : Sessions} (hs : s.Accounted) {d : Dialogue}
    (hd : Faithful s d) {a : Bridge.Action} (hnone : s.bridge.speaker a = none) :
    Faithful (s.act a) d := by
  have hthen := faithful_act hs hd a
  rwa [hnone] at hthen

/-- A request that finds the engine held is refused. -/
theorem ask_of_busy (s : Dialogues) (client : ClientId) (filename : Option String)
    {data : String} (hdata : data.isEmpty = false)
    (hbusy : s.sessions.bridge.engine.active ≠ none) :
    let told := Remark.busy.envelope client
    s.ask client filename data =
      { sessions := s.sessions.act (.publish told)
        dialogues := ⟨client, filename, data, !s.sessions.live.isEmpty, none, [told]⟩ ::
          s.dialogues } := by
  have hask := Bridge.ask_of_busy client filename hdata hbusy
  have hbegin : s.sessions.act (.begin client (Utf8.encode data) true) = s.sessions := by
    rcases s.sessions.act_begin_cases client (Utf8.encode data) true with heq | ⟨hfree, -⟩
    · exact heq
    · exact absurd hfree hbusy
  rw [ask, hask, hbegin]
  dsimp only
  rw [Bridge.toldSince_tell rfl]
  rfl

/-- A request that finds the engine free begins an upload. -/
theorem ask_of_free (s : Dialogues) (client : ClientId) (filename : Option String)
    {data : String} (hdata : data.isEmpty = false)
    (hfree : s.sessions.bridge.engine.active = none) :
    let u := s.sessions.bridge.engine.newUpload client (Utf8.encode data) true
    let told := (Remark.opening filename data).envelope client
    s.ask client filename data =
      { sessions := (s.sessions.act (.begin client (Utf8.encode data) true)).act (.publish told)
        dialogues := ⟨client, filename, data, !s.sessions.live.isEmpty, some u, [told]⟩ ::
          s.dialogues } := by
  have hbegin := s.sessions.bridge_act (.begin client (Utf8.encode data) true)
  have hasked := Bridge.ask_of_free client filename hdata hfree
  have hpublished : (s.sessions.bridge.act (.begin client (Utf8.encode data) true)).published =
    s.sessions.bridge.published := rfl
  rw [ask, hasked]
  dsimp only
  rw [Bridge.toldSince_tell hpublished, ← hbegin]
  rfl

/-- The books are right, and all dialogues are faithful to them. -/
structure Sound (s : Dialogues) : Prop where
  accounted : s.sessions.Accounted
  faithful : ∀ d ∈ s.dialogues, Faithful s.sessions d

theorem sound_new (settings : Settings) (bench : Bench) : Sound (new settings bench) where
  accounted := Sessions.accounted_new settings bench
  faithful := fun _ hd => nomatch hd

theorem sound_act {s : Dialogues} (hs : Sound s) (a : Bridge.Action) : Sound (s.act a) where
  accounted := Sessions.accounted_act hs.accounted a
  faithful := by
    intro d hd
    obtain ⟨d', hd', rfl⟩ := List.mem_map.mp hd
    exact faithful_act hs.accounted (hs.faithful d' hd') a

/-- A dialogue begins with its upload, on whose account nothing was said before. -/
theorem faithful_begin {s : Sessions} (hs : s.Accounted) {d : Dialogue}
    (hdata : d.data.isEmpty = false) (hfree : s.bridge.engine.active = none)
    (hupload : d.upload = some (s.bridge.engine.newUpload d.client (Utf8.encode d.data) true))
    (hcrowded : d.crowded = false)
    (hsaid : d.said = [(Remark.opening d.filename d.data).envelope d.client]) :
    Faithful ((s.act (.begin d.client (Utf8.encode d.data) true)).act
      (.publish ((Remark.opening d.filename d.data).envelope d.client))) d := by
  -- the number of the new upload was not in use
  have houtcome : s.bridge.engine.outcome? s.bridge.engine.nextId = none :=
    Bridge.outcome?_of_nextId_le hs.kept.numbered (Nat.le_refl _)
  have hstarted : s.hasStarted s.bridge.engine.nextId = false := by
    rw [Sessions.hasStarted, List.any_eq_false]
    intro t ht hid
    have hbegun := hs.kept.known t.upload (List.mem_append_right _ (List.mem_map_of_mem ht))
    exact Nat.ne_of_lt (hs.kept.begun_lt t.upload hbegun) (beq_iff_eq.mp hid)
  rw [s.act_begin_of_free d.client (Utf8.encode_ne_nil hdata) true hfree]
  constructor
  · rw [hupload, hcrowded]
    simp
  · rw [hsaid, Dialogue.script, hupload]
    dsimp only
    rw [Sessions.remarks_eq_nil]
    · rfl
    · exact hstarted
    · exact houtcome
  · rw [hsaid, List.singleton_sublist, List.mem_reverse]
    exact List.mem_cons_self
  · intro u hu
    obtain rfl := Option.some_inj.mp (hupload.symm.trans hu)
    refine ⟨rfl, rfl, rfl, Nat.lt_succ_self _, ?_, fun outcome hsome => ?_⟩
    · intro v hv _
      obtain rfl := Option.some_inj.mp hv
      exact ⟨rfl, rfl, rfl⟩
    · have hnone := houtcome.symm.trans hsome
      cases hnone

/-- A new dialogue begins with the one remark that is published. -/
theorem sound_cons {s : Sessions} (hs : s.Accounted) {dialogues : List Dialogue}
    (hold : ∀ d ∈ dialogues, Faithful s d) {d : Dialogue} {e : Envelope}
    (hd : Faithful (s.act (.publish e)) d) : Sound ⟨s.act (.publish e), d :: dialogues⟩ where
  accounted := Sessions.accounted_act hs (.publish e)
  faithful := List.forall_mem_cons.mpr
    ⟨hd, fun d' hd' => faithful_of_no_speaker (a := .publish e) hs (hold d' hd') rfl⟩

theorem sound_ask {s : Dialogues} (hs : Sound s) (client : ClientId) (filename : Option String)
    {data : String} (hdata : data.isEmpty = false) : Sound (s.ask client filename data) := by
  have hcrowded : (!s.sessions.live.isEmpty) = true ↔ s.sessions.bridge.engine.active ≠ none := by
    have hactive := hs.accounted.kept.active_iff
    rw [Engine.isActive, Option.isSome_iff_ne_none] at hactive
    rw [hactive]
    simp
  by_cases hfree : s.sessions.bridge.engine.active = none
  · have hbegun := Sessions.accounted_act hs.accounted (.begin client (Utf8.encode data) true)
    rw [s.ask_of_free client filename hdata hfree]
    refine sound_cons hbegun (fun d hd => ?_) ?_
    · exact faithful_of_no_speaker hs.accounted (hs.faithful d hd) rfl
    · have hquiet : (!s.sessions.live.isEmpty) = false :=
        Bool.eq_false_iff.mpr fun h => hcrowded.mp h hfree
      exact faithful_begin hs.accounted (d := ⟨client, filename, data, _, _, _⟩) hdata hfree rfl
        hquiet rfl
  · rw [s.ask_of_busy client filename hdata hfree]
    refine sound_cons hs.accounted hs.faithful ⟨?_, rfl, ?_, fun u hu => ?_⟩
    · exact iff_of_true rfl (hcrowded.mpr hfree)
    · exact List.singleton_sublist.mpr (by simp [Sessions.act, Bridge.act, Bridge.publish])
    · cases hu

/-- **Dialogues are kept faithfully** by every move. -/
theorem sound_move {s : Dialogues} (hs : Sound s) (m : Move) : Sound (s.move m) := by
  cases m with
  | ask client filename data =>
    rw [move]
    cases hdata : data.isEmpty with
    | true => exact hs
    | false => exact sound_ask hs client filename hdata
  | act a => exact sound_act hs a

theorem sound_run {s : Dialogues} (hs : Sound s) (moves : List Move) : Sound (s.run moves) := by
  induction moves generalizing s with
  | nil => exact hs
  | cons m moves ih => exact ih (sound_move hs m)

/-! ## Requests that are dealt with -/

/-- The request of a dialogue. -/
def Move.of (d : Dialogue) : Move :=
  .ask d.client d.filename d.data

/-- How a request for an upload is answered. -/
structure Answered (s : Sessions) (d : Dialogue) : Prop where
  /-- It is refused if another upload is live, and only then. -/
  refused_iff : d.upload = none ↔ d.crowded = true
  /-- Otherwise the text is uploaded for the client. -/
  upload_eq : ∀ u, d.upload = some u →
    u.client = d.client ∧ u.plan = .build (Utf8.encode d.data) s.bridge.engine.settings
  /-- All is said to the client, as it is to be said by the books. -/
  said_eq : d.said = (d.script s).map (·.envelope d.client)
  /-- It is published in this order. -/
  published : d.said.Sublist s.bridge.published.reverse
  /-- An upload that was set running holds the engine until it is known how it ended. -/
  ended_iff : ∀ u, d.upload = some u → s.hasStarted u.id = true →
    (s.bridge.NotHeld u.id ↔ ∃ outcome, s.bridge.engine.outcome? u.id = some outcome)
  /-- The last that is said is how the upload ended, and the engine is free of it then. -/
  closing : ∀ u outcome, d.upload = some u → s.bridge.engine.outcome? u.id = some outcome →
    s.bridge.NotHeld u.id ∧ ∃ r, Remark.ofOutcome u.plan.frames.length outcome = some r ∧
      d.said.getLast? = some (r.envelope d.client)

/-- An upload that was set running has ended once it does not hold the engine any more. -/
theorem ended_iff {s : Sessions} (hs : s.Accounted) {id : Nat} (hstarted : s.hasStarted id = true) :
    s.bridge.NotHeld id ↔ ∃ outcome, s.bridge.engine.outcome? id = some outcome := by
  obtain ⟨t, ht, hid⟩ := List.any_eq_true.mp hstarted
  obtain ⟨h, hover⟩ := t.exists_runsOver
  rw [← beq_iff_eq.mp hid]
  rcases hs.started t ht h hover with ⟨v, due, hv, -, hr⟩ | ⟨outcome, he⟩
  · refine iff_of_false (fun hnot => hnot v hr.active_eq hv) ?_
    rintro ⟨outcome, hsome⟩
    rw [← hv, hr.outcome_eq] at hsome
    cases hsome
  · exact iff_of_true he.notHeld ⟨outcome, he.outcome_eq⟩

theorem Faithful.answered {s : Sessions} (hs : s.Accounted) {d : Dialogue} (hd : Faithful s d) :
    Answered s d where
  refused_iff := hd.refused_iff
  upload_eq := fun u hu => ⟨(hd.follows u hu).client_eq, (hd.follows u hu).plan_eq⟩
  said_eq := hd.said_eq
  published := hd.sublist
  ended_iff := fun _ _ => ended_iff hs
  closing := by
    intro u outcome hu houtcome
    obtain ⟨hskipped, hstarted⟩ := (hd.follows u hu).closed outcome houtcome
    obtain ⟨r, hr⟩ : ∃ r, Remark.ofOutcome u.plan.frames.length outcome = some r := by
      cases outcome with
      | skipped => exact absurd rfl hskipped
      | completed | cancelled | failed => exact ⟨_, rfl⟩
    refine ⟨(ended_iff hs hstarted).mpr ⟨outcome, houtcome⟩, r, hr, ?_⟩
    rw [hd.said_eq, Dialogue.script, hu]
    dsimp only
    rw [Sessions.remarks, houtcome, Option.bind_some, hr, Option.toList_some, ← List.cons_append,
      List.map_append]
    exact List.getLast?_concat

/-- What the second client is told. -/
def refusal : Dialogue where
  client := ⟨1⟩
  filename := none
  data := "x"
  crowded := true
  upload := none
  said := [Remark.busy.envelope ⟨1⟩]

/-- The upload of the first client. -/
def stoppedUpload : Upload where
  id := 1
  client := ⟨0⟩
  plan := .build [0x61, 0x62, 0x63, 0x64, 0x65] Bridge.pacedSettings.transfer
  announced := true

/-- What the first client is told. -/
def conversation : Dialogue where
  client := ⟨0⟩
  filename := some "a.txt"
  data := "abcde"
  crowded := false
  upload := some stoppedUpload
  said := [.starting "a.txt" 1 5, .splitting 2, .stopped 1 2].map (Remark.envelope ⟨0⟩)

end Dialogues

end SerialBridge
