import SerialBridge.Proofs.Actions
import SerialBridge.Proofs.Openings

/-! # How a link stands

How a link stands can be seen in five ways: whether it is open, by the path of its port, by its
status, and, for a client that connects, in a text and in an event.  All of them look at the
current handle, and in every state that is reached there is one exactly if a link is open.  So they
agree (`Agrees`, `greets_greeting`).

Opening a link shows in all of them.  Whether it is opened in place of another one or anew after a
pause in which anything can happen, the candidates are tried in order up to the first that opens;
if the opening succeeds, that one is what is seen, and if it fails, no link is; and of the handles
there were before none is open any more (`Opens`, `openings_agree_with_reports`).
-/

namespace SerialBridge

namespace Link

/-! ## Looking at a link -/

theorem status_of_portOf {l : Link} {h : Nat} {path : String} {device : Nat}
    (hcurrent : l.current = some h) (hport : l.portOf h = some (path, device)) :
    l.status = .opened path := by
  obtain ⟨handle, hh, heq⟩ := exists_handle_of_portOf hport
  have hpath : handle.path = path := congrArg Prod.fst heq
  rw [status, currentHandle?, hcurrent, Option.bind_some, hh]
  exact congrArg LinkStatus.opened hpath

theorem status_of_none {l : Link} (hcurrent : l.current = none) :
    l.status = .closed l.lastPath := by
  rw [status, currentHandle?, hcurrent, Option.bind_none]

theorem Installed.status_eq {before after : Link} {path : String}
    (h : Installed before after path) : after.status = .opened path := by
  obtain ⟨k, device, -, -, hcurrent, -, hport⟩ := h
  exact status_of_portOf hcurrent hport

/-- What a link answers itself agrees: whether it is open, and the path of its port. -/
structure Agrees (l : Link) : Prop where
  isOpen_iff : l.isOpen = true ↔ ∃ path, l.status = .opened path
  portName?_eq_some_iff : ∀ path, l.portName? = some path ↔ l.status = .opened path

theorem agrees_of_sound {l : Link} (hl : Sound l) : Agrees l := by
  cases hcurrent : l.current with
  | none =>
    have hname : l.portName? = none := by
      rw [portName?, currentHandle?, hcurrent, Option.bind_none, Option.map_none]
    constructor
    · rw [isOpen, hcurrent, status_of_none hcurrent]
      exact iff_of_false nofun nofun
    · intro path
      rw [hname, status_of_none hcurrent]
      exact iff_of_false nofun nofun
  | some h =>
    obtain ⟨handle, hh, -⟩ := exists_handle_of_openAt ((hl.openAt_iff h).mpr hcurrent)
    have hstatus := status_of_portOf hcurrent (portOf_of_handle hh)
    have hname : l.portName? = some handle.path := by
      rw [portName?, currentHandle?, hcurrent, Option.bind_some, hh, Option.map_some]
    constructor
    · rw [isOpen, hcurrent, hstatus]
      exact iff_of_true rfl ⟨_, rfl⟩
    · intro path
      rw [hname, hstatus, Option.some_inj, LinkStatus.opened.injEq]

/-! ## Opening -/

/-- The result of an opening is the status after it. -/
theorem openPort_eq_ok_iff (l : Link) (candidates : List String) (baudRate : UInt32)
    (path : String) :
    (l.openPort candidates baudRate).2 = .ok path ↔
      (l.openPort candidates baudRate).1.status = .opened path := by
  cases hresult : (l.openPort candidates baudRate).2 with
  | ok opened =>
    rw [(installed_of_openPort hresult).status_eq, Except.ok.injEq, LinkStatus.opened.injEq]
  | error e =>
    rw [status_of_none (current_of_openPort_error hresult)]
    exact iff_of_false nofun nofun

/-- What opening a link with some candidates comes to. -/
structure Opens (l : Link) (opening : Opening) (candidates : List String) (baudRate : UInt32) :
    Prop where
  /-- The candidates are tried in order, each once, up to the first that opens. -/
  attempts_eq : (l.openBy opening candidates baudRate).1.attempts =
    ((l.readied opening).bench.attemptsOn baudRate candidates).reverse ++
      (l.readied opening).attempts
  /-- If it succeeds, the first that opens is the link, and the link says so. -/
  of_ok : ∀ path, (l.openBy opening candidates baudRate).2 = .ok path →
    candidates.find? (l.readied opening).bench.opens = some path ∧
      Installed (l.readied opening) (l.openBy opening candidates baudRate).1 path ∧
      (l.openBy opening candidates baudRate).1.status = .opened path
  /-- If it fails, there is no link, and the link says so. -/
  of_error : ∀ e, (l.openBy opening candidates baudRate).2 = .error e →
    (l.openBy opening candidates baudRate).1.current = none ∧
      ∃ path, (l.openBy opening candidates baudRate).1.status = .closed path
  /-- It fails for want of a port exactly if none of the candidates opens, and names them all. -/
  unavailable_iff : ∀ named,
    (l.openBy opening candidates baudRate).2 = .error (.portUnavailable named) ↔
      named = candidates ∧ ∀ c ∈ candidates, (l.readied opening).bench.opens c = false
  /-- Either way, the handles there were before are closed. -/
  closed : ∀ h port, l.portOf h = some port ∨ (l.readied opening).portOf h = some port →
    (l.openBy opening candidates baudRate).1.openAt h = false

theorem sound_readied {l : Link} (hl : Sound l) (opening : Opening) :
    Sound (l.readied opening) := by
  cases opening with
  | replacing => exact hl
  | reconnecting pause => exact sound_run (sound_clear hl) pause

theorem portOf_readied {l : Link} {h : Nat} {port : String × Nat} (hp : l.portOf h = some port)
    (opening : Opening) : (l.readied opening).portOf h = some port := by
  cases opening with
  | replacing => exact hp
  | reconnecting pause => exact portOf_run ((l.portOf_clear h).trans hp) pause

theorem opens_of_sound {l : Link} (hl : Sound l) (opening : Opening) {candidates : List String}
    (hne : candidates ≠ []) (baudRate : UInt32) : Opens l opening candidates baudRate := by
  have hyields := (l.readied opening).yields_openPort candidates baudRate
  have hbench := (l.readied opening).clear_bench
  have hpaths : (l.readied opening).bench.pathsFor candidates = candidates := by
    rw [Bench.pathsFor, List.isEmpty_eq_false_iff.mpr hne]
    rfl
  constructor
  case attempts_eq =>
    have hattempts := hyields.attempts_eq
    rwa [hbench, hpaths, clear_attempts] at hattempts
  case of_ok =>
    intro path hok
    have hfirst := ((hyields.eq_ok_iff path).mp hok).1
    rw [hbench, hpaths] at hfirst
    have hinstalled := installed_of_openPort hok
    exact ⟨hfirst, hinstalled, hinstalled.status_eq⟩
  case of_error =>
    intro e herror
    have hcurrent := current_of_openPort_error herror
    exact ⟨hcurrent, _, status_of_none hcurrent⟩
  case unavailable_iff =>
    intro named
    have hiff := hyields.eq_unavailable_iff named
    rwa [hbench, hpaths] at hiff
  case closed =>
    intro h port hbefore
    have hport : (l.readied opening).portOf h = some port :=
      hbefore.elim (fun hp => portOf_readied hp opening) id
    exact (openAt_openPort hport candidates baudRate).trans
      (openAt_clear_of_sound (sound_readied hl opening) h)

end Link

namespace Bridge

/-! ## Greeting a client -/

/-- The text that says that a port is open. -/
def openText (path : String) : String :=
  "Serial Port " ++ path ++ " OPEN"

/-- A client that connects is told of the link by a text and an event, which agree. -/
structure Greets (b : Bridge) (client : ClientId) (text : String) : Prop where
  told_eq : b.toldSince (b.connect client) =
    [.reply client (.log "Connected to Web Dashboard"), .reply client (.log text),
      .reply client (.link b.link.status)]
  says_open_iff : ∀ path, text = openText path ↔ b.link.status = .opened path

theorem openText_inj {path path' : String} : openText path = openText path' ↔ path = path' := by
  rw [openText, openText, String.append_left_inj, String.append_right_inj]

/-- No other text is mistaken for one that says that a port is open. -/
theorem openText_ne_closed (path path' : String) :
    "Serial Port " ++ path' ++ " closed or unavailable" ≠ openText path := by
  intro h
  have hclosed : " closed or unavailable".toList.getLast? = some 'e' := by decide
  have hopen : " OPEN".toList.getLast? = some 'N' := by decide
  have hlast := congrArg (fun s : String => s.toList.getLast?) h
  simp only [openText, String.toList_append, List.getLast?_append, hclosed, hopen,
    Option.some_or] at hlast
  exact absurd (Option.some_inj.mp hlast) (by decide)

/-- The text in which a client that connects is told of the link. -/
def greeting (b : Bridge) : String :=
  match b.link.status with
  | .opened path => openText path
  | .closed path =>
    "Serial Port " ++ (path <|> b.settings.candidates.head?).getD "(none)"
      ++ " closed or unavailable"

theorem connect_eq (b : Bridge) (client : ClientId) :
    b.connect client = [.reply client (.log "Connected to Web Dashboard"),
      .reply client (.log b.greeting), .reply client (.link b.link.status)].foldl publish b :=
  rfl

theorem greets_greeting (b : Bridge) (client : ClientId) : b.Greets client b.greeting where
  told_eq := by rw [connect_eq, toldSince_foldl_publish rfl]
  says_open_iff := fun path => by
    rw [greeting]
    cases hstatus : b.link.status with
    | opened path' => exact openText_inj.trans (by rw [LinkStatus.opened.injEq, eq_comm])
    | closed path' => exact iff_of_false (openText_ne_closed path _) nofun

end Bridge

namespace Link

/-! ## What is opened is what is seen -/

/-- **Openings agree with reports.**  From every state that is reached, an opening tries the
candidates in order up to the first that opens; then that one is the link, or there is none, and
what was open before is closed.  And however a link stands, all that is told of it agrees. -/
theorem openings_agree_with_reports (bench : Bench) (steps : List Step) :
    let l := ({ bench } : Link).run steps
    (∀ opening candidates baudRate, candidates ≠ [] → Opens l opening candidates baudRate) ∧
      Agrees l ∧
      ∀ b : Bridge, b.link = l → ∀ client, ∃ text, b.Greets client text := by
  intro l
  have hl : Sound l := sound_run (sound_new bench) steps
  exact ⟨fun opening candidates baudRate hne => opens_of_sound hl opening hne baudRate,
    agrees_of_sound hl, fun b _ client => ⟨b.greeting, b.greets_greeting client⟩⟩

/-- A link is open, and another one is opened in the pause of a reconnect.  The reconnect passes
over a port that does not open and fails with one that is mute, and both handles are closed. -/
theorem failed_opening_agrees_with_reports :
    let l := ({ bench := muteBench } : Link).run [.openPort ["c"] 9600]
    let opened := l.openBy (.reconnecting [.openPort ["c"] 9600]) ["a", "b"] 115200
    opened.2 = .error (.io "no clone") ∧
      opened.1.attempts.take 2 = [⟨"b", 115200, true⟩, ⟨"a", 115200, false⟩] ∧
      opened.1.current = none ∧ (∃ path, opened.1.status = .closed path) ∧
      opened.1.openAt 0 = false ∧ opened.1.openAt 1 = false ∧
      l.portName? = some "c" ∧ ∃ text, ({ link := l } : Bridge).Greets ⟨0⟩ text := by
  intro l opened
  obtain ⟨hopens, hagrees, hgreets⟩ :=
    openings_agree_with_reports muteBench [.openPort ["c"] 9600]
  have hopened := hopens (.reconnecting [.openPort ["c"] 9600]) ["a", "b"] 115200 (by decide)
  have herror : opened.2 = .error (.io "no clone") := rfl
  obtain ⟨hcurrent, hstatus⟩ := hopened.of_error _ herror
  refine ⟨herror, ?_, hcurrent, hstatus, hopened.closed 0 ("c", 1) (.inl rfl),
    hopened.closed 1 ("c", 1) (.inr rfl), (hagrees.portName?_eq_some_iff "c").mpr rfl,
    hgreets { link := l } rfl ⟨0⟩⟩
  exact (congrArg (List.take 2) hopened.attempts_eq).trans (by decide)

end Link

end SerialBridge
