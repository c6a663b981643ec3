import StakeLedger.Proofs.Command.Run
import StakeLedger.Proofs.Settings.Listener

/-!
# What the server runs with

The server runs with the settings of a file, which pass their checks, and with the host and the
port that a command line puts in their place, which nobody checks.  It listens if an integer part
is left of the idle time.

Main definitions:

- {lit}`Command.Serve.Passes`: what would be asked of a command line.

Main results:

- Theorem {lit}`Command.listen_exact`: what the server listens with for the settings of a file.
- Theorem {lit}`Command.exists_serve_of_run_served`: only a run of the server serves.
- Theorem {lit}`Command.override_passes_iff`: when settings pass their checks with what a command
  line puts in their place.
- Theorem {lit}`Command.run_served_exact`: what a run serves with.
-/

namespace StakeLedger.Command

/-! ## Listening -/

section

variable {s : Settings} {r : Run} {opened : OpenLedger} {net : Network} {listener : Listener}
  {fault : Listener.Fault} {served : Served}

/-- With a ledger and a listener the server answers requests. -/
theorem listen_of_listener (hopened : r.directory.openLedger s.databasePath = .ok opened)
    (hnet : s.network? = some net) (hlistener : s.listener r.level = .ok listener) (clock : Int)
    (requests : List Http.Request) :
    ∃ replies, (listen clock requests s r).served = some ⟨listener, replies⟩ ∧
      (listen clock requests s r).ending = r.ending := by
  simp only [listen, hopened, hnet, Run.log_level, hlistener, Run.log_ending]
  exact ⟨_, rfl, trivial⟩

/-- Without a listener the run ends before the server answers anything. -/
theorem listen_of_fault (hopened : r.directory.openLedger s.databasePath = .ok opened)
    (hnet : s.network? = some net) (hlistener : s.listener r.level = .error fault) (clock : Int)
    (requests : List Http.Request) :
    (listen clock requests s r).served = r.served ∧
      (listen clock requests s r).ending = .crashed (.listener fault) := by
  simp only [listen, hopened, hnet, Run.log_level, hlistener, Run.ended_served, Run.log_served]
  exact ⟨trivial, rfl⟩

/-- What was served was served with the listener of the settings, by a site that admits the origins
of the settings. -/
theorem exists_desk_of_listen_served {clock : Int} {requests : List Http.Request}
    (hnone : r.served = none) (h : (listen clock requests s r).served = some served) :
    s.listener r.level = .ok served.listener ∧ ∃ desk : Desk,
      served.replies = replies clock { desk, origins := .ofList s.origins } requests := by
  unfold listen at h
  split at h
  · rw [Run.ended_served, hnone] at h
    cases h
  · rw [Run.ended_served, hnone] at h
    cases h
  · dsimp only at h
    split at h
    · rw [Run.ended_served, Run.log_served, hnone] at h
      cases h
    · next hlistener =>
      rw [Run.log_level] at hlistener
      rw [hlistener, ← Option.some.inj h]
      exact ⟨rfl, _, rfl⟩

/-- What was served was served with the listener of the settings. -/
theorem listener_of_listen_served {clock : Int} {requests : List Http.Request}
    (hnone : r.served = none) (h : (listen clock requests s r).served = some served) :
    s.listener r.level = .ok served.listener :=
  (exists_desk_of_listen_served hnone h).1

/-- Settings of a file name a level, and once their ledger is open the server listens at it,
at their host and port, and keeps idle connections for the integer part of their idle time,
which is not negative.  It does not listen if there is none, because the time is endless or no
number; then the run ends with a fault that nobody reports. -/
theorem listen_exact {text : String} (hfile : Settings.ofFile text = .ok s)
    (hopened : r.directory.openLedger s.databasePath = .ok opened) (hnone : r.served = none)
    (clock : Int) (requests : List Http.Request) :
    ∃ level, s.level? = some level ∧
      (s.logLevel = "" ∧ level = .info ∨
        s.logLevel ≠ "" ∧ level.lowerName = Case.lower s.logLevel) ∧
      (∀ q, s.idleTimeout.value? = some q → 0 ≤ ⌊q⌋ ∧ ∃ replies,
        (listen clock requests s { r with level }).served =
            some ⟨⟨s.host, s.port, ⌊q⌋, level⟩, replies⟩ ∧
          (listen clock requests s { r with level }).ending = r.ending) ∧
      (s.idleTimeout.value? = none →
        (listen clock requests s { r with level }).served = none ∧ ∃ fault,
          (listen clock requests s { r with level }).ending = .crashed (.listener fault)) := by
  have hpasses := s.fault?_eq_none_iff.mp (Settings.fault?_of_ofFile hfile)
  rcases hpasses.network with ⟨net, hnet⟩
  rcases hpasses.level with ⟨level, hlevel⟩
  refine ⟨level, hlevel, (s.level?_eq_some_iff level).mp hlevel, ?_, ?_⟩
  · intro q hq
    rcases Settings.listener_of_value hq hpasses.idleTimeout level with ⟨hnonneg, hlistener⟩
    refine ⟨Int.floor_nonneg.mpr hnonneg, ?_⟩
    exact @listen_of_listener s { r with level } _ _ _ hopened hnet hlistener clock requests
  · intro hno
    rcases Settings.listener_of_no_value hno level with ⟨fault, hlistener⟩
    rcases @listen_of_fault s { r with level } _ _ _ hopened hnet hlistener clock requests with
      ⟨hserved, hending⟩
    exact ⟨hserved.trans hnone, fault, hending⟩

end

/-- A file of settings for warnings and twelve and a half seconds. -/
def warningFile : String :=
  "server:\n  idle-timeout: 12.5\n  log-level: Warning\n  db-path: staking.db\n"

/-- The settings of that file. -/
def warningSettings : Settings where
  idleTimeout := .finite false 7036874417766400 (-49) (by decide)
  logLevel := "Warning"
  databasePath := "staking.db"

/-- In an empty directory a ledger is made. -/
theorem openLedger_empty : (Directory.ofTexts []).openLedger "staking.db" =
    .ok { ledger := .empty, place := some ["staking.db"] } := by
  with_unfolding_all rfl

/-- The server is told whole seconds and the level. -/
theorem listen_exact_warning : Settings.ofFile warningFile = .ok warningSettings ∧
    ∃ replies,
      (listen 0 [] warningSettings { directory := .ofTexts [], level := .warning }).served =
        some ⟨⟨"127.0.0.1", 8090, 12, .warning⟩, replies⟩ := by
  have hfile : Settings.ofFile warningFile = .ok warningSettings := by
    decide +kernel
  refine ⟨hfile, ?_⟩
  have hvalue : warningSettings.idleTimeout.value? = some (25 / 2) := by
    norm_num [warningSettings, Binary64.value?]
  have hfloor : ⌊(25 / 2 : ℚ)⌋ = 12 := by
    norm_num
  rcases @listen_exact _ { directory := .ofTexts [] } _ _ hfile openLedger_empty rfl 0 [] with
    ⟨level, hlevel, -, hserved, -⟩
  obtain rfl : .warning = level := by
    have hnamed : warningSettings.level? = some .warning := by
      decide +kernel
    exact Option.some.inj (hnamed.symm.trans hlevel)
  rcases hserved _ hvalue with ⟨-, replies, hreplies, -⟩
  rw [hfloor] at hreplies
  exact ⟨replies, hreplies⟩

/-- A file of settings with a time that is no number, which passes all checks. -/
def timelessFile : String :=
  "server:\n  idle-timeout: .nan\n  db-path: staking.db\n"

/-- The server does not listen with it. -/
theorem not_listen_timeless : ∃ s, Settings.ofFile timelessFile = .ok s ∧
    s.level? = some .info ∧ (listen 0 [] s { directory := .ofTexts [] }).served = none ∧
      (listen 0 [] s { directory := .ofTexts [] }).ending = .crashed (.listener .noTime) := by
  refine ⟨{ idleTimeout := .nan, databasePath := "staking.db" }, by decide +kernel, rfl, ?_⟩
  have hnet : ({ idleTimeout := .nan, databasePath := "staking.db" } : Settings).network? =
      some .signet := by
    decide
  exact @listen_of_fault _ { directory := .ofTexts [] } _ _ _ openLedger_empty hnet rfl 0 []

/-! ## Serving -/

/-- What would be asked of a command line for the server, if it were checked: a host that is not
empty is an address, and a port is one. -/
structure Serve.Passes (o : Serve) : Prop where
  host : ∀ host, o.host = some host → host ≠ "" → Host.isAddress host = true
  port : ∀ port, o.port = some port → 0 ≤ port ∧ port ≤ 65535

/-- A host that is not empty takes the place of the one of the settings. -/
theorem override_host (o : Serve) (s : Settings) :
    (override o s).host = s.host ∧ (∀ host, o.host = some host → host = "") ∨
      o.host = some (override o s).host ∧ (override o s).host ≠ "" := by
  cases hhost : o.host with
  | none =>
      left
      refine ⟨?_, nofun⟩
      simp [override, hhost]
  | some host =>
      by_cases hempty : host = ""
      · left
        refine ⟨?_, fun other hother => (Option.some.inj hother).symm.trans hempty⟩
        simp [override, hhost, hempty]
      · right
        simp [override, hhost, hempty]

/-- A port takes the place of the one of the settings. -/
theorem override_port (o : Serve) (s : Settings) :
    (override o s).port = s.port ∧ o.port = none ∨ o.port = some (override o s).port := by
  cases hport : o.port with
  | none =>
      left
      simp [override, hport]
  | some port =>
      right
      simp [override, hport]

/-- Only what a command line puts in the place of settings that pass their checks can be bad
about them afterwards. -/
theorem override_passes_iff {s : Settings} (h : s.Passes) (o : Serve) :
    (override o s).Passes ↔ o.Passes := by
  constructor
  · intro hpasses
    constructor
    · intro host hhost hne
      rcases override_host o s with ⟨-, hempty⟩ | ⟨hgiven, -⟩
      · exact absurd (hempty host hhost) hne
      · obtain rfl := Option.some.inj (hhost.symm.trans hgiven)
        exact hpasses.host
    · intro port hport
      rcases override_port o s with ⟨-, hnone⟩ | hgiven
      · rw [hnone] at hport
        cases hport
      · obtain rfl := Option.some.inj (hport.symm.trans hgiven)
        exact hpasses.port
  · intro hpasses
    have hhost : Host.isAddress (override o s).host = true := by
      rcases override_host o s with ⟨hsame, -⟩ | ⟨hgiven, hne⟩
      · rw [hsame]
        exact h.host
      · exact hpasses.host _ hgiven hne
    have hport : 0 ≤ (override o s).port ∧ (override o s).port ≤ 65535 := by
      rcases override_port o s with ⟨hsame, -⟩ | hgiven
      · rw [hsame]
        exact h.port
      · exact hpasses.port _ hgiven
    exact ⟨hhost, hport, h.writeTimeout, h.readTimeout, h.idleTimeout, h.network, h.pageSize,
      h.level⟩

section

variable {σ : Type} {source : Draws σ} {served : Served}

/-- Filling a ledger serves nothing. -/
theorem served_fillLedger (clock : Int) (draws : Option Int → σ) (outside : Outside) (o : Init)
    (s : Settings) (r : Run) :
    (fillLedger source clock draws outside o s r).served = r.served := by
  obtain ⟨d, ending, printed, hrun, -⟩ := fillLedger_cases source clock draws outside o s r
  rw [hrun]

/-- Writing settings and filling a ledger serves nothing. -/
theorem served_init (clock : Int) (draws : Option Int → σ) (outside : Outside) (o : Init)
    (directory : String) (r : Run) :
    (init source clock draws outside o directory r).served = r.served := by
  unfold init
  split
  · rfl
  · split
    · next hsettings =>
      obtain ⟨_, _, rfl⟩ := exists_of_ensureSettings hsettings
      rw [Run.withoutSettings_served]
    · next hsettings =>
      obtain ⟨_, _, rfl⟩ := exists_of_ensureSettings hsettings
      split
      · rw [served_fillLedger]
      · rfl

/-- A run of the server answers requests with the settings of a file. -/
theorem exists_listen_of_serve_served {clock : Int} {requests : List Http.Request} {disk : Disk}
    {o : Serve} {directory : String} {r : Run} (hnone : r.served = none)
    (h : (serve clock requests disk o directory r).served = some served) :
    ∃ text s, r.directory.read (o.path directory) = .ok text ∧ Settings.ofFile text = .ok s ∧
      (listen clock requests (override o s) { r with level := s.level?.getD .info }).served =
        some served := by
  unfold serve at h
  dsimp only at h
  split at h
  · rw [Run.withoutSettings_served, hnone] at h
    cases h
  · next s hload =>
    obtain ⟨text, hread, hfile⟩ := read_of_loadSettings hload
    exact ⟨text, s, hread, hfile, h⟩

/-- A run of the server serves with the settings of a file. -/
theorem exists_settings_of_serve_served {clock : Int} {requests : List Http.Request} {disk : Disk}
    {o : Serve} {directory : String} {r : Run} (hnone : r.served = none)
    (h : (serve clock requests disk o directory r).served = some served) :
    ∃ text s, r.directory.read (o.path directory) = .ok text ∧ Settings.ofFile text = .ok s ∧
      (override o s).listener (s.level?.getD .info) = .ok served.listener := by
  rcases exists_listen_of_serve_served hnone h with ⟨text, s, hread, hfile, hlisten⟩
  exact ⟨text, s, hread, hfile, @listener_of_listen_served (override o s)
    { r with level := s.level?.getD .info } served clock requests hnone hlisten⟩

/-- Only a run of the server serves. -/
theorem exists_serve_of_run_served {given : Invocation σ} {d : Directory}
    (h : (given.run source d).served = some served) :
    ∃ directory o, Request.parse given.words = .ok ⟨directory, .serve o⟩ ∧
      (serve given.clock given.requests given.outside.disk o directory { directory := d }).served =
        some served := by
  unfold Invocation.run at h
  split at h
  · cases h
  · cases h
  · rw [served_init] at h
    cases h
  · next directory o hparse => exact ⟨directory, o, hparse, h⟩

/-- Only a run of the server serves, and it does so with the settings of a file, which pass their
checks, and the host and the port that the command line puts in their place.  With these they
still pass if and only if what was put there would have passed as well; nobody asks. -/
theorem run_served_exact {given : Invocation σ} {d : Directory}
    (h : (given.run source d).served = some served) :
    ∃ directory o text s level,
      Request.parse given.words = .ok ⟨directory, .serve o⟩ ∧
      d.read (o.path directory) = .ok text ∧ Settings.ofFile text = .ok s ∧
      s.level? = some level ∧ (override o s).listener level = .ok served.listener ∧
      served.listener.host = (override o s).host ∧ served.listener.port = (override o s).port ∧
      ((override o s).Passes ↔ o.Passes) := by
  unfold Invocation.run at h
  split at h
  · cases h
  · cases h
  · rw [served_init] at h
    cases h
  · next directory o hparse =>
    rcases exists_settings_of_serve_served rfl h with ⟨text, s, hread, hfile, hlistener⟩
    have hpasses := s.fault?_eq_none_iff.mp (Settings.fault?_of_ofFile hfile)
    rcases hpasses.level with ⟨level, hlevel⟩
    rw [hlevel, Option.getD_some] at hlistener
    rcases Settings.host_port_of_listener hlistener with ⟨hhost, hport⟩
    exact ⟨directory, o, text, s, level, hparse, hread, hfile, hlevel, hlistener, hhost, hport,
      override_passes_iff hpasses o⟩

end

/-- A run of a command line at the beginning of 1970. -/
def runOf (words : List String) : Run :=
  Invocation.run Congruential.draws ⟨words, 0, fun _ => .ofSeeds 1 1, [], {}⟩
    (.ofTexts [(".stakingapi/config.yml", "")])

/-- Settings stay good with an address of version six from the command line. -/
theorem run_served_exact_address : ∃ served s,
    (runOf ["run", "--host", "::1"]).served = some served ∧ Settings.ofFile "" = .ok s ∧
      served.listener.host = "::1" ∧ (override { host := some "::1" } s).Passes := by
  have hmap : (runOf ["run", "--host", "::1"]).served.map Served.listener =
      some ⟨"::1", 8090, 60, .info⟩ := by
    decide +kernel
  rcases Option.map_eq_some_iff.mp hmap with ⟨served, hserved, hlistener⟩
  rcases run_served_exact hserved with
    ⟨directory, o, text, s, level, hparse, hread, hfile, -, -, -, -, hiff⟩
  have hrequest : Request.parse ["run", "--host", "::1"] =
      .ok ⟨"./.stakingapi", .serve { host := some "::1" }⟩ := by
    decide +kernel
  cases hrequest.symm.trans hparse
  have htext : (Directory.ofTexts [(".stakingapi/config.yml", "")]).read
      (Serve.path { host := some "::1" } "./.stakingapi") = .ok "" := by
    decide +kernel
  cases htext.symm.trans hread
  have hpasses : Serve.Passes { host := some "::1" } := by
    constructor
    · intro host hhost _
      cases hhost
      decide +kernel
    · exact nofun
  refine ⟨served, s, hserved, hfile, ?_, hiff.mpr hpasses⟩
  rw [hlistener]

/-- Nobody asks whether the port of a command line is one. -/
theorem run_served_unchecked : ∃ served,
    (runOf ["run", "--port", "70000"]).served = some served ∧
      ¬(0 ≤ served.listener.port ∧ served.listener.port ≤ 65535) := by
  have hmap : (runOf ["run", "--port", "70000"]).served.map Served.listener =
      some ⟨"127.0.0.1", 70000, 60, .info⟩ := by
    decide +kernel
  rcases Option.map_eq_some_iff.mp hmap with ⟨served, hserved, hlistener⟩
  refine ⟨served, hserved, ?_⟩
  rw [hlistener]
  decide

end StakeLedger.Command
