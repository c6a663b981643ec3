import StakeLedger.Proofs.Command.Serve

/-!
# What runs leave as it was

A run that reports a fault leaves what was there.  It does so before it writes anything, and at
most its data directory was made with those around it, unless the disk or the console interrupts
the writing of settings: then their file may stay.  Settings that are in a data directory already
stay as they are whatever the command that would write them does, since a ledger that lay in their
place would have to be named by settings that are an empty file, and these name another one.

Main definitions:

- {lit}`Command.after`: the directory that some runs leave behind.
- {lit}`Command.Throughout`: what holds of each of some runs.
- {lit}`Command.Leaves`: what a run that reports a fault leaves behind.
- {lit}`Command.Spares`: what a run leaves as it was.

Main results:

- Theorem {lit}`Command.directory_init_of_reported`, {lit}`Command.directory_serve_of_reported`:
  what a reported fault leaves behind.
- Theorem {lit}`Command.settings_init`: settings that are there stay.
- Theorem {lit}`Command.spares_run`: what a run leaves as it was.
- Theorem {lit}`Command.runs_spare`: what each of some runs leaves as it was.
- Theorem {lit}`Command.sameFiles_after`, {lit}`Command.settings_after`: what stays over many runs.
-/

namespace StakeLedger.Command

/-! ## Reported faults -/

section

variable {σ : Type} {source : Draws σ} {clock : Int} {draws : Option Int → σ} {outside : Outside}
  {o : Init} {s : Settings} {r : Run} {directory : String}

/-- Filling a ledger reports no fault. -/
theorem reported_of_fillLedger
    (h : (fillLedger source clock draws outside o s r).ending = .reported) :
    r.ending = .reported := by
  obtain ⟨d, ending, printed, hrun, hending, -⟩ := fillLedger_cases source clock draws outside o s r
  rw [hrun] at h
  obtain rfl | ⟨crash, rfl⟩ := hending
  · exact h
  · cases h

/-- Listening reports no fault. -/
theorem reported_of_listen {requests : List Http.Request}
    (h : (listen clock requests s r).ending = .reported) : r.ending = .reported := by
  unfold listen at h
  split at h
  · cases h
  · cases h
  · dsimp only at h
    split at h
    · cases h
    · exact h

/-- Unless there are settings in the end nothing is written, or their file where there was none,
if that was interrupted. -/
theorem directory_of_ensureSettings_error {reached : Run} {fault : LoadFault}
    (h : ensureSettings outside o directory r = (reached, .error fault)) :
    reached.directory = r.directory ∨
      outside.Interrupts (Path.join directory settingsFile) ∧ ∃ names text,
        r.directory.Leads (Path.join directory settingsFile) names ∧
          r.directory.find? names = none ∧
          reached.directory = r.directory.put names (.text text) := by
  have hreached : (ensureSettings outside o directory r).1 = reached := by
    rw [h]
  by_cases hsome : (r.directory.at? (Path.join directory settingsFile)).isSome
  · obtain ⟨printed, hrun, -⟩ := @ensureSettings_of_isSome outside directory r o hsome
    left
    rw [← hreached, hrun]
  · obtain ⟨d, printed, hrun, hcases⟩ := @ensureSettings_of_not_isSome outside directory r o hsome
    rw [← hreached, hrun]
    rcases hcases with ⟨hsame, -⟩ | ⟨names, text, hleads, hput, hinterrupts⟩
    · exact Or.inl hsame
    · have hresult : (ensureSettings outside o directory r).2 = .error fault := by
        rw [h]
      exact Or.inr
        ⟨hinterrupts fault hresult, names, text, hleads, hleads.find?_eq_none hsome, hput⟩

/-- When the fault of settings that were to be written is reported, at most the data directory was
made, and the file of settings if writing it was interrupted. -/
theorem directory_init_of_reported (hstart : r.ending ≠ .reported)
    (h : (init source clock draws outside o directory r).ending = .reported) :
    (init source clock draws outside o directory r).directory = (r.directory.makeAll directory).1 ∨
      outside.Interrupts (Path.join directory settingsFile) ∧ ∃ names text,
        (r.directory.makeAll directory).1.Leads (Path.join directory settingsFile) names ∧
          (r.directory.makeAll directory).1.find? names = none ∧
          (init source clock draws outside o directory r).directory =
            (r.directory.makeAll directory).1.put names (.text text) := by
  unfold init at h ⊢
  split at h
  · cases h
  · next d hmade =>
    rw [hmade]
    dsimp only
    split at h
    · next reached fault hsettings =>
      rw [Run.withoutSettings_directory]
      exact @directory_of_ensureSettings_error outside o { r with directory := d } directory reached
        fault hsettings
    · next reached s hsettings =>
      -- Once there are settings no fault is reported any more.
      obtain ⟨_, _, rfl⟩ := exists_of_ensureSettings hsettings
      split at h
      · exact absurd (reported_of_fillLedger h) hstart
      · exact absurd h hstart

/-- When the fault of settings that the server was to run with is reported, nothing was changed. -/
theorem directory_serve_of_reported {requests : List Http.Request} {disk : Disk} {o : Serve}
    (hstart : r.ending ≠ .reported)
    (h : (serve clock requests disk o directory r).ending = .reported) :
    (serve clock requests disk o directory r).directory = r.directory := by
  unfold serve at h ⊢
  dsimp only at h ⊢
  split at h
  · exact Run.withoutSettings_directory _ _ _
  · exact absurd (reported_of_listen h) hstart

/-! ## Settings that are there -/

/-- The name of the file of settings is one that a file may have. -/
theorem isFileName_settingsFile : Path.IsFileName settingsFile := by
  decide

/-- The name of the ledger is one that a file may have. -/
theorem isFileName_ledgerFile : Path.IsFileName ledgerFile := by
  decide

/-- An empty file has the default settings. -/
theorem ofFile_empty : Settings.ofFile "" = .ok {} := by
  decide +kernel

/-- A ledger that settings in a data directory name is not kept in their place. -/
theorem place_ne_of_loadSettings {disk : Disk} {d : Directory} {names : List String}
    {opened : OpenLedger} (hload : loadSettings disk d (Path.join directory settingsFile) = .ok s)
    (hleads : d.Leads (Path.join directory settingsFile) names)
    (hopened : d.openLedger s.databasePath = .ok opened) : opened.place ≠ some names := by
  intro hplace
  have hgives := Directory.givesWay_of_openLedger hopened hplace
  obtain ⟨text, hread, hfile⟩ := read_of_loadSettings hload
  rw [Directory.find?_of_read hread hleads] at hgives
  -- Settings that would give way are an empty file, and so the default ones.
  obtain rfl : text = "" := hgives
  rw [ofFile_empty] at hfile
  cases hfile
  have hdefault : Path.join "./.stakingapi" ledgerFile = "./.stakingapi/staking.db" := by
    decide +kernel
  rcases Path.names_join "./.stakingapi" isFileName_ledgerFile with ⟨before, hnames⟩
  rw [hdefault] at hnames
  rcases Directory.exists_last_of_openLedger isFileName_ledgerFile.toIsPlain hnames hopened hplace
    with ⟨around, hledger⟩
  rcases Path.names_join directory isFileName_settingsFile with ⟨others, hpath⟩
  rcases hleads.exists_last isFileName_settingsFile.toIsPlain hpath with ⟨above, hsettings⟩
  have hlast := List.append_inj_right' (hledger.symm.trans hsettings) rfl
  revert hlast
  decide

/-- Filling a ledger that settings in a data directory name leaves these settings. -/
theorem settings_fillLedger {disk : Disk} {names : List String} {item : Item}
    (hload : loadSettings disk r.directory (Path.join directory settingsFile) = .ok s)
    (hleads : r.directory.Leads (Path.join directory settingsFile) names)
    (hfind : r.directory.find? names = some item) :
    (fillLedger source clock draws outside o s r).directory.Leads
        (Path.join directory settingsFile) names ∧
      (fillLedger source clock draws outside o s r).directory.find? names = some item := by
  obtain ⟨d, ending, printed, hrun, -, hcases⟩ :=
    fillLedger_cases source clock draws outside o s r
  rw [hrun]
  rcases hcases with rfl | ⟨opened, l, hopened, rfl⟩
  · exact ⟨hleads, hfind⟩
  · constructor
    · exact hleads.of_kept fun _ => Directory.find?_keep_directory hopened l
    · exact Directory.find?_keep (place_ne_of_loadSettings hload hleads hopened) l hfind

/-- Settings that are in a data directory once it is made stay. -/
theorem settings_init {names : List String} {item : Item}
    (hleads : (r.directory.makeAll directory).1.Leads (Path.join directory settingsFile) names)
    (hfind : (r.directory.makeAll directory).1.find? names = some item) :
    (init source clock draws outside o directory r).directory.Leads
        (Path.join directory settingsFile) names ∧
      (init source clock draws outside o directory r).directory.find? names = some item := by
  unfold init
  split
  · next hmade =>
    rw [hmade] at hleads hfind
    exact ⟨hleads, hfind⟩
  · next d hmade =>
    rw [hmade] at hleads hfind
    have hthere : (d.at? (Path.join directory settingsFile)).isSome := by
      rw [Directory.at?_eq_some_iff.mpr ⟨names, hleads, hfind⟩]
      rfl
    obtain ⟨printed, hrun, hload⟩ :=
      @ensureSettings_of_isSome outside directory { r with directory := d } o hthere
    split
    · next reached fault hsettings =>
      rw [hsettings] at hrun
      obtain rfl : reached = _ := hrun
      rw [Run.withoutSettings_directory]
      exact ⟨hleads, hfind⟩
    · next reached s hsettings =>
      rw [hsettings] at hrun hload
      obtain rfl : reached = _ := hrun
      split
      · exact settings_fillLedger (hload s rfl) hleads hfind
      · exact ⟨hleads, hfind⟩

end

/-! ## Runs one after the other -/

section

variable {σ : Type} (source : Draws σ)

/-- The directory that some runs leave behind, one after the other. -/
def after : List (Invocation σ) → Directory → Directory
  | [], d => d
  | given :: rest, d => after rest (given.run source d).directory

/-- What holds of each of some runs, told by what it finds, what it is given and what it leaves
behind. -/
def Throughout (p : Directory → Invocation σ → Run → Prop) : List (Invocation σ) → Directory → Prop
  | [], _ => True
  | given :: rest, d =>
      p d given (given.run source d) ∧ Throughout p rest (given.run source d).directory

variable {source} {p : Directory → Invocation σ → Run → Prop}

/-- What holds of every single run holds of each of some runs. -/
theorem throughout_of_run (h : ∀ d given, p d given (given.run source d))
    (history : List (Invocation σ)) (d : Directory) : Throughout source p history d := by
  induction history generalizing d with
  | nil => trivial
  | cons given rest ih => exact ⟨h d given, ih _⟩

/-- What each of some runs preserves is preserved by all of them. -/
theorem after_of_throughout {q : Directory → Prop}
    (hstep : ∀ d given, p d given (given.run source d) → q d → q (given.run source d).directory)
    {history : List (Invocation σ)} {d : Directory} (h : Throughout source p history d)
    (hq : q d) : q (after source history d) := by
  induction history generalizing d with
  | nil => exact hq
  | cons given rest ih => exact ih h.2 (hstep d given h.1 hq)

/-- What a run that reports a fault leaves behind: all that was there and directories where the
path of the data directory or a beginning of it leads.  The command that writes settings may leave
their file, too, but only if writing it was interrupted. -/
structure Leaves (given : Invocation σ) (request : Request) (before after : Directory) : Prop where
  kept : ∀ names item, before.find? names = some item → after.find? names = some item
  made : ∀ names item, after.find? names = some item → before.find? names = some item ∨
    (item = .directory ∧ ∃ part, part <+: request.directory.toList ∧
      after.Leads (String.ofList part) names) ∨
    (∃ o, request.order = .init o) ∧
      given.outside.Interrupts (Path.join request.directory settingsFile) ∧
        after.Leads (Path.join request.directory settingsFile) names
  serve : ∀ o, request.order = .serve o → after = before

/-- What a run leaves as it was.  When a fault is reported it leaves what was there, and nothing new
but directories if the writing of settings was not interrupted.  The command that writes settings
leaves those that are in its data directory already. -/
structure Spares (before : Directory) (given : Invocation σ) (r : Run) : Prop where
  reported : r.ending = .reported → ∃ request, Request.parse given.words = .ok request ∧
    Leaves given request before r.directory ∧
    (¬given.outside.Interrupts (Path.join request.directory settingsFile) →
      before.SameFiles r.directory ∧
        Directory.OnlyMade request.directory.toList before r.directory)
  settings : ∀ directory o, Request.parse given.words = .ok ⟨directory, .init o⟩ →
    ∀ names item, before.find? names = some item →
      before.Leads (Path.join directory settingsFile) names ∨
          (before.makeAll directory).1.Leads (Path.join directory settingsFile) names →
        r.directory.Leads (Path.join directory settingsFile) names ∧
          r.directory.find? names = some item

/-- A command line for settings and a ledger asks for both. -/
theorem run_of_init {given : Invocation σ} {directory : String} {o : Init}
    (h : Request.parse given.words = .ok ⟨directory, .init o⟩) (d : Directory) :
    given.run source d =
      init source given.clock given.draws given.outside o directory { directory := d } := by
  rw [Invocation.run, h]

/-- A command line for the server asks for it. -/
theorem run_of_serve {given : Invocation σ} {directory : String} {o : Serve}
    (h : Request.parse given.words = .ok ⟨directory, .serve o⟩) (d : Directory) :
    given.run source d =
      serve given.clock given.requests given.outside.disk o directory { directory := d } := by
  rw [Invocation.run, h]

/-- A fault is reported only if the command line asks for something. -/
theorem exists_request_of_reported {given : Invocation σ} {d : Directory}
    (h : (given.run source d).ending = .reported) :
    ∃ request, Request.parse given.words = .ok request := by
  unfold Invocation.run at h
  split at h
  · cases h
  · cases h
  · next hparse => exact ⟨_, hparse⟩
  · next hparse => exact ⟨_, hparse⟩

/-- Nothing but directories was made if the writing of settings was not interrupted. -/
theorem Leaves.onlyMade {given : Invocation σ} {request : Request} {before after : Directory}
    (h : Leaves given request before after)
    (hwhole : ¬given.outside.Interrupts (Path.join request.directory settingsFile)) :
    Directory.OnlyMade request.directory.toList before after where
  kept := h.kept
  made names item hfind := by
    rcases h.made names item hfind with hbefore | hmade | ⟨-, hinterrupts, -⟩
    · exact Or.inl hbefore
    · exact Or.inr hmade
    · exact absurd hinterrupts hwhole

/-- The directories of the data directory's path, and then a file of settings where none was. -/
theorem leaves_put {given : Invocation σ} {directory : String} {o : Init}
    {before between : Directory} {names : List String}
    (hmade : Directory.OnlyMade directory.toList before between)
    (hinterrupts : given.outside.Interrupts (Path.join directory settingsFile))
    (hleads : between.Leads (Path.join directory settingsFile) names)
    (hnone : between.find? names = none) (item : Item) :
    Leaves given ⟨directory, .init o⟩ before (between.put names item) := by
  have hkept : ∀ others found, between.find? others = some found →
      (between.put names item).find? others = some found :=
    fun _ _ hfind => Directory.find?_put_of_none hnone hfind item
  constructor
  · intro others found hfind
    exact hkept others found (hmade.kept others found hfind)
  · intro others found hfind
    rcases Directory.find?_put_cases hfind with hbetween | ⟨rfl, -⟩
    · rcases hmade.made others found hbetween with hbefore | ⟨hitem, part, hpart, hpath⟩
      · exact Or.inl hbefore
      · exact Or.inr (Or.inl ⟨hitem, part, hpart, hpath.of_kept fun _ => hkept _ _⟩)
    · exact Or.inr (Or.inr ⟨⟨o, rfl⟩, hinterrupts, hleads.of_kept fun _ => hkept _ _⟩)
  · intro _ hserve
    cases hserve

/-- A run that reports a fault leaves what was there. -/
theorem leaves_of_reported {given : Invocation σ} {d : Directory}
    (h : (given.run source d).ending = .reported) :
    ∃ request, Request.parse given.words = .ok request ∧
      Leaves given request d (given.run source d).directory := by
  rcases exists_request_of_reported h with ⟨⟨directory, order⟩, hparse⟩
  refine ⟨⟨directory, order⟩, hparse, ?_⟩
  have hstart : ({ directory := d } : Run).ending ≠ .reported := nofun
  cases order with
  | init o =>
      rw [run_of_init hparse] at h ⊢
      have hmade := Directory.onlyMade_makeAll d directory
      rcases directory_init_of_reported hstart h with
        hsame | ⟨hinterrupts, names, text, hleads, hnone, hput⟩
      · rw [hsame]
        refine ⟨hmade.kept, ?_, nofun⟩
        intro names item hfind
        exact (hmade.made names item hfind).imp_right Or.inl
      · rw [hput]
        exact leaves_put hmade hinterrupts hleads hnone _
  | serve o =>
      rw [run_of_serve hparse] at h ⊢
      rw [directory_serve_of_reported hstart h]
      exact ⟨fun _ _ hfind => hfind, fun _ _ hfind => Or.inl hfind, fun _ _ => rfl⟩

/-- Settings that are in a data directory stay when settings are to be written there. -/
theorem settings_run {given : Invocation σ} {directory : String} {o : Init}
    (hparse : Request.parse given.words = .ok ⟨directory, .init o⟩) {d : Directory}
    {names : List String} {item : Item} (hfind : d.find? names = some item)
    (hleads : d.Leads (Path.join directory settingsFile) names ∨
      (d.makeAll directory).1.Leads (Path.join directory settingsFile) names) :
    (given.run source d).directory.Leads (Path.join directory settingsFile) names ∧
      (given.run source d).directory.find? names = some item := by
  have hmade := Directory.onlyMade_makeAll d directory
  have hafter : (d.makeAll directory).1.Leads (Path.join directory settingsFile) names :=
    hleads.elim hmade.leads id
  rw [run_of_init hparse]
  exact settings_init hafter (hmade.kept names item hfind)

/-- Every run leaves as it was what is promised of it. -/
theorem spares_run (d : Directory) (given : Invocation σ) :
    Spares d given (given.run source d) := by
  constructor
  · intro h
    rcases leaves_of_reported h with ⟨request, hparse, hleaves⟩
    refine ⟨request, hparse, hleaves, fun hwhole => ?_⟩
    exact ⟨(hleaves.onlyMade hwhole).sameFiles, hleaves.onlyMade hwhole⟩
  · intro directory o hparse names item hfind hleads
    exact settings_run hparse hfind hleads

/-- Whatever is there at first and whatever was run before, a run that reports a fault leaves all
that was there.  At most its data directory is made with those around it, unless the disk or the
console interrupts the writing of settings.  The command that writes settings leaves those that are
in its data directory already. -/
theorem runs_spare (source : Draws σ) (history : List (Invocation σ)) (d : Directory) :
    Throughout source Spares history d :=
  throughout_of_run spares_run history d

/-- A command line that is given at the beginning of 1970, with nothing in its way. -/
def lineOf (words : List String) : Invocation Congruential :=
  ⟨words, 0, fun _ => .ofSeeds 1 1, [], {}⟩

/-- Nothing interrupts if the console takes all lines and the disk all texts. -/
theorem not_interrupts (path : String) : ¬({} : Outside).Interrupts path := by
  rintro (⟨count, message, hfate⟩ | ⟨shown, message, hconsole⟩)
  · cases hfate
  · cases hconsole

/-- A data directory with settings for a network that nobody knows. -/
def unknownNetwork : Directory :=
  .ofTexts [(".stakingapi/config.yml", "server:\n  btc-net: dogecoin\n")]

/-- Settings for such a network are not written into another data directory, and those that are
there stay. -/
theorem runs_spare_unknown : ∃ first second : Run,
    (lineOf ["--datadir", "devnet", "init", "--btc-net", "dogecoin"]).run Congruential.draws
      unknownNetwork = first ∧
    (lineOf ["init"]).run Congruential.draws first.directory = second ∧
    first.ending = .reported ∧ unknownNetwork.SameFiles first.directory ∧
    second.directory.at? "./.stakingapi/config.yml" =
      some (.text "server:\n  btc-net: dogecoin\n") := by
  have hspared := runs_spare Congruential.draws
    [lineOf ["--datadir", "devnet", "init", "--btc-net", "dogecoin"], lineOf ["init"]]
    unknownNetwork
  rcases hspared with ⟨hfirst, hsecond, -⟩
  have hending : ((lineOf ["--datadir", "devnet", "init", "--btc-net", "dogecoin"]).run
      Congruential.draws unknownNetwork).ending = .reported := by
    with_unfolding_all rfl
  rcases hfirst.reported hending with ⟨request, -, -, hwhole⟩
  have hparse : Request.parse (lineOf ["init"]).words = .ok ⟨"./.stakingapi", .init {}⟩ := by
    decide +kernel
  have hpath : Path.join "./.stakingapi" settingsFile = "./.stakingapi/config.yml" := by
    decide +kernel
  have hthere : ((lineOf ["--datadir", "devnet", "init", "--btc-net", "dogecoin"]).run
      Congruential.draws unknownNetwork).directory.at? "./.stakingapi/config.yml" =
        some (.text "server:\n  btc-net: dogecoin\n") := by
    with_unfolding_all rfl
  rcases Directory.at?_eq_some_iff.mp hthere with ⟨names, hleads, hfind⟩
  have hstays := hsecond.settings _ _ hparse names _ hfind
  rw [hpath] at hstays
  refine ⟨_, _, rfl, rfl, hending, (hwhole (not_interrupts _)).1, ?_⟩
  exact Directory.at?_eq_some_iff.mpr ⟨names, hstays (Or.inl hleads)⟩

/-- A run with an unknown network and a data directory in another one, where nothing is yet. -/
def nestedRun : Run :=
  (lineOf ["--datadir", "a/b", "init", "--btc-net", "nowhere"]).run Congruential.draws {}

/-- A run that the console takes no line of, where nothing is yet. -/
def unheardRun : Run :=
  { lineOf ["--datadir", "a", "init"] with
    outside := { console := fun _ _ => some "[Errno 28] No space left on device" } }.run
      Congruential.draws {}

/-- A run that reports a fault can leave more than its data directory: a directory around that, or
the settings that nobody could be told of. -/
theorem not_only_dataDirectory :
    (nestedRun.ending = .reported ∧ nestedRun.directory.at? "a" = some .directory) ∧
      unheardRun.ending = .reported ∧ (unheardRun.directory.at? "a/config.yml").isSome := by
  refine ⟨⟨?_, ?_⟩, ?_, ?_⟩
  · with_unfolding_all rfl
  · with_unfolding_all rfl
  · with_unfolding_all rfl
  · decide +kernel

/-- Runs that all report faults leave the files as they were at first, if nothing interrupts the
writing of settings. -/
theorem sameFiles_after {history : List (Invocation σ)} {d : Directory}
    (h : Throughout source (fun _ given r => r.ending = .reported ∧
      ∀ path, ¬given.outside.Interrupts path) history d) :
    d.SameFiles (after source history d) := by
  refine after_of_throughout ?_ h (.refl d)
  intro between given hcase hsame
  rcases leaves_of_reported hcase.1 with ⟨request, -, hleaves⟩
  exact hsame.trans (hleaves.onlyMade (hcase.2 _)).sameFiles

/-- Settings in a data directory stay over runs that report faults or are to write settings
there. -/
theorem settings_after {history : List (Invocation σ)} {d : Directory} {directory : String}
    {item : Item}
    (h : Throughout source (fun _ given r => r.ending = .reported ∨
      ∃ o, Request.parse given.words = .ok ⟨directory, .init o⟩) history d)
    (hthere : d.at? (Path.join directory settingsFile) = some item) :
    (after source history d).at? (Path.join directory settingsFile) = some item := by
  refine after_of_throughout (q := fun e => e.at? (Path.join directory settingsFile) = some item)
    ?_ h hthere
  intro between given hcase hbetween
  rw [Directory.at?_eq_some_iff] at hbetween ⊢
  rcases hbetween with ⟨names, hleads, hfind⟩
  rcases hcase with hreported | ⟨o, hparse⟩
  · rcases leaves_of_reported hreported with ⟨request, -, hleaves⟩
    exact ⟨names, hleads.of_kept fun _ => hleaves.kept _ _, hleaves.kept names item hfind⟩
  · exact ⟨names, settings_run hparse hfind (Or.inl hleads)⟩

end

end StakeLedger.Command
