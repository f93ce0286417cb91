import StackMachine.Proofs.ConfigLanguage
import StackMachine.Proofs.Logging

namespace StackMachine

open Text (Raw)

/-!
# Layers of a configuration

The configuration of a command line has two layers. The lower one is the configuration of the file
that is named, or the default one if none is; the upper one is an option that sets the policy, and
nothing else.

* `FileSystem.ofBytes` — files that hold bytes.
* `Config.Loads disk path x` — `x` comes of the bytes at a path: a configuration, or what is wrong
  with the first of path, bytes and text that is not as it should be.
* `CommandLine.configure_legacy` — the upper layer, over whatever comes of the lower one.
* `Command.unconfigured_ofCommandLine` — the command sees of the files and the option only the
  configuration that they come to.
* `CommandLine.configure_layered` — both layers together.
-/

/-! ### The file

`Config.Loads` lists what can come of the bytes of a file, one case for each way. The cases exclude
one another, which the equivalence `load_iff` brings with it.
-/

/-- The file system in which files hold bytes. -/
def FileSystem.ofBytes (disk : Raw → Except FileError (List UInt8)) : FileSystem := fun path =>
  (disk path).map Raw.ofBytes

/-- What comes of the bytes at a path as a configuration. This is `Config.load`, told by bytes, see
    `Config.load_iff`. -/
inductive Config.Loads (disk : Raw → Except FileError (List UInt8)) (path : Raw) :
    Except Refusal Config → Prop where
  /-- there are none -/
  | unreadable {e : FileError} (h : disk path = .error e) : Loads disk path (.error (.unreadable e))
  /-- they are not the UTF-8 of a text, whatever else is wrong with them -/
  | notUtf8 {bs : List UInt8} (h : disk path = .ok bs)
      (hbs : ∀ t : String, t.toUTF8.data.toList ≠ bs) :
    Loads disk path (.error (.unreadable .notUtf8))
  /-- they are the UTF-8 of a text that is no configuration -/
  | malformed {t : String} {e : Json.Error} (h : disk path = .ok t.toUTF8.data.toList)
    (ht : ∀ c, ¬ ConfigText t.toList c) (he : Config.read t = .error e) :
    Loads disk path (.error (.badConfig e))
  /-- they are the UTF-8 of a text of this configuration -/
  | config {t : String} {c : Config} (h : disk path = .ok t.toUTF8.data.toList)
    (ht : ConfigText t.toList c) : Loads disk path (.ok c)

section

variable {disk : Raw → Except FileError (List UInt8)} {path : Raw}

/-- The text of a file is found where the file holds the UTF-8 of it. -/
theorem FileSystem.text_ofBytes_eq_ok_iff {t : String} :
    (ofBytes disk).text path = .ok t ↔ disk path = .ok t.toUTF8.data.toList := by
  unfold text ofBytes
  cases disk path with
  | error e => simp [Except.map]
  | ok bs =>
    simp only [Except.map, Except.ok.injEq]
    rw [@eq_comm _ bs, ← Raw.string?_ofBytes]
    cases (Raw.ofBytes bs).string? <;> simp

/-- Otherwise there are no bytes, or they are the UTF-8 of no text. -/
theorem FileSystem.text_ofBytes_eq_error_iff {e : FileError} :
    (ofBytes disk).text path = .error e ↔ disk path = .error e ∨
      e = .notUtf8 ∧ ∃ bs, disk path = .ok bs ∧ ∀ t : String, t.toUTF8.data.toList ≠ bs := by
  unfold text ofBytes
  cases disk path with
  | error e' => simp [Except.map]
  | ok bs =>
    simp only [Except.map, reduceCtorEq, false_or, Except.ok.injEq, exists_eq_left',
      ← Raw.string?_ofBytes_eq_none]
    cases (Raw.ofBytes bs).string? <;> simp [eq_comm]

namespace Config

/-- A text that is no configuration is one that does not read, see `Config.read_eq_ok`. -/
theorem read_ne_ok_iff {t : String} :
    (∀ c, ¬ ConfigText t.toList c) ↔ ∃ e, read t = .error e := by
  simp only [← read_eq_ok]
  cases read t <;> simp

/-- Loading a file comes to what its bytes come to. -/
theorem load_iff {x : Except Refusal Config} :
    load (.ofBytes disk) path = x ↔ Loads disk path x := by
  constructor
  · rintro rfl
    unfold load
    -- The two ways to have no text are told apart by whether there are bytes.
    cases htext : (FileSystem.ofBytes disk).text path with
    | error e =>
      rcases FileSystem.text_ofBytes_eq_error_iff.1 htext with h | ⟨rfl, bs, h, hbs⟩
      · exact .unreadable h
      · exact .notUtf8 h hbs
    | ok t =>
      have h := FileSystem.text_ofBytes_eq_ok_iff.1 htext
      dsimp only
      cases hread : read t with
      | error e => exact .malformed h (read_ne_ok_iff.2 ⟨e, hread⟩) hread
      | ok c => exact .config h (read_eq_ok.1 hread)
  · intro hx
    cases hx with
    | unreadable h => rw [load, FileSystem.text_ofBytes_eq_error_iff.2 (.inl h)]
    | notUtf8 h hbs => rw [load, FileSystem.text_ofBytes_eq_error_iff.2 (.inr ⟨rfl, _, h, hbs⟩)]
    | malformed h _ he => simp only [load, FileSystem.text_ofBytes_eq_ok_iff.2 h, he]
    | config h ht => simp only [load, FileSystem.text_ofBytes_eq_ok_iff.2 h, read_eq_ok.2 ht]

end Config

end

/-! ### The option

The option does not look at the layer below it, so one equation says what it does over all files.
-/

namespace CommandLine

/-- Without the option the lower layer, `baseConfig`, is all there is. -/
theorem configure_plain (fs : FileSystem) (cl : CommandLine) :
    configure fs { cl with legacy := false } = cl.baseConfig fs := by
  have hbase : baseConfig fs { cl with legacy := false } = cl.baseConfig fs := rfl
  rw [configure, hbase]
  cases cl.baseConfig fs <;> rfl

/-- The option lets every refusal pass and sets the policy of a configuration. -/
theorem configure_legacy (fs : FileSystem) (cl : CommandLine) :
    configure fs { cl with legacy := true } =
      (cl.baseConfig fs).map fun c => { c with unknownSyscall := .ignore } := by
  have hbase : baseConfig fs { cl with legacy := true } = cl.baseConfig fs := rfl
  rw [configure, hbase]
  cases cl.baseConfig fs <;> rfl

end CommandLine

/-! ### The command

Of two commands that come to the same configuration, the one may have an event for its file in the
log and the other one for another file. `unconfigured` leaves these out.
-/

/-- Whether a line of diagnostics tells of a configuration file that was read. -/
def Note.isConfigured : Note → Bool
  | .event (.configured _ _) => true
  | _ => false

/-- What a command came to, but for what the log tells of its configuration file. -/
def Outcome.unconfigured (o : Outcome) : Outcome :=
  { o with stderr := o.stderr.filter fun n => !n.isConfigured }

namespace Command

/-- Events in two parts are shown part by part. -/
theorem notes_append (filter? : Option Log.Filter) (es es' : List Log.Event) :
    notes filter? (es ++ es') = notes filter? es ++ notes filter? es' := by
  cases filter? <;> simp [notes]

/-- What was logged before a launch comes first among the diagnostics. -/
theorem ofLaunch_eq (filter? : Option Log.Filter) (before : List Log.Event) (l : Launch) :
    let o := ofLaunch filter? [] l
    ofLaunch filter? before l = { o with stderr := notes filter? before ++ o.stderr } := by
  cases l with
  | refused r => simp [ofLaunch, refusing]
  | tooLarge => simp [ofLaunch]
  | ran r =>
    unfold ofLaunch
    simp only [notes_append, List.nil_append]
    cases r.result with
    | ok a => rfl
    | error h => cases h <;> simp [refusing]

/-- Before a launch nothing is logged but what the configuration file was. -/
theorem isConfigured_of_mem_notes {filter? : Option Log.Filter} {fs : FileSystem} {cl : CommandLine}
    {n : Note} (h : n ∈ notes filter? (cl.configureEvents fs)) : n.isConfigured := by
  cases filter? with
  | none => cases h
  | some f =>
    obtain ⟨e, he, rfl⟩ := List.mem_map.1 h
    have hmem := (List.mem_filter.1 he).1
    unfold CommandLine.configureEvents at hmem
    split at hmem
    · cases hmem
    split at hmem
    · obtain rfl := List.mem_singleton.1 hmem
      rfl
    · cases hmem

/-- What is logged before a launch is the event of the configuration file, and `unconfigured` leaves
    that out. -/
theorem unconfigured_ofLaunch (filter? : Option Log.Filter) (fs : FileSystem) (cl : CommandLine)
    (l : Launch) : (ofLaunch filter? (cl.configureEvents fs) l).unconfigured =
      (ofLaunch filter? [] l).unconfigured := by
  have hnone : (notes filter? (cl.configureEvents fs)).filter (fun n => !n.isConfigured) = [] := by
    refine List.filter_eq_nil_iff.2 fun n hn => ?_
    simp [isConfigured_of_mem_notes hn]
  rw [ofLaunch_eq]
  simp only [Outcome.unconfigured, List.filter_append, hnone, List.nil_append]

/-- Of its files and of the option that sets the policy a command sees only the configuration that
    they come to. -/
theorem unconfigured_ofCommandLine (filter? : Option Log.Filter) {fs fs' : FileSystem}
    {cl cl' : CommandLine} (hlist : cl'.list = cl.list) (hprogram : cl'.program = cl.program)
    (hargs : cl'.args = cl.args) (h : cl'.configure fs' = cl.configure fs) :
    (ofCommandLine filter? fs' cl').unconfigured = (ofCommandLine filter? fs cl).unconfigured := by
  simp only [ofCommandLine, hlist, hprogram, hargs, h]
  split
  · rfl
  split
  · rfl
  split
  · rfl
  · rw [unconfigured_ofLaunch, unconfigured_ofLaunch]

/-- Without a log filter there is nothing else to see. -/
theorem unconfigured_of_no_filter (fs : FileSystem) (cl : CommandLine) :
    (ofCommandLine none fs cl).unconfigured = ofCommandLine none fs cl := by
  obtain ⟨stdout, log, texts, status, elapsed, h⟩ := selects_ofCommandLine fs cl
  have htexts : (texts.map Note.text).filter (fun n => !n.isConfigured) = texts.map Note.text := by
    refine List.filter_eq_self.2 fun n hn => ?_
    obtain ⟨t, -, rfl⟩ := List.mem_map.1 hn
    rfl
  have hnone : ofCommandLine none fs cl = ⟨stdout, [] ++ texts.map .text, status, elapsed⟩ := h none
  rw [hnone]
  simp only [Outcome.unconfigured, List.nil_append, htexts]

end Command

/-- **Layers of a configuration.** The option that lets unknown syscalls pass changes nothing where
    the configuration is refused, and otherwise only the policy. What it is laid over is the default
    configuration whatever the files are, if no file is named, and otherwise what the bytes of that
    file come to (`Config.Loads`). So the option over any file that loads makes the same
    configuration as a file that differs from it only in saying `ignore`, with the option or
    without, and a command that the two are used for is the same but for what its log says of the
    file. The program and its arguments have no part in the configuration. -/
theorem CommandLine.configure_layered (disk : Raw → Except FileError (List UInt8))
    (cl : CommandLine) :
    let fs : FileSystem := .ofBytes disk
    let plain : CommandLine := { cl with legacy := false }
    let legacy : CommandLine := { cl with legacy := true }
    (∀ r, legacy.configure fs = .error r ↔ plain.configure fs = .error r) ∧
    (∀ c, plain.configure fs = .ok c →
      legacy.configure fs = .ok ⟨.ignore, c.stackCapacity⟩) ∧
    (cl.config = none → ∀ fs', plain.configure fs' = .ok ⟨.reject, 64⟩) ∧
    (∀ path, cl.config = some path →
      ∀ x, plain.configure fs = x ↔ Config.Loads disk path x) ∧
    (∀ path c, cl.config = some path → Config.Loads disk path (.ok c) →
      ∀ disk', Config.Loads disk' path (.ok ⟨.ignore, c.stackCapacity⟩) →
        ∀ cl' ∈ [plain, legacy],
          cl'.configure (.ofBytes disk') = legacy.configure fs ∧
          (∀ filter?, (Command.ofCommandLine filter? (.ofBytes disk') cl').unconfigured =
            (Command.ofCommandLine filter? fs legacy).unconfigured) ∧
          Command.ofCommandLine none (.ofBytes disk') cl' = Command.ofCommandLine none fs legacy) ∧
    ∀ program args list, configure fs { cl with program, args, list } = cl.configure fs := by
  intro fs plain legacy
  -- Without the option, a configuration is its base; with it, the base with another policy.
  have hplain (fs' : FileSystem) : plain.configure fs' = cl.baseConfig fs' := configure_plain fs' cl
  have hlegacy (fs' : FileSystem) : legacy.configure fs' = _ := configure_legacy fs' cl
  have hload (disk' : Raw → Except FileError (List UInt8)) (path : Raw) (h : cl.config = some path)
      (x : Except Refusal Config) :
      plain.configure (.ofBytes disk') = x ↔ Config.Loads disk' path x := by
    rw [hplain, baseConfig, h]
    exact Config.load_iff
  have hflag (fs' : FileSystem) (c : Config) (h : plain.configure fs' = .ok c) :
      legacy.configure fs' = .ok ⟨.ignore, c.stackCapacity⟩ := by
    rw [hplain] at h
    rw [hlegacy, h]
    rfl
  refine ⟨fun r => ?_, hflag fs, fun h fs' => ?_, hload disk, ?_, fun _ _ _ => rfl⟩
  · rw [hplain, hlegacy]
    cases cl.baseConfig fs <;> simp [Except.map]
  · rw [hplain, baseConfig, h]
  · intro path c h hc disk' hc' cl' hcl'
    -- The other file says `ignore` by itself, so with or without the option it comes to the same.
    have hsame : cl'.configure (.ofBytes disk') = legacy.configure fs := by
      rw [hflag fs c ((hload disk path h _).2 hc)]
      have hplain' := (hload disk' path h _).2 hc'
      rcases List.mem_pair.1 hcl' with rfl | rfl
      · exact hplain'
      · exact hflag _ ⟨.ignore, c.stackCapacity⟩ hplain'
    have hother : cl'.list = legacy.list ∧ cl'.program = legacy.program ∧
        cl'.args = legacy.args := by
      rcases List.mem_pair.1 hcl' with rfl | rfl <;> exact ⟨rfl, rfl, rfl⟩
    obtain ⟨hlist, hprogram, hargs⟩ := hother
    have hseen (filter? : Option Log.Filter) :=
      Command.unconfigured_ofCommandLine filter? hlist hprogram hargs hsame
    refine ⟨hsame, hseen, ?_⟩
    -- Without a filter there is nothing of the file in the log, so nothing is lost by leaving it
    -- out.
    rw [← Command.unconfigured_of_no_filter, hseen, Command.unconfigured_of_no_filter]

/-- Two files that differ in the policy's word, and one that is neither UTF-8 nor a
    configuration. -/
theorem CommandLine.configure_layered_over_reject :
    let text (word : String) : String := "\x7b\"unknown_syscall\":\"" ++ word ++
      "\",\"initial_stack_capacity\":7\x7d"
    let fs (bytes : List UInt8) : FileSystem := .ofBytes fun _ => .ok bytes
    let cl : CommandLine :=
      { program := some "unknown_syscall", config := some (Raw.ofString "c"), legacy := true }
    cl.configure (fs (text "reject").toUTF8.data.toList) = .ok ⟨.ignore, 7⟩ ∧
      Command.ofCommandLine none (fs (text "ignore").toUTF8.data.toList)
          { cl with legacy := false } =
        Command.ofCommandLine none (fs (text "reject").toUTF8.data.toList) cl ∧
      cl.configure (fs [0x5b, 0xff]) = .error (.unreadable .notUtf8) := by
  intro text fs cl
  have hconfig (word : String) (p : Policy) (h : Config.read (text word) = .ok ⟨p, 7⟩) :
      Config.Loads (fun _ => .ok (text word).toUTF8.data.toList) (Raw.ofString "c") (.ok ⟨p, 7⟩) :=
    .config rfl (Config.read_eq_ok.1 h)
  have hreject := hconfig "reject" .reject (by decide +kernel)
  have hignore := hconfig "ignore" .ignore (by decide +kernel)
  obtain ⟨-, hflag, -, hload, hfile, -⟩ :=
    configure_layered (fun _ => .ok (text "reject").toUTF8.data.toList) cl
  obtain ⟨-, -, hsame⟩ := hfile _ _ rfl hreject _ hignore _ (List.mem_pair.2 (.inl rfl))
  refine ⟨hflag _ ((hload _ rfl _).2 hreject), hsame, ?_⟩
  obtain ⟨hrefused, -, -, hload, -⟩ := configure_layered (fun _ => .ok [0x5b, 0xff]) cl
  -- No text has these bytes, as they would read back as one.
  have hstray : ∀ t : String, t.toUTF8.data.toList ≠ [0x5b, 0xff] :=
    Raw.string?_ofBytes_eq_none.1 (by decide)
  exact (hrefused _).2 ((hload _ rfl _).2 (.notUtf8 rfl hstray))

end StackMachine
