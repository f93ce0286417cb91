import StackMachine.Command
import StackMachine.Proofs.Launch

namespace StackMachine

open Text (Raw)

/-!
# What a process shows

A process shows what the launch that its command line asks for comes to, or why there is none.

* `Command.Reported` — refusals with the diagnostics that a process ends with.
* `Command.Shows` — what is seen of a launch from outside.
* `Command.start_refines_launch` — every process whose command line can be read.
-/

/-- A bundled program answers, fails or exits. It has the arguments that it reads, and handlers are
    not nested at all. -/
theorem Program.Comes.result_cases {policy : Policy} {name : String} {args : List Value}
    {result : Except Halt Answer} {output : List Line}
    (h : Program.Comes policy name args result output) :
    (∃ a, result = .ok a) ∨ (∃ f, result = .error (.failed f)) ∨
      ∃ code, result = .error (.exited code) := by
  cases h with
  | hello => exact .inl ⟨_, rfl⟩
  | ignored => exact .inl ⟨_, rfl⟩
  | boolExit => exact .inr (.inl ⟨_, rfl⟩)
  | underflowExit => exact .inr (.inl ⟨_, rfl⟩)
  | rejected => exact .inr (.inl ⟨_, rfl⟩)
  | exit => exact .inr (.inr ⟨_, rfl⟩)
  | addExit => exact .inr (.inr ⟨_, rfl⟩)
  | sleepExit => exact .inr (.inr ⟨_, rfl⟩)

namespace Command

/-- The diagnostic of a refusal: what failed is told from the file that cannot be read, and both
    from everything else. -/
inductive Reported : Refusal → String → Prop where
  | failed (f : Failure) : Reported (.failed f) ("Runtime Error: " ++ f.message)
  | unreadable (e : FileError) :
    Reported (.unreadable e) ("Error: Could not read configuration: " ++ e.message)
  | badConfig (e : Json.Error) :
    Reported (.badConfig e) ("Error: " ++ ("Invalid configuration: " ++ e.message))
  | unknownProgram (name : String) :
    Reported (.unknownProgram name) ("Error: " ++ ("Unknown program '" ++ name ++ "'"))
  | invalidArgument (index : Nat) (value : String) (expected : Kind) :
    Reported (.invalidArgument index value expected) ("Error: " ++
      ("Argument " ++ toString index ++ " ('" ++ value ++ "') is not a valid " ++ expected.name))

/-- The text that `diagnostic` makes of a refusal is the one that is reported. -/
theorem reported_diagnostic (r : Refusal) : Reported r (diagnostic r) := by
  cases r with
  | failed f => exact .failed f
  | unreadable e => exact .unreadable e
  | badConfig e => exact .badConfig e
  | unknownProgram name => exact .unknownProgram name
  | invalidArgument index value expected => exact .invalidArgument index value expected

/-- What is seen of a launch from outside: the lines that it printed, and as the status the code of
    an exit by 256, or whether it failed. Only of a failure there is a diagnostic. -/
inductive Shows : Launch → Outcome → Prop where
  | refused {r : Refusal} {t : String} {o : Outcome} (ht : Reported r t) (hout : o.stdout = [])
    (herr : o.stderr = [.text t]) (hstatus : o.status = 1) : Shows (.refused r) o
  | failed {r : Run Answer} {f : Failure} {t : String} {o : Outcome}
    (h : r.result = .error (.failed f)) (ht : Reported (.failed f) t) (hout : o.stdout = r.output)
    (herr : o.stderr = [.text t]) (hstatus : o.status = 1) : Shows (.ran r) o
  | answered {r : Run Answer} {a : Answer} {o : Outcome} (h : r.result = .ok a)
    (hout : o.stdout = r.output) (herr : o.stderr = []) (hstatus : o.status = 0) : Shows (.ran r) o
  | exited {r : Run Answer} {code : Int32} {o : Outcome} (h : r.result = .error (.exited code))
    (hout : o.stdout = r.output) (herr : o.stderr = [])
    (hstatus : (o.status : Int) = code.toInt % 256) : Shows (.ran r) o

/-- A run that answers, fails or exits is shown so, whatever was logged before it, since nothing of
    a log is shown. -/
theorem shows_ran {r : Run Answer} (h : (∃ a, r.result = .ok a) ∨
    (∃ f, r.result = .error (.failed f)) ∨ ∃ code, r.result = .error (.exited code))
    (before : List Log.Event) : Shows (.ran r) (ofLaunch none before (.ran r)) := by
  rcases h with ⟨a, ha⟩ | ⟨f, hf⟩ | ⟨code, hcode⟩
  · refine .answered ha ?_ ?_ ?_ <;> simp only [ofLaunch, ha, notes]
  · refine .failed hf (reported_diagnostic (.failed f)) ?_ ?_ ?_ <;>
      simp only [ofLaunch, hf, notes, refusing, List.nil_append]
  · refine .exited hcode ?_ ?_ ?_ <;> simp only [ofLaunch, hcode, notes]
    exact Int.toNat_of_nonneg (Int.emod_nonneg _ (by decide))

/-- Where the stack is not too large, a launch is refused, or a bundled program runs. -/
theorem shows_ofLaunch {c : Config} (hc : c.stackCapacity.toNat < 2 ^ 59) (name : String)
    (texts : List String) (before : List Log.Event) :
    Shows (launch c name texts) (ofLaunch none before (launch c name texts)) := by
  unfold launch
  split
  · exact .refused (reported_diagnostic _) rfl rfl rfl
  next p hp =>
  split
  · exact .refused (reported_diagnostic _) rfl rfl rfl
  next args hargs =>
  rw [if_pos (c.fits_iff.2 hc)]
  have hmem : p ∈ Program.bundled := List.mem_of_find?_eq_some hp
  have hkinds := Program.map_kind_of_readArguments hargs
  exact shows_ran (Program.launched_comes hmem c hkinds).result_cases before

/-- **The process and the launch.** Without a log filter, a process whose command line can be read
    lists the bundled programs with their parameters if it is asked to, and shows the usage if no
    program is named, whatever the files are and whatever else is asked for. Otherwise it ends with
    a diagnostic (`Reported`) and nothing else if the configuration cannot be read, whatever the
    program is. With a configuration it `Shows` what the launch of the program comes to. -/
theorem start_refines_launch {words : List Raw} {env : Environment} {cl : CommandLine}
    (hread : CommandLine.read words = .ok cl) (henv : env.filterText? = none) :
    (cl.list → ∀ fs, start words env fs = ⟨Program.bundled.map fun p =>
      .text (p.name ++ "(" ++ ", ".intercalate (p.params.map Kind.name) ++ ")"), [], 0, 0⟩) ∧
    (¬ cl.list → cl.program = none → ∀ fs, start words env fs =
      ⟨[.text "Komodo Runtime v0.1.0",
        .text "",
        .text "Usage:",
        .text "  komodo-run <PROGRAM> [ARGS]...   Run a bundled program",
        .text "  komodo-run --list                List bundled programs",
        .text "",
        .text "Run 'komodo-run --help' for more options."], [], 0, 0⟩) ∧
    ∀ name, ¬ cl.list → cl.program = some name → ∀ fs,
      (∀ r, cl.configure fs = .error r → ∃ t, Reported r t ∧
        start words env fs = ⟨[], [.text t], 1, 0⟩) ∧
      ∀ c, cl.configure fs = .ok c → c.stackCapacity.toNat < 2 ^ 59 →
        Shows (launch c name cl.args) (start words env fs) := by
  -- Without a filter nothing is put in front of what the command line comes to.
  have hstart (fs : FileSystem) : start words env fs = ofCommandLine none fs cl := by
    simp only [start, hread, henv]
    rfl
  refine ⟨fun hlist fs => ?_, fun hlist hprogram fs => ?_, fun name hlist hprogram fs => ⟨?_, ?_⟩⟩
  · rw [hstart, ofCommandLine, if_pos hlist, printing, List.map_map]
    rfl
  · rw [hstart, ofCommandLine, if_neg hlist, hprogram]
    rfl
  · intro r hr
    refine ⟨diagnostic r, reported_diagnostic r, ?_⟩
    rw [hstart, ofCommandLine, if_neg hlist, hprogram]
    simp only [hr]
    rfl
  · intro c hc hcapacity
    rw [hstart, ofCommandLine, if_neg hlist, hprogram]
    simp only [hc]
    exact shows_ofLaunch hcapacity name cl.args (cl.configureEvents fs)

/-- A configuration file that is there and one that is not, and a list that asks for neither. -/
theorem start_refines_launch_with_file :
    let words := ["--config=c", "exit", "-1"].map Raw.ofString
    (start words [] fun _ => .ok (Raw.ofString "[\"ignore\", 1]")).status = 255 ∧
    start words [] (fun _ => .error .notFound) =
      ⟨[], [.text ("Error: Could not read configuration: " ++ FileError.message .notFound)], 1, 0⟩ ∧
    ∀ fs, start (Raw.ofString "-l" :: words) [] fs =
      ⟨Program.bundled.map fun p => .text p.signature, [], 0, 0⟩ := by
  intro words
  have henv : Environment.filterText? [] = none := rfl
  have hread : CommandLine.read words =
      .ok { program := some "exit", args := ["-1"], config := some (Raw.ofString "c") } := by
    rfl
  have hlist : CommandLine.read (Raw.ofString "-l" :: words) = .ok {
      program := some "exit", args := ["-1"], config := some (Raw.ofString "c")
      list := true } := by
    rfl
  obtain ⟨-, -, hlaunch⟩ := start_refines_launch hread henv
  refine ⟨?_, ?_, (start_refines_launch hlist henv).1 rfl⟩
  · have hconfig : CommandLine.configure (fun _ => .ok (Raw.ofString "[\"ignore\", 1]"))
        { program := some "exit", args := ["-1"], config := some (Raw.ofString "c") } =
          .ok ⟨.ignore, 1⟩ := by
      rfl
    have hshows := (hlaunch "exit" nofun rfl _).2 _ hconfig (by decide)
    have hargs : Program.exit.readArguments ["-1"] = .ok [.i64 (-1)] := rfl
    have hran : launch ⟨.ignore, 1⟩ "exit" ["-1"] =
        .ran (Program.exit.launched ⟨.ignore, 1⟩ [.i64 (-1)]) :=
      launch_of_readArguments (p := .exit) (by simp [Program.bundled]) hargs rfl
    rw [hran] at hshows
    -- An exit is shown by its status; the other ways to end are not how this program ran.
    cases hshows with
    | exited h _ _ hstatus =>
      cases h
      exact Int.ofNat_inj.1 hstatus
    | answered h => cases h
    | failed h => cases h
  · obtain ⟨t, ht, h⟩ := (hlaunch "exit" nofun rfl fun _ => .error .notFound).1 _ rfl
    cases ht
    exact h

end Command

end StackMachine
