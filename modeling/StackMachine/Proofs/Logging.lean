import StackMachine.Command
import StackMachine.Proofs.Utf8

namespace StackMachine

open Text (Raw)

/-!
# Logging stays apart

A log filter selects events, and events are shown among the diagnostics. Nothing else that a command
does depends on the variables that hold the filter.

The variables are read once, into the filter in force, and the command is one function of that
filter. What it does with it is to select from a log that is fixed before (`Selects`).

* `Environment.ofBytes`, `Environment.filterText?_ofBytes` — variables that hold bytes, and the
  filter that is in force then.
* `Log.Filter.admits_trace` — the filter `trace` lets everything through.
* `Command.Selects o` — the outcomes `o` of a command differ under filters only in the events that
  are shown of one and the same log.
* `Command.start_apart` — the command under all filters.
-/

/-! ### The filter in force -/

namespace Environment

/-- The environment in which variables of the filter are unset or hold bytes. -/
def ofBytes (setting : String → Option (List UInt8)) : Environment :=
  filterVariables.filterMap fun name => (setting name).map fun bs => (name, Raw.ofBytes bs)

/-- A variable holds the UTF-8 of a text. -/
def Holds (setting : String → Option (List UInt8)) (name t : String) : Prop :=
  setting name = some t.toUTF8.data.toList

/-- A variable of the filter has a text if its bytes do. -/
theorem text?_ofBytes (setting : String → Option (List UInt8)) {name : String}
    (hn : name ∈ filterVariables) :
    (ofBytes setting).text? name = (setting name).bind fun bs => (Raw.ofBytes bs).string? := by
  simp only [filterVariables, List.mem_cons, List.not_mem_nil, or_false] at hn
  rcases hn with rfl | rfl <;> cases hk : setting "KOMODO_LOG" <;> cases hr : setting "RUST_LOG" <;>
    simp [text?, ofBytes, filterVariables, hk, hr]

/-- A variable of the filter has just the text that it `Holds`. -/
theorem text?_ofBytes_eq_some {setting : String → Option (List UInt8)} {name t : String}
    (hn : name ∈ filterVariables) :
    (ofBytes setting).text? name = some t ↔ Holds setting name t := by
  rw [text?_ofBytes setting hn, Option.bind_eq_some_iff, Holds]
  constructor
  · rintro ⟨bs, hbs, ht⟩
    rw [hbs, Raw.string?_ofBytes.1 ht]
  · intro h
    exact ⟨_, h, Raw.string?_ofBytes.2 rfl⟩

/-- The filter is that of the first variable that holds UTF-8. -/
theorem filterText?_ofBytes {setting : String → Option (List UInt8)} {t : String} :
    (ofBytes setting).filterText? = some t ↔
      Holds setting "KOMODO_LOG" t ∨
        (∀ t', ¬ Holds setting "KOMODO_LOG" t') ∧ Holds setting "RUST_LOG" t := by
  have hk : "KOMODO_LOG" ∈ filterVariables := by simp [filterVariables]
  have hr : "RUST_LOG" ∈ filterVariables := by simp [filterVariables]
  simp only [← text?_ofBytes_eq_some hk, ← text?_ofBytes_eq_some hr]
  cases h : (ofBytes setting).text? "KOMODO_LOG" with
  | none => simp [filterText?, filterVariables, h]
  | some t' => simp [filterText?, filterVariables, h]

end Environment

/-! ### The filter that lets everything through -/

/-- No level is below `trace`. -/
theorem Log.Level.rank_le (l : Log.Level) : l.rank ≤ Log.Level.trace.rank := by
  cases l <;> decide

/-- The filter `trace` admits every event. -/
theorem Log.Filter.admits_trace (e : Log.Event) : (Log.Filter.read "trace").admits e = true := by
  have hread : Log.Filter.read "trace" = [Log.Directive.everything] := by decide +kernel
  have hdeciding : Log.Filter.deciding [.everything] e = some Log.Directive.everything := rfl
  rw [hread, Log.Filter.admits, hdeciding]
  exact decide_eq_true e.level.rank_le

/-! ### What a filter selects -/

/-- The event that a line of diagnostics shows. -/
def Note.event? : Note → Option Log.Event
  | .event e => some e
  | .text _ => none

/-- The events among the diagnostics. -/
def Outcome.events (o : Outcome) : List Log.Event := o.stderr.filterMap Note.event?

/-- What the diagnostics hold besides events. -/
def Outcome.texts (o : Outcome) : List Note := o.stderr.filter fun n => n.event?.isNone

/-- There are no events among texts. -/
theorem Note.filterMap_text (ts : List String) :
    (ts.map Note.text).filterMap Note.event? = [] := by
  simp [Note.event?]

theorem Note.filterMap_event (es : List Log.Event) :
    (es.map Note.event).filterMap Note.event? = es := by
  simp [Note.event?, Function.comp_def]

theorem Note.filter_text (ts : List String) :
    ((ts.map Note.text).filter fun n => n.event?.isNone) = ts.map .text := by
  simp [Note.event?]

theorem Note.filter_event (es : List Log.Event) :
    ((es.map Note.event).filter fun n => n.event?.isNone) = [] := by
  simp [Note.event?]

namespace Command

/-- The outcomes of a command under filters differ in the events that are shown of a log, and in
    nothing else. -/
def Selects (o : Option Log.Filter → Outcome) : Prop :=
  ∃ (stdout : List Line) (log : List Log.Event) (texts : List String) (status elapsed : Nat),
    ∀ filter?, o filter? = ⟨stdout, notes filter? log ++ texts.map .text, status, elapsed⟩

/-- Unfolding lemma: of an empty log nothing is shown. -/
@[simp] theorem notes_nil (filter? : Option Log.Filter) : notes filter? [] = [] := by
  cases filter? <;> rfl

/-- An outcome without events is the same under all filters. -/
theorem selects_const (stdout : List Line) (texts : List String) (status elapsed : Nat) :
    Selects fun _ => ⟨stdout, texts.map .text, status, elapsed⟩ := by
  refine ⟨stdout, [], texts, status, elapsed, fun filter? => ?_⟩
  rw [notes_nil, List.nil_append]

/-- A refusal shows the log that came before it. -/
theorem selects_refusing (log : List Log.Event) (output : List Line) (elapsed : Nat) (r : Refusal) :
    Selects fun filter? => refusing (notes filter? log) output elapsed r :=
  ⟨output, log, [diagnostic r], 1, elapsed, fun _ => rfl⟩

/-- A launch shows its log, and ends as it does whatever is shown of it. -/
theorem selects_ofLaunch (before : List Log.Event) (l : Launch) :
    Selects fun filter? => ofLaunch filter? before l := by
  cases l with
  | refused r => exact selects_refusing before [] 0 r
  | tooLarge => exact ⟨[], before, ["capacity overflow"], faultStatus, 0, fun _ => rfl⟩
  | ran r =>
    -- However the run ended, the whole log was there before the end is told.
    let log := before ++ r.events
    cases hr : r.result with
    | ok a =>
      refine ⟨r.output, log, [], 0, r.machine.elapsed, fun filter? => ?_⟩
      simp [ofLaunch, hr, log]
    | error h =>
      cases h with
      | failed f =>
        refine ⟨r.output, log, [diagnostic (.failed f)], 1, r.machine.elapsed, fun filter? => ?_⟩
        simp [ofLaunch, hr, log, refusing]
      | exited code =>
        refine ⟨r.output, log, [], statusOf code, r.machine.elapsed, fun filter? => ?_⟩
        simp [ofLaunch, hr, log]
      | argumentMissing count index =>
        refine ⟨r.output, log, ["index out of bounds: the len is " ++ toString count
          ++ " but the index is " ++ toString index], faultStatus, r.machine.elapsed,
          fun filter? => ?_⟩
        simp [ofLaunch, hr, log]
      | tooDeep =>
        refine ⟨r.output, log, ["stack overflow"], faultStatus, r.machine.elapsed,
          fun filter? => ?_⟩
        simp [ofLaunch, hr, log]

/-- A command line shows the log of what it launches. Where nothing is launched there is no log. -/
theorem selects_ofCommandLine (fs : FileSystem) (cl : CommandLine) :
    Selects fun filter? => ofCommandLine filter? fs cl := by
  by_cases hlist : cl.list
  · simp only [ofCommandLine, if_pos hlist]
    exact selects_const _ [] 0 0
  · simp only [ofCommandLine, if_neg hlist]
    cases cl.program with
    | none => exact selects_const _ [] 0 0
    | some name =>
      cases cl.configure fs with
      | error r => exact selects_const [] [diagnostic r] 1 0
      | ok c => exact selects_ofLaunch _ _

/-- The complaints about the pieces of a filter text, which are told once the words are read. -/
def warnings (words : List Raw) (filterText? : Option String) : List String :=
  match CommandLine.read words with
  | .ok _ => (filterText?.map Log.Filter.complaints).getD []
  | .error _ => []

/-- Without a filter text there is nothing to complain about. -/
theorem warnings_none (words : List Raw) : warnings words none = [] := by
  unfold warnings
  split <;> rfl

/-- The command under a filter: complaints, events of a log and texts. -/
theorem start_eq (words : List Raw) (fs : FileSystem) :
    ∃ (stdout : List Line) (log : List Log.Event) (texts : List String) (status elapsed : Nat),
      ∀ env : Environment, start words env fs =
        ⟨stdout, (warnings words env.filterText?).map .text ++
          (notes (env.filterText?.map Log.Filter.read) log ++ texts.map .text),
        status, elapsed⟩ := by
  cases hread : CommandLine.read words with
  | error s =>
    by_cases hs : s.isRequest
    · refine ⟨s.writtenLines.map .text, [], [], s.status, 0, fun env => ?_⟩
      simp [start, warnings, hread, hs]
    · refine ⟨[], [], s.writtenLines, s.status, 0, fun env => ?_⟩
      simp [start, warnings, hread, hs]
  | ok cl =>
    obtain ⟨stdout, log, texts, status, elapsed, ho⟩ := selects_ofCommandLine fs cl
    refine ⟨stdout, log, texts, status, elapsed, fun env => ?_⟩
    simp only [start, warnings, hread, ho]

/-- **Logging stays apart.** What a command prints and the status that it ends with are the same
    whatever the variables of the filter hold. The filter in force (`Environment.filterText?`) is
    that of the first variable that holds UTF-8, and of what the variables hold nothing else is
    seen; without one no event is shown. A filter shows a part of the events that `trace` shows, in
    their order, and adds to the other diagnostics only its complaints. -/
theorem start_apart (words : List Raw) (fs : FileSystem) :
    (∀ env env', (start words env fs).stdout = (start words env' fs).stdout ∧
      (start words env fs).status = (start words env' fs).status ∧
      (start words env fs).elapsed = (start words env' fs).elapsed) ∧
    (∀ setting t, (Environment.ofBytes setting).filterText? = some t ↔
      Environment.Holds setting "KOMODO_LOG" t ∨
        (∀ t', ¬ Environment.Holds setting "KOMODO_LOG" t') ∧
          Environment.Holds setting "RUST_LOG" t) ∧
    (∀ env env' : Environment, env.filterText? = env'.filterText? →
      start words env fs = start words env' fs) ∧
    (∀ plain : Environment, plain.filterText? = none → (start words plain fs).events = []) ∧
    ∀ (env trace plain : Environment) (t : String), env.filterText? = some t →
      trace.filterText? = some "trace" → plain.filterText? = none →
      (start words env fs).events.Sublist (start words trace fs).events ∧
      (start words env fs).events =
        (start words trace fs).events.filter (Log.Filter.read t).admits ∧
      (start words env fs).texts =
        (warnings words (some t)).map .text ++ (start words plain fs).stderr := by
  -- Everything but the notes is fixed before any variable is looked at.
  obtain ⟨stdout, log, texts, status, elapsed, hstart⟩ := start_eq words fs
  have hevents (env : Environment) (t : String) (h : env.filterText? = some t) :
      (start words env fs).events = log.filter (Log.Filter.read t).admits := by
    simp only [Outcome.events, hstart, h, notes, Option.map_some, List.filterMap_append,
      Note.filterMap_text, Note.filterMap_event, List.nil_append, List.append_nil]
  refine ⟨fun env env' => ?_, fun setting t => Environment.filterText?_ofBytes,
    fun env env' h => ?_, fun plain h => ?_, fun env trace plain t henv htrace hplain => ?_⟩
  · rw [hstart, hstart]
    exact ⟨rfl, rfl, rfl⟩
  · rw [hstart, hstart, h]
  · simp only [Outcome.events, hstart, h, notes, Option.map_none, List.filterMap_append,
      Note.filterMap_text, List.nil_append]
  · -- `trace` lets every event through, so its log is the whole one.
    have hall : (start words trace fs).events = log := by
      rw [hevents trace "trace" htrace]
      exact List.filter_eq_self.2 fun e _ => Log.Filter.admits_trace e
    rw [hall, hevents env t henv]
    refine ⟨List.filter_sublist, rfl, ?_⟩
    simp only [Outcome.texts, hstart, henv, hplain, notes, Option.map_some, Option.map_none,
      List.filter_append, Note.filter_text, Note.filter_event, warnings_none, List.map_nil,
      List.nil_append]

/-- The first variable holds a stray byte, and the second one a filter with a piece that is no
    directive. -/
theorem start_apart_stray :
    let words := ["exit", "7"].map Raw.ofString
    let fs : FileSystem := fun _ => .error .notFound
    let env := Environment.ofBytes fun name =>
      if name = "KOMODO_LOG" then some [0xff]
      else if name = "RUST_LOG" then some "info,x=y".toUTF8.data.toList else none
    env.filterText? = some "info,x=y" ∧ (start words env fs).status = 7 ∧
      (start words env fs).stdout = [.report 0] ∧
      (start words env fs).events = [.exiting 7 0] ∧
      (start words env fs).texts = (Log.Filter.complaints "info,x=y").map .text := by
  intro words fs env
  let trace := Environment.ofBytes fun name =>
    if name = "KOMODO_LOG" then some "trace".toUTF8.data.toList else none
  let plain := Environment.ofBytes fun _ => none
  obtain ⟨hsame, hforce, -, -, hfilter⟩ := start_apart words fs
  -- The byte is the text of no string, so the first variable holds no filter.
  have hstray : ∀ t : String, t.toUTF8.data.toList ≠ [0xff] :=
    Raw.string?_ofBytes_eq_none.1 (by decide)
  have henv : env.filterText? = some "info,x=y" :=
    (hforce _ _).2 (.inr ⟨fun t ht => hstray t (Option.some.inj ht).symm, rfl⟩)
  have htrace : trace.filterText? = some "trace" := (hforce _ _).2 (.inl rfl)
  have hplain : plain.filterText? = none := rfl
  obtain ⟨hstdout, hstatus, -⟩ := hsame env plain
  obtain ⟨-, hevents, htexts⟩ := hfilter env trace plain "info,x=y" henv htrace hplain
  refine ⟨henv, hstatus.trans ?_, hstdout.trans ?_, hevents.trans ?_, htexts.trans ?_⟩
  · decide +kernel
  · decide +kernel
  · decide +kernel
  · decide +kernel

end Command

end StackMachine
