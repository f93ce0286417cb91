import Mathlib.Data.List.Forall2
import Mathlib.Data.List.Nodup
import Mathlib.Data.List.Perm.Basic
import StackMachine.Proofs.Settling

namespace StackMachine.CommandLine

open Text (Glyph Raw)

/-!
# Command lines from what they ask for

A command line is written as a word for each setting, in any order, and its plain words: the program
and the arguments. What is written reads back.

Two command lines are compared here: the one that is read, and the same with a setting put into it.
`run_put` says for one word that it does the same to both or is a mistake in the second, and
`Reads.again` carries that along a whole command line.

* `Setting`, `settings`, `plainWords` — what there is to write.
* `Setting.Given` — the ways to give a setting.
* `Reads.again` — a setting that was given already.
* `read_written` — reading what was written.
-/

/-! ### Settings

A command line is what its settings and its plain words make of an empty one, so writing is a matter
of listing them.
-/

/-- What an option sets. -/
inductive Setting where
  | config (path : Raw)
  | legacy
  | list

namespace Setting

/-- The option of a setting. -/
def option : Setting → Switch
  | .config _ => .config
  | .legacy => .legacy
  | .list => .list

/-- A setting as one word with the long name of its option. -/
def word : Setting → Raw
  | .config path => Raw.ofString "--config=" ++ path
  | .legacy => Raw.ofString "--legacy-syscalls"
  | .list => Raw.ofString "--list"

/-- The ways to give a setting: by that word or by a letter. A path can stand right behind the
    letter, or be the next word. -/
inductive Given : Setting → List Raw → Prop where
  | word (s : Setting) : Given s [s.word]
  | letter : Given .list [Raw.ofString "-l"]
  | equals (path : Raw) : Given (.config path) [Raw.ofString "-c=" ++ path]
  | attached {path : Raw} (hne : path ≠ []) (h : path.head? ≠ some (.char '=')) :
    Given (.config path) [Raw.ofString "-c" ++ path]
  | next {path w : Raw} (hw : w = Raw.ofString "--config" ∨ w = Raw.ofString "-c")
    (h : IsPlain path) : Given (.config path) [w, path]

end Setting

/-- The command line has a setting for the option. -/
def Has (c : CommandLine) : Switch → Prop
  | .config => c.config.isSome
  | .legacy => c.legacy
  | .list => c.list
  | .help => False
  | .version => False

/-- The command line with one more setting. -/
def put (c : CommandLine) : Setting → CommandLine
  | .config path => { c with config := some path }
  | .legacy => { c with legacy := true }
  | .list => { c with list := true }

/-- A setting does not name a program. -/
@[simp] theorem put_program (c : CommandLine) (s : Setting) : (c.put s).program = c.program := by
  cases s <;> rfl

/-- With a setting more, a command line has the option of this one and those it had. -/
theorem has_put {c : CommandLine} {s : Setting} {o : Switch} :
    (c.put s).Has o ↔ c.Has o ∨ o = s.option := by
  cases s <;> cases o <;> simp [put, Has, Setting.option]

/-- Plain words set nothing. -/
theorem has_add {c : CommandLine} {t : String} {o : Switch} : (c.add t).Has o ↔ c.Has o := by
  unfold add
  split <;> cases o <;> rfl

/-- A setting and a plain word can be added in either order. -/
theorem add_put (c : CommandLine) (s : Setting) (t : String) :
    (c.put s).add t = (c.add t).put s := by
  rw [add, put_program]
  unfold add
  split <;> cases s <;> rfl

/-! ### Giving a setting

There are several ways to give a setting, with the value in the same word or in the next one.
`Setting.Given` lists them, and all have one `Setting.effect`.
-/

/-- What giving a setting does. -/
def Setting.effect : Setting → Effect
  | .config path => .config path
  | .legacy => .switch .legacy
  | .list => .switch .list

/-- A setting of an option that is not set yet can be given, if it is not the empty path. -/
theorem run_of_not_has {line : CommandLine} {s : Setting} (hs : ¬ line.Has s.option)
    (hpath : s ≠ .config []) : s.effect.run line = .ok { line := line.put s } := by
  cases s with
  | config path =>
    have hc : ¬ line.config.isSome := hs
    have hp : path ≠ [] := fun h => hpath (h ▸ rfl)
    simp only [Setting.effect, Effect.run, Reading.setConfig, hc, hp]
    rfl
  | legacy =>
    have hl : ¬ line.legacy := hs
    simp only [Setting.effect, Effect.run, Reading.setSwitch, hl]
    rfl
  | list =>
    have hl : ¬ line.list := hs
    simp only [Setting.effect, Effect.run, Reading.setSwitch, hl]
    rfl

/-- A setting cannot be given twice, and a path has to be one. -/
theorem mistaken_run {line : CommandLine} {s : Setting}
    (h : line.Has s.option ∨ s = .config []) : Mistaken (s.effect.run line) := by
  cases s with
  | config path =>
    simp only [Setting.effect, Effect.run, Reading.setConfig]
    split
    · exact mistaken_error rfl
    · next hc =>
      -- it was not set before, so it is the empty path
      obtain hpath : path = [] := by simpa using h.resolve_left hc
      rw [if_pos hpath]
      exact mistaken_error rfl
  | legacy =>
    have hl : line.legacy := h.resolve_right (by simp)
    simp only [Setting.effect, Effect.run, Reading.setSwitch, hl]
    exact mistaken_error rfl
  | list =>
    have hl : line.list := h.resolve_right (by simp)
    simp only [Setting.effect, Effect.run, Reading.setSwitch, hl]
    exact mistaken_error rfl

/-- **Giving a setting.** What a setting does to a command line is `put`, if the option was not set
    before, or a mistake. -/
theorem run_cases (line : CommandLine) (s : Setting) :
    ¬ line.Has s.option ∧ s.effect.run line = .ok { line := line.put s } ∨
      Mistaken (s.effect.run line) := by
  by_cases h : line.Has s.option ∨ s = .config []
  · exact .inr (mistaken_run h)
  · rw [not_or] at h
    exact .inl ⟨h.1, run_of_not_has h.1 h.2⟩

namespace Reading

/-- A name without an equals sign goes by when the first one is looked for. -/
theorem forall_ne_of_not_mem {name : String} (hname : '=' ∉ name.toList) :
    ∀ g ∈ Raw.ofString name, decide (g ≠ Glyph.char '=') := by
  intro g hg
  obtain ⟨c, hc, rfl⟩ := List.mem_map.1 hg
  simpa using fun he : c = '=' => hname (he ▸ hc)

/-- The long name of an option, alone. -/
theorem longOption_name (name : String) (o : Switch) (hname : '=' ∉ name.toList)
    (ho : Switch.ofLong? name = some o) (r : Reading) :
    r.longOption (Raw.ofString name) = r.switch o := by
  have hne := forall_ne_of_not_mem hname
  have htake : (Raw.ofString name).takeWhile (· ≠ .char '=') = Raw.ofString name :=
    List.takeWhile_eq_self_iff.2 hne
  have hdrop : (Raw.ofString name).dropWhile (· ≠ .char '=') = [] := List.dropWhile_eq_nil_iff.2 hne
  dsimp only [longOption]
  rw [htake, hdrop, Raw.string?_ofString, Option.bind_some, ho]

/-- The long name of an option with a value, which is all that stands behind the first equals
    sign. -/
theorem longOption_value (name : String) (o : Switch) (hname : '=' ∉ name.toList)
    (ho : Switch.ofLong? name = some o) (r : Reading) (value : Raw) :
    r.longOption (Raw.ofString name ++ .char '=' :: value) = r.attach value o := by
  have hne := forall_ne_of_not_mem hname
  have htake : (Raw.ofString name ++ .char '=' :: value).takeWhile (· ≠ .char '=') =
      Raw.ofString name := by
    rw [List.takeWhile_append_of_pos hne]
    simp
  have hdrop : (Raw.ofString name ++ .char '=' :: value).dropWhile (· ≠ .char '=') =
      .char '=' :: value := by
    rw [List.dropWhile_append_of_pos hne]
    simp
  dsimp only [longOption]
  rw [htake, hdrop, Raw.string?_ofString, Option.bind_some, ho]

/-- The word of a setting looks only at what is settled. -/
theorem take_word (r : Reading) (s : Setting) : r.take s.word = (r.settle >>= s.effect.run) := by
  cases s with
  | config path => exact longOption_value "config" .config (by decide) (by decide) r path
  | legacy => exact longOption_name "legacy-syscalls" .legacy (by decide) (by decide) r
  | list => exact longOption_name "list" .list (by decide) (by decide) r

/-- What does not begin with a digit is no number. -/
theorem isNegativeNumber_cons {c : Char} (hc : ¬ c.isDigit) (gs : Raw) :
    isNegativeNumber (.char c :: gs) = false := by
  unfold isNegativeNumber
  split
  · next s hs =>
    have hw : .char c :: gs = s.toList.map .char := Raw.string?_eq_some.1 hs
    cases hcs : s.toList with
    | nil =>
      rw [hcs] at hw
      cases hw
    | cons d ds =>
      rw [hcs] at hw
      cases hw
      simp [isNumber, hc]
  · rfl

/-- A letter is no number, so it is read as an option behind a program, too. -/
theorem take_letter {c : Char} (hc : ¬ c.isDigit) (hdash : c ≠ '-') (r : Reading) (gs : Raw) :
    r.take (.char '-' :: .char c :: gs) = r.letters (.char c :: gs) := by
  unfold take
  split
  · next he => cases he; exact absurd rfl hdash
  · next he =>
    cases he
    rw [isNegativeNumber_cons hc, Bool.and_false]
    rfl
  · next he => exact absurd rfl (he _ _)

/-- A setting that is given as one word is read like its word. -/
theorem take_given {s : Setting} {w : Raw} (h : s.Given [w]) (r : Reading) :
    r.take w = (r.settle >>= s.effect.run) ∧ w ≠ separator := by
  generalize hws : [w] = ws at h
  cases h with
  | word s =>
    cases hws
    refine ⟨take_word r s, ?_⟩
    cases s <;> simp [Setting.word, separator, Raw.ofString]
  | letter =>
    cases hws
    refine ⟨(take_letter (by decide) (by decide) r []).trans ?_, by decide⟩
    -- no letter is left behind this one
    show (r.switch .list >>= (·.letters [])) = r.switch .list
    cases r.switch .list <;> rfl
  | equals path =>
    cases hws
    refine ⟨take_letter (by decide) (by decide) r _, by simp [separator, Raw.ofString]⟩
  | @attached path hne hpath =>
    cases hws
    obtain ⟨g, gs, rfl⟩ := List.exists_cons_of_ne_nil hne
    refine ⟨(take_letter (by decide) (by decide) r _).trans ?_, by simp [separator, Raw.ofString]⟩
    exact letters_value (by decide) (fun hg => hpath (by rw [hg]; rfl)) r gs
  -- a path of its own takes two words
  | next hw h => cases hws

/-- The option for the path of a configuration, without a path, waits for one. -/
theorem take_waiting {w : Raw} (hw : w = Raw.ofString "--config" ∨ w = Raw.ofString "-c")
    (r : Reading) :
    r.take w = (r.settle >>= fun line => .ok { line, pending := .config none }) ∧
      w ≠ separator := by
  rcases hw with rfl | rfl
  · exact ⟨longOption_name "config" .config (by decide) (by decide) r, by decide⟩
  · exact ⟨take_letter (by decide) (by decide) r [], by decide⟩

/-- Giving a setting is a mistake if keeping it is one, or if what comes behind it is. -/
theorem mistaken_given {s : Setting} {ws vs : List Raw} (h : s.Given ws) {r : Reading}
    (hr : ∀ line, r.settle = .ok line → Mistaken (s.effect.run line >>= (·.finish vs))) :
    Mistaken (r.finish (ws ++ vs)) := by
  have hsettle {f : CommandLine → Except Stop Reading} {us : List Raw}
      (hf : ∀ line, r.settle = .ok line → Mistaken (f line >>= (·.finish us))) :
      Mistaken ((r.settle >>= f) >>= (·.finish us)) := by
    rcases settle_cases r with ⟨line, hline⟩ | hm
    · rw [hline]
      exact hf line hline
    · exact (hm.bind _).bind _
  -- only a path may be given as a word of its own, by the last constructor
  by_cases hone : ∃ w, ws = [w]
  · obtain ⟨w, rfl⟩ := hone
    obtain ⟨htake, hw⟩ := take_given h r
    rw [List.singleton_append, finish_cons hw, htake]
    exact hsettle hr
  cases h with
  | @next path w hw hpath =>
    obtain ⟨htake, hsep⟩ := take_waiting hw r
    rw [List.cons_append, finish_cons hsep, htake]
    refine hsettle fun line hline => ?_
    show Mistaken (({ line, pending := .config none } : Reading).finish (path :: vs))
    have hrest := hr line hline
    rcases setConfig_cases line path with ⟨line', hline'⟩ | hm
    · rw [finish_value (fun r _ => r.take_plain hpath) hline']
      simp only [Setting.effect, Effect.run, hline'] at hrest
      exact hrest
    · exact mistaken_value (fun r _ => r.take_plain hpath) hm vs
  | _ => exact absurd ⟨_, rfl⟩ hone

end Reading

/-! ### A setting that was given already

An option that is given twice is a mistake, wherever the second one stands. To find it, everything
that is read after the first one is followed with the setting put in.
-/

/-- A path is set if none was, and if it is one. -/
theorem setConfig_eq_ok {line line' : CommandLine} {value : Raw} :
    Reading.setConfig line value = .ok line' ↔
      ¬ line.config.isSome ∧ value ≠ [] ∧ line' = { line with config := some value } := by
  unfold Reading.setConfig
  split
  · next hc => simp [hc]
  split
  · next hv => simp [hv]
  · next hc hv => simp [hc, hv, eq_comm]

/-- What is set already stands in the way of setting it again, and of nothing else. -/
theorem setConfig_put {line line' : CommandLine} {s : Setting} (hs : ¬ line.Has s.option)
    {value : Raw} (h : Reading.setConfig line value = .ok line') :
    Mistaken (Reading.setConfig (line.put s) value) ∨
      Reading.setConfig (line.put s) value = .ok (line'.put s) ∧ ¬ line'.Has s.option := by
  obtain ⟨hc, hv, rfl⟩ := setConfig_eq_ok.1 h
  cases s with
  | config path => exact .inl (mistaken_error rfl)
  | legacy => exact .inr ⟨setConfig_eq_ok.2 ⟨hc, hv, rfl⟩, hs⟩
  | list => exact .inr ⟨setConfig_eq_ok.2 ⟨hc, hv, rfl⟩, hs⟩

/-- An option without a value does to a command line with one more setting what it does without it,
    unless it is that setting's own option: then it is given twice. -/
theorem setSwitch_put {line : CommandLine} {s : Setting} (hs : ¬ line.Has s.option)
    {o : Switch} {r : Reading} (h : Reading.setSwitch line o = .ok r) :
    Mistaken (Reading.setSwitch (line.put s) o) ∨
      Reading.setSwitch (line.put s) o = .ok { r with line := r.line.put s } ∧
        ¬ r.line.Has s.option := by
  cases o with
  | config =>
    cases h
    exact .inr ⟨rfl, hs⟩
  | legacy =>
    simp only [Reading.setSwitch] at h
    split at h
    · cases h
    · next hl =>
      cases h
      cases s with
      -- the same option once more
      | legacy => exact .inl (mistaken_error rfl)
      | config path => exact .inr ⟨if_neg hl, hs⟩
      | list => exact .inr ⟨if_neg hl, hs⟩
  | list =>
    simp only [Reading.setSwitch] at h
    split at h
    · cases h
    · next hl =>
      cases h
      cases s with
      -- the same option once more
      | list => exact .inl (mistaken_error rfl)
      | config path => exact .inr ⟨if_neg hl, hs⟩
      | legacy => exact .inr ⟨if_neg hl, hs⟩
  | help => cases h
  | version => cases h

/-- Every `Effect` does to a command line with one more setting what it does without it, or it is
    mistaken there. The induction is over the letters of a word, and `setSwitch_put` and
    `setConfig_put` are its cases. -/
theorem run_put {line : CommandLine} {s : Setting} (hs : ¬ line.Has s.option) {e : Effect}
    {r : Reading} (h : e.run line = .ok r) : Mistaken (e.run (line.put s)) ∨
      e.run (line.put s) = .ok { r with line := r.line.put s } ∧ ¬ r.line.Has s.option := by
  induction e generalizing line with
  | wrong stop hstop => cases h
  | switch o => exact setSwitch_put hs h
  | config value =>
    obtain ⟨line', hline', h⟩ := exists_of_bind h
    cases h
    rcases setConfig_put hs hline' with hm | ⟨hput, hs'⟩
    · exact .inl (hm.bind _)
    · exact .inr ⟨by simp only [Effect.run, hput]; rfl, hs'⟩
  -- the options behind a letter, with what it made of the line
  | letter o ho e ih =>
    obtain ⟨r', hr', h⟩ := exists_of_bind h
    rcases setSwitch_put hs hr' with hm | ⟨hput, hs'⟩
    · exact .inl (hm.bind _)
    · simp only [Effect.run, hput, ok_bind]
      exact ih hs' h

/-- However many plain words are added, they set nothing. -/
theorem has_foldl_add {c : CommandLine} {ts : List String} {o : Switch} :
    (ts.foldl add c).Has o ↔ c.Has o := by
  induction ts generalizing c with
  | nil => rfl
  | cons t ts ih => rw [List.foldl_cons, ih, has_add]

/-- Behind an option there is a mistake if there is one with what it leaves. -/
theorem mistaken_put {line : CommandLine} {s : Setting} (hs : ¬ line.Has s.option) {w : Raw}
    {e : Effect} {r : Reading} (hw : Reading.TakenAs line.program.isSome w e)
    (he : e.run line = .ok r) {ws : List Raw} (h : ¬ r.line.Has s.option →
      Mistaken (({ r with line := r.line.put s } : Reading).finish ws)) :
    Mistaken (({ line := line.put s } : Reading).finish (w :: ws)) := by
  have hsep : w ≠ separator := Reading.ne_separator_of_take ((hw line rfl).trans he)
  rw [Reading.finish_cons hsep, hw (line.put s) (by rw [put_program])]
  rcases run_put hs he with hm | ⟨hput, hs'⟩
  · exact hm.bind _
  · rw [hput]
    exact h hs'

/-- **Options that are given twice.** Where an option is given later on, having it set before is a
    mistake. The induction goes along `Reads`, up to the word that gives it again. -/
theorem Reads.again {line c : CommandLine} {ws : List Raw} (h : Reads line ws c) {s : Setting}
    (hs : ¬ line.Has s.option) (hc : c.Has s.option) :
    Mistaken (({ line := line.put s } : Reading).finish ws) := by
  induction h with
  | done => exact absurd hc hs
  | separated ts => exact absurd (has_foldl_add.1 hc) hs
  | plain hplain _ ih =>
    rw [Reading.finish_cons hplain.ne_separator, hplain _ (by simp [Reading.hasProgram]),
      Reading.finish_word, add_put]
    -- a plain word sets no option, so the one in question still comes later
    exact ih (has_add.not.2 hs) hc
  | option hw he _ ih => exact mistaken_put hs hw he fun hs' => ih hs' hc
  | @valued _ line' _ _ _ v _ _ hw he hv hvalue _ ih =>
    refine mistaken_put hs hw he fun hs' => ?_
    -- The value of `--config` is read before anything else, so it is mistaken at once or taken.
    show Mistaken (({ line := line'.put s, pending := .config none } : Reading).finish (v :: _))
    have hv : Reading.TakenAsIs (line'.put s).program.isSome v := by rwa [put_program]
    rcases setConfig_put hs' hvalue with hm | ⟨hput, hs''⟩
    · exact Reading.mistaken_value hv hm _
    · rw [Reading.finish_value hv hput]
      exact ih hs'' hc

/-! ### Plain words

Settings and plain words do not meet: an option leaves the program and the arguments as they are,
and a plain word sets no option.
-/

/-- The program and the arguments. -/
def plainTexts (c : CommandLine) : List String := c.program.toList ++ c.args

/-- The words of `plainTexts`. -/
def plainWords (c : CommandLine) : List Raw := c.plainTexts.map Raw.ofString

/-- There are arguments only for a program. -/
def Sensible (c : CommandLine) : Prop := c.program = none → c.args = []

/-- One more plain word keeps a command line sensible and comes last. -/
theorem sensible_add {c : CommandLine} (hc : c.Sensible) (t : String) :
    (c.add t).Sensible ∧ (c.add t).plainTexts = c.plainTexts ++ [t] := by
  cases hp : c.program with
  | none =>
    rw [add_of_none hp]
    exact ⟨nofun, by simp [plainTexts, hp, hc hp]⟩
  | some program =>
    rw [add_of_isSome (by simp [hp])]
    exact ⟨fun h => absurd (hp ▸ h : some program = none) nofun, by simp [plainTexts]⟩

/-- Plain words are added behind the plain words that are there, in their order. -/
theorem sensible_foldl_add {c : CommandLine} (hc : c.Sensible) (ts : List String) :
    (ts.foldl add c).Sensible ∧ (ts.foldl add c).plainTexts = c.plainTexts ++ ts := by
  induction ts generalizing c with
  | nil => exact ⟨hc, by simp⟩
  | cons t ts ih =>
    obtain ⟨hadd, htexts⟩ := sensible_add hc t
    obtain ⟨hfold, hall⟩ := ih hadd
    exact ⟨hfold, by rw [List.foldl_cons, hall, htexts, List.append_assoc]; rfl⟩

/-- A path is no plain word. -/
theorem setConfig_plain {line line' : CommandLine} {value : Raw}
    (h : Reading.setConfig line value = .ok line') :
    line'.program = line.program ∧ line'.args = line.args := by
  obtain ⟨-, -, rfl⟩ := setConfig_eq_ok.1 h
  exact ⟨rfl, rfl⟩

/-- An option without a value leaves the program and the arguments as they are. -/
theorem setSwitch_plain {line : CommandLine} {o : Switch} {r : Reading}
    (h : Reading.setSwitch line o = .ok r) :
    r.line.program = line.program ∧ r.line.args = line.args := by
  cases o with
  | config => cases h; exact ⟨rfl, rfl⟩
  | legacy =>
    simp only [Reading.setSwitch] at h
    split at h <;> cases h
    exact ⟨rfl, rfl⟩
  | list =>
    simp only [Reading.setSwitch] at h
    split at h <;> cases h
    exact ⟨rfl, rfl⟩
  | help => cases h
  | version => cases h

/-- Options leave the program and the arguments alone. -/
theorem run_plain {line : CommandLine} {e : Effect} {r : Reading} (h : e.run line = .ok r) :
    r.line.program = line.program ∧ r.line.args = line.args := by
  induction e generalizing line with
  | wrong stop hstop => cases h
  | switch o => exact setSwitch_plain h
  | config value =>
    obtain ⟨line', hline', h⟩ := exists_of_bind h
    cases h
    exact setConfig_plain hline'
  | letter o ho e ih =>
    obtain ⟨r', hr', h⟩ := exists_of_bind h
    obtain ⟨hprogram, hargs⟩ := ih h
    obtain ⟨hprogram', hargs'⟩ := setSwitch_plain hr'
    exact ⟨hprogram.trans hprogram', hargs.trans hargs'⟩

/-- The words make one command line of another, and among them are the plain words that are added to
    it. -/
theorem Reads.exists_added {line c : CommandLine} {ws : List Raw} (h : Reads line ws c)
    (hline : line.Sensible) : c.Sensible ∧ ∃ ts : List String,
      c.plainTexts = line.plainTexts ++ ts ∧ (ts.map Raw.ofString).Sublist ws := by
  induction h with
  | done => exact ⟨hline, [], by simp, by simp⟩
  | separated ts =>
    obtain ⟨hfold, hall⟩ := sensible_foldl_add hline ts
    exact ⟨hfold, ts, hall, List.sublist_cons_self _ _⟩
  | @plain line c t ws hplain _ ih =>
    obtain ⟨hadd, htexts⟩ := sensible_add hline t
    obtain ⟨hc, ts, hts, hsub⟩ := ih hadd
    exact ⟨hc, t :: ts, by simp [hts, htexts], hsub.cons_cons _⟩
  -- an option does not touch what the plain words make
  | option hw he _ ih =>
    obtain ⟨hprogram, hargs⟩ := run_plain he
    dsimp only at hprogram hargs
    simp only [Sensible, plainTexts, hprogram, hargs] at ih
    obtain ⟨hc, ts, hts, hsub⟩ := ih hline
    exact ⟨hc, ts, hts, hsub.cons _⟩
  | valued hw he hv hvalue _ ih =>
    obtain ⟨hprogram, hargs⟩ := run_plain he
    obtain ⟨hprogram', hargs'⟩ := setConfig_plain hvalue
    dsimp only at hprogram hargs
    simp only [Sensible, plainTexts, hprogram', hargs', hprogram, hargs] at ih
    obtain ⟨hc, ts, hts, hsub⟩ := ih hline
    exact ⟨hc, ts, hts, (hsub.cons _).cons _⟩

/-! ### Writing

Any order of the settings makes the same command line, as they are about different options.
-/

/-- The settings of a command line. -/
def settings (c : CommandLine) : List Setting :=
  c.config.toList.map .config ++ (if c.legacy then [.legacy] else []) ++
    (if c.list then [.list] else [])

/-- A word for each setting. -/
def optionWords (c : CommandLine) : List Raw := c.settings.map Setting.word

/-- The words `ws` are `us` and `vs`, each in its order. -/
inductive Interleaved {α : Type} : (us vs ws : List α) → Prop where
  | nil : Interleaved [] [] []
  | left {us vs ws : List α} {a : α} (h : Interleaved us vs ws) : Interleaved (a :: us) vs (a :: ws)
  | right {us vs ws : List α} {a : α} (h : Interleaved us vs ws) :
    Interleaved us (a :: vs) (a :: ws)

/-- Settings that can be given for a command line one after another. -/
structure Fits (line : CommandLine) (ss : List Setting) : Prop where
  nodup : (ss.map Setting.option).Nodup
  not_has : ∀ s ∈ ss, ¬ line.Has s.option
  path : .config [] ∉ ss

/-- The first of them is `put`, and then the others can be given. -/
theorem Fits.of_cons {line : CommandLine} {s : Setting} {ss : List Setting}
    (h : line.Fits (s :: ss)) :
    s.effect.run line = .ok { line := line.put s } ∧ (line.put s).Fits ss := by
  obtain ⟨hnodup, hnot, hpath⟩ := h
  rw [List.map_cons, List.nodup_cons] at hnodup
  refine ⟨run_of_not_has (hnot s (by simp)) fun hs => hpath (by simp [hs]), hnodup.2, ?_, ?_⟩
  · intro t ht
    rw [has_put, not_or]
    exact ⟨hnot t (by simp [ht]), fun he => hnodup.1 (he ▸ List.mem_map_of_mem ht)⟩
  · exact fun h => hpath (by simp [h])

/-- A plain word does not stand in their way. -/
theorem Fits.add {line : CommandLine} {ss : List Setting} (h : line.Fits ss) (t : String) :
    (line.add t).Fits ss := ⟨h.nodup, fun s hs => has_add.not.2 (h.not_has s hs), h.path⟩

/-- A command line has at most one setting for an option. -/
theorem nodup_settings (c : CommandLine) : (c.settings.map Setting.option).Nodup := by
  obtain ⟨program, args, config, legacy, list⟩ := c
  cases config <;> cases legacy <;> cases list <;> simp [settings, Setting.option]

/-- The settings of a command line can be given from nothing, in any order. -/
theorem fits_settings {c : CommandLine} (hpath : c.config ≠ some []) {ss : List Setting}
    (h : ss.Perm c.settings) : ({} : CommandLine).Fits ss where
  nodup := (h.map Setting.option).nodup_iff.2 (nodup_settings c)
  not_has s _ := by cases s <;> simp [Has, Setting.option]
  path hs := by
    have hc : Setting.config [] ∈ c.settings := h.mem_iff.1 hs
    obtain ⟨program, args, config, legacy, list⟩ := c
    cases config <;> cases legacy <;> cases list <;> simp_all [settings]

/-- Settings of different options can be given in any order. -/
theorem put_comm {s t : Setting} (h : s.option = t.option → s = t) (c : CommandLine) :
    (c.put s).put t = (c.put t).put s := by
  cases s <;> cases t <;> simp_all [put, Setting.option]

/-- The settings of a command line make it of its program and arguments alone. -/
theorem foldl_put_settings (c : CommandLine) {ss : List Setting} (h : ss.Perm c.settings) :
    ss.foldl put { program := c.program, args := c.args } = c := by
  have hinj := List.inj_on_of_nodup_map (nodup_settings c)
  rw [h.foldl_eq' fun s hs t ht c => put_comm (hinj (h.mem_iff.1 hs) (h.mem_iff.1 ht)) c]
  obtain ⟨program, args, config, legacy, list⟩ := c
  cases config <;> cases legacy <;> cases list <;> rfl

/-- A plain word can be added before settings or behind them. -/
theorem foldl_add_put (ss : List Setting) (c : CommandLine) (t : String) :
    (ss.foldl put c).add t = ss.foldl put (c.add t) := by
  induction ss generalizing c with
  | nil => rfl
  | cons s ss ih => rw [List.foldl_cons, List.foldl_cons, ih, add_put]

/-- The settings in front. -/
theorem reads_settings {line c : CommandLine} {ss : List Setting} {ws : List Raw}
    (h : line.Fits ss) (hc : Reads (ss.foldl put line) ws c) :
    Reads line (ss.map Setting.word ++ ws) c := by
  induction ss generalizing line with
  | nil => exact hc
  | cons s ss ih =>
    obtain ⟨hs, hfits⟩ := h.of_cons
    exact .option (fun line _ => Reading.take_word { line } s) hs (ih hfits hc)

/-- The settings between the plain words, none of which is an option. The induction goes along
    `Interleaved`, with what was read so far generalised. -/
theorem reads_interleaved {line : CommandLine} {ss : List Setting} {ts : List String}
    {ws : List Raw} (hws : Interleaved (ss.map Setting.word) (ts.map Raw.ofString) ws)
    (h : line.Fits ss) (hfirst : line.program = none → ∀ t ∈ ts.head?, IsPlain (Raw.ofString t))
    (hts : ∀ t ∈ ts, IsArgument (Raw.ofString t)) :
    Reads line ws (ts.foldl add (ss.foldl put line)) := by
  generalize hus : ss.map Setting.word = us at hws
  generalize hvs : ts.map Raw.ofString = vs at hws
  induction hws generalizing line ss ts with
  | nil =>
    obtain rfl := List.map_eq_nil_iff.1 hus
    obtain rfl := List.map_eq_nil_iff.1 hvs
    exact .done
  | left _ ih =>
    obtain ⟨s, ss, rfl, rfl, hss⟩ := List.map_eq_cons_iff.1 hus
    obtain ⟨hs, hfits⟩ := h.of_cons
    refine .option (fun line _ => Reading.take_word { line } s) hs ?_
    exact ih hfits (by simpa using hfirst) hts hss hvs
  | right _ ih =>
    obtain ⟨t, ts, rfl, rfl, hts'⟩ := List.map_eq_cons_iff.1 hvs
    have hplain : Reading.TakenAsIs line.program.isSome (Raw.ofString t) := by
      cases hp : line.program with
      | none => exact fun r _ => r.take_plain (hfirst hp t rfl)
      | some program => exact fun r hr => Reading.take_argument hr (hts t (by simp))
    -- After one plain word there is a program, so the condition on the first one is spent.
    have hadd : (line.add t).program ≠ none := by
      unfold add
      split <;> simp_all
    rw [List.foldl_cons, foldl_add_put]
    refine .plain hplain ?_
    exact ih (h.add t) (fun hnone => absurd hnone hadd) (fun t ht => hts t (by simp [ht])) hus hts'

/-- Plain words can be added before settings or behind them. -/
theorem foldl_add_foldl_put (ss : List Setting) (ts : List String) (c : CommandLine) :
    ts.foldl add (ss.foldl put c) = ss.foldl put (ts.foldl add c) := by
  induction ts generalizing c with
  | nil => rfl
  | cons t ts ih => rw [List.foldl_cons, List.foldl_cons, foldl_add_put, ih]

/-- Behind a program plain words are its arguments. -/
theorem foldl_add_args (program : String) (args ts : List String) :
    ts.foldl add { program := some program, args } =
      { program := some program, args := args ++ ts } := by
  induction ts generalizing args with
  | nil => simp
  | cons t ts ih =>
    rw [List.foldl_cons, add_of_isSome rfl, ih]
    simp

/-- The settings and the plain words make the command line. -/
theorem foldl_words {c : CommandLine} (hc : c.Sensible) {ss : List Setting}
    (h : ss.Perm c.settings) : c.plainTexts.foldl add (ss.foldl put {}) = c := by
  have hplain : c.plainTexts.foldl add {} = { program := c.program, args := c.args } := by
    cases hp : c.program with
    | none => simp [plainTexts, hp, hc hp]
    | some program =>
      simp only [plainTexts, hp]
      exact foldl_add_args program [] c.args
  rw [foldl_add_foldl_put, hplain, foldl_put_settings c h]

/-- Words for settings in any order are the words of the settings in that order. -/
theorem exists_settings {c : CommandLine} {opts : List Raw} (h : opts.Perm c.optionWords) :
    ∃ ss : List Setting, ss.Perm c.settings ∧ opts = ss.map Setting.word := by
  have hwords : List.Forall₂ (fun w s => w = Setting.word s) c.optionWords c.settings :=
    List.forall₂_map_left_iff.2 (List.forall₂_same.2 fun _ _ => rfl)
  obtain ⟨ss, hss, hperm⟩ := List.perm_comp_forall₂ h hwords
  have heq : List.Forall₂ (· = ·) opts (ss.map Setting.word) := List.forall₂_map_right_iff.2 hss
  rw [List.forall₂_eq_eq_eq] at heq
  exact ⟨ss, hperm, heq⟩

/-- **Command lines read back.** The words for the settings of a command line in any order
    (`optionWords`), and then the separator and the plain words, whatever these are, read as the
    command line. Where no plain word looks like an option the separator can be left out, and the
    words for the settings can stand between the plain words. An option that is given again is a
    mistake, wherever it stands in front of the separator. And of any command line that can be read,
    the program and the arguments are among the words in their order, and there are no arguments
    without a program. -/
theorem read_written :
    (∀ c : CommandLine, (c.program = none → c.args = []) → c.config ≠ some [] →
      ∀ opts, opts.Perm c.optionWords →
        read (opts ++ separator :: c.plainWords) = .ok c ∧
        ((∀ program, c.program = some program → IsPlain (Raw.ofString program)) →
          (∀ a ∈ c.args, IsArgument (Raw.ofString a)) →
          ∀ words, Interleaved opts c.plainWords words → read words = .ok c)) ∧
    (∀ us vs c, read (us ++ vs) = .ok c → separator ∉ us →
      ∀ (s : Setting) (ws : List Raw), c.Has s.option → s.Given ws →
        Mistaken (read (us ++ (ws ++ vs)))) ∧
    ∀ words c, read words = .ok c →
      c.plainWords.Sublist words ∧ (c.program = none → c.args = []) := by
  refine ⟨fun c hc hpath opts hopts => ?_, fun us vs c h hus s ws hs hws => ?_, fun words c h => ?_⟩
  · obtain ⟨ss, hss, rfl⟩ := exists_settings hopts
    -- Reading the settings back in any order makes the same command line (`foldl_words`).
    have hfits := fits_settings hpath hss
    have hline := foldl_words hc hss
    constructor
    · have hread := reads_settings hfits (.separated c.plainTexts)
      rw [hline] at hread
      exact Reading.finish_eq_ok.2 hread
    · intro hprogram hargs words hwords
      have hfirst : ∀ t ∈ c.plainTexts.head?, IsPlain (Raw.ofString t) := by
        cases hp : c.program with
        | none => simp [plainTexts, hp, hc hp]
        | some program => simpa [plainTexts, hp] using hprogram program hp
      have htexts : ∀ t ∈ c.plainTexts, IsArgument (Raw.ofString t) := by
        intro t ht
        rcases List.mem_append.1 ht with ht | ht
        · exact .plain (hprogram t (Option.mem_toList.1 ht))
        · exact hargs t ht
      have hread := reads_interleaved hwords hfits (fun _ => hfirst) htexts
      rw [hline] at hread
      exact Reading.finish_eq_ok.2 hread
  · -- The words `us` are read in both cases; what matters is the line that they make.
    rw [read, Reading.finish_append hus] at h ⊢
    obtain ⟨r, hr, hvs⟩ := exists_of_bind h
    have hsound : r.Sound := Reading.sound_foldlM (Reading.sound_nothing {}) hr
    rw [hr, ok_bind]
    refine Reading.mistaken_given hws fun line hline => ?_
    rcases run_cases line s with ⟨hnot, hrun⟩ | hm
    · rw [Reading.finish_settled hsound hline, Reading.finish_eq_ok] at hvs
      rw [hrun]
      exact hvs.again hnot hs
    · exact hm.bind _
  · obtain ⟨hc, ts, hts, hsub⟩ := (Reading.finish_eq_ok.1 h).exists_added fun _ => rfl
    have hwords : c.plainWords = ts.map Raw.ofString := congrArg (List.map Raw.ofString) hts
    exact ⟨hwords ▸ hsub, hc⟩

/-- Every setting, an empty argument and one that is a negative number, in front of the separator
    and mixed up, and with an option that comes again as a letter. -/
theorem read_written_shuffled :
    let c : CommandLine := {
      program := some "add", args := ["-5", ""], config := some (Raw.ofString "a=b")
      legacy := true, list := true }
    read (["--list", "--config=a=b", "--legacy-syscalls", "--", "add", "-5", ""].map Raw.ofString) =
      .ok c ∧
    read (["--list", "add", "-5", "--config=a=b", "", "--legacy-syscalls"].map Raw.ofString) =
      .ok c ∧
    Mistaken (read (["--list", "add", "-l", "-5", "--config=a=b", "", "--legacy-syscalls"].map
      Raw.ofString)) ∧
    (["add", "-5", ""].map Raw.ofString).Sublist
      (["--list", "add", "-5", "--config=a=b", "", "--legacy-syscalls"].map Raw.ofString) := by
  intro c
  obtain ⟨hwritten, hagain, hplain⟩ := read_written
  let opts := ["--list", "--config=a=b", "--legacy-syscalls"].map Raw.ofString
  have hopts : opts.Perm c.optionWords := by decide
  obtain ⟨hseparated, hmixed⟩ := hwritten c nofun (by decide) opts hopts
  have hnumber : IsArgument (Raw.ofString "-5") :=
    .negative (List.cons_ne_nil '5' []) (List.forall_mem_singleton.2 (by decide))
  have hargs : ∀ a ∈ c.args, IsArgument (Raw.ofString a) := by
    simpa [c] using ⟨hnumber, .plain (by decide)⟩
  -- The constructors say from which of the two lists each word comes.
  have hwords : Interleaved opts c.plainWords _ :=
    .left (.right (.right (.left (.right (.left .nil)))))
  have hread := hmixed (by simpa [c] using (by decide)) hargs _ hwords
  refine ⟨hseparated, hread, ?_, (hplain _ c hread).1⟩
  exact hagain (["--list", "add"].map Raw.ofString) _ c hread (by decide) .list _ rfl .letter

end StackMachine.CommandLine
