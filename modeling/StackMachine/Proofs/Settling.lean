import StackMachine.Proofs.Words

namespace StackMachine.CommandLine

open Text (Glyph Raw)

/-!
# Words that are kept back

That words are kept back decides which of two mistakes is reported, and nothing else: where the
words are fine they can be looked at at once. So a command line that can be read is told by what
each of its words does to what was read before it.

A reading has a state, the words kept back, and the claim is that this state can be forgotten:
`word_spec` says of a plain word that it is kept or that there was a mistake before, and `Effect`
says of an option what it does once the words before it are settled.

* `Mistaken` — reading ended in a mistake.
* `Reading.finish_settled`, `Reading.mistaken_finish` — words kept back that are fine, or that are
  not.
* `Reads`, `Reading.finish_eq_ok` — command lines that can be read, word by word.
-/

/-! ### Mistakes

A mistake is never undone by what comes after it.
-/

/-- Reading ended in a mistake, not in a text that was asked for. -/
def Mistaken {α : Type} (r : Except Stop α) : Prop :=
  ∃ s : Stop, r = .error s ∧ s.isRequest = false

/-- A stop that is no request is a mistake. -/
theorem mistaken_error {α : Type} {s : Stop} (h : s.isRequest = false) :
    Mistaken (.error s : Except Stop α) := ⟨s, rfl, h⟩

/-- Nothing is read behind a mistake. -/
theorem Mistaken.bind {α β : Type} {r : Except Stop α} (h : Mistaken r) (f : α → Except Stop β) :
    Mistaken (r >>= f) := by
  obtain ⟨s, rfl, hs⟩ := h
  exact ⟨s, rfl, hs⟩

/-- A mistake is no result. -/
theorem Mistaken.ne_ok {α : Type} {r : Except Stop α} (h : Mistaken r) (a : α) : r ≠ .ok a := by
  obtain ⟨s, rfl, -⟩ := h
  exact nofun

/-- Unfolding lemma: a result is handed on. -/
theorem ok_bind {ε α β : Type} (a : α) (f : α → Except ε β) : (Except.ok a >>= f) = f a := rfl

/-- Two steps that come to a result come to one each. The proofs below peel readings apart with
    it. -/
theorem exists_of_bind {ε α β : Type} {r : Except ε α} {f : α → Except ε β} {b : β}
    (h : (r >>= f) = .ok b) : ∃ a, r = .ok a ∧ f a = .ok b := by
  cases r with
  | ok a => exact ⟨a, rfl, h⟩
  | error e => cases h

namespace Reading

/-- A word is decoded as a text if and only if it is the word of that text. -/
theorem decode_eq_ok {w : Raw} {s : String} : decode w = .ok s ↔ w = Raw.ofString s := by
  constructor
  · intro h
    unfold decode at h
    split at h
    · next hs =>
      cases h
      exact Raw.string?_eq_some.1 hs
    · cases h
  · rintro rfl
    exact decode_ofString s

/-- Words in a row are decoded just if they are the words of texts. -/
theorem mapM_decode_eq_ok {ws : List Raw} {ss : List String} :
    ws.mapM decode = .ok ss ↔ ws = ss.map Raw.ofString := by
  constructor
  · intro h
    induction ws generalizing ss with
    | nil => cases h; rfl
    | cons w ws ih =>
      rw [List.mapM_cons] at h
      obtain ⟨s, hs, h⟩ := exists_of_bind h
      obtain ⟨ts, hts, h⟩ := exists_of_bind h
      cases h
      rw [decode_eq_ok.1 hs, ih hts, List.map_cons]
  · rintro rfl
    exact mapM_decode_ofString ss

/-- Unfolding lemma: nothing was kept back. -/
theorem settle_nothing (line : CommandLine) : ({ line } : Reading).settle = .ok line := rfl

/-- A program that was kept back is settled as its text. -/
theorem settle_program_eq_ok {line c : CommandLine} {w : Raw} :
    ({ line, pending := .program w } : Reading).settle = .ok c ↔
      ∃ s, w = Raw.ofString s ∧ c = { line with program := some s } := by
  constructor
  · intro h
    obtain ⟨s, hs, h⟩ := exists_of_bind h
    cases h
    exact ⟨s, decode_eq_ok.1 hs, rfl⟩
  · rintro ⟨s, rfl, rfl⟩
    simp only [settle, decode_ofString]
    rfl

/-- Arguments that were kept back are settled as their texts, behind those there are. -/
theorem settle_args_eq_ok {line c : CommandLine} {ws : List Raw} :
    ({ line, pending := .args ws } : Reading).settle = .ok c ↔
      ∃ ss : List String, ws = ss.map Raw.ofString ∧ c = { line with args := line.args ++ ss } := by
  constructor
  · intro h
    obtain ⟨ss, hss, h⟩ := exists_of_bind h
    cases h
    exact ⟨ss, mapM_decode_eq_ok.1 hss, rfl⟩
  · rintro ⟨ss, rfl, rfl⟩
    simp only [settle, mapM_decode_ofString]
    rfl

/-- A word is decoded or mistaken. There is nothing else that can come of it. -/
theorem decode_cases (w : Raw) : (∃ s, decode w = .ok s) ∨ Mistaken (decode w) := by
  unfold decode
  split
  · exact .inl ⟨_, rfl⟩
  · exact .inr (mistaken_error rfl)

/-- Words in a row are decoded, or it is a mistake: that of the first one that is no text. -/
theorem mapM_decode_cases (ws : List Raw) :
    (∃ ss, ws.mapM decode = .ok ss) ∨ Mistaken (ws.mapM decode) := by
  induction ws with
  | nil => exact .inl ⟨[], rfl⟩
  | cons w ws ih =>
    rw [List.mapM_cons]
    rcases decode_cases w with ⟨s, hs⟩ | hw
    · rw [hs, ok_bind]
      rcases ih with ⟨ss, hss⟩ | hws
      · exact .inl ⟨s :: ss, by rw [hss]; rfl⟩
      · exact .inr (hws.bind _)
    · exact .inr (hw.bind _)

/-- A path is set, or it is a mistake: it may be empty or the second one. -/
theorem setConfig_cases (line : CommandLine) (value : Raw) :
    (∃ line', setConfig line value = .ok line') ∨ Mistaken (setConfig line value) := by
  unfold setConfig
  split
  · exact .inr (mistaken_error rfl)
  split
  · exact .inr (mistaken_error rfl)
  · exact .inl ⟨_, rfl⟩

/-- Words that are looked at are fine, or there is a mistake in them. -/
theorem settle_cases (r : Reading) : (∃ line, r.settle = .ok line) ∨ Mistaken r.settle := by
  obtain ⟨line, pending⟩ := r
  match pending with
  | .nothing => exact .inl ⟨line, rfl⟩
  | .config none => exact .inr (mistaken_error rfl)
  | .config (some value) => exact setConfig_cases line value
  | .program w =>
    rcases decode_cases w with ⟨s, hs⟩ | hw
    · exact .inl ⟨_, settle_program_eq_ok.2 ⟨s, decode_eq_ok.1 hs, rfl⟩⟩
    · exact .inr (hw.bind _)
  | .args ws =>
    rcases mapM_decode_cases ws with ⟨ss, hss⟩ | hws
    · exact .inl ⟨_, settle_args_eq_ok.2 ⟨ss, mapM_decode_eq_ok.1 hss, rfl⟩⟩
    · exact .inr (hws.bind _)

/-! ### Words that are options

An option first settles the words that are kept back. Two readings that settle to the same line are
therefore the same for it.
-/

section

variable {r r' : Reading}

/-- An option looks at the words kept back and forgets them, so only what is settled counts for
    it. -/
theorem switch_congr (hs : r.settle = r'.settle) (o : Switch) : r.switch o = r'.switch o := by
  rw [switch, switch, hs]

/-- An option with a value attached does the same to two readings that settle alike. -/
theorem attach_congr (hs : r.settle = r'.settle) (value : Raw) (o : Switch) :
    r.attach value o = r'.attach value o := by
  cases o <;> simp only [attach, hs]

/-- An option by its name does the same to two readings that settle alike. -/
theorem longOption_congr (hs : r.settle = r'.settle) (name : Raw) :
    r.longOption name = r'.longOption name := by
  simp only [longOption, switch_congr hs, attach_congr hs]

/-- Letters do the same to two readings that settle alike, as the first one settles the words kept
    back. -/
theorem letters_congr (hs : r.settle = r'.settle) (g : Glyph) (gs : Raw) :
    r.letters (g :: gs) = r'.letters (g :: gs) := by
  cases g with
  | stray bytes => simp only [letters]
  | char c => simp only [letters, switch_congr hs, attach_congr hs]

end

/-- The word is read as it is, behind a program if one is `named`. -/
def TakenAsIs (named : Bool) (w : Raw) : Prop :=
  ∀ r : Reading, r.hasProgram = named → r.take w = r.word w

/-- A word is read as it is, as an option with a name, or as letters. Which of these does not depend
    on the words kept back, but for a program among them. -/
theorem take_shape (named : Bool) (w : Raw) : TakenAsIs named w ∨
    (∃ name, ∀ r : Reading, r.take w = r.longOption name) ∨
    ∃ g gs, ∀ r : Reading, r.hasProgram = named → r.take w = r.letters (g :: gs) := by
  unfold TakenAsIs take
  split
  · exact .inr (.inl ⟨_, fun r => rfl⟩)
  · next g gs _ =>
    by_cases h : named && isNegativeNumber (g :: gs)
    · exact .inl fun r hr => by rw [hr, if_pos h]
    · exact .inr (.inr ⟨g, gs, fun r hr => by rw [hr, if_neg h]⟩)
  · exact .inl fun r _ => rfl

/-- What is settled is all that counts for the rest, unless the next word is read as it is. -/
theorem finish_cons_congr {r r' : Reading} (hs : r.settle = r'.settle)
    (hp : r.hasProgram = r'.hasProgram) {w : Raw} {ws : List Raw}
    (hw : (r.word w >>= (·.finish ws)) = (r'.word w >>= (·.finish ws))) :
    r.finish (w :: ws) = r'.finish (w :: ws) := by
  rw [finish, finish, hs]
  split
  · rfl
  rcases take_shape r.hasProgram w with h | ⟨name, h⟩ | ⟨g, gs, h⟩
  · rw [h r rfl, h r' hp.symm, hw]
  · rw [h, h, longOption_congr hs]
  · rw [h r rfl, h r' hp.symm, letters_congr hs]

/-! ### Words that are fine -/

/-- There are arguments only behind a program. Every reading that can come about is sound, see
    `sound_foldlM`. -/
def Sound (r : Reading) : Prop := ∀ ws, r.pending = .args ws → r.line.program.isSome

/-- A reading with nothing kept back is sound. -/
theorem sound_nothing (line : CommandLine) : ({ line } : Reading).Sound := nofun

/-- A reading with the path kept back is sound. -/
theorem sound_config (line : CommandLine) (value : Option Raw) :
    ({ line, pending := .config value } : Reading).Sound := nofun

/-- Arguments that are fine can be settled first, before the others. -/
theorem settle_args (line : CommandLine) (ss : List String) (vs : List Raw) :
    ({ line, pending := .args (ss.map Raw.ofString ++ vs) } : Reading).settle =
      ({ line := { line with args := line.args ++ ss }, pending := .args vs } :
        Reading).settle := by
  simp only [settle, List.mapM_append, mapM_decode_ofString]
  rcases mapM_decode_cases vs with ⟨ts, hts⟩ | ⟨s, hs, -⟩
  · rw [hts]
    simp [ok_bind]
  · rw [hs]
    rfl

/-- Arguments can be looked at while more of them come. -/
theorem finish_args (line : CommandLine) (ss : List String) (vs ws : List Raw) :
    ({ line, pending := .args (ss.map Raw.ofString ++ vs) } : Reading).finish ws =
      ({ line := { line with args := line.args ++ ss }, pending := .args vs } : Reading).finish
        ws := by
  induction ws generalizing vs with
  | nil => exact settle_args line ss vs
  | cons w ws ih =>
    refine finish_cons_congr (settle_args line ss vs) rfl ?_
    show finish ⟨line, .args (ss.map Raw.ofString ++ vs ++ [w])⟩ ws =
      finish ⟨_, .args (vs ++ [w])⟩ ws
    rw [List.append_assoc, ih]

/-- A word that does not join arguments is kept back behind what is settled. -/
theorem word_settled {r : Reading} {line : CommandLine} (hr : ∀ ws, r.pending ≠ .args ws)
    (h : r.settle = .ok line) (w : Raw) : r.word w = ({ line } : Reading).word w := by
  unfold word
  split
  · next hc => rw [settle, hc] at h; cases h
  · next ws ha => exact absurd ha (hr ws)
  · rw [h]
    rfl

/-- A program is named before the words kept back are settled just if one is named afterwards. -/
theorem hasProgram_settled {r : Reading} {line : CommandLine} (h : r.settle = .ok line) :
    r.hasProgram = line.program.isSome := by
  obtain ⟨line', pending⟩ := r
  match pending with
  | .nothing => cases h; rfl
  | .config none => cases h
  | .config (some value) =>
    simp only [settle, setConfig] at h
    split at h
    · cases h
    split at h
    · cases h
    · cases h; rfl
  | .program w =>
    obtain ⟨s, -, rfl⟩ := settle_program_eq_ok.1 h
    rfl
  -- arguments are added behind the program, which is not touched
  | .args ws =>
    obtain ⟨ss, -, rfl⟩ := settle_args_eq_ok.1 h
    rfl

/-- Behind a program a word is an argument. -/
theorem word_behind {line : CommandLine} (hp : line.program.isSome) (w : Raw) :
    ({ line } : Reading).word w = .ok { line, pending := .args [w] } := by
  obtain ⟨program, hprogram⟩ := Option.isSome_iff_exists.1 hp
  show Except.ok (Reading.mk line (if line.program.isNone then .program w else .args [w])) = _
  rw [hprogram]
  rfl

/-- **Words that are fine.** Words kept back can be looked at at once if they are fine: the rest is
    read as if nothing had been kept back. -/
theorem finish_settled {r : Reading} (hr : r.Sound) {line : CommandLine}
    (h : r.settle = .ok line) (ws : List Raw) : r.finish ws = ({ line } : Reading).finish ws := by
  cases ws with
  | nil => exact h
  | cons w ws =>
    refine finish_cons_congr h (hasProgram_settled h) ?_
    -- a plain word joins arguments unsettled, and settles everything else
    by_cases ha : ∃ us, r.pending = .args us
    · obtain ⟨us, ha⟩ := ha
      have hp : line.program.isSome := hasProgram_settled h ▸ by simp [hasProgram, ha, hr us ha]
      obtain ⟨line', pending⟩ := r
      obtain rfl : pending = .args us := ha
      obtain ⟨ss, rfl, rfl⟩ := settle_args_eq_ok.1 h
      rw [word_behind hp]
      exact finish_args line' ss [w] ws
    · rw [word_settled (fun us hus => ha ⟨us, hus⟩) h]

/-! ### Words with a mistake

An option that is unknown, or has a value that it does not need, is reported in front of a mistake
in the words kept back. Some mistake is reported all the same.
-/

/-- An option by its name reports a mistake, if not its own then that in the words kept back. -/
theorem mistaken_longOption {r : Reading} (h : Mistaken r.settle) (name : Raw) :
    Mistaken (r.longOption name) := by
  dsimp only [longOption]
  split
  · exact mistaken_error rfl
  · exact h.bind _
  · next o _ _ _ _ =>
    cases o with
    | config => exact h.bind _
    | _ => exact mistaken_error rfl

/-- Letters report a mistake, if not their own then that in the words kept back. -/
theorem mistaken_letters {r : Reading} (h : Mistaken r.settle) (g : Glyph) (gs : Raw) :
    Mistaken (r.letters (g :: gs)) := by
  cases g with
  | stray bytes => exact mistaken_error rfl
  | char c =>
    unfold letters
    split
    · exact mistaken_error rfl
    · split <;> exact h.bind _
    · exact (h.bind _).bind _

/-- A further argument does not mend a mistake in the ones before it. -/
theorem mistaken_args {line : CommandLine} {us : List Raw}
    (h : Mistaken ({ line, pending := .args us } : Reading).settle) (w : Raw) :
    Mistaken ({ line, pending := .args (us ++ [w]) } : Reading).settle := by
  have hus : Mistaken (us.mapM decode) := by
    rcases mapM_decode_cases us with ⟨ss, hss⟩ | hus
    · exact absurd (settle_args_eq_ok.2 ⟨ss, mapM_decode_eq_ok.1 hss, rfl⟩) (h.ne_ok _)
    · exact hus
  simp only [settle, List.mapM_append]
  exact (hus.bind _).bind _

/-- The separator settles what was kept back. -/
theorem mistaken_finish_separator {r : Reading} (h : Mistaken r.settle) (ws : List Raw) :
    Mistaken (r.finish (separator :: ws)) := by
  rw [finish, if_pos rfl]
  exact h.bind _

/-- **Words with a mistake.** A mistake in words that are kept back is reported in the end, if no
    other is reported first. -/
theorem mistaken_finish {r : Reading} (hr : r.pending ≠ .config none) (h : Mistaken r.settle)
    (ws : List Raw) : Mistaken (r.finish ws) := by
  induction ws generalizing r with
  | nil => exact h
  | cons w ws ih =>
    -- If the word is read as it is, the mistake is settled now or kept back with it.
    have hword : Mistaken (r.word w >>= (·.finish ws)) := by
      obtain ⟨line, pending⟩ := r
      unfold word
      split
      · next hc => exact absurd hc hr
      · next us ha =>
        obtain rfl : pending = .args us := ha
        exact ih nofun (mistaken_args h w)
      · exact (h.bind _).bind _
    by_cases hw : w = separator
    · subst hw
      exact mistaken_finish_separator h ws
    rw [finish, if_neg hw]
    rcases take_shape r.hasProgram w with htake | ⟨name, htake⟩ | ⟨g, gs, htake⟩
    · rw [htake r rfl]
      exact hword
    · -- an option settles what is kept back first, or has a mistake of its own
      rw [htake]
      exact (mistaken_longOption h name).bind _
    · rw [htake r rfl]
      exact (mistaken_letters h g gs).bind _

/-! ### Word by word -/

/-- If a reading can be finished, the words that it keeps back can be settled. -/
theorem exists_settled {r : Reading} (hr : r.pending ≠ .config none) {ws : List Raw}
    {c : CommandLine} (h : r.finish ws = .ok c) : ∃ line, r.settle = .ok line := by
  rcases settle_cases r with hl | hm
  · exact hl
  · exact absurd h ((mistaken_finish hr hm ws).ne_ok c)

end Reading

/-- The command line with one more word that is not an option: the program, or behind it an
    argument. -/
def add (line : CommandLine) (s : String) : CommandLine :=
  if line.program.isNone then { line with program := some s }
  else { line with args := line.args ++ [s] }

/-- Unfolding lemma: the first such word is the program. -/
theorem add_of_none {line : CommandLine} (hp : line.program = none) (s : String) :
    line.add s = { line with program := some s } := by
  simp [add, hp]

/-- Unfolding lemma: every further one is an argument. -/
theorem add_of_isSome {line : CommandLine} (hp : line.program.isSome) (s : String) :
    line.add s = { line with args := line.args ++ [s] } := by
  simp [add, Option.isSome_iff_ne_none.1 hp]

namespace Reading

/-- What a word that is read as it is adds: it is kept back, and what is settled then is what was
    settled before it and the word. -/
def Keeps (r : Reading) (w : Raw) (r' : Reading) : Prop :=
  r'.Sound ∧ r'.pending ≠ .config none ∧ ∀ c, r'.settle = .ok c ↔
    ∃ line s, r.settle = .ok line ∧ w = Raw.ofString s ∧ c = line.add s

/-- The program is kept back. -/
theorem keeps_program {line : CommandLine} (hp : line.program = none) (w : Raw) :
    Keeps { line } w { line, pending := .program w } := by
  refine ⟨nofun, nofun, fun c => ?_⟩
  simp [settle_nothing, settle_program_eq_ok, add_of_none hp]

/-- An argument is kept back with those before it. -/
theorem keeps_args {line : CommandLine} (hp : line.program.isSome) (us : List Raw) (w : Raw) :
    Keeps { line, pending := .args us } w { line, pending := .args (us ++ [w]) } := by
  have hadd (ts : List String) (s : String) :
      ({ line with args := line.args ++ ts } : CommandLine).add s =
        { line with args := line.args ++ (ts ++ [s]) } := by
    have hargs : ({ line with args := line.args ++ ts } : CommandLine).program.isSome := hp
    rw [← List.append_assoc]
    exact add_of_isSome hargs s
  refine ⟨fun _ _ => hp, nofun, fun c => ?_⟩
  simp only [settle_args_eq_ok]
  constructor
  · -- the list decodes as a whole, so the last word does, and those before it do
    rintro ⟨ss, hss, rfl⟩
    obtain ⟨ts, vs, rfl, rfl, hvs⟩ := List.append_eq_map_iff.1 hss
    obtain ⟨s, rfl, rfl⟩ := List.map_eq_singleton_iff.1 hvs
    exact ⟨_, s, ⟨ts, rfl, rfl⟩, rfl, (hadd ts s).symm⟩
  · rintro ⟨_, s, ⟨ts, rfl, rfl⟩, rfl, rfl⟩
    exact ⟨ts ++ [s], by simp, hadd ts s⟩

/-- Where nothing is kept back, the word is, either way. -/
theorem keeps_nothing (line : CommandLine) (w : Raw) : ∃ r, ({ line } : Reading).word w = .ok r ∧
    ({ line } : Reading).Keeps w r := by
  by_cases hp : line.program.isSome
  · obtain ⟨hsound, hne, hsettle⟩ := keeps_args hp [] w
    have hnone : ({ line, pending := .args [] } : Reading).settle = .ok line :=
      settle_args_eq_ok.2 ⟨[], rfl, by rw [List.append_nil]⟩
    rw [hnone] at hsettle
    exact ⟨_, word_behind hp w, hsound, hne, hsettle⟩
  · obtain hp := Option.not_isSome_iff_eq_none.1 hp
    exact ⟨_, word_first hp w, keeps_program hp w⟩

/-- A word is kept back, unless there is a mistake in the words before it. -/
theorem word_spec {r : Reading} (hr : r.Sound) (hne : r.pending ≠ .config none) (w : Raw) :
    (∃ r', r.word w = .ok r' ∧ r.Keeps w r') ∨ Mistaken r.settle ∧ Mistaken (r.word w) := by
  -- Arguments are kept back without a look; any other word settles what was there before.
  by_cases ha : ∃ us, r.pending = .args us
  · obtain ⟨us, ha⟩ := ha
    have hp := hr us ha
    obtain ⟨line, pending⟩ := r
    obtain rfl : pending = .args us := ha
    exact .inl ⟨_, rfl, keeps_args hp us w⟩
  · have ha (us : List Raw) : r.pending ≠ .args us := fun h => ha ⟨us, h⟩
    rcases settle_cases r with ⟨line, hline⟩ | hm
    · left
      rw [word_settled ha hline]
      obtain ⟨r', hr', hkeeps⟩ := keeps_nothing line w
      exact ⟨r', hr', hkeeps.1, hkeeps.2.1, by rw [hline]; exact hkeeps.2.2⟩
    · refine .inr ⟨hm, ?_⟩
      unfold word
      split
      · next hc => exact absurd hc hne
      · next us hus => exact absurd hus (ha us)
      · exact hm.bind _

/-- A word that is fine, read where nothing is kept back, can be added at once. -/
theorem finish_word {line : CommandLine} (s : String) (ws : List Raw) :
    (({ line } : Reading).word (Raw.ofString s) >>= (·.finish ws)) =
      ({ line := line.add s } : Reading).finish ws := by
  obtain ⟨r, hr, hsound, -, hsettle⟩ := keeps_nothing line (Raw.ofString s)
  rw [hr]
  exact finish_settled hsound ((hsettle _).2 ⟨line, s, rfl, rfl, rfl⟩) ws

/-- Only a word that is fine is read. -/
theorem exists_of_word {line c : CommandLine} {w : Raw} {ws : List Raw}
    (h : (({ line } : Reading).word w >>= (·.finish ws)) = .ok c) : ∃ s, w = Raw.ofString s := by
  obtain ⟨r, hr, -, hne, hsettle⟩ := keeps_nothing line w
  rw [hr] at h
  obtain ⟨line', hline'⟩ := exists_settled hne h
  obtain ⟨_, s, -, hs, -⟩ := (hsettle line').1 hline'
  exact ⟨s, hs⟩

/-! ### Behind the separator -/

/-- Words that are read one after another as they are make a command line if and only if what was
    kept back before can be settled and every one of them is fine. -/
theorem foldlM_word_eq_ok {r : Reading} (hr : r.Sound) (hne : r.pending ≠ .config none)
    {c : CommandLine} {ws : List Raw} : (ws.foldlM word r >>= settle) = .ok c ↔
      ∃ line, r.settle = .ok line ∧
        ∃ ss : List String, ws = ss.map Raw.ofString ∧ c = ss.foldl add line := by
  induction ws generalizing r with
  | nil => simp
  | cons w ws ih =>
    rw [List.foldlM_cons]
    rcases word_spec hr hne w with ⟨r', hr', hsound, hne', hsettle⟩ | ⟨hm, hw⟩
    · rw [hr', ok_bind, ih hsound hne']
      -- The word was kept back, and settling what is there now adds it to what was there before.
      simp only [hsettle]
      constructor
      · rintro ⟨_, ⟨line, s, hline, rfl, rfl⟩, ss, rfl, rfl⟩
        exact ⟨line, hline, s :: ss, rfl, rfl⟩
      · rintro ⟨line, hline, ss, hss, rfl⟩
        obtain ⟨s, ss, rfl, rfl, rfl⟩ := List.map_eq_cons_iff.1 hss.symm
        exact ⟨_, ⟨line, s, hline, rfl, rfl⟩, ss, rfl, rfl⟩
    · constructor
      · intro h
        exact absurd h (((hw.bind _).bind _).ne_ok c)
      · rintro ⟨line, hline, -⟩
        exact absurd hline (hm.ne_ok line)

/-- Behind the separator all words are read as they are. -/
theorem finish_separator {line c : CommandLine} {ws : List Raw} :
    ({ line } : Reading).finish (separator :: ws) = .ok c ↔
      ∃ ss : List String, ws = ss.map Raw.ofString ∧ c = ss.foldl add line := by
  have h : (ws.foldlM word ({ line } : Reading) >>= settle) = .ok c ↔ _ :=
    foldlM_word_eq_ok (sound_nothing line) nofun
  simp only [settle_nothing, Except.ok.injEq, exists_eq_left'] at h
  rw [finish, if_pos rfl, ← h]
  rfl

end Reading

/-! ### Effects of options

What the letters of a word do is done one after another, so their effect is a list of effects that
ends in one of the others.
-/

/-- What a word that is an option does, whatever was read before it. -/
inductive Effect where
  | wrong (s : Stop) (h : s.isRequest = false)
  | switch (o : Switch)
  | config (value : Raw)
  /-- a letter, and what the letters behind it do -/
  | letter (o : Switch) (ho : o ≠ .config) (e : Effect)

/-- The effect on a command line. It is a mistake or a request, sets something, or waits for a
    path. -/
def Effect.run : Effect → CommandLine → Except Stop Reading
  | .wrong s _, _ => .error s
  | .switch o, line => Reading.setSwitch line o
  | .config value, line => do return { line := ← Reading.setConfig line value }
  | .letter o _ e, line => do e.run (← Reading.setSwitch line o).line

namespace Reading

/-- An option by its name has an effect. -/
theorem longOption_effect (name : Raw) :
    ∃ e : Effect, ∀ line, ({ line } : Reading).longOption name = e.run line := by
  dsimp only [longOption]
  split
  · exact ⟨.wrong _ rfl, fun line => rfl⟩
  · next o _ _ => exact ⟨.switch o, fun line => rfl⟩
  · next o _ value _ _ =>
    cases o with
    | config => exact ⟨.config value, fun line => rfl⟩
    | _ => exact ⟨.wrong (.unneededValue (Raw.lossy value) _) rfl, fun line => rfl⟩

/-- Only the path of a configuration is waited for. -/
theorem eq_of_setSwitch {line : CommandLine} {o : Switch} (ho : o ≠ .config) {r : Reading}
    (h : setSwitch line o = .ok r) : r = { line := r.line } := by
  cases o with
  | config => exact absurd rfl ho
  | legacy =>
    simp only [setSwitch] at h
    split at h <;> cases h
    rfl
  | list =>
    simp only [setSwitch] at h
    split at h <;> cases h
    rfl
  | help => cases h
  | version => cases h

/-- Behind the letter for the path the rest of the word is the path. -/
theorem letters_value {c : Char} (ho : Switch.ofLetter? c = some .config) {g : Glyph}
    (hg : g ≠ .char '=') (r : Reading) (gs : Raw) :
    r.letters (.char c :: g :: gs) = r.attach (g :: gs) .config := by
  simp only [letters, ho]
  split
  · next he => cases he
  · next he => cases he; exact absurd rfl hg
  · rfl

/-- Letters have an effect, that of the first one followed by that of the others. The letter for the
    path takes the rest of the word as its value. -/
theorem letters_effect {gs : Raw} (hne : gs ≠ []) :
    ∃ e : Effect, ∀ line, ({ line } : Reading).letters gs = e.run line := by
  induction gs with
  | nil => exact absurd rfl hne
  | cons g gs ih =>
    cases g with
    | stray bytes => exact ⟨.wrong (.unknownArgument _) rfl, fun line => rfl⟩
    | char c =>
    cases ho : Switch.ofLetter? c with
    | none => exact ⟨.wrong (.unknownArgument _) rfl, fun line => by simp only [letters, ho]; rfl⟩
    | some o =>
    by_cases hc : o = .config
    · -- the rest of the word is the path, if there is one
      subst hc
      cases gs with
      | nil => exact ⟨.switch .config, fun line => by simp only [letters, ho]; rfl⟩
      | cons g value =>
        by_cases hg : g = .char '='
        · exact ⟨.config value, fun line => by simp only [letters, ho, hg]; rfl⟩
        · exact ⟨.config (g :: value), fun line => letters_value ho hg { line } value⟩
    · have hletters (line : CommandLine) : ({ line } : Reading).letters (.char c :: gs) =
          setSwitch line o >>= (·.letters gs) := by
        simp only [letters, ho]
        rfl
      by_cases hgs : gs = []
      · subst hgs
        refine ⟨.switch o, fun line => ?_⟩
        rw [hletters]
        show _ = setSwitch line o
        cases setSwitch line o <;> rfl
      · obtain ⟨e, he⟩ := ih hgs
        refine ⟨.letter o hc e, fun line => ?_⟩
        rw [hletters]
        cases hs : setSwitch line o with
        | error s => simp only [Effect.run, hs]; rfl
        | ok r =>
          simp only [Effect.run, hs, ok_bind]
          rw [eq_of_setSwitch hc hs, he]

/-- The word is an option with this effect, behind a program if one is `named`. -/
def TakenAs (named : Bool) (w : Raw) (e : Effect) : Prop :=
  ∀ line : CommandLine, line.program.isSome = named → ({ line } : Reading).take w = e.run line

/-- A word is read as it is, or it is an option with an effect. -/
theorem take_effect (named : Bool) (w : Raw) :
    TakenAsIs named w ∨ ∃ e : Effect, TakenAs named w e := by
  rcases take_shape named w with h | ⟨name, h⟩ | ⟨g, gs, h⟩
  · exact .inl h
  · obtain ⟨e, he⟩ := longOption_effect name
    exact .inr ⟨e, fun line _ => by rw [h, he]⟩
  · obtain ⟨e, he⟩ := letters_effect (List.cons_ne_nil g gs)
    exact .inr ⟨e, fun line hline => by rw [h { line } hline, he]⟩

end Reading

/-! ### Word by word -/

/-- The words make one command line of another: options, alone or with the word behind them as
    value, the program and its arguments. -/
inductive Reads : CommandLine → List Raw → CommandLine → Prop where
  | done {line : CommandLine} : Reads line [] line
  | separated {line : CommandLine} (ss : List String) :
    Reads line (separator :: ss.map Raw.ofString) (ss.foldl add line)
  | plain {line c : CommandLine} {s : String} {ws : List Raw}
    (hs : Reading.TakenAsIs line.program.isSome (Raw.ofString s)) (h : Reads (line.add s) ws c) :
    Reads line (Raw.ofString s :: ws) c
  | option {line line' c : CommandLine} {w : Raw} {e : Effect} {ws : List Raw}
    (hw : Reading.TakenAs line.program.isSome w e) (he : e.run line = .ok { line := line' })
    (h : Reads line' ws c) : Reads line (w :: ws) c
  | valued {line line' line'' c : CommandLine} {w v : Raw} {e : Effect} {ws : List Raw}
    (hw : Reading.TakenAs line.program.isSome w e)
    (he : e.run line = .ok { line := line', pending := .config none })
    (hv : Reading.TakenAsIs line'.program.isSome v)
    (hvalue : Reading.setConfig line' v = .ok line'') (h : Reads line'' ws c) :
    Reads line (w :: v :: ws) c

namespace Reading

/-- The separator is no option. -/
theorem mistaken_separator (r : Reading) : Mistaken (r.take separator) := mistaken_error rfl

/-- Unfolding lemma: a word that is not the separator is taken first. -/
theorem finish_cons {r : Reading} {w : Raw} (hw : w ≠ separator) (ws : List Raw) :
    r.finish (w :: ws) = (r.take w >>= (·.finish ws)) := by
  rw [finish, if_neg hw]

/-- An option leaves nothing behind, or waits for a path. -/
theorem pending_of_run {e : Effect} {line : CommandLine} {r : Reading} (h : e.run line = .ok r) :
    r = { line := r.line } ∨ r = { line := r.line, pending := .config none } := by
  induction e generalizing line with
  | wrong s hs => cases h
  | switch o =>
    by_cases ho : o = .config
    · subst ho
      cases h
      exact .inr rfl
    · exact .inl (eq_of_setSwitch ho h)
  | config value =>
    obtain ⟨line', -, h⟩ := exists_of_bind h
    cases h
    exact .inl rfl
  | letter o ho e ih =>
    obtain ⟨r', -, h⟩ := exists_of_bind h
    exact ih h

/-- A word that is taken is not the separator. -/
theorem ne_separator_of_take {r r' : Reading} {w : Raw} (h : r.take w = .ok r') :
    w ≠ separator := by
  rintro rfl
  exact (mistaken_separator r).ne_ok r' h

/-- An option that is fine leaves what its effect leaves. -/
theorem TakenAs.finish_cons {line : CommandLine} {w : Raw} {e : Effect} {r : Reading}
    (hw : TakenAs line.program.isSome w e) (he : e.run line = .ok r) (ws : List Raw) :
    ({ line } : Reading).finish (w :: ws) = r.finish ws := by
  have htake : ({ line } : Reading).take w = .ok r := (hw line rfl).trans he
  rw [Reading.finish_cons (ne_separator_of_take htake), htake, ok_bind]

/-- A word that is read as it is is not the separator. -/
theorem TakenAsIs.ne_separator {line : CommandLine} {w : Raw}
    (h : TakenAsIs line.program.isSome w) : w ≠ separator := by
  obtain ⟨r, hr, -⟩ := keeps_nothing line w
  exact ne_separator_of_take ((h { line } rfl).trans hr)

/-- The path that is waited for is the next word, if this is read as it is. -/
theorem finish_value {line line' : CommandLine} {v : Raw} (hv : TakenAsIs line.program.isSome v)
    (hvalue : setConfig line v = .ok line') (ws : List Raw) :
    ({ line, pending := .config none } : Reading).finish (v :: ws) =
      ({ line := line' } : Reading).finish ws := by
  rw [finish_cons hv.ne_separator, hv ⟨line, .config none⟩ rfl]
  exact finish_settled (sound_config line (some v)) hvalue ws

/-- It is a mistake if the next word cannot be the path. -/
theorem mistaken_value {line : CommandLine} {v : Raw} (hv : TakenAsIs line.program.isSome v)
    (hvalue : Mistaken (setConfig line v)) (ws : List Raw) :
    Mistaken (({ line, pending := .config none } : Reading).finish (v :: ws)) := by
  rw [finish_cons hv.ne_separator, hv ⟨line, .config none⟩ rfl]
  exact mistaken_finish (r := ⟨line, .config (some v)⟩) nofun hvalue ws

/-- If a path is waited for and the rest can be read, there is a next word, it is read as it is, and
    it can be the path. -/
theorem exists_of_finish_value {line c : CommandLine} {ws : List Raw}
    (h : ({ line, pending := .config none } : Reading).finish ws = .ok c) :
    ∃ v ws' line', ws = v :: ws' ∧ TakenAsIs line.program.isSome v ∧
      setConfig line v = .ok line' ∧ ({ line := line' } : Reading).finish ws' = .ok c := by
  -- The path is missing as long as no word is read as it is: everything else settles first.
  have hm : Mistaken ({ line, pending := .config none } : Reading).settle := mistaken_error rfl
  cases ws with
  | nil => cases h
  | cons v ws =>
  by_cases hv : v = separator
  · subst hv
    exact absurd h ((mistaken_finish_separator hm ws).ne_ok c)
  rcases take_shape line.program.isSome v with hplain | ⟨name, htake⟩ | ⟨g, gs, htake⟩
  · rcases setConfig_cases line v with ⟨line', hvalue⟩ | hvalue
    · exact ⟨v, ws, line', rfl, hplain, hvalue, finish_value hplain hvalue ws ▸ h⟩
    · exact absurd h ((mistaken_value hplain hvalue ws).ne_ok c)
  · rw [finish_cons hv, htake] at h
    exact absurd h (((mistaken_longOption hm name).bind _).ne_ok c)
  · rw [finish_cons hv, htake ⟨line, .config none⟩ rfl] at h
    exact absurd h (((mistaken_letters hm g gs).bind _).ne_ok c)

/-- A command line that can be read is told by `Reads`. The induction is on the number of words,
    since an option may take two of them. -/
theorem reads_of_finish {line c : CommandLine} {ws : List Raw}
    (h : ({ line } : Reading).finish ws = .ok c) : Reads line ws c := by
  induction hn : ws.length using Nat.strong_induction_on generalizing line ws with
  | _ n ih =>
  subst hn
  match ws with
  | [] => cases h; exact .done
  | w :: ws =>
  by_cases hw : w = separator
  · subst hw
    obtain ⟨ss, rfl, rfl⟩ := finish_separator.1 h
    exact .separated ss
  rw [finish_cons hw] at h
  rcases take_effect line.program.isSome w with hplain | ⟨e, hw⟩
  · rw [hplain _ rfl] at h
    obtain ⟨s, rfl⟩ := exists_of_word h
    rw [finish_word] at h
    exact .plain hplain (ih ws.length (by simp) h rfl)
  · rw [hw line rfl] at h
    obtain ⟨r, he, hr⟩ := exists_of_bind h
    -- The option is complete, or waits for its value, which is then the next word.
    rcases pending_of_run he with hp | hp
    · rw [hp] at he hr
      exact .option hw he (ih ws.length (by simp) hr rfl)
    · rw [hp] at he hr
      obtain ⟨v, ws, line', rfl, hv, hvalue, hrest⟩ := exists_of_finish_value hr
      have hlength : ws.length < (w :: v :: ws).length := by
        rw [List.length_cons, List.length_cons]
        omega
      exact .valued hw he hv hvalue (ih ws.length hlength hrest rfl)

/-- What `Reads` tells can be read, by induction over its steps. -/
theorem finish_of_reads {line c : CommandLine} {ws : List Raw} (h : Reads line ws c) :
    ({ line } : Reading).finish ws = .ok c := by
  induction h with
  | done => rfl
  | separated ss => exact finish_separator.2 ⟨ss, rfl, rfl⟩
  | plain hs _ ih => rw [finish_cons hs.ne_separator, hs _ rfl, finish_word, ih]
  | option hw he _ ih =>
    rw [hw.finish_cons he]
    exact ih
  | valued hw he hv hvalue _ ih => rw [hw.finish_cons he, finish_value hv hvalue, ih]

/-- **Word by word.** A command line can be read if and only if `Reads` makes it of its words. -/
theorem finish_eq_ok {line c : CommandLine} {ws : List Raw} :
    ({ line } : Reading).finish ws = .ok c ↔ Reads line ws c := ⟨reads_of_finish, finish_of_reads⟩

/-! ### Up to a word in the middle

What is in front of a word can be read by itself, if there is no separator in it.
-/

/-- What comes before the separator is taken word by word. -/
theorem finish_append {us : List Raw} (hus : separator ∉ us) (vs : List Raw) (r : Reading) :
    r.finish (us ++ vs) = (us.foldlM take r >>= (·.finish vs)) := by
  induction us generalizing r with
  | nil => rfl
  | cons u us ih =>
    rw [List.mem_cons, not_or] at hus
    rw [List.cons_append, finish_cons (Ne.symm hus.1), List.foldlM_cons]
    cases r.take u with
    | error s => rfl
    | ok r => exact ih hus.2 r

/-- An effect keeps nothing back but the option for the path. -/
theorem sound_of_run {e : Effect} {line : CommandLine} {r : Reading} (h : e.run line = .ok r) :
    r.Sound := by
  rcases pending_of_run h with hp | hp
  · rw [hp]
    exact sound_nothing _
  · rw [hp]
    exact sound_config _ _

/-- Where only what is settled counts, nothing is left but what an effect leaves. -/
theorem sound_of_effect {r r' : Reading} {f : Reading → Except Stop Reading} {e : Effect}
    (hcongr : ∀ line, r.settle = ({ line } : Reading).settle → f r = f { line })
    (heffect : ∀ line, f { line } = e.run line) (hm : Mistaken r.settle → Mistaken (f r))
    (h : f r = .ok r') : r'.Sound := by
  rcases settle_cases r with ⟨line, hline⟩ | hs
  · rw [hcongr line hline, heffect] at h
    exact sound_of_run h
  · exact absurd h ((hm hs).ne_ok r')

/-- A word taken keeps a reading sound. -/
theorem sound_take {r r' : Reading} (hr : r.Sound) {w : Raw} (h : r.take w = .ok r') :
    r'.Sound := by
  rcases take_shape r.hasProgram w with hw | ⟨name, hw⟩ | ⟨g, gs, hw⟩
  · rw [hw r rfl] at h
    -- the word is the path, if one is waited for, and otherwise it is kept back
    by_cases hc : r.pending = .config none
    · rw [word, hc] at h
      cases h
      exact sound_config _ _
    · rcases word_spec hr hc w with ⟨r₁, hr₁, hkeeps⟩ | ⟨-, hm⟩
      · cases hr₁.symm.trans h
        exact hkeeps.1
      · exact absurd h (hm.ne_ok r')
  · rw [hw] at h
    obtain ⟨e, he⟩ := longOption_effect name
    exact sound_of_effect (f := (·.longOption name)) (fun _ hs => longOption_congr hs name) he
      (fun hm => mistaken_longOption hm name) h
  · rw [hw r rfl] at h
    obtain ⟨e, he⟩ := letters_effect (List.cons_ne_nil g gs)
    exact sound_of_effect (f := (·.letters (g :: gs))) (fun _ hs => letters_congr hs g gs) he
      (fun hm => mistaken_letters hm g gs) h

/-- Words taken in turn keep a reading sound. -/
theorem sound_foldlM {us : List Raw} {r r' : Reading} (hr : r.Sound)
    (h : us.foldlM take r = .ok r') : r'.Sound := by
  induction us generalizing r with
  | nil => cases h; exact hr
  | cons u us ih =>
    rw [List.foldlM_cons] at h
    obtain ⟨r₁, hr₁, h⟩ := exists_of_bind h
    exact ih (sound_take hr hr₁) h

end Reading

end StackMachine.CommandLine
