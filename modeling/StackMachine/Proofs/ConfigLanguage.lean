import StackMachine.Proofs.ConfigScan

namespace StackMachine

open Json

/-!
# The language of configurations

A configuration is read from the texts of the language `ConfigText` and from no others. In an object
a comma only ever stands between two members, so the members can be shuffled as texts.

* `Config.read_eq_ok` — reading succeeds on the texts of the language and gives what they say.
* `Json.Items.perm` — items without commas in them, shuffled.
* `Config.read_perm` — the order of the members of an object does not matter.
* `Config.read_exactly` — both together.
-/

/-- Nothing but white space may be left. -/
theorem Json.scanEnd_eq_ok {cs : List Char} : scanEnd cs = .ok () ↔ Blank cs := by
  rw [← skipSpace_eq_nil]
  unfold scanEnd
  split
  · next hs => simp [hs]
  · next hs => simpa using hs

/-- A whole text is read where its front is scanned and the rest is white space. -/
theorem Json.readWhole_eq_ok {α : Type} {scan : List Char → Except Stop (α × List Char)}
    {t : String} {a : α} :
    readWhole scan t = .ok a ↔ ∃ rest, scan t.toList = .ok (a, rest) ∧ Blank rest := by
  have hmap {x : Except Stop α} : x.mapError (·.locate t.toList) = .ok a ↔ x = .ok a := by
    cases x <;> simp [Except.mapError]
  rw [readWhole, hmap, bind_eq_ok]
  constructor
  · rintro ⟨⟨_, rest⟩, hscan, h⟩
    obtain ⟨_, hend, h⟩ := bind_eq_ok.1 h
    cases h
    exact ⟨rest, hscan, scanEnd_eq_ok.1 hend⟩
  · rintro ⟨rest, hscan, hrest⟩
    exact ⟨_, hscan, bind_eq_ok.2 ⟨(), scanEnd_eq_ok.2 hrest, rfl⟩⟩

namespace Config

/-- A configuration is scanned where a text of it (`BodyText`) stands behind white space. -/
theorem scan_eq_ok {cs rest : List Char} {c : Config} :
    scan cs = .ok (c, rest) ↔ ∃ w u, Blank w ∧ BodyText u c ∧ cs = w ++ (u ++ rest) := by
  rw [scan, map_eq_ok]
  constructor
  · -- A draft says which fields were given; it belongs to one configuration (`Filled.holds_iff`).
    rintro ⟨⟨d, _⟩, h, he⟩
    obtain ⟨rfl, rfl⟩ := Prod.mk.inj he
    split at h
    · next hs =>
      obtain ⟨-, w, hw, rfl⟩ := skipSpace_eq_cons.1 hs
      obtain ⟨u, fs, hu, rfl, hd⟩ := scanMembers_eq_ok.1 h
      have hkeys := Draft.exists_filled_empty.1 ⟨d, hd⟩
      exact ⟨w, _, hw, .object hu hkeys (hd.holds_iff.2 rfl), by simp⟩
    · next hs =>
      obtain ⟨-, w, hw, rfl⟩ := skipSpace_eq_cons.1 hs
      obtain ⟨u, fs, hu, hkeys, rfl, hd⟩ := scanElements_eq_ok.1 h
      exact ⟨w, _, hw, .list hu hkeys (hd.holds_iff.2 rfl), by simp⟩
    · cases h
  · rintro ⟨w, _, hw, hu, rfl⟩
    cases hu with
    | @object u fs _ hu hkeys hc =>
      obtain ⟨d, hd⟩ := Draft.exists_filled_empty.2 hkeys
      obtain rfl := hd.holds_iff.1 hc
      refine ⟨(d, rest), ?_, rfl⟩
      rw [List.cons_append, skipSpace_eq_cons.2 ⟨by decide, w, hw, rfl⟩]
      exact scanMembers_eq_ok.2 ⟨u, fs, hu, by simp, hd⟩
    | @list u fs _ hu hkeys hc =>
      -- the keys of a list are the first of two that differ
      have hnodup : (fs.map Field.key).Nodup := hkeys.sublist.nodup (by simp [key_ne])
      obtain ⟨d, hd⟩ := Draft.exists_filled_empty.2 hnodup
      obtain rfl := hd.holds_iff.1 hc
      refine ⟨(d, rest), ?_, rfl⟩
      rw [List.cons_append, skipSpace_eq_cons.2 ⟨by decide, w, hw, rfl⟩]
      exact scanElements_eq_ok.2 ⟨u, fs, hu, hkeys, by simp, hd⟩

/-- **Reading is the language.** Reading succeeds on configuration texts (`ConfigText`), with the
    configurations that they say. -/
theorem read_eq_ok {t : String} {c : Config} : read t = .ok c ↔ ConfigText t.toList c := by
  rw [read, readWhole_eq_ok]
  constructor
  · rintro ⟨rest, hscan, hrest⟩
    obtain ⟨w, u, hw, hu, he⟩ := scan_eq_ok.1 hscan
    rw [ConfigText, he]
    exact .intro hw hu hrest
  · intro h
    rw [ConfigText] at h
    generalize t.toList = cs at h
    cases h with
    | intro hw hu hw' => exact ⟨_, scan_eq_ok.2 ⟨_, _, hw, hu, rfl⟩, hw'⟩

end Config

/-! ### Commas

A comma in the text of an object is always one between two members. So the text by itself tells the
members apart, however it was put together. -/

namespace Json

/-- A comma is no white space. -/
theorem Blank.not_mem_comma {w : List Char} (hw : Blank w) : ',' ∉ w :=
  fun h => absurd (hw ',' h) (by decide)

/-- A comma is no hexadecimal digit. -/
theorem Hex4.not_mem_comma {ds : List Char} {n : Nat} (h : Hex4 ds n) : ',' ∉ ds := by
  have hne : ∀ v < 16, v.digitChar ≠ ',' ∧ v.digitChar.toUpper ≠ ',' := by decide
  have hdigit {c : Char} {v : Nat} (hc : HexDigit c v) : ',' ≠ c := by
    rcases hc with ⟨hv, rfl | rfl⟩
    · exact (hne v hv).1.symm
    · exact (hne v hv).2.symm
  cases h with
  | intro ha hb hc hd => simp [hdigit ha, hdigit hb, hdigit hc, hdigit hd]

/-- No escape is written with a comma. -/
theorem Escape.not_mem_comma {raw : List Char} {c : Char} (h : Escape raw c) : ',' ∉ raw := by
  cases h with
  | @letter e _ h =>
    have hall : ∀ p ∈ letterEscapes, ',' ≠ p.1 := by decide
    simpa using hall _ h
  | unit h => simpa using h.not_mem_comma
  | pair hh hl => simpa using ⟨hh.not_mem_comma, hl.not_mem_comma⟩

/-- A string written with a comma stands for a text with one. -/
theorem StringBody.not_mem_comma {text cs : List Char} (h : StringBody text cs) (hc : ',' ∉ cs) :
    ',' ∉ text := by
  induction h with
  | nil => exact hc
  | plain _ _ _ _ ih =>
    rw [List.mem_cons, not_or] at hc ⊢
    exact ⟨hc.1, ih hc.2⟩
  | escape hraw _ ih =>
    rw [List.mem_cons, not_or] at hc
    simpa using ⟨hraw.not_mem_comma, ih hc.2⟩

theorem StringToken.not_mem_comma {v : List Char} {s : String} (h : StringToken v s)
    (hs : ',' ∉ s.toList) : ',' ∉ v := by
  cases h with
  | intro h => simpa using h.not_mem_comma hs

/-- A number is written in digits. -/
theorem Whole.not_mem_comma {v : List Char} {n : Nat} (h : Whole v n) : ',' ∉ v :=
  fun hc => absurd (h.all_digits ',' hc) (by decide)

theorem Padded.not_mem_comma {α : Type} {P : List Char → α → Prop} {u : List Char} {a : α}
    (h : Padded P u a) (hP : ∀ u, P u a → ',' ∉ u) : ',' ∉ u := by
  cases h with
  | intro hw h hw' => simpa using ⟨hw.not_mem_comma, hP _ h, hw'.not_mem_comma⟩

/-- A member has no comma if its key and its value have none. -/
theorem Member.not_mem_comma {Value : List Char → Prop} {u : List Char} {key : String}
    (h : Member Value u key) (hkey : ',' ∉ key.toList) (hv : ∀ v, Value v → ',' ∉ v) : ',' ∉ u := by
  cases h with
  | intro hk hw hw' h =>
    simpa using ⟨hk.not_mem_comma hkey, hw.not_mem_comma, hw'.not_mem_comma, hv _ h⟩

end Json

/-- The text of a policy has no comma, whichever way it is written. -/
theorem PolicyText.not_mem_comma {v : List Char} {p : Policy} (h : PolicyText v p) : ',' ∉ v := by
  have hword : ',' ∉ p.word.toList := by cases p <;> decide
  cases h with
  | word h => exact h.not_mem_comma hword
  | object h =>
    have hnull (v : List Char) (hv : IsNull v) : ',' ∉ v := by
      obtain rfl := hv
      decide
    simpa using h.not_mem_comma fun _ h => h.not_mem_comma hword hnull

/-- **No commas in members.** A field of a configuration is written without a comma, in whatever way
    it is written. -/
theorem Config.MemberText.not_mem_comma {u : List Char} {f : Config.Field}
    (h : Config.MemberText u f) : ',' ∉ u := by
  have hkey : ',' ∉ f.key.toList := by
    cases f with
    | policy p => exact (by decide : ',' ∉ Config.policyKey.toList)
    | capacity n => exact (by decide : ',' ∉ Config.capacityKey.toList)
  refine Member.not_mem_comma h hkey fun v hv => ?_
  cases hv with
  | policy hv => exact hv.not_mem_comma
  | capacity hv => exact hv.not_mem_comma

/-! ### Shuffled members

A text without commas is one piece between commas. So the members can be read off the text of an
object, and shuffling texts is shuffling members.
-/

namespace Json

/-- A text without a comma is one piece. -/
theorem splitOn_of_not_mem {u : List Char} (hu : ',' ∉ u) : u.splitOn ',' = [u] := by
  have hall : ∀ v ∈ [u], ',' ∉ v := by simpa using hu
  simpa using List.splitOn_intercalate ',' hall (by simp)

/-- The pieces of a text between commas are the pieces of the texts that it was joined of. -/
theorem splitOn_intercalate_eq {us : List (List Char)} (hne : us ≠ []) :
    ([','].intercalate us).splitOn ',' = us.flatMap (·.splitOn ',') := by
  induction us with
  | nil => exact absurd rfl hne
  | cons u us ih =>
    cases us with
    | nil => simp
    | cons v us =>
      rw [List.intercalate_cons_cons, List.append_assoc, List.flatMap_cons, ← ih (by simp)]
      exact List.splitOnP_append_cons _ _ (by simp)

/-- Texts can be cut into their pieces before they are joined. -/
theorem intercalate_pieces {us : List (List Char)} (hne : us ≠ []) :
    [','].intercalate (us.flatMap (·.splitOn ',')) = [','].intercalate us := by
  rw [← splitOn_intercalate_eq hne, List.intercalate_splitOn]

/-- Items without commas in them can be shuffled with the text that is between the commas. -/
theorem Items.perm {α : Type} {P : List Char → α → Prop}
    (hP : ∀ u a, Padded P u a → ',' ∉ u) {us us' : List (List Char)} (hus : us.Perm us')
    {as : List α} (h : Items P ([','].intercalate us) as) :
    ∃ as', as.Perm as' ∧ Items P ([','].intercalate us') as' := by
  by_cases hne : us = []
  · subst hne
    obtain rfl := hus.nil_eq
    exact ⟨as, .refl as, h⟩
  have hne' : us' ≠ [] := fun he => hne (by rw [he] at hus; exact hus.eq_nil)
  -- cut at every comma, both texts have the same pieces up to their order
  have hpieces : (us'.flatMap (·.splitOn ',')).Perm (([','].intercalate us).splitOn ',') := by
    rw [splitOn_intercalate_eq hne]
    exact (hus.flatMap_right _).symm
  rw [← intercalate_pieces hne']
  generalize [','].intercalate us = t at h hpieces
  cases h with
  | none hw =>
    -- a blank text is one piece, and stays the only one
    rw [splitOn_of_not_mem hw.not_mem_comma] at hpieces
    rw [hpieces.eq_singleton]
    exact ⟨[], .refl _, by simpa using Items.none hw⟩
  | @some vs _ hvs h =>
    obtain ⟨hcomma, -⟩ := (List.forall₂_and_left _ _).1 (h.imp fun u a hu => ⟨hP u a hu, hu⟩)
    rw [List.splitOn_intercalate ',' hcomma hvs] at hpieces
    obtain ⟨as', has', hperm⟩ := List.perm_comp_forall₂ hpieces h
    refine ⟨as', hperm.symm, .some ?_ has'⟩
    intro he
    rw [he] at hpieces
    exact hvs hpieces.nil_eq.symm

/-- White space around a text that begins and ends with something else leaves the text as it is. -/
theorem eq_of_padded {w w' v v' b b' : List Char} {o o' e e' : Char} (hw : Blank w)
    (hw' : Blank w') (hv : Blank v) (hv' : Blank v') (ho : ¬ isSpace o) (ho' : ¬ isSpace o')
    (he : ¬ isSpace e) (he' : ¬ isSpace e')
    (h : w ++ (o :: (b ++ [e]) ++ w') = v ++ (o' :: (b' ++ [e']) ++ v')) :
    o :: (b ++ [e]) = o' :: (b' ++ [e']) := by
  have hreverse {x : List Char} (hx : Blank x) : Blank x.reverse :=
    fun c hc => hx c (List.mem_reverse.1 hc)
  have hfront : o :: (b ++ [e]) ++ w' = o' :: (b' ++ [e']) ++ v' := by
    have hs := congrArg skipSpace h
    rwa [skipSpace_append hw, skipSpace_append hv, List.cons_append, List.cons_append,
      skipSpace_cons ho, skipSpace_cons ho'] at hs
  -- what is left ends in white space, so it is taken off the reversed text
  have hback := congrArg (fun x => skipSpace x.reverse) hfront
  simp only [List.reverse_append, List.reverse_cons, List.reverse_nil, List.nil_append] at hback
  rw [skipSpace_append (hreverse hw'), skipSpace_append (hreverse hv')] at hback
  simp only [List.cons_append, skipSpace_cons he, skipSpace_cons he', List.nil_append] at hback
  have hreversed := congrArg List.reverse hback
  simpa using hreversed

end Json

namespace Config

/-- An object of these members, with white space around it. -/
def objectText (w : List Char) (us : List (List Char)) (w' : List Char) : String :=
  String.ofList (w ++ ('{' :: ([','].intercalate us ++ ['}']) ++ w'))

/-- An object is read if its members are fields, no key twice, and then as what these say. -/
theorem read_objectText {w w' : List Char} (hw : Blank w) (hw' : Blank w')
    (us : List (List Char)) (c : Config) :
    read (objectText w us w') = .ok c ↔
      ∃ fs, Items MemberText ([','].intercalate us) fs ∧ (fs.map Field.key).Nodup ∧ c.Holds fs := by
  rw [read_eq_ok, objectText, String.toList_ofList, ConfigText]
  constructor
  · -- The text is opened in two ways. Its white space is the same in both, and so is the brace.
    generalize hcs : w ++ _ = cs
    intro h
    cases h with
    | intro hv hu hv' =>
      cases hu with
      | object h hkeys hc =>
        have he := eq_of_padded hw hw' hv hv' (by decide) (by decide) (by decide) (by decide) hcs
        obtain rfl := (List.append_left_inj _).1 (List.cons.inj he).2
        exact ⟨_, h, hkeys, hc⟩
      | list h hkeys hc =>
        have he := eq_of_padded hw hw' hv hv' (by decide) (by decide) (by decide) (by decide) hcs
        cases he
  · rintro ⟨fs, h, hkeys, hc⟩
    exact .intro hw (.object h hkeys hc) hw'

/-- What a configuration holds does not depend on the order. -/
theorem Holds.perm {c : Config} {fs fs' : List Field} (h : c.Holds fs) (hfs : fs.Perm fs') :
    c.Holds fs' where
  policy p hp := h.policy p (hfs.mem_iff.2 hp)
  no_policy hn := h.no_policy fun p hp => hn p (hfs.mem_iff.1 hp)
  capacity n hn := h.capacity n (hfs.mem_iff.2 hn)
  no_capacity hn := h.no_capacity fun n hc => hn n (hfs.mem_iff.1 hc)

/-- Members that are shuffled, in the text of an object, are read as the same configuration. -/
theorem read_perm {w w' : List Char} (hw : Blank w) (hw' : Blank w') {us us' : List (List Char)}
    (hus : us.Perm us') {c : Config} (h : read (objectText w us w') = .ok c) :
    read (objectText w us' w') = .ok c := by
  obtain ⟨fs, hitems, hkeys, hc⟩ := (read_objectText hw hw' us c).1 h
  have hcomma (u : List Char) (f : Field) (hu : Padded MemberText u f) : ',' ∉ u :=
    hu.not_mem_comma fun _ hu => MemberText.not_mem_comma hu
  obtain ⟨fs', hfs, hitems'⟩ := hitems.perm hcomma hus
  have hkeys' : (fs'.map Field.key).Nodup := (hfs.map Field.key).nodup_iff.1 hkeys
  exact (read_objectText hw hw' us' c).2 ⟨fs', hitems', hkeys', hc.perm hfs⟩

/-- **Language of configurations.** A text reads as a configuration just if it is a configuration
    text of it (`ConfigText`): an object of fields, no key twice, or a list of the first fields,
    with what is absent at its default. Whatever the members of an object are, shuffling them
    changes nothing. -/
theorem read_exactly :
    (∀ t c, read t = .ok c ↔ ConfigText t.toList c) ∧
    ∀ w w' us us', Blank w → Blank w' → us.Perm us' →
      ∀ c, read (objectText w us w') = .ok c ↔ read (objectText w us' w') = .ok c := by
  refine ⟨fun t c => read_eq_ok, fun w w' us us' hw hw' hus c => ?_⟩
  constructor
  · exact read_perm hw hw' hus
  · exact read_perm hw hw' hus.symm

/-- A policy whose key has an escape and whose value is an object, and a capacity, in either
    order. -/
theorem read_shuffled :
    read (objectText [] ["\"unknown\\u005Fsyscall\":\x7b\"ignore\": null\x7d\n".toList,
      " \"initial_stack_capacity\" :1024".toList] []) = .ok ⟨.ignore, 1024⟩ ∧
    read (objectText [] [" \"initial_stack_capacity\" :1024".toList,
      "\"unknown\\u005Fsyscall\":\x7b\"ignore\": null\x7d\n".toList] []) =
        .ok ⟨.ignore, 1024⟩ := by
  have hread : read (objectText [] ["\"unknown\\u005Fsyscall\":\x7b\"ignore\": null\x7d\n".toList,
      " \"initial_stack_capacity\" :1024".toList] []) = .ok ⟨.ignore, 1024⟩ := by
    decide +kernel
  exact ⟨hread, (read_exactly.2 [] [] _ _ nofun nofun (.swap _ _ []) _).1 hread⟩

end Config

end StackMachine
