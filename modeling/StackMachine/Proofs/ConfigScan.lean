import StackMachine.Proofs.ConfigText

namespace StackMachine

open Json

/-!
# Objects and lists in configuration texts

A text of items is read from the left, in one of two states: in front of the first item, or behind
an item. `Json.Joined` says what may still come in each state, and the scanners of objects and lists
are followed along it.

Both scanners are shown to take exactly the texts of the language, so every lemma about a step of
theirs is an equivalence. Read forwards it says what was taken, and backwards that nothing stops the
scanner.

* `Json.Joined`, `joined_true` — the items that are still to come, and all of them.
* `Config.Draft.Filled`, `Filled.holds_iff` — drafts that fields were filled into.
* `scanMembers_eq_ok`, `scanElements_eq_ok` — the scanners of objects and lists.
-/

namespace Json

/-! ### Items that are still to come

`Joined` is inductive along the items, as the scanners are recursive along them, whereas `Items`
joins a list of texts at once. The two agree by `joined_true`.
-/

/-- What stands before an item: a comma, unless it is the first one, and white space. -/
inductive Lead : (isFirst : Bool) → List Char → Prop where
  | first {w : List Char} (hw : Blank w) : Lead true w
  | next {w w' : List Char} (hw : Blank w) (hw' : Blank w') : Lead false (w ++ ',' :: w')

/-- Items of `P` that are still to come, in front of the first one or behind one. -/
inductive Joined {α : Type} (P : List Char → α → Prop) :
    (isFirst : Bool) → List Char → List α → Prop where
  | done {isFirst : Bool} {w : List Char} (hw : Blank w) : Joined P isFirst w []
  | item {isFirst : Bool} {l u t : List Char} {a : α} {as : List α} (hl : Lead isFirst l)
    (hu : P u a) (ht : Joined P false t as) : Joined P isFirst (l ++ (u ++ t)) (a :: as)

/-- White space in a row is white space. -/
theorem Blank.append {w w' : List Char} (hw : Blank w) (hw' : Blank w') : Blank (w ++ w') := by
  intro c hc
  rcases List.mem_append.1 hc with hc | hc
  · exact hw c hc
  · exact hw' c hc

/-- White space may follow in front of the item. -/
theorem Lead.append {isFirst : Bool} {l w : List Char} (hl : Lead isFirst l) (hw : Blank w) :
    Lead isFirst (l ++ w) := by
  cases hl with
  | first hw₁ => exact .first (hw₁.append hw)
  | next hw₁ hw₂ =>
    rw [List.append_assoc, List.cons_append]
    exact .next hw₁ (hw₂.append hw)

/-- In front of the first item the scanner passes over a lead. -/
theorem exists_lead_first (cs : List Char) : ∃ l, Lead true l ∧ cs = l ++ skipSpace cs := by
  obtain ⟨w, hw, he⟩ := exists_blank_append cs
  exact ⟨w, .first hw, he⟩

/-- The white space behind a comma is the rest of a `Lead` for an item that is not the first. -/
theorem exists_lead_next {cs rest : List Char} (h : skipSpace cs = ',' :: rest) :
    ∃ l, Lead false l ∧ cs = l ++ skipSpace rest := by
  obtain ⟨-, w, hw, rfl⟩ := skipSpace_eq_cons.1 h
  obtain ⟨w', hw', he⟩ := exists_blank_append rest
  exact ⟨w ++ ',' :: w', .next hw hw', by rw [List.append_assoc, List.cons_append, ← he]⟩

/-- A lead of the first item is passed over. -/
theorem Lead.skipSpace_first {l : List Char} (h : Lead true l) (cs : List Char) :
    skipSpace (l ++ cs) = skipSpace cs := by
  cases h with
  | first hw => exact skipSpace_append hw cs

/-- A lead of a further item is passed over in two steps, up to its comma and from there on. -/
theorem Lead.skipSpace_next {l : List Char} (h : Lead false l) (cs : List Char) :
    ∃ cs', skipSpace (l ++ cs) = ',' :: cs' ∧ skipSpace cs' = skipSpace cs := by
  cases h with
  | @next w w' hw hw' =>
    have hcomma : skipSpace (w ++ ',' :: w' ++ cs) = ',' :: (w' ++ cs) :=
      skipSpace_eq_cons.2 ⟨by decide, w, hw, by simp⟩
    exact ⟨w' ++ cs, hcomma, skipSpace_append hw' cs⟩

/-- Items with commas between them are the first one, and a comma in front of each further one. -/
theorem intercalate_cons (u : List Char) (us : List (List Char)) :
    [','].intercalate (u :: us) = u ++ us.flatMap (',' :: ·) := by
  induction us generalizing u with
  | nil => simp [List.intercalate]
  | cons v us ih => rw [List.intercalate_cons_cons, ih, List.flatMap_cons]; simp

section

variable {α : Type} {P : List Char → α → Prop}

/-- Behind an item there is white space, and then each further item behind its comma. -/
theorem joined_false {t : List Char} {as : List α} :
    Joined P false t as ↔
      ∃ w us, Blank w ∧ List.Forall₂ (Padded P) us as ∧ t = w ++ us.flatMap (',' :: ·) := by
  constructor
  · intro h
    generalize hb : false = isFirst at h
    induction h with
    | @done _ w hw => exact ⟨w, [], hw, .nil, by simp⟩
    | item hl hu _ ih =>
      subst hb
      obtain ⟨w₁, us, hw₁, hus, rfl⟩ := ih rfl
      cases hl with
      | next hw hw' => exact ⟨_, _ :: us, hw, .cons (.intro hw' hu hw₁) hus, by simp⟩
  · rintro ⟨w, us, hw, hus, rfl⟩
    -- the white space at the end of an item goes with the comma that comes next
    induction hus generalizing w with
    | nil => simpa using .done hw
    | @cons u a us as hu _ ih =>
      cases hu with
      | @intro w₁ u w₂ _ hw₁ hu hw₂ =>
        have h : Joined P false
            ((w ++ ',' :: w₁) ++ (u ++ (w₂ ++ us.flatMap (',' :: ·)))) (a :: as) :=
          .item (.next hw hw₁) hu (ih w₂ hw₂)
        simpa using h

/-- In front of the first item, all items are still to come: `Joined` is `Items`, read from the
    left. -/
theorem joined_true {t : List Char} {as : List α} : Joined P true t as ↔ Items P t as := by
  constructor
  · intro h
    cases h with
    | done hw => exact .none hw
    | item hl hu ht =>
      -- the white space behind an item belongs to it in `Items`, and to what is still to come in
      -- `Joined`
      obtain ⟨w, us, hw, hus, rfl⟩ := joined_false.1 ht
      cases hl with
      | @first w₁ hw₁ =>
        have h := Items.some (List.cons_ne_nil _ us) (.cons (.intro hw₁ hu hw) hus)
        rw [intercalate_cons] at h
        simpa using h
  · intro h
    cases h with
    | none hw => exact .done hw
    | @some us _ hne hus =>
      cases hus with
      | nil => exact absurd rfl hne
      | @cons _ a us as hu hus =>
        cases hu with
        | @intro w u w' _ hw hu hw' =>
          have h : Joined P true (w ++ (u ++ (w' ++ us.flatMap (',' :: ·)))) (a :: as) :=
            .item (.first hw) hu (joined_false.2 ⟨w', us, hw', hus, rfl⟩)
          rw [intercalate_cons]
          simpa using h

/-- The first of the items that are still to come, with its lead and those behind it. -/
theorem Joined.exists_of_cons {isFirst : Bool} {t : List Char} {a : α} {as : List α}
    (h : Joined P isFirst t (a :: as)) :
    ∃ l u t', Lead isFirst l ∧ P u a ∧ Joined P false t' as ∧ t = l ++ (u ++ t') := by
  cases h with
  | item hl hu ht => exact ⟨_, _, _, hl, hu, ht, rfl⟩

/-- Behind an item, nothing of a number can stand before the closing bracket. -/
theorem Joined.numberEnds {t rest : List Char} {as : List α} {c : Char} (h : Joined P false t as)
    (hc : NumberEnds (c :: rest)) : NumberEnds (t ++ c :: rest) := by
  obtain ⟨w, us, hw, -, rfl⟩ := joined_false.1 h
  cases w with
  | cons d w =>
    rcases hw d (by simp) with rfl | rfl | rfl | rfl <;>
      exact ⟨by decide, by decide, by decide, by decide⟩
  | nil =>
    cases us with
    | nil => simpa using hc
    | cons u us => exact ⟨by decide, by decide, by decide, by decide⟩

end

end Json

namespace Config

/-! ### Drafts

The scanner of an object fills a draft, whatever the order of the fields; a key that is there twice
finds its field filled. A draft that was filled belongs to one configuration.
-/

/-- The two fields have different keys. -/
theorem key_ne : policyKey ≠ capacityKey := by decide

namespace Draft

/-- The draft with a field filled in. -/
def put (d : Draft) : Field → Draft
  | .policy p => { d with policy? := some p }
  | .capacity n => { d with capacity? := some n }

/-- The draft holds the field with this value. -/
def Has (d : Draft) : Field → Prop
  | .policy p => d.policy? = some p
  | .capacity n => d.capacity? = some n

/-- The draft has nothing for the field. -/
def Lacks (d : Draft) : Field → Prop
  | .policy _ => d.policy? = none
  | .capacity _ => d.capacity? = none

/-- What a draft holds after a field that it lacked was filled in. -/
theorem has_put {d : Draft} {f g : Field} (hf : d.Lacks f) : (d.put f).Has g ↔ d.Has g ∨ g = f := by
  cases f <;> cases g <;> simp_all [put, Has, Lacks, eq_comm]

/-- What it lacks then: what it lacked, but for the field's key. -/
theorem lacks_put {d : Draft} {f g : Field} : (d.put f).Lacks g ↔ d.Lacks g ∧ g.key ≠ f.key := by
  cases f <;> cases g <;> simp [put, Lacks, Field.key, policyKey, capacityKey]

/-- A draft that fields were filled into, each of which it lacked. -/
inductive Filled : Draft → List Field → Draft → Prop where
  | nil {d : Draft} : Filled d [] d
  | cons {d d' : Draft} {f : Field} {fs : List Field} (hf : d.Lacks f)
    (h : Filled (d.put f) fs d') : Filled d (f :: fs) d'

/-- A draft that was filled holds what it held, and the fields. -/
theorem Filled.has_iff {d d' : Draft} {fs : List Field} (h : Filled d fs d') (g : Field) :
    d'.Has g ↔ d.Has g ∨ g ∈ fs := by
  induction h with
  | nil => simp
  | cons hf _ ih => rw [ih, has_put hf, List.mem_cons, or_assoc]

/-- Fields can be filled in if no key comes twice and the draft lacks all of them. -/
theorem exists_filled {d : Draft} {fs : List Field} :
    (∃ d', Filled d fs d') ↔ (fs.map Field.key).Nodup ∧ ∀ f ∈ fs, d.Lacks f := by
  induction fs generalizing d with
  | nil => simpa using ⟨d, .nil⟩
  | cons f fs ih =>
    have hcons : (∃ d', Filled d (f :: fs) d') ↔ d.Lacks f ∧ ∃ d', Filled (d.put f) fs d' :=
      ⟨fun ⟨d', .cons hf h⟩ => ⟨hf, d', h⟩, fun ⟨hf, d', h⟩ => ⟨d', .cons hf h⟩⟩
    rw [hcons, ih]
    simp only [lacks_put, List.map_cons, List.nodup_cons, List.mem_map, List.forall_mem_cons]
    constructor
    · rintro ⟨hf, hkeys, hfs⟩
      exact ⟨⟨fun ⟨g, hg, he⟩ => (hfs g hg).2 he, hkeys⟩, hf, fun g hg => (hfs g hg).1⟩
    · rintro ⟨⟨hne, hkeys⟩, hf, hfs⟩
      exact ⟨hf, hkeys, fun g hg => ⟨hfs g hg, fun he => hne ⟨g, hg, he⟩⟩⟩

/-- The empty draft lacks them all, so only the keys count. -/
theorem exists_filled_empty {fs : List Field} :
    (∃ d', Filled {} fs d') ↔ (fs.map Field.key).Nodup := by
  have hempty : ∀ f ∈ fs, ({} : Draft).Lacks f := fun f _ => by cases f <;> rfl
  rw [exists_filled, and_iff_left hempty]

end Draft

/-- The configuration of a draft `Holds` the fields of the draft. -/
theorem holds_ofDraft {d : Draft} {fs : List Field} (h : ∀ f, d.Has f ↔ f ∈ fs) :
    (ofDraft d).Holds fs where
  policy p hp := by
    have hd : d.policy? = some p := (h _).2 hp
    simp [ofDraft, hd]
  no_policy hn := by
    have hd : d.policy? = none :=
      Option.eq_none_iff_forall_ne_some.2 fun p hp => hn p ((h _).1 hp)
    simp [ofDraft, hd]
  capacity n hn := by
    have hd : d.capacity? = some n := (h _).2 hn
    simp [ofDraft, hd]
  no_capacity hn := by
    have hd : d.capacity? = none :=
      Option.eq_none_iff_forall_ne_some.2 fun n hc => hn n ((h _).1 hc)
    simp [ofDraft, hd]

/-- The fields that are given decide the configuration. -/
theorem Holds.unique {c c' : Config} {fs : List Field} (h : c.Holds fs) (h' : c'.Holds fs) :
    c = c' := by
  obtain ⟨policy, capacity⟩ := c
  obtain ⟨policy', capacity'⟩ := c'
  have hp : policy = policy' := by
    -- A field that is given says its value, and one that is not is the default.
    by_cases hg : ∃ p, .policy p ∈ fs
    · obtain ⟨p, hp⟩ := hg
      exact (h.policy p hp).trans (h'.policy p hp).symm
    · have hn : ∀ p, .policy p ∉ fs := fun p hp => hg ⟨p, hp⟩
      exact (h.no_policy hn).trans (h'.no_policy hn).symm
  have hc : capacity = capacity' := by
    by_cases hg : ∃ n, .capacity n ∈ fs
    · obtain ⟨n, hn⟩ := hg
      exact (h.capacity n hn).trans (h'.capacity n hn).symm
    · have hn : ∀ n, .capacity n ∉ fs := fun n hc => hg ⟨n, hc⟩
      exact (h.no_capacity hn).trans (h'.no_capacity hn).symm
  rw [hp, hc]

/-- The configuration that the given fields make is `ofDraft` of the draft that they fill. -/
theorem Draft.Filled.holds_iff {d : Draft} {fs : List Field} (h : Filled {} fs d) {c : Config} :
    c.Holds fs ↔ c = ofDraft d := by
  have hdraft : (ofDraft d).Holds fs := holds_ofDraft fun f => by
    have hempty : ¬ ({} : Draft).Has f := by cases f <;> exact nofun
    rw [h.has_iff, or_iff_right hempty]
  constructor
  · exact fun h => h.unique hdraft
  · rintro rfl
    exact hdraft

/-! ### Objects

One step of the scanner is a key, a colon and a value. One direction is an induction along the
scanner's own recursion, the other one along the members.
-/

/-- A key is scanned where a string of it stands. -/
theorem scanQuotedKey_eq_ok {cs rest : List Char} {key : String} :
    scanQuotedKey cs = .ok (key, rest) ↔ ∃ k, StringToken k key ∧ cs = k ++ rest := by
  constructor
  · intro h
    unfold scanQuotedKey at h
    split at h
    · exact scanString_eq_ok.1 h
    · cases h
  · rintro ⟨k, hk, rfl⟩
    obtain ⟨t, rfl⟩ := hk.exists_cons
    exact scanString_eq_ok.2 ⟨_, hk, rfl⟩

/-- A result that is wrapped in `some` is the result of what is wrapped. -/
theorem map_some_eq_ok {ε α : Type} {x : Except ε (α × List Char)} {a? : Option α}
    {rest : List Char} : (x.map fun (a, rest) => (some a, rest)) = .ok (a?, rest) ↔
      ∃ a, a? = some a ∧ x = .ok (a, rest) := by
  rw [map_eq_ok]
  constructor
  · rintro ⟨⟨a, _⟩, hx, he⟩
    cases he
    exact ⟨a, rfl, hx⟩
  · rintro ⟨a, rfl, hx⟩
    exact ⟨_, hx, rfl⟩

/-- There is no further key where the closing brace stands behind white space. -/
theorem scanKey_eq_none {isFirst : Bool} {cs rest : List Char} :
    scanKey isFirst cs = .ok (none, rest) ↔ ∃ w, Blank w ∧ cs = w ++ '}' :: rest := by
  constructor
  · intro h
    unfold scanKey at h
    split at h
    · cases h
    · next hs =>
      cases h
      exact (skipSpace_eq_cons.1 hs).2
    split at h
    · -- wherever a key is scanned there is one
      obtain ⟨_, he, -⟩ := map_some_eq_ok.1 h
      cases he
    split at h
    · split at h
      · cases h
      · cases h
      · obtain ⟨_, he, -⟩ := map_some_eq_ok.1 h
        cases he
    · cases h
  · intro hw
    rw [scanKey, skipSpace_eq_cons.2 ⟨by decide, hw⟩]
    rfl

/-- There is one where a string stands behind a lead. -/
theorem scanKey_eq_some {isFirst : Bool} {cs rest : List Char} {key : String} :
    scanKey isFirst cs = .ok (some key, rest) ↔
      ∃ l k, Lead isFirst l ∧ StringToken k key ∧ cs = l ++ (k ++ rest) := by
  constructor
  · intro h
    unfold scanKey at h
    split at h
    · cases h
    · cases h
    next c cs' _ hs =>
    split at h
    · next hfirst =>
      subst hfirst
      obtain ⟨_, he, h⟩ := map_some_eq_ok.1 h
      cases he
      obtain ⟨k, hk, he⟩ := scanQuotedKey_eq_ok.1 h
      -- the first key has white space for its lead
      obtain ⟨l, hl, hcs⟩ := exists_lead_first cs
      exact ⟨l, k, hl, hk, by rw [← he, ← hs, ← hcs]⟩
    next hfirst =>
    obtain rfl := Bool.eq_false_iff.2 hfirst
    split at h
    · next hc =>
      subst hc
      split at h
      · cases h
      · cases h
      · obtain ⟨_, he, h⟩ := map_some_eq_ok.1 h
        cases he
        obtain ⟨k, hk, he⟩ := scanQuotedKey_eq_ok.1 h
        -- any other key has a comma in its lead
        obtain ⟨l, hl, hcs⟩ := exists_lead_next hs
        exact ⟨l, k, hl, hk, by rw [← he, ← hcs]⟩
    · cases h
  · rintro ⟨l, k, hl, hk, rfl⟩
    have hscan : scanQuotedKey (k ++ rest) = .ok (key, rest) := scanQuotedKey_eq_ok.2 ⟨k, hk, rfl⟩
    obtain ⟨t, rfl⟩ := hk.exists_cons
    -- Backwards, a string is neither the end nor a comma, so the scanner cannot stop in front of
    -- it.
    have hquote : skipSpace ('"' :: t ++ rest) = '"' :: (t ++ rest) := skipSpace_cons (by decide) _
    cases isFirst with
    | true =>
      rw [scanKey, hl.skipSpace_first, hquote]
      exact map_some_eq_ok.2 ⟨key, rfl, hscan⟩
    | false =>
      obtain ⟨cs, hcomma, hcs⟩ := hl.skipSpace_next ('"' :: t ++ rest)
      rw [scanKey, hcomma]
      split
      · next he => cases he
      · next he => cases he
      next he =>
      cases he
      rw [if_neg (by decide), if_pos rfl, hcs, hquote]
      exact map_some_eq_ok.2 ⟨key, rfl, hscan⟩

/-- Behind a key, the value of the field is all that comes before the rest. -/
def ValueBehind (f : Field) (cs rest : List Char) : Prop :=
  ∃ w w' v, Blank w ∧ Blank w' ∧ FieldText v f ∧ cs = w ++ ':' :: (w' ++ (v ++ rest))

/-- The value of the field for the policy is scanned where it stands behind a colon. -/
theorem scanColon_policy_eq_ok {cs rest : List Char} {p : Policy} :
    (scanColon cs >>= Policy.scan) = .ok (p, rest) ↔ ValueBehind (.policy p) cs rest := by
  simp only [scanColon_bind_eq_ok, Policy.scan_eq_ok]
  constructor
  · rintro ⟨w, _, hw, rfl, w', v, hw', hv, rfl⟩
    exact ⟨w, w', v, hw, hw', .policy hv, rfl⟩
  · rintro ⟨w, w', v, hw, hw', ⟨hv⟩, rfl⟩
    exact ⟨w, _, hw, rfl, w', v, hw', hv, rfl⟩

/-- That of the field for the capacity, where it does and nothing of a number is behind it. -/
theorem scanColon_capacity_eq_ok {cs rest : List Char} {n : UInt64} :
    (scanColon cs >>= scanCapacity) = .ok (n, rest) ↔
      ValueBehind (.capacity n) cs rest ∧ NumberEnds rest := by
  simp only [scanColon_bind_eq_ok, scanCapacity_eq_ok]
  constructor
  · rintro ⟨w, _, hw, rfl, w', v, hw', hv, hends, rfl⟩
    exact ⟨⟨w, w', v, hw, hw', .capacity hv, rfl⟩, hends⟩
  · rintro ⟨⟨w, w', v, hw, hw', hv, rfl⟩, hends⟩
    cases hv with
    | capacity hv => exact ⟨w, _, hw, rfl, w', v, hw', hv, hends, rfl⟩

/-- A key and the value behind it are a member in front of those that are still to come. -/
theorem joined_cons {isFirst : Bool} {cs after behind rest : List Char} {f : Field}
    {u : List Char} {fs : List Field} (hkey : scanKey isFirst cs = .ok (some f.key, after))
    (hvalue : ValueBehind f after behind) (hu : Joined MemberText false u fs)
    (he : behind = u ++ '}' :: rest) :
    ∃ u', Joined MemberText isFirst u' (f :: fs) ∧ cs = u' ++ '}' :: rest := by
  obtain ⟨l, k, hl, hk, rfl⟩ := scanKey_eq_some.1 hkey
  obtain ⟨w, w', v, hw, hw', hv, rfl⟩ := hvalue
  exact ⟨_, .item hl (.intro hk hw hw' hv) hu, by simp [he]⟩

/-- The members that were scanned fill the draft. -/
theorem of_scanMembers {d d' : Draft} {isFirst : Bool} {cs rest : List Char}
    (h : scanMembers d isFirst cs = .ok (d', rest)) :
    ∃ u fs, Joined MemberText isFirst u fs ∧ cs = u ++ '}' :: rest ∧ d.Filled fs d' := by
  -- a scan ends well at the brace, or goes on behind a field that was missing; the rest are stops
  fun_induction scanMembers d isFirst cs with
  | case2 d isFirst cs rest' hkey =>
    cases h
    obtain ⟨w, hw, rfl⟩ := scanKey_eq_none.1 hkey
    exact ⟨w, [], .done hw, rfl, .nil⟩
  | case5 d isFirst cs after hd p behind hvalue hkey ih =>
    obtain ⟨u, fs, hu, he, hfilled⟩ := ih h
    obtain ⟨u', hu', rfl⟩ := joined_cons hkey (scanColon_policy_eq_ok.1 hvalue) hu he
    have hlacks : d.Lacks (.policy p) := Option.not_isSome_iff_eq_none.1 hd
    exact ⟨u', _, hu', rfl, .cons hlacks hfilled⟩
  | case8 d isFirst cs after hd n behind hvalue hkey _ ih =>
    obtain ⟨u, fs, hu, he, hfilled⟩ := ih h
    obtain ⟨u', hu', rfl⟩ := joined_cons hkey (scanColon_capacity_eq_ok.1 hvalue).1 hu he
    have hlacks : d.Lacks (.capacity n) := Option.not_isSome_iff_eq_none.1 hd
    exact ⟨u', _, hu', rfl, .cons hlacks hfilled⟩
  | _ => cases h

/-- A key that the draft lacks fills its field with the value behind it. -/
theorem scanMembers_step {d : Draft} {isFirst : Bool} {cs after behind : List Char} {f : Field}
    (hkey : scanKey isFirst cs = .ok (some f.key, after)) (hf : d.Lacks f)
    (hvalue : ValueBehind f after behind) (hends : NumberEnds behind) :
    scanMembers d isFirst cs = scanMembers (d.put f) false behind := by
  rw [scanMembers, hkey]
  cases f with
  | policy p =>
    have hd : ¬ d.policy?.isSome := Option.not_isSome_iff_eq_none.2 hf
    simp only [Field.key, hd, scanColon_policy_eq_ok.2 hvalue]
    rfl
  | capacity n =>
    have hd : ¬ d.capacity?.isSome := Option.not_isSome_iff_eq_none.2 hf
    simp only [Field.key, hd, key_ne.symm, scanColon_capacity_eq_ok.2 ⟨hvalue, hends⟩]
    rfl

/-- Members that fill a draft are scanned up to the closing brace. -/
theorem scanMembers_of_joined {d d' : Draft} {isFirst : Bool} {u : List Char} {fs : List Field}
    (hu : Joined MemberText isFirst u fs) (hd : d.Filled fs d') (rest : List Char) :
    scanMembers d isFirst (u ++ '}' :: rest) = .ok (d', rest) := by
  induction hu generalizing d with
  | done hw =>
    cases hd
    rw [scanMembers, scanKey_eq_none.2 ⟨_, hw, rfl⟩]
  | @item isFirst l _ t f fs hl hu ht ih =>
    cases hd with
    | cons hf hd =>
      cases hu with
      | @intro k w w' v _ hk hw hw' hv =>
        have hkey : scanKey isFirst (l ++ (k ++ (w ++ ':' :: (w' ++ v)) ++ t) ++ '}' :: rest) =
            .ok (some f.key, w ++ ':' :: (w' ++ (v ++ (t ++ '}' :: rest)))) :=
          scanKey_eq_some.2 ⟨l, k, hl, hk, by simp⟩
        -- what is behind a member, a comma or the brace, goes on with no number
        have hends : NumberEnds (t ++ '}' :: rest) :=
          ht.numberEnds ⟨by decide, by decide, by decide, by decide⟩
        rw [scanMembers_step hkey hf ⟨w, w', v, hw, hw', hv, rfl⟩ hends, ih hd]

/-- **Objects.** The members of an object are scanned, its opening brace gone, where fields stand
    that fill a draft, and this draft is what comes of them. -/
theorem scanMembers_eq_ok {d : Draft} {cs rest : List Char} :
    scanMembers {} true cs = .ok (d, rest) ↔
      ∃ u fs, Items MemberText u fs ∧ cs = u ++ '}' :: rest ∧ Draft.Filled {} fs d := by
  constructor
  · intro h
    obtain ⟨u, fs, hu, he, hd⟩ := of_scanMembers h
    exact ⟨u, fs, joined_true.1 hu, he, hd⟩
  · rintro ⟨u, fs, hu, rfl, hd⟩
    exact scanMembers_of_joined (joined_true.2 hu) hd rest

/-! ### Lists

A list has the fields in their order, so the scanner is no recursion but two steps.
-/

/-- There is no further element where the closing bracket stands behind white space. -/
theorem scanNext_eq_false {isFirst : Bool} {cs rest : List Char} :
    scanNext isFirst cs = .ok (false, rest) ↔ ∃ w, Blank w ∧ cs = w ++ ']' :: rest := by
  constructor
  · intro h
    unfold scanNext at h
    split at h
    · cases h
    · next hs =>
      cases h
      exact (skipSpace_eq_cons.1 hs).2
    split at h
    · cases h
    split at h
    · split at h <;> cases h
    · cases h
  · intro hw
    rw [scanNext, skipSpace_eq_cons.2 ⟨by decide, hw⟩]
    rfl

/-- There is one to be scanned behind a lead only. -/
theorem lead_of_scanNext {isFirst : Bool} {cs rest : List Char}
    (h : scanNext isFirst cs = .ok (true, rest)) : ∃ l, Lead isFirst l ∧ cs = l ++ rest := by
  unfold scanNext at h
  split at h
  · cases h
  · cases h
  next c cs' _ hs =>
  split at h
  · next hfirst =>
    subst hfirst
    cases h
    rw [← hs]
    exact exists_lead_first cs
  next hfirst =>
  obtain rfl := Bool.eq_false_iff.2 hfirst
  split at h
  · next hc =>
    subst hc
    split at h
    · cases h
    · cases h
    · cases h
      exact exists_lead_next hs
  · cases h

/-- An element is looked for where something other than white space and the end comes. -/
theorem scanNext_of_lead {isFirst : Bool} {l rest : List Char} {c : Char} (hl : Lead isFirst l)
    (hc : ¬ isSpace c) (hend : c ≠ ']') :
    scanNext isFirst (l ++ c :: rest) = .ok (true, c :: rest) := by
  have hitem : skipSpace (c :: rest) = c :: rest := skipSpace_cons hc rest
  cases isFirst with
  | true =>
    rw [scanNext, hl.skipSpace_first, hitem]
    split
    · next he => cases he
    · next he => cases he; exact absurd rfl hend
    · next he => cases he; rfl
  | false =>
    -- `hend` keeps the scanner from taking the item for the end, or the comma for one too many
    obtain ⟨cs, hcomma, hcs⟩ := hl.skipSpace_next (c :: rest)
    rw [scanNext, hcomma]
    split
    · next he => cases he
    · next he => cases he
    next he =>
    cases he
    rw [if_neg (by decide), if_pos rfl, hcs, hitem]
    split
    · next he => cases he
    · next he => cases he; exact absurd rfl hend
    · rfl

/-- The closing bracket is scanned where it stands behind white space. -/
theorem scanClose_eq_ok {cs rest : List Char} :
    scanClose cs = .ok rest ↔ ∃ w, Blank w ∧ cs = w ++ ']' :: rest := by
  constructor
  · intro h
    unfold scanClose at h
    split at h
    · cases h
    · next hs =>
      cases h
      exact (skipSpace_eq_cons.1 hs).2
    · split at h <;> cases h
    · cases h
  · intro hw
    rw [scanClose, skipSpace_eq_cons.2 ⟨by decide, hw⟩]
    rfl

/-- No value begins with white space or a closing bracket. -/
theorem FieldText.exists_cons {v : List Char} {f : Field} (h : FieldText v f) :
    ∃ c t, v = c :: t ∧ ¬ isSpace c ∧ c ≠ ']' := by
  cases h with
  | policy h =>
    cases h with
    | word h =>
      obtain ⟨t, rfl⟩ := h.exists_cons
      exact ⟨'"', t, rfl, by decide, by decide⟩
    | object h => exact ⟨'{', _, rfl, by decide, by decide⟩
  | capacity h =>
    obtain ⟨c, ds, rfl⟩ := List.exists_cons_of_ne_nil h.ne_nil
    have hc : c.isDigit := h.all_digits c (by simp)
    refine ⟨c, ds, rfl, not_isSpace_of_isDigit hc, ?_⟩
    rintro rfl
    exact absurd hc (by decide)

/-- An element that was looked for and found stands in front of those that are still to come. -/
theorem joined_element {isFirst : Bool} {cs after w v t rest : List Char} {f : Field}
    {fs : List Field} (hnext : scanNext isFirst cs = .ok (true, after)) (hw : Blank w)
    (hv : FieldText v f) (ht : Joined FieldText false t fs)
    (he : after = w ++ (v ++ (t ++ ']' :: rest))) :
    ∃ u, Joined FieldText isFirst u (f :: fs) ∧ cs = u ++ ']' :: rest := by
  obtain ⟨l, hl, rfl⟩ := lead_of_scanNext hnext
  exact ⟨_, .item (hl.append hw) hv ht, by simp [he]⟩

/-- The elements that were scanned are the first fields, and fill the draft. -/
theorem of_scanElements {d : Draft} {cs rest : List Char} (h : scanElements cs = .ok (d, rest)) :
    ∃ u fs, Joined FieldText true u fs ∧ fs.map Field.key <+: [policyKey, capacityKey] ∧
      cs = u ++ ']' :: rest ∧ Draft.Filled {} fs d := by
  rw [scanElements, bind_eq_ok] at h
  obtain ⟨⟨more, after⟩, hnext, h⟩ := h
  cases more with
  | false =>
    cases h
    obtain ⟨w, hw, rfl⟩ := scanNext_eq_false.1 hnext
    exact ⟨w, [], .done hw, by simp, rfl, .nil⟩
  | true =>
    obtain ⟨⟨p, behind⟩, hp, h⟩ := bind_eq_ok.1 h
    -- the first element can only be a policy
    obtain ⟨w, v, hw, hv, he⟩ := Policy.scan_eq_ok.1 hp
    obtain ⟨⟨more, after⟩, hnext', h⟩ := bind_eq_ok.1 h
    cases more with
    | false =>
      cases h
      obtain ⟨t, ht, rfl⟩ := scanNext_eq_false.1 hnext'
      obtain ⟨u, hu, rfl⟩ := joined_element hnext hw (.policy hv) (.done ht) he
      exact ⟨u, [.policy p], hu, by simp [Field.key], rfl, .cons rfl .nil⟩
    | true =>
      obtain ⟨⟨n, behind'⟩, hn, h⟩ := bind_eq_ok.1 h
      obtain ⟨w', v', hw', hv', -, he'⟩ := scanCapacity_eq_ok.1 hn
      -- after the capacity nothing but the bracket is taken
      obtain ⟨rest', hclose, h⟩ := bind_eq_ok.1 h
      cases h
      obtain ⟨t, ht, rfl⟩ := scanClose_eq_ok.1 hclose
      obtain ⟨u', hu', rfl⟩ := joined_element hnext' hw' (.capacity hv') (.done ht) he'
      obtain ⟨u, hu, rfl⟩ := joined_element hnext hw (.policy hv) hu' he
      exact ⟨u, [.policy p, .capacity n], hu, by simp [Field.key], rfl, .cons rfl (.cons rfl .nil)⟩

/-- The first field is the policy. -/
theorem eq_policy_of_key {f : Field} (h : f.key = policyKey) : ∃ p, f = .policy p := by
  cases f with
  | policy p => exact ⟨p, rfl⟩
  | capacity n => exact absurd h key_ne.symm

/-- The second one is the capacity. -/
theorem eq_capacity_of_key {f : Field} (h : f.key = capacityKey) : ∃ n, f = .capacity n := by
  cases f with
  | policy p => exact absurd h key_ne
  | capacity n => exact ⟨n, rfl⟩

/-- The first fields are none, the policy, or both. -/
theorem first_fields {fs : List Field} (h : fs.map Field.key <+: [policyKey, capacityKey]) :
    fs = [] ∨ (∃ p, fs = [.policy p]) ∨ ∃ p n, fs = [.policy p, .capacity n] := by
  cases fs with
  | nil => exact .inl rfl
  | cons f fs =>
    obtain ⟨hf, htail⟩ := List.cons_prefix_cons.1 h
    obtain ⟨p, rfl⟩ := eq_policy_of_key hf
    cases fs with
    | nil => exact .inr (.inl ⟨p, rfl⟩)
    | cons g fs =>
      obtain ⟨hg, hnil⟩ := List.cons_prefix_cons.1 htail
      obtain ⟨n, rfl⟩ := eq_capacity_of_key hg
      obtain rfl := List.map_eq_nil_iff.1 (List.prefix_nil.1 hnil)
      exact .inr (.inr ⟨p, n, rfl⟩)

/-- An element that stands behind its lead is looked for. -/
theorem scanNext_element {isFirst : Bool} {l v : List Char} {f : Field} (hl : Lead isFirst l)
    (hv : FieldText v f) (rest : List Char) :
    scanNext isFirst (l ++ (v ++ rest)) = .ok (true, v ++ rest) := by
  obtain ⟨c, t, rfl, hc, hend⟩ := hv.exists_cons
  exact scanNext_of_lead hl hc hend

/-- **Lists.** The elements of a list are scanned, its opening bracket gone, where values of the
    first fields stand, and the draft that these fill is what comes of them. -/
theorem scanElements_eq_ok {d : Draft} {cs rest : List Char} :
    scanElements cs = .ok (d, rest) ↔
      ∃ u fs, Items FieldText u fs ∧ fs.map Field.key <+: [policyKey, capacityKey] ∧
        cs = u ++ ']' :: rest ∧ Draft.Filled {} fs d := by
  simp only [← joined_true]
  constructor
  · exact of_scanElements
  rintro ⟨u, fs, hu, hkeys, rfl, hd⟩
  -- a list has at most two elements, and the scanner takes them one by one
  rcases first_fields hkeys with rfl | ⟨p, rfl⟩ | ⟨p, n, rfl⟩
  · cases hd
    cases hu with
    | done hw => exact bind_eq_ok.2 ⟨_, scanNext_eq_false.2 ⟨_, hw, rfl⟩, rfl⟩
  · cases hd with | cons _ hd =>
    cases hd
    obtain ⟨l, v, t, hl, ⟨hv⟩, ht, rfl⟩ := hu.exists_of_cons
    cases ht with
    | done ht =>
      rw [List.append_assoc, List.append_assoc]
      exact bind_eq_ok.2 ⟨_, scanNext_element hl (.policy hv) _,
        bind_eq_ok.2 ⟨_, Policy.scan_eq_ok.2 ⟨[], v, nofun, hv, rfl⟩,
        bind_eq_ok.2 ⟨_, scanNext_eq_false.2 ⟨_, ht, rfl⟩, rfl⟩⟩⟩
  · cases hd with | cons _ hd =>
    cases hd with | cons _ hd =>
    cases hd
    obtain ⟨l, v, t, hl, ⟨hv⟩, ht, rfl⟩ := hu.exists_of_cons
    obtain ⟨l', v', t', hl', hv', ht', rfl⟩ := ht.exists_of_cons
    have hends : NumberEnds (t' ++ ']' :: rest) :=
      ht'.numberEnds ⟨by decide, by decide, by decide, by decide⟩
    have hnext := scanNext_element hl' hv' (t' ++ ']' :: rest)
    cases hv' with | capacity hv' =>
    cases ht' with | done hw =>
    simp only [List.append_assoc]
    exact bind_eq_ok.2 ⟨_, scanNext_element hl (.policy hv) _,
      bind_eq_ok.2 ⟨_, Policy.scan_eq_ok.2 ⟨[], v, nofun, hv, rfl⟩,
      bind_eq_ok.2 ⟨_, hnext,
      bind_eq_ok.2 ⟨_, scanCapacity_eq_ok.2 ⟨[], v', nofun, hv', hends, rfl⟩,
      bind_eq_ok.2 ⟨_, scanClose_eq_ok.2 ⟨_, hw, rfl⟩, rfl⟩⟩⟩⟩⟩

end Config

end StackMachine
