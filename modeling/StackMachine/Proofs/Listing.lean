import Mathlib.Data.List.DropRight
import StackMachine.Command
import StackMachine.Proofs.Launch

namespace StackMachine

open Text (Raw)

/-!
# What a listing tells

A program is listed under its name, as it is, with the kinds of its parameters in parentheses behind
it. Whatever is in the name of a program, the name of a kind has no parenthesis and no comma. So the
last opening parenthesis of a line ends the name, and behind it commas only stand between kinds.

* `Signature.cut?` — a text before and behind its last opening parenthesis.
* `Signature.row?`, `Signature.params?` — the kinds that stand behind it.
* `Signature.read?`, `Signature.read?_eq_some_iff` — the name and the kinds of a line.
* `Program.find?_eq_some_iff` — what a name finds is the only program that has it.
* `Command.listing_tells` — signatures, lines of the listing, and the programs found by name.
-/

/-! ### Kinds in a row

A row is split at its commas and every piece is looked up among the names of kinds. No name of a
kind has a comma or a space, so splitting undoes joining.
-/

/-- The kind of a name. -/
def Kind.ofName? (name : String) : Option Kind := all.find? fun k => k.name = name

/-- It is the only one of that name. -/
theorem Kind.ofName?_eq_some_iff {name : String} {k : Kind} :
    ofName? name = some k ↔ k.name = name := by
  constructor
  · intro h
    simpa using List.find?_some h
  · rintro rfl
    obtain ⟨l, hl⟩ : ∃ l, all.find? (fun l => l.name = k.name) = some l :=
      Option.isSome_iff_exists.1 (List.find?_isSome.2 ⟨k, mem_all k, by simp⟩)
    have hname : l.name = k.name := by simpa using List.find?_some hl
    rw [ofName?, hl, name_inj.1 hname]

/-- What a signature puts around names is in none of them. -/
theorem Kind.not_mem_name (k : Kind) : ',' ∉ k.name.toList ∧ '(' ∉ k.name.toList := by
  cases k <;> decide

namespace Signature

/-- A kind with the space in front of it. -/
def piece (k : Kind) : List Char := ' ' :: k.name.toList

/-- The kind of a `piece`. -/
def piece? : List Char → Option Kind
  | ' ' :: cs => Kind.ofName? (String.ofList cs)
  | _ => none

/-- Only the pieces of kinds are read as pieces. -/
theorem piece?_eq_some_iff {cs : List Char} {k : Kind} : piece? cs = some k ↔ cs = piece k := by
  constructor
  · intro h
    unfold piece? at h
    split at h
    · rw [piece, Kind.ofName?_eq_some_iff.1 h, String.toList_ofList]
    · cases h
  · rintro rfl
    exact Kind.ofName?_eq_some_iff.2 String.ofList_toList.symm

/-- Only the pieces of kinds in a row are read as such, by induction on the kinds. -/
theorem mapM_piece?_eq_some_iff {ps : List (List Char)} {ks : List Kind} :
    ps.mapM piece? = some ks ↔ ps = ks.map piece := by
  induction ps generalizing ks with
  | nil => cases ks <;> simp
  | cons p ps ih =>
    rw [List.mapM_cons]
    simp only [Option.bind_eq_bind, Option.bind_eq_some_iff, Option.pure_def, Option.some.injEq,
      piece?_eq_some_iff, ih]
    cases ks <;> grind

/-- Kinds with a comma and a space between two of them. -/
def row (ks : List Kind) : List Char := [',', ' '].intercalate (ks.map fun k => k.name.toList)

/-- Unfolding lemma: behind the first of two kinds or more comes the comma. -/
theorem row_cons_cons (k l : Kind) (ks : List Kind) :
    row (k :: l :: ks) = k.name.toList ++ [',', ' '] ++ row (l :: ks) :=
  List.intercalate_cons_cons ..

/-- With a space in front of the first kind, too, only the commas are left between the pieces. -/
theorem space_row {ks : List Kind} (hne : ks ≠ []) :
    ' ' :: row ks = [','].intercalate (ks.map piece) := by
  induction ks with
  | nil => exact absurd rfl hne
  | cons k ks ih =>
    cases ks with
    | nil => simp [row, piece]
    | cons l ks =>
      calc ' ' :: row (k :: l :: ks)
          = piece k ++ [','] ++ ' ' :: row (l :: ks) := by simp [row_cons_cons, piece]
        _ = piece k ++ [','] ++ [','].intercalate ((l :: ks).map piece) := by
          rw [ih (List.cons_ne_nil l ks)]
        _ = [','].intercalate ((k :: l :: ks).map piece) := List.intercalate_cons_cons.symm

/-- No parenthesis opens within a row. -/
theorem not_mem_row (ks : List Kind) : '(' ∉ row ks := by
  induction ks with
  | nil => simp [row]
  | cons k ks ih =>
    cases ks with
    | nil => simpa [row] using k.not_mem_name.2
    | cons l ks =>
      rw [row_cons_cons, List.append_assoc, List.mem_append, List.mem_append]
      simp [k.not_mem_name.2, ih]

/-- The kinds in a row. The empty text has none; any other text has one piece more than commas. -/
def row? (cs : List Char) : Option (List Kind) :=
  if cs = [] then some [] else ((' ' :: cs).splitOn ',').mapM piece?

/-- Only the row of no kinds is empty, since every kind has a name. -/
theorem row_eq_nil_iff {ks : List Kind} : row ks = [] ↔ ks = [] := by
  constructor
  · intro h
    cases ks with
    | nil => rfl
    | cons k ks =>
      cases ks with
      | nil => cases k <;> simp [row, Kind.name] at h
      | cons l ks => simp [row_cons_cons] at h
  · rintro rfl
    rfl

/-- Split at its commas, a row comes apart into its pieces. -/
theorem splitOn_space_row {ks : List Kind} (hne : ks ≠ []) :
    (' ' :: row ks).splitOn ',' = ks.map piece := by
  have hcomma : ∀ p ∈ ks.map piece, ',' ∉ p := by
    intro p hp
    obtain ⟨k, -, rfl⟩ := List.mem_map.1 hp
    simp [piece, k.not_mem_name.1]
  rw [space_row hne, List.splitOn_intercalate ',' hcomma (by simpa using hne)]

/-- Only the rows of kinds are read as rows. -/
theorem row?_eq_some_iff {cs : List Char} {ks : List Kind} : row? cs = some ks ↔ cs = row ks := by
  by_cases hcs : cs = []
  · subst hcs
    rw [row?, if_pos rfl, Option.some.injEq, eq_comm, ← row_eq_nil_iff, eq_comm]
  · rw [row?, if_neg hcs, mapM_piece?_eq_some_iff]
    constructor
    · intro hpieces
      have hne : ks ≠ [] := by
        rintro rfl
        exact List.splitOn_ne_nil _ _ hpieces
      -- With a space in front, a row is its pieces joined by commas, so it can be split and joined.
      have hspace : ' ' :: cs = ' ' :: row ks := by
        rw [space_row hne, ← hpieces, List.intercalate_splitOn]
      exact (List.cons.inj hspace).2
    · rintro rfl
      exact splitOn_space_row fun hks => hcs (row_eq_nil_iff.2 hks)

/-! ### The parameters -/

/-- The kinds of the parameters, before the parenthesis that closes a signature. -/
def params? (rest : String) : Option (List Kind) :=
  if rest.toList.getLast? = some ')' then row? rest.toList.dropLast else none

/-- What a signature has behind its opening parenthesis is a row and the closing one. -/
theorem toList_params (ks : List Kind) :
    (", ".intercalate (ks.map Kind.name) ++ ")").toList = row ks ++ [')'] := by
  rw [String.toList_append, String.toList_intercalate, List.map_map]
  rfl

/-- Only what a signature has there is read as parameters. -/
theorem params?_eq_some_iff {rest : String} {ks : List Kind} :
    params? rest = some ks ↔ rest = ", ".intercalate (ks.map Kind.name) ++ ")" := by
  rw [← String.toList_inj, toList_params, params?]
  constructor
  · intro h
    split at h
    · next hlast =>
      obtain ⟨cs, hcs⟩ := List.getLast?_eq_some_iff.1 hlast
      rw [hcs, List.dropLast_concat, row?_eq_some_iff] at h
      rw [hcs, h]
    · cases h
  · intro h
    rw [h, if_pos List.getLast?_concat, List.dropLast_concat, row?_eq_some_iff]

/-- No other parenthesis opens there. -/
theorem not_mem_params (ks : List Kind) :
    '(' ∉ (", ".intercalate (ks.map Kind.name) ++ ")").toList := by
  rw [toList_params, List.mem_append]
  simp [not_mem_row]

/-! ### The name

A name may have parentheses, even one that looks like parameters. The last opening one is not part
of it, as there is none in the names of kinds.
-/

/-- A text before and behind its last opening parenthesis. -/
def cut? (s : String) : Option (String × String) :=
  if '(' ∈ s.toList then
    some (String.ofList (s.toList.rdropWhile (· ≠ '(')).dropLast,
      String.ofList (s.toList.rtakeWhile (· ≠ '(')))
  else none

/-- What stands before the last opening parenthesis, even if it has such itself, is cut off with
    it. -/
theorem cut?_append (u : String) {v : String} (hv : '(' ∉ v.toList) :
    cut? (u ++ "(" ++ v) = some (u, v) := by
  have hlist : (u ++ "(" ++ v).toList = u.toList ++ '(' :: v.toList := by simp
  have hpos : ∀ c ∈ v.toList.reverse, decide (c ≠ '(') := by
    intro c hc
    exact decide_eq_true fun h => hv (h ▸ List.mem_reverse.1 hc)
  rw [cut?, hlist, if_pos (by simp), List.rdropWhile, List.rtakeWhile, List.reverse_append,
    List.reverse_cons, List.append_assoc, List.dropWhile_append_of_pos hpos,
    List.takeWhile_append_of_pos hpos]
  simp

/-- The two parts are the text around a parenthesis, and the second one has none. -/
theorem cut?_eq_some_iff {s u v : String} :
    cut? s = some (u, v) ↔ s = u ++ "(" ++ v ∧ '(' ∉ v.toList := by
  constructor
  · intro h
    have hmem : '(' ∈ s.toList.reverse := by
      by_contra hmem
      rw [cut?, if_neg (by simpa using hmem)] at h
      cases h
    -- the first parenthesis from behind
    obtain ⟨v', u', hs, hv'⟩ := List.eq_append_cons_of_mem hmem
    obtain rfl : s = String.ofList u'.reverse ++ "(" ++ String.ofList v'.reverse := by
      rw [← String.toList_inj, ← List.reverse_inj, hs]
      simp
    have hv : '(' ∉ (String.ofList v'.reverse).toList := by simpa using hv'
    rw [cut?_append _ hv] at h
    cases h
    exact ⟨rfl, hv⟩
  · rintro ⟨rfl, hv⟩
    exact cut?_append u hv

/-! ### Signatures -/

/-- The name and the parameters that a signature shows. -/
def read? (s : String) : Option (String × List Kind) := do
  let (name, rest) ← cut? s
  let ks ← params? rest
  return (name, ks)

/-- A text is read as a name and kinds if and only if it is the name and then the kinds in
    parentheses. -/
theorem read?_eq_some_iff {s name : String} {ks : List Kind} :
    read? s = some (name, ks) ↔ s = name ++ "(" ++ ", ".intercalate (ks.map Kind.name) ++ ")" := by
  rw [String.append_assoc]
  constructor
  · intro h
    simp only [read?, Option.bind_eq_bind, Option.bind_eq_some_iff, Option.pure_def,
      Option.some.injEq, Prod.exists] at h
    -- The text was cut at its last parenthesis, and the parts were read apart.
    obtain ⟨u, rest, hcut, ks', hrest, he⟩ := h
    cases he
    rw [← params?_eq_some_iff.1 hrest]
    exact (cut?_eq_some_iff.1 hcut).1
  · rintro rfl
    rw [read?, cut?_append name (not_mem_params ks)]
    show (params? _).bind _ = _
    rw [params?_eq_some_iff.2 rfl]
    rfl

example : read? "f(Bool)((I64, Bool)" = some ("f(Bool)(", [.i64, .bool]) := by decide

example : read? "f(I64,Bool)" = none := by decide

end Signature

/-! ### Programs -/

namespace Program

/-- A signature is read as the name and the parameters of its program. -/
theorem read?_signature (p : Program) : Signature.read? p.signature = some (p.name, p.params) :=
  Signature.read?_eq_some_iff.2 rfl

/-- Two programs of one `signature` have the same name and parameters, as `Signature.read?` reads
    both off it. -/
theorem signature_inj {p q : Program} :
    p.signature = q.signature ↔ p.name = q.name ∧ p.params = q.params := by
  constructor
  · intro h
    have hread : Signature.read? p.signature = Signature.read? q.signature := by rw [h]
    rw [read?_signature, read?_signature] at hread
    exact Prod.mk.inj (Option.some.inj hread)
  · rintro ⟨hname, hparams⟩
    rw [signature, hname, hparams, ← signature]

/-- The bundled programs have different names. -/
theorem names_nodup : (bundled.map name).Nodup := by decide

/-- A name finds the only program that has it. -/
theorem find?_eq_some_iff {n : String} {p : Program} :
    find? n = some p ↔ (bundled.filter fun q => q.name = n) = [p] := by
  rw [find?, ← List.head?_filter]
  constructor
  · intro h
    obtain ⟨qs, hqs⟩ := List.head?_eq_some_iff.1 h
    have hdistinct : (p :: qs).Pairwise fun q r => q.name ≠ r.name := by
      rw [← hqs]
      exact (List.pairwise_map.1 names_nodup).filter _
    have hname : ∀ q ∈ p :: qs, q.name = n := by
      rw [← hqs]
      intro q hq
      simpa using (List.mem_filter.1 hq).2
    -- a second one would have the same name
    cases qs with
    | nil => exact hqs
    | cons q qs =>
      have hsame : p.name = q.name := by rw [hname p (by simp), hname q (by simp)]
      exact absurd hsame (List.rel_of_pairwise_cons hdistinct List.mem_cons_self)
  · intro h
    rw [h, List.head?_cons]

/-- What is found is bundled, under the name by which it was found. -/
theorem mem_bundled_of_find? {n : String} {p : Program} (h : find? n = some p) :
    p ∈ bundled ∧ p.name = n :=
  ⟨List.mem_of_find?_eq_some h, by simpa using List.find?_some h⟩

end Program

/-! ### The listing

Lines of the listing are told apart by the names in them, so a program is found by its name just if
its line is listed.
-/

namespace Command

/-- The listing depends neither on the files nor on the log filter. -/
theorem stdout_of_list {words : List Raw} {cl : CommandLine}
    (hread : CommandLine.read words = .ok cl) (hlist : cl.list) (env : Environment)
    (fs : FileSystem) :
    (start words env fs).stdout = Program.bundled.map fun p => .text p.signature := by
  simp only [start, hread, ofCommandLine, if_pos hlist, printing, List.map_map]
  rfl

/-- **What a listing tells.** The signatures of two programs are the same if and only if their names
    and their parameters are, whatever the names are: a name is what stands before the last opening
    parenthesis, and the parameters are read from what stands behind it (`Signature.params?`). Of
    all texts, `Signature.read?` reads those that are a name and kinds in parentheses. So a line is
    listed if and only if it is that of the name and the parameters of a program that is found by
    this name, and what a name finds is the one bundled program that has it. -/
theorem listing_tells :
    (∀ p q : Program, p.signature = q.signature ↔ p.name = q.name ∧ p.params = q.params) ∧
    (∀ p : Program, ∃ rest, p.signature = p.name ++ "(" ++ rest ∧ '(' ∉ rest.toList ∧
      Signature.params? rest = some p.params) ∧
    (∀ (s name : String) (ks : List Kind), Signature.read? s = some (name, ks) ↔
      s = name ++ "(" ++ ", ".intercalate (ks.map Kind.name) ++ ")") ∧
    (∀ (words : List Raw) (env : Environment) (fs : FileSystem) (cl : CommandLine),
      CommandLine.read words = .ok cl → cl.list → ∀ line, line ∈ (start words env fs).stdout ↔
        ∃ name ks, line = .text (name ++ "(" ++ ", ".intercalate (ks.map Kind.name) ++ ")") ∧
          ∃ p, Program.find? name = some p ∧ p.params = ks) ∧
    ∀ (name : String) (p : Program), Program.find? name = some p ↔
      (Program.bundled.filter fun q => q.name = name) = [p] := by
  refine ⟨fun p q => Program.signature_inj, fun p => ?_,
    fun s name ks => Signature.read?_eq_some_iff, fun words env fs cl hread hlist line => ?_,
    fun name p => Program.find?_eq_some_iff⟩
  · exact ⟨_, String.append_assoc, Signature.not_mem_params p.params,
      Signature.params?_eq_some_iff.2 rfl⟩
  · rw [stdout_of_list hread hlist, List.mem_map]
    constructor
    · rintro ⟨p, hp, rfl⟩
      exact ⟨p.name, p.params, rfl, p, Program.find?_name hp, rfl⟩
    · rintro ⟨name, ks, rfl, p, hp, rfl⟩
      obtain ⟨hmem, rfl⟩ := Program.mem_bundled_of_find? hp
      exact ⟨p, hmem, rfl⟩

/-- A program whose name is the signature of another one and a parenthesis more, and a listing on
    which only the other one stands, with its own parameters. -/
theorem listing_tells_imitation :
    let p : Program := { name := "exit(I64)(", params := [.bool, .i64], main := .skip }
    let words := ["--list", "add_exit"].map Raw.ofString
    let env : Environment := [("KOMODO_LOG", Raw.ofString "trace")]
    let stdout := (start words env fun _ => .error .notFound).stdout
    CommandLine.read words = .ok { program := some "add_exit", list := true } ∧
    p.signature = "exit(I64)((Bool, I64)" ∧ p.signature ≠ Program.exit.signature ∧
    .text "exit(I64)" ∈ stdout ∧ .text "exit()" ∉ stdout ∧ .text p.signature ∉ stdout := by
  intro p words env stdout
  have hread : CommandLine.read words = .ok { program := some "add_exit", list := true } := rfl
  obtain ⟨hsame, -, htold, hlisted, -⟩ := listing_tells
  have hline := hlisted words env (fun _ => .error .notFound) _ hread rfl
  -- a text that reads as a name and kinds can be listed for these only
  have hnot {s name : String} {ks : List Kind} (hs : Signature.read? s = some (name, ks))
      (hp : ∀ q, Program.find? name = some q → q.params ≠ ks) : .text s ∉ stdout := by
    intro hmem
    obtain ⟨name', ks', he, q, hq, hks⟩ := (hline _).1 hmem
    obtain rfl := Line.text.inj he
    rw [(htold _ name' ks').2 rfl] at hs
    cases hs
    exact hp q hq hks
  have hexit : Program.find? "exit" = some Program.exit := rfl
  refine ⟨hread, by decide, fun h => absurd ((hsame _ _).1 h).1 (by decide), ?_, ?_, ?_⟩
  · exact (hline _).2 ⟨"exit", [.i64], by decide, Program.exit, hexit, rfl⟩
  · refine hnot ((htold _ "exit" []).2 (by decide)) fun q hq => ?_
    cases hexit.symm.trans hq
    decide
  · refine hnot ((htold _ p.name p.params).2 rfl) fun q hq => ?_
    cases hq

end Command

end StackMachine
