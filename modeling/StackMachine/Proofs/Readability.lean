import StackMachine.Text.Layout
import StackMachine.Proofs.Delimited

namespace StackMachine.Text

/-!
# Reading a layout back

Both printers put brackets and commas around words and quoted texts. If the words outside of quotes
are bare, so that none of them has a bracket, a comma or a space in it, then either text tells the
layout: what it begins with tells the outermost shape, and every item shows where it ends, however
many there are and whatever is in quotes.

* `IsWord`, `Layout.Legible` — the layouts that can be read back.
* `Layout.print` — both printers, with a few equations in place of their definitions.
* `shapeOf`, `Layout.shapeOf_print` — the shape of a layout, from the beginning of its text.
* `chain_append_inj`, `group_append_inj` — items one after another, and between brackets.
* `Layout.printRow_inj` — the rows of a record, which are its fields and the dots.
* `Layout.told`, `Layout.line_inj`, `Layout.block_inj` — a text is that of one layout.
-/

/-! ### Words -/

/-- The characters of a word without quotes. -/
def isBare (c : Char) : Bool := c.isAlphanum || c = '_' || c = '-'

/-- Text that can stand without quotes. -/
def IsWord (s : String) : Prop := s.toList ≠ [] ∧ s.toList.all isBare

instance (s : String) : Decidable (IsWord s) :=
  inferInstanceAs (Decidable (s.toList ≠ [] ∧ s.toList.all isBare))

/-- All characters of a word are bare. -/
theorem IsWord.isBare {s : String} (h : IsWord s) : ∀ c ∈ s.toList, isBare c :=
  List.all_eq_true.1 h.2

/-- Digits are bare. -/
theorem isBare_of_isDigit {c : Char} (h : c.isDigit) : isBare c := by
  simp [isBare, Char.isAlphanum, h]

/-- The decimal text of a number is a word. -/
theorem isWord_toString_nat (n : Nat) : IsWord (toString n) := by
  refine ⟨?_, List.all_eq_true.2 fun c hc => isBare_of_isDigit (isDigit_of_mem_toString hc)⟩
  rw [toList_toString_nat]
  exact Nat.toDigits_ne_nil

namespace Layout

/-- A layout in which quotes stand around every text that is not a word. -/
inductive Legible : Layout → Prop
  | word {s : String} (h : IsWord s) : Legible (.word s)
  | quoted (s : String) : Legible (.quoted s)
  | record {name : String} {fields : List (String × Layout)} {isOpen : Bool} (hname : IsWord name)
      (hkeys : ∀ f ∈ fields, IsWord f.1) (hfields : ∀ f ∈ fields, Legible f.2) :
      Legible (.record name fields isOpen)
  | apply {name : String} {args : List Layout} (hname : IsWord name)
      (hargs : ∀ a ∈ args, Legible a) : Legible (.apply name args)
  | list {items : List Layout} (hitems : ∀ i ∈ items, Legible i) : Legible (.list items)
  | set {items : List Layout} (hitems : ∀ i ∈ items, Legible i) : Legible (.set items)

end Layout

/-! ### Shapes

The first word of a text ends at a character that is not bare, and what comes there tells the shape:
a space and a brace for a record, a parenthesis for arguments. Lists, sets and quoted texts have no
word in front.
-/

/-- The outermost shape of a layout. -/
inductive Shape where
  | word
  | quoted
  | record
  | apply
  | list
  | set

/-- The shape that a text begins with, by what comes behind its first word. -/
def shapeOf (cs : List Char) : Shape :=
  match cs.dropWhile isBare with
  | '"' :: _ => .quoted
  | ' ' :: '{' :: _ => .record
  | '(' :: _ => .apply
  | '[' :: _ => .list
  | '{' :: _ => .set
  | _ => .word

/-- The text does not carry on a word before it, nor make another shape of it. -/
def Ends (r : List Char) : Prop := Stops (isBare ·) r ∧ shapeOf r = .word

/-- A word in front does not change what comes behind it. -/
theorem shapeOf_word_append {s : String} (h : IsWord s) (r : List Char) :
    shapeOf (s.toList ++ r) = shapeOf r := by
  rw [shapeOf, List.dropWhile_append_of_pos h.isBare, ← shapeOf]

/-- Where words end, a text tells the word that it begins with. -/
theorem word_append_inj {s t : String} (hs : IsWord s) (ht : IsWord t) {u v : List Char}
    (hu : Stops (isBare ·) u) (hv : Stops (isBare ·) v) (h : s.toList ++ u = t.toList ++ v) :
    s = t ∧ u = v := by
  obtain ⟨hst, huv⟩ := append_inj_of_stops hs.isBare ht.isBare hu hv h
  exact ⟨String.toList_inj.1 hst, huv⟩

/-- A word in front of a character that is not bare, as a name is in front of its bracket or a key
    in front of its colon, is told together with the text behind that character. -/
theorem word_append_cons_inj {s t : String} {c : Char} (hs : IsWord s) (ht : IsWord t)
    (hc : ¬ isBare c) {u v : List Char} (h : s.toList ++ c :: u = t.toList ++ c :: v) :
    s = t ∧ u = v := by
  obtain ⟨hst, huv⟩ := word_append_inj hs ht (.cons hc u) (.cons hc v) h
  exact ⟨hst, (List.cons.inj huv).2⟩

/-- A word may stand at the end. -/
theorem ends_nil : Ends [] := ⟨by simp [Stops], rfl⟩

theorem ends_comma (r : List Char) : Ends (',' :: r) := ⟨.cons (by decide) r, rfl⟩

/-- What the items between brackets are closed with. -/
def closers : List (List Char) := [[')'], [']'], ['}'], [' ', '}']]

/-- A word may stand before any of the `closers`. -/
theorem ends_closer {c : List Char} (h : c ∈ closers) (r : List Char) : Ends (c ++ r) := by
  simp only [closers, List.mem_cons, List.not_mem_nil, or_false] at h
  rcases h with rfl | rfl | rfl | rfl <;> exact ⟨.cons (by decide) _, rfl⟩

/-! ### Items

What is written behind an item is generalised throughout. An injectivity that allows for any rest
can be used item by item, without knowing how many there are.
-/

variable {α : Type} {item : α → List Char} {xs ys : List α} {r s : List Char}

/-- Items with something before each of them, of which `P` says what can come behind an item. The
    induction is over both lists, which have to end at the same place. -/
theorem chain_append_inj {P : List Char → Prop} {sep close : List Char}
    (hitem : ∀ x ∈ xs, ∀ y ∈ ys, ∀ u v, P u → P v → item x ++ u = item y ++ v → x = y ∧ u = v)
    (hsep : ∀ u, P (sep ++ u)) (hclose : ∀ u, P (close ++ u))
    (hne : ∀ u v, sep ++ u ≠ close ++ v)
    (h : xs.flatMap (sep ++ item ·) ++ (close ++ r) = ys.flatMap (sep ++ item ·) ++ (close ++ s)) :
    xs = ys ∧ r = s := by
  -- Behind an item there is a separator or the end, and both satisfy `P`.
  have hrest (zs : List α) (u : List Char) : P (zs.flatMap (sep ++ item ·) ++ (close ++ u)) := by
    cases zs with
    | nil => exact hclose u
    | cons z zs =>
      rw [List.flatMap_cons, List.append_assoc, List.append_assoc]
      exact hsep _
  induction xs generalizing ys with
  | nil =>
    cases ys with
    | nil => exact ⟨rfl, List.append_cancel_left h⟩
    | cons y ys =>
      rw [List.flatMap_cons, List.append_assoc, List.append_assoc] at h
      exact absurd h.symm (hne _ _)
  | cons x xs ih =>
    cases ys with
    | nil =>
      rw [List.flatMap_cons, List.append_assoc, List.append_assoc] at h
      exact absurd h (hne _ _)
    | cons y ys =>
      simp only [List.flatMap_cons, List.append_assoc] at h
      obtain ⟨rfl, htail⟩ := hitem x List.mem_cons_self y List.mem_cons_self _ _ (hrest xs r)
        (hrest ys s) (List.append_cancel_left h)
      obtain ⟨rfl, hrs⟩ := ih (fun x hx y hy => hitem x (List.mem_cons_of_mem _ hx) y
        (List.mem_cons_of_mem _ hy)) htail
      exact ⟨rfl, hrs⟩

/-! ### Both printers

The two printers differ in white space and in the comma behind the last item. `print` has a form as
its parameter, so everything after this section is proved once for both.
-/

/-- On one line, or one item a line. -/
inductive Form where
  | line
  | block

namespace Form

/-- What comes behind an item, apart from what all items have between them. -/
def comma : Form → List Char
  | .line => []
  | .block => [',']

/-- White space inside the braces of a record. -/
def pad : Form → List Char
  | .line => [' ']
  | .block => []

/-- What can come behind an item. -/
def Follows : Form → List Char → Prop
  | .line, u => Ends u
  | .block, _ => True

end Form

/-- The items of a group and its closer. -/
def group (f : Form) (depth : Nat) (close : List Char) : List (List Char) → List Char
  | [] => close
  | i :: is =>
    match f with
    | .line => i ++ (is.flatMap ([',', ' '] ++ ·) ++ close)
    | .block =>
      '\n' :: ((i :: is).flatMap (fun i => (Layout.indent (depth + 1)).toList ++ (i ++ ['\n']))
        ++ ((Layout.indent depth).toList ++ close))

namespace Layout

/-- What the printer of a form writes at a depth. The line is the same at every depth. -/
def print : Form → Nat → Layout → List Char
  | .line, _, l => l.line.toList
  | .block, depth, l => (l.blockAt depth).toList

/-- An item with what comes behind it. -/
def printItem (f : Form) (depth : Nat) (l : Layout) : List Char := print f depth l ++ f.comma

/-- A field of a record, or the dots for what is not shown. -/
def printRow (f : Form) (depth : Nat) : Option (String × Layout) → List Char
  | some (key, l) => key.toList ++ ':' :: ' ' :: printItem f depth l
  | none => ['.', '.']

/-- What stands between the braces of a record. -/
def rows (fields : List (String × Layout)) (isOpen : Bool) : List (Option (String × Layout)) :=
  fields.map some ++ if isOpen then [none] else []

variable (f : Form) (depth : Nat)

/-- The fields of a record on one line are rows. -/
theorem map_toList_lineFields (fields : List (String × Layout)) :
    (lineFields fields).map String.toList =
      fields.map fun field => printRow .line depth (some field) := by
  induction fields with
  | nil => rfl
  | cons field fields ih =>
    rw [lineFields, List.map_cons, List.map_cons, ih, printRow, printItem, String.toList_append,
      String.toList_append, print, Form.comma, List.append_nil, List.append_assoc]
    rfl

theorem map_toList_blockFields (fields : List (String × Layout)) :
    (blockFields depth fields).map String.toList =
      fields.map fun field => printRow .block depth (some field) := by
  induction fields with
  | nil => rfl
  | cons field fields ih =>
    rw [blockFields, List.map_cons, List.map_cons, ih, printRow, printItem, String.toList_append,
      String.toList_append, String.toList_append, List.append_assoc, List.append_assoc]
    rfl

/-- The dots of an open record are one more of its rows. -/
theorem map_printRow_rows (fields : List (String × Layout)) (isOpen : Bool) :
    (rows fields isOpen).map (printRow f depth) =
      (fields.map fun field => printRow f depth (some field)) ++
        if isOpen then [['.', '.']] else [] := by
  cases isOpen <;> simp [rows, printRow]

/-- Items with commas between them are a group on one line. -/
theorem toList_intercalate (close : String) (items : List String) :
    (", ".intercalate items ++ close).toList =
      group .line depth close.toList (items.map String.toList) := by
  rw [String.toList_append, String.toList_intercalate]
  cases items with
  | nil => rfl
  | cons i is =>
    show [',', ' '].intercalate ((i :: is).map String.toList) ++ close.toList = _
    simp only [group, List.map_cons, ← List.append_assoc]
    congr 1
    induction is generalizing i with
    | nil => simp
    | cons j is ih =>
      rw [List.map_cons, List.intercalate_cons_cons, ih, List.flatMap_cons, List.append_assoc,
        List.append_assoc]

/-- Items between brackets are a group in a block. -/
theorem toList_bracket (opening closing : String) (items : List String) :
    (bracket opening closing depth items).toList =
      opening.toList ++ group .block depth closing.toList (items.map String.toList) := by
  cases items with
  | nil => simp [bracket, group]
  | cons i is => simp [bracket, group, String.toList_join, List.flatMap_map]

/-- The items of a layout on one line, between brackets. -/
theorem toList_lines (opening closing : String) (items : List Layout) :
    (opening ++ ", ".intercalate (lines items) ++ closing).toList =
      opening.toList ++
        group .line depth closing.toList (items.map (printItem .line (depth + 1))) := by
  have hitems : (lines items).map String.toList = items.map (printItem .line (depth + 1)) := by
    induction items with
    | nil => rfl
    | cons i items ih =>
      rw [lines, List.map_cons, List.map_cons, ih, printItem, print, Form.comma, List.append_nil]
  rw [String.append_assoc, String.toList_append, toList_intercalate depth, hitems]

theorem toList_blocks (opening closing : String) (items : List Layout) :
    (bracket opening closing depth (blocks (depth + 1) items)).toList =
      opening.toList ++
        group .block depth closing.toList (items.map (printItem .block (depth + 1))) := by
  have hitems : (blocks (depth + 1) items).map String.toList =
      items.map (printItem .block (depth + 1)) := by
    induction items with
    | nil => rfl
    | cons i items ih =>
      rw [blocks, List.map_cons, List.map_cons, ih, printItem, print, String.toList_append]
      rfl
  rw [toList_bracket, hitems]

/-! ### What they print -/

/-- Unfolding lemma: a word is printed as it is. -/
theorem print_word (s : String) : print f depth (.word s) = s.toList := by
  cases f <;> rfl

/-- Unfolding lemma: a list is a group between square brackets. -/
theorem print_list (items : List Layout) : print f depth (.list items) =
    '[' :: group f depth [']'] (items.map (printItem f (depth + 1))) := by
  cases f with
  | line => exact toList_lines depth "[" "]" items
  | block => exact toList_blocks depth "[" "]" items

/-- Unfolding lemma: a set is a group between braces. -/
theorem print_set (items : List Layout) : print f depth (.set items) =
    '{' :: group f depth ['}'] (items.map (printItem f (depth + 1))) := by
  cases f with
  | line => exact toList_lines depth "\x7b" "\x7d" items
  | block => exact toList_blocks depth "\x7b" "\x7d" items

/-- Unfolding lemma: the arguments of a constructor are a group between parentheses. -/
theorem print_apply (name : String) (args : List Layout) : print f depth (.apply name args) =
    name.toList ++ '(' :: group f depth [')'] (args.map (printItem f (depth + 1))) := by
  cases f with
  | line =>
    rw [print, line, toList_lines depth, String.toList_append, List.append_assoc]
    rfl
  | block =>
    rw [print, blockAt, String.toList_append, toList_blocks]
    rfl

/-- Unfolding lemma: the rows of a record are a group between braces, behind its name. -/
theorem print_record (name : String) (fields : List (String × Layout)) (isOpen : Bool) :
    print f depth (.record name fields isOpen) = name.toList ++ ' ' :: '{' ::
      (f.pad ++
        group f depth (f.pad ++ ['}']) ((rows fields isOpen).map (printRow f (depth + 1)))) := by
  rw [map_printRow_rows]
  cases f with
  | line =>
    rw [print, line, String.append_assoc, String.toList_append, toList_intercalate depth,
      List.map_append, map_toList_lineFields (depth + 1), String.toList_append, List.append_assoc]
    cases isOpen <;> rfl
  | block =>
    rw [print, blockAt, String.toList_append, toList_bracket, List.map_append,
      map_toList_blockFields, String.toList_append, List.append_assoc]
    cases isOpen <;> rfl

end Layout

/-! ### Items between brackets

In a block the closer stands on a line of its own, one level less deep than the items; on one line
it stands behind the last item. In both forms no item begins like the closer.
-/

/-- The text is not taken for the closer of a group, whatever comes behind it. -/
def IsItem (t : List Char) : Prop := ∃ c cs, t = c :: cs ∧ c ∉ [')', ']', '}', ' ']

/-- An item is told apart from any closer by its first character. -/
theorem IsItem.append_ne {t close : List Char} (ht : IsItem t) (hclose : close ∈ closers)
    (u v : List Char) : t ++ u ≠ close ++ v := by
  obtain ⟨c, cs, rfl, hc⟩ := ht
  simp only [closers, List.mem_cons, List.not_mem_nil, or_false] at hclose hc
  rcases hclose with rfl | rfl | rfl | rfl <;> grind

/-- Between items stands no closer. -/
theorem comma_append_ne {close : List Char} (h : close ∈ closers) (u v : List Char) :
    [',', ' '] ++ u ≠ close ++ v := by
  simp only [closers, List.mem_cons, List.not_mem_nil, or_false] at h
  rcases h with rfl | rfl | rfl | rfl <;> simp

/-- No closer begins with a line break. -/
theorem newline_append_ne {close : List Char} (h : close ∈ closers) (u v : List Char) :
    '\n' :: u ≠ close ++ v := by
  simp only [closers, List.mem_cons, List.not_mem_nil, or_false] at h
  rcases h with rfl | rfl | rfl | rfl <;> simp

/-- A closer stands one level less deep than the items before it. -/
theorem indent_append_ne {close : List Char} (h : close ∈ closers) (depth : Nat) (u v : List Char) :
    (Layout.indent (depth + 1)).toList ++ u ≠ (Layout.indent depth).toList ++ close ++ v := by
  have hindent : (Layout.indent (depth + 1)).toList =
      (Layout.indent depth).toList ++ [' ', ' ', ' ', ' '] := by
    rw [Layout.indent, Layout.indent, String.toList_ofList, String.toList_ofList, Nat.mul_succ,
      ← List.replicate_append_replicate]
    rfl
  rw [hindent, List.append_assoc, List.append_assoc]
  intro hu
  have hcancel := List.append_cancel_left hu
  simp only [closers, List.mem_cons, List.not_mem_nil, or_false] at h
  rcases h with rfl | rfl | rfl | rfl <;> simp at hcancel

/-- A group with an item is told apart from one without. -/
theorem group_ne_closer (f : Form) (depth : Nat) {close t : List Char} (hclose : close ∈ closers)
    (ht : IsItem t) (ts : List (List Char)) (u v : List Char) :
    group f depth close (t :: ts) ++ u ≠ close ++ v := by
  cases f with
  | line =>
    rw [group, List.append_assoc]
    exact ht.append_ne hclose _ _
  | block => exact newline_append_ne hclose _ _

/-- With a comma before the first item, too, the items on one line are a chain. -/
theorem comma_append_group (depth : Nat) (close : List Char) (z : α) (zs : List α) (u : List Char) :
    [',', ' '] ++ (group .line depth close ((z :: zs).map item) ++ u) =
      (z :: zs).flatMap ([',', ' '] ++ item ·) ++ (close ++ u) := by
  simp [group, List.flatMap_map]

/-- In a block they are one anyway, a line for each. -/
theorem group_block_append (depth : Nat) (close : List Char) (z : α) (zs : List α) (u : List Char) :
    group .block depth close ((z :: zs).map item) ++ u =
      '\n' :: ((z :: zs).flatMap (fun z => (Layout.indent (depth + 1)).toList ++ (item z ++ ['\n']))
        ++ ((Layout.indent depth).toList ++ close ++ u)) := by
  simp [group, List.flatMap_map]

/-- **Items between brackets.** Items that show where they end show it between brackets, too: the
    text of a group tells how many they are and which. -/
theorem group_append_inj {f : Form} {depth : Nat} {close : List Char} (hclose : close ∈ closers)
    (hitem : ∀ x ∈ xs, ∀ y ∈ ys, ∀ u v, f.Follows u → f.Follows v →
      item x ++ u = item y ++ v → x = y ∧ u = v)
    (hxs : ∀ x ∈ xs, IsItem (item x)) (hys : ∀ y ∈ ys, IsItem (item y))
    (h : group f depth close (xs.map item) ++ r = group f depth close (ys.map item) ++ s) :
    xs = ys ∧ r = s := by
  cases xs with
  | nil =>
    cases ys with
    | nil => exact ⟨rfl, List.append_cancel_left h⟩
    | cons y ys =>
      exact absurd h.symm (group_ne_closer f depth hclose (hys y List.mem_cons_self) _ _ _)
  | cons x xs =>
    cases ys with
    | nil => exact absurd h (group_ne_closer f depth hclose (hxs x List.mem_cons_self) _ _ _)
    | cons y ys =>
      cases f with
      | line =>
        have hcomma := congrArg ([',', ' '] ++ ·) h
        simp only [comma_append_group] at hcomma
        exact chain_append_inj (P := Ends) hitem (fun _ => ends_comma _) (ends_closer hclose)
          (comma_append_ne hclose) hcomma
      | block =>
        -- a line ends at its line break, whatever is in the item
        have hlines : ∀ z ∈ x :: xs, ∀ z' ∈ y :: ys, ∀ u v, True → True →
            item z ++ ['\n'] ++ u = item z' ++ ['\n'] ++ v → z = z' ∧ u = v := by
          intro z hz z' hz' u v _ _ h
          rw [List.append_assoc, List.append_assoc] at h
          obtain ⟨hzz', huv⟩ := hitem z hz z' hz' _ _ trivial trivial h
          exact ⟨hzz', (List.cons.inj huv).2⟩
        rw [group_block_append, group_block_append] at h
        exact chain_append_inj (P := fun _ => True) hlines (fun _ => trivial) (fun _ => trivial)
          (indent_append_ne hclose depth) (List.cons.inj h).2

/-! ### Layouts

No layout begins with white space or a closing bracket, so all of them are items; and each begins as
its shape does.
-/

/-- An item remains one with something behind it. -/
theorem IsItem.append {t : List Char} (h : IsItem t) (u : List Char) : IsItem (t ++ u) := by
  obtain ⟨c, cs, rfl, hc⟩ := h
  exact ⟨c, cs ++ u, rfl, hc⟩

/-- A word begins with a bare character. -/
theorem IsWord.exists_cons {s : String} (h : IsWord s) :
    ∃ c cs, s.toList = c :: cs ∧ Text.isBare c := by
  cases hs : s.toList with
  | nil => exact absurd hs h.1
  | cons c cs => exact ⟨c, cs, rfl, h.isBare c (hs ▸ List.mem_cons_self)⟩

/-- A word is an item, as it begins with a bare character. -/
theorem IsWord.isItem {s : String} (h : IsWord s) : IsItem s.toList := by
  obtain ⟨c, cs, hs, hbare⟩ := h.exists_cons
  refine ⟨c, cs, hs, fun hc => ?_⟩
  simp only [List.mem_cons, List.not_mem_nil, or_false] at hc
  rcases hc with rfl | rfl | rfl | rfl <;> exact absurd hbare (by decide)

namespace Layout

/-- The shape of a layout. -/
def shape : Layout → Shape
  | .word s => shapeOf s.toList
  | .record .. => .record
  | .apply .. => .apply
  | .list _ => .list
  | .set _ => .set

/-- What a shape says of a layout. -/
inductive OfShape : Shape → Layout → Prop
  | word {s : String} (h : IsWord s) : OfShape .word (.word s)
  | quoted (s : String) : OfShape .quoted (.quoted s)
  | record (name : String) (fields : List (String × Layout)) (isOpen : Bool) :
      OfShape .record (.record name fields isOpen)
  | apply (name : String) (args : List Layout) : OfShape .apply (.apply name args)
  | list (items : List Layout) : OfShape .list (.list items)
  | set (items : List Layout) : OfShape .set (.set items)

variable {f : Form} {depth : Nat} {l l' : Layout}

/-- A layout of a word that is one has the shape of a word. -/
theorem shape_word {s : String} (h : IsWord s) : (word s).shape = .word := by
  rw [shape, ← List.append_nil s.toList, shapeOf_word_append h, ends_nil.2]

/-- That of a quoted text has a shape of its own. -/
theorem shape_quoted (s : String) : (quoted s).shape = .quoted := by
  rw [Layout.quoted, shape, toList_quote]
  rfl

/-- Every legible layout is as its shape says. -/
theorem Legible.ofShape (hl : l.Legible) : OfShape l.shape l := by
  cases hl with
  | word h =>
    rw [shape_word h]
    exact .word h
  | quoted s =>
    rw [shape_quoted]
    exact .quoted s
  | record => exact .record ..
  | apply => exact .apply ..
  | list => exact .list _
  | set => exact .set _

/-- The shape of a layout is told by what its text begins with. -/
theorem shapeOf_print (hl : l.Legible) (hr : Ends r) :
    shapeOf (print f depth l ++ r) = l.shape := by
  cases hl with
  | word h => rw [print_word, shapeOf_word_append h, hr.2, shape_word h]
  | quoted s =>
    rw [shape_quoted, Layout.quoted, print_word, toList_quote]
    rfl
  | record hname =>
    rw [print_record, List.append_assoc, shapeOf_word_append hname]
    rfl
  | apply hname =>
    rw [print_apply, List.append_assoc, shapeOf_word_append hname]
    rfl
  | list =>
    rw [print_list]
    rfl
  | set =>
    rw [print_set]
    rfl

/-- A legible layout is an item. -/
theorem Legible.isItem (hl : l.Legible) : IsItem (print f depth l) := by
  cases hl with
  | word h =>
    rw [print_word]
    exact h.isItem
  | quoted s =>
    rw [Layout.quoted, print_word, toList_quote]
    exact ⟨'"', _, rfl, by decide⟩
  | record hname =>
    rw [print_record]
    exact hname.isItem.append _
  | apply hname =>
    rw [print_apply]
    exact hname.isItem.append _
  | list =>
    rw [print_list]
    exact ⟨'[', _, rfl, by decide⟩
  | set =>
    rw [print_set]
    exact ⟨'{', _, rfl, by decide⟩

/-! ### Rows of a record -/

/-- The rows of a record with a key are its fields. -/
theorem some_mem_rows {fields : List (String × Layout)} {isOpen : Bool} {field : String × Layout} :
    some field ∈ rows fields isOpen ↔ field ∈ fields := by
  cases isOpen <;> simp [rows]

/-- The rows of a record tell its fields, and whether it is open. -/
theorem rows_inj {fields fields' : List (String × Layout)} {isOpen isOpen' : Bool}
    (h : rows fields isOpen = rows fields' isOpen') : fields = fields' ∧ isOpen = isOpen' := by
  have hfields (fs : List (String × Layout)) (o : Bool) : (rows fs o).filterMap id = fs := by
    cases o <;> simp [rows, List.filterMap_append]
  have hopen (fs : List (String × Layout)) (o : Bool) : none ∈ rows fs o ↔ o := by
    cases o <;> simp [rows]
  refine ⟨?_, ?_⟩
  · rw [← hfields fields isOpen, h, hfields]
  · rw [Bool.eq_iff_iff, ← hopen fields isOpen, h, hopen]

/-! ### Layouts that print alike

The induction is over the first layout. Its shape is that of the second one, by the beginning of the
text, and then the items of the two are compared from the left.
-/

/-- The text of `l` is that of `l'` only if they are the same, whatever comes behind them. -/
def Told (f : Form) (depth : Nat) (l l' : Layout) : Prop :=
  ∀ r s, Ends r → Ends s → print f depth l ++ r = print f depth l' ++ s → l = l' ∧ r = s

/-- What is told by its text is told as an item. -/
theorem Told.printItem_inj (ht : Told f depth l l') (hr : f.Follows r) (hs : f.Follows s)
    (h : printItem f depth l ++ r = printItem f depth l' ++ s) : l = l' ∧ r = s := by
  rw [printItem, printItem, List.append_assoc, List.append_assoc] at h
  cases f with
  | line => exact ht r s hr hs h
  | block =>
    obtain ⟨hll', hcomma⟩ := ht _ _ (ends_comma r) (ends_comma s) h
    exact ⟨hll', (List.cons.inj hcomma).2⟩

/-- Layouts that are told by their texts are told by the text of a group of them. -/
theorem group_printItem_inj {close : List Char} {items items' : List Layout}
    (hclose : close ∈ closers) (hitems : ∀ i ∈ items, Legible i) (hitems' : ∀ i ∈ items', Legible i)
    (ht : ∀ i ∈ items, ∀ i' ∈ items', Told f (depth + 1) i i')
    (h : group f depth close (items.map (printItem f (depth + 1))) ++ r =
      group f depth close (items'.map (printItem f (depth + 1))) ++ s) : items = items' ∧ r = s :=
  group_append_inj hclose (fun i hi i' hi' _ _ => (ht i hi i' hi').printItem_inj)
    (fun i hi => (hitems i hi).isItem.append _) (fun i hi => (hitems' i hi).isItem.append _) h

/-- Every row of a record is an item. -/
theorem isItem_printRow {fields : List (String × Layout)} {isOpen : Bool}
    (hkeys : ∀ field ∈ fields, IsWord field.1) :
    ∀ row ∈ rows fields isOpen, IsItem (printRow f depth row) := by
  intro row hrow
  cases row with
  | none => exact ⟨'.', ['.'], rfl, by decide⟩
  | some field => exact (hkeys field (some_mem_rows.1 hrow)).isItem.append _

/-- The dots are not the beginning of a key, and a key ends at its colon. -/
theorem printRow_inj {row row' : Option (String × Layout)} (hkey : ∀ field ∈ row, IsWord field.1)
    (hkey' : ∀ field ∈ row', IsWord field.1)
    (ht : ∀ field ∈ row, ∀ field' ∈ row', Told f depth field.2 field'.2)
    (hr : f.Follows r) (hs : f.Follows s)
    (h : printRow f depth row ++ r = printRow f depth row' ++ s) : row = row' ∧ r = s := by
  -- A key begins with a bare character, and the dots do not.
  have hdots {key : String} (hk : IsWord key) (u v : List Char) : key.toList ++ u ≠ '.' :: v := by
    obtain ⟨c, cs, hc, hbare⟩ := hk.exists_cons
    rw [hc]
    intro he
    rw [(List.cons.inj he).1] at hbare
    exact absurd hbare (by decide)
  cases row with
  | none =>
    cases row' with
    | none => exact ⟨rfl, List.append_cancel_left h⟩
    | some field' =>
      rw [printRow, printRow, List.append_assoc] at h
      exact absurd h.symm (hdots (hkey' field' rfl) _ _)
  | some field =>
    cases row' with
    | none =>
      rw [printRow, printRow, List.append_assoc] at h
      exact absurd h (hdots (hkey field rfl) _ _)
    | some field' =>
      obtain ⟨key, l⟩ := field
      obtain ⟨key', l'⟩ := field'
      rw [printRow, printRow, List.append_assoc, List.append_assoc] at h
      -- The colon is not bare, so two keys end at the same place.
      obtain ⟨rfl, hrest⟩ := word_append_cons_inj (hkey _ rfl) (hkey' _ rfl) (by decide) h
      obtain ⟨rfl, rfl⟩ := (ht _ rfl _ rfl).printItem_inj hr hs (List.cons.inj hrest).2
      exact ⟨rfl, rfl⟩

/-- The fields of a record are told by the text of its rows, and so is whether it is open. -/
theorem group_printRow_inj {close : List Char} {fields fields' : List (String × Layout)}
    {isOpen isOpen' : Bool} (hclose : close ∈ closers)
    (hkeys : ∀ field ∈ fields, IsWord field.1) (hkeys' : ∀ field ∈ fields', IsWord field.1)
    (ht : ∀ field ∈ fields, ∀ field' ∈ fields', Told f (depth + 1) field.2 field'.2)
    (h : group f depth close ((rows fields isOpen).map (printRow f (depth + 1))) ++ r =
      group f depth close ((rows fields' isOpen').map (printRow f (depth + 1))) ++ s) :
    (fields = fields' ∧ isOpen = isOpen') ∧ r = s := by
  obtain ⟨hrows, hrs⟩ := group_append_inj hclose
    (fun row hrow row' hrow' _ _ => printRow_inj
      (fun field hf => hkeys field (some_mem_rows.1 (hf ▸ hrow)))
      (fun field hf => hkeys' field (some_mem_rows.1 (hf ▸ hrow')))
      (fun field hf field' hf' => ht field (some_mem_rows.1 (hf ▸ hrow)) field'
        (some_mem_rows.1 (hf' ▸ hrow'))))
    (isItem_printRow hkeys) (isItem_printRow hkeys') h
  exact ⟨rows_inj hrows, hrs⟩

/-- Texts that begin alike begin with the same shape. -/
theorem told_of_ofShape (hl : l.Legible) (hl' : l'.Legible)
    (h : OfShape l.shape l' → Told f depth l l') : Told f depth l l' := by
  intro r s hr hs htext
  have hshape : l.shape = l'.shape := by
    have hread : shapeOf (print f depth l ++ r) = l.shape := shapeOf_print hl hr
    rw [← hread, htext, shapeOf_print hl' hs]
  exact h (hshape ▸ hl'.ofShape) r s hr hs htext

/-- **Reading back.** A legible layout is `Told` by its text, in either form and at any depth. There
    is one case for each way to be legible. -/
theorem told (hl : l.Legible) (hl' : l'.Legible) : Told f depth l l' := by
  -- the other layout has the same shape, so the induction is on one of them
  induction hl generalizing depth l' with
  | @word v hv =>
    refine told_of_ofShape (.word hv) hl' fun hof r s hr hs h => ?_
    rw [shape_word hv] at hof
    cases hof with
    | word hw =>
      obtain ⟨rfl, hrs⟩ := word_append_inj hv hw hr.1 hs.1 (by simpa [print_word] using h)
      exact ⟨rfl, hrs⟩
  | quoted v =>
    refine told_of_ofShape (.quoted v) hl' fun hof r s hr hs h => ?_
    rw [shape_quoted] at hof
    cases hof with
    | quoted w =>
      obtain ⟨rfl, hrs⟩ := quote_append_inj (by simpa [quoted, print_word] using h)
      exact ⟨rfl, hrs⟩
  | record hname hkeys hfields ih =>
    refine told_of_ofShape (.record hname hkeys hfields) hl' fun hof r s hr hs h => ?_
    cases hof with
    | record name' fields' isOpen' =>
      cases hl' with
      | record hname' hkeys' hfields' =>
        have hclose : f.pad ++ ['}'] ∈ closers := by cases f <;> decide
        simp only [print_record, List.append_assoc, List.cons_append] at h
        obtain ⟨rfl, hbraces⟩ := word_append_cons_inj hname hname' (by decide) h
        obtain ⟨⟨rfl, rfl⟩, hrs⟩ := group_printRow_inj hclose hkeys hkeys'
          (fun field hf field' hf' => ih field hf (hfields' field' hf'))
          (List.append_cancel_left (List.cons.inj hbraces).2)
        exact ⟨rfl, hrs⟩
  | apply hname hargs ih =>
    refine told_of_ofShape (.apply hname hargs) hl' fun hof r s hr hs h => ?_
    cases hof with
    | apply name' args' =>
      cases hl' with
      | apply hname' hargs' =>
        rw [print_apply, print_apply, List.append_assoc, List.append_assoc] at h
        obtain ⟨rfl, hgroup⟩ := word_append_cons_inj hname hname' (by decide) h
        obtain ⟨rfl, hrs⟩ := group_printItem_inj (by decide) hargs hargs'
          (fun a ha a' ha' => ih a ha (hargs' a' ha')) hgroup
        exact ⟨rfl, hrs⟩
  | list hitems ih =>
    refine told_of_ofShape (.list hitems) hl' fun hof r s hr hs h => ?_
    cases hof with
    | list items' =>
      cases hl' with
      | list hitems' =>
        rw [print_list, print_list] at h
        obtain ⟨rfl, hrs⟩ := group_printItem_inj (by decide) hitems hitems'
          (fun i hi i' hi' => ih i hi (hitems' i' hi')) (List.cons.inj h).2
        exact ⟨rfl, hrs⟩
  | set hitems ih =>
    refine told_of_ofShape (.set hitems) hl' fun hof r s hr hs h => ?_
    cases hof with
    | set items' =>
      cases hl' with
      | set hitems' =>
        rw [print_set, print_set] at h
        obtain ⟨rfl, hrs⟩ := group_printItem_inj (by decide) hitems hitems'
          (fun i hi i' hi' => ih i hi (hitems' i' hi')) (List.cons.inj h).2
        exact ⟨rfl, hrs⟩

/-- Numbers are legible. -/
theorem legible_number (n : Nat) : (number n).Legible := .word (isWord_toString_nat n)

/-- Quotes tell what is between them. -/
theorem quoted_inj {s t : String} (h : quoted s = quoted t) : s = t := by
  injection h with htext
  exact (quote_append_inj (r := []) (s := []) (by rw [htext])).1

/-- Digits tell the number. -/
theorem number_inj {m n : Nat} : number m = number n ↔ m = n := by
  refine ⟨fun h => ?_, congrArg _⟩
  injection h with htext
  exact eq_of_toList_toString (congrArg String.toList htext)

/-- A layout is known by its text, in either form. -/
theorem print_inj (f : Form) (depth : Nat) (hl : l.Legible) (hl' : l'.Legible) :
    print f depth l = print f depth l' ↔ l = l' := by
  refine ⟨fun h => ?_, fun h => h ▸ rfl⟩
  exact (told hl hl' [] [] ends_nil ends_nil (by rw [h])).1

theorem line_inj (hl : l.Legible) (hl' : l'.Legible) : l.line = l'.line ↔ l = l' := by
  rw [← print_inj .line 0 hl hl', print, print, String.toList_inj]

theorem block_inj (hl : l.Legible) (hl' : l'.Legible) : l.block = l'.block ↔ l = l' := by
  rw [← print_inj .block 0 hl hl', print, print, String.toList_inj, block, block]

end Layout

end StackMachine.Text
