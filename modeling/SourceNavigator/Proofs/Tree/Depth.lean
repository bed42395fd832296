import SourceNavigator.Proofs.Tree.Recovery

set_option autoImplicit false

/-! # Trees of lesser depth

Whether an entry is the last one of its directory does not depend on what is shown below it. So the rows
of a tree are those rows of any deeper tree that are not longer than its depth (`treeRows_of_le`), and of
the directories that the deeper tree has listed it lists some (`allListed_of_le`). A lesser depth leaves
lines out and does nothing else (`list_of_le`). Which lines these are can be told from the deeper tree's
text, where each line shows its level (`shallowText`).
-/

namespace SourceNavigator.Tree

open SourceNavigator.Path (Route)
open World (Node)

/-! ## Rows -/

/-- The rows of entries that are nested no deeper than `depth`. An entry of the drawn directory itself is
nested one deep. -/
def shallowRows (depth : Int) (rows : List Row) : List Row :=
  rows.filter fun row => decide ((row.length : Int) ≤ depth)

theorem shallowRows_append (depth : Int) (a b : List Row) :
    shallowRows depth (a ++ b) = shallowRows depth a ++ shallowRows depth b :=
  List.filter_append a b

/-- The rows below an entry are one longer than those of what is in it. -/
theorem shallowRows_map_cons (depth : Nat) (mark : Entry × Bool) (rows : List Row) :
    shallowRows (depth + 1 : Nat) (rows.map (mark :: ·)) = (shallowRows depth rows).map (mark :: ·) := by
  rw [shallowRows, List.filter_map]
  refine congrArg (List.map _) (List.filter_congr fun row _ => ?_)
  rw [Function.comp_apply, List.length_cons, decide_eq_decide]
  omega

theorem joinRows_shallowRows {inner inner' : Entry → List Row} {depth : Nat}
    (h : ∀ e, inner e = shallowRows depth (inner' e)) (es : List Entry) :
    joinRows inner es = shallowRows (depth + 1 : Nat) (joinRows inner' es) := by
  induction es with
  | nil => rfl
  | cons e rest ih =>
      have hfirst (rows : List Row) : shallowRows (depth + 1 : Nat) ([(e, rest.isEmpty)] :: rows)
          = [(e, rest.isEmpty)] :: shallowRows (depth + 1 : Nat) rows := by
        refine List.filter_cons_of_pos (decide_eq_true ?_)
        rw [List.length_singleton]
        omega
      rw [joinRows, joinRows, hfirst, shallowRows_append, shallowRows_map_cons, ih, h]

/-- **A lesser depth leaves rows out**, and keeps all others with their marks. -/
theorem treeRows_of_le {entries : Route → List Entry} {depth depth' : Nat} (h : depth ≤ depth')
    (r : Route) : treeRows entries depth r = shallowRows depth (treeRows entries depth' r) := by
  induction depth generalizing depth' r with
  | zero =>
      have hnone : shallowRows (0 : Nat) (treeRows entries depth' r) = [] := by
        refine List.filter_eq_nil_iff.mpr fun row hrow => ?_
        have hpos := List.length_pos_of_ne_nil (ne_nil_of_mem_treeRows hrow)
        rw [decide_eq_true_iff]
        omega
      rw [hnone, treeRows]
  | succ depth ih =>
      obtain ⟨depth', rfl⟩ := Nat.exists_eq_add_of_le' (Nat.lt_of_lt_of_le (Nat.succ_pos depth) h)
      rw [treeRows, treeRows]
      -- both trees list the same siblings here, so only what is below each of them is compared
      apply joinRows_shallowRows
      intro e
      split
      · exact ih (Nat.le_of_succ_le_succ h) (r.child e.name)
      · rfl

/-- **A lesser depth lists some of the same directories.** -/
theorem allListed_of_le {ε : Type} {list : Route → Except ε (List Entry)} {depth depth' : Nat}
    (h : depth ≤ depth') {r : Route} (hall : AllListed list depth' r) : AllListed list depth r := by
  induction depth generalizing depth' r with
  | zero => trivial
  | succ depth ih =>
      obtain ⟨depth', rfl⟩ := Nat.exists_eq_add_of_le' (Nat.lt_of_lt_of_le (Nat.succ_pos depth) h)
      obtain ⟨es, hlist, hbelow⟩ := hall
      exact ⟨es, hlist, fun e he hdir => ih (Nat.le_of_succ_le_succ h) (hbelow e he hdir)⟩

/-- A depth below one keeps no row, as zero does. -/
theorem shallowRows_toNat {rows : List Row} (h : ∀ row ∈ rows, row ≠ []) (depth : Int) :
    shallowRows depth.toNat rows = shallowRows depth rows := by
  refine List.filter_congr fun row hrow => ?_
  have hpos := List.length_pos_of_ne_nil (h row hrow)
  rw [decide_eq_decide]
  omega

/-! ## Lines -/

/-- The text without the lines of entries that are nested deeper than `depth`. -/
def shallowText (depth : Int) (text : String) : String :=
  Text.glueStrings "\n" ((Text.cutString '\n' text).filter fun line =>
    (readLine line.toList).any fun item => decide ((item.1 : Int) < depth))

/-- The level of an entry is the number of directories on the way to it. -/
theorem exists_rowItem? {row : Row} (h : row ≠ []) :
    ∃ level e, rowItem? row = some (level, e) ∧ level + 1 = row.length := by
  induction row with
  | nil => exact absurd rfl h
  | cons mark rest ih =>
      by_cases hnil : rest = []
      · subst hnil
        exact ⟨0, mark.1, rfl, rfl⟩
      · obtain ⟨level, e, hitem, hlevel⟩ := ih hnil
        refine ⟨level + 1, e, ?_, by rw [hlevel, List.length_cons]⟩
        rw [rowItem?_cons hnil, hitem]
        rfl

/-- The lines to leave out are told by what they show. -/
theorem shallowText_glueStrings {rows : List Row} (hne : ∀ row ∈ rows, row ≠ [])
    (hslash : ∀ row ∈ rows, ∀ e ∈ rowSteps row, '/' ∉ e.name.toList)
    (hnewline : ∀ row ∈ rows, ∀ e ∈ rowSteps row, '\n' ∉ e.name.toList) (depth : Int) :
    shallowText depth (Text.glueStrings "\n" (rows.map rowText))
      = Text.glueStrings "\n" ((shallowRows depth rows).map rowText) := by
  by_cases hnil : rows = []
  · subst hnil
    rfl
  · rw [shallowText, cut_glueStrings_rows hnil hnewline, List.filter_map]
    refine congrArg (fun kept : List Row => Text.glueStrings "\n" (kept.map rowText)) ?_
    refine List.filter_congr fun row hrow => ?_
    -- the level that the line shows is one less than the length of its row
    obtain ⟨level, e, hitem, hlevel⟩ := exists_rowItem? (hne row hrow)
    rw [Function.comp_apply, readLine_rowText (hslash row hrow), hitem, Option.any_some, decide_eq_decide]
    omega

/-! ## Drawing to a lesser depth -/

section Cut

variable {w : World} {ending : String} {depth : Nat} {r : Route}

theorem isShown_of_mem_treeRows (htree : w.tree.isSound = true)
    (hall : AllListed (listDirectory w ending) depth r) {row : Row}
    (hrow : row ∈ treeRows (entriesOf (listDirectory w ending)) depth r) :
    IsShown w ending depth r (rowSteps row) :=
  (leads_iff htree hall).mp (mem_treeRows.mp (List.mem_map_of_mem hrow))

theorem slash_not_mem_of_mem_treeRows (htree : w.tree.isSound = true)
    (hall : AllListed (listDirectory w ending) depth r) {row : Row}
    (hrow : row ∈ treeRows (entriesOf (listDirectory w ending)) depth r) :
    ∀ e ∈ rowSteps row, '/' ∉ e.name.toList := by
  intro e he
  obtain ⟨top, -, hway⟩ := (isShown_of_mem_treeRows htree hall hrow).way
  exact (isFileName_of_isWay htree hway e he).1.2

end Cut

/-- **A lesser depth leaves lines out and does nothing else.** If a tree is drawn to some depth, it is
drawn to every lesser one. The rows of the deeper tree draw what is shown to that depth, and those of them
that belong to entries nested no deeper than the lesser depth make up the other tree: the same lines, in
the same order, with the same marks, which are the right ones there too. Unless a name holds a newline, the
lines to leave out can be told from the text of the deeper tree. -/
theorem list_of_le {w : World} (htree : w.tree.isSound = true) {ending : String} {depth depth' : Int}
    (h : depth ≤ depth') {r : Route} {s : Session} {text : String}
    (htext : (list w ending depth' r s).1 = .ok text) (s' : Session) :
    ∃ rows, IsDrawing (IsShown w ending depth' r) rows ∧
      text = Text.glueStrings "\n" (rows.map rowText) ∧
      IsDrawing (IsShown w ending depth r) (shallowRows depth rows) ∧
      (list w ending depth r s').1
        = .ok (Text.glueStrings "\n" ((shallowRows depth rows).map rowText)) ∧
      ((∀ row ∈ rows, ∀ e ∈ rowSteps row, '\n' ∉ e.name.toList) →
        (list w ending depth r s').1 = .ok (shallowText depth text)) := by
  obtain ⟨hlisted, rfl⟩ := allListed_of_list htext
  have hle : depth.toNat ≤ depth'.toNat := by omega
  have hshown (k : Int) : IsShown w ending k.toNat r = IsShown w ending k r :=
    funext fun steps => propext isShown_toNat
  have hne : ∀ row ∈ treeRows (entriesOf (listDirectory w ending)) depth'.toNat r, row ≠ [] :=
    fun row hrow => ne_nil_of_mem_treeRows hrow
  have hrows : treeRows (entriesOf (listDirectory w ending)) depth.toNat r
      = shallowRows depth (treeRows (entriesOf (listDirectory w ending)) depth'.toNat r) := by
    rw [treeRows_of_le hle, shallowRows_toNat hne]
  have hall := hlisted.mono listDirectory_of_listBelow
  have hless := allListed_of_le hle hlisted
  have hdrawn := (list_fst w ending depth r s').trans (render_of_allListed hless)
  have hdrawing := isDrawing_treeRows htree hall
  have hdrawingLess := isDrawing_treeRows htree (hless.mono listDirectory_of_listBelow)
  rw [hshown] at hdrawing hdrawingLess
  rw [hrows] at hdrawn hdrawingLess
  refine ⟨_, hdrawing, rfl, hdrawingLess, hdrawn, fun hnewline => ?_⟩
  rw [hdrawn, shallowText_glueStrings hne
    (fun row hrow => slash_not_mem_of_mem_treeRows htree hall hrow) hnewline]

/-! A directory with an entry on each of four levels. -/

def nestedWorld : World :=
  ⟨.dir [("lib", .dir [("a.php", .file []), ("in", .dir [("x", .dir [("y", .dir [])])])])], [], "/", [], []⟩

/-- Its tree to a depth of three. -/
def nestedText : String := "└── lib/\n    ├── in/\n    │   └── x/\n    └── a.php"

theorem list_of_le_nested :
    nestedWorld.tree.isSound = true ∧ (2 : Int) ≤ 3 ∧
      (list nestedWorld ".php" 3 ⟨.root, []⟩ (Session.begin [] infoSeverity)).1 = .ok nestedText ∧
      (list nestedWorld ".php" 2 ⟨.root, []⟩ (Session.begin [] infoSeverity)).1
        = .ok "└── lib/\n    ├── in/\n    └── a.php" := by
  have htree : nestedWorld.tree.isSound = true := by decide +kernel
  have htext : (list nestedWorld ".php" 3 ⟨.root, []⟩ (Session.begin [] infoSeverity)).1
      = .ok nestedText := eq_ok_of_toOption (by decide +kernel)
  refine ⟨htree, by decide, htext, ?_⟩
  obtain ⟨rows, hdrawing, -, -, -, hcut⟩ := list_of_le htree (show (2 : Int) ≤ 3 by decide) htext
    (Session.begin [] infoSeverity)
  have hall := (allListed_of_list htext).1.mono listDirectory_of_listBelow
  have hnewline : ∀ row ∈ rows, ∀ e ∈ rowSteps row, '\n' ∉ e.name.toList := by
    intro row hrow
    have hshown := (hdrawing.complete _).mp (List.mem_map_of_mem hrow)
    have hrows : ∀ steps ∈ (treeRows (entriesOf (listDirectory nestedWorld ".php")) 3
        ⟨.root, []⟩).map rowSteps, ∀ e ∈ steps, '\n' ∉ e.name.toList := by decide +kernel
    exact hrows _ (mem_treeRows.mpr ((leads_iff htree hall).mpr (isShown_toNat.mpr hshown)))
  rw [hcut hnewline]
  exact congrArg Except.ok (by decide +kernel)

end SourceNavigator.Tree
