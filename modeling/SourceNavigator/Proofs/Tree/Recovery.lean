import SourceNavigator.Proofs.Tree.Drawing

set_option autoImplicit false

/-! # A tree is read back from its text

What a tree shows is a `Forest`: entries in order, each directory with what is shown in it
(`shownForest`). `readTree` finds the forest again from the text alone. A line falls into a bar or a blank
for each level, a connector and a name (`readLine`), and the first connector ends the levels whatever the
name looks like. The levels tell what is in what: read from the last line to the first, an entry takes
what is pending one level below as its contents (`assemble_items`).

So the text of a tree is not ambiguous, unless a name holds a newline (`readTree_list`).
-/

namespace SourceNavigator.Tree

open SourceNavigator.Path (Route)
open World (Node Place)

/-! ## Forests -/

/-- Entries in order, each directory with what is shown in it. -/
inductive Forest where
  | nil
  | file (name : String) (rest : Forest)
  | directory (name : String) (inner rest : Forest)
  deriving DecidableEq, Repr

namespace Forest

/-- The forest with one more entry before the others; what is in it counts for a directory only. -/
def cons (e : Entry) (inner rest : Forest) : Forest :=
  if e.isDirectory then directory e.name inner rest else file e.name rest

/-- The forest of the entries of one directory, if the forest in each of them is known. -/
def ofEntries (inner : Entry → Forest) : List Entry → Forest
  | [] => nil
  | e :: rest => cons e (inner e) (ofEntries inner rest)

/-- The ways to the entries, in pre-order. -/
def ways : Forest → List (List Entry)
  | nil => []
  | file name rest => [⟨name, false⟩] :: rest.ways
  | directory name inner rest =>
    [⟨name, true⟩] :: (inner.ways.map (⟨name, true⟩ :: ·) ++ rest.ways)

/-- The entries in pre-order, each with its level. -/
def items (level : Nat) : Forest → List (Nat × Entry)
  | nil => []
  | file name rest => (level, ⟨name, false⟩) :: rest.items level
  | directory name inner rest =>
    (level, ⟨name, true⟩) :: (inner.items (level + 1) ++ rest.items level)

end Forest

/-- What a directory shows to a depth; `entries` gives the entries to show of each directory. -/
def forestOf (entries : Route → List Entry) : (depth : Nat) → Route → Forest
  | 0, _ => .nil
  | depth + 1, r => .ofEntries (fun e => forestOf entries depth (r.child e.name)) (entries r)

/-- What the tree of a directory shows. -/
def shownForest (w : World) (ending : String) (depth : Int) (r : Route) : Forest :=
  forestOf (entriesOf (listDirectory w ending)) depth.toNat r

/-! ## Reading -/

/-- An entry one level further down. -/
def deepen (item : Nat × Entry) : Nat × Entry := (item.1 + 1, item.2)

/-- Reads an entry; a slash at the end is that of a directory. -/
def readEntry (cs : List Char) : Entry :=
  if cs.getLast? = some '/' then ⟨String.ofList cs.dropLast, true⟩ else ⟨String.ofList cs, false⟩

/-- Reads a line: a bar or a blank for each level, then a connector and an entry. -/
def readLine : List Char → Option (Nat × Entry)
  | '│' :: ' ' :: ' ' :: ' ' :: cs => (readLine cs).map deepen
  | ' ' :: ' ' :: ' ' :: ' ' :: cs => (readLine cs).map deepen
  | '├' :: '─' :: '─' :: ' ' :: cs => some (0, readEntry cs)
  | '└' :: '─' :: '─' :: ' ' :: cs => some (0, readEntry cs)
  | _ => none

/-- What is pending on each level with one more entry before it. The entry takes what is pending one
level below it, and nothing is left there. -/
def putItem (item : Nat × Entry) (pending : Nat → Forest) (level : Nat) : Forest :=
  if level < item.1 then pending level
  else if level = item.1 then .cons item.2 (pending (level + 1)) (pending level)
  else .nil

/-- The forest of entries in pre-order, each with its level. -/
def assemble (items : List (Nat × Entry)) : Forest := items.foldr putItem (fun _ => .nil) 0

/-- Reads a drawn tree. -/
def readTree (text : String) : Forest :=
  assemble ((Text.cutString '\n' text).filterMap fun line => readLine line.toList)

/-! ## Levels tell what is in what -/

theorem items_succ (f : Forest) (level : Nat) :
    f.items (level + 1) = (f.items level).map deepen := by
  induction f generalizing level with
  | nil => rfl
  | file name rest ih => rw [Forest.items, Forest.items, ih, List.map_cons]; rfl
  | directory name inner rest ihInner ihRest =>
      rw [Forest.items, Forest.items, ihInner, ihRest, List.map_cons, List.map_append]
      rfl

theorem items_cons (e : Entry) (inner rest : Forest) (level : Nat) :
    (Forest.cons e inner rest).items level
      = (level, e) :: ((if e.isDirectory then inner.items (level + 1) else []) ++ rest.items level) := by
  obtain ⟨name, isDirectory⟩ := e
  cases isDirectory with
  | true => rfl
  | false => rfl

/-- **Entries are put into the directories that they were in.** What was pending above their level stays,
and below it nothing is left. -/
theorem foldr_putItem_items (f : Forest) (level : Nat) {pending : Nat → Forest}
    (h : ∀ k, level ≤ k → pending k = .nil) :
    (f.items level).foldr putItem pending = fun k => if k = level then f else pending k := by
  induction f generalizing level pending with
  | nil =>
      funext k
      by_cases hk : k = level
      · rw [if_pos hk, hk]
        exact h level (Nat.le_refl level)
      · rw [if_neg hk]
        rfl
  | file name rest ih =>
      rw [Forest.items, List.foldr_cons, ih level h]
      funext k
      have hbelow : level < k → pending k = .nil := fun hk => h k (Nat.le_of_lt hk)
      rcases Nat.lt_trichotomy k level with hk | hk | hk
      · simp [putItem, hk, Nat.ne_of_lt hk]
      · simp [putItem, hk, Forest.cons]
      · simp [putItem, Nat.not_lt.mpr (Nat.le_of_lt hk), Nat.ne_of_gt hk, hbelow hk]
  | directory name inner rest ihInner ihRest =>
      -- the entries behind the directory are pending first, then what is in it one level below
      have hinner (k : Nat) (hk : level + 1 ≤ k) : (if k = level then rest else pending k) = .nil := by
        rw [if_neg (by omega)]
        exact h k (by omega)
      rw [Forest.items, List.foldr_cons, List.foldr_append, ihRest level h, ihInner (level + 1) hinner]
      funext k
      have hbelow : level < k → pending k = .nil := fun hk => h k (Nat.le_of_lt hk)
      rcases Nat.lt_trichotomy k level with hk | hk | hk
      · simp [putItem, hk, Nat.ne_of_lt hk, show k ≠ level + 1 by omega]
      · simp [putItem, hk, Forest.cons]
      · simp [putItem, Nat.not_lt.mpr (Nat.le_of_lt hk), Nat.ne_of_gt hk, hbelow hk]

theorem assemble_items (f : Forest) : assemble (f.items 0) = f := by
  have hnil : ∀ k, 0 ≤ k → (fun _ => .nil : Nat → Forest) k = .nil := fun _ _ => rfl
  rw [assemble, foldr_putItem_items f 0 hnil]
  rfl

/-! ## Lines -/

/-- The entry of a row with its level. -/
def rowItem? : Row → Option (Nat × Entry)
  | [] => none
  | [(e, _)] => some (0, e)
  | _ :: rest => (rowItem? rest).map deepen

theorem rowItem?_cons {row : Row} (h : row ≠ []) (mark : Entry × Bool) :
    rowItem? (mark :: row) = (rowItem? row).map deepen := by
  obtain ⟨next, others, rfl⟩ := List.exists_cons_of_ne_nil h
  rfl

/-- An entry is read back, if its name holds no slash. -/
theorem readEntry_name {e : Entry} (h : '/' ∉ e.name.toList) :
    readEntry (e.name ++ if e.isDirectory then "/" else "").toList = e := by
  obtain ⟨name, isDirectory⟩ := e
  cases isDirectory with
  | true =>
      have hslash : (name ++ "/").toList = name.toList ++ ['/'] := by rw [String.toList_append]; rfl
      show readEntry (name ++ "/").toList = _
      rw [hslash, readEntry, List.getLast?_concat, if_pos rfl, List.dropLast_concat, String.ofList_toList]
  | false =>
      show readEntry (name ++ "").toList = _
      rw [String.append_empty, readEntry, if_neg, String.ofList_toList]
      intro hlast
      exact h (List.mem_of_getLast? hlast)

theorem readLine_connector (isLast : Bool) (cs : List Char) :
    readLine ((connector isLast).toList ++ cs) = some (0, readEntry cs) := by
  cases isLast with
  | true => rfl
  | false => rfl

theorem readLine_indent (isLast : Bool) (cs : List Char) :
    readLine ((indent isLast).toList ++ cs) = (readLine cs).map deepen := by
  cases isLast with
  | true => rfl
  | false => rfl

/-- **A line is read back.** What the name starts with makes no difference, because a connector is
neither a bar nor a blank. -/
theorem readLine_rowText {row : Row} (h : ∀ e ∈ rowSteps row, '/' ∉ e.name.toList) :
    readLine (rowText row).toList = rowItem? row := by
  induction row with
  | nil => rfl
  | cons mark rest ih =>
      obtain ⟨e, isLast⟩ := mark
      obtain ⟨hfirst, hrest⟩ := List.forall_mem_cons.mp h
      by_cases hnil : rest = []
      · subst hnil
        have hline : rowText [(e, isLast)]
            = connector isLast ++ (e.name ++ if e.isDirectory then "/" else "") := by
          rw [rowText, entryLine, String.empty_append, String.append_assoc]
        rw [hline, String.toList_append, readLine_connector, readEntry_name hfirst]
        rfl
      · rw [rowText_cons hnil, String.toList_append, readLine_indent, ih hrest, rowItem?_cons hnil]

/-! ## The rows of a forest -/

theorem ways_cons (e : Entry) (inner rest : Forest) :
    (Forest.cons e inner rest).ways
      = [e] :: ((if e.isDirectory then inner.ways else []).map (e :: ·) ++ rest.ways) := by
  obtain ⟨name, isDirectory⟩ := e
  cases isDirectory with
  | true => rfl
  | false => rfl

theorem ways_ofEntries {inner : Entry → List Row} {forest : Entry → Forest}
    (hinner : ∀ e, (inner e).map rowSteps = if e.isDirectory then (forest e).ways else [])
    (es : List Entry) :
    (joinRows inner es).map rowSteps = (Forest.ofEntries forest es).ways := by
  induction es with
  | nil => rfl
  | cons e rest ih =>
      have hfirst : ((inner e).map ((e, rest.isEmpty) :: ·)).map rowSteps
          = ((inner e).map rowSteps).map (e :: ·) := by
        rw [List.map_map, List.map_map]
        rfl
      rw [joinRows, List.map_cons, List.map_append, hfirst, ih, hinner, Forest.ofEntries, ways_cons]
      rfl

theorem items_ofEntries {inner : Entry → List Row} {forest : Entry → Forest}
    (hinner : ∀ e, (inner e).map rowItem?
      = (if e.isDirectory then (forest e).items 0 else []).map some)
    (hne : ∀ e, ∀ row ∈ inner e, row ≠ []) (es : List Entry) :
    (joinRows inner es).map rowItem? = ((Forest.ofEntries forest es).items 0).map some := by
  induction es with
  | nil => rfl
  | cons e rest ih =>
      have hfirst : ((inner e).map ((e, rest.isEmpty) :: ·)).map rowItem?
          = ((inner e).map rowItem?).map (Option.map deepen) := by
        rw [List.map_map, List.map_map]
        exact List.map_congr_left fun row hrow => rowItem?_cons (hne e row hrow) _
      -- the rows below an entry are one deeper than they are by themselves
      have hdeeper : ((if e.isDirectory then (forest e).items 0 else []).map some).map
            (Option.map deepen)
          = (if e.isDirectory then (forest e).items (0 + 1) else []).map some := by
        rw [List.map_map, items_succ]
        cases e.isDirectory with
        | true =>
            simp only [if_true, List.map_map]
            rfl
        | false => rfl
      rw [joinRows, List.map_cons, List.map_append, hfirst, ih, hinner, hdeeper, Forest.ofEntries,
        items_cons, List.map_cons, List.map_append]
      rfl

/-- **The rows of a tree lead to the entries of its forest**, in the same order. -/
theorem ways_forestOf (entries : Route → List Entry) (depth : Nat) (r : Route) :
    (treeRows entries depth r).map rowSteps = (forestOf entries depth r).ways := by
  induction depth generalizing r with
  | zero => rfl
  | succ depth ih =>
      apply ways_ofEntries
      intro e
      split
      · exact ih _
      · rfl

theorem items_forestOf (entries : Route → List Entry) (depth : Nat) (r : Route) :
    (treeRows entries depth r).map rowItem? = ((forestOf entries depth r).items 0).map some := by
  induction depth generalizing r with
  | zero => rfl
  | succ depth ih =>
      apply items_ofEntries
      · intro e
        split
        · exact ih _
        · rfl
      · intro e row hrow
        split at hrow
        · exact ne_nil_of_mem_treeRows hrow
        · exact absurd hrow List.not_mem_nil

/-! ## Reading what is drawn -/

/-- Rows are read back from their lines, if no name holds a newline or a slash. -/
theorem readTree_glueStrings {rows : List Row} {f : Forest}
    (hitems : rows.map rowItem? = (f.items 0).map some)
    (hnewline : ∀ row ∈ rows, ∀ e ∈ rowSteps row, '\n' ∉ e.name.toList)
    (hslash : ∀ row ∈ rows, ∀ e ∈ rowSteps row, '/' ∉ e.name.toList) :
    readTree (Text.glueStrings "\n" (rows.map rowText)) = f := by
  have hlines : (Text.cutString '\n' (Text.glueStrings "\n" (rows.map rowText))).filterMap
      (fun line => readLine line.toList) = f.items 0 := by
    by_cases hnil : rows = []
    · -- a tree that shows nothing has one empty line, which is that of no entry
      subst hnil
      have hnone : f.items 0 = [] := List.map_eq_nil_iff.mp hitems.symm
      rw [hnone]
      rfl
    · have hread : rows.map (fun row => readLine (rowText row).toList) = rows.map rowItem? :=
        List.map_congr_left fun row hrow => readLine_rowText (hslash row hrow)
      calc (Text.cutString '\n' (Text.glueStrings "\n" (rows.map rowText))).filterMap
            (fun line => readLine line.toList)
          = (rows.map rowText).filterMap (fun line => readLine line.toList) := by
            rw [cut_glueStrings_rows hnil hnewline]
        _ = (rows.map fun row => readLine (rowText row).toList).filterMap id := by
            rw [List.filterMap_map, List.filterMap_map]
            rfl
        _ = ((f.items 0).map some).filterMap id := by rw [hread, hitems]
        _ = f.items 0 := by
            rw [List.filterMap_map]
            exact List.filterMap_some
  rw [readTree, hlines, assemble_items]

/-- A tree that is drawn has all its directories listed. -/
theorem allListed_of_list {w : World} {ending : String} {depth : Int} {r : Route} {s : Session}
    {text : String} (h : (list w ending depth r s).1 = .ok text) :
    AllListed (listBelow w ending r) depth.toNat r ∧
      text = Text.glueStrings "\n"
        ((treeRows (entriesOf (listDirectory w ending)) depth.toNat r).map rowText) := by
  rw [list_fst] at h
  rcases allListed_or_firstFails (listBelow w ending r) depth.toNat r with
    hall | ⟨steps, failure, hfails⟩
  · rw [render_of_allListed hall] at h
    exact ⟨hall, (Except.ok.inj h).symm⟩
  · rw [render, treeLines_of_firstFails hfails] at h
    cases h

/-- **The text of a tree is not ambiguous.** `readTree` finds from the text alone what the tree shows:
the entries with their names and kinds, in order, each in its directory. These are exactly the ways of
the files that are to be shown, in pre-order. So two trees with the same text show the same. Only a
newline in a name is excluded; a name may look like connectors, bars and blanks. -/
theorem readTree_list {w : World} (htree : w.tree.isSound = true) {ending : String} {depth : Int}
    {r : Route} {s : Session} {text : String} (htext : (list w ending depth r s).1 = .ok text)
    (hnames : ∀ steps, IsShown w ending depth r steps → ∀ e ∈ steps, '\n' ∉ e.name.toList) :
    readTree text = shownForest w ending depth r ∧
      (∀ steps, steps ∈ (readTree text).ways ↔ IsShown w ending depth r steps) ∧
      (readTree text).ways.Pairwise StepsBefore ∧
      ∀ (w' : World) (ending' : String) (depth' : Int) (r' : Route) (s' : Session),
        w'.tree.isSound = true → (list w' ending' depth' r' s').1 = .ok text →
        (∀ steps, IsShown w' ending' depth' r' steps → ∀ e ∈ steps, '\n' ∉ e.name.toList) →
        shownForest w' ending' depth' r' = shownForest w ending depth r := by
  have hread : ∀ (w : World) (ending : String) (depth : Int) (r : Route) (s : Session),
      w.tree.isSound = true → (list w ending depth r s).1 = .ok text →
      (∀ steps, IsShown w ending depth r steps → ∀ e ∈ steps, '\n' ∉ e.name.toList) →
      readTree text = shownForest w ending depth r := by
    intro w ending depth r s htree htext hnames
    obtain ⟨hlisted, rfl⟩ := allListed_of_list htext
    have hall := hlisted.mono listDirectory_of_listBelow
    have hshown : ∀ row ∈ treeRows (entriesOf (listDirectory w ending)) depth.toNat r,
        IsShown w ending depth r (rowSteps row) := by
      intro row hrow
      have hleads := mem_treeRows.mp (List.mem_map_of_mem hrow)
      exact isShown_toNat.mp ((leads_iff htree hall).mp hleads)
    apply readTree_glueStrings (items_forestOf _ _ _)
    · intro row hrow
      exact hnames _ (hshown row hrow)
    · intro row hrow e he
      obtain ⟨top, -, hway⟩ := (hshown row hrow).way
      exact (isFileName_of_isWay htree hway e he).1.2
  have hforest := hread w ending depth r s htree htext hnames
  have hall := (allListed_of_list htext).1.mono listDirectory_of_listBelow
  have hdrawing := isDrawing_treeRows htree hall
  have hways : (readTree text).ways
      = (treeRows (entriesOf (listDirectory w ending)) depth.toNat r).map rowSteps := by
    rw [hforest, shownForest, ways_forestOf]
  refine ⟨hforest, ?_, ?_, ?_⟩
  · intro steps
    rw [hways, hdrawing.complete steps, isShown_toNat]
  · rw [hways]
    exact hdrawing.ordered
  · intro w' ending' depth' r' s' htree' htext' hnames'
    rw [← hforest, hread w' ending' depth' r' s' htree' htext' hnames']

/-! A directory whose names look like the marks of a drawn tree. -/

def lookalikeWorld : World :=
  ⟨.dir [("├── lib", .dir [("└── a.php", .file []), ("    ", .dir [])]), ("│   └── b.php", .file [])],
    [], "/", [], []⟩

/-- The text of its tree. -/
def lookalikeText : String :=
  "├── ├── lib/\n│   ├──     /\n│   └── └── a.php\n└── │   └── b.php"

theorem readTree_list_lookalikes :
    lookalikeWorld.tree.isSound = true ∧
      (list lookalikeWorld ".php" 2 ⟨.root, []⟩ (Session.begin [] infoSeverity)).1
        = .ok lookalikeText ∧
      (∀ steps, IsShown lookalikeWorld ".php" 2 ⟨.root, []⟩ steps →
        ∀ e ∈ steps, '\n' ∉ e.name.toList) ∧
      readTree lookalikeText
        = .directory "├── lib" (.directory "    " .nil (.file "└── a.php" .nil))
            (.file "│   └── b.php" .nil) := by
  have htree : lookalikeWorld.tree.isSound = true := by decide +kernel
  have htext : (list lookalikeWorld ".php" 2 ⟨.root, []⟩ (Session.begin [] infoSeverity)).1
      = .ok lookalikeText := eq_ok_of_toOption (by decide +kernel)
  have hnames : ∀ steps, IsShown lookalikeWorld ".php" 2 ⟨.root, []⟩ steps →
      ∀ e ∈ steps, '\n' ∉ e.name.toList := by
    intro steps hsteps
    have hall := (allListed_of_list htext).1.mono listDirectory_of_listBelow
    have hrows : ∀ steps ∈ (treeRows (entriesOf (listDirectory lookalikeWorld ".php")) 2
        ⟨.root, []⟩).map rowSteps, ∀ e ∈ steps, '\n' ∉ e.name.toList := by decide +kernel
    exact hrows steps (mem_treeRows.mpr ((leads_iff htree hall).mpr (isShown_toNat.mpr hsteps)))
  have hforest : shownForest lookalikeWorld ".php" 2 ⟨.root, []⟩
      = .directory "├── lib" (.directory "    " .nil (.file "└── a.php" .nil))
          (.file "│   └── b.php" .nil) := by decide +kernel
  exact ⟨htree, htext, hnames, (readTree_list htree htext hnames).1.trans hforest⟩

end SourceNavigator.Tree
