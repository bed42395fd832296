import SourceNavigator.Proofs.Calls
import SourceNavigator.Proofs.Tree.Shown
import SourceNavigator.Proofs.Text.Cut

set_option autoImplicit false

/-! # Drawn trees

Drawing a tree gives a line for every entry that it shows, in pre-order, or the failure of the first
directory that is not listed, because it cannot be opened or is nested too deep
(`list_draws_or_fails`). The order in which directories are listed does not show in it
(`list_eq_of_sameContents`).
-/

namespace SourceNavigator.Tree

open SourceNavigator.Path (Route)
open World (Node Place hasNul)

/-! ## Independence of the order of listing -/

/-- What a directory shows is settled by what stands in it. -/
theorem shownEntries_eq_of_sameContents {w w' : World} (hw : w.tree.isSound = true)
    (hw' : w'.tree.isSound = true) (h : World.SameContents w w') (ending : String) {place : Place}
    {nodes nodes' : List (String × Node)} (hat : w.tree.at? place = some (.dir nodes))
    (hat' : w'.tree.at? place = some (.dir nodes')) :
    shownEntries ending nodes' = shownEntries ending nodes := by
  have hsorted := pairwise_shownEntries (Node.nodup_names (Node.isSound_of_at? hw hat)) ending
  have hsorted' := pairwise_shownEntries (Node.nodup_names (Node.isSound_of_at? hw' hat')) ending
  have hnode (name : String) (isDirectory : Bool) :
      (∃ node, w'.tree.at? (place ++ [name]) = some node ∧ node.isDir = isDirectory) ↔
        ∃ node, w.tree.at? (place ++ [name]) = some node ∧ node.isDir = isDirectory := by
    rcases h.at?_cases (place ++ [name]) with ⟨inner, inner', hin, hin'⟩ | ⟨hsame, -⟩
    · simp only [hin, hin', Option.some_inj, exists_eq_left']
      rfl
    · rw [hsame]
  have hmem (e : Entry) : e ∈ shownEntries ending nodes' ↔ e ∈ shownEntries ending nodes := by
    rw [mem_shownEntries_iff hw' hat', mem_shownEntries_iff hw hat, hnode]
  -- two lists with the same members in the same strict order are the same list
  have hperm : (shownEntries ending nodes').Perm (shownEntries ending nodes) := by
    exact (List.perm_ext_iff_of_nodup (nodup_of_pairwise hsorted') (nodup_of_pairwise hsorted)).mpr hmem
  exact hperm.eq_of_pairwise (fun a b _ _ hab hba => absurd hba hab.asymm) hsorted' hsorted

theorem listDirectory_eq_of_sameContents {w w' : World} (hw : w.tree.isSound = true)
    (hw' : w'.tree.isSound = true) (h : World.SameContents w w') (ending : String) (r : Route) :
    listDirectory w' ending r = listDirectory w ending r := by
  unfold listDirectory
  rcases h.scan_cases r.address with ⟨t, hscan, hscan'⟩ | ⟨place, nodes, nodes', hat, hat', hscan, hscan'⟩
  · rw [hscan, hscan']
  · rw [hscan, hscan']
    simp only [shownEntries_eq_of_sameContents hw hw' h ending hat hat']

/-- **A tree does not depend on the order in which directories are listed.** -/
theorem list_eq_of_sameContents {w w' : World} (hw : w.tree.isSound = true)
    (hw' : w'.tree.isSound = true) (h : World.SameContents w w') (ending : String) (depth : Int)
    (r : Route) : list w' ending depth r = list w ending depth r := by
  have hlist : listBelow w' ending r = listBelow w ending r := by
    funext below
    rw [listBelow, listBelow, listDirectory_eq_of_sameContents hw hw' h ending]
  unfold list render
  rw [hlist]

/-! ## Failures -/

/-- The directory at a route can be listed. -/
def IsListable (w : World) (r : Route) : Prop := ∃ nodes, w.scan r.address = .ok nodes

theorem isListable_iff {w : World} {ending : String} {r : Route} :
    IsListable w r ↔ ∃ es, listDirectory w ending r = .ok es := by
  constructor
  · rintro ⟨nodes, hscan⟩
    exact ⟨shownEntries ending nodes, by rw [listDirectory, hscan]⟩
  · rintro ⟨es, hlist⟩
    obtain ⟨nodes, hscan, -⟩ := World.listDirectory_eq_ok hlist
    exact ⟨nodes, hscan⟩

/-- Only a path with a NUL character is refused without a reason of the system. -/
theorem scan_ne_nulCharacter {w : World} {r : Route} (h : hasNul r.text = false) :
    w.scan r.address ≠ .error .nulCharacter := by
  have htext : hasNul r.address.text = false := h
  unfold World.scan World.openNode World.stat World.refuse
  rw [htext]
  intro hscan
  split at hscan
  · rename_i t hopen
    split at hopen
    · cases hopen
      cases hscan
    · simp only [Bool.false_eq_true, if_false] at hopen
      split at hopen
      · cases hopen
      · cases hopen
        cases hscan
  · cases hscan
  · cases hscan

theorem listDirectory_eq_error {w : World} {ending : String} {r : Route} {failure : Failure}
    (hnul : hasNul r.text = false) (h : listDirectory w ending r = .error failure) :
    ∃ e, w.scan r.address = .error (.system e) ∧
      failure = .unreadableDirectory (some r.text) (some e) := by
  unfold listDirectory at h
  split at h
  · cases h
  · rename_i e hscan
    exact ⟨e, hscan, (Except.error.inj h).symm⟩
  · rename_i hscan
    exact absurd hscan (scan_ne_nulCharacter hnul)

theorem names_routeTo (r : Route) (steps : List Entry) :
    (routeTo r steps).names = r.names ++ steps.map (·.name) := by
  induction steps generalizing r with
  | nil => rw [List.map_nil, List.append_nil, routeTo, List.foldl_nil]
  | cons e rest ih =>
      show (routeTo (r.child e.name) rest).names = _
      rw [ih, Path.Route.child, List.append_assoc, List.map_cons, List.singleton_append]

/-- The directory at the end of a way is listed: calls are left for it, and it can be opened. -/
structure IsListed (w : World) (r : Route) (steps : List Entry) : Prop where
  near : steps.length < maxNesting
  listable : IsListable w (routeTo r steps)

/-- How many calls are left is counted by the names behind those of the directory that is drawn. -/
theorem near_iff (r : Route) (steps : List Entry) :
    (routeTo r steps).names.length < r.names.length + maxNesting ↔ steps.length < maxNesting := by
  rw [names_routeTo, List.length_append, List.length_map]
  omega

theorem isListed_iff {w : World} {ending : String} {r : Route} {steps : List Entry} :
    IsListed w r steps ↔ ∃ es, listBelow w ending r (routeTo r steps) = .ok es := by
  simp only [World.listBelow_eq_ok, near_iff, exists_and_left]
  exact ⟨fun h => ⟨h.near, isListable_iff.mp h.listable⟩,
    fun h => ⟨h.1, isListable_iff.mpr h.2⟩⟩

theorem listDirectory_of_listBelow {w : World} {ending : String} {top : Route} :
    ∀ r es, listBelow w ending top r = .ok es → listDirectory w ending r = .ok es :=
  fun _ _ h => (World.listBelow_eq_ok.mp h).2

/-- The names on a way are names of files. -/
theorem isFileName_of_isWay {tree : Node} (htree : tree.isSound = true) {place : Place}
    {steps : List Entry} (h : IsWay tree place steps) : ∀ e ∈ steps, World.IsFileName e.name := by
  induction steps generalizing place with
  | nil => exact fun e he => absurd he List.not_mem_nil
  | cons e rest ih =>
      obtain ⟨⟨-, node, hat, -⟩, hrest⟩ := h
      intro e' he'
      rcases List.mem_cons.mp he' with rfl | he'
      · exact Node.isFileName_of_at? htree hat e'.name (by simp)
      · exact ih hrest e' he'

theorem hasNul_routeTo {w : World} (htree : w.tree.isSound = true) {depth : Int} {r : Route}
    {steps : List Entry} (hnul : hasNul r.text = false) (h : IsDirectoryBelow w depth r steps) :
    hasNul (routeTo r steps).text = false := by
  refine World.hasNul_text_eq_false fun name hname => ?_
  rw [names_routeTo] at hname
  rcases List.mem_append.mp hname with hname | hname
  · rw [← Bool.not_eq_true]
    intro hholds
    rw [World.hasNul_text_of_mem hname hholds] at hnul
    cases hnul
  · obtain ⟨e, he, rfl⟩ := List.mem_map.mp hname
    rcases h.way with rfl | ⟨top, -, hway⟩
    · exact absurd he List.not_mem_nil
    · exact (isFileName_of_isWay htree hway e he).2.2.1

/-! ## Drawings -/

/-- The rows draw what is shown: each entry has a row, the rows stand in pre-order, and the entries of a
row are marked as last exactly if no sibling of theirs is behind them. -/
structure IsDrawing (shown : List Entry → Prop) (rows : List Row) : Prop where
  complete : ∀ steps, steps ∈ rows.map rowSteps ↔ shown steps
  ordered : (rows.map rowSteps).Pairwise StepsBefore
  marked : ∀ row ∈ rows, ∀ i e isLast, row[i]? = some (e, isLast) →
    (isLast = true ↔ ∀ other, shown ((rowSteps row).take i ++ [other]) → ¬ e.Before other)

theorem isDrawing_treeRows {w : World} (htree : w.tree.isSound = true) {ending : String}
    {depth : Nat} {r : Route} (h : AllListed (listDirectory w ending) depth r) :
    IsDrawing (IsShown w ending depth r) (treeRows (entriesOf (listDirectory w ending)) depth r) where
  complete _ := mem_treeRows.trans (leads_iff htree h)
  ordered := pairwise_treeRows (pairwise_entriesOf htree ending) depth r
  marked row hrow i e isLast hi := by
    rw [isLast_iff (pairwise_entriesOf htree ending) hrow hi]
    simp only [leads_iff htree h]

theorem newline_not_mem_rowText {row : Row} (h : ∀ e ∈ rowSteps row, '\n' ∉ e.name.toList) :
    '\n' ∉ (rowText row).toList := by
  induction row with
  | nil => exact List.not_mem_nil
  | cons mark rest ih =>
      obtain ⟨e, isLast⟩ := mark
      obtain ⟨hfirst, hrest⟩ := List.forall_mem_cons.mp h
      cases rest with
      | nil =>
          have hmarks : '\n' ∉ (connector isLast).toList := by cases isLast <;> decide
          have hslash : '\n' ∉ (if e.isDirectory then "/" else "").toList := by
            cases e.isDirectory <;> decide
          rw [rowText, entryLine, String.empty_append, String.toList_append, String.toList_append,
            List.mem_append, List.mem_append]
          rintro ((hmem | hmem) | hmem)
          · exact hmarks hmem
          · exact hfirst hmem
          · exact hslash hmem
      | cons next others =>
          have hindent : '\n' ∉ (indent isLast).toList := by cases isLast <;> decide
          rw [rowText_cons (List.cons_ne_nil _ _), String.toList_append, List.mem_append]
          rintro (hmem | hmem)
          · exact hindent hmem
          · exact ih hrest hmem

/-- A tree falls into its lines at the newlines, if no name holds one. -/
theorem cut_glueStrings_rows {rows : List Row} (hne : rows ≠ [])
    (h : ∀ row ∈ rows, ∀ e ∈ rowSteps row, '\n' ∉ e.name.toList) :
    Text.cutString '\n' (Text.glueStrings "\n" (rows.map rowText)) = rows.map rowText := by
  refine Text.cutString_glueStrings_newline (by simpa using hne) fun text htext => ?_
  obtain ⟨row, hrow, rfl⟩ := List.mem_map.mp htext
  exact newline_not_mem_rowText (h row hrow)

/-! ## The main result -/

theorem render_of_allListed {w : World} {ending : String} {depth : Int} {r : Route}
    (h : AllListed (listBelow w ending r) depth.toNat r) :
    render w ending depth r = .ok (Text.glueStrings "\n"
      ((treeRows (entriesOf (listDirectory w ending)) depth.toNat r).map rowText)) := by
  rw [render, treeLines_of_allListed h, treeRows_eq_of_allListed listDirectory_of_listBelow h]
  simp only [String.empty_append]
  rfl

theorem list_fst (w : World) (ending : String) (depth : Int) (r : Route) (s : Session) :
    (list w ending depth r s).1 = render w ending depth r := by
  have hlog (failure : Failure) : (logFailure failure).Yields () := by
    unfold logFailure
    split
    · exact Action.yields_log _ _ _
    · exact Action.yields_done ()
  unfold list
  cases render w ending depth r with
  | ok text => rfl
  | error failure =>
      obtain ⟨s', hs', -⟩ := hlog failure s
      exact congrArg Prod.fst (Action.bind_apply hs' _)

theorem isShown_toNat {w : World} {ending : String} {depth : Int} {r : Route} {steps : List Entry} :
    IsShown w ending depth.toNat r steps ↔ IsShown w ending depth r steps := by
  constructor
  · rintro ⟨hne, hnesting, hway, hancestors, hkind⟩
    have hpos := List.length_pos_of_ne_nil hne
    exact ⟨hne, by omega, hway, hancestors, hkind⟩
  · rintro ⟨hne, hnesting, hway, hancestors, hkind⟩
    exact ⟨hne, by omega, hway, hancestors, hkind⟩

theorem isDirectoryBelow_toNat {w : World} {depth : Int} {r : Route} {steps : List Entry} :
    IsDirectoryBelow w depth.toNat r steps ↔ IsDirectoryBelow w depth r steps := by
  constructor
  · rintro ⟨hnesting, hdirectories, hway⟩
    exact ⟨by omega, hdirectories, hway⟩
  · rintro ⟨hnesting, hdirectories, hway⟩
    exact ⟨by omega, hdirectories, hway⟩

/-- **A tree shows its entries in pre-order, or the first directory that is not listed fails it.** If
every directory at a lesser depth is listed, the text is the lines of rows that draw exactly what is
shown, with a newline between them; the text falls into these lines again, unless a name holds a newline
itself. Else the first directory in pre-order that is not listed gives the failure: its own if it cannot
be opened, and that of the calls if it is nested too deep. A world that holds the same, but lists it in
another order, gives the same text. -/
theorem list_draws_or_fails {w : World} (htree : w.tree.isSound = true) (ending : String)
    (depth : Int) (r : Route) (s : Session) :
    ((∀ steps, IsDirectoryBelow w depth r steps → IsListed w r steps) →
      ∃ rows, IsDrawing (IsShown w ending depth r) rows ∧
        (list w ending depth r s).1 = .ok (Text.glueStrings "\n" (rows.map rowText)) ∧
        (rows ≠ [] → (∀ row ∈ rows, ∀ e ∈ rowSteps row, '\n' ∉ e.name.toList) →
          Text.cutString '\n' (Text.glueStrings "\n" (rows.map rowText)) = rows.map rowText)) ∧
    (hasNul r.text = false → (∃ steps, IsDirectoryBelow w depth r steps ∧ ¬ IsListed w r steps) →
      ∃ steps, IsDirectoryBelow w depth r steps ∧ ¬ IsListed w r steps ∧
        (∀ other, IsDirectoryBelow w depth r other → ¬ IsListed w r other →
          other = steps ∨ StepsBefore steps other) ∧
        (steps.length < maxNesting → ∃ e, w.scan (routeTo r steps).address = .error (.system e) ∧
          (list w ending depth r s).1
            = .error (.unreadableDirectory (some (routeTo r steps).text) (some e))) ∧
        (maxNesting ≤ steps.length →
          (list w ending depth r s).1 = .error (.tooDeep " while calling a Python object"))) ∧
    ∀ w' : World, w'.tree.isSound = true → World.SameContents w w' →
      list w' ending depth r = list w ending depth r := by
  have hshown : IsShown w ending depth.toNat r = IsShown w ending depth r :=
    funext fun steps => propext isShown_toNat
  refine ⟨fun hlisted => ?_, fun hnul hunlisted => ?_, fun w' hw' hsame => ?_⟩
  · rcases allListed_or_firstFails (listBelow w ending r) depth.toNat r with
      hall | ⟨steps, failure, hfails⟩
    · refine ⟨treeRows (entriesOf (listDirectory w ending)) depth.toNat r, ?_, ?_, cut_glueStrings_rows⟩
      · rw [← hshown]
        exact isDrawing_treeRows htree (hall.mono listDirectory_of_listBelow)
      · rw [list_fst, render_of_allListed hall]
    · -- a failure would be at a directory that is listed
      obtain ⟨hbelow, herror, -⟩ := firstFails_isFirst htree listDirectory_of_listBelow hfails
      obtain ⟨es, hlist⟩ := isListed_iff.mp (hlisted steps (isDirectoryBelow_toNat.mp hbelow))
      rw [herror] at hlist
      cases hlist
  · rcases allListed_or_firstFails (listBelow w ending r) depth.toNat r with
      hall | ⟨steps, failure, hfails⟩
    · obtain ⟨steps, hbelow, hnot⟩ := hunlisted
      have hlisted := exists_listed_of_allListed htree listDirectory_of_listBelow hall
        (isDirectoryBelow_toNat.mpr hbelow)
      exact absurd (isListed_iff.mpr hlisted) hnot
    · obtain ⟨hbelow, herror, hfirst⟩ := firstFails_isFirst htree listDirectory_of_listBelow hfails
      rw [isDirectoryBelow_toNat] at hbelow
      have hresult : (list w ending depth r s).1 = .error failure := by
        rw [list_fst, render, treeLines_of_firstFails hfails]
        rfl
      refine ⟨steps, hbelow, fun hlisted => ?_, fun other hother hnot => ?_, fun hnear => ?_,
        fun hfar => ?_⟩
      · obtain ⟨es, hlist⟩ := isListed_iff.mp hlisted
        rw [herror] at hlist
        cases hlist
      · refine hfirst other (isDirectoryBelow_toNat.mpr hother) fun es hlist => ?_
        exact hnot (isListed_iff.mpr ⟨es, hlist⟩)
      · rw [listBelow, if_pos ((near_iff r steps).mpr hnear)] at herror
        obtain ⟨e, hscan, rfl⟩ := listDirectory_eq_error (hasNul_routeTo htree hnul hbelow) herror
        exact ⟨e, hscan, hresult⟩
      · have hnot : ¬ (routeTo r steps).names.length < r.names.length + maxNesting := by
          rw [near_iff]
          exact Nat.not_lt.mpr hfar
        rw [listBelow, if_neg hnot] at herror
        rw [hresult, ← Except.error.inj herror]
  · exact list_eq_of_sameContents htree hw' hsame ending depth r

/-! A directory with two files and two directories, one of them excluded. -/

def smallNodes : List (String × Node) :=
  [("b.php", .file []), ("notes", .file []), ("lib", .dir [("a.php", .file [])]),
    ("vendor", .dir [("c.php", .file [])])]

def smallWorld : World := ⟨.dir smallNodes, [], "/", [], []⟩

/-- The same directory, listed the other way round. -/
def turnedWorld : World := { smallWorld with tree := .dir smallNodes.reverse }

/-- The same directory, of which a directory cannot be opened. -/
def lockedWorld : World := { smallWorld with denied := ["/lib"] }

theorem sameContents_turned : World.SameContents smallWorld turnedWorld := by
  refine ⟨fun place => ?_, rfl, rfl⟩
  cases place with
  | nil => rfl
  | cons name rest =>
      have hnamed : Node.named? name smallNodes.reverse = Node.named? name smallNodes := by
        by_cases hb : "b.php" = name
        · subst hb
          rfl
        · by_cases hn : "notes" = name
          · subst hn
            rfl
          · by_cases hl : "lib" = name
            · subst hl
              rfl
            · simp only [smallNodes, List.reverse_cons, List.reverse_nil, List.nil_append,
                List.cons_append, Node.named?, hb, hn, hl, if_false]
      show ((Node.named? name smallNodes.reverse).bind _).map Node.bare = _
      rw [hnamed]
      rfl

theorem allListed_small : AllListed (listBelow smallWorld ".php" ⟨.root, []⟩) 2 ⟨.root, []⟩ := by
  refine ⟨[⟨"lib", true⟩, ⟨"b.php", false⟩], eq_ok_of_toOption (by decide +kernel), fun e he hdir => ?_⟩
  rcases List.mem_cons.mp he with rfl | he
  · exact ⟨[⟨"a.php", false⟩], eq_ok_of_toOption (by decide +kernel), fun _ _ _ => trivial⟩
  · obtain rfl := List.mem_singleton.mp he
    cases hdir

/-- The directory `lib` is to be listed, and it cannot be. -/
theorem lib_locked :
    IsDirectoryBelow lockedWorld 2 ⟨.root, []⟩ [⟨"lib", true⟩] ∧
      ¬ IsListed lockedWorld ⟨.root, []⟩ [⟨"lib", true⟩] := by
  constructor
  · refine ⟨by decide, by simp, Or.inr ⟨[], rfl, ⟨by decide, _, rfl, rfl⟩, trivial⟩⟩
  · rintro ⟨-, nodes, hscan⟩
    cases hscan

theorem list_draws_or_fails_small :
    smallWorld.tree.isSound = true ∧
    (∃ rows, IsDrawing (IsShown smallWorld ".php" 2 ⟨.root, []⟩) rows ∧
      Text.glueStrings "\n" (rows.map rowText) = "├── lib/\n│   └── a.php\n└── b.php") ∧
    (∃ steps e, IsDirectoryBelow lockedWorld 2 ⟨.root, []⟩ steps ∧
      (list lockedWorld ".php" 2 ⟨.root, []⟩ (Session.begin [] infoSeverity)).1
        = .error (.unreadableDirectory (some (routeTo ⟨.root, []⟩ steps).text) (some e))) ∧
    list turnedWorld ".php" 2 ⟨.root, []⟩ = list smallWorld ".php" 2 ⟨.root, []⟩ := by
  let s := Session.begin [] infoSeverity
  have hsound : smallWorld.tree.isSound = true := by decide
  have hlocked : lockedWorld.tree.isSound = true := hsound
  have hturned : turnedWorld.tree.isSound = true := by decide
  obtain ⟨hdraws, -, horder⟩ := list_draws_or_fails hsound ".php" 2 ⟨.root, []⟩ s
  obtain ⟨-, hfails, -⟩ := list_draws_or_fails hlocked ".php" 2 ⟨.root, []⟩ s
  refine ⟨hsound, ?_, ?_, horder turnedWorld hturned sameContents_turned⟩
  · obtain ⟨rows, hdrawing, htext, -⟩ := hdraws fun steps hsteps =>
      isListed_iff.mpr
        (exists_listed_of_allListed hsound listDirectory_of_listBelow allListed_small hsteps)
    refine ⟨rows, hdrawing, ?_⟩
    have hrendered : render smallWorld ".php" 2 ⟨.root, []⟩
        = .ok "├── lib/\n│   └── a.php\n└── b.php" := eq_ok_of_toOption (by decide +kernel)
    rw [list_fst, hrendered] at htext
    exact (Except.ok.inj htext).symm
  · obtain ⟨steps, hbelow, -, -, hown, -⟩ := hfails (by decide) ⟨_, lib_locked⟩
    -- the tree is too shallow for the calls to run out
    have hnear : steps.length < maxNesting := by
      have hnesting := hbelow.nesting
      rw [maxNesting]
      omega
    obtain ⟨e, -, hfail⟩ := hown hnear
    exact ⟨steps, e, hbelow, hfail⟩

end SourceNavigator.Tree
