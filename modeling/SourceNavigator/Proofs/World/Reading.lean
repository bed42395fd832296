import SourceNavigator.Proofs.Tree.Order
import SourceNavigator.Proofs.World.Walk

set_option autoImplicit false

/-! # What is read at a place

Opening a route gives what stands at the place that it leads to, and nothing else of the world. Two
worlds that agree on a route (`AgreeOn`) give the same file there (`AgreeOn.octetsAt_eq`) and draw
the same tree (`AgreeOn.render_eq`). If the route only leads to the same place in both, opening it fails
in both for one reason, or it gives what each of them has there (`openNode_cases`).
-/

namespace SourceNavigator.World

open SourceNavigator.Path (Route up)

/-- In both worlds the route leads to the same place, if to any, and the same stands there. -/
structure AgreeOn (w w' : World) (r : Route) : Prop where
  denied : w'.denied = w.denied
  reach : w'.reach r = w.reach r
  node : ∀ place, w.reach r = .ok place → w'.tree.at? place = w.tree.at? place

theorem findPlace_congr {w w' : World} {r : Route} (h : w'.reach r = w.reach r) :
    w'.findPlace .followed r.address = w.findPlace .followed r.address := by
  unfold findPlace
  split
  · rfl
  · split
    · rfl
    · exact h

namespace AgreeOn

variable {w w' : World} {r : Route}

theorem findNode_eq (h : AgreeOn w w' r) : w'.findNode r.address = w.findNode r.address := by
  unfold findNode
  rw [findPlace_congr h.reach]
  cases hplace : w.findPlace .followed r.address with
  | error f => rfl
  | ok place => simp only [h.node place (reach_of_findPlace hplace)]

theorem openNode_eq (h : AgreeOn w w' r) : w'.openNode r.address = w.openNode r.address := by
  unfold openNode stat
  rw [h.denied, h.findNode_eq]

theorem octetsAt_eq (h : AgreeOn w w' r) : w'.octetsAt r.address = w.octetsAt r.address := by
  unfold octetsAt
  rw [h.openNode_eq]

theorem scan_eq (h : AgreeOn w w' r) : w'.scan r.address = w.scan r.address := by
  unfold scan
  rw [h.openNode_eq]

theorem glance_eq (h : AgreeOn w w' r) : w'.glance r.address = w.glance r.address := by
  unfold glance stat
  rw [h.findNode_eq]

end AgreeOn

/-! ## Opening a path -/

theorem openNode_of_findPlace {w : World} {a : Path.Address} {place : Place}
    (hdenied : w.denied.contains a.text = false) (hnul : hasNul a.text = false)
    (hplace : w.findPlace .followed a = .ok place) :
    w.openNode a = (w.tree.at? place).elim (refuse .notFound a) .ok := by
  unfold openNode stat findNode
  rw [if_neg (ne_true_of_eq_false hdenied), if_neg (ne_true_of_eq_false hnul)]
  simp only [hplace]
  cases w.tree.at? place with
  | none => rfl
  | some node => rfl

theorem octetsAt_of_findPlace {w : World} {a : Path.Address} {place : Place} {content : List UInt8}
    (hdenied : w.denied.contains a.text = false) (hnul : hasNul a.text = false)
    (hplace : w.findPlace .followed a = .ok place)
    (hfile : w.tree.at? place = some (.file content)) : w.octetsAt a = .ok content := by
  unfold octetsAt
  rw [openNode_of_findPlace hdenied hnul hplace, hfile]
  rfl

/-- In worlds where a path leads to the same place and is denied in both or in neither, what stands there
is opened in both, or opening it fails in both for one reason. -/
theorem openNode_cases {w w' : World} {a : Path.Address} (hdenied : w'.denied = w.denied)
    (hplace : w'.findPlace .followed a = w.findPlace .followed a) :
    (∃ t, w.openNode a = .error t ∧ w'.openNode a = .error t) ∨
      ∃ place, w.openNode a = (w.tree.at? place).elim (refuse .notFound a) .ok ∧
        w'.openNode a = (w'.tree.at? place).elim (refuse .notFound a) .ok := by
  cases hrefused : w.denied.contains a.text with
  | true =>
      left
      unfold openNode
      simp only [hdenied, hrefused, if_true]
      exact ⟨_, rfl, rfl⟩
  | false =>
      cases hnul : hasNul a.text with
      | true =>
          left
          unfold openNode stat
          simp only [hdenied, hrefused, hnul, if_true]
          exact ⟨_, rfl, rfl⟩
      | false =>
          cases hfound : w.findPlace .followed a with
          | error f =>
              left
              unfold openNode stat findNode
              simp only [hdenied, hplace, hrefused, hnul, hfound]
              exact ⟨_, rfl, rfl⟩
          | ok place =>
              exact Or.inr ⟨place, openNode_of_findPlace hrefused hnul hfound,
                openNode_of_findPlace (hdenied ▸ hrefused) hnul (hplace.trans hfound)⟩

/-! ## Directories -/

/-- The way to a directory goes on to the directories in it. -/
theorem reach_child {w : World} {r : Route} {place : Place} (h : w.reach r = .ok place)
    (htree : w.tree.isSound = true) {name : String} {entries : List (String × Node)}
    (hat : w.tree.at? (place ++ [name]) = some (.dir entries)) :
    w.reach (r.child name) = .ok (place ++ [name]) := by
  obtain ⟨k, hk, hway⟩ := reach_eq_ok_iff.mp h
  obtain ⟨hname, hup, -, hsize⟩ := Node.isFileName_of_at? htree hat name (by simp)
  have hplace : Stands w.tree place := Node.exists_dir_of_at? hat (List.cons_ne_nil _ _)
  have hstep : Way w.tree place [name] (place ++ [name]) 0 :=
    .into hplace hname.1 hup hsize hat (fun _ => Node.noConfusion) (.here _)
  exact reach_eq_ok_iff.mpr ⟨k, hk, hway.append hstep⟩

theorem findPlace_of_scan {w : World} {a : Path.Address} {nodes : List (String × Node)}
    (h : w.scan a = .ok nodes) :
    ∃ place, w.findPlace .followed a = .ok place ∧ w.tree.at? place = some (.dir nodes) := by
  unfold scan openNode stat at h
  split at h
  · cases h
  · rename_i entries hopen
    cases h
    split at hopen
    · cases hopen
    · split at hopen
      · cases hopen
      · unfold findNode at hopen
        split at hopen
        · -- a node that is opened is the one that the path leads to
          rename_i node hfound
          cases hopen
          split at hfound
          · cases hfound
          · rename_i place hplace
            split at hfound
            · rename_i found hat
              cases hfound
              exact ⟨place, hplace, hat⟩
            · cases hfound
        · cases hopen
  · cases h

theorem scan_eq_ok {w : World} {r : Route} {nodes : List (String × Node)}
    (h : w.scan r.address = .ok nodes) :
    ∃ place, w.reach r = .ok place ∧ w.tree.at? place = some (.dir nodes) := by
  obtain ⟨place, hplace, hat⟩ := findPlace_of_scan h
  exact ⟨place, reach_of_findPlace hplace, hat⟩

/-- A directory that is drawn below another one is one of its directories. -/
theorem exists_dir_of_shown {ending : String} {nodes : List (String × Node)} {e : Tree.Entry}
    (h : e ∈ Tree.shownEntries ending nodes) (hdir : e.isDirectory = true) :
    ∃ entries, (e.name, .dir entries) ∈ nodes := by
  obtain ⟨name, node, hmem, hentry⟩ := Tree.mem_shownEntries.mp h
  obtain ⟨rfl, -, -⟩ := Tree.entryFor?_eq_some.mp hentry
  cases node with
  | dir entries => exact ⟨entries, hmem⟩
  | file _ => cases hdir
  | link _ => cases hdir

theorem AgreeOn.child {w w' : World} {r : Route} (h : AgreeOn w w' r) (hw : w.tree.isSound = true)
    (hw' : w'.tree.isSound = true) {nodes : List (String × Node)}
    (hscan : w.scan r.address = .ok nodes) {name : String} {entries : List (String × Node)}
    (hmem : (name, .dir entries) ∈ nodes) : AgreeOn w w' (r.child name) := by
  obtain ⟨place, hplace, hat⟩ := scan_eq_ok hscan
  -- both worlds have the directory at one place, and so each directory in it
  have hplace' := h.reach.trans hplace
  have hat' := (h.node place hplace).trans hat
  have hnamed := Node.named?_of_mem (Node.isSound_of_at? hw hat) hmem
  have hchild : w.tree.at? (place ++ [name]) = some (.dir entries) := by
    rw [Node.at?_concat hat, hnamed]
  have hchild' : w'.tree.at? (place ++ [name]) = some (.dir entries) := by
    rw [Node.at?_concat hat', hnamed]
  have hreach := reach_child hplace hw hchild
  refine ⟨h.denied, (reach_child hplace' hw' hchild').trans hreach.symm, fun goal hgoal => ?_⟩
  rw [hreach] at hgoal
  cases hgoal
  rw [hchild, hchild']

theorem entryLines_congr {ε : Type} {below below' : Route → String → Except ε (List String)}
    {r : Route} {lead : String} {entries : List Tree.Entry}
    (h : ∀ e ∈ entries, e.isDirectory = true → ∀ lead, below' (r.child e.name) lead
      = below (r.child e.name) lead) :
    Tree.entryLines below' r lead entries = Tree.entryLines below r lead entries := by
  induction entries with
  | nil => rfl
  | cons e rest ih =>
      have hrest := ih fun e he => h e (List.mem_cons_of_mem _ he)
      unfold Tree.entryLines
      rw [hrest]
      by_cases hdir : e.isDirectory = true
      · simp only [hdir, if_true, h e List.mem_cons_self hdir]
      · simp only [hdir, Bool.false_eq_true, if_false]

theorem AgreeOn.listDirectory_eq {w w' : World} {r : Route} (h : AgreeOn w w' r) (ending : String) :
    Tree.listDirectory w' ending r = Tree.listDirectory w ending r := by
  unfold Tree.listDirectory
  rw [h.scan_eq]

theorem AgreeOn.listBelow_eq {w w' : World} {r : Route} (h : AgreeOn w w' r) (ending : String)
    (top : Route) : Tree.listBelow w' ending top r = Tree.listBelow w ending top r := by
  rw [Tree.listBelow, Tree.listBelow, h.listDirectory_eq]

theorem listDirectory_eq_ok {w : World} {ending : String} {r : Route} {entries : List Tree.Entry}
    (h : Tree.listDirectory w ending r = .ok entries) :
    ∃ nodes, w.scan r.address = .ok nodes ∧ entries = Tree.shownEntries ending nodes := by
  unfold Tree.listDirectory at h
  split at h
  · rename_i nodes hscan
    exact ⟨nodes, hscan, (Except.ok.inj h).symm⟩
  · cases h
  · cases h

theorem listBelow_eq_ok {w : World} {ending : String} {top r : Route} {entries : List Tree.Entry} :
    Tree.listBelow w ending top r = .ok entries ↔
      r.names.length < top.names.length + Tree.maxNesting ∧
        Tree.listDirectory w ending r = .ok entries := by
  unfold Tree.listBelow
  split
  · rename_i hnear
    exact ⟨fun hlist => ⟨hnear, hlist⟩, fun h => h.2⟩
  · rename_i hfar
    exact ⟨fun hlist => (by cases hlist), fun h => absurd h.1 hfar⟩

theorem AgreeOn.treeLines_eq {w w' : World} (hw : w.tree.isSound = true)
    (hw' : w'.tree.isSound = true) (ending : String) (top : Route) (depth : Nat) {r : Route}
    (h : AgreeOn w w' r) (lead : String) :
    Tree.treeLines (Tree.listBelow w' ending top) depth r lead
      = Tree.treeLines (Tree.listBelow w ending top) depth r lead := by
  induction depth generalizing r lead with
  | zero => rfl
  | succ depth ih =>
      unfold Tree.treeLines
      rw [h.listBelow_eq]
      cases hlist : Tree.listBelow w ending top r with
      | error e => rfl
      | ok entries =>
          obtain ⟨nodes, hscan, rfl⟩ := listDirectory_eq_ok (listBelow_eq_ok.mp hlist).2
          refine entryLines_congr fun e he hdir lead => ih ?_ lead
          obtain ⟨entries, hmem⟩ := exists_dir_of_shown he hdir
          exact h.child hw hw' hscan hmem

/-- **A tree is drawn from what stands at its place.** -/
theorem AgreeOn.render_eq {w w' : World} (hw : w.tree.isSound = true)
    (hw' : w'.tree.isSound = true) {r : Route} (h : AgreeOn w w' r) (ending : String) (depth : Int) :
    Tree.render w' ending depth r = Tree.render w ending depth r := by
  unfold Tree.render
  rw [AgreeOn.treeLines_eq hw hw' ending r depth.toNat h]

theorem AgreeOn.list_eq {w w' : World} {r : Route} (h : AgreeOn w w' r)
    (hw : w.tree.isSound = true) (hw' : w'.tree.isSound = true) (ending : String) (depth : Int) :
    Tree.list w' ending depth r = Tree.list w ending depth r := by
  unfold Tree.list
  rw [AgreeOn.render_eq hw hw' h]

end SourceNavigator.World
