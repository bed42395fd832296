import SourceNavigator.Proofs.Tree.Drawing
import SourceNavigator.Proofs.World.Canonical
import SourceNavigator.Proofs.World.Depth

set_option autoImplicit false

/-! # Trees that are nested too deep

A thousand directories in each other (`deepWorld`) can all be opened, and still their tree is not drawn
to a depth at which it needs them: the calls run out first (`deep_tree_fails`). The innermost directory
has a name that makes its path too long. At a depth that needs this one as well the tree should fail with
it, and the calls run out just the same.
-/

namespace SourceNavigator.Tree

open SourceNavigator.Path (Route)
open World (Node Place IsShort pathSize)

/-! ## Opening a directory under its place -/

/-- A directory can be opened under the path of its place, if nothing is denied and this path is short
enough. -/
theorem scan_of_at? {w : World} (hw : w.IsSound) (hdenied : w.denied = []) {place : Place}
    {nodes : List (String × Node)} (hat : w.tree.at? place = some (.dir nodes))
    (hshort : IsShort ⟨.root, place⟩) : w.scan (Route.address ⟨.root, place⟩) = .ok nodes := by
  have hdown := World.leadDown_of_at? hw.tree hat
  have hplace : w.placeOf ⟨.root, place⟩ = place := World.placeOf_root w hdown
  have hreach := World.reach_of_isSolid hw (World.isPlain_root hdown)
  rw [hplace] at hreach
  have hwritten : Route.text ⟨.root, place⟩ ≠ "" := fun h =>
    absurd ((Path.text_toList ⟨.root, place⟩ (Or.inl Path.Anchor.noConfusion)).symm.trans
      (congrArg String.toList h)) (List.cons_ne_nil _ _)
  have hnul : World.hasNul (Route.text ⟨.root, place⟩) = false :=
    World.hasNul_text_eq_false fun name hname =>
      (Node.isFileName_of_at? hw.tree hat name hname).2.2.1
  have hfound : w.findPlace .followed (Route.address ⟨.root, place⟩) = .ok place :=
    (World.findPlace_of_isShort w .followed hwritten hshort).trans
      (hreach ⟨_, hat, fun _ => Node.noConfusion⟩)
  have hallowed : w.denied.contains (Route.text ⟨.root, place⟩) = false := by
    rw [hdenied, List.contains_nil]
  have hopen : w.openNode (Route.address ⟨.root, place⟩) = .ok (.dir nodes) := by
    have hopened := World.openNode_of_findPlace (a := Route.address ⟨.root, place⟩) hallowed hnul hfound
    rw [hopened, hat]
    rfl
  rw [World.scan, hopen]

theorem not_isListable_of_not_isShort {w : World} {r : Route} (h : ¬ IsShort r) :
    ¬ IsListable w r := by
  rintro ⟨nodes, hscan⟩
  obtain ⟨place, hplace, -⟩ := World.findPlace_of_scan hscan
  obtain ⟨f, hfail, -⟩ := World.findPlace_of_not_isShort w .followed h
  rw [hfail] at hplace
  cases hplace

/-! ## Directories in each other -/

/-- Directories in each other, the innermost of which holds `bottom`. -/
def deepNodes (bottom : List (String × Node)) : Nat → List (String × Node)
  | 0 => bottom
  | k + 1 => [("ddd", .dir (deepNodes bottom k))]

/-- The name of the innermost directory. -/
def deepestName : String := String.ofList (List.replicate 100 'e')

/-- A thousand directories in each other, and one more. -/
def deepWorld : World := ⟨.dir (deepNodes [(deepestName, .dir [])] 1000), [], "/", [], []⟩

/-- The place `k` directories down. -/
def deepPlace (k : Nat) : Place := List.replicate k "ddd"

/-- The way `k` directories down. -/
def deepSteps (k : Nat) : List Entry := List.replicate k ⟨"ddd", true⟩

theorem isFileName_deepestName : World.IsFileName deepestName :=
  World.isFileName_replicate (by decide) (by decide) (by decide) (by decide) (by decide)

theorem isExcluded_deepestName : isExcluded deepestName = false := by
  have hchars : deepestName.toList = List.replicate 100 'e' := String.toList_ofList
  have hlength : deepestName.length = 100 := World.length_replicate 'e' 100
  have hshort : ∀ name ∈ excludedNames, name.length ≠ 100 := by decide
  have hnot : deepestName ∉ excludedNames := fun hmem => hshort _ hmem hlength
  rw [isExcluded, hchars, Bool.or_eq_false_iff]
  exact ⟨rfl, Bool.eq_false_iff.mpr fun hmem => hnot (List.contains_iff_mem.mp hmem)⟩

theorem isSound_deepNodes {bottom : List (String × Node)} (h : Node.areSound bottom = true) (k : Nat) :
    Node.areSound (deepNodes bottom k) = true := by
  have hname : World.IsFileName "ddd" := by decide
  induction k with
  | zero => exact h
  | succ k ih => simp [deepNodes, Node.areSound, Node.isSound, Node.named?, hname, ih]

theorem isSound_deepWorld : deepWorld.IsSound := by
  refine ⟨isSound_deepNodes ?_ 1000, _, rfl⟩
  simp [Node.areSound, Node.isSound, Node.named?, isFileName_deepestName]

theorem at?_deepPlace (bottom : List (String × Node)) (k m : Nat) :
    (Node.dir (deepNodes bottom (k + m))).at? (deepPlace k) = some (.dir (deepNodes bottom m)) := by
  induction k with
  | zero => rw [Nat.zero_add, deepPlace, List.replicate_zero, Node.at?_nil]
  | succ k ih =>
      rw [Nat.add_right_comm, deepPlace, List.replicate_succ]
      exact ih

theorem isShort_deepPlace {k : Nat} (h : k ≤ 1000) : IsShort ⟨.root, deepPlace k⟩ := by
  cases k with
  | zero => decide
  | succ k =>
      have hsize : ("ddd" : String).utf8ByteSize = 3 := by rfl
      have hne : deepPlace (k + 1) ≠ [] := List.cons_ne_nil _ _
      rw [IsShort, World.utf8ByteSize_text_root hne, deepPlace, World.pathSize_replicate, hsize,
        World.maxPath]
      omega

theorem shownEntries_deepNodes {bottom : List (String × Node)} (ending : String) (k : Nat) :
    shownEntries ending (deepNodes bottom (k + 1)) = [⟨"ddd", true⟩] := by
  have hshown : isExcluded "ddd" = false := by decide
  simp [shownEntries, deepNodes, entryFor?, hshown, Node.isDir]

theorem at?_deepWorld {k : Nat} (h : k ≤ 1000) :
    deepWorld.tree.at? (deepPlace k)
      = some (.dir (deepNodes [(deepestName, .dir [])] (1000 - k))) := by
  have hat : (Node.dir (deepNodes _ (k + (1000 - k)))).at? (deepPlace k) = _ :=
    at?_deepPlace [(deepestName, .dir [])] k (1000 - k)
  rw [Nat.add_sub_cancel' h] at hat
  exact hat

theorem scan_deepWorld {k : Nat} (h : k ≤ 1000) :
    deepWorld.scan (Route.address ⟨.root, deepPlace k⟩)
      = .ok (deepNodes [(deepestName, .dir [])] (1000 - k)) :=
  scan_of_at? isSound_deepWorld rfl (at?_deepWorld h) (isShort_deepPlace h)

theorem child_deepPlace (k : Nat) :
    Route.child ⟨.root, deepPlace k⟩ "ddd" = ⟨.root, deepPlace (k + 1)⟩ := by
  rw [Route.child, deepPlace, deepPlace, List.replicate_succ']

theorem routeTo_deepSteps (j k : Nat) :
    routeTo ⟨.root, deepPlace j⟩ (deepSteps k) = ⟨.root, deepPlace (j + k)⟩ := by
  induction k generalizing j with
  | zero => rfl
  | succ k ih =>
      show routeTo (Route.child ⟨.root, deepPlace j⟩ "ddd") (deepSteps k) = _
      rw [child_deepPlace, ih, Nat.add_right_comm, Nat.add_assoc]

/-! ## Their tree -/

/-- The way goes down to where the calls run out. -/
theorem firstFails_deepWorld (ending : String) {m j depth : Nat} (hsum : j + m = maxNesting)
    (hdepth : m < depth) :
    FirstFails (listBelow deepWorld ending ⟨.root, []⟩) (.tooDeep " while calling a Python object")
      depth ⟨.root, deepPlace j⟩ (deepSteps m) := by
  obtain ⟨depth, rfl⟩ : ∃ less, depth = less + 1 := ⟨depth - 1, by omega⟩
  have hlength : (deepPlace j).length = j := List.length_replicate
  induction m generalizing j depth with
  | zero =>
      show listBelow _ _ _ _ = _
      rw [listBelow, if_neg]
      simp only [List.length_nil, hlength]
      omega
  | succ m ih =>
      have hnear : j < maxNesting := by omega
      have hscan := scan_deepWorld (k := j) (by rw [maxNesting] at hnear; omega)
      obtain ⟨below, hbelow⟩ : ∃ below, 1000 - j = below + 1 :=
        ⟨999 - j, by rw [maxNesting] at hnear; omega⟩
      refine ⟨[], [], World.listBelow_eq_ok.mpr ⟨?_, ?_⟩, fun b hb => absurd hb List.not_mem_nil, rfl,
        ?_⟩
      · simp only [List.length_nil, hlength]
        omega
      · rw [listDirectory, hscan, hbelow]
        exact congrArg Except.ok (shownEntries_deepNodes ending below)
      · rw [child_deepPlace]
        obtain ⟨depth, rfl⟩ : ∃ less, depth = less + 1 := ⟨depth - 1, by omega⟩
        exact ih (by omega) depth (by omega) List.length_replicate

theorem list_deepWorld (ending : String) {depth : Int} (h : (maxNesting : Int) < depth) (s : Session) :
    (list deepWorld ending depth ⟨.root, []⟩ s).1
      = .error (.tooDeep " while calling a Python object") := by
  have hdeep : maxNesting < depth.toNat := by omega
  have hfails := firstFails_deepWorld ending (j := 0) (Nat.zero_add maxNesting) hdeep
  rw [list_fst, render]
  exact congrArg _ (treeLines_of_firstFails hfails "")

theorem isWay_deepSteps {j k : Nat} (h : j + k ≤ 1000) {rest : List Entry}
    (hrest : IsWay deepWorld.tree (deepPlace (j + k)) rest) :
    IsWay deepWorld.tree (deepPlace j) (deepSteps k ++ rest) := by
  induction k generalizing j with
  | zero => exact hrest
  | succ k ih =>
      have hplace : deepPlace j ++ ["ddd"] = deepPlace (j + 1) := List.replicate_succ'.symm
      have hat := at?_deepWorld (k := j + 1) (by omega)
      rw [← hplace] at hat
      refine ⟨⟨by decide, _, hat, by rfl⟩, ?_⟩
      · rw [hplace]
        refine ih (by omega) ?_
        rw [Nat.add_right_comm]
        exact hrest

/-- There is no other way down. -/
theorem eq_deepSteps_of_isWay {tree : Node} {bottom : List (String × Node)} {steps : List Entry}
    {m : Nat} (hm : steps.length ≤ m) {place : Place}
    (hat : tree.at? place = some (.dir (deepNodes bottom m))) (h : IsWay tree place steps) :
    steps = deepSteps steps.length := by
  induction steps generalizing place m with
  | nil => rfl
  | cons e rest ih =>
      obtain ⟨m, rfl⟩ : ∃ less, m = less + 1 := ⟨m - 1, by rw [List.length_cons] at hm; omega⟩
      obtain ⟨⟨-, node, hnode, hkind⟩, hway⟩ := h
      have hbelow := Node.at?_concat hat e.name
      rw [deepNodes, Node.named?, Node.named?] at hbelow
      rw [hbelow] at hnode
      split at hnode
      · rename_i hname
        rw [if_pos hname] at hbelow
        cases hnode
        have he : e = ⟨"ddd", true⟩ := by
          obtain ⟨name, isDirectory⟩ := e
          cases hname
          cases hkind
          rfl
        subst he
        have hrest := ih (by rw [List.length_cons] at hm; omega) hbelow hway
        rw [List.length_cons, deepSteps, List.replicate_succ]
        exact congrArg (_ :: ·) hrest
      · cases hnode

/-- All the directories that are needed to a depth of 1001 can be opened. -/
theorem isListable_deepWorld {steps : List Entry}
    (h : IsDirectoryBelow deepWorld 1001 ⟨.root, []⟩ steps) :
    IsListable deepWorld (routeTo ⟨.root, deepPlace 0⟩ steps) := by
  have hlength : steps.length ≤ 1000 := by
    have hnesting := h.nesting
    omega
  have hdeep : steps = deepSteps steps.length := by
    rcases h.way with rfl | ⟨top, htop, hway⟩
    · rfl
    · cases htop
      exact eq_deepSteps_of_isWay hlength rfl hway
  rw [hdeep, routeTo_deepSteps, Nat.zero_add]
  exact ⟨_, scan_deepWorld hlength⟩

/-- At a greater depth the innermost one is needed as well. -/
theorem isDirectoryBelow_deepest :
    IsDirectoryBelow deepWorld 1200 ⟨.root, []⟩ (deepSteps 1000 ++ [⟨deepestName, true⟩]) where
  nesting := by
    rw [List.length_append, deepSteps, List.length_replicate]
    decide
  directories e he := by
    rcases List.mem_append.mp he with he | he
    · rw [List.eq_of_mem_replicate he]
    · rw [List.mem_singleton.mp he]
  way := by
    have hat := Node.at?_concat (at?_deepWorld (Nat.le_refl 1000)) deepestName
    have hrest : IsWay deepWorld.tree (deepPlace (0 + 1000)) [⟨deepestName, true⟩] :=
      ⟨⟨isExcluded_deepestName, .dir [], hat, rfl⟩, trivial⟩
    exact Or.inr ⟨[], rfl, isWay_deepSteps (Nat.le_refl 1000) hrest⟩

theorem not_isListable_deepest :
    ¬ IsListable deepWorld (routeTo ⟨.root, deepPlace 0⟩ (deepSteps 1000 ++ [⟨deepestName, true⟩])) := by
  have hroute : routeTo ⟨.root, deepPlace 0⟩ (deepSteps 1000 ++ [⟨deepestName, true⟩])
      = Route.child ⟨.root, deepPlace (0 + 1000)⟩ deepestName := by
    rw [← routeTo_deepSteps, routeTo, List.foldl_append]
    rfl
  have hname : deepestName.utf8ByteSize = 100 := World.utf8ByteSize_replicate (by decide) 100
  have hstep : ("ddd" : String).utf8ByteSize = 3 := by rfl
  have hsize (k : Nat) : pathSize (deepPlace k ++ [deepestName]) = k * 4 + 101 := by
    rw [World.pathSize_append, deepPlace, World.pathSize_replicate, World.pathSize_singleton, hname,
      hstep]
  have hlong : ¬ IsShort (Route.child ⟨.root, deepPlace (0 + 1000)⟩ deepestName) := by
    rw [IsShort, Route.child, World.utf8ByteSize_text_root (by simp), hsize]
    decide
  rw [hroute]
  exact not_isListable_of_not_isShort hlong

/-- **A tree that is nested too deep is not drawn.** To a depth of 1001, where all of its directories can
be opened, it is not drawn; and to a greater depth it does not fail with the directory that cannot. -/
theorem deep_tree_fails :
    deepWorld.tree.isSound = true ∧
    ((∀ steps, IsDirectoryBelow deepWorld 1001 ⟨.root, []⟩ steps →
        IsListable deepWorld (routeTo ⟨.root, []⟩ steps)) ∧
      (list deepWorld ".php" 1001 ⟨.root, []⟩ (Session.begin [] infoSeverity)).1
        = .error (.tooDeep " while calling a Python object")) ∧
    (∃ steps, IsDirectoryBelow deepWorld 1200 ⟨.root, []⟩ steps ∧
        ¬ IsListable deepWorld (routeTo ⟨.root, []⟩ steps)) ∧
      (list deepWorld ".php" 1200 ⟨.root, []⟩ (Session.begin [] infoSeverity)).1
        = .error (.tooDeep " while calling a Python object") := by
  refine ⟨isSound_deepWorld.tree, ⟨?_, list_deepWorld ".php" (by decide) _⟩, ?_,
    list_deepWorld ".php" (by decide) _⟩
  · exact fun steps hsteps => isListable_deepWorld hsteps
  · exact ⟨_, isDirectoryBelow_deepest, not_isListable_deepest⟩

end SourceNavigator.Tree
