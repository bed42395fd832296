import SourceNavigator.Proofs.Tree.Rows
import SourceNavigator.Proofs.World.Contents
import SourceNavigator.Proofs.World.NulNames

set_option autoImplicit false

/-! # What a tree shows of the files

Which entries a tree shows can be said of the files alone (`IsShown`): they stand one in the other below
the directory that is drawn (`IsWay`), none of them is excluded, all but the last one are directories,
and the last one is a directory too or has the wanted ending. These are the ways through the listed
directories (`leads_iff`). The directories that have to be listed are those at a lesser depth
(`IsDirectoryBelow`); of those that cannot be listed, the first one in the order of the rows fails the
tree (`firstFails_isFirst`).
-/

namespace SourceNavigator.Tree

open SourceNavigator.Path (Route)
open World (Node Place)

/-! ## Ways in a tree of files -/

/-- The entries stand one in the other from a place on. Each is a directory or not as its node is, and
none is excluded. -/
def IsWay (tree : Node) : Place → List Entry → Prop
  | _, [] => True
  | place, e :: rest =>
    (isExcluded e.name = false ∧
      ∃ node, tree.at? (place ++ [e.name]) = some node ∧ node.isDir = e.isDirectory) ∧
        IsWay tree (place ++ [e.name]) rest

/-- The way leads from the directory of the route to an entry that a tree of the given depth shows. -/
structure IsShown (w : World) (ending : String) (depth : Int) (r : Route) (steps : List Entry) :
    Prop where
  nonempty : steps ≠ []
  nesting : (steps.length : Int) ≤ depth
  way : ∃ top, w.reach r = .ok top ∧ IsWay w.tree top steps
  ancestors : ∀ e ∈ steps.dropLast, e.isDirectory = true
  kind : ∀ e, steps.getLast? = some e → e.isDirectory = true ∨ hasEnding ending e.name = true

/-- The way leads from the directory of the route to a directory that is listed for a tree of the given
depth. The directory of the route itself is one of them, be it there or not. -/
structure IsDirectoryBelow (w : World) (depth : Int) (r : Route) (steps : List Entry) : Prop where
  nesting : (steps.length : Int) < depth
  directories : ∀ e ∈ steps, e.isDirectory = true
  way : steps = [] ∨ ∃ top, w.reach r = .ok top ∧ IsWay w.tree top steps

/-- The route that a way leads to. -/
def routeTo (r : Route) (steps : List Entry) : Route := steps.foldl (fun r e => r.child e.name) r

/-! ## The entries of a listed directory -/

section Listed

variable {w : World} {ending : String} {r : Route} {place : Place} {es : List Entry} {e : Entry}

theorem mem_shownEntries_iff (htree : w.tree.isSound = true) {nodes : List (String × Node)}
    (hat : w.tree.at? place = some (.dir nodes)) :
    e ∈ shownEntries ending nodes ↔ (isExcluded e.name = false ∧
      ∃ node, w.tree.at? (place ++ [e.name]) = some node ∧ node.isDir = e.isDirectory) ∧
        (e.isDirectory = true ∨ hasEnding ending e.name = true) := by
  have hsound : Node.areSound nodes = true := Node.isSound_of_at? htree hat
  simp only [mem_shownEntries, Node.at?_concat hat]
  constructor
  · rintro ⟨name, node, hmem, hentry⟩
    obtain ⟨rfl, hexcluded, hkind⟩ := entryFor?_eq_some.mp hentry
    exact ⟨⟨hexcluded, node, Node.named?_of_mem hsound hmem, rfl⟩, hkind⟩
  · rintro ⟨⟨hexcluded, node, hnamed, hdir⟩, hkind⟩
    refine ⟨e.name, node, Node.mem_of_named? hnamed, entryFor?_eq_some.mpr ⟨?_, hexcluded, ?_⟩⟩
    · rw [hdir]
    · rw [hdir]
      exact hkind

/-- What is listed of a directory stands in it. -/
theorem mem_listed (htree : w.tree.isSound = true) (hlist : listDirectory w ending r = .ok es)
    (hreach : w.reach r = .ok place) :
    e ∈ es ↔ (isExcluded e.name = false ∧
      ∃ node, w.tree.at? (place ++ [e.name]) = some node ∧ node.isDir = e.isDirectory) ∧
        (e.isDirectory = true ∨ hasEnding ending e.name = true) := by
  obtain ⟨nodes, hscan, rfl⟩ := World.listDirectory_eq_ok hlist
  obtain ⟨found, hfound, hat⟩ := World.scan_eq_ok hscan
  rw [hreach] at hfound
  cases hfound
  exact mem_shownEntries_iff htree hat

theorem pairwise_listed (htree : w.tree.isSound = true) (hlist : listDirectory w ending r = .ok es) :
    es.Pairwise Entry.Before := by
  obtain ⟨nodes, hscan, rfl⟩ := World.listDirectory_eq_ok hlist
  obtain ⟨place, -, hat⟩ := World.scan_eq_ok hscan
  exact pairwise_shownEntries (Node.nodup_names (Node.isSound_of_at? htree hat)) ending

theorem pairwise_entriesOf (htree : w.tree.isSound = true) (ending : String) (r : Route) :
    (entriesOf (listDirectory w ending) r).Pairwise Entry.Before := by
  unfold entriesOf
  split
  · rename_i hlist
    exact pairwise_listed htree hlist
  · exact List.Pairwise.nil

theorem reach_of_listed (hlist : listDirectory w ending r = .ok es) : ∃ top, w.reach r = .ok top := by
  obtain ⟨nodes, hscan, -⟩ := World.listDirectory_eq_ok hlist
  obtain ⟨top, hreach, -⟩ := World.scan_eq_ok hscan
  exact ⟨top, hreach⟩

/-- The route of a directory leads to it. -/
theorem reach_directory (htree : w.tree.isSound = true) (hreach : w.reach r = .ok place)
    (hdir : e.isDirectory = true)
    (hnode : ∃ node, w.tree.at? (place ++ [e.name]) = some node ∧ node.isDir = e.isDirectory) :
    w.reach (r.child e.name) = .ok (place ++ [e.name]) := by
  obtain ⟨node, hat, hkind⟩ := hnode
  rw [hdir] at hkind
  cases node with
  | dir entries => exact World.reach_child hreach htree hat
  | file content => cases hkind
  | link target => cases hkind

end Listed

/-! ## From one directory to the next -/

section Steps

variable {w : World} {ending : String} {r : Route} {es : List Entry} {e : Entry} {rest : List Entry}

theorem isShown_cons (htree : w.tree.isSound = true) (hlist : listDirectory w ending r = .ok es)
    (depth : Nat) :
    IsShown w ending (depth + 1 : Nat) r (e :: rest) ↔ e ∈ es ∧
      (rest = [] ∨ e.isDirectory = true ∧ IsShown w ending depth (r.child e.name) rest) := by
  obtain ⟨top, hreach⟩ := reach_of_listed hlist
  rw [mem_listed htree hlist hreach]
  constructor
  · rintro ⟨-, hnesting, ⟨top', htop', hfirst, hway⟩, hancestors, hkind⟩
    rw [hreach] at htop'
    cases htop'
    -- only the last entry of a way may be a file
    cases rest with
    | nil => exact ⟨⟨hfirst, hkind e rfl⟩, Or.inl rfl⟩
    | cons next rest =>
        have hdir := hancestors e List.mem_cons_self
        refine ⟨⟨hfirst, Or.inl hdir⟩, Or.inr ⟨hdir, List.cons_ne_nil _ _, ?_, ?_, ?_, ?_⟩⟩
        · simp only [List.length_cons] at hnesting ⊢
          omega
        · exact ⟨_, reach_directory htree hreach hdir hfirst.2, hway⟩
        · exact fun a ha => hancestors a (List.mem_cons_of_mem e ha)
        · exact fun a ha => hkind a (by rwa [List.getLast?_cons_cons])
  · rintro ⟨⟨hfirst, hkind⟩, rfl | ⟨hdir, hbelow⟩⟩
    · refine ⟨List.cons_ne_nil _ _, ?_, ⟨top, hreach, hfirst, trivial⟩, ?_, ?_⟩
      · simp only [List.length_cons, List.length_nil]
        omega
      · exact fun a ha => absurd ha List.not_mem_nil
      · intro a ha
        cases ha
        exact hkind
    · obtain ⟨hne, hnesting, ⟨top', htop', hway⟩, hancestors, hlast⟩ := hbelow
      rw [reach_directory htree hreach hdir hfirst.2] at htop'
      cases htop'
      refine ⟨List.cons_ne_nil _ _, ?_, ⟨top, hreach, hfirst, hway⟩, ?_, ?_⟩
      · simp only [List.length_cons]
        omega
      · intro a ha
        rw [List.dropLast_cons_of_ne_nil hne] at ha
        rcases List.mem_cons.mp ha with rfl | ha
        · exact hdir
        · exact hancestors a ha
      · intro a ha
        rw [List.getLast?_cons_of_ne_nil hne] at ha
        exact hlast a ha

theorem isDirectoryBelow_cons (htree : w.tree.isSound = true)
    (hlist : listDirectory w ending r = .ok es) (depth : Nat) :
    IsDirectoryBelow w (depth + 1 : Nat) r (e :: rest) ↔ e ∈ es ∧ e.isDirectory = true ∧
      IsDirectoryBelow w depth (r.child e.name) rest := by
  obtain ⟨top, hreach⟩ := reach_of_listed hlist
  rw [mem_listed htree hlist hreach]
  constructor
  · rintro ⟨hnesting, hdirs, hnil | ⟨top', htop', hfirst, hway⟩⟩
    · cases hnil
    · rw [hreach] at htop'
      cases htop'
      obtain ⟨hdir, hothers⟩ := List.forall_mem_cons.mp hdirs
      refine ⟨⟨hfirst, Or.inl hdir⟩, hdir, ?_, hothers, Or.inr ?_⟩
      · simp only [List.length_cons] at hnesting
        omega
      · exact ⟨_, reach_directory htree hreach hdir hfirst.2, hway⟩
  · rintro ⟨⟨hfirst, -⟩, hdir, hnesting, hothers, hway⟩
    refine ⟨?_, List.forall_mem_cons.mpr ⟨hdir, hothers⟩, Or.inr ⟨top, hreach, hfirst, ?_⟩⟩
    · simp only [List.length_cons]
      omega
    · rcases hway with rfl | ⟨top', htop', hway⟩
      · trivial
      · rw [reach_directory htree hreach hdir hfirst.2] at htop'
        cases htop'
        exact hway

end Steps

/-! ## Whole trees -/

section Trees

variable {w : World} {ending : String} {depth : Nat} {r : Route} {steps : List Entry}

/-- **What the tree shows are the ways through its listed directories.** -/
theorem leads_iff (htree : w.tree.isSound = true) (h : AllListed (listDirectory w ending) depth r) :
    Leads (entriesOf (listDirectory w ending)) depth r steps ↔ IsShown w ending depth r steps := by
  induction depth generalizing r steps with
  | zero =>
      constructor
      · exact fun h => h.elim
      · intro hshown
        have hpos := List.length_pos_of_ne_nil hshown.nonempty
        have hnesting := hshown.nesting
        omega
  | succ depth ih =>
      obtain ⟨es, hlist, hall⟩ := h
      have hentries : entriesOf (listDirectory w ending) r = es := by rw [entriesOf, hlist]
      cases steps with
      | nil => exact ⟨fun h => h.elim, fun h => absurd rfl h.nonempty⟩
      | cons e rest =>
          rw [isShown_cons htree hlist, Leads, hentries]
          refine and_congr_right fun hmem => or_congr_right (and_congr_right fun hdir => ?_)
          exact ih (hall e hmem hdir)

end Trees

/-! What draws the tree may give up on a directory that could be listed. -/

section Listing

variable {w : World} {ending : String} {depth : Nat} {r : Route} {steps : List Entry}
  {list : Route → Except Failure (List Entry)}

theorem exists_listed_of_allListed (htree : w.tree.isSound = true)
    (hlists : ∀ r es, list r = .ok es → listDirectory w ending r = .ok es)
    (h : AllListed list depth r) (hsteps : IsDirectoryBelow w depth r steps) :
    ∃ es, list (routeTo r steps) = .ok es := by
  induction depth generalizing r steps with
  | zero =>
      have hnesting := hsteps.nesting
      omega
  | succ depth ih =>
      obtain ⟨es, hlist, hall⟩ := h
      cases steps with
      | nil => exact ⟨es, hlist⟩
      | cons e rest =>
          obtain ⟨hmem, hdir, hrest⟩ :=
            (isDirectoryBelow_cons htree (hlists r es hlist) depth).mp hsteps
          show ∃ es, list (routeTo (r.child e.name) rest) = .ok es
          exact ih (hall e hmem hdir) hrest

/-- **The directory that fails a tree is the first one that cannot be listed.** -/
theorem firstFails_isFirst (htree : w.tree.isSound = true)
    (hlists : ∀ r es, list r = .ok es → listDirectory w ending r = .ok es) {failure : Failure}
    (h : FirstFails list failure depth r steps) :
    IsDirectoryBelow w depth r steps ∧ list (routeTo r steps) = .error failure ∧
      ∀ other, IsDirectoryBelow w depth r other → (∀ es, list (routeTo r other) ≠ .ok es) →
        other = steps ∨ StepsBefore steps other := by
  induction depth generalizing r steps with
  | zero => exact h.elim
  | succ depth ih =>
      cases steps with
      | nil =>
          refine ⟨⟨?_, fun e he => absurd he List.not_mem_nil, Or.inl rfl⟩, h, ?_⟩
          · simp only [List.length_nil]
            omega
          · intro other _ _
            cases other with
            | nil => exact Or.inl rfl
            | cons e rest => exact Or.inr List.Lex.nil
      | cons e steps =>
          obtain ⟨before, rest, hlist, hbefore, hdir, hfails⟩ := h
          obtain ⟨hsteps, herror, hfirst⟩ := ih hfails
          have hmem : e ∈ before ++ e :: rest := by simp
          have hentries := hlists r _ hlist
          refine ⟨(isDirectoryBelow_cons htree hentries depth).mpr ⟨hmem, hdir, hsteps⟩, herror, ?_⟩
          intro other hother hnot
          cases other with
          | nil => exact absurd hlist (hnot _)
          | cons e' others =>
              obtain ⟨hmem', hdir', hothers⟩ :=
                (isDirectoryBelow_cons htree hentries depth).mp hother
              rcases List.mem_append.mp hmem' with hmem' | hmem'
              · -- everything before the failing entry can be listed
                obtain ⟨es, hes⟩ :=
                  exists_listed_of_allListed htree hlists (hbefore e' hmem' hdir') hothers
                exact absurd hes (hnot es)
              · rcases List.mem_cons.mp hmem' with rfl | hmem'
                · rcases hfirst others hothers hnot with rfl | hlater
                  · exact Or.inl rfl
                  · exact Or.inr (List.Lex.cons hlater)
                · -- what is behind the failing entry is later in the order of the rows
                  have hsorted := (List.pairwise_append.mp (pairwise_listed htree hentries)).2.1
                  exact Or.inr (List.Lex.rel ((List.pairwise_cons.mp hsorted).1 e' hmem'))

end Listing

end SourceNavigator.Tree
