import SourceNavigator.Proofs.World.Walk
import SourceNavigator.World.Edit
import SourceNavigator.World.Guard

set_option autoImplicit false

/-! # What links decide

Where a path leads is decided by the directories and links of a world. In worlds that differ in their
files alone (`SameLinks`) every link that resolving meets is the same (`SameLinks.linkTarget?_eq`), so
paths have the same canonical routes (`SameLinks.resolve_eq`) and the guard gives the same answers
(`SameLinks.isWithin_eq`, `SameLinks.resolveSafe_eq`). Such worlds come from one another by writing a
file (`sameLinks_of_putFile`) and by removing one (`sameLinks_remove`).
-/

namespace SourceNavigator.World

open SourceNavigator.Path (Address Route up)

/-! ## Trees that differ in files -/

namespace Node

/-- What a node is to a walk that has not ended: a link or some directory, and a file nothing. -/
def footing? : Node → Option Node
  | .file _ => none
  | .link target => some (.link target)
  | .dir _ => some (.dir [])

theorem named?_putEntry (name other : String) (node : Node) (entries : List (String × Node)) :
    named? other (putEntry name node entries)
      = if other = name then some node else named? other entries := by
  induction entries with
  | nil => simp only [putEntry, named?, eq_comm]
  | cons entry rest ih =>
      obtain ⟨n, old⟩ := entry
      rw [putEntry]
      by_cases hn : n = name
      · rw [if_pos hn, named?, named?, hn]
        by_cases hother : name = other
        · rw [if_pos hother, if_pos hother.symm]
        · rw [if_neg hother, if_neg hother, if_neg (Ne.symm hother)]
      · rw [if_neg hn, named?, named?, ih]
        by_cases hother : n = other
        · rw [if_pos hother, if_pos hother, if_neg (hother ▸ hn)]
        · rw [if_neg hother, if_neg hother]

theorem named?_filter (name other : String) (entries : List (String × Node)) :
    named? other (entries.filter (·.1 != name))
      = if other = name then none else named? other entries := by
  induction entries with
  | nil => simp only [List.filter_nil, named?, ite_self]
  | cons entry rest ih =>
      obtain ⟨n, old⟩ := entry
      by_cases hn : n = name
      · rw [List.filter_cons_of_neg (by simp [hn]), ih, named?, hn]
        by_cases hother : other = name
        · rw [if_pos hother, if_pos hother]
        · rw [if_neg hother, if_neg hother, if_neg (Ne.symm hother)]
      · rw [List.filter_cons_of_pos (by simp [hn]), named?, named?, ih]
        by_cases hother : n = other
        · rw [if_pos hother, if_pos hother, if_neg (hother ▸ hn)]
        · rw [if_neg hother, if_neg hother]

end Node

open Node (footing?)

/-- Neither a link nor a directory stands at the place. -/
def IsDeadEnd (tree : Node) (place : Place) : Prop := (tree.at? place).bind footing? = none

/-- The same links and directories stand in both trees; files may differ, or stand in one of them only. -/
def SameWays (tree tree' : Node) : Prop :=
  ∀ place, (tree'.at? place).bind footing? = (tree.at? place).bind footing?

theorem footing?_eq_link_iff {node : Option Node} {target : String} :
    node.bind footing? = some (.link target) ↔ node = some (.link target) := by
  rcases node with _ | _ | _ | _ <;> simp [footing?]

theorem footing?_eq_dir_iff {node : Option Node} :
    node.bind footing? = some (.dir []) ↔ ∃ entries, node = some (.dir entries) := by
  rcases node with _ | _ | _ | _ <;> simp [footing?]

theorem isDeadEnd_iff {tree : Node} {place : Place} :
    IsDeadEnd tree place ↔ tree.at? place = none ∨ ∃ content, tree.at? place = some (.file content) := by
  unfold IsDeadEnd
  rcases tree.at? place with _ | _ | _ | _ <;> simp [footing?]

namespace SameWays

variable {tree tree' : Node}

theorem link_iff (h : SameWays tree tree') (place : Place) (target : String) :
    tree'.at? place = some (.link target) ↔ tree.at? place = some (.link target) := by
  rw [← footing?_eq_link_iff, h, footing?_eq_link_iff]

theorem stands_iff (h : SameWays tree tree') (place : Place) : Stands tree' place ↔ Stands tree place := by
  unfold Stands
  rw [← footing?_eq_dir_iff, h, footing?_eq_dir_iff]

theorem isDeadEnd_iff (h : SameWays tree tree') (place : Place) :
    IsDeadEnd tree' place ↔ IsDeadEnd tree place := by
  rw [IsDeadEnd, IsDeadEnd, h]

end SameWays

theorem at?_file_footing (content : List UInt8) (place : Place) :
    ((Node.file content).at? place).bind footing? = none := by
  cases place with
  | nil => rfl
  | cons _ _ => rfl

/-- Below a dead end nothing stands that a walk could go through. -/
theorem isDeadEnd_of_isDeadEnd_nil {node : Node} (h : IsDeadEnd node []) (place : Place) :
    IsDeadEnd node place := by
  rcases isDeadEnd_iff.mp h with hnone | ⟨content, hfile⟩
  · rw [Node.at?_nil] at hnone
    cases hnone
  · rw [Node.at?_nil] at hfile
    cases hfile
    exact at?_file_footing content place

/-- What stands below the other names of a directory stays when one name is given another node. -/
theorem sameWays_putEntry {entries : List (String × Node)} {name : String} {node : Node}
    (h : ∀ place, (node.at? place).bind footing?
      = ((Node.named? name entries).bind (Node.at? · place)).bind footing?) :
    SameWays (.dir entries) (.dir (Node.putEntry name node entries)) := by
  intro place
  cases place with
  | nil => rfl
  | cons other rest =>
      rw [Node.at?, Node.at?, Node.named?_putEntry]
      by_cases hother : other = name
      · rw [if_pos hother, hother]
        exact h rest
      · rw [if_neg hother]

/-- Putting a file changes no link and no directory, if it is not put in place of one. -/
theorem sameWays_put {tree : Node} {place : Place} (h : IsDeadEnd tree place) (content : List UInt8) :
    SameWays tree (Node.put (.file content) place tree) := by
  induction place generalizing tree with
  | nil =>
      intro place
      exact (at?_file_footing content place).trans (isDeadEnd_of_isDeadEnd_nil h place).symm
  | cons name rest ih =>
      cases tree with
      | file _ => exact fun _ => rfl
      | link _ => exact fun _ => rfl
      | dir entries =>
          rw [IsDeadEnd, Node.at?] at h
          rw [Node.put]
          cases hnamed : Node.named? name entries with
          | some child =>
              rw [hnamed] at h
              refine sameWays_putEntry fun place => ?_
              rw [hnamed]
              exact ih h place
          | none =>
              by_cases hrest : rest.isEmpty = true
              · simp only [hrest, if_true]
                refine sameWays_putEntry fun place => ?_
                rw [hnamed]
                exact at?_file_footing content place
              · simp only [hrest]
                exact fun _ => rfl

/-- Erasing a file changes no link and no directory. -/
theorem sameWays_erase {tree : Node} {place : Place} (h : IsDeadEnd tree place) :
    SameWays tree (Node.erase place tree) := by
  induction place generalizing tree with
  | nil =>
      rw [Node.erase]
      exact fun _ => rfl
  | cons name rest ih =>
      cases tree with
      | file _ => cases rest <;> exact fun _ => rfl
      | link _ => cases rest <;> exact fun _ => rfl
      | dir entries =>
          rw [IsDeadEnd, Node.at?] at h
          cases rest with
          | nil =>
              rw [Node.erase]
              intro place
              cases place with
              | nil => rfl
              | cons other rest =>
                  rw [Node.at?, Node.at?, Node.named?_filter]
                  by_cases hother : other = name
                  · rw [if_pos hother, hother]
                    cases hnamed : Node.named? name entries with
                    | none => rfl
                    | some child =>
                        rw [hnamed] at h
                        exact (isDeadEnd_of_isDeadEnd_nil h rest).symm
                  · rw [if_neg hother]
          | cons next more =>
              rw [Node.erase]
              · cases hnamed : Node.named? name entries with
                | none => exact fun _ => rfl
                | some child =>
                    rw [hnamed] at h
                    refine sameWays_putEntry fun place => ?_
                    rw [hnamed]
                    exact ih h place
              · exact List.cons_ne_nil next more

/-! ## Walks in such trees -/

theorem isDeadEnd_or (tree : Node) (place : Place) :
    IsDeadEnd tree place ∨ (∃ target, tree.at? place = some (.link target)) ∨ Stands tree place := by
  rw [isDeadEnd_iff, Stands]
  rcases tree.at? place with _ | _ | _ | _ <;> simp

/-- Two walks end at links of one target, or at no links, and both have met too many links or neither. -/
structure SameEnd (tree tree' : Node) (found found' : Except Fault Place) : Prop where
  link : ∀ target, (∃ place, found' = .ok place ∧ tree'.at? place = some (.link target)) ↔
    ∃ place, found = .ok place ∧ tree.at? place = some (.link target)
  tooMany : found' = .error .tooManyLinks ↔ found = .error .tooManyLinks

/-- A walk that ends at no link and does not end because of links. -/
def IsIdle (tree : Node) (found : Except Fault Place) : Prop :=
  (∀ place, found = .ok place → IsDeadEnd tree place) ∧ found ≠ .error .tooManyLinks

theorem IsIdle.sameEnd {tree tree' : Node} {found found' : Except Fault Place}
    (h : IsIdle tree found) (h' : IsIdle tree' found') : SameEnd tree tree' found found' := by
  have hlink {tree : Node} {found : Except Fault Place} (h : IsIdle tree found) (target : String) :
      ¬ ∃ place, found = .ok place ∧ tree.at? place = some (.link target) := by
    rintro ⟨place, hfound, hat⟩
    have hdead := h.1 place hfound
    rw [IsDeadEnd, hat] at hdead
    cases hdead
  exact ⟨fun target => iff_of_false (hlink h' target) (hlink h target), iff_of_false h'.2 h.2⟩

theorem isIdle_error {tree : Node} {f : Fault} (h : f ≠ .tooManyLinks) : IsIdle tree (.error f) :=
  ⟨fun _ hfound => (by cases hfound), fun hf => h (Except.error.inj hf)⟩

theorem sameEnd_error (tree tree' : Node) (f : Fault) : SameEnd tree tree' (.error f) (.error f) := by
  refine ⟨fun target => iff_of_false ?_ ?_, Iff.rfl⟩
  · rintro ⟨_, hfound, -⟩
    cases hfound
  · rintro ⟨_, hfound, -⟩
    cases hfound

theorem SameWays.sameEnd_ok {tree tree' : Node} (h : SameWays tree tree') (place : Place) :
    SameEnd tree tree' (.ok place) (.ok place) := by
  have hok : (.ok place : Except Fault Place) ≠ .error .tooManyLinks := by
    intro h
    cases h
  refine ⟨fun target => ?_, iff_of_false hok hok⟩
  constructor
  · rintro ⟨_, hfound, hat⟩
    cases hfound
    exact ⟨place, rfl, (h.link_iff place target).mp hat⟩
  · rintro ⟨_, hfound, hat⟩
    cases hfound
    exact ⟨place, rfl, (h.link_iff place target).mpr hat⟩

section Steps

variable {tree : Node} {jump : Place → List String → Except Fault Place} {ending : Ending} {place : Place}
  {name : String}

/-- No way leads on from what is no directory. -/
theorem isIdle_of_not_stands (hplace : ¬ Stands tree place) (name : String) (rest : List String) :
    IsIdle tree (walkNames tree jump ending place (name :: rest)) := by
  rw [walkNames]
  split
  · rename_i entries hdir
    exact absurd ⟨entries, hdir⟩ hplace
  · exact isIdle_error (by decide)
  · exact isIdle_error (by decide)

/-- A walk into a dead end goes no further. -/
theorem isIdle_of_isDeadEnd (hending : ending ≠ .made) (hplace : Stands tree place)
    (hname : Path.leads name = true) (hup : name ≠ up) (hsize : name.utf8ByteSize ≤ maxName)
    (hdead : IsDeadEnd tree (place ++ [name])) (rest : List String) :
    IsIdle tree (walkNames tree jump ending place (name :: rest)) := by
  rcases isDeadEnd_iff.mp hdead with hnone | ⟨content, hfile⟩
  · obtain ⟨entries, hplace⟩ := hplace
    rw [Node.at?_concat hplace] at hnone
    have hwalk : walkNames tree jump ending place (name :: rest) = .error .notFound := by
      simp [walkNames, hplace, hname, hup, hending, Nat.not_lt.mpr hsize, hnone]
    rw [hwalk]
    exact isIdle_error (by decide)
  · rw [walkNames_into hending hplace hname hup hsize hfile fun _ => Node.noConfusion]
    cases rest with
    | nil =>
        rw [walkNames_nil hending]
        refine ⟨fun _ hfound => ?_, fun hfound => ?_⟩
        · cases hfound
          exact hdead
        · cases hfound
    | cons next more =>
        refine isIdle_of_not_stands (fun hstands => ?_) next more
        obtain ⟨entries, hdir⟩ := hstands
        rw [hfile] at hdir
        cases hdir

theorem walkNames_tooLong (hending : ending ≠ .made) (hplace : Stands tree place)
    (hname : Path.leads name = true) (hup : name ≠ up) (hsize : maxName < name.utf8ByteSize)
    (rest : List String) : walkNames tree jump ending place (name :: rest) = .error .nameTooLong := by
  obtain ⟨entries, hplace⟩ := hplace
  simp [walkNames, hplace, hname, hup, hending, hsize]

end Steps

theorem SameWays.sameEnd_walkNames {tree tree' : Node} (h : SameWays tree tree')
    {jump jump' : Place → List String → Except Fault Place}
    (hjump : ∀ place names, SameEnd tree tree' (jump place names) (jump' place names))
    {ending : Ending} (hending : ending ≠ .made) (place : Place) (names : List String) :
    SameEnd tree tree' (walkNames tree jump ending place names)
      (walkNames tree' jump' ending place names) := by
  induction names generalizing place with
  | nil =>
      rw [walkNames_nil hending, walkNames_nil hending]
      exact h.sameEnd_ok place
  | cons name rest ih =>
      by_cases hplace : Stands tree place
      · have hplace' : Stands tree' place := (h.stands_iff place).mpr hplace
        by_cases hname : Path.leads name = true
        · by_cases hup : name = up
          · subst hup
            rw [walkNames_back hplace, walkNames_back hplace']
            exact ih place.dropLast
          · by_cases hsize : name.utf8ByteSize ≤ maxName
            · rcases isDeadEnd_or tree (place ++ [name]) with hdead | ⟨target, hlink⟩ | hstands
              · exact (isIdle_of_isDeadEnd hending hplace hname hup hsize hdead rest).sameEnd
                  (isIdle_of_isDeadEnd hending hplace' hname hup hsize
                    ((h.isDeadEnd_iff _).mpr hdead) rest)
              · rw [walkNames_jump hending hplace hname hup hsize hlink,
                  walkNames_jump hending hplace' hname hup hsize ((h.link_iff _ _).mpr hlink)]
                split
                · exact h.sameEnd_ok _
                · exact hjump _ _
              · obtain ⟨entries, hdir⟩ := hstands
                obtain ⟨entries', hdir'⟩ := (h.stands_iff _).mpr ⟨entries, hdir⟩
                rw [walkNames_into hending hplace hname hup hsize hdir fun _ => Node.noConfusion,
                  walkNames_into hending hplace' hname hup hsize hdir' fun _ => Node.noConfusion]
                exact ih (place ++ [name])
            · rw [walkNames_tooLong hending hplace hname hup (Nat.lt_of_not_le hsize),
                walkNames_tooLong hending hplace' hname hup (Nat.lt_of_not_le hsize)]
              exact sameEnd_error tree tree' _
        · have hname : Path.leads name = false := eq_false_of_ne_true hname
          rw [walkNames_stay hplace hname, walkNames_stay hplace' hname]
          exact ih place
      · exact (isIdle_of_not_stands hplace name rest).sameEnd
          (isIdle_of_not_stands (fun h' => hplace ((h.stands_iff place).mp h')) name rest)

theorem SameWays.sameEnd_walk {tree tree' : Node} (h : SameWays tree tree') {ending : Ending}
    (hending : ending ≠ .made) (links : Nat) (place : Place) (names : List String) :
    SameEnd tree tree' (walk tree ending links place names) (walk tree' ending links place names) := by
  induction links generalizing place names with
  | zero => exact h.sameEnd_walkNames (fun _ _ => sameEnd_error tree tree' _) hending place names
  | succ links ih => exact h.sameEnd_walkNames ih hending place names

/-! ## Resolving in such worlds -/

/-- The worlds differ in their files alone, and in what may be opened. -/
structure SameLinks (w w' : World) : Prop where
  tree : SameWays w.tree w'.tree
  cwd : w'.cwd = w.cwd
  home : w'.home = w.home
  accounts : w'.accounts = w.accounts

theorem linkTarget?_eq_some_iff {w : World} {r : Route} {target : String} :
    w.linkTarget? r = some target ↔
      ∃ place, w.findPlace .kept r.address = .ok place ∧ w.tree.at? place = some (.link target) := by
  unfold linkTarget?
  cases w.findPlace .kept r.address with
  | error f => simp
  | ok place => rcases hat : w.tree.at? place with _ | _ | _ | _ <;> simp [hat]

theorem findNode_eq_tooManyLinks_iff {w : World} {a : Address} :
    w.findNode a = .error .tooManyLinks ↔ w.findPlace .followed a = .error .tooManyLinks := by
  unfold findNode
  cases w.findPlace .followed a with
  | error f => simp
  | ok place =>
      simp only [reduceCtorEq, iff_false]
      split
      · simp
      · simp

namespace SameLinks

variable {w w' : World}

theorem sameEnd_findPlace (h : SameLinks w w') {ending : Ending} (hending : ending ≠ .made)
    (a : Address) : SameEnd w.tree w'.tree (w.findPlace ending a) (w'.findPlace ending a) := by
  have hstart : w'.start a.anchored = w.start a.anchored := by
    unfold start
    rw [h.cwd]
  unfold findPlace
  rw [hstart]
  split
  · exact sameEnd_error _ _ _
  · split
    · exact sameEnd_error _ _ _
    · exact h.tree.sameEnd_walk hending _ _ _

theorem linkTarget?_eq (h : SameLinks w w') (r : Route) : w'.linkTarget? r = w.linkTarget? r := by
  ext target
  rw [linkTarget?_eq_some_iff, linkTarget?_eq_some_iff]
  exact (h.sameEnd_findPlace (by decide) r.address).link target

theorem findNode_tooManyLinks_iff (h : SameLinks w w') (a : Address) :
    w'.findNode a = .error .tooManyLinks ↔ w.findNode a = .error .tooManyLinks := by
  rw [findNode_eq_tooManyLinks_iff, findNode_eq_tooManyLinks_iff]
  exact (h.sameEnd_findPlace (by decide) a).tooMany

theorem resolveNames_eq (h : SameLinks w w') {enter enter' : Route → String → Seen → Resolution}
    (henter : ∀ r target seen, enter' r target seen = enter r target seen) (r : Route)
    (names : List String) (seen : Seen) :
    resolveNames w' enter' r names seen = resolveNames w enter r names seen := by
  induction names generalizing r seen with
  | nil => rfl
  | cons name rest ih =>
      rw [resolveNames, resolveNames]
      simp only [ih, henter, h.linkTarget?_eq]

theorem resolveTarget_eq (h : SameLinks w w') (depth : Nat) (r : Route) (target : String)
    (seen : Seen) : resolveTarget w' depth r target seen = resolveTarget w depth r target seen := by
  induction depth generalizing r target seen with
  | zero => rfl
  | succ depth ih => exact h.resolveNames_eq ih _ _ _

theorem realRoute_eq (h : SameLinks w w') (r : Route) : w'.realRoute r = w.realRoute r := by
  have hbase : w'.base = w.base := congrArg (Route.mk .root) h.cwd
  unfold realRoute
  simp only [h.resolveNames_eq (h.resolveTarget_eq linkRoom), hbase]

theorem resolve_eq (h : SameLinks w w') (r : Route) : w'.resolve r = w.resolve r := by
  unfold resolve
  rw [h.realRoute_eq]
  cases w.realRoute r with
  | error o => rfl
  | ok route =>
      have hnode := h.findNode_tooManyLinks_iff route.address
      dsimp only
      split
      · rfl
      · split
        · rename_i hmany
          rw [hnode.mp hmany]
        · rename_i hmany
          split
          · rename_i hmany'
            exact absurd (hnode.mpr hmany') hmany
          · rfl

theorem isWithin_eq (h : SameLinks w w') (root path : Route) :
    w'.isWithin root path = w.isWithin root path := by
  unfold isWithin
  rw [h.resolve_eq, h.resolve_eq]

theorem resolveSafe_eq (h : SameLinks w w') (root : Route) (candidate : String) :
    w'.resolveSafe root candidate = w.resolveSafe root candidate := by
  unfold resolveSafe
  simp only [h.resolve_eq]

theorem expandHome_eq (h : SameLinks w w') (r : Route) : w'.expandHome r = w.expandHome r := by
  unfold expandHome homeOf?
  rw [h.home, h.accounts]

end SameLinks

/-! ## Files written and removed -/

/-- A file is made where nothing stands, or in place of a file. -/
theorem isDeadEnd_of_walkNames {tree : Node} {jump : Place → List String → Except Fault Place}
    (hjump : ∀ place names goal, jump place names = .ok goal → IsDeadEnd tree goal) {place goal : Place}
    {names : List String} (h : walkNames tree jump .made place names = .ok goal) : IsDeadEnd tree goal := by
  induction names generalizing place with
  | nil =>
      rw [walkNames, if_pos rfl] at h
      cases h
  | cons name rest ih =>
      rw [walkNames] at h
      split at h
      · rename_i entries hplace
        split at h
        · exact ih h
        · split at h
          · exact ih h
          · split at h
            · cases h
            · split at h
              · cases h
              · split at h
                · rename_i hnamed
                  split at h
                  · cases h
                    rw [isDeadEnd_iff, Node.at?_concat hplace, hnamed]
                    exact Or.inl rfl
                  · cases h
                · rw [if_neg (by simp)] at h
                  exact hjump _ _ _ h
                · rename_i content hnamed
                  split at h
                  · cases h
                    rw [isDeadEnd_iff, Node.at?_concat hplace, hnamed]
                    exact Or.inr ⟨content, rfl⟩
                  · exact ih h
                · exact ih h
      · cases h
      · cases h

theorem isDeadEnd_of_walk {tree : Node} {links : Nat} {place goal : Place} {names : List String}
    (h : walk tree .made links place names = .ok goal) : IsDeadEnd tree goal := by
  induction links generalizing place names goal with
  | zero =>
      refine isDeadEnd_of_walkNames (fun _ _ _ hjump => ?_) h
      cases hjump
  | succ links ih => exact isDeadEnd_of_walkNames (fun _ _ _ hjump => ih hjump) h

/-- **Writing a file changes no link and no directory.** -/
theorem sameLinks_of_putFile {w w' : World} {r : Route} {content : List UInt8}
    (h : w.putFile r content = .ok w') : SameLinks w w' := by
  unfold putFile at h
  split at h
  · cases h
  · split at h
    · cases h
    · split at h
      · cases h
      · split at h
        · rename_i place hwalk
          cases h
          exact ⟨sameWays_put (isDeadEnd_of_walk hwalk) content, rfl, rfl, rfl⟩
        · cases h

/-- **Removing a file changes no link and no directory.** -/
theorem sameLinks_remove {w : World} {r : Route}
    (h : ∀ place, walk w.tree .kept maxLinks (w.start r.isAnchored) r.names = .ok place →
      IsDeadEnd w.tree place) : SameLinks w (w.remove r) := by
  unfold remove
  split
  · rename_i place hwalk
    exact ⟨sameWays_erase (h place hwalk), rfl, rfl, rfl⟩
  · exact ⟨fun _ => rfl, rfl, rfl, rfl⟩

end SourceNavigator.World
