import SourceNavigator.Proofs.World.Node

set_option autoImplicit false

/-! # Ways through a tree

`Way` is the walk of `World.walk` as a relation: a list of names leads from one place to another
through a number of links. Walking finds a place exactly if there is a way to it through no more
links than are allowed (`walk_eq_ok_iff`). Ways can be put together (`Way.append`) and taken apart
(`Way.split`), and names lead to one place at most, through a fixed number of links
(`Way.unique`). A way that meets no link leads where the names say (`walkNames_of_at?`,
`walkNames_eq_ok_of_clear`).
-/

namespace SourceNavigator.World

open SourceNavigator.Path (Route climb climb_up climb_of_ne up)

variable {tree : Node}

/-- The names lead from the first place to the second one, every link followed; the number is that
of the links on the way. -/
inductive Way (tree : Node) : Place → List String → Place → Nat → Prop where
  | here (place : Place) : Way tree place [] place 0
  | stay {place goal : Place} {name : String} {rest : List String} {k : Nat}
      (hplace : Stands tree place) (hname : Path.leads name = false)
      (hrest : Way tree place rest goal k) : Way tree place (name :: rest) goal k
  | back {place goal : Place} {rest : List String} {k : Nat} (hplace : Stands tree place)
      (hrest : Way tree place.dropLast rest goal k) : Way tree place (up :: rest) goal k
  | into {place goal : Place} {name : String} {rest : List String} {k : Nat} {node : Node}
      (hplace : Stands tree place) (hname : Path.leads name = true) (hup : name ≠ up)
      (hsize : name.utf8ByteSize ≤ maxName) (hat : tree.at? (place ++ [name]) = some node)
      (hnode : ∀ target, node ≠ .link target) (hrest : Way tree (place ++ [name]) rest goal k) :
      Way tree place (name :: rest) goal k
  | jump {place goal : Place} {name : String} {rest : List String} {k : Nat} {target : String}
      (hplace : Stands tree place) (hname : Path.leads name = true) (hup : name ≠ up)
      (hsize : name.utf8ByteSize ≤ maxName) (hat : tree.at? (place ++ [name]) = some (.link target))
      (hrest : Way tree (targetStart place target) (Path.pieces target ++ rest) goal k) :
      Way tree place (name :: rest) goal (k + 1)

theorem stands_targetStart {place : Place} (h : Stands tree place) (target : String) :
    Stands tree (targetStart place target) := by
  unfold targetStart
  split
  · exact h.of_prefix List.nil_prefix
  · exact h

/-! ## One step of a walk -/

section Steps

variable {jump : Place → List String → Except Fault Place} {ending : Ending} {place : Place}
  {name : String} {rest : List String}

theorem walkNames_nil (hending : ending ≠ .made) : walkNames tree jump ending place [] = .ok place := by
  rw [walkNames, if_neg hending]

theorem walkNames_stay (hplace : Stands tree place) (hname : Path.leads name = false) :
    walkNames tree jump ending place (name :: rest) = walkNames tree jump ending place rest := by
  obtain ⟨entries, hplace⟩ := hplace
  simp [walkNames, hplace, hname]

theorem walkNames_back (hplace : Stands tree place) :
    walkNames tree jump ending place (up :: rest)
      = walkNames tree jump ending place.dropLast rest := by
  obtain ⟨entries, hplace⟩ := hplace
  have hleads : Path.leads up = true := rfl
  simp [walkNames, hplace, hleads]

theorem walkNames_into (hending : ending ≠ .made) (hplace : Stands tree place)
    (hname : Path.leads name = true) (hup : name ≠ up) (hsize : name.utf8ByteSize ≤ maxName)
    {node : Node} (hat : tree.at? (place ++ [name]) = some node)
    (hnode : ∀ target, node ≠ .link target) :
    walkNames tree jump ending place (name :: rest)
      = walkNames tree jump ending (place ++ [name]) rest := by
  obtain ⟨entries, hplace⟩ := hplace
  rw [Node.at?_concat hplace] at hat
  cases node with
  | link target => exact absurd rfl (hnode target)
  | dir _ => simp [walkNames, hplace, hname, hup, hending, Nat.not_lt.mpr hsize, hat]
  | file _ =>
      cases rest with
      | nil => simp [walkNames, hplace, hname, hup, hending, Nat.not_lt.mpr hsize, hat]
      | cons _ _ => simp [walkNames, hplace, hname, hup, hending, Nat.not_lt.mpr hsize, hat]

theorem walkNames_jump (hending : ending ≠ .made) (hplace : Stands tree place)
    (hname : Path.leads name = true) (hup : name ≠ up) (hsize : name.utf8ByteSize ≤ maxName)
    {target : String} (hat : tree.at? (place ++ [name]) = some (.link target)) :
    walkNames tree jump ending place (name :: rest)
      = if rest.isEmpty && ending = .kept then .ok (place ++ [name])
        else jump (targetStart place target) (Path.pieces target ++ rest) := by
  obtain ⟨entries, hplace⟩ := hplace
  rw [Node.at?_concat hplace] at hat
  simp [walkNames, hplace, hname, hup, hending, Nat.not_lt.mpr hsize, hat]

/-- How the first name of a successful walk is taken. -/
theorem walkNames_cons_cases {goal : Place} (hending : ending ≠ .made)
    (h : walkNames tree jump ending place (name :: rest) = .ok goal) :
    Stands tree place ∧
      (Path.leads name = false ∨ name = up ∨
        Path.leads name = true ∧ name ≠ up ∧ name.utf8ByteSize ≤ maxName ∧
          ∃ node, tree.at? (place ++ [name]) = some node) := by
  rw [walkNames] at h
  split at h
  · rename_i entries hplace
    refine ⟨⟨entries, hplace⟩, ?_⟩
    by_cases hname : Path.leads name = true
    · by_cases hup : name = up
      · exact Or.inr (Or.inl hup)
      · by_cases hsize : maxName < name.utf8ByteSize
        · simp [hname, hup, hending, hsize] at h
        · refine Or.inr (Or.inr ⟨hname, hup, Nat.not_lt.mp hsize, ?_⟩)
          rw [Node.at?_concat hplace]
          cases hnamed : Node.named? name entries with
          | none => simp [hname, hup, hending, hsize, hnamed] at h
          | some node => exact ⟨node, rfl⟩
    · exact Or.inl (by simpa using hname)
  · cases h
  · cases h

end Steps

/-! ## Walks and ways -/

theorem walkNames_eq_ok_iff {jump : Place → List String → Except Fault Place} {links : Nat}
    (hjump : ∀ p names goal, jump p names = .ok goal ↔
      ∃ k < links, Way tree p names goal k) (place : Place) (names : List String) (goal : Place) :
    walkNames tree jump .followed place names = .ok goal
      ↔ ∃ k ≤ links, Way tree place names goal k := by
  induction names generalizing place with
  | nil =>
      rw [walkNames_nil (by decide)]
      constructor
      · intro h
        cases h
        exact ⟨0, Nat.zero_le _, .here _⟩
      · rintro ⟨k, -, hway⟩
        cases hway
        rfl
  | cons name rest ih =>
      constructor
      · intro h
        -- each way to take the first name is a step of `Way`
        obtain ⟨hplace, hname | rfl | ⟨hname, hup, hsize, node, hat⟩⟩ :=
          walkNames_cons_cases (by decide) h
        · rw [walkNames_stay hplace hname, ih] at h
          obtain ⟨k, hk, hway⟩ := h
          exact ⟨k, hk, .stay hplace hname hway⟩
        · rw [walkNames_back hplace, ih] at h
          obtain ⟨k, hk, hway⟩ := h
          exact ⟨k, hk, .back hplace hway⟩
        · by_cases hlink : ∃ target, node = .link target
          · obtain ⟨target, rfl⟩ := hlink
            rw [walkNames_jump (by decide) hplace hname hup hsize hat, if_neg (by simp), hjump] at h
            obtain ⟨k, hk, hway⟩ := h
            exact ⟨k + 1, hk, .jump hplace hname hup hsize hat hway⟩
          · have hnode : ∀ target, node ≠ .link target := fun target h => hlink ⟨target, h⟩
            rw [walkNames_into (by decide) hplace hname hup hsize hat hnode, ih] at h
            obtain ⟨k, hk, hway⟩ := h
            exact ⟨k, hk, .into hplace hname hup hsize hat hnode hway⟩
      · rintro ⟨k, hk, hway⟩
        cases hway with
        | stay hplace hname hrest =>
            rw [walkNames_stay hplace hname]
            exact (ih _).mpr ⟨k, hk, hrest⟩
        | back hplace hrest =>
            rw [walkNames_back hplace]
            exact (ih _).mpr ⟨k, hk, hrest⟩
        | into hplace hname hup hsize hat hnode hrest =>
            rw [walkNames_into (by decide) hplace hname hup hsize hat hnode]
            exact (ih _).mpr ⟨k, hk, hrest⟩
        | jump hplace hname hup hsize hat hrest =>
            rw [walkNames_jump (by decide) hplace hname hup hsize hat, if_neg (by simp), hjump]
            exact ⟨_, hk, hrest⟩

/-- **Walking finds the ways.** A walk through at most `links` links ends at a place exactly if
there is a way to it through no more than these. -/
theorem walk_eq_ok_iff (links : Nat) (place : Place) (names : List String) (goal : Place) :
    walk tree .followed links place names = .ok goal ↔ ∃ k ≤ links, Way tree place names goal k := by
  induction links generalizing place names goal with
  | zero =>
      refine walkNames_eq_ok_iff (fun _ _ _ => ?_) place names goal
      constructor
      · intro h
        cases h
      · rintro ⟨k, hk, -⟩
        exact absurd hk (Nat.not_lt_zero k)
  | succ links ih =>
      -- a jump is a walk with one link less
      refine walkNames_eq_ok_iff (fun place names goal => ?_) place names goal
      rw [ih]
      simp only [Nat.lt_succ_iff]

namespace Way

theorem unique {place goal goal' : Place} {names : List String} {k k' : Nat}
    (h : Way tree place names goal k) (h' : Way tree place names goal' k') :
    goal = goal' ∧ k = k' := by
  have hup : Path.leads up = true := rfl
  -- the first name decides the step, so the other way takes it too
  induction h generalizing goal' k' with
  | here =>
      cases h'
      exact ⟨rfl, rfl⟩
  | stay _ hname _ ih =>
      cases h' with
      | stay _ _ hrest => exact ih hrest
      | back => simp [hup] at hname
      | into _ hname' => simp [hname'] at hname
      | jump _ hname' => simp [hname'] at hname
  | back _ _ ih =>
      cases h' with
      | stay _ hname => simp [hup] at hname
      | back _ hrest => exact ih hrest
      | into _ _ hne => exact absurd rfl hne
      | jump _ _ hne => exact absurd rfl hne
  | into _ hname hne _ hat hnode _ ih =>
      cases h' with
      | stay _ hname' => simp [hname] at hname'
      | back => exact absurd rfl hne
      | into _ _ _ _ _ _ hrest => exact ih hrest
      | jump _ _ _ _ hat' _ =>
          rw [hat] at hat'
          exact absurd (Option.some.inj hat') (hnode _)
  | jump _ hname hne _ hat _ ih =>
      cases h' with
      | stay _ hname' => simp [hname] at hname'
      | back => exact absurd rfl hne
      | into _ _ _ _ hat' hnode =>
          rw [hat] at hat'
          exact absurd (Option.some.inj hat').symm (hnode _)
      | jump _ _ _ _ hat' hrest =>
          rw [hat] at hat'
          cases hat'
          obtain ⟨hgoal, hk⟩ := ih hrest
          exact ⟨hgoal, congrArg (· + 1) hk⟩

theorem append {place middle goal : Place} {names more : List String} {k j : Nat}
    (h : Way tree place names middle k) (hmore : Way tree middle more goal j) :
    Way tree place (names ++ more) goal (k + j) := by
  induction h with
  | here =>
      rw [List.nil_append, Nat.zero_add]
      exact hmore
  | stay hplace hname _ ih => exact .stay hplace hname (ih hmore)
  | back hplace _ ih => exact .back hplace (ih hmore)
  | into hplace hname hup hsize hat hnode _ ih =>
      exact .into hplace hname hup hsize hat hnode (ih hmore)
  | @jump _ _ _ rest k target hplace hname hup hsize hat _ ih =>
      have hrest := ih hmore
      rw [List.append_assoc] at hrest
      rw [Nat.add_right_comm]
      exact .jump hplace hname hup hsize hat hrest

theorem split {place goal : Place} {names more : List String} {k : Nat}
    (h : Way tree place (names ++ more) goal k) :
    ∃ middle i j, Way tree place names middle i ∧ Way tree middle more goal j ∧ k = i + j := by
  generalize hall : names ++ more = all at h
  -- the way is cut at its start, or within what is left of it after its first step
  induction h generalizing names with
  | here place =>
      obtain ⟨rfl, rfl⟩ := List.append_eq_nil_iff.mp hall
      exact ⟨place, 0, 0, .here place, .here place, rfl⟩
  | @stay place _ name rest k hplace hname hrest ih =>
      cases names with
      | nil =>
          obtain rfl : more = name :: rest := hall
          exact ⟨place, 0, k, .here place, .stay hplace hname hrest, (Nat.zero_add k).symm⟩
      | cons first names =>
          obtain ⟨rfl, htail⟩ := List.cons.inj hall
          obtain ⟨middle, i, j, hfirst, hsecond, hk⟩ := ih htail
          exact ⟨middle, i, j, .stay hplace hname hfirst, hsecond, hk⟩
  | @back place _ rest k hplace hrest ih =>
      cases names with
      | nil =>
          obtain rfl : more = up :: rest := hall
          exact ⟨place, 0, k, .here place, .back hplace hrest, (Nat.zero_add k).symm⟩
      | cons first names =>
          obtain ⟨rfl, htail⟩ := List.cons.inj hall
          obtain ⟨middle, i, j, hfirst, hsecond, hk⟩ := ih htail
          exact ⟨middle, i, j, .back hplace hfirst, hsecond, hk⟩
  | @into place _ name rest k _ hplace hname hup hsize hat hnode hrest ih =>
      cases names with
      | nil =>
          obtain rfl : more = name :: rest := hall
          exact ⟨place, 0, k, .here place, .into hplace hname hup hsize hat hnode hrest,
            (Nat.zero_add k).symm⟩
      | cons first names =>
          obtain ⟨rfl, htail⟩ := List.cons.inj hall
          obtain ⟨middle, i, j, hfirst, hsecond, hk⟩ := ih htail
          exact ⟨middle, i, j, .into hplace hname hup hsize hat hnode hfirst, hsecond, hk⟩
  | @jump place _ name rest k target hplace hname hup hsize hat hrest ih =>
      cases names with
      | nil =>
          obtain rfl : more = name :: rest := hall
          exact ⟨place, 0, k + 1, .here place, .jump hplace hname hup hsize hat hrest,
            (Nat.zero_add _).symm⟩
      | cons first names =>
          obtain ⟨rfl, htail⟩ := List.cons.inj hall
          -- what is left of the names stays behind the names of the target
          have hall : (Path.pieces target ++ names) ++ more = Path.pieces target ++ rest := by
            rw [List.append_assoc]
            exact congrArg (Path.pieces target ++ ·) htail
          obtain ⟨middle, i, j, hfirst, hsecond, hk⟩ := ih hall
          refine ⟨middle, i + 1, j, .jump hplace hname hup hsize hat hfirst, hsecond, ?_⟩
          omega

/-- Where a way ends, something stands that is no link. -/
theorem isSolid {place goal : Place} {names : List String} {k : Nat} (hplace : IsSolid tree place)
    (h : Way tree place names goal k) : IsSolid tree goal := by
  induction h with
  | here => exact hplace
  | stay _ _ _ ih => exact ih hplace
  | back hdir _ ih => exact ih hdir.dropLast.isSolid
  | into _ _ _ _ hat hnode _ ih => exact ih ⟨_, hat, hnode⟩
  | jump hdir _ _ _ _ _ ih => exact ih (stands_targetStart hdir _).isSolid

end Way

/-! ## Walks without links -/

/-- Names that lead down, each into the place of the last. -/
def LeadDown (names : List String) : Prop := ∀ name ∈ names, Path.leads name = true ∧ name ≠ up

theorem LeadDown.concat {names : List String} {name : String} (h : LeadDown names)
    (hname : Path.leads name = true) (hup : name ≠ up) : LeadDown (names ++ [name]) := by
  intro n hn
  rcases List.mem_append.mp hn with hn | hn
  · exact h n hn
  · obtain rfl := List.mem_singleton.mp hn
    exact ⟨hname, hup⟩

theorem walkNames_ups {jump : Place → List String → Except Fault Place} {ending : Ending} (k : Nat)
    {place : Place} (hplace : Stands tree place) (rest : List String) :
    walkNames tree jump ending place (List.replicate k up ++ rest)
      = walkNames tree jump ending ((List.replicate k up).foldl climb place) rest := by
  induction k generalizing place with
  | zero => rfl
  | succ k ih =>
      rw [List.replicate_succ, List.cons_append, walkNames_back hplace, ih hplace.dropLast,
        List.foldl_cons, climb_up]

theorem stands_ups (k : Nat) {place : Place} (hplace : Stands tree place) :
    Stands tree ((List.replicate k up).foldl climb place) := by
  induction k generalizing place with
  | zero => exact hplace
  | succ k ih =>
      rw [List.replicate_succ, List.foldl_cons, climb_up]
      exact ih hplace.dropLast

/-- Names lead down to a node that is there; a link is found if it is to be kept. -/
theorem walkNames_of_at? {jump : Place → List String → Except Fault Place} {ending : Ending}
    (hending : ending ≠ .made) (htree : tree.isSound = true) {place : Place} {names : List String}
    (hnames : LeadDown names) {node : Node} (hat : tree.at? (place ++ names) = some node)
    (hnode : ending = .kept ∧ names ≠ [] ∨ ∀ target, node ≠ .link target) :
    walkNames tree jump ending place names = .ok (place ++ names) := by
  induction names generalizing place with
  | nil => rw [walkNames_nil hending, List.append_nil]
  | cons name rest ih =>
      obtain ⟨hname, hup⟩ := hnames name List.mem_cons_self
      have hplace : Stands tree place := Node.exists_dir_of_at? hat (List.cons_ne_nil _ _)
      have hsize : name.utf8ByteSize ≤ maxName :=
        (Node.isFileName_of_at? htree hat name (by simp)).2.2.2
      have hsplit : place ++ name :: rest = (place ++ [name]) ++ rest := by simp
      rw [hsplit] at hat ⊢
      -- only the last name can be that of a link, for a directory stands above the node
      by_cases hrest : rest = []
      · subst hrest
        rw [List.append_nil] at hat ⊢
        by_cases hlink : ∃ target, node = .link target
        · obtain ⟨target, rfl⟩ := hlink
          rcases hnode with ⟨hkept, -⟩ | hnode
          · rw [walkNames_jump hending hplace hname hup hsize hat, if_pos (by simp [hkept])]
          · exact absurd rfl (hnode target)
        · have hnode : ∀ target, node ≠ .link target := fun target h => hlink ⟨target, h⟩
          rw [walkNames_into hending hplace hname hup hsize hat hnode, walkNames_nil hending]
      · obtain ⟨entries, hdir⟩ := Node.exists_dir_of_at? hat hrest
        rw [walkNames_into hending hplace hname hup hsize hdir fun _ => Node.noConfusion]
        refine ih (fun n hn => hnames n (List.mem_cons_of_mem _ hn)) hat ?_
        rcases hnode with ⟨hkept, -⟩ | hnode
        · exact Or.inl ⟨hkept, hrest⟩
        · exact Or.inr hnode

/-- Where no link stands above their end, names that lead down are found only where they say. -/
theorem walkNames_eq_ok_of_clear {jump : Place → List String → Except Fault Place}
    {ending : Ending} (hending : ending ≠ .made) {place : Place} {names : List String}
    (hnames : LeadDown names) (hclear : IsClear tree (place ++ names.dropLast))
    (hend : ending = .kept ∨ IsClear tree (place ++ names)) {goal : Place}
    (h : walkNames tree jump ending place names = .ok goal) : goal = place ++ names := by
  induction names generalizing place with
  | nil =>
      rw [walkNames_nil hending] at h
      rw [List.append_nil]
      exact (Except.ok.inj h).symm
  | cons name rest ih =>
      obtain ⟨hname, hup⟩ := hnames name List.mem_cons_self
      obtain ⟨hplace, hfalse | hup' | ⟨-, -, hsize, node, hat⟩⟩ := walkNames_cons_cases hending h
      · rw [hname] at hfalse
        cases hfalse
      · exact absurd hup' hup
      · have hsplit (names : List String) : place ++ name :: names = (place ++ [name]) ++ names := by
          simp
        by_cases hlink : ∃ target, node = .link target
        · -- a link can only stand at the end, and there it is kept
          obtain ⟨target, rfl⟩ := hlink
          have hrest : rest = [] := by
            by_contra hne
            rw [List.dropLast_cons_of_ne_nil hne, hsplit] at hclear
            exact hclear _ (List.prefix_append _ _) target hat
          subst hrest
          rcases hend with hkept | hend
          · rw [walkNames_jump hending hplace hname hup hsize hat, if_pos (by simp [hkept])] at h
            exact (Except.ok.inj h).symm
          · exact absurd hat (hend _ (List.prefix_rfl) target)
        · have hnode : ∀ target, node ≠ .link target := fun target h => hlink ⟨target, h⟩
          rw [walkNames_into hending hplace hname hup hsize hat hnode] at h
          rw [hsplit]
          refine ih (fun n hn => hnames n (List.mem_cons_of_mem _ hn)) ?_ ?_ h
          · by_cases hrest : rest = []
            · rw [hrest, List.dropLast_nil, List.append_nil]
              exact IsSolid.isClear ⟨node, hat, hnode⟩
            · rw [List.dropLast_cons_of_ne_nil hrest, hsplit] at hclear
              exact hclear
          · rw [hsplit] at hend
            exact hend

/-! ## Where a route leads -/

/-- The place that a route leads to, every link followed. -/
def reach (w : World) (r : Route) : Except Fault Place :=
  walk w.tree .followed maxLinks (w.start r.isAnchored) r.names

theorem reach_eq_ok_iff {w : World} {r : Route} {goal : Place} :
    w.reach r = .ok goal ↔ ∃ k ≤ maxLinks, Way w.tree (w.start r.isAnchored) r.names goal k :=
  walk_eq_ok_iff maxLinks _ _ _

/-- A route is looked up by walking it, unless its text is too long. -/
theorem findPlace_address (w : World) (ending : Ending) (r : Route) :
    w.findPlace ending r.address = walk w.tree ending maxLinks (w.start r.isAnchored) r.names ∨
      ∃ f, w.findPlace ending r.address = .error f ∧ f ≠ .tooManyLinks := by
  unfold findPlace
  split
  · exact Or.inr ⟨_, rfl, fun h => nomatch h⟩
  · split
    · exact Or.inr ⟨_, rfl, fun h => nomatch h⟩
    · exact Or.inl rfl

theorem walk_of_findPlace {w : World} {ending : Ending} {r : Route} {goal : Place}
    (h : w.findPlace ending r.address = .ok goal) :
    walk w.tree ending maxLinks (w.start r.isAnchored) r.names = .ok goal := by
  rcases findPlace_address w ending r with hwalk | ⟨f, hfail, -⟩
  · rw [← hwalk, h]
  · rw [hfail] at h
    cases h

theorem reach_of_findPlace {w : World} {r : Route} {goal : Place}
    (h : w.findPlace .followed r.address = .ok goal) : w.reach r = .ok goal :=
  walk_of_findPlace h

/-- The way to a route below another one leads through that one. -/
theorem exists_reach_of_append {w : World} {r p : Route} (hr : p.isAnchored = false) {goal : Place}
    (h : w.reach (r.append p) = .ok goal) :
    ∃ middle k, w.reach r = .ok middle ∧ Way w.tree middle p.names goal k := by
  rw [Route.append, if_neg (by rw [hr]; decide), reach_eq_ok_iff] at h
  obtain ⟨k, hk, hway⟩ := h
  obtain ⟨middle, i, j, hfirst, hsecond, hsum⟩ := hway.split
  exact ⟨middle, j, reach_eq_ok_iff.mpr ⟨i, by omega, hfirst⟩, hsecond⟩

end SourceNavigator.World
