import SourceNavigator.Proofs.Tree.Order

set_option autoImplicit false

/-! # The rows of a tree

A line of a tree shows an entry together with the way to it (`Row`): each directory on the way gives a
bar or a blank, and the entry itself a connector, depending on which of them are the last ones of their
directories. The rows of a tree are found without drawing it (`treeRows`), and they are its lines as
long as every directory on the way can be listed (`treeLines_of_allListed`); else the first directory
that cannot be listed fails the tree (`treeLines_of_firstFails`).

The rows are exactly the ways through the listed directories (`mem_treeRows`). They stand in
lexicographic order, which puts every directory before what is in it (`pairwise_treeRows`), and what is
marked as last has no sibling behind it (`isLast_iff`).
-/

namespace SourceNavigator.Tree

open SourceNavigator.Path (Route)

/-! ## Rows -/

/-- The entries on the way to an entry and the entry itself, each with whether it is the last one of its
directory. -/
abbrev Row := List (Entry × Bool)

/-- The entries on the way. -/
def rowSteps (row : Row) : List Entry := row.map (·.1)

/-- The line of a row. -/
def rowText : Row → String
  | [] => ""
  | [(e, isLast)] => entryLine "" isLast e
  | (_, isLast) :: rest => indent isLast ++ rowText rest

/-- The rows of the entries of one directory, if the rows below each entry are known. -/
def joinRows (inner : Entry → List Row) : List Entry → List Row
  | [] => []
  | e :: rest =>
    [(e, rest.isEmpty)] :: ((inner e).map ((e, rest.isEmpty) :: ·) ++ joinRows inner rest)

/-- The rows of a directory to a depth. -/
def treeRows (entries : Route → List Entry) : (depth : Nat) → Route → List Row
  | 0, _ => []
  | depth + 1, r =>
    joinRows (fun e => if e.isDirectory then treeRows entries depth (r.child e.name) else [])
      (entries r)

theorem mem_joinRows {inner : Entry → List Row} {es : List Entry} {row : Row} :
    row ∈ joinRows inner es ↔ ∃ before e rest, es = before ++ e :: rest ∧
      (row = [(e, rest.isEmpty)] ∨ ∃ below ∈ inner e, row = (e, rest.isEmpty) :: below) := by
  induction es with
  | nil =>
      constructor
      · intro h
        exact absurd h List.not_mem_nil
      · rintro ⟨before, e, rest, hsplit, -⟩
        exact absurd hsplit.symm (by simp)
  | cons first es ih =>
      rw [joinRows, List.mem_cons, List.mem_append, ih, List.mem_map]
      constructor
      · rintro (h | ⟨below, hbelow, rfl⟩ | ⟨before, e, rest, rfl, hrow⟩)
        · exact ⟨[], first, es, rfl, Or.inl h⟩
        · exact ⟨[], first, es, rfl, Or.inr ⟨below, hbelow, rfl⟩⟩
        · exact ⟨first :: before, e, rest, rfl, hrow⟩
      · rintro ⟨before, e, rest, hsplit, hrow⟩
        cases before with
        | nil =>
            obtain ⟨rfl, rfl⟩ := List.cons.inj hsplit
            rcases hrow with hrow | ⟨below, hbelow, hrow⟩
            · exact Or.inl hrow
            · exact Or.inr (Or.inl ⟨below, hbelow, hrow.symm⟩)
        | cons b before =>
            obtain ⟨rfl, rfl⟩ := List.cons.inj hsplit
            exact Or.inr (Or.inr ⟨before, e, rest, rfl, hrow⟩)

theorem joinRows_congr {inner inner' : Entry → List Row} {es : List Entry}
    (h : ∀ e ∈ es, inner e = inner' e) : joinRows inner es = joinRows inner' es := by
  induction es with
  | nil => rfl
  | cons e rest ih =>
      obtain ⟨hfirst, hothers⟩ := List.forall_mem_cons.mp h
      rw [joinRows, joinRows, hfirst, ih hothers]

section Rows

variable {entries : Route → List Entry} {depth : Nat} {r : Route}

theorem mem_treeRows_succ {row : Row} :
    row ∈ treeRows entries (depth + 1) r ↔ ∃ before e rest, entries r = before ++ e :: rest ∧
      (row = [(e, rest.isEmpty)] ∨ e.isDirectory = true ∧
        ∃ below ∈ treeRows entries depth (r.child e.name), row = (e, rest.isEmpty) :: below) := by
  have hinner (e : Entry) (below : Row) :
      below ∈ (if e.isDirectory then treeRows entries depth (r.child e.name) else []) ↔
        e.isDirectory = true ∧ below ∈ treeRows entries depth (r.child e.name) := by
    cases e.isDirectory with
    | true => simp
    | false => simp
  rw [treeRows, mem_joinRows]
  simp only [hinner, and_assoc, exists_and_left]

theorem ne_nil_of_mem_treeRows {row : Row} (h : row ∈ treeRows entries depth r) : row ≠ [] := by
  cases depth with
  | zero => exact absurd h List.not_mem_nil
  | succ depth =>
      obtain ⟨before, e, rest, -, rfl | ⟨-, below, -, rfl⟩⟩ := mem_treeRows_succ.mp h
      · exact List.cons_ne_nil _ _
      · exact List.cons_ne_nil _ _

/-! ## Ways -/

/-- The entries lead from a directory through directories, each listed in the one before it. -/
def Leads (entries : Route → List Entry) : (depth : Nat) → Route → List Entry → Prop
  | 0, _, _ => False
  | _ + 1, _, [] => False
  | depth + 1, r, e :: rest =>
    e ∈ entries r ∧ (rest = [] ∨ e.isDirectory = true ∧ Leads entries depth (r.child e.name) rest)

/-- **The rows are exactly the ways through the listed directories.** -/
theorem mem_treeRows {steps : List Entry} :
    steps ∈ (treeRows entries depth r).map rowSteps ↔ Leads entries depth r steps := by
  induction depth generalizing r steps with
  | zero => exact ⟨fun h => absurd h List.not_mem_nil, fun h => h.elim⟩
  | succ depth ih =>
      rw [List.mem_map]
      constructor
      · rintro ⟨row, hrow, rfl⟩
        obtain ⟨before, e, rest, hsplit, rfl | ⟨hdir, below, hbelow, rfl⟩⟩ := mem_treeRows_succ.mp hrow
        · exact ⟨by rw [hsplit]; simp, Or.inl rfl⟩
        · exact ⟨by rw [hsplit]; simp, Or.inr ⟨hdir, ih.mp (List.mem_map_of_mem hbelow)⟩⟩
      · intro h
        cases steps with
        | nil => exact h.elim
        | cons e rest =>
            -- a way says nothing of marks, which the place of its entries in their directories gives
            obtain ⟨hmem, hrest⟩ := h
            obtain ⟨before, after, hsplit⟩ := List.append_of_mem hmem
            rcases hrest with rfl | ⟨hdir, hrest⟩
            · exact ⟨_, mem_treeRows_succ.mpr ⟨before, e, after, hsplit, Or.inl rfl⟩, rfl⟩
            · obtain ⟨below, hbelow, rfl⟩ := List.mem_map.mp (ih.mpr hrest)
              exact ⟨_, mem_treeRows_succ.mpr
                ⟨before, e, after, hsplit, Or.inr ⟨hdir, below, hbelow, rfl⟩⟩, rfl⟩

/-! ## Order -/

/-- One way is before another in the order of a drawn tree: a directory is before what is in it, and
else the first entries that differ decide. -/
abbrev StepsBefore : List Entry → List Entry → Prop := List.Lex Entry.Before

theorem pairwise_joinRows {inner : Entry → List Row} {es : List Entry}
    (hes : es.Pairwise Entry.Before)
    (hinner : ∀ e ∈ es, ((inner e).map rowSteps).Pairwise StepsBefore)
    (hne : ∀ e ∈ es, ∀ row ∈ inner e, row ≠ []) :
    ((joinRows inner es).map rowSteps).Pairwise StepsBefore := by
  induction es with
  | nil => exact List.Pairwise.nil
  | cons e rest ih =>
      obtain ⟨hbefore, hrest⟩ := List.pairwise_cons.mp hes
      obtain ⟨hfirst, hothers⟩ := List.forall_mem_cons.mp hinner
      obtain ⟨hneFirst, hneOthers⟩ := List.forall_mem_cons.mp hne
      -- what comes later starts with another entry
      have hlater (steps : List Entry) : ∀ later ∈ (joinRows inner rest).map rowSteps,
          StepsBefore (e :: steps) later := by
        intro later hlater
        obtain ⟨row, hrow, rfl⟩ := List.mem_map.mp hlater
        obtain ⟨before, e', after, rfl, rfl | ⟨below, -, rfl⟩⟩ := mem_joinRows.mp hrow
        · exact List.Lex.rel (hbefore e' (by simp))
        · exact List.Lex.rel (hbefore e' (by simp))
      rw [joinRows, List.map_cons, List.map_append, List.pairwise_cons]
      constructor
      · intro later hmem
        rcases List.mem_append.mp hmem with hmem | hmem
        · obtain ⟨row, hrow, rfl⟩ := List.mem_map.mp hmem
          obtain ⟨below, hbelow, rfl⟩ := List.mem_map.mp hrow
          obtain ⟨step, steps, rfl⟩ := List.exists_cons_of_ne_nil (hneFirst below hbelow)
          exact List.Lex.cons List.Lex.nil
        · exact hlater [] later hmem
      · rw [List.pairwise_append]
        refine ⟨?_, ih hrest hothers hneOthers, ?_⟩
        · rw [List.map_map, List.pairwise_map]
          refine (List.pairwise_map.mp hfirst).imp fun h => ?_
          exact List.Lex.cons h
        · intro steps hsteps later hmem
          obtain ⟨row, hrow, rfl⟩ := List.mem_map.mp hsteps
          obtain ⟨below, -, rfl⟩ := List.mem_map.mp hrow
          exact hlater (rowSteps below) later hmem

/-- **The rows stand in order**, if every directory is listed in order. -/
theorem pairwise_treeRows (hsorted : ∀ r, (entries r).Pairwise Entry.Before) (depth : Nat) (r : Route) :
    ((treeRows entries depth r).map rowSteps).Pairwise StepsBefore := by
  induction depth generalizing r with
  | zero => exact List.Pairwise.nil
  | succ depth ih =>
      refine pairwise_joinRows (hsorted r) (fun e _ => ?_) (fun e _ row hrow => ?_)
      · split
        · exact ih _
        · exact List.Pairwise.nil
      · split at hrow
        · exact ne_nil_of_mem_treeRows hrow
        · exact absurd hrow List.not_mem_nil

/-! ## Last entries -/

theorem leads_single {e : Entry} : Leads entries (depth + 1) r [e] ↔ e ∈ entries r :=
  ⟨fun h => h.1, fun h => ⟨h, Or.inl rfl⟩⟩

/-- Behind the last entry of a list in order there is none. -/
theorem isEmpty_iff_of_pairwise {before rest : List Entry} {e : Entry}
    (h : (before ++ e :: rest).Pairwise Entry.Before) :
    rest.isEmpty = true ↔ ∀ other ∈ before ++ e :: rest, ¬ e.Before other := by
  obtain ⟨-, hrest, hacross⟩ := List.pairwise_append.mp h
  constructor
  · intro hempty other hother
    rw [List.isEmpty_iff.mp hempty] at hother
    rcases List.mem_append.mp hother with hother | hother
    · exact (hacross other hother e List.mem_cons_self).asymm
    · rw [List.mem_singleton.mp hother]
      exact e.before_irrefl
  · intro hnone
    cases rest with
    | nil => rfl
    | cons other rest =>
        have hbefore := (List.pairwise_cons.mp hrest).1 other List.mem_cons_self
        exact absurd hbefore (hnone other (by simp))

/-- **An entry of a row is marked as last exactly if it has no sibling behind it.** -/
theorem isLast_iff (hsorted : ∀ r, (entries r).Pairwise Entry.Before) {row : Row}
    (hrow : row ∈ treeRows entries depth r) {i : Nat} {e : Entry} {isLast : Bool}
    (hi : row[i]? = some (e, isLast)) :
    isLast = true ↔ ∀ other, Leads entries depth r ((rowSteps row).take i ++ [other]) →
      ¬ e.Before other := by
  induction depth generalizing r row i with
  | zero => exact absurd hrow List.not_mem_nil
  | succ depth ih =>
      obtain ⟨before, first, rest, hsplit, hkind⟩ := mem_treeRows_succ.mp hrow
      have hpairwise := hsorted r
      rw [hsplit] at hpairwise
      -- the mark of the first entry is settled by its own directory, the others below it
      cases i with
      | zero =>
          have hfirst : e = first ∧ isLast = rest.isEmpty := by
            rcases hkind with rfl | ⟨-, below, -, rfl⟩
            · cases hi
              exact ⟨rfl, rfl⟩
            · cases hi
              exact ⟨rfl, rfl⟩
          obtain ⟨rfl, rfl⟩ := hfirst
          rw [isEmpty_iff_of_pairwise hpairwise]
          simp only [List.take_zero, List.nil_append, leads_single, hsplit]
      | succ i =>
          rcases hkind with rfl | ⟨hdir, below, hbelow, rfl⟩
          · cases hi
          · have hsame (other : Entry) :
                Leads entries (depth + 1) r
                    ((rowSteps ((first, rest.isEmpty) :: below)).take (i + 1) ++ [other]) ↔
                  Leads entries depth (r.child first.name) ((rowSteps below).take i ++ [other]) := by
              show (first ∈ entries r ∧ (_ = [] ∨ first.isDirectory = true ∧
                Leads entries depth (r.child first.name) ((rowSteps below).take i ++ [other]))) ↔ _
              constructor
              · rintro ⟨-, hnil | ⟨-, h⟩⟩
                · exact absurd hnil (by simp)
                · exact h
              · intro h
                exact ⟨by rw [hsplit]; simp, Or.inr ⟨hdir, h⟩⟩
            simp only [hsame]
            exact ih hbelow hi

end Rows

/-! ## Lines -/

section Lines

variable {ε : Type} {list : Route → Except ε (List Entry)}

theorem entryLine_eq (lead : String) (isLast : Bool) (e : Entry) :
    entryLine lead isLast e = lead ++ rowText [(e, isLast)] := by
  rw [rowText, entryLine, entryLine, String.empty_append, String.append_assoc, String.append_assoc,
    String.append_assoc]

theorem rowText_cons {row : Row} (h : row ≠ []) (e : Entry) (isLast : Bool) :
    rowText ((e, isLast) :: row) = indent isLast ++ rowText row := by
  rw [rowText]
  exact h

/-- The entries of a directory; none if it cannot be listed. -/
def entriesOf (list : Route → Except ε (List Entry)) (r : Route) : List Entry :=
  match list r with
  | .ok es => es
  | .error _ => []

/-- All directories can be listed that a tree of the given depth is drawn from. -/
def AllListed (list : Route → Except ε (List Entry)) : (depth : Nat) → Route → Prop
  | 0, _ => True
  | depth + 1, r => ∃ es, list r = .ok es ∧
      ∀ e ∈ es, e.isDirectory = true → AllListed list depth (r.child e.name)

/-! If one function gives for every directory that it lists what another one gives, a tree that it draws
is drawn by the other one as well, and with the same rows. -/

section Mono

variable {list' : Route → Except ε (List Entry)} {depth : Nat} {r : Route}

theorem AllListed.mono (hlists : ∀ r es, list r = .ok es → list' r = .ok es)
    (h : AllListed list depth r) : AllListed list' depth r := by
  induction depth generalizing r with
  | zero => trivial
  | succ depth ih =>
      obtain ⟨es, hlist, hall⟩ := h
      exact ⟨es, hlists r es hlist, fun e he hdir => ih (hall e he hdir)⟩

theorem treeRows_eq_of_allListed (hlists : ∀ r es, list r = .ok es → list' r = .ok es)
    (h : AllListed list depth r) :
    treeRows (entriesOf list) depth r = treeRows (entriesOf list') depth r := by
  induction depth generalizing r with
  | zero => rfl
  | succ depth ih =>
      obtain ⟨es, hlist, hall⟩ := h
      have hentries : entriesOf list r = es := by rw [entriesOf, hlist]
      have hentries' : entriesOf list' r = es := by rw [entriesOf, hlists r es hlist]
      rw [treeRows, treeRows, hentries, hentries']
      refine joinRows_congr fun e he => ?_
      split
      · exact ih (hall e he ‹_›)
      · rfl

end Mono

/-- The way leads to the first directory that cannot be listed. -/
def FirstFails (list : Route → Except ε (List Entry)) (failure : ε) :
    (depth : Nat) → Route → List Entry → Prop
  | 0, _, _ => False
  | _ + 1, r, [] => list r = .error failure
  | depth + 1, r, e :: steps => ∃ before rest, list r = .ok (before ++ e :: rest) ∧
      (∀ b ∈ before, b.isDirectory = true → AllListed list depth (r.child b.name)) ∧
        e.isDirectory = true ∧ FirstFails list failure depth (r.child e.name) steps

/-- Either all directories can be listed, or one of them is the first that cannot. -/
theorem allListed_or_firstFails (list : Route → Except ε (List Entry)) (depth : Nat) (r : Route) :
    AllListed list depth r ∨ ∃ steps failure, FirstFails list failure depth r steps := by
  induction depth generalizing r with
  | zero => exact Or.inl trivial
  | succ depth ih =>
      cases hlist : list r with
      | error failure => exact Or.inr ⟨[], failure, hlist⟩
      | ok es =>
          -- the entries are gone through in order, `before` being those below which all can be listed
          have hscan (before rest : List Entry) (hsplit : es = before ++ rest)
              (hbefore : ∀ b ∈ before, b.isDirectory = true → AllListed list depth (r.child b.name)) :
              AllListed list (depth + 1) r ∨
                ∃ steps failure, FirstFails list failure (depth + 1) r steps := by
            induction rest generalizing before with
            | nil =>
                rw [List.append_nil] at hsplit
                exact Or.inl ⟨es, hlist, hsplit ▸ hbefore⟩
            | cons e rest ihRest =>
                have hon (he : e.isDirectory = true → AllListed list depth (r.child e.name)) :=
                  ihRest (before ++ [e]) (by rw [hsplit, List.append_assoc]; rfl) fun b hb => by
                    rcases List.mem_append.mp hb with hb | hb
                    · exact hbefore b hb
                    · rw [List.mem_singleton.mp hb]
                      exact he
                by_cases hdir : e.isDirectory = true
                · rcases ih (r.child e.name) with hall | ⟨steps, failure, hfails⟩
                  · exact hon fun _ => hall
                  · exact Or.inr ⟨e :: steps, failure, before, rest, hsplit ▸ hlist, hbefore, hdir,
                      hfails⟩
                · exact hon fun h => absurd h hdir
          exact hscan [] es rfl fun b hb => absurd hb List.not_mem_nil

/-- The lines of entries are their rows, if everything below them is drawn. -/
theorem entryLines_of_ok {below : Route → String → Except ε (List String)}
    {inner : Entry → List Row} {r : Route} {es : List Entry}
    (hbelow : ∀ e ∈ es, e.isDirectory = true → ∀ lead,
      below (r.child e.name) lead = .ok ((inner e).map (lead ++ rowText ·)))
    (hfile : ∀ e ∈ es, e.isDirectory = false → inner e = [])
    (hne : ∀ e ∈ es, ∀ row ∈ inner e, row ≠ []) (lead : String) :
    entryLines below r lead es = .ok ((joinRows inner es).map (lead ++ rowText ·)) := by
  induction es with
  | nil => rfl
  | cons e rest ih =>
      have hdrawn : (if e.isDirectory then below (r.child e.name) (lead ++ indent rest.isEmpty)
          else .ok []) = .ok ((inner e).map ((lead ++ indent rest.isEmpty) ++ rowText ·)) := by
        cases hdir : e.isDirectory with
        | true => exact hbelow e List.mem_cons_self hdir _
        | false =>
            rw [hfile e List.mem_cons_self hdir]
            rfl
      have hrest := ih (fun e he => hbelow e (List.mem_cons_of_mem _ he))
        (fun e he => hfile e (List.mem_cons_of_mem _ he))
        (fun e he => hne e (List.mem_cons_of_mem _ he))
      -- what lies below an entry is drawn with the indent that the entry leaves
      have hunder : (inner e).map ((lead ++ indent rest.isEmpty) ++ rowText ·)
          = ((inner e).map ((e, rest.isEmpty) :: ·)).map (lead ++ rowText ·) := by
        rw [List.map_map]
        refine List.map_congr_left fun row hrow => ?_
        calc (lead ++ indent rest.isEmpty) ++ rowText row
            = lead ++ (indent rest.isEmpty ++ rowText row) := String.append_assoc
          _ = lead ++ rowText ((e, rest.isEmpty) :: row) := by
              rw [rowText_cons (hne e List.mem_cons_self row hrow)]
      rw [entryLines, hdrawn]
      simp only
      rw [hrest, hunder, joinRows, List.map_cons, List.map_append, entryLine_eq]
      rfl

/-- A directory that cannot be drawn fails the lines, if everything before it is drawn. -/
theorem entryLines_of_error {below : Route → String → Except ε (List String)} {r : Route}
    {before rest : List Entry} {e : Entry} {failure : ε}
    (hbefore : ∀ b ∈ before, b.isDirectory = true → ∀ lead, ∃ lines,
      below (r.child b.name) lead = .ok lines)
    (hdir : e.isDirectory = true) (he : ∀ lead, below (r.child e.name) lead = .error failure)
    (lead : String) : entryLines below r lead (before ++ e :: rest) = .error failure := by
  induction before with
  | nil =>
      rw [List.nil_append, entryLines]
      simp only [hdir, if_true, he]
  | cons b before ih =>
      have hrest := ih fun b hb => hbefore b (List.mem_cons_of_mem _ hb)
      rw [List.cons_append, entryLines]
      cases hb : b.isDirectory with
      | false => simp only [Bool.false_eq_true, if_false, hrest]
      | true =>
          obtain ⟨lines, hlines⟩ := hbefore b List.mem_cons_self hb
            (lead ++ indent (before ++ e :: rest).isEmpty)
          simp only [if_true, hlines, hrest]

/-- **A tree is drawn row by row**, if all its directories can be listed. -/
theorem treeLines_of_allListed {depth : Nat} {r : Route} (h : AllListed list depth r) (lead : String) :
    treeLines list depth r lead = .ok ((treeRows (entriesOf list) depth r).map (lead ++ rowText ·)) := by
  induction depth generalizing r lead with
  | zero => rfl
  | succ depth ih =>
      obtain ⟨es, hlist, hall⟩ := h
      have hentries : entriesOf list r = es := by rw [entriesOf, hlist]
      rw [treeLines, hlist, treeRows, hentries]
      refine entryLines_of_ok (fun e he hdir lead => ?_) (fun e _ hdir => ?_) (fun e _ row hrow => ?_) lead
      · rw [if_pos hdir]
        exact ih (hall e he hdir) lead
      · rw [if_neg (by rw [hdir]; decide)]
      · split at hrow
        · exact ne_nil_of_mem_treeRows hrow
        · exact absurd hrow List.not_mem_nil

/-- **The first directory that cannot be listed fails the tree.** -/
theorem treeLines_of_firstFails {failure : ε} {depth : Nat} {r : Route} {steps : List Entry}
    (h : FirstFails list failure depth r steps) (lead : String) :
    treeLines list depth r lead = .error failure := by
  induction depth generalizing r steps lead with
  | zero => exact h.elim
  | succ depth ih =>
      cases steps with
      | nil =>
          have hlist : list r = .error failure := h
          rw [treeLines, hlist]
      | cons e steps =>
          obtain ⟨before, rest, hlist, hbefore, hdir, hfails⟩ := h
          rw [treeLines, hlist]
          refine entryLines_of_error (fun b hb hbdir lead => ?_) hdir (fun lead => ih hfails lead) lead
          exact ⟨_, treeLines_of_allListed (hbefore b hb hbdir) lead⟩

end Lines

end SourceNavigator.Tree
