import SourceNavigator.Proofs.Path.Collapse
import SourceNavigator.World.Canonical

set_option autoImplicit false

/-! # Trees of real files

A tree as a file system can hold it names its entries with file names (`Node.isSound`), and the
process stands in one of its directories (`World.IsSound`). What stands at a place is read off
directory by directory (`at?_append`), so the places above a node are directories
(`exists_dir_of_at?`) and its names are file names (`isFileName_of_at?`).
-/

namespace SourceNavigator.World

open SourceNavigator.Path (IsName climb up)

/-- A name that a file can have. -/
def IsFileName (name : String) : Prop :=
  IsName name ∧ name ≠ up ∧ hasNul name = false ∧ name.utf8ByteSize ≤ maxName

instance (name : String) : Decidable (IsFileName name) :=
  inferInstanceAs (Decidable ((_ ∧ _) ∧ _ ∧ _ ∧ _))

/-! ## Names of one letter -/

theorem length_replicate (c : Char) (n : Nat) : (String.ofList (List.replicate n c)).length = n :=
  String.length_ofList.trans List.length_replicate

theorem utf8ByteSize_replicate {c : Char} (hc : c.utf8Size = 1) (n : Nat) :
    (String.ofList (List.replicate n c)).utf8ByteSize = n := by
  induction n with
  | zero => rfl
  | succ n ih =>
      rw [List.replicate_succ, String.ofList_cons, String.utf8ByteSize_append, ih,
        String.utf8ByteSize_singleton, hc, Nat.add_comm]

theorem isFileName_replicate {c : Char} (hc : c.utf8Size = 1) (hslash : '/' ≠ c)
    (hnul : '\x00' ≠ c) {n : Nat} (hmore : 2 < n) (hless : n ≤ maxName) :
    IsFileName (String.ofList (List.replicate n c)) := by
  have hne {s : String} (hs : s.length ≤ 2) : String.ofList (List.replicate n c) ≠ s := by
    rintro rfl
    rw [length_replicate] at hs
    omega
  have hnot {c' : Char} (hc' : c' ≠ c) : c' ∉ (String.ofList (List.replicate n c)).toList := by
    rw [String.toList_ofList]
    exact fun h => hc' (List.eq_of_mem_replicate h)
  have hleads : Path.leads (String.ofList (List.replicate n c)) = true := by
    simp only [Path.leads, Bool.and_eq_true, bne_iff_ne]
    exact ⟨hne (by decide), hne (by decide)⟩
  refine ⟨⟨hleads, hnot hslash⟩, hne (by decide), ?_, ?_⟩
  · rw [hasNul, List.contains_eq_mem]
    exact decide_eq_false (hnot hnul)
  · rw [utf8ByteSize_replicate hc]
    exact hless

namespace Node

mutual

/-- Whether all entries of a tree have file names, no two of one directory the same. -/
def isSound : Node → Bool
  | .file _ => true
  | .link _ => true
  | .dir entries => areSound entries

/-- Whether the entries of a list, and all below them, have file names of their own. -/
def areSound : List (String × Node) → Bool
  | [] => true
  | (name, node) :: rest =>
    decide (IsFileName name) && node.isSound && (named? name rest).isNone && areSound rest

end

theorem sound_of_named? {entries : List (String × Node)} (h : areSound entries = true)
    {name : String} {node : Node} (hnode : named? name entries = some node) :
    IsFileName name ∧ node.isSound = true := by
  induction entries with
  | nil => cases hnode
  | cons entry rest ih =>
      obtain ⟨n, m⟩ := entry
      simp only [areSound, Bool.and_eq_true, decide_eq_true_eq] at h
      obtain ⟨⟨⟨hname, hm⟩, -⟩, hrest⟩ := h
      by_cases hn : n = name
      · rw [named?, if_pos hn] at hnode
        cases hnode
        exact ⟨hn ▸ hname, hm⟩
      · rw [named?, if_neg hn] at hnode
        exact ih hrest hnode

theorem named?_of_mem {entries : List (String × Node)} (h : areSound entries = true)
    {name : String} {node : Node} (hmem : (name, node) ∈ entries) :
    named? name entries = some node := by
  induction entries with
  | nil => exact absurd hmem List.not_mem_nil
  | cons entry rest ih =>
      obtain ⟨n, m⟩ := entry
      simp only [areSound, Bool.and_eq_true, Option.isNone_iff_eq_none] at h
      obtain ⟨⟨-, hnone⟩, hrest⟩ := h
      rcases List.mem_cons.mp hmem with heq | hmem
      · cases heq
        rw [named?, if_pos rfl]
      · have hnamed := ih hrest hmem
        have hne : n ≠ name := by
          rintro rfl
          rw [hnone] at hnamed
          cases hnamed
        rw [named?, if_neg hne, hnamed]

/-! ## What stands at a place -/

theorem at?_nil (tree : Node) : tree.at? [] = some tree := by
  cases tree with
  | file _ => rfl
  | link _ => rfl
  | dir _ => rfl

theorem at?_append (tree : Node) (a b : Place) :
    tree.at? (a ++ b) = (tree.at? a).bind (at? · b) := by
  induction a generalizing tree with
  | nil => rw [List.nil_append, at?_nil, Option.bind_some]
  | cons name rest ih =>
      cases tree with
      | file _ => rfl
      | link _ => rfl
      | dir entries =>
          rw [List.cons_append, at?, at?]
          cases named? name entries with
          | none => rfl
          | some node => exact ih node

theorem at?_concat {tree : Node} {place : Place} {entries : List (String × Node)}
    (h : tree.at? place = some (.dir entries)) (name : String) :
    tree.at? (place ++ [name]) = named? name entries := by
  rw [at?_append, h, Option.bind_some, at?]
  cases named? name entries with
  | none => rfl
  | some node => exact at?_nil node

/-- Below a directory lies what lies below its children, and below other nodes nothing. -/
theorem exists_child_of_at? {tree node : Node} {first : String} {rest : Place}
    (h : tree.at? (first :: rest) = some node) :
    ∃ entries child, tree = .dir entries ∧ named? first entries = some child ∧
      child.at? rest = some node := by
  cases tree with
  | file _ => cases h
  | link _ => cases h
  | dir entries =>
      rw [at?] at h
      obtain ⟨child, hchild, hrest⟩ := Option.bind_eq_some_iff.mp h
      exact ⟨entries, child, rfl, hchild, hrest⟩

/-- A node has a directory above it. -/
theorem exists_dir_of_at? {tree node : Node} {place : Place} {names : List String}
    (h : tree.at? (place ++ names) = some node) (hne : names ≠ []) :
    ∃ entries, tree.at? place = some (.dir entries) := by
  rw [at?_append] at h
  obtain ⟨above, hplace, hbelow⟩ := Option.bind_eq_some_iff.mp h
  obtain ⟨first, rest, rfl⟩ := List.exists_cons_of_ne_nil hne
  obtain ⟨entries, -, rfl, -⟩ := exists_child_of_at? hbelow
  exact ⟨entries, hplace⟩

theorem isSound_of_at? {tree node : Node} (htree : tree.isSound = true) {place : Place}
    (h : tree.at? place = some node) : node.isSound = true := by
  induction place generalizing tree with
  | nil =>
      rw [at?_nil] at h
      cases h
      exact htree
  | cons first rest ih =>
      obtain ⟨entries, child, rfl, hfirst, hrest⟩ := exists_child_of_at? h
      exact ih (sound_of_named? htree hfirst).2 hrest

theorem isFileName_of_at? {tree node : Node} (htree : tree.isSound = true) {place : Place}
    (h : tree.at? place = some node) : ∀ name ∈ place, IsFileName name := by
  induction place generalizing tree with
  | nil => exact fun _ hname => absurd hname List.not_mem_nil
  | cons first rest ih =>
      obtain ⟨entries, child, rfl, hfirst, hrest⟩ := exists_child_of_at? h
      obtain ⟨hname, hchild⟩ := sound_of_named? htree hfirst
      exact List.forall_mem_cons.mpr ⟨hname, ih hchild hrest⟩

end Node

/-! ## Places -/

/-- A directory stands at the place. -/
def Stands (tree : Node) (place : Place) : Prop := ∃ entries, tree.at? place = some (.dir entries)

/-- Something stands at the place that is no link. -/
def IsSolid (tree : Node) (place : Place) : Prop :=
  ∃ node, tree.at? place = some node ∧ ∀ target, node ≠ .link target

/-- No link stands at the place or above it. -/
def IsClear (tree : Node) (place : Place) : Prop :=
  ∀ above, above <+: place → ∀ target, tree.at? above ≠ some (.link target)

theorem Stands.of_prefix {tree : Node} {above place : Place} (h : Stands tree place)
    (hpre : above <+: place) : Stands tree above := by
  obtain ⟨names, rfl⟩ := hpre
  by_cases hnames : names = []
  · rw [hnames, List.append_nil] at h
    exact h
  · obtain ⟨entries, h⟩ := h
    exact Node.exists_dir_of_at? h hnames

theorem Stands.dropLast {tree : Node} {place : Place} (h : Stands tree place) :
    Stands tree place.dropLast :=
  h.of_prefix (List.dropLast_prefix place)

theorem IsClear.of_prefix {tree : Node} {above place : Place} (h : IsClear tree place)
    (hpre : above <+: place) : IsClear tree above :=
  fun _ hp => h _ (hp.trans hpre)

theorem Stands.isSolid {tree : Node} {place : Place} (h : Stands tree place) :
    IsSolid tree place := by
  obtain ⟨entries, h⟩ := h
  exact ⟨_, h, fun _ => Node.noConfusion⟩

theorem IsSolid.isClear {tree : Node} {place : Place} (h : IsSolid tree place) :
    IsClear tree place := by
  obtain ⟨node, hat, hnode⟩ := h
  rintro above ⟨names, rfl⟩ target htarget
  by_cases hnames : names = []
  · rw [hnames, List.append_nil, htarget] at hat
    exact hnode target (Option.some.inj hat).symm
  · obtain ⟨entries, hdir⟩ := Node.exists_dir_of_at? hat hnames
    rw [htarget] at hdir
    cases hdir

theorem IsClear.concat {tree : Node} {place : Place} (h : IsClear tree place) {name : String}
    (hname : ∀ target, tree.at? (place ++ [name]) ≠ some (.link target)) :
    IsClear tree (place ++ [name]) := by
  intro above hpre target
  rcases List.prefix_concat_iff.mp hpre with rfl | hpre
  · exact hname target
  · exact h above hpre target

/-! ## Real worlds -/

/-- A world as a process can find it: its tree has file names, and it stands in a directory. -/
structure IsSound (w : World) : Prop where
  tree : w.tree.isSound = true
  cwd : Stands w.tree w.cwd

theorem IsSound.start {w : World} (h : w.IsSound) (anchored : Bool) :
    Stands w.tree (w.start anchored) := by
  cases anchored with
  | true => exact h.cwd.of_prefix List.nil_prefix
  | false => exact h.cwd

theorem isProper_base {w : World} (h : w.IsSound) : w.base.IsProper := by
  obtain ⟨entries, hcwd⟩ := h.cwd
  exact fun name hname => (Node.isFileName_of_at? h.tree hcwd name hname).1

end SourceNavigator.World
