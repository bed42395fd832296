import SourceNavigator.Proofs.World.Canonical

set_option autoImplicit false

/-! # Resolving again

What a canonical route is made of, and what becomes of it when it is resolved once more. Its names are
those of the path, of the link targets on the way and of the place where the process stands
(`forall_names_resolve`), so the canonical route of a path that can be written is read back from its
text (`isProper_resolve`). If no link stands on a canonical route, it is its own canonical route
(`resolve_of_isClear`). After a loop links can be left on it, and resolving again may follow them.
-/

namespace SourceNavigator.World

open SourceNavigator.Path (Route IsName up)

/-! ## The names of a canonical route -/

section Names

variable {P : String → Prop}

/-- All names of a route have the property. -/
def AllNames (P : String → Prop) (r : Route) : Prop := ∀ name ∈ r.names, P name

/-- All routes that links were resolved to have names with the property. -/
def Seen.AllNames (P : String → Prop) (seen : Seen) : Prop :=
  ∀ link found, seen.known link = some (some found) → World.AllNames P found

/-- A route at which a resolution settles has names with the property, and so have those that links
were resolved to. A resolution that loops leaves a text. -/
def Resolution.AllNames (P : String → Prop) : Resolution → Prop
  | .settled r seen => World.AllNames P r ∧ seen.AllNames P
  | .looped _ => True
  | .unspeakable => True
  | .exhausted => True

theorem AllNames.child {r : Route} (h : AllNames P r) {name : String} (hname : P name) :
    AllNames P (r.child name) := by
  intro n hn
  rcases List.mem_append.mp hn with hn | hn
  · exact h n hn
  · exact List.mem_singleton.mp hn ▸ hname

theorem AllNames.parent {r : Route} (h : AllNames P r) (hup : P up) : AllNames P r.parent := by
  intro n hn
  have hn : n ∈ Route.push (r.anchor != .here) r.names.reverse up := List.mem_reverse.mp hn
  rcases Path.mem_push hn with hn | rfl
  · exact h n (List.mem_reverse.mp hn)
  · exact hup

theorem AllNames.collapse {r : Route} (h : AllNames P r) : AllNames P r.collapse :=
  fun n hn => h n (Path.mem_collapseNames hn)

theorem AllNames.append {a b : Route} (ha : AllNames P a) (hb : AllNames P b) :
    AllNames P (a.append b) := by
  unfold Route.append
  split
  · exact hb
  · intro n hn
    rcases List.mem_append.mp hn with hn | hn
    · exact ha n hn
    · exact hb n hn

theorem allNames_originOf (anchored : Bool) : AllNames P (originOf anchored) := by
  cases anchored <;> exact fun n hn => absurd hn List.not_mem_nil

theorem allNames_targetRoute {r : Route} (h : AllNames P r) (target : String) :
    AllNames P (targetRoute r target) := by
  unfold targetRoute
  split
  · exact allNames_originOf true
  · exact h

theorem Seen.AllNames.cons_none {seen : Seen} (h : seen.AllNames P) (link : Route) :
    Seen.AllNames P ((link, none) :: seen) := by
  intro other found hknown
  rw [Seen.known_cons] at hknown
  split at hknown
  · cases hknown
  · exact h other found hknown

theorem Seen.AllNames.cons_some {seen : Seen} (h : seen.AllNames P) (link : Route) {r : Route}
    (hr : World.AllNames P r) : Seen.AllNames P ((link, some r) :: seen) := by
  intro other found hknown
  rw [Seen.known_cons] at hknown
  split at hknown
  · cases hknown
    exact hr
  · exact h other found hknown

/-- A piece of a text that leads somewhere is a name. -/
theorem isName_of_mem_pieces {s piece : String} (h : piece ∈ Path.pieces s)
    (hleads : Path.leads piece = true) : IsName piece := by
  obtain ⟨cs, hcs, rfl⟩ := List.mem_map.mp h
  refine ⟨hleads, ?_⟩
  rw [String.toList_ofList]
  exact Text.not_mem_of_mem_cut hcs

variable {w : World}

theorem allNames_resolveNames (hup : P up) {enter : Route → String → Seen → Resolution}
    (henter : ∀ r target seen, AllNames P r → seen.AllNames P → (enter r target seen).AllNames P)
    {names : List String} (hnames : ∀ n ∈ names, Path.leads n = true → P n) {r : Route} {seen : Seen}
    (hr : AllNames P r) (hseen : seen.AllNames P) :
    (resolveNames w enter r names seen).AllNames P := by
  induction names generalizing r seen with
  | nil => exact ⟨hr, hseen⟩
  | cons name rest ih =>
      have hrest : ∀ n ∈ rest, Path.leads n = true → P n :=
        fun n hn => hnames n (List.mem_cons_of_mem _ hn)
      cases nameOutcome w enter r name seen with
      | stay _ hstep =>
          rw [hstep]
          exact ih hrest hr hseen
      | back _ hstep =>
          rw [hstep]
          exact ih hrest (hr.parent hup) hseen
      | into hname _ _ hstep =>
          rw [hstep]
          exact ih hrest (hr.child (hnames name List.mem_cons_self hname)) hseen
      | known _ found _ _ _ hknown hstep =>
          rw [hstep]
          exact ih hrest (hseen _ found hknown) hseen
      | entered target found more _ _ _ hentered hstep =>
          have hinside := henter r target _ hr (hseen.cons_none (r.child name))
          rw [hentered] at hinside
          rw [hstep]
          exact ih hrest hinside.1 (hinside.2.cons_some _ hinside.1)
      | looped _ hstep =>
          rw [hstep]
          exact trivial
      | unspeakable hstep | exhausted hstep =>
          rw [hstep]
          exact trivial

theorem allNames_resolveTarget (hP : ∀ n, IsName n → P n) (depth : Nat) (r : Route)
    (target : String) (seen : Seen) (hr : AllNames P r) (hseen : seen.AllNames P) :
    (resolveTarget w depth r target seen).AllNames P := by
  induction depth generalizing r target seen with
  | zero => exact trivial
  | succ depth ih =>
      apply allNames_resolveNames (hP up Path.isName_up) ih
      · exact fun n hn hleads => hP n (isName_of_mem_pieces hn hleads)
      · exact allNames_targetRoute hr target
      · exact hseen

/-- **The names of a canonical route** are those of the path, and names that a text can hold. -/
theorem allNames_resolve (hw : w.IsSound) (hP : ∀ n, IsName n → P n) {r p : Route}
    (hr : ∀ n ∈ r.names, Path.leads n = true → P n) (h : w.resolve r = .ok p) : AllNames P p := by
  have hbase : AllNames P w.base := fun n hn => hP n (isProper_base hw n hn)
  have hnil : Seen.AllNames P [] := by
    intro link found hknown
    cases hknown
  have hnames : (resolveNames w (resolveTarget w linkRoom) (originOf r.isAnchored) r.names
      []).AllNames P :=
    allNames_resolveNames (hP up Path.isName_up) (allNames_resolveTarget hP linkRoom) hr
      (allNames_originOf _) hnil
  have hreal := realRoute_of_resolve h
  unfold realRoute at hreal
  unfold originOf at hnames
  simp only at hreal
  split at hreal
  · rename_i route seen hsettled
    cases hreal
    rw [hsettled] at hnames
    exact (hbase.append hnames.1).collapse
  · cases hreal
    -- behind a loop the route is read from a text
    exact fun n hn => hP n (Path.absolute_isProper (isProper_base hw) _ n hn)
  · cases hreal
  · cases hreal

end Names

theorem isProper_resolve {w : World} (hw : w.IsSound) {r p : Route} (hr : r.IsProper)
    (h : w.resolve r = .ok p) : p.IsProper :=
  allNames_resolve hw (fun _ hn => hn) (fun n hn _ => hr n hn) h

/-- A canonical route has no empty name, even if the path has names that cannot be written. -/
theorem leads_of_mem_resolve {w : World} (hw : w.IsSound) {r p : Route} (h : w.resolve r = .ok p)
    {name : String} (hname : name ∈ p.names) : Path.leads name = true :=
  allNames_resolve hw (P := fun n => Path.leads n = true) (fun _ hn => hn.1) (fun _ _ h => h) h name
    hname

/-! ## Clear routes -/

/-- Resolving the names of a clear place meets no link. -/
theorem resolveNames_of_isClear {w : World} (hw : w.IsSound)
    (enter : Route → String → Seen → Resolution) (above names : Place) (seen : Seen)
    (habove : LeadDown above) (hnames : LeadDown names) (hclear : IsClear w.tree (above ++ names))
    (hnul : ∀ name ∈ names, hasNul name = false) :
    resolveNames w enter ⟨.root, above⟩ names seen = .settled ⟨.root, above ++ names⟩ seen := by
  induction names generalizing above with
  | nil => rw [resolveNames, List.append_nil]
  | cons name rest ih =>
      obtain ⟨hleads, hup⟩ := hnames name List.mem_cons_self
      have hplain : IsPlain ⟨.root, above⟩ := isPlain_root habove
      have hplace : w.placeOf ⟨.root, above⟩ = above := placeOf_root w habove
      have hsplit : above ++ name :: rest = above ++ [name] ++ rest := by simp
      -- a link that is seen stands there, but the place is clear
      have hlink : w.linkTarget? (Route.child ⟨.root, above⟩ name) = none := by
        refine Option.eq_none_iff_forall_ne_some.mpr fun target htarget => ?_
        have hat := at?_of_linkTarget? hw hplain
          (hplace.symm ▸ hclear.of_prefix (List.prefix_append above _)) hleads hup htarget
        rw [hplace] at hat
        exact hclear (above ++ [name]) (hsplit ▸ List.prefix_append _ rest) target hat
      rw [resolveNames_into hleads hup (hnul name List.mem_cons_self) hlink, hsplit]
      apply ih
      · exact habove.concat hleads hup
      · exact fun n hn => hnames n (List.mem_cons_of_mem _ hn)
      · exact hsplit ▸ hclear
      · exact fun n hn => hnul n (List.mem_cons_of_mem _ hn)

/-- A canonical route does not run into too many links. -/
theorem findNode_of_resolve {w : World} {r p : Route} (h : w.resolve r = .ok p) :
    w.findNode p.address ≠ .error .tooManyLinks := by
  intro hfound
  have hreal := realRoute_of_resolve h
  rw [resolve, hreal] at h
  simp only [hfound] at h
  split at h <;> cases h

/-- **A clear route is its own canonical route.** -/
theorem resolve_of_isClear {w : World} (hw : w.IsSound) {place : Place} (hdown : LeadDown place)
    (hclear : IsClear w.tree place) (hnul : hasNul (Route.text ⟨.root, place⟩) = false)
    (hfound : w.findNode (Route.address ⟨.root, place⟩) ≠ .error .tooManyLinks) :
    w.resolve ⟨.root, place⟩ = .ok ⟨.root, place⟩ := by
  have hnames : ∀ name ∈ place, hasNul name = false := by
    intro name hname
    by_contra hne
    have htext := hasNul_text_of_mem (r := ⟨.root, place⟩) hname (by simpa using hne)
    rw [hnul] at htext
    cases htext
  have hsettled := resolveNames_of_isClear hw (resolveTarget w linkRoom) [] place []
    (fun _ h => absurd h List.not_mem_nil) hdown hclear hnames
  have hreal : w.realRoute ⟨.root, place⟩ = .ok ⟨.root, place⟩ := by
    rw [realRoute_of_settled (r := ⟨.root, place⟩) hw hsettled (isPlain_root hdown), List.nil_append,
      placeOf_root w hdown]
  rw [resolve, hreal]
  simp only [hnul, Bool.false_eq_true, if_false]

/-- The place where the process stands has no other route. -/
theorem resolve_base {w : World} (hw : w.IsSound) : w.resolve w.base = .ok w.base := by
  obtain ⟨entries, hat⟩ := id hw.cwd
  have hdown : LeadDown w.cwd := leadDown_of_at? hw.tree hat
  have hreach : w.reach w.base = .ok w.cwd := by
    have h := reach_of_isSolid hw (isPlain_root hdown)
    rw [placeOf_root w hdown] at h
    exact h hw.cwd.isSolid
  have hnul : hasNul w.base.text = false :=
    hasNul_text_eq_false fun name (hmem : name ∈ w.cwd) =>
      (Node.isFileName_of_at? hw.tree hat name hmem).2.2.1
  exact resolve_of_isClear hw hdown hw.cwd.isSolid.isClear hnul (findNode_of_reach hreach hat)

/-- **Resolving again changes nothing** if the first time met no loop and overlooked no link. -/
theorem resolve_again {w : World} (hw : w.IsSound) {r p : Route} (hr : w.Discerns r)
    (hsettles : w.Settles r) (h : w.resolve r = .ok p) : w.resolve p = .ok p := by
  obtain ⟨place, hreal, hclear, hdown⟩ := isClear_of_settles hw hr hsettles
  obtain rfl : p = ⟨.root, place⟩ := Except.ok.inj ((realRoute_of_resolve h).symm.trans hreal)
  exact resolve_of_isClear hw hdown hclear (hasNul_text_of_resolve h) (findNode_of_resolve h)

end SourceNavigator.World
