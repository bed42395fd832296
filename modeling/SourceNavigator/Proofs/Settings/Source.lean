import SourceNavigator.Proofs.Calls
import SourceNavigator.Proofs.Text.Lossy
import SourceNavigator.Settings.Load

set_option autoImplicit false

/-! # Where settings come from

A file gives settings if it can be opened and its octets are a text that reads as entries (`Gives`). A
file that does not is passed over, or refused if the caller names it, as long as nothing is wrong with it
but what loading expects (`IsSoundFile`): the system can tell whether it is there, and its octets are an
encoded text. Of several candidates the first one that gives settings is taken (`Finds`), and those behind
it may be anything (`AllSound`). Anything else ends the search with a failure that is not one of
configuration (`searchOutcome`).
-/

namespace SourceNavigator.Settings

open Data (Datum)
open SourceNavigator.Path (Route)

/-! ## What a file gives -/

/-- A file with these octets stands at the route and may be opened. -/
def Opens (w : World) (file : Route) (octets : List UInt8) : Prop :=
  w.probe file.address = .ok (some (.file octets)) ∧ w.denied.contains file.text = false

/-- The octets are a text that reads as entries, or as nothing. -/
def ReadsAs (octets : List UInt8) (entries : List (Datum × Datum)) : Prop :=
  ∃ cs, octets = Text.Utf8.encode cs ∧
    (Markup.read settingsDepth (Text.unify cs) = .ok (.map entries) ∨
      Markup.read settingsDepth (Text.unify cs) = .ok .null ∧ entries = [])

/-- The octets are a text that the markup reader either reads or refuses as malformed. -/
def IsReadable (octets : List UInt8) : Prop :=
  ∃ cs, octets = Text.Utf8.encode cs ∧
    ∀ defect, Markup.read settingsDepth (Text.unify cs) = .error defect → defect = .malformed

/-- The file at the route gives these entries. -/
def Gives (w : World) (file : Route) (entries : List (Datum × Datum)) : Prop :=
  ∃ octets, Opens w file octets ∧ ReadsAs octets entries

/-- The system can tell whether a file stands at the route, and its octets are readable if one does. -/
structure IsSoundFile (w : World) (file : Route) : Prop where
  probed : ∀ t, w.probe file.address ≠ .error t
  readable : ∀ octets, Opens w file octets → IsReadable octets

theorem hasFile_of_file {w : World} {file : Route} {octets : List UInt8}
    (h : w.probe file.address = .ok (some (.file octets))) : hasFile w file = .ok true := by
  rw [hasFile, h]
  rfl

theorem octetsAt_of_probe {w : World} {file : Route} {octets : List UInt8}
    (h : w.probe file.address = .ok (some (.file octets))) :
    w.octetsAt file.address
      = if w.denied.contains file.text then World.refuse .denied file.address else .ok octets := by
  have htext : file.address.text = file.text := rfl
  unfold World.probe at h
  unfold World.octetsAt World.openNode World.stat
  rw [htext] at h ⊢
  by_cases hnul : World.hasNul file.text = true
  · rw [if_pos hnul] at h
    cases h
  · rw [if_neg hnul] at h ⊢
    cases hfound : w.findNode file.address with
    | error f =>
        rw [hfound] at h
        simp only at h
        split at h
        · cases h
        · cases h
    | ok node =>
        rw [hfound] at h
        cases h
        by_cases hdenied : w.denied.contains file.text = true
        · rw [if_pos hdenied, if_pos hdenied]
          rfl
        · rw [if_neg hdenied, if_neg hdenied]

/-! ## Octets -/

/-- The entries that the octets of a file give, or why they give none. -/
def entriesOf (file : Route) (octets : List UInt8) : Except Failure (List (Datum × Datum)) :=
  match Text.Utf8.decodeStrict? octets with
  | .error f => .error (.undecodable f)
  | .ok cs =>
    match Markup.read settingsDepth (Text.unify cs) with
    | .error .malformed => .error (.badMarkup file.text)
    | .error d => .error (.markup d)
    | .ok .null => .ok []
    | .ok (.map entries) => .ok entries
    | .ok d => .error (.configuration (file.text ++ " must contain a YAML object, not a " ++ d.kindName))

theorem entriesOf_encode (file : Route) (cs : List Char) :
    entriesOf file (Text.Utf8.encode cs)
      = match Markup.read settingsDepth (Text.unify cs) with
        | .error .malformed => .error (.badMarkup file.text)
        | .error d => .error (.markup d)
        | .ok .null => .ok []
        | .ok (.map entries) => .ok entries
        | .ok d =>
          .error (.configuration (file.text ++ " must contain a YAML object, not a " ++ d.kindName)) := by
  rw [entriesOf, Text.Utf8.decodeStrict?_eq_ok_iff.mpr rfl]

/-- Octets are an encoded text, or they give nothing. -/
theorem encode_or_undecodable (file : Route) (octets : List UInt8) :
    (∃ cs, octets = Text.Utf8.encode cs) ∨ (∀ cs, octets ≠ Text.Utf8.encode cs) ∧
      ∃ f, entriesOf file octets = .error (.undecodable f) := by
  cases hdecode : Text.Utf8.decodeStrict? octets with
  | ok cs => exact Or.inl ⟨cs, Text.Utf8.decodeStrict?_eq_ok_iff.mp hdecode⟩
  | error f =>
      refine Or.inr ⟨fun cs hcs => ?_, f, by rw [entriesOf, hdecode]⟩
      rw [Text.Utf8.decodeStrict?_eq_ok_iff.mpr hcs] at hdecode
      cases hdecode

theorem encode_injective {cs cs' : List Char} (h : Text.Utf8.encode cs = Text.Utf8.encode cs') :
    cs = cs' := by
  have hcs := Text.Utf8.decodeStrict?_eq_ok_iff.mpr h
  rw [Text.Utf8.decodeStrict?_eq_ok_iff.mpr rfl] at hcs
  exact Except.ok.inj hcs

theorem entriesOf_eq_ok_iff (file : Route) {octets : List UInt8} {entries : List (Datum × Datum)} :
    entriesOf file octets = .ok entries ↔ ReadsAs octets entries := by
  rcases encode_or_undecodable file octets with ⟨cs, rfl⟩ | ⟨hnot, f, hf⟩
  · rw [entriesOf_encode]
    constructor
    · intro h
      refine ⟨cs, rfl, ?_⟩
      split at h
      · cases h
      · cases h
      · rename_i hread
        exact Or.inr ⟨hread, (Except.ok.inj h).symm⟩
      · rename_i hread
        rw [Except.ok.inj h] at hread
        exact Or.inl hread
      · cases h
    · rintro ⟨cs', hcs', hread⟩
      rw [encode_injective hcs']
      rcases hread with hread | ⟨hread, rfl⟩
      · rw [hread]
      · rw [hread]
  · rw [hf]
    constructor
    · intro h
      cases h
    · rintro ⟨cs, hcs, -⟩
      exact absurd hcs (hnot cs)

/-- **Readable octets fail as loading expects**, and others in another way. -/
theorem isReadable_iff (file : Route) {octets : List UInt8} :
    IsReadable octets ↔ ∀ e, entriesOf file octets = .error e → isConfiguration e = true := by
  rcases encode_or_undecodable file octets with ⟨cs, rfl⟩ | ⟨hnot, f, hf⟩
  · rw [entriesOf_encode]
    constructor
    · rintro ⟨cs', hcs', hdefect⟩ e he
      rw [encode_injective hcs'] at he
      split at he
      · exact Except.error.inj he ▸ rfl
      · rename_i d hne hread
        exact absurd (hdefect d hread) hne
      · cases he
      · cases he
      · exact Except.error.inj he ▸ rfl
    · intro h
      refine ⟨cs, rfl, fun defect hread => ?_⟩
      by_contra hne
      have hfails := h (.markup defect) (by simp only [hread])
      cases hfails
  · constructor
    · rintro ⟨cs, hcs, -⟩
      exact absurd hcs (hnot cs)
    · intro h
      cases h _ hf

theorem readText_of_opens {w : World} {file : Route} {octets : List UInt8} (h : Opens w file octets) :
    readText w file
      = match Text.Utf8.decodeStrict? octets with
        | .ok cs => .ok (Text.unify cs)
        | .error f => .error (.undecodable f) := by
  rewrite [readText, octetsAt_of_probe h.1, if_neg (ne_true_of_eq_false h.2)]
  rfl

theorem hasResult_loadEntries {w : World} {file : Route} {octets : List UInt8}
    (h : Opens w file octets) : (loadEntries w file).HasResult (entriesOf file octets) := by
  unfold loadEntries readEntries entriesOf
  rw [readText_of_opens h]
  cases Text.Utf8.decodeStrict? octets with
  | error f => exact (Action.hasResult_lift _).bind_error _
  | ok cs =>
      -- a file that holds nothing is warned of, and read as one without entries
      simp only
      generalize Markup.read settingsDepth (Text.unify cs) = found
      cases found with
      | error defect => cases defect <;> exact (Action.hasResult_lift _).bind_error _
      | ok d =>
          cases d with
          | null =>
              exact (Action.hasResult_lift _).bind
                ((Action.hasResult_log _ _ _).bind (Action.hasResult_pure _))
          | map entries => exact (Action.hasResult_lift _).bind (Action.hasResult_pure _)
          | _ => exact (Action.hasResult_lift _).bind_error _

/-! ## One file -/

theorem Opens.unique {w : World} {file : Route} {octets octets' : List UInt8}
    (h : Opens w file octets) (h' : Opens w file octets') : octets = octets' := by
  have hprobe := h.1.symm.trans h'.1
  cases hprobe
  rfl

theorem Gives.unique {w : World} {file : Route} {entries entries' : List (Datum × Datum)}
    (h : Gives w file entries) (h' : Gives w file entries') : entries = entries' := by
  obtain ⟨octets, hopens, hreads⟩ := h
  obtain ⟨octets', hopens', hreads'⟩ := h'
  replace hreads := (entriesOf_eq_ok_iff file).mpr hreads
  replace hreads' := (entriesOf_eq_ok_iff file).mpr hreads'
  rw [hopens.unique hopens', hreads'] at hreads
  exact (Except.ok.inj hreads).symm

/-- What looking for settings at a route comes to: there is no saying whether a file is there, there is
none, it gives settings, it is refused, or reading it fails in another way. -/
inductive Look (w : World) (file : Route) : Prop where
  | unknown (e : Failure) (hfile : hasFile w file = .error e) (he : isConfiguration e = false)
      (hsound : ¬ IsSoundFile w file)
  | absent (hfile : hasFile w file = .ok false) (hsound : IsSoundFile w file)
      (hnot : ∀ entries, ¬ Gives w file entries)
  | taken (entries : List (Datum × Datum)) (hfile : hasFile w file = .ok true)
      (hload : (loadEntries w file).HasResult (.ok entries)) (hsound : IsSoundFile w file)
      (hgives : Gives w file entries)
  | refused (e : Failure) (hfile : hasFile w file = .ok true)
      (hload : (loadEntries w file).HasResult (.error e)) (he : isConfiguration e = true)
      (hsound : IsSoundFile w file) (hnot : ∀ entries, ¬ Gives w file entries)
  | broken (e : Failure) (hfile : hasFile w file = .ok true)
      (hload : (loadEntries w file).HasResult (.error e)) (he : isConfiguration e = false)
      (hsound : ¬ IsSoundFile w file)

theorem look_of_opens {w : World} {file : Route} {octets : List UInt8} (h : Opens w file octets) :
    Look w file := by
  have hfile := hasFile_of_file h.1
  have hload := hasResult_loadEntries h
  have hsound : IsSoundFile w file ↔ IsReadable octets := by
    constructor
    · exact fun hs => hs.readable octets h
    · refine fun hread => ⟨fun t ht => ?_, fun octets' h' => ?_⟩
      · rw [h.1] at ht
        cases ht
      · exact h.unique h' ▸ hread
  cases hentries : entriesOf file octets with
  | ok entries =>
      refine .taken entries hfile (hentries ▸ hload) (hsound.mpr ?_)
        ⟨octets, h, (entriesOf_eq_ok_iff file).mp hentries⟩
      rw [isReadable_iff file, hentries]
      exact fun e he => by cases he
  | error e =>
      rw [hentries] at hload
      have hreadable : IsReadable octets ↔ isConfiguration e = true := by
        rw [isReadable_iff file, hentries]
        exact ⟨fun hall => hall e rfl, fun he e' he' => Except.error.inj he' ▸ he⟩
      -- the octets are readable exactly if the failure is about what they say
      cases he : isConfiguration e with
      | true =>
          refine .refused e hfile hload he (hsound.mpr (hreadable.mpr he)) fun entries hgives => ?_
          obtain ⟨octets', h', hreads⟩ := hgives
          rw [← h.unique h'] at hreads
          cases hentries.symm.trans ((entriesOf_eq_ok_iff file).mpr hreads)
      | false =>
          refine .broken e hfile hload he fun hs => ?_
          rw [hsound, hreadable, he] at hs
          cases hs

/-- A file that cannot be opened is sound as long as the system can tell what stands there, and gives
nothing. -/
theorem isSoundFile_of_unopened {w : World} {file : Route} (htold : ∀ t, w.probe file.address ≠ .error t)
    (hno : ∀ octets, ¬ Opens w file octets) :
    IsSoundFile w file ∧ ∀ entries, ¬ Gives w file entries := by
  refine ⟨⟨htold, fun octets hopens => absurd hopens (hno octets)⟩, ?_⟩
  rintro entries ⟨octets, hopens, -⟩
  exact hno octets hopens

theorem look_of_denied {w : World} {file : Route} {octets : List UInt8}
    (hprobe : w.probe file.address = .ok (some (.file octets)))
    (hdenied : w.denied.contains file.text = true) : Look w file := by
  have hunopened : IsSoundFile w file ∧ ∀ entries, ¬ Gives w file entries := by
    refine isSoundFile_of_unopened (fun t ht => ?_) fun octets' hopens => ?_
    · cases hprobe.symm.trans ht
    · cases hdenied.symm.trans hopens.2
  have hread : ∃ text, readEntries w file = .error (.configuration text) := by
    rw [readEntries, readText, octetsAt_of_probe hprobe, if_pos hdenied]
    exact ⟨_, rfl⟩
  obtain ⟨text, hread⟩ := hread
  refine .refused (.configuration text) (hasFile_of_file hprobe) ?_ rfl hunopened.1 hunopened.2
  rw [loadEntries, hread]
  exact (Action.hasResult_lift _).bind_error _

theorem look_of_no_file {w : World} {file : Route} {found : Option World.Node}
    (hprobe : w.probe file.address = .ok found) (hno : ∀ octets, found ≠ some (.file octets)) :
    Look w file := by
  have hunopened : IsSoundFile w file ∧ ∀ entries, ¬ Gives w file entries := by
    refine isSoundFile_of_unopened (fun t ht => ?_) fun octets hopens => ?_
    · cases hprobe.symm.trans ht
    · exact hno octets (Except.ok.inj (hprobe.symm.trans hopens.1))
  refine .absent ?_ hunopened.1 hunopened.2
  rw [hasFile, hprobe]
  cases found with
  | none => rfl
  | some node =>
      cases node with
      | file octets => exact absurd rfl (hno octets)
      | dir inner => rfl
      | link target => rfl

theorem look (w : World) (file : Route) : Look w file := by
  cases hprobe : w.probe file.address with
  | error t =>
      refine .unknown (.ofTrouble t) (by rw [hasFile, hprobe]) ?_ fun hs => hs.probed t hprobe
      cases t with
      | system e => rfl
      | nulCharacter => rfl
  | ok found =>
      by_cases hfile : ∃ octets, found = some (.file octets)
      · obtain ⟨octets, rfl⟩ := hfile
        cases hdenied : w.denied.contains file.text with
        | false => exact look_of_opens ⟨hprobe, hdenied⟩
        | true => exact look_of_denied hprobe hdenied
      · exact look_of_no_file hprobe fun octets hfound => hfile ⟨octets, hfound⟩

/-! ## Several files -/

/-- Of the candidates, the source is the first one that gives settings, or none if none does. -/
inductive Finds (w : World) : List Route → Option Source → Prop where
  | none : Finds w [] none
  | here {file : Route} {rest : List Route} {entries : List (Datum × Datum)}
      (h : Gives w file entries) : Finds w (file :: rest) (some ⟨file, entries⟩)
  | later {file : Route} {rest : List Route} {source : Option Source}
      (hnot : ∀ entries, ¬ Gives w file entries) (h : Finds w rest source) :
      Finds w (file :: rest) source

/-- The candidates are sound up to the first one that gives settings. -/
def AllSound (w : World) : List Route → Prop
  | [] => True
  | file :: rest => IsSoundFile w file ∧ ((∀ entries, ¬ Gives w file entries) → AllSound w rest)

theorem Finds.unique {w : World} {files : List Route} {source source' : Option Source}
    (h : Finds w files source) (h' : Finds w files source') : source = source' := by
  induction h generalizing source' with
  | none =>
      cases h'
      rfl
  | here hgives =>
      cases h' with
      | here hgives' => rw [hgives.unique hgives']
      | later hnot _ => exact absurd hgives (hnot _)
  | later hnot _ ih =>
      cases h' with
      | here hgives => exact absurd hgives (hnot _)
      | later _ hrest => exact ih hrest

/-- What looking at a first candidate goes on with, if that does not give settings. -/
theorem hasResult_firstReadable_cons {w : World} {file : Route} {rest : List Route}
    (hsound : IsSoundFile w file) (hnot : ∀ entries, ¬ Gives w file entries)
    {r : Except Failure (Option Source)} (hrest : (firstReadable w rest).HasResult r) :
    (firstReadable w (file :: rest)).HasResult r := by
  rw [firstReadable]
  cases look w file with
  | unknown e _ _ hs => exact absurd hsound hs
  | absent hfile =>
      rw [hfile]
      exact (Action.hasResult_lift _).bind hrest
  | taken entries _ _ _ hgives => exact absurd hgives (hnot entries)
  | refused e hfile hload he =>
      rw [hfile]
      refine (Action.hasResult_lift _).bind ?_
      rw [if_pos rfl]
      -- the failure is logged, and the next candidate is looked at
      refine hload.attempt.bind ?_
      simp only [he, if_true]
      exact (Action.hasResult_log _ _ _).bind hrest
  | broken e _ _ _ hs => exact absurd hsound hs

theorem exists_finds {w : World} {files : List Route} (h : AllSound w files) :
    ∃ source, Finds w files source ∧ (firstReadable w files).HasResult (.ok source) := by
  induction files with
  | nil => exact ⟨none, .none, Action.hasResult_done _⟩
  | cons file rest ih =>
      obtain ⟨hsound, hrest⟩ := h
      by_cases hgives : ∃ entries, Gives w file entries
      · obtain ⟨entries, hgives⟩ := hgives
        refine ⟨some ⟨file, entries⟩, .here hgives, ?_⟩
        cases look w file with
        | taken entries' hfile hload _ hgives' =>
            rw [firstReadable, hfile]
            refine (Action.hasResult_lift _).bind ?_
            rw [if_pos rfl]
            refine hload.attempt.bind ?_
            rw [hgives.unique hgives']
            exact (Action.hasResult_log _ _ _).bind (Action.hasResult_pure _)
        | unknown e _ _ hs => exact absurd hsound hs
        | absent _ _ hnot => exact absurd hgives (hnot entries)
        | refused _ _ _ _ _ hnot => exact absurd hgives (hnot entries)
        | broken e _ _ _ hs => exact absurd hsound hs
      · have hnot (entries : List (Datum × Datum)) : ¬ Gives w file entries :=
          fun h => hgives ⟨entries, h⟩
        obtain ⟨source, hfinds, hresult⟩ := ih (hrest hnot)
        exact ⟨source, .later hnot hfinds, hasResult_firstReadable_cons hsound hnot hresult⟩

theorem exists_error_of_not_allSound {w : World} {files : List Route} (h : ¬ AllSound w files) :
    ∃ e, (firstReadable w files).HasResult (.error e) ∧ isConfiguration e = false := by
  induction files with
  | nil => exact absurd trivial h
  | cons file rest ih =>
      by_cases hsound : IsSoundFile w file
      · have hrest : (∀ entries, ¬ Gives w file entries) ∧ ¬ AllSound w rest := by
          rw [AllSound, not_and, Classical.not_imp] at h
          exact h hsound
        obtain ⟨e, hresult, he⟩ := ih hrest.2
        exact ⟨e, hasResult_firstReadable_cons hsound hrest.1 hresult, he⟩
      · cases look w file with
        | unknown e hfile he =>
            refine ⟨e, ?_, he⟩
            rw [firstReadable, hfile]
            exact (Action.hasResult_lift _).bind_error _
        | absent _ hs => exact absurd hs hsound
        | taken _ _ _ hs => exact absurd hs hsound
        | refused _ _ _ _ hs => exact absurd hs hsound
        | broken e hfile hload he =>
            refine ⟨e, ?_, he⟩
            rw [firstReadable, hfile]
            refine (Action.hasResult_lift _).bind ?_
            rw [if_pos rfl]
            refine hload.attempt.bind ?_
            simp only [he, Bool.false_eq_true, if_false]
            exact Action.hasResult_fail e

/-! ## The source of a request -/

/-- The file that a request names; nothing if it names none. -/
def Request.file (r : Request) : String := r.path.getD ""

/-- The home directory of the process, as it is known. -/
def IsHome (w : World) (home : Route) : Prop := w.expandHome ⟨.here, ["~"]⟩ = .ok home

/-- The settings that a request is about come from this source. -/
inductive IsSource (w : World) (r : Request) : Option Source → Prop where
  | named {entries : List (Datum × Datum)} (hfile : r.file ≠ "")
      (h : Gives w (Route.ofString r.file) entries) :
      IsSource w r (some ⟨Route.ofString r.file, entries⟩)
  | found {home : Route} {source : Option Source} (hfile : r.file = "") (hhome : IsHome w home)
      (h : Finds w (candidates w home) source) : IsSource w r source

/-- The file that the request names is sound, or so are the candidates, and it is known what they are. -/
def SourceIsSound (w : World) (r : Request) : Prop :=
  (r.file ≠ "" ∧ IsSoundFile w (Route.ofString r.file)) ∨
    (r.file = "" ∧ ∃ home, IsHome w home ∧ AllSound w (candidates w home))

theorem IsSource.unique {w : World} {r : Request} {source source' : Option Source}
    (h : IsSource w r source) (h' : IsSource w r source') : source = source' := by
  cases h with
  | named hfile hgives =>
      cases h' with
      | named _ hgives' => rw [hgives.unique hgives']
      | found hnone _ _ => exact absurd hnone hfile
  | found hnone hhome hfinds =>
      cases h' with
      | named hfile _ => exact absurd hnone hfile
      | found _ hhome' hfinds' =>
          rw [IsHome, hhome] at hhome'
          cases hhome'
          exact hfinds.unique hfinds'

theorem sourceOf_eq (w : World) (r : Request) :
    sourceOf w r = if r.file = "" then discover w else named w r.file := by
  unfold sourceOf Request.file
  cases r.path with
  | none => rfl
  | some path =>
      show (if path.isEmpty then discover w else named w path) = if path = "" then _ else _
      simp only [String.isEmpty_iff]
      rfl

/-- What the search for a source comes to: it finds one, or there is none that can be taken, or it fails
in another way than loading expects. -/
inductive SearchOutcome (w : World) (r : Request) : Prop where
  | finds (source : Option Source) (hresult : (sourceOf w r).HasResult (.ok source))
      (hsource : IsSource w r source) (hsound : SourceIsSound w r)
  | refuses (e : Failure) (hresult : (sourceOf w r).HasResult (.error e))
      (he : isConfiguration e = true) (hsound : SourceIsSound w r)
      (hnot : ∀ source, ¬ IsSource w r source)
  | breaks (e : Failure) (hresult : (sourceOf w r).HasResult (.error e))
      (he : isConfiguration e = false) (hsound : ¬ SourceIsSound w r)

theorem search_named {w : World} {r : Request} (hfile : r.file ≠ "") : SearchOutcome w r := by
  have hof : sourceOf w r = named w r.file := by rw [sourceOf_eq, if_neg hfile]
  have hsound : SourceIsSound w r ↔ IsSoundFile w (Route.ofString r.file) := by
    rw [SourceIsSound]
    constructor
    · rintro (⟨-, h⟩ | ⟨h, -⟩)
      · exact h
      · exact absurd h hfile
    · exact fun h => Or.inl ⟨hfile, h⟩
  have hnone (hnot : ∀ entries, ¬ Gives w (Route.ofString r.file) entries) (source : Option Source) :
      ¬ IsSource w r source := by
    intro hsource
    cases hsource with
    | named _ hgives => exact hnot _ hgives
    | found h _ _ => exact hfile h
  -- a file that is named is looked at, and no other
  cases look w (Route.ofString r.file) with
  | unknown e hlook he hs =>
      refine .breaks e ?_ he (hs ∘ hsound.mp)
      rw [hof, named, hlook]
      exact (Action.hasResult_lift _).bind_error _
  | absent hlook hs hnot =>
      refine .refuses (.configuration ("Configuration file not found: "
        ++ (Route.ofString r.file).text)) ?_ rfl (hsound.mpr hs) (hnone hnot)
      rw [hof, named, hlook]
      exact (Action.hasResult_lift _).bind (Action.hasResult_fail _)
  | taken entries hlook hload hs hgives =>
      refine .finds _ ?_ (.named hfile hgives) (hsound.mpr hs)
      rw [hof, named, hlook]
      exact (Action.hasResult_lift _).bind (hload.bind (Action.hasResult_pure _))
  | refused e hlook hload he hs hnot =>
      refine .refuses e ?_ he (hsound.mpr hs) (hnone hnot)
      rw [hof, named, hlook]
      exact (Action.hasResult_lift _).bind (hload.bind_error _)
  | broken e hlook hload he hs =>
      refine .breaks e ?_ he (hs ∘ hsound.mp)
      rw [hof, named, hlook]
      exact (Action.hasResult_lift _).bind (hload.bind_error _)

theorem hasResult_discover {w : World} {home : Route} {source : Option Source}
    (hhome : IsHome w home) (h : (firstReadable w (candidates w home)).HasResult (.ok source)) :
    (discover w).HasResult (.ok source) := by
  rw [discover, homeRoute, hhome]
  refine (Action.hasResult_lift _).bind (h.bind ?_)
  cases source with
  | some source => exact Action.hasResult_pure _
  | none => exact (Action.hasResult_log _ _ _).bind (Action.hasResult_pure _)

theorem hasResult_discover_error {w : World} {home : Route} {e : Failure} (hhome : IsHome w home)
    (h : (firstReadable w (candidates w home)).HasResult (.error e)) :
    (discover w).HasResult (.error e) := by
  rw [discover, homeRoute, hhome]
  exact (Action.hasResult_lift _).bind (h.bind_error _)

theorem search_found {w : World} {r : Request} (hfile : r.file = "") : SearchOutcome w r := by
  have hof : sourceOf w r = discover w := by rw [sourceOf_eq, if_pos hfile]
  cases hhome : w.expandHome ⟨.here, ["~"]⟩ with
  | error fault =>
      refine .breaks (homeFailure fault) ?_ (by cases fault <;> rfl) ?_
      · rw [hof, discover, homeRoute, hhome]
        exact (Action.hasResult_lift _).bind_error _
      · rintro (⟨h, -⟩ | ⟨-, home, h, -⟩)
        · exact h hfile
        · rw [IsHome, hhome] at h
          cases h
  | ok home =>
      have hsound : SourceIsSound w r ↔ AllSound w (candidates w home) := by
        constructor
        · rintro (⟨h, -⟩ | ⟨-, home', h, hall⟩)
          · exact absurd hfile h
          · rw [IsHome, hhome] at h
            cases h
            exact hall
        · exact fun h => Or.inr ⟨hfile, home, hhome, h⟩
      -- the first unsound candidate breaks the search, unless one before it is taken
      by_cases hall : AllSound w (candidates w home)
      · obtain ⟨source, hfinds, hresult⟩ := exists_finds hall
        refine .finds source ?_ (.found hfile hhome hfinds) (hsound.mpr hall)
        rw [hof]
        exact hasResult_discover hhome hresult
      · obtain ⟨e, hresult, he⟩ := exists_error_of_not_allSound hall
        refine .breaks e ?_ he (hall ∘ hsound.mp)
        rw [hof]
        exact hasResult_discover_error hhome hresult

/-- **The search for a source goes wrong exactly if an unsound file is met**, or if the home directory is
not known where candidates are looked for. -/
theorem searchOutcome (w : World) (r : Request) : SearchOutcome w r := by
  by_cases hfile : r.file = ""
  · exact search_found hfile
  · exact search_named hfile

end SourceNavigator.Settings
