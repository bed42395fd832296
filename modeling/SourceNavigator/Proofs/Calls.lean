import Mathlib.Tactic
import SourceNavigator.Proofs.Results
import SourceNavigator.Session

set_option autoImplicit false

/-! # The engine calls of an action

`CallsOnly P x` says that every call that the action `x` makes satisfies `P`, in whatever session
it runs. It is closed under sequencing (`CallsOnly.bind`), where the second action may be assumed
to start from a value that the first one can give. An action without calls often has the same result in
every session (`HasResult`).
-/

namespace SourceNavigator.Action

variable {α β : Type} {P : Call → Prop}

/-- The calls that an action makes in a session. -/
def callsMade (x : Action α) (s : Session) : List Call := (x s).2.calls.drop s.calls.length

/-- In some session the action gives the value `a`. -/
def Gives (x : Action α) (a : α) : Prop := ∃ s s', x s = (.ok a, s')

/-- The calls made before stay, and every new one satisfies `P`. -/
def CallsOnly (P : Call → Prop) (x : Action α) : Prop :=
  ∀ s, ∃ new, (x s).2.calls = s.calls ++ new ∧ ∀ c ∈ new, P c

theorem CallsOnly.of_mem {x : Action α} (h : CallsOnly P x) {s : Session} {c : Call}
    (hc : c ∈ x.callsMade s) : P c := by
  obtain ⟨new, hcalls, hnew⟩ := h s
  rw [callsMade, hcalls, List.drop_left] at hc
  exact hnew c hc

theorem CallsOnly.mono {x : Action α} {Q : Call → Prop} (h : CallsOnly P x)
    (hPQ : ∀ c, P c → Q c) : CallsOnly Q x := by
  intro s
  obtain ⟨new, hcalls, hnew⟩ := h s
  exact ⟨new, hcalls, fun c hc => hPQ c (hnew c hc)⟩

/-! ## Actions that make no call -/

theorem callsOnly_of_calls_eq {x : Action α} (h : ∀ s, (x s).2.calls = s.calls) :
    CallsOnly P x := fun s => ⟨[], by rw [h s, List.append_nil], by simp⟩

theorem callsOnly_pure (a : α) : CallsOnly P (pure a : Action α) :=
  callsOnly_of_calls_eq fun _ => rfl

theorem callsOnly_done (a : α) : CallsOnly P (done a) := callsOnly_of_calls_eq fun _ => rfl

theorem callsOnly_fail (f : Failure) : CallsOnly P (fail f : Action α) :=
  callsOnly_of_calls_eq fun _ => rfl

theorem callsOnly_lift (r : Except Failure α) : CallsOnly P (lift r) :=
  callsOnly_of_calls_eq fun _ => rfl

theorem callsOnly_log (severity : Severity) (source text : String) :
    CallsOnly P (log severity source text) := by
  refine callsOnly_of_calls_eq fun s => ?_
  unfold log
  split <;> rfl

/-! ## Calls and sequences -/

theorem callsOnly_call {c : Call} (h : P c) : CallsOnly P (call c) := by
  intro s
  refine ⟨[c], ?_, by simpa using h⟩
  unfold call
  split <;> rfl

theorem CallsOnly.bind {x : Action α} {f : α → Action β} (hx : CallsOnly P x)
    (hf : ∀ a, x.Gives a → CallsOnly P (f a)) : CallsOnly P (x >>= f) := by
  intro s
  obtain ⟨new, hcalls, hnew⟩ := hx s
  show ∃ new, (andThen x f s).2.calls = s.calls ++ new ∧ ∀ c ∈ new, P c
  unfold andThen
  cases hxs : x s with
  | mk r s' =>
      rw [hxs] at hcalls
      cases r with
      | error e => exact ⟨new, hcalls, hnew⟩
      | ok a =>
          -- the value `a` is one that `x` gives, namely in the session `s`
          obtain ⟨more, hmore, hPmore⟩ := hf a ⟨s, s', hxs⟩ s'
          refine ⟨new ++ more, ?_, ?_⟩
          · rw [hmore, hcalls, List.append_assoc]
          · intro c hc
            rcases List.mem_append.mp hc with hc | hc
            · exact hnew c hc
            · exact hPmore c hc

theorem CallsOnly.attempt {x : Action α} (hx : CallsOnly P x) : CallsOnly P x.attempt := hx

/-! ## Values -/

theorem done_bind (a : α) (f : α → Action β) : done a >>= f = f a := rfl

theorem gives_pure {a b : α} (h : (pure a : Action α).Gives b) : b = a := by
  obtain ⟨s, s', h⟩ := h
  have := congrArg Prod.fst h
  exact (Except.ok.inj this).symm

theorem gives_done {a b : α} (h : (done a).Gives b) : b = a := gives_pure h

theorem gives_fail {f : Failure} {b : α} (h : (fail f : Action α).Gives b) : False := by
  obtain ⟨s, s', h⟩ := h
  cases congrArg Prod.fst h

theorem gives_lift {r : Except Failure α} {b : α} (h : (lift r).Gives b) : r = .ok b := by
  obtain ⟨s, s', h⟩ := h
  exact congrArg Prod.fst h

/-- A sequence that succeeds goes through a value of its first action. -/
theorem exists_of_bind_fst {x : Action α} {f : α → Action β} {s : Session} {b : β}
    (h : ((x >>= f) s).1 = .ok b) : ∃ a s', x s = (.ok a, s') ∧ (f a s').1 = .ok b := by
  have h : (andThen x f s).1 = .ok b := h
  unfold andThen at h
  cases hxs : x s with
  | mk r t =>
      rw [hxs] at h
      cases r with
      | error e => cases h
      | ok a => exact ⟨a, t, rfl, h⟩

theorem gives_bind {x : Action α} {f : α → Action β} {b : β} (h : (x >>= f).Gives b) :
    ∃ a, x.Gives a ∧ (f a).Gives b := by
  obtain ⟨s, s', h⟩ := h
  obtain ⟨a, t, hx, hf⟩ := exists_of_bind_fst (congrArg Prod.fst h)
  exact ⟨a, ⟨s, t, hx⟩, ⟨t, (f a t).2, Prod.ext hf rfl⟩⟩

theorem gives_attempt {x : Action α} {a : α} (h : x.attempt.Gives (.ok a)) : x.Gives a := by
  obtain ⟨s, s', h⟩ := h
  unfold attempt at h
  cases hxs : x s with
  | mk r t =>
      rw [hxs] at h
      cases h
      exact ⟨s, s', hxs⟩

/-- Sequences are equal if they go on alike from every value that the first action can give. -/
theorem bind_congr_of_gives {x : Action α} {f g : α → Action β}
    (h : ∀ a, x.Gives a → f a = g a) : x >>= f = x >>= g := by
  funext s
  show andThen x f s = andThen x g s
  unfold andThen
  cases hxs : x s with
  | mk r t =>
      cases r with
      | error e => rfl
      | ok a => exact congrFun (h a ⟨s, t, hxs⟩) t

/-! ## From one session to the next -/

theorem bind_apply {x : Action α} {s s' : Session} {a : α} (h : x s = (.ok a, s'))
    (f : α → Action β) : (x >>= f) s = f a s' := by
  show andThen x f s = _
  rw [andThen, h]

theorem attempt_apply {x : Action α} {s s' : Session} {r : Except Failure α} (h : x s = (r, s')) :
    x.attempt s = (.ok r, s') := by
  rw [attempt, h]

/-- In every session the action gives the value `a` and starts no run. -/
def Yields (x : Action α) (a : α) : Prop := ∀ s, ∃ s', x s = (.ok a, s') ∧ s'.runs = s.runs

theorem Yields.eq_of_gives {x : Action α} {a b : α} (hx : x.Yields a) (h : x.Gives b) : a = b := by
  obtain ⟨s, s', h⟩ := h
  obtain ⟨t, ht, -⟩ := hx s
  rw [ht] at h
  exact Except.ok.inj (congrArg Prod.fst h)

theorem yields_done (a : α) : (done a).Yields a := fun s => ⟨s, rfl, rfl⟩

theorem yields_pure (a : α) : (pure a : Action α).Yields a := yields_done a

theorem Yields.bind {x : Action α} {f : α → Action β} {a : α} {b : β} (hx : x.Yields a)
    (hf : (f a).Yields b) : (x >>= f).Yields b := by
  intro s
  obtain ⟨s₁, hfirst, hruns₁⟩ := hx s
  obtain ⟨s₂, hsecond, hruns₂⟩ := hf s₁
  exact ⟨s₂, (bind_apply hfirst f).trans hsecond, hruns₂.trans hruns₁⟩

theorem yields_log (severity : Severity) (source text : String) :
    (log severity source text).Yields () := by
  intro s
  unfold log
  split
  · exact ⟨_, rfl, rfl⟩
  · exact ⟨_, rfl, rfl⟩

theorem yields_log_pure (severity : Severity) (source text : String) (a : α) :
    (log severity source text >>= fun _ => pure a).Yields a :=
  (yields_log severity source text).bind (yields_pure a)

theorem exists_call_eq {s : Session} {run : Run} {more : List Run} (h : s.runs = run :: more)
    (c : Call) : ∃ s', call c s = (.ok run, s') ∧ s'.runs = more := by
  rw [call, h]
  exact ⟨_, rfl, rfl⟩

/-! ## Results -/

/-- In every session the action ends with the same result. -/
def HasResult (x : Action α) (r : Except Failure α) : Prop := ∀ s, (x s).1 = r

/-- There is at most one value that an action gives in every session. -/
theorem HasResult.value_unique {x : Action α} {a b : α} (ha : x.HasResult (.ok a))
    (hb : x.HasResult (.ok b)) : a = b :=
  Except.ok.inj ((ha (.begin [] debugSeverity)).symm.trans (hb _))

theorem hasResult_done (a : α) : (done a).HasResult (.ok a) := fun _ => rfl

theorem hasResult_pure (a : α) : (pure a : Action α).HasResult (.ok a) := fun _ => rfl

theorem hasResult_fail (f : Failure) : (fail f : Action α).HasResult (.error f) := fun _ => rfl

theorem hasResult_lift (r : Except Failure α) : (lift r).HasResult r := fun _ => rfl

theorem hasResult_lift_of_eq {r r' : Except Failure α} (h : r = r') : (lift r).HasResult r' :=
  fun _ => h

theorem hasResult_log (severity : Severity) (source text : String) :
    (log severity source text).HasResult (.ok ()) := by
  intro s
  obtain ⟨s', hs', -⟩ := yields_log severity source text s
  rw [hs']

theorem HasResult.bind {x : Action α} {f : α → Action β} {a : α} {r : Except Failure β}
    (hx : x.HasResult (.ok a)) (hf : (f a).HasResult r) : (x >>= f).HasResult r := by
  intro s
  rw [bind_apply (Prod.ext (hx s) rfl)]
  exact hf _

theorem HasResult.bind_error {x : Action α} {e : Failure} (hx : x.HasResult (.error e))
    (f : α → Action β) : (x >>= f).HasResult (.error e) := by
  intro s
  show (andThen x f s).1 = _
  have hfirst : x s = (.error e, (x s).2) := Prod.ext (hx s) rfl
  rw [andThen, hfirst]

/-- Actions in sequence come to what their results in sequence come to. -/
theorem HasResult.seq {x : Action α} {f : α → Action β} {r : Except Failure α}
    {g : α → Except Failure β} (hx : x.HasResult r)
    (hf : ∀ a, r = .ok a → (f a).HasResult (g a)) : (x >>= f).HasResult (r >>= g) := by
  cases r with
  | error e => exact hx.bind_error f
  | ok a => exact hx.bind (hf a rfl)

theorem HasResult.attempt {x : Action α} {r : Except Failure α} (hx : x.HasResult r) :
    x.attempt.HasResult (.ok r) := fun s => congrArg Except.ok (hx s)

end SourceNavigator.Action
