import Mathlib

/-!
# Machines with observable steps

A machine moves by labelled steps; a label fixes everything a step leaves open (which thread moves,
what a call to the outside returned), so `step` is a partial function, and a step may emit
observations. Any interleaving of any number of threads is a list of labels. Invariants may speak
about the observations made so far (`Machine.run_induction`), and a condition that only some labels
meet is carried along a run by `Machine.Along`.
-/

namespace Lib

/-- States `σ`, labels `α`, observations `ε`. `step s a = none`: the label is not enabled. -/
structure Machine (σ α ε : Type*) where
  step : σ → α → Option (σ × List ε)

namespace Machine

variable {σ α ε : Type*}

/-- Perform the labels in order, collecting the observations. -/
def run (M : Machine σ α ε) (s : σ) : List α → Option (σ × List ε)
  | [] => some (s, [])
  | a :: as => match M.step s a with
    | none => none
    | some (s', e) => (run M s' as).map fun r => (r.1, e ++ r.2)

/-- Every label of the list meets `C` in the state it is performed in. -/
def Along (M : Machine σ α ε) (C : σ → α → Prop) (s : σ) : List α → Prop
  | [] => True
  | a :: as => C s a ∧ ∀ s' e, M.step s a = some (s', e) → Along M C s' as

def Reachable (M : Machine σ α ε) (s₀ s : σ) : Prop := ∃ as h, M.run s₀ as = some (s, h)

/-- Some run all of whose steps meet `C` leads from `s₀` to `s`. -/
def ReachableAlong (M : Machine σ α ε) (C : σ → α → Prop) (s₀ s : σ) : Prop :=
  ∃ as h, M.run s₀ as = some (s, h) ∧ M.Along C s₀ as

variable {M : Machine σ α ε} {C : σ → α → Prop} {s s' s₁ : σ} {a : α} {as bs : List α} {h h₁ e : List ε}

@[simp] theorem run_nil : M.run s [] = some (s, []) := rfl

theorem run_cons : M.run s (a :: as) = some (s', h) ↔
    ∃ s₁ e h₁, M.step s a = some (s₁, e) ∧ M.run s₁ as = some (s', h₁) ∧ h = e ++ h₁ := by
  rw [run]
  constructor
  · intro hr
    match hs : M.step s a, hr with
    | some (s₁, e), hr =>
      obtain ⟨⟨s₂, h₂⟩, h2, heq⟩ := Option.map_eq_some_iff.1 hr
      obtain ⟨rfl, rfl⟩ := Prod.mk.inj heq
      exact ⟨s₁, e, h₂, rfl, h2, rfl⟩
  · rintro ⟨s₁, e, h₁, hs, hr, rfl⟩
    simp [hs, hr]

theorem run_single (hs : M.step s a = some (s', e)) : M.run s [a] = some (s', e) :=
  run_cons.2 ⟨s', e, [], hs, rfl, (List.append_nil e).symm⟩

theorem run_append : M.run s (as ++ bs) = some (s', h) ↔
    ∃ s₁ h₁ h₂, M.run s as = some (s₁, h₁) ∧ M.run s₁ bs = some (s', h₂) ∧ h = h₁ ++ h₂ := by
  induction as generalizing s h with
  | nil => simp
  | cons a as ih =>
    rw [List.cons_append, run_cons]
    constructor
    · rintro ⟨s₁, e, h₁, hs, hr, rfl⟩
      obtain ⟨s₂, h₂, h₃, hr₂, hr₃, rfl⟩ := ih.1 hr
      exact ⟨s₂, e ++ h₂, h₃, run_cons.2 ⟨s₁, e, h₂, hs, hr₂, rfl⟩, hr₃, by simp⟩
    · rintro ⟨s₂, h₂, h₃, hr, hr₃, rfl⟩
      obtain ⟨s₁, e, h₁, hs, hr₂, rfl⟩ := run_cons.1 hr
      exact ⟨s₁, e, h₁ ++ h₃, hs, ih.2 ⟨s₂, h₁, h₃, hr₂, hr₃, rfl⟩, by simp⟩

theorem along_of_forall (h : ∀ a ∈ as, ∀ s, C s a) : M.Along C s as := by
  induction as generalizing s with
  | nil => trivial
  | cons a as ih =>
    exact ⟨h a (List.mem_cons_self ..) s, fun _ _ _ => ih fun b hb => h b (List.mem_cons_of_mem _ hb)⟩

theorem Along.imp {C' : σ → α → Prop} (h : M.Along C s as) (himp : ∀ s a, C s a → C' s a) :
    M.Along C' s as := by
  induction as generalizing s with
  | nil => trivial
  | cons a as ih => exact ⟨himp s a h.1, fun s' e hs => ih (h.2 s' e hs)⟩

theorem Along.and {C' : σ → α → Prop} (h : M.Along C s as) (h' : M.Along C' s as) :
    M.Along (fun s a => C s a ∧ C' s a) s as := by
  induction as generalizing s with
  | nil => trivial
  | cons a as ih => exact ⟨⟨h.1, h'.1⟩, fun s' e hs => ih (h.2 s' e hs) (h'.2 s' e hs)⟩

/-- Two conditions that agree in the states an invariant allows hold along the same runs. -/
theorem along_congr {C' : σ → α → Prop} {I : σ → Prop} (hinit : I s) (hiff : ∀ s a, I s → (C s a ↔ C' s a))
    (hstep : ∀ s a s' e, I s → C s a → M.step s a = some (s', e) → I s') :
    M.Along C s as ↔ M.Along C' s as := by
  induction as generalizing s with
  | nil => exact Iff.rfl
  | cons a as ih =>
    refine and_congr_right_iff.2 ?_ |>.trans (and_congr_left fun _ => hiff s a hinit)
    intro ha
    exact forall₂_congr fun s' e => imp_congr_right fun hs => ih (hstep s a s' e hinit ha hs)

theorem along_true : M.Along (fun _ _ => True) s as := along_of_forall fun _ _ _ => trivial

/-- Along a concrete run a decidable condition is checked by evaluation. -/
instance Along.instDecidable [∀ s a, Decidable (C s a)] : ∀ s as, Decidable (M.Along C s as)
  | _, [] => isTrue trivial
  | s, a :: as => match hs : M.step s a with
    | none => decidable_of_iff (C s a) ⟨fun hC => ⟨hC, fun _ _ h => by rw [hs] at h; cases h⟩, fun h => h.1⟩
    | some (s', e) =>
      have := Along.instDecidable s' as
      decidable_of_iff (C s a ∧ M.Along C s' as)
        ⟨fun h => ⟨h.1, fun _ _ h' => by rw [hs] at h'; cases h'; exact h.2⟩, fun h => ⟨h.1, h.2 s' e hs⟩⟩

theorem Along.append (h : M.Along C s as) (h' : ∀ s' e, M.run s as = some (s', e) → M.Along C s' bs) :
    M.Along C s (as ++ bs) := by
  induction as generalizing s with
  | nil => exact h' s [] rfl
  | cons a as ih =>
    refine ⟨h.1, fun s₁ e hs => ih (h.2 s₁ e hs) ?_⟩
    intro s' e' hr
    exact h' s' _ (run_cons.2 ⟨s₁, e, e', hs, hr, rfl⟩)

def RunAlong (M : Machine σ α ε) (C : σ → α → Prop) (s₀ s : σ) (h : List ε) : Prop :=
  ∃ as, M.run s₀ as = some (s, h) ∧ M.Along C s₀ as

theorem RunAlong.refl : M.RunAlong C s s [] := ⟨[], rfl, trivial⟩

theorem RunAlong.snoc (hr : M.RunAlong C s s₁ h) (ha : C s₁ a) (hs : M.step s₁ a = some (s', e)) :
    M.RunAlong C s s' (h ++ e) := by
  obtain ⟨as, hr, hC⟩ := hr
  refine ⟨as ++ [a], run_append.2 ⟨s₁, h, e, hr, run_single hs, rfl⟩, hC.append ?_⟩
  intro s₂ e₂ hr₂
  obtain ⟨rfl, -⟩ := Prod.mk.inj (Option.some.inj (hr.symm.trans hr₂))
  exact ⟨ha, fun _ _ _ => trivial⟩

theorem Reachable.refl : M.Reachable s s := ⟨[], [], rfl⟩

theorem Reachable.step (hr : M.Reachable s s₁) (hs : M.step s₁ a = some (s', e)) : M.Reachable s s' := by
  obtain ⟨as, h, hr⟩ := hr
  exact ⟨as ++ [a], h ++ e,
    run_append.2 ⟨s₁, h, e, hr, run_single hs, rfl⟩⟩

/-- What holds at the start and is kept by every step that meets `C` holds after every run of such
steps; `I` may look at the observations made so far. -/
theorem run_induction (I : σ → List ε → Prop) (h₀ : List ε) (hinit : I s h₀)
    (hstep : ∀ s h a s' e, I s h → C s a → M.step s a = some (s', e) → I s' (h ++ e))
    (hC : M.Along C s as) (hr : M.run s as = some (s', h)) : I s' (h₀ ++ h) := by
  induction as generalizing s h₀ h with
  | nil => obtain ⟨rfl, rfl⟩ := Prod.mk.inj (Option.some.inj hr); simpa using hinit
  | cons a as ih =>
    obtain ⟨s₁, e, h₁, hs, hr₁, rfl⟩ := run_cons.1 hr
    have := ih (h₀ ++ e) (hstep _ _ _ _ _ hinit hC.1 hs) (hC.2 _ _ hs) hr₁
    simpa using this

/-- When every step keeps `P` exactly if it meets `K`, then `P` holds in all states of a run exactly if all
its steps meet `K`; `I` is an invariant the equivalence may use. -/
theorem run_prefixes_iff {K : σ → α → Prop} (I P : σ → List ε → Prop) (h₀ : List ε) (hinit : I s h₀)
    (hP : P s h₀)
    (hstep : ∀ s h a s' e, I s h → P s h → C s a → M.step s a = some (s', e) →
      I s' (h ++ e) ∧ (P s' (h ++ e) ↔ K s a))
    (hC : M.Along C s as) (hr : M.run s as = some (s', h)) :
    (∀ as₁ as₂ s₁ h₁, as = as₁ ++ as₂ → M.run s as₁ = some (s₁, h₁) → P s₁ (h₀ ++ h₁)) ↔
      M.Along K s as := by
  induction as generalizing s h₀ h with
  | nil =>
    refine ⟨fun _ => trivial, fun _ as₁ as₂ s₁ h₁ heq hr₁ => ?_⟩
    obtain ⟨rfl, rfl⟩ := List.append_eq_nil_iff.1 heq.symm
    obtain ⟨rfl, rfl⟩ := Prod.mk.inj (Option.some.inj hr₁)
    simpa using hP
  | cons a as ih =>
    obtain ⟨s₁, e, h₁, hs, hr₁, rfl⟩ := run_cons.1 hr
    obtain ⟨hI, hK⟩ := hstep _ _ _ _ _ hinit hP hC.1 hs
    constructor
    · intro hall
      have hP₁ : P s₁ (h₀ ++ e) := hall [a] as s₁ e rfl (run_single hs)
      refine ⟨hK.1 hP₁, fun s₂ e₂ hs₂ => ?_⟩
      obtain ⟨rfl, rfl⟩ := Prod.mk.inj (Option.some.inj (hs.symm.trans hs₂))
      refine (ih (h₀ ++ e) hI hP₁ (hC.2 _ _ hs) hr₁).1 ?_
      intro as₁ as₂ s₂ h₂ heq hr₂
      have := hall (a :: as₁) as₂ s₂ (e ++ h₂) (by rw [heq]; rfl) (run_cons.2 ⟨s₁, e, h₂, hs, hr₂, rfl⟩)
      rwa [← List.append_assoc] at this
    · intro hA as₁ as₂ s₂ h₂ heq hr₂
      cases as₁ with
      | nil =>
        obtain ⟨rfl, rfl⟩ := Prod.mk.inj (Option.some.inj hr₂)
        simpa using hP
      | cons b as₁ =>
        obtain ⟨rfl, rfl⟩ := List.cons.inj heq
        obtain ⟨s₃, e₃, h₃, hs₃, hr₃, rfl⟩ := run_cons.1 hr₂
        obtain ⟨rfl, rfl⟩ := Prod.mk.inj (Option.some.inj (hs.symm.trans hs₃))
        rw [← List.append_assoc]
        exact (ih (h₀ ++ e) hI (hK.2 hA.1) (hC.2 _ _ hs) hr₁).2 (hA.2 _ _ hs) as₁ as₂ s₂ h₃ rfl hr₃

/-- `run_induction` for an invariant of the state alone. -/
theorem ReachableAlong.invariant {I : σ → Prop} (hr : M.ReachableAlong C s s') (hinit : I s)
    (hstep : ∀ s a s' e, I s → C s a → M.step s a = some (s', e) → I s') : I s' := by
  obtain ⟨as, h, hr, hC⟩ := hr
  exact run_induction (fun s _ => I s) [] hinit (fun s _ a s' e => hstep s a s' e) hC hr

theorem Reachable.along (hr : M.Reachable s s') : M.ReachableAlong (fun _ _ => True) s s' :=
  let ⟨as, h, hr⟩ := hr
  ⟨as, h, hr, along_true⟩

theorem Reachable.invariant {I : σ → Prop} (hr : M.Reachable s s') (hinit : I s)
    (hstep : ∀ s a s' e, I s → M.step s a = some (s', e) → I s') : I s' :=
  hr.along.invariant hinit fun s a s' e hI _ => hstep s a s' e hI

/-- A measure that every step lowers ends every run: after `μ s` steps at the latest no step is possible. -/
theorem exists_stuck (μ : σ → Nat) (hdrop : ∀ s a s' e, M.step s a = some (s', e) → μ s' < μ s)
    (s : σ) (as : Nat → α) :
    ∃ k s' h, k ≤ μ s ∧ M.run s ((List.range k).map as) = some (s', h) ∧ M.step s' (as k) = none := by
  induction hn : μ s using Nat.strong_induction_on generalizing s as with
  | _ n ih =>
    subst hn
    cases hs : M.step s (as 0) with
    | none => exact ⟨0, s, [], Nat.zero_le _, rfl, hs⟩
    | some r =>
      obtain ⟨s₁, e⟩ := r
      have hlt := hdrop _ _ _ _ hs
      obtain ⟨k, s', h, hk, hr, hstuck⟩ := ih _ hlt s₁ (fun i => as (i + 1)) rfl
      refine ⟨k + 1, s', e ++ h, by omega, ?_, hstuck⟩
      rw [List.range_succ_eq_map, List.map_cons, List.map_map]
      exact run_cons.2 ⟨s₁, e, h, hs, hr, rfl⟩

/-! ### Simulation -/

section Simulation
variable {τ β δ : Type*} {N : Machine τ β δ} {f : σ → τ} {g : ε → Option δ} {I : σ → Prop}

/-- Every step of `M` from a state in `I` is some steps of `N`; so is every run. -/
theorem run_simulation (hI : ∀ s a s' e, I s → M.step s a = some (s', e) → I s')
    (hstep : ∀ s a s' e, I s → M.step s a = some (s', e) →
      ∃ bs, N.run (f s) bs = some (f s', e.filterMap g))
    (hinit : I s) (hr : M.run s as = some (s', h)) : ∃ bs, N.run (f s) bs = some (f s', h.filterMap g) := by
  induction as generalizing s h with
  | nil =>
    obtain ⟨rfl, rfl⟩ := Prod.mk.inj (Option.some.inj hr)
    exact ⟨[], rfl⟩
  | cons a as ih =>
    obtain ⟨s₁, e, h₁, hs, hr₁, rfl⟩ := run_cons.1 hr
    obtain ⟨bs, hbs⟩ := hstep s a s₁ e hinit hs
    obtain ⟨bs', hbs'⟩ := ih (hI s a s₁ e hinit hs) hr₁
    exact ⟨bs ++ bs', run_append.2 ⟨f s₁, _, _, hbs, hbs', List.filterMap_append⟩⟩

/-- Every step of `M` that meets `C` is some steps of `N` that keep `R`, a relation of the states and of what
was observed so far; so is every run of such steps. The observations need not come at the same time. -/
theorem run_refinement {t : τ} (R : σ → List ε → τ → List δ → Prop) (hinit : R s [] t [])
    (hstep : ∀ s h t g a s' e, R s h t g → C s a → M.step s a = some (s', e) →
      ∃ bs t' g', N.run t bs = some (t', g') ∧ R s' (h ++ e) t' (g ++ g'))
    (hC : M.Along C s as) (hr : M.run s as = some (s', h)) :
    ∃ bs t' g, N.run t bs = some (t', g) ∧ R s' h t' g := by
  refine run_induction (fun s h => ∃ bs t' g, N.run t bs = some (t', g) ∧ R s h t' g) []
    ⟨[], t, [], rfl, hinit⟩ ?_ hC hr
  rintro s h a s' e ⟨bs, t₁, g, hbs, hR⟩ ha hs
  obtain ⟨bs', t', g', hbs', hR'⟩ := hstep s h t₁ g a s' e hR ha hs
  exact ⟨bs ++ bs', t', g ++ g', run_append.2 ⟨t₁, g, g', hbs, hbs', rfl⟩, hR'⟩

end Simulation

end Machine

end Lib
