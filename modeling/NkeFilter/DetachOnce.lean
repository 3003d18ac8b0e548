import NkeFilter.Detach

/-!
# FltDetach once per object

Which `FltDetach` calls are in progress, and where an object is meanwhile, as long as the kernel keeps to the
KPI and `FltDetach` of an object begins once. An object whose `FltDetach` has not begun is in `SocketsList` or
in the hands of the `FltAttach` that is to insert it, and from then on its one `FltDetach` is in progress or
has returned.
-/

namespace NkeFilter
open Lib NkeSocketObject

/-- The kernel keeps to the KPI, and `FltDetach` of an object begins once. -/
def FilterState.KpiOnce (w : FilterState) (a : FilterLabel) : Prop :=
  w.Kpi a ∧ ∀ object ∈ w.detachBegins a, object ∉ w.detaching

instance (w : FilterState) (a : FilterLabel) : Decidable (w.KpiOnce a) :=
  inferInstanceAs (Decidable (w.Kpi a ∧ ∀ object ∈ w.detachBegins a, object ∉ w.detaching))

variable {w w' : FilterState} {a : FilterLabel} {h e : List FilterEvent} {thread object : Nat}
  {s : SocketState} {label : SocketLabel} {phase phase' : FilterPhase}

/-! ### The calls in progress -/

/-- The object of the `FltDetach` in progress. -/
def FilterPhase.detaching : FilterPhase → Option Nat
  | .detach _ object _ => some object
  | _ => none

/-- The object of a `FltDetach` that has not taken it out of `SocketsList` yet. -/
def FilterPhase.removing : FilterPhase → Option Nat
  | .detach .retain object _ | .detach .removeFromSocketsList object _ => some object
  | _ => none

/-- Which calls of `FltDetach` a step begins, goes on with or ends. -/
inductive DetachChange (w : FilterState) (a : FilterLabel) (w' : FilterState) (e : List FilterEvent) : Prop
  | stay {thread : Nat} {phase : FilterPhase} : w'.threads = Function.update w.threads thread phase →
      phase.detaching = (w.threads thread).detaching →
      (∀ object, phase.removing = some object → (w.threads thread).removing = some object) →
      w'.detaching = w.detaching → DetachChange w a w' e
  | begin {thread object : Nat} {phase : FilterPhase} : w'.threads = Function.update w.threads thread phase →
      (w.threads thread).detaching = none → Begins w object a phase → w'.detaching = object :: w.detaching →
      DetachChange w a w' e
  | finish {thread object : Nat} {phase : FilterPhase} :
      w'.threads = Function.update w.threads thread phase → (w.threads thread).detaching = some object →
      phase.detaching = none → .detached object ∈ e → w'.detaching = w.detaching → DetachChange w a w' e

theorem Move.detaching (hm : Move w a phase phase') : phase'.detaching = phase.detaching ∧
    ∀ object, phase'.removing = some object → phase.removing = some object := by
  cases hm with
  | detach hm =>
    refine ⟨rfl, ?_⟩
    cases hm with
    | retained => exact fun _ => id
    | _ => exact nofun
  | _ => exact ⟨rfl, nofun⟩

theorem Acts.detaching (ha : Acts s object phase label phase') : phase'.detaching = phase.detaching ∧
    ∀ object, phase'.removing = some object → phase.removing = some object := by
  cases ha with
  | decrement => exact ⟨rfl, nofun⟩
  | _ => exact ⟨rfl, nofun⟩

theorem removing_detaching (hp : phase.removing = some object) : phase.detaching = some object := by
  unfold FilterPhase.removing at hp
  split at hp
  · exact hp
  · exact hp
  · cases hp

theorem FilterStep.detachChange (hs : FilterStep w a w' e) : DetachChange w a w' e := by
  have hsame : w'.threads = w.threads → w'.detaching = w.detaching → DetachChange w a w' e := by
    intro hthreads hdet
    refine @DetachChange.stay w a w' e 0 (w.threads 0) ?_ rfl (fun _ => id) hdet
    rw [hthreads, Function.update_eq_self]
  cases hs with
  | nothing => exact hsame rfl rfl
  | move _ hm hfilter hthreads _ => exact .stay hthreads hm.detaching.1 hm.detaching.2 hfilter.detaching
  | begin hthread hb hfilter hthreads =>
    refine .begin hthreads ?_ hb hfilter.detaching
    rcases hb.phase_eq hthread with hp | ⟨attach, hp⟩ <;> rw [hp] <;> rfl
  | detached hp hphase hfilter hthreads _ =>
    refine .finish hthreads (by rw [hp]; rfl) ?_ (List.mem_append_right _ (List.mem_singleton_self _))
      hfilter.detaching
    rcases hphase with rfl | ⟨attach, -, rfl⟩ <;> rfl
  | attached hp hfilter hthreads _ =>
    exact .stay hthreads (by rw [hp]; rfl) nofun hfilter.detaching
  | act _ ha _ => exact .stay rfl ha.detaching.1 ha.detaching.2 rfl
  | data => exact hsame rfl rfl
  | enlist => exact hsame rfl rfl
  | pop hp => exact .stay rfl (by rw [hp]; rfl) nofun rfl
  | unlist hp => exact .stay rfl (by rw [hp]; rfl) nofun rfl
  | relist hp => exact .stay rfl (by rw [hp]; rfl) nofun rfl
  | create hp => exact .stay rfl (by rw [hp]; rfl) nofun rfl
  | insert hp => exact .stay insert_threads (by rw [hp]; rfl) nofun insert_detaching
  | remove hp => exact .stay remove_threads (by rw [hp]; rfl) nofun remove_detaching

/-! ### Where the objects are -/

/-- Where an object is before its `FltDetach`, while it is in progress, and afterwards. -/
structure Placed (w : FilterState) (h : List FilterEvent) : Prop where
  present : ∀ object < w.objects.length, object ∉ w.detaching →
    object ∈ w.socketsList ∨ ∃ thread, w.threads thread = .attachInsert object
  removing : ∀ thread object, (w.threads thread).removing = some object → object ∈ w.socketsList
  once : ∀ thread thread' object, (w.threads thread).detaching = some object →
    (w.threads thread').detaching = some object → thread = thread'
  finished : ∀ object ∈ w.detaching,
    .detached object ∈ h ∨ ∃ thread, (w.threads thread).detaching = some object

theorem placed_start : Placed .start [] := by
  refine ⟨?_, nofun, nofun, ?_⟩
  · intro object hlt
    cases hlt
  · intro object hmem
    cases hmem

/-- An object whose `FltDetach` begins is in the list. -/
theorem Placed.begins (hP : Placed w h) (hR : Registered w) (hK : w.KpiOnce a) (hb : Begins w object a phase) :
    object ∉ w.detaching ∧ object ∈ w.socketsList := by
  have hnot : object ∉ w.detaching := hK.2 object hb.detachBegins
  refine ⟨hnot, ?_⟩
  obtain ⟨hlt, hinsert⟩ := hb.knows hR
  refine (hP.present object hlt hnot).resolve_right ?_
  rintro ⟨thread, hp⟩
  exact hinsert thread hp

/-- The object leaves the list only when its `FltDetach` takes it out. -/
theorem SocketsStep.mem_socketsList (hs : SocketsStep w a w') (hmem : object ∈ w.socketsList) :
    object ∈ w'.socketsList ∨ ∃ thread resume phase,
      w.threads thread = .detach .removeFromSocketsList object resume ∧
      w'.threads = Function.update w.threads thread phase ∧ phase.removing = none := by
  cases hs with
  | stay hsame => exact .inl (hsame.socketsList ▸ hmem)
  | move _ hsame => exact .inl (hsame.socketsList ▸ hmem)
  | begin _ _ hsame =>
    have hlist : w'.socketsList = w.socketsList := hsame.socketsList
    exact .inl (hlist ▸ hmem)
  | attached _ _ hsame =>
    have hlist : w'.socketsList = w.socketsList := hsame.socketsList
    exact .inl (hlist ▸ hmem)
  | create _ _ hw =>
    subst hw
    exact .inl hmem
  | insert _ _ hw =>
    subst hw
    refine .inl ?_
    unfold FilterState.insertInSocketsList
    split
    · exact hmem
    · exact List.mem_cons_of_mem _ hmem
  | @remove thread object' resume _ hp hw =>
    subst hw
    by_cases heq : object = object'
    · subst heq
      exact .inr ⟨thread, resume, _, hp, remove_threads, rfl⟩
    · refine .inl (List.count_pos_iff.1 ?_)
      show 0 < (w.removeFromSocketsList object').socketsList.count object
      rw [remove_count_of_ne heq]
      exact List.count_pos_iff.2 hmem

/-- A thread that is to insert the object stays so until it does. -/
theorem FilterStep.inserting (hs : FilterStep w a w' e) (hR : Registered w)
    (hp : w.threads thread = .attachInsert object) :
    object ∈ w'.socketsList ∨ w'.threads thread = .attachInsert object := by
  have hkeep : ∀ {thread' phase}, w'.threads = Function.update w.threads thread' phase →
      w.threads thread' ≠ .attachInsert object → w'.threads thread = .attachInsert object := by
    intro thread' phase hthreads hne
    rcases threads_inv hthreads thread with ⟨rfl, -⟩ | ⟨-, heq⟩
    · exact absurd hp hne
    · rw [heq, hp]
  cases hs with
  | nothing => exact .inr hp
  | @move _ _ thread' phase _ _ hm _ hthreads _ =>
    refine .inr (hkeep hthreads ?_)
    intro heq
    rw [heq] at hm
    cases hm
  | begin hthread hb _ hthreads =>
    refine .inr (hkeep hthreads ?_)
    rcases hb.phase_eq hthread with heq | ⟨attach, heq⟩ <;> rw [heq] <;> nofun
  | detached heq _ _ hthreads _ => exact .inr (hkeep hthreads (by rw [heq]; nofun))
  | attached heq _ hthreads _ => exact .inr (hkeep hthreads (by rw [heq]; nofun))
  | act _ ha _ =>
    refine .inr (hkeep rfl ?_)
    intro heq
    rw [heq] at ha
    cases ha
  | data => exact .inr hp
  | enlist => exact .inr hp
  | pop heq => exact .inr (hkeep rfl (by rw [heq]; nofun))
  | unlist heq => exact .inr (hkeep rfl (by rw [heq]; nofun))
  | relist heq => exact .inr (hkeep rfl (by rw [heq]; nofun))
  | create heq => exact .inr (hkeep rfl (by rw [heq]; nofun))
  | @insert _ thread' object' heq =>
    by_cases hobject : object' = object
    · subst hobject
      have hknown := hR.knows thread
      rw [hp] at hknown
      refine .inl ?_
      show object' ∈ (w.insertInSocketsList object').socketsList
      rw [insert_socketsList hknown.1]
      exact List.mem_cons_self ..
    · exact .inr (hkeep insert_threads (by rw [heq]; exact fun h => hobject (FilterPhase.attachInsert.inj h)))
  | remove heq => exact .inr (hkeep remove_threads (by rw [heq]; nofun))

theorem Registered.detaching (hR : Registered w) (hp : (w.threads thread).detaching = some object) :
    object ∈ w.detaching := by
  have hknown := hR.knows thread
  generalize w.threads thread = phase at hp hknown
  cases phase with
  | detach step object' resume =>
    obtain rfl := Option.some.inj hp
    exact hknown.1
  | _ => cases hp

theorem Placed.present_step (hP : Placed w h) (hR : Registered w) (hs : FilterStep w a w' e)
    (hlt : object < w'.objects.length) (hnot : object ∉ w'.detaching) :
    object ∈ w'.socketsList ∨ ∃ thread, w'.threads thread = .attachInsert object := by
  have hold : object ∉ w.detaching := fun hmem => hnot (detaching_mono hs hmem)
  have hbefore : object < w.objects.length →
      object ∈ w'.socketsList ∨ ∃ thread, w'.threads thread = .attachInsert object := by
    intro hlt
    rcases hP.present object hlt hold with hmem | ⟨thread, hp⟩
    · rcases hs.sockets.mem_socketsList hmem with hmem | ⟨thread, resume, _, hp, -⟩
      · exact .inl hmem
      · exact absurd (hR.detaching (by rw [hp]; rfl)) hold
    · exact (hs.inserting hR hp).imp_right fun hp => ⟨thread, hp⟩
  rcases hs.sockets.attaching_inv with ⟨hlength, -⟩ | ⟨thread, hlength, hthreads⟩
  · exact hbefore (hlength ▸ hlt)
  · rcases Nat.lt_succ_iff_lt_or_eq.1 (hlength ▸ hlt) with hlt | rfl
    · exact hbefore hlt
    · exact .inr ⟨thread, by rw [hthreads, Function.update_self]⟩

/-- The threads that work on a `FltDetach` after a step. -/
theorem DetachChange.detaching_inv (hc : DetachChange w a w' e)
    (hp : (w'.threads thread).detaching = some object) :
    (w.threads thread).detaching = some object ∨
      Begins w object a (w'.threads thread) ∧
        ∀ thread', thread' ≠ thread → w'.threads thread' = w.threads thread' := by
  cases hc with
  | stay hthreads hdet _ _ =>
    rcases threads_inv hthreads thread with ⟨rfl, heq⟩ | ⟨-, heq⟩
    · exact .inl (hdet.symm.trans (heq ▸ hp))
    · exact .inl (heq ▸ hp)
  | begin hthreads _ hb _ =>
    rcases threads_inv hthreads thread with ⟨rfl, heq⟩ | ⟨-, heq⟩
    · obtain ⟨resume, rfl⟩ := hb.phase_detach
      rw [heq] at hp ⊢
      obtain rfl := Option.some.inj hp
      refine .inr ⟨hb, ?_⟩
      intro thread' hne
      rw [hthreads, Function.update_of_ne hne]
    · exact .inl (heq ▸ hp)
  | finish hthreads _ hnone _ _ =>
    rcases threads_inv hthreads thread with ⟨rfl, heq⟩ | ⟨-, heq⟩
    · rw [heq, hnone] at hp
      cases hp
    · exact .inl (heq ▸ hp)

theorem Placed.once_step (hP : Placed w h) (hR : Registered w) (hK : w.KpiOnce a)
    (hc : DetachChange w a w' e) {thread₁ thread₂ : Nat}
    (h₁ : (w'.threads thread₁).detaching = some object)
    (h₂ : (w'.threads thread₂).detaching = some object) : thread₁ = thread₂ := by
  have hnew : ∀ {thread thread' : Nat}, Begins w object a (w'.threads thread) →
      (∀ thread', thread' ≠ thread → w'.threads thread' = w.threads thread') →
      (w'.threads thread').detaching = some object → thread = thread' := by
    intro thread thread' hb hothers hp
    by_contra hne
    rw [hothers thread' (Ne.symm hne)] at hp
    exact (hP.begins hR hK hb).1 (hR.detaching hp)
  rcases hc.detaching_inv h₁ with hp₁ | ⟨hb, hothers⟩
  · rcases hc.detaching_inv h₂ with hp₂ | ⟨hb, hothers⟩
    · exact hP.once _ _ object hp₁ hp₂
    · exact (hnew hb hothers h₁).symm
  · exact hnew hb hothers h₂

theorem Placed.removing_step (hP : Placed w h) (hR : Registered w) (hK : w.KpiOnce a)
    (hs : FilterStep w a w' e) (hp : (w'.threads thread).removing = some object) : object ∈ w'.socketsList := by
  have hmem : object ∈ w.socketsList := by
    cases hs.detachChange with
    | stay hthreads _ hremoving _ =>
      rcases threads_inv hthreads thread with ⟨rfl, heq⟩ | ⟨-, heq⟩
      · exact hP.removing thread object (hremoving object (heq ▸ hp))
      · exact hP.removing thread object (heq ▸ hp)
    | begin hthreads _ hb _ =>
      rcases threads_inv hthreads thread with ⟨rfl, heq⟩ | ⟨-, heq⟩
      · obtain ⟨resume, rfl⟩ := hb.phase_detach
        rw [heq] at hp
        obtain rfl := Option.some.inj hp
        exact (hP.begins hR hK hb).2
      · exact hP.removing thread object (heq ▸ hp)
    | finish hthreads _ hnone _ _ =>
      rcases threads_inv hthreads thread with ⟨rfl, heq⟩ | ⟨-, heq⟩
      · rw [heq] at hp
        cases hnone.symm.trans (removing_detaching hp)
      · exact hP.removing thread object (heq ▸ hp)
  refine (hs.sockets.mem_socketsList hmem).resolve_right ?_
  rintro ⟨thread', resume, phase, hold, hthreads, hnone⟩
  -- the object is taken out by the only thread that detaches it
  rcases threads_inv hthreads thread with ⟨rfl, heq⟩ | ⟨hne, heq⟩
  · rw [heq, hnone] at hp
    cases hp
  · exact hne (hP.once _ _ object (heq ▸ removing_detaching hp) (by rw [hold]; rfl))

theorem Placed.finished_step (hP : Placed w h) (hc : DetachChange w a w' e) (hmem : object ∈ w'.detaching) :
    .detached object ∈ h ++ e ∨ ∃ thread, (w'.threads thread).detaching = some object := by
  have hother : ∀ {thread phase}, w'.threads = Function.update w.threads thread phase →
      object ∈ w.detaching → ((w.threads thread).detaching = some object →
        .detached object ∈ h ++ e ∨ phase.detaching = some object) →
      .detached object ∈ h ++ e ∨ ∃ thread, (w'.threads thread).detaching = some object := by
    intro thread phase hthreads hmem hself
    rcases hP.finished object hmem with hdone | ⟨thread', hp⟩
    · exact .inl (List.mem_append_left _ hdone)
    · rcases threads_inv hthreads thread' with ⟨rfl, heq⟩ | ⟨-, heq⟩
      · exact (hself hp).imp_right fun hphase => ⟨thread', by rw [heq, hphase]⟩
      · exact .inr ⟨thread', heq ▸ hp⟩
  cases hc with
  | stay hthreads hdet _ hlist => exact hother hthreads (hlist ▸ hmem) fun hp => .inr (hdet.trans hp)
  | @begin thread object' phase hthreads hnone hb hlist =>
    rcases List.mem_cons.1 (hlist ▸ hmem) with rfl | hmem
    · obtain ⟨resume, rfl⟩ := hb.phase_detach
      exact .inr ⟨thread, by rw [hthreads, Function.update_self]; rfl⟩
    · refine hother hthreads hmem ?_
      rw [hnone]
      exact nofun
  | finish hthreads hself _ hevent hlist =>
    refine hother hthreads (hlist ▸ hmem) fun hp => .inl ?_
    obtain rfl := Option.some.inj (hself.symm.trans hp)
    exact List.mem_append_right _ hevent

theorem Placed.step (hP : Placed w h) (hR : Registered w) (hK : w.KpiOnce a) (hs : FilterStep w a w' e) :
    Placed w' (h ++ e) :=
  ⟨fun _ hlt hnot => hP.present_step hR hs hlt hnot, fun _ _ => hP.removing_step hR hK hs,
    fun _ _ _ => hP.once_step hR hK hs.detachChange, fun _ => hP.finished_step hs.detachChange⟩

end NkeFilter
