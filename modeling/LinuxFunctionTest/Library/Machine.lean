import Mathlib.Data.List.Infix

/-!
# Runs of partial deterministic machines

A machine steps on labels. Each label carries every choice of the environment (an allocation
result, a verdict, the thread that moves next), so a step is a partial function and a run is a
list of labels. `Always` speaks of every state a run visits and `Guarded` of every step it
takes. The main rules derive the first from the second through an inductive invariant, and, when
a step that breaks the guard breaks the property at once, show that the two are equivalent. Where
the harm done by such a step shows only later, it is recorded in the state (`run_spoiled_iff`).
-/

namespace LinuxFunctionTest

/-- A partial deterministic machine; `none` means that the label is not enabled. -/
structure Machine (σ α : Type*) where
  step : σ → α → Option σ

namespace Machine

variable {σ α : Type*} (M : Machine σ α)

/-- Execute a sequence of labels, failing at the first label that is not enabled. -/
def run : σ → List α → Option σ
  | s, [] => some s
  | s, a :: rest => (M.step s a).bind fun t => run t rest

/-- The property holds of every state visited by the run. -/
def Always (P : σ → Prop) : σ → List α → Prop
  | s, [] => P s
  | s, a :: rest => P s ∧ ∀ t, M.step s a = some t → Always P t rest

/-- Every step the run takes is taken in a state that meets the guard. -/
def Guarded (G : σ → α → Prop) : σ → List α → Prop
  | _, [] => True
  | s, a :: rest => ∀ t, M.step s a = some t → G s a ∧ Guarded G t rest

/-- Whether a given run meets a decidable guard can be computed. -/
instance decidableGuarded (G : σ → α → Prop) [∀ s a, Decidable (G s a)] :
    ∀ (s : σ) (labels : List α), Decidable (M.Guarded G s labels)
  | _, [] => isTrue trivial
  | s, a :: rest =>
    match h : M.step s a with
    | none => isTrue fun t ht => absurd (h.symm.trans ht) (by simp)
    | some t =>
      have := decidableGuarded G t rest
      decidable_of_iff (G s a ∧ M.Guarded G t rest) (by simp [Guarded, h])

/-- The empty run stays where it starts. -/
@[simp] theorem run_nil (s : σ) : M.run s [] = some s := rfl

/-- A run takes its first step before the remaining ones. -/
theorem run_cons (s : σ) (a : α) (rest : List α) :
    M.run s (a :: rest) = (M.step s a).bind fun t => M.run t rest := rfl

/-- A run whose first step is known continues from there. -/
theorem run_cons_of_step {s t : σ} {a : α} (h : M.step s a = some t) (rest : List α) :
    M.run s (a :: rest) = M.run t rest := by
  rw [run_cons, h, Option.bind_some]

/-- Consecutive label sequences compose. -/
theorem run_append (s : σ) (left right : List α) :
    M.run s (left ++ right) = (M.run s left).bind fun t => M.run t right := by
  induction left generalizing s with
  | nil => rfl
  | cons a rest ih =>
    simp only [List.cons_append, run_cons]
    cases M.step s a with
    | none => rfl
    | some t => exact ih t

/-- An inductive invariant holds at the end of every run. -/
theorem run_invariant {Inv : σ → Prop}
    (hstep : ∀ s a t, Inv s → M.step s a = some t → Inv t)
    {s t : σ} {labels : List α} (hs : Inv s) (h : M.run s labels = some t) : Inv t := by
  induction labels generalizing s with
  | nil =>
    simp only [run_nil, Option.some.injEq] at h
    exact h ▸ hs
  | cons a rest ih =>
    obtain ⟨u, hu, h⟩ := Option.bind_eq_some_iff.mp h
    exact ih (hstep s a u hs hu) h

/-- A measure that every step lowers bounds the length of every run. -/
theorem run_length_le {Inv : σ → Prop} {measure : σ → ℕ}
    (hstep : ∀ s a t, Inv s → M.step s a = some t → Inv t ∧ measure t < measure s)
    {s t : σ} {labels : List α} (hs : Inv s) (h : M.run s labels = some t) :
    labels.length + measure t ≤ measure s := by
  induction labels generalizing s with
  | nil =>
    obtain rfl := Option.some.inj h
    rw [List.length_nil, Nat.zero_add]
  | cons a rest ih =>
    obtain ⟨u, hu, h⟩ := Option.bind_eq_some_iff.mp h
    obtain ⟨hinv, hlt⟩ := hstep s a u hs hu
    have hrest := ih hinv h
    rw [List.length_cons]
    omega

/-- A measure that every guarded step lowers bounds the length of every guarded run. -/
theorem guarded_length_le {G : σ → α → Prop} {measure : σ → ℕ}
    (hstep : ∀ s a t, G s a → M.step s a = some t → measure t < measure s)
    {s t : σ} {labels : List α} (hguarded : M.Guarded G s labels) (h : M.run s labels = some t) :
    labels.length + measure t ≤ measure s := by
  induction labels generalizing s with
  | nil =>
    obtain rfl := Option.some.inj h
    rw [List.length_nil, Nat.zero_add]
  | cons a rest ih =>
    obtain ⟨u, hu, h⟩ := Option.bind_eq_some_iff.mp h
    obtain ⟨hguard, hrest⟩ := hguarded u hu
    have hlt := hstep s a u hguard hu
    have hle := ih hrest h
    rw [List.length_cons]
    omega

/-- A property of all visited states holds of the first one. -/
theorem Always.head {P : σ → Prop} {s : σ} {labels : List α} (h : M.Always P s labels) : P s := by
  cases labels with
  | nil => exact h
  | cons a rest => exact h.1

/-- A property of all visited states is a property of the end of every executed prefix. -/
theorem always_iff_run (P : σ → Prop) (s : σ) (labels : List α) :
    M.Always P s labels ↔ ∀ front, front <+: labels → ∀ t, M.run s front = some t → P t := by
  induction labels generalizing s with
  | nil =>
    constructor
    · rintro h front hfront t ht
      obtain rfl := List.prefix_nil.mp hfront
      exact Option.some.inj ht ▸ h
    · intro h
      exact h [] (List.prefix_refl _) s rfl
  | cons a rest ih =>
    constructor
    · rintro ⟨hs, hrest⟩ front hfront t ht
      cases front with
      | nil => exact Option.some.inj ht ▸ hs
      | cons b front =>
        obtain ⟨rfl, hfront'⟩ := List.cons_prefix_cons.mp hfront
        obtain ⟨u, hu, ht⟩ := Option.bind_eq_some_iff.mp ht
        exact (ih u).mp (hrest u hu) front hfront' t ht
    · intro h
      refine ⟨h [] (List.nil_prefix) s rfl, fun u hu => (ih u).mpr ?_⟩
      intro front hfront t ht
      exact h (a :: front) (List.cons_prefix_cons.mpr ⟨rfl, hfront⟩) t
        (Option.bind_eq_some_iff.mpr ⟨u, hu, ht⟩)

/-- The end of an executed prefix is a visited state. -/
theorem Always.of_reached {P : σ → Prop} {s t : σ} {front labels : List α}
    (h : M.Always P s labels) (hfront : front <+: labels) (ht : M.run s front = some t) : P t :=
  (M.always_iff_run P s labels).mp h front hfront t ht

/-- A weaker property holds along the same run. -/
theorem Always.mono {P Q : σ → Prop} (hPQ : ∀ s, P s → Q s) {s : σ} {labels : List α}
    (h : M.Always P s labels) : M.Always Q s labels := by
  induction labels generalizing s with
  | nil => exact hPQ s h
  | cons a rest ih => exact ⟨hPQ s h.1, fun t ht => ih (h.2 t ht)⟩

/-- A run under a stronger guard is one under a weaker guard. -/
theorem Guarded.mono {G H : σ → α → Prop} (hGH : ∀ s a, G s a → H s a) {s : σ} {labels : List α}
    (h : M.Guarded G s labels) : M.Guarded H s labels := by
  induction labels generalizing s with
  | nil => trivial
  | cons a rest ih => exact fun t ht => ⟨hGH s a (h t ht).1, ih (h t ht).2⟩

/-- A guarded run is one whose every step, at the end of an executed prefix, meets the guard. -/
theorem guarded_iff_run (G : σ → α → Prop) (s : σ) (labels : List α) :
    M.Guarded G s labels ↔ ∀ front a, front ++ [a] <+: labels →
      ∀ t u, M.run s front = some t → M.step t a = some u → G t a := by
  induction labels generalizing s with
  | nil =>
    constructor
    · rintro _ front a hfront
      exact absurd (List.prefix_nil.mp hfront) (by simp)
    · exact fun _ => trivial
  | cons b rest ih =>
    constructor
    · rintro h front a hfront t u ht hu
      cases front with
      | nil =>
        obtain ⟨rfl, _⟩ := List.cons_prefix_cons.mp hfront
        obtain rfl := Option.some.inj ht
        exact (h u hu).1
      | cons c front =>
        obtain ⟨rfl, hfront'⟩ := List.cons_prefix_cons.mp hfront
        obtain ⟨v, hv, ht⟩ := Option.bind_eq_some_iff.mp ht
        exact (ih v).mp (h v hv).2 front a hfront' t u ht hu
    · intro h t ht
      refine ⟨h [] b (List.cons_prefix_cons.mpr ⟨rfl, List.nil_prefix⟩) s t rfl ht, (ih t).mpr ?_⟩
      intro front a hfront u v hu hv
      exact h (b :: front) a (List.cons_prefix_cons.mpr ⟨rfl, hfront⟩) u v
        (Option.bind_eq_some_iff.mpr ⟨t, ht, hu⟩) hv

/-- A run in two parts is guarded when both parts are. -/
theorem guarded_append (G : σ → α → Prop) (s : σ) (left right : List α) :
    M.Guarded G s (left ++ right) ↔
      M.Guarded G s left ∧ ∀ t, M.run s left = some t → M.Guarded G t right := by
  induction left generalizing s with
  | nil =>
    simp only [List.nil_append, Guarded, true_and, run_nil, Option.some.injEq, forall_eq']
  | cons a rest ih =>
    constructor
    · intro h
      refine ⟨fun t ht => ⟨(h t ht).1, ((ih t).mp (h t ht).2).1⟩, fun t ht => ?_⟩
      obtain ⟨u, hu, ht⟩ := Option.bind_eq_some_iff.mp ht
      exact ((ih u).mp (h u hu).2).2 t ht
    · rintro ⟨hleft, hright⟩ t ht
      refine ⟨(hleft t ht).1, (ih t).mpr ⟨(hleft t ht).2, fun u hu => hright u ?_⟩⟩
      rwa [M.run_cons_of_step ht]

/-- Labels that meet the guard in every state make a guarded run. -/
theorem guarded_of_forall {G : σ → α → Prop} {labels : List α}
    (h : ∀ a ∈ labels, ∀ s, G s a) (s : σ) : M.Guarded G s labels := by
  induction labels generalizing s with
  | nil => trivial
  | cons a rest ih =>
    exact fun t _ => ⟨h a List.mem_cons_self s, ih (fun b hb => h b (List.mem_cons_of_mem a hb)) t⟩

section Rules

variable {Inv Good : σ → Prop} {Guard : σ → α → Prop}

/-- An invariant kept by the guarded steps holds in every state of a guarded run. -/
theorem always_of_guarded
    (hstep : ∀ s a t, Inv s → M.step s a = some t → Guard s a → Inv t)
    {s : σ} (hs : Inv s) {labels : List α} (h : M.Guarded Guard s labels) :
    M.Always Inv s labels := by
  induction labels generalizing s with
  | nil => exact hs
  | cons a rest ih =>
    exact ⟨hs, fun t ht => ih (hstep s a t hs ht (h t ht).1) (h t ht).2⟩

/-- An invariant kept by every step holds in every state of every run. -/
theorem always_of_step (hstep : ∀ s a t, Inv s → M.step s a = some t → Inv t)
    {s : σ} (hs : Inv s) (labels : List α) : M.Always Inv s labels := by
  induction labels generalizing s with
  | nil => exact hs
  | cons a rest ih => exact ⟨hs, fun t ht => ih (hstep s a t hs ht)⟩

/-- If a step outside the guard breaks the property at once, a run with the property is guarded. -/
theorem guarded_of_always
    (hstep : ∀ s a t, Inv s → M.step s a = some t → Guard s a → Inv t)
    (hbad : ∀ s a t, Inv s → M.step s a = some t → ¬ Guard s a → ¬ Good t)
    {s : σ} (hs : Inv s) {labels : List α} (h : M.Always Good s labels) :
    M.Guarded Guard s labels := by
  induction labels generalizing s with
  | nil => trivial
  | cons a rest ih =>
    intro t ht
    have hguard : Guard s a := by
      by_contra hno
      exact hbad s a t hs ht hno (h.2 t ht).head
    exact ⟨hguard, ih (hstep s a t hs ht hguard) (h.2 t ht)⟩

/-- A property holds along a run exactly when every step of the run meets the guard. -/
theorem always_iff_guarded (hgood : ∀ s, Inv s → Good s)
    (hstep : ∀ s a t, Inv s → M.step s a = some t → Guard s a → Inv t)
    (hbad : ∀ s a t, Inv s → M.step s a = some t → ¬ Guard s a → ¬ Good t)
    {s : σ} (hs : Inv s) (labels : List α) :
    M.Always Good s labels ↔ M.Guarded Guard s labels :=
  ⟨M.guarded_of_always hstep hbad hs, fun h => (M.always_of_guarded hstep hs h).mono M hgood⟩

/-- What every step to a good state keeps is kept by a run through good states. -/
theorem run_invariant_of_always (hstep : ∀ s a t, Inv s → M.step s a = some t → Good t → Inv t) {s t : σ}
    (hs : Inv s) {labels : List α} (h : M.Always Good s labels) (hrun : M.run s labels = some t) : Inv t := by
  induction labels generalizing s with
  | nil => exact Option.some.inj hrun ▸ hs
  | cons a rest ih =>
    obtain ⟨u, hu, hrun⟩ := Option.bind_eq_some_iff.mp hrun
    exact ih (hstep s a u hs hu (h.2 u hu).head) (h.2 u hu) hrun

/-- If a step outside the guard spoils the state, and good steps leave it spoiled, then a run through good states
is guarded or ends spoiled. -/
theorem guarded_or_spoiled {Spoiled : σ → Prop}
    (hstep : ∀ s a t, Inv s → M.step s a = some t → Guard s a → Inv t)
    (hbad : ∀ s a t, Inv s → M.step s a = some t → ¬ Guard s a → Spoiled t)
    (hstay : ∀ s a t, Spoiled s → M.step s a = some t → Good t → Spoiled t)
    {s t : σ} (hs : Inv s) {labels : List α} (h : M.Always Good s labels) (hrun : M.run s labels = some t) :
    M.Guarded Guard s labels ∨ Spoiled t := by
  induction labels generalizing s with
  | nil => exact .inl trivial
  | cons a rest ih =>
    obtain ⟨u, hu, hrun⟩ := Option.bind_eq_some_iff.mp hrun
    by_cases hguard : Guard s a
    · refine (ih (hstep s a u hs hu hguard) (h.2 u hu) hrun).imp_left fun hrest v hv => ?_
      obtain rfl := Option.some.inj (hu.symm.trans hv)
      exact ⟨hguard, hrest⟩
    · exact .inr (M.run_invariant_of_always hstay (hbad s a u hs hu hguard) (h.2 u hu) hrun)

/-- Where good states come from good states only, a run that ends in one has met good states only. -/
theorem good_of_run (hback : ∀ s a t, M.step s a = some t → Good t → Good s) {s t : σ}
    {labels : List α} (h : M.run s labels = some t) (ht : Good t) : Good s := by
  induction labels generalizing s with
  | nil => exact Option.some.inj h ▸ ht
  | cons a rest ih =>
    obtain ⟨u, hu, h⟩ := Option.bind_eq_some_iff.mp h
    exact hback s a u hu (ih h)

/-- A good state at the end of a run meets the invariant, and it is spoiled exactly when the start was or
some step of the run missed the guard, if this is so of every single step to a good state. -/
theorem run_good_spoiled_iff {Spoiled : σ → Prop}
    (hback : ∀ s a t, M.step s a = some t → Good t → Good s)
    (hstep : ∀ s a t, Inv s → M.step s a = some t → Good t →
      Inv t ∧ (Spoiled t ↔ Spoiled s ∨ ¬ Guard s a))
    {s t : σ} (hs : Inv s) {labels : List α} (h : M.run s labels = some t) (ht : Good t) :
    Inv t ∧ (Spoiled t ↔ Spoiled s ∨ ¬ M.Guarded Guard s labels) := by
  induction labels generalizing s with
  | nil =>
    obtain rfl := Option.some.inj h
    exact ⟨hs, by simp [Guarded]⟩
  | cons a rest ih =>
    obtain ⟨u, hu, h⟩ := Option.bind_eq_some_iff.mp h
    have hguarded : M.Guarded Guard s (a :: rest) ↔ Guard s a ∧ M.Guarded Guard u rest := by
      simp only [Guarded, hu, Option.some.injEq, forall_eq']
    obtain ⟨hinv, hspoiled⟩ := hstep s a u hs hu (M.good_of_run hback h ht)
    obtain ⟨hinv', hrest⟩ := ih hinv h
    exact ⟨hinv', by rw [hrest, hspoiled, hguarded, not_and_or, or_assoc]⟩

/-- A state is spoiled at the end of a run exactly when it was at the start or some step of the run
missed the guard, if this is so of every single step. -/
theorem run_spoiled_iff {Spoiled : σ → Prop} (hinv : ∀ s a t, Inv s → M.step s a = some t → Inv t)
    (hstep : ∀ s a t, Inv s → M.step s a = some t → (Spoiled t ↔ Spoiled s ∨ ¬ Guard s a))
    {s t : σ} (hs : Inv s) {labels : List α} (h : M.run s labels = some t) :
    Spoiled t ↔ Spoiled s ∨ ¬ M.Guarded Guard s labels :=
  (M.run_good_spoiled_iff (fun _ _ _ _ (_ : True) => trivial)
    (fun s a t hs ht _ => ⟨hinv s a t hs ht, hstep s a t hs ht⟩) hs h trivial).2

end Rules

end Machine

end LinuxFunctionTest
