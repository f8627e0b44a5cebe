import Mathlib.Data.List.Induction
import Mathlib.Tactic.Common

/-!
# Labelled step functions

A system is an initial state together with a partial step function. Whatever the environment
decides (which thread moves, which call is made, what the kernel answers) is part of the label,
so that `step` is a function and a run is determined by the list of its labels.
-/

namespace Kit

variable {σ α : Type*}

/-- An initial state and a partial, labelled step function. -/
structure Lts (σ α : Type*) where
  init : σ
  step : σ → α → Option σ

namespace Lts

/-- Take the steps of a list of labels, starting in `s`. -/
def exec (L : Lts σ α) (s : σ) : List α → Option σ
  | []      => some s
  | a :: as => (L.step s a).bind fun s' => L.exec s' as

/-- The run with the labels `tr` ends in `s`. -/
def Run (L : Lts σ α) (tr : List α) (s : σ) : Prop :=
  L.exec L.init tr = some s

/-- Some run ends in `s`. -/
def Reachable (L : Lts σ α) (s : σ) : Prop :=
  ∃ tr, L.Run tr s

variable {L : Lts σ α}

lemma exec_append (s : σ) (tr tr' : List α) :
    L.exec s (tr ++ tr') = (L.exec s tr).bind fun s' => L.exec s' tr' := by
  induction tr generalizing s with
  | nil => rfl
  | cons a tr ih =>
    simp only [List.cons_append, exec, Option.bind_assoc]
    cases L.step s a with
    | none => rfl
    | some s' => simpa using ih s'

/-- A run splits at every point into a run and the steps after it. -/
lemma run_append {tr tr' : List α} {s : σ} :
    L.Run (tr ++ tr') s ↔ ∃ s', L.Run tr s' ∧ L.exec s' tr' = some s := by
  simp only [Run, exec_append, Option.bind_eq_some_iff]

lemma run_snoc {tr : List α} {a : α} {s : σ} :
    L.Run (tr ++ [a]) s ↔ ∃ s', L.Run tr s' ∧ L.step s' a = some s := by
  simp only [run_append, exec, Option.bind_fun_some]

/-- The step of a run at a given place, and what comes before and after it. -/
lemma run_append_cons {tr₁ tr₂ : List α} {a : α} {s : σ} : L.Run (tr₁ ++ a :: tr₂) s ↔
    ∃ s₁ s₂, L.Run tr₁ s₁ ∧ L.step s₁ a = some s₂ ∧ L.exec s₂ tr₂ = some s := by
  simp only [run_append, exec, Option.bind_eq_some_iff]
  constructor
  · rintro ⟨s₁, hrun, s₂, hstep, hexec⟩
    exact ⟨s₁, s₂, hrun, hstep, hexec⟩
  · rintro ⟨s₁, s₂, hrun, hstep, hexec⟩
    exact ⟨s₁, hrun, s₂, hstep, hexec⟩

lemma exec_snoc {tr : List α} {a : α} {s₀ s : σ} :
    L.exec s₀ (tr ++ [a]) = some s ↔ ∃ s', L.exec s₀ tr = some s' ∧ L.step s' a = some s := by
  simp only [exec_append, Option.bind_eq_some_iff, exec, Option.bind_fun_some]

/-- A run that can be computed, and what can be read off its last state. -/
lemma exists_run_of_decide {tr : List α} {P : σ → Prop} (Q : σ → Prop) [DecidablePred Q]
    (hQ : (L.exec L.init tr).map (fun s => decide (Q s)) = some true)
    (hP : ∀ s, L.Run tr s → Q s → P s) : ∃ s, L.Run tr s ∧ P s := by
  obtain ⟨s, hs, hq⟩ := Option.map_eq_some_iff.mp hQ
  exact ⟨s, hs, hP s hs (of_decide_eq_true hq)⟩

/-- The states around one step of a run that can be computed. -/
lemma exists_step_of_map {β : Type*} {f : σ → β} {x : β} {tr tr' : List α} {a : α}
    (h : (L.exec L.init (tr ++ a :: tr')).map f = some x) :
    ∃ s₀ s₁ s, L.Run tr s₀ ∧ L.step s₀ a = some s₁ ∧ L.exec s₁ tr' = some s ∧ f s = x := by
  obtain ⟨s, hs, hx⟩ := Option.map_eq_some_iff.mp h
  obtain ⟨s₀, s₁, hrun, hstep, hexec⟩ := run_append_cons.mp hs
  exact ⟨s₀, s₁, s, hrun, hstep, hexec, hx⟩

/-- The states before and after the last step of a run that can be computed. -/
lemma exists_last_step_of_map {β : Type*} {f : σ → β} {x y : β} {tr : List α} {a : α}
    (hbefore : (L.exec L.init tr).map f = some x)
    (hafter : (L.exec L.init (tr ++ [a])).map f = some y) :
    ∃ s s', L.Run tr s ∧ L.step s a = some s' ∧ f s = x ∧ f s' = y := by
  obtain ⟨s, hs, hx⟩ := Option.map_eq_some_iff.mp hbefore
  obtain ⟨s', hs', hy⟩ := Option.map_eq_some_iff.mp hafter
  obtain ⟨s₀, hs₀, hstep⟩ := exec_snoc.mp hs'
  obtain rfl := Option.some.inj (hs.symm.trans hs₀)
  exact ⟨s, s', hs, hstep, hx, hy⟩

/-- Induction on the steps from a state, from the first to the last. -/
theorem exec_induct {P : List α → σ → Prop} {s₀ : σ} (hinit : P [] s₀)
    (hstep : ∀ tr s a s', L.exec s₀ tr = some s → P tr s → L.step s a = some s' →
      P (tr ++ [a]) s') {tr : List α} {s : σ} (h : L.exec s₀ tr = some s) : P tr s := by
  induction tr using List.reverseRecOn generalizing s with
  | nil =>
    obtain rfl := Option.some.inj h
    exact hinit
  | append_singleton tr a ih =>
    obtain ⟨s', hexec, hs⟩ := exec_snoc.mp h
    exact hstep tr s' a s hexec (ih hexec) hs

/-- Induction on a run, from its first step to its last. -/
theorem Run.induct {P : List α → σ → Prop} (hinit : P [] L.init)
    (hstep : ∀ tr s a s', L.Run tr s → P tr s → L.step s a = some s' → P (tr ++ [a]) s')
    {tr : List α} {s : σ} (h : L.Run tr s) : P tr s :=
  exec_induct hinit hstep h

lemma Run.reachable {tr : List α} {s : σ} (h : L.Run tr s) : L.Reachable s :=
  ⟨tr, h⟩

/-- A predicate that holds initially and is kept by every step holds in every reachable state. -/
theorem Reachable.invariant {P : σ → Prop} (hinit : P L.init)
    (hstep : ∀ s a s', P s → L.step s a = some s' → P s') {s : σ} (h : L.Reachable s) :
    P s := by
  obtain ⟨tr, hrun⟩ := h
  exact hrun.induct (P := fun _ s => P s) hinit fun _ s a s' _ hs h => hstep s a s' hs h

/-! ### Runs under a condition -/

/-- The runs of `L` all of whose steps meet a condition on the label and the state before. -/
def restrict (L : Lts σ α) (C : σ → α → Prop) [∀ s a, Decidable (C s a)] : Lts σ α where
  init := L.init
  step := fun s a => if C s a then L.step s a else none

variable {C : σ → α → Prop} [∀ s a, Decidable (C s a)]

lemma restrict_step {s s' : σ} {a : α} :
    (L.restrict C).step s a = some s' ↔ C s a ∧ L.step s a = some s' := by
  simp only [restrict, Option.ite_none_right_eq_some]

lemma Run.of_restrict {tr : List α} {s : σ} (h : (L.restrict C).Run tr s) : L.Run tr s := by
  refine Run.induct (L := L.restrict C) (P := L.Run) rfl ?_ h
  intro tr s a s' _ hrun hstep
  exact run_snoc.mpr ⟨s, hrun, (restrict_step.mp hstep).2⟩

/-- A condition may be replaced by a weaker one. -/
lemma Run.restrict_mono {D : σ → α → Prop} [∀ s a, Decidable (D s a)] (hCD : ∀ s a, C s a → D s a)
    {tr : List α} {s : σ} (h : (L.restrict C).Run tr s) : (L.restrict D).Run tr s := by
  refine Run.induct (L := L.restrict C) (P := (L.restrict D).Run) rfl ?_ h
  intro tr s a s' _ hrun hstep
  obtain ⟨hcond, hstep⟩ := restrict_step.mp hstep
  exact run_snoc.mpr ⟨s, hrun, restrict_step.mpr ⟨hCD s a hcond, hstep⟩⟩

/-! ### Steps that use something up -/

/-- If each step of a kind decreases a measure, then there are no more of them in a row. -/
lemma exec_length_le {p : α → Prop} {m : σ → ℕ}
    (hstep : ∀ s a s', p a → L.step s a = some s' → m s' < m s) {tr : List α} {s s' : σ}
    (htr : ∀ a ∈ tr, p a) (h : L.exec s tr = some s') : tr.length ≤ m s := by
  induction tr generalizing s with
  | nil => exact Nat.zero_le _
  | cons a tr ih =>
    obtain ⟨s₁, hs₁, h⟩ := Option.bind_eq_some_iff.mp h
    have hlt := hstep s a s₁ (htr a List.mem_cons_self) hs₁
    have hle := ih (fun b hb => htr b (List.mem_cons_of_mem a hb)) h
    exact Nat.succ_le_of_lt (Nat.lt_of_le_of_lt hle hlt)

/-- If the steps of a kind `p` use up a measure, and only those of a kind `q` add to it, then there
are no more of the former than the start and the latter allow. -/
lemma exec_countP_le {p q : α → Bool} {m : σ → ℕ} {k : ℕ}
    (hstep : ∀ s a s', L.step s a = some s' →
      m s' + (p a).toNat ≤ m s + k * (q a).toNat) {tr : List α} {s s' : σ}
    (h : L.exec s tr = some s') : m s' + tr.countP p ≤ m s + k * tr.countP q := by
  have hcons : ∀ (r : α → Bool) (a : α) (tr : List α),
      (a :: tr).countP r = tr.countP r + (r a).toNat := by
    intro r a tr
    rw [List.countP_cons]
    cases r a <;> rfl
  induction tr generalizing s with
  | nil =>
    obtain rfl := Option.some.inj h
    simp
  | cons a tr ih =>
    obtain ⟨s₁, hs₁, h⟩ := Option.bind_eq_some_iff.mp h
    have hle := hstep s a s₁ hs₁
    have hrest := ih h
    rw [hcons, hcons, Nat.mul_add]
    omega

/-! ### What a run still owes -/

/-- Some label of `tr` asks for something that no later label does. -/
def Owed (ask done : α → Prop) (tr : List α) : Prop :=
  ∃ tr₁ a tr₂, tr = tr₁ ++ a :: tr₂ ∧ ask a ∧ ∀ b ∈ tr₂, ¬ done b

variable {ask done : α → Prop} {tr : List α}

lemma not_owed_nil : ¬ Owed ask done ([] : List α) := by
  rintro ⟨tr₁, a, tr₂, htr, -⟩
  simp at htr

lemma owed_snoc {b : α} : Owed ask done (tr ++ [b]) ↔ ask b ∨ (Owed ask done tr ∧ ¬ done b) := by
  constructor
  · rintro ⟨tr₁, a, tr₂, htr, ha, hdone⟩
    induction tr₂ using List.reverseRecOn with
    | nil =>
      obtain ⟨-, rfl⟩ := List.append_inj' htr rfl |>.imp_right List.singleton_inj.mp
      exact Or.inl ha
    | append_singleton tr₂ c _ =>
      rw [← List.cons_append, ← List.append_assoc] at htr
      obtain ⟨htr', hbc⟩ := List.append_inj' htr rfl
      obtain rfl := List.singleton_inj.mp hbc
      refine Or.inr ⟨⟨tr₁, a, tr₂, htr', ha, fun d hd => ?_⟩, ?_⟩
      · exact hdone d (List.mem_append_left _ hd)
      · exact hdone b (List.mem_append_right _ (List.mem_singleton_self b))
  · rintro (hb | ⟨⟨tr₁, a, tr₂, rfl, ha, hdone⟩, hb⟩)
    · exact ⟨tr, b, [], rfl, hb, fun _ hc => absurd hc List.not_mem_nil⟩
    · refine ⟨tr₁, a, tr₂ ++ [b], by simp, ha, fun d hd => ?_⟩
      rcases List.mem_append.mp hd with hd | hd
      · exact hdone d hd
      · rwa [List.mem_singleton.mp hd]

/-- When nothing is owed, whatever was asked for has been done since. -/
lemma done_of_not_owed (h : ¬ Owed ask done tr) {tr₁ tr₂ : List α} {a : α}
    (htr : tr = tr₁ ++ a :: tr₂) (ha : ask a) : ∃ b ∈ tr₂, done b := by
  by_contra hne
  exact h ⟨tr₁, a, tr₂, htr, ha, fun b hb hdone => hne ⟨b, hb, hdone⟩⟩

end Lts
end Kit
