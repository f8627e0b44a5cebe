import Mathlib.Data.List.Forall2
import Mathlib.Data.Option.Basic
import Ivykis.Kit.Lts

/-!
# Simulations between labelled step functions

Every step of one system is matched by some steps of another, and the matched steps of a whole run
make up a run of the other system.
-/

namespace Kit

variable {σ τ α β : Type*}

namespace Lts

lemma exec_singleton (L : Lts σ α) (s : σ) (a : α) : L.exec s [a] = L.step s a :=
  Option.bind_fun_some _

/-- Every step of `L` is matched by steps of `M` that keep the states related. The labels of the
matching steps are among those that `f` allows. -/
structure Simulation (L : Lts σ α) (M : Lts τ β) (R : σ → τ → Prop)
    (f : α → List β → Prop) : Prop where
  init : R L.init M.init
  step : ∀ {s t a s'}, R s t → L.step s a = some s' →
    ∃ bs t', f a bs ∧ M.exec t bs = some t' ∧ R s' t'

namespace Simulation

variable {L : Lts σ α} {M : Lts τ β} {R : σ → τ → Prop} {f : α → List β → Prop}

/-- A run is matched by a run. -/
theorem run (h : Simulation L M R f) {tr : List α} {s : σ} (hrun : L.Run tr s) :
    ∃ bss t, List.Forall₂ f tr bss ∧ M.Run bss.flatten t ∧ R s t := by
  refine hrun.induct (P := fun tr s => ∃ bss t, List.Forall₂ f tr bss ∧ M.Run bss.flatten t ∧
    R s t) ⟨[], M.init, .nil, rfl, h.init⟩ ?_
  rintro tr s a s' - ⟨bss, t, hf, hM, hR⟩ hstep
  obtain ⟨bs, t', hbs, hexec, hR'⟩ := h.step hR hstep
  refine ⟨bss ++ [bs], t', List.rel_append hf (.cons hbs .nil), ?_, hR'⟩
  rw [List.flatten_append, List.flatten_singleton]
  exact run_append.mpr ⟨t, hM, hexec⟩

end Simulation

end Lts

end Kit
