import Mathlib.Data.List.Basic

/-! Runs of a machine that takes one labelled step after another, each allowed in the state it is
taken in. -/

namespace OutlineProxy.Runs

variable {σ ι : Type*} {step : σ → ι → Option σ} {allowed : σ → ι → Prop} {start s : σ} {labels : List ι}

inductive Run (step : σ → ι → Option σ) (allowed : σ → ι → Prop) (start : σ) : List ι → σ → Prop
  | refl : Run step allowed start [] start
  | snoc {labels : List ι} {s next : σ} {label : ι} : Run step allowed start labels s →
      allowed s label → step s label = some next → Run step allowed start (labels ++ [label]) next

theorem Run.invariant (h : Run step allowed start labels s) {P : List ι → σ → Prop} (hstart : P [] start)
    (hstep : ∀ labels s label next, P labels s → allowed s label → step s label = some next →
      P (labels ++ [label]) next) : P labels s := by
  induction h with
  | refl => exact hstart
  | snoc _ hallowed hnext ih => exact hstep _ _ _ _ ih hallowed hnext

theorem forall_mem_snoc {P : ι → Prop} {label : ι} (h : ∀ x ∈ labels, P x) (hlabel : P label) :
    ∀ x ∈ labels ++ [label], P x :=
  List.forall_mem_append.mpr ⟨h, List.forall_mem_singleton.mpr hlabel⟩

theorem forall_mem_set {P : ι → Prop} {label : ι} (h : ∀ x ∈ labels, P x) (i : Nat) (hlabel : P label) :
    ∀ x ∈ labels.set i label, P x := by
  intro x hx
  rcases List.mem_or_eq_of_mem_set hx with hx | rfl
  · exact h x hx
  · exact hlabel

theorem run_append (h : Run step allowed start labels s) {more : List ι} {next : σ}
    [∀ s label, Decidable (allowed s label)]
    (hrun : more.foldlM (fun s label => if allowed s label then step s label else none) s = some next) :
    Run step allowed start (labels ++ more) next := by
  induction more generalizing labels s with
  | nil =>
    cases hrun
    rwa [List.append_nil]
  | cons label more ih =>
    rw [List.foldlM_cons] at hrun
    obtain ⟨middle, hmiddle, hrest⟩ := Option.bind_eq_some_iff.mp hrun
    by_cases hallowed : allowed s label
    · rw [if_pos hallowed] at hmiddle
      rw [List.append_cons]
      exact ih (h.snoc hallowed hmiddle) hrest
    · rw [if_neg hallowed] at hmiddle
      cases hmiddle

theorem run_of_foldlM [∀ s label, Decidable (allowed s label)]
    (hrun : labels.foldlM (fun s label => if allowed s label then step s label else none) start = some s) :
    Run step allowed start labels s :=
  run_append .refl hrun

theorem exists_run [∀ s label, Decidable (allowed s label)] {P : σ → Prop}
    (hrun : labels.foldlM (fun s label => if allowed s label then step s label else none) start = some s)
    (h : Run step allowed start labels s → P s) : ∃ s, Run step allowed start labels s ∧ P s :=
  ⟨s, run_of_foldlM hrun, h (run_of_foldlM hrun)⟩

end OutlineProxy.Runs
