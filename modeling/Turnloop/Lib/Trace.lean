import Mathlib.Tactic

/-! Traces of a labelled step relation. -/

namespace Turnloop.Lib

open List

variable {σ ℓ : Type} {step : σ → List ℓ → σ → Prop}

inductive Trace (step : σ → List ℓ → σ → Prop) : σ → List ℓ → σ → Prop where
  | nil {s : σ} : Trace step s [] s
  | cons {s t u : σ} {ls ms : List ℓ} (first : step s ls t) (rest : Trace step t ms u) : Trace step s (ls ++ ms) u

namespace Trace

variable {s t u : σ} {ls ms : List ℓ}

lemma single (h : step s ls t) : Trace step s ls t := by
  have hr := Trace.cons h .nil
  rwa [append_nil] at hr

lemma trans (h : Trace step s ls t) (h' : Trace step t ms u) : Trace step s (ls ++ ms) u := by
  induction h with
  | nil => exact h'
  | cons first rest ih =>
    rw [append_assoc]
    exact .cons first (ih h')

lemma keeps {P : σ → Prop} (h : Trace step s ls t) (hp : ∀ {ms s t}, P s → step s ms t → P t) (hs : P s) : P t := by
  induction h with
  | nil => exact hs
  | cons first rest ih => exact ih (hp hs first)

lemma rule {P : List ℓ → σ → Prop} (h : Trace step s ms t) (hp : ∀ {ls ms s t}, P ls s → step s ms t → P (ls ++ ms) t)
    (hs : P ls s) : P (ls ++ ms) t := by
  induction h generalizing ls with
  | nil => rwa [append_nil]
  | cons first rest ih =>
    rw [← append_assoc]
    exact ih (hp hs first)

lemma invariant {P : List ℓ → σ → Prop} (h : Trace step s ms t)
    (hp : ∀ {ls ms s t}, P ls s → step s ms t → P (ls ++ ms) t)
    (hs : P [] s) : P ms t := h.rule hp hs

end Trace

end Turnloop.Lib
