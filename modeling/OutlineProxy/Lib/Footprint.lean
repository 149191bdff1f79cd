import Mathlib.Logic.Basic

/-! Footprints: the part of a state that an operation may write, as a pair of a reading and a
writing function.  Everything that does not depend on that part is kept. -/

namespace OutlineProxy

structure Footprint (σ α : Type) where
  get : σ → α
  set : σ → α → σ
  set_get : ∀ s, set s (get s) = s
  set_set : ∀ s a b, set (set s a) b = set s b

namespace Footprint

variable {σ α β : Type} {fp : Footprint σ α} {s t u : σ}

def Touches (fp : Footprint σ α) (s t : σ) : Prop := t = fp.set s (fp.get t)

theorem Touches.trans (hst : fp.Touches s t) (htu : fp.Touches t u) : fp.Touches s u := by
  have hback : fp.set t (fp.get u) = fp.set (fp.set s (fp.get t)) (fp.get u) := congrArg (fp.set · (fp.get u)) hst
  exact Eq.trans htu (hback.trans (fp.set_set s (fp.get t) (fp.get u)))

theorem Touches.keeps {f : σ → β} (hf : ∀ s a, f (fp.set s a) = f s) (h : fp.Touches s t) : f t = f s := by
  rw [h]
  exact hf s _

end Footprint

end OutlineProxy
