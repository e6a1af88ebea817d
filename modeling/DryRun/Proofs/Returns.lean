/-!
# What a computation returns

`Returns P c` says that every value the computation `c` succeeds with satisfies `P`, wherever it
starts.  Readers, conversations with the node and computations on the machine are all of the same
kind, so one set of rules serves them all.
-/

set_option autoImplicit false

namespace DryRun

variable {ε σ α β : Type}

/-- Every value that a computation succeeds with satisfies `P`. -/
def Returns (P : α → Prop) (c : EStateM ε σ α) : Prop :=
  ∀ s a s', c s = .ok a s' → P a

namespace Returns

variable {P : α → Prop} {Q : β → Prop} {c d : EStateM ε σ α}

theorem of_forall (h : ∀ a, P a) (c : EStateM ε σ α) : Returns P c := fun _ a _ _ => h a

theorem pure {a : α} (h : P a) : Returns P (Pure.pure a : EStateM ε σ α) := by
  intro s b s' he
  cases he
  exact h

theorem throw (e : ε) : Returns P (MonadExcept.throw e : EStateM ε σ α) := by
  intro s b s' he
  cases he

theorem bind {f : α → EStateM ε σ β} (hc : Returns P c) (hf : ∀ a, P a → Returns Q (f a)) :
    Returns Q (c >>= f) := by
  intro s b s' he
  simp only [Bind.bind, EStateM.bind] at he
  split at he
  · next a middle ha => exact hf a (hc _ _ _ ha) _ _ _ he
  · cases he

/-- The first part does not matter for what the second returns. -/
theorem bind_right {f : α → EStateM ε σ β} (hf : ∀ a, Returns Q (f a)) : Returns Q (c >>= f) :=
  (of_forall (P := fun _ => True) (fun _ => trivial) c).bind fun a _ => hf a

/-- Behind a check that fails where `p` holds, `p` does not hold. -/
theorem guarded {p : Prop} [Decidable p] {e : ε} {f : Unit → EStateM ε σ β}
    (hf : ¬p → Returns Q (f ())) : Returns Q (if p then MonadExcept.throw e >>= f else f ()) := by
  split
  · exact (throw (P := fun _ => False) e).bind fun _ h => h.elim
  · next h => exact hf h

theorem map {f : α → β} (hc : Returns (fun a => Q (f a)) c) : Returns Q (f <$> c) := by
  rw [map_eq_pure_bind]
  exact hc.bind fun _ h => pure h

theorem mono {P' : α → Prop} (hc : Returns P c) (h : ∀ a, P a → P' a) : Returns P' c :=
  fun _ _ _ he => h _ (hc _ _ _ he)

end Returns

end DryRun
