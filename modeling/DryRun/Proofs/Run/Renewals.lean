import DryRun.Proofs.Syscall.Objects

/-!
# Renewals in a run

A script gets at an asset through an object, and a renewal changes that object: it does nothing to
the chain, nor to other objects.  Whoever asks for the asset once more gets a new object with what
the node has, which no renewal has changed.  So renewals add up if they are made through the same
object, whatever is done in between, and if they are made through different ones they do not.

* `Asset.renew_renew` — renewing an asset twice is renewing it for all the years at once.
* `Machine.Step.asset` — what a step makes of an asset.
* `renewals_add_up` — what a run makes of it.
-/

set_option autoImplicit false

namespace DryRun

open Machine (Begins OnlyItems Step)

/-! ## Renewing assets -/

namespace Asset

variable (a : Asset) (height : Nat)

/-- **The end of a renewed registration** counts from the next block at least and does not pass the
greatest height. -/
theorem renewedExpiration_eq (expiration years : Nat) :
    renewedExpiration expiration height years =
      min (max expiration (height + 1) + years * 2000000) (2 ^ 32 - 1) := by
  rw [renewedExpiration, maxHeight, blocksPerYear]
  rfl

theorem expiration_renew (years : Nat) : (a.renew height years).expiration.toNat =
    renewedExpiration a.expiration.toNat height years := by
  have inside : renewedExpiration a.expiration.toNat height years < UInt32.size := by
    rw [renewedExpiration_eq]
    exact Nat.lt_of_le_of_lt (Nat.min_le_right _ _) (by decide)
  exact UInt32.toNat_ofNat_of_lt inside

/-- **Renewing twice** is renewing for all the years at once. -/
theorem renew_renew (years more : Nat) :
    (a.renew height years).renew height more = a.renew height (years + more) := by
  have same : renewedExpiration (a.renew height years).expiration.toNat height more =
      renewedExpiration a.expiration.toNat height (years + more) := by
    rw [expiration_renew, renewedExpiration_eq, renewedExpiration_eq, renewedExpiration_eq]
    omega
  -- the fields are taken apart since comparing whole assets computes with heights
  cases a
  rw [renew, same]
  rfl

/-- A renewal does not shorten a registration. -/
theorem expiration_le_renew (years : Nat) :
    a.expiration.toNat ≤ (a.renew height years).expiration.toNat := by
  have inside := a.expiration.toNat_lt
  rw [expiration_renew, renewedExpiration_eq]
  omega

/-- The asset after some renewals. -/
def renewEach (years : List Nat) : Asset := years.foldl (·.renew height ·) a

theorem renewEach_append (years more : List Nat) :
    a.renewEach height (years ++ more) = (a.renewEach height years).renewEach height more :=
  List.foldl_append

/-- **Renewals add up.** -/
theorem renewEach_eq {years : List Nat} (some : years ≠ []) :
    a.renewEach height years = a.renew height years.sum := by
  induction years generalizing a with
  | nil => exact absurd rfl some
  | cons first rest ih =>
    show (a.renew height first).renewEach height rest = _
    cases rest with
    | nil => rfl
    | cons second rest => rw [ih _ (List.cons_ne_nil _ _), renew_renew, ← List.sum_cons]

theorem expiration_le_renewEach (years : List Nat) :
    a.expiration.toNat ≤ (a.renewEach height years).expiration.toNat := by
  induction years generalizing a with
  | nil => exact Nat.le_refl _
  | cons first rest ih => exact Nat.le_trans (a.expiration_le_renew height first) (ih _)

end Asset

/-! ## One step -/

section

variable {setting : Setting} {limit : GasLimit} {m m₁ m₂ m' : Machine World} {id : Nat}

/-- For how many years an object is renewed in the next step. -/
def Machine.renewedYears (setting : Setting) (limit : GasLimit) (m : Machine World) (id : Nat) :
    List Nat :=
  match m.renewal? setting limit with
  | some (other, years) => if other = id then [years] else []
  | none => []

/-- **What a step makes of an asset** is what is renewed in it. -/
theorem Machine.Step.asset (step : Step (setting.host limit) m m') {a : Asset}
    (there : m.heap.objects[id]? = some (.asset a)) : m'.heap.objects[id]? =
      some (.asset (a.renewEach setting.height (m.renewedYears setting limit id))) := by
  rw [renewedYears]
  cases step.touches with
  | quiet _ lasts quiet =>
    rw [lasts]
    exact quiet.old id _ there
  | makes _ lasts gains =>
    rw [lasts, gains.objects, Array.getElem?_push,
      if_neg (Nat.ne_of_lt (Array.getElem?_eq_some_iff.1 there).1)]
    exact there
  | moves _ lasts _ heap _ =>
    rw [lasts, heap]
    exact Heap.objects_advanceWithin (fun _ same => by cases same) _ _ _ there
  | @renews other years asset _ _ renewal _ renewed heap _ =>
    rw [renewal, heap]
    show (m.heap.objects.setIfInBounds other _)[id]? = some (.asset (a.renewEach setting.height
      (if other = id then [years] else [])))
    split
    · next same =>
      subst same
      cases there.symm.trans renewed
      rw [Array.getElem?_setIfInBounds_self, if_pos (Array.getElem?_eq_some_iff.1 there).1]
      rfl
    · next different =>
      rw [Array.getElem?_setIfInBounds_ne different]
      exact there

/-- A renewal says how long the asset lasts then. -/
theorem Machine.Step.renewed (step : Step (setting.host limit) m m') {years : Nat}
    (renewal : m.renewal? setting limit = some (id, years)) : years ≤ 255 ∧ ∃ a rest,
      m.heap.objects[id]? = some (.asset a) ∧
      m'.heap.objects[id]? = some (.asset (a.renew setting.height years)) ∧
      m'.stack.items = .ofInt (a.renew setting.height years).expiration.toNat :: rest := by
  cases step.touches with
  | quiet _ lasts | makes _ lasts | moves _ lasts => cases lasts.symm.trans renewal
  | renews _ renewal' few there heap items =>
    cases renewal.symm.trans renewal'
    refine ⟨few, _, _, there, ?_, items⟩
    rw [heap]
    show (m.heap.objects.setIfInBounds _ _)[_]? = _
    rw [Array.getElem?_setIfInBounds_self, if_pos (Array.getElem?_eq_some_iff.1 there).1]

open Exec in
/-- **An asset that is fetched** is a new object with what the node has. -/
theorem Machine.Step.fetched (step : Step (setting.host limit) m m') {hash : Bytes} {a : Asset}
    {link : Link} (made : m.call? setting limit = some (.blockchain .getAsset, m₁))
    (popped : popHash Reader.hash256Size m₁ = .ok hash m₂)
    (answer : setting.node.asset hash setting.height m.world.link = .ok (some a) link) :
    m'.heap.objects = m.heap.objects.push (.asset a) ∧
      m'.stack.items = .handle ⟨m.heap.objects.size, []⟩ :: m₂.stack.items := by
  have begins := begins_of_call? made
  have items : OnlyItems m₁ m₂ := (keeps_popHash _).ok popped
  have fetches : blockchain setting .getAsset m₁ =
      pushObject (.asset a) { m₂ with world := { m₂.world with link } } := by
    rw [← begins.world, ← items.world] at answer
    rw [blockchain, bind_eq, popped]
    dsimp only
    rw [bind_eq, asking_eq, answer]
    rfl
  refine step.of_call? made (P := fun m' => m'.heap.objects = m.heap.objects.push (.asset a) ∧
    m'.stack.items = .handle ⟨m.heap.objects.size, []⟩ :: m₂.stack.items) ?_ fun _ _ h => h
  show wp (blockchain setting .getAsset) _ _ m₁
  rw [wp, fetches, ← begins.heap, ← items.objects]
  exact ⟨rfl, rfl⟩

end

/-! ## In every run -/

section

variable (setting : Setting) (limit : GasLimit) (run : Nat → Machine World)

/-- For how many years an object is renewed in some steps from a time on, renewal by renewal. -/
def renewals (id t : Nat) : Nat → List Nat
  | 0 => []
  | n + 1 => renewals id t n ++ (run (t + n)).renewedYears setting limit id

/-- **Renewals of an object add up**, and do nothing to others. -/
structure RenewalsAddUp : Prop where
  /-- An asset that is not renewed stays what it is. -/
  stays : ∀ (t n id : Nat) a, (run t).heap.objects[id]? = some (.asset a) →
    renewals setting limit run id t n = [] →
    (run (t + n)).heap.objects[id]? = some (.asset a)
  /-- One that is renewed is renewed for all the years. -/
  addsUp : ∀ (t n id : Nat) a, (run t).heap.objects[id]? = some (.asset a) →
    renewals setting limit run id t n ≠ [] →
    (run (t + n)).heap.objects[id]? =
      some (.asset (a.renew setting.height (renewals setting limit run id t n).sum))
  /-- A renewal says when the registration ends, after this renewal and all that came before. -/
  answers : ∀ (t n id : Nat) (a : Asset) years, (run t).heap.objects[id]? = some (.asset a) →
    (run (t + n)).renewal? setting limit = some (id, years) → years ≤ 255 ∧
      ∃ rest, (run (t + n + 1)).stack.items = .ofInt (min (max a.expiration.toNat
        (setting.height + 1) + ((renewals setting limit run id t n).sum + years) * 2000000)
        (2 ^ 32 - 1) : Nat) :: rest
  /-- The end is never put forward. -/
  grows : ∀ (t n id : Nat) (a : Asset), (run t).heap.objects[id]? = some (.asset a) →
    ∃ a' : Asset, (run (t + n)).heap.objects[id]? = some (.asset a') ∧
      a.expiration.toNat ≤ a'.expiration.toNat
  /-- An asset that is fetched is a new object with what the node has, whatever was renewed
  before. -/
  fetched : ∀ k m₁ m₂ hash a link,
    (run k).call? setting limit = some (.blockchain .getAsset, m₁) →
    Exec.popHash Reader.hash256Size m₁ = .ok hash m₂ →
    setting.node.asset hash setting.height (run k).world.link = .ok (some a) link →
    (run (k + 1)).heap.objects = (run k).heap.objects.push (.asset a) ∧
      (run (k + 1)).stack.items = .handle ⟨(run k).heap.objects.size, []⟩ :: m₂.stack.items

end

section

variable {setting : Setting} {limit : GasLimit} {run : Nat → Machine World}
  (steps : ∀ k, Step (setting.host limit) (run k) (run (k + 1)))

include steps

/-- **What a run makes of an asset.** -/
theorem asset_of_steps {t id : Nat} {a : Asset}
    (there : (run t).heap.objects[id]? = some (.asset a)) (n : Nat) :
    (run (t + n)).heap.objects[id]? =
      some (.asset (a.renewEach setting.height (renewals setting limit run id t n))) := by
  induction n with
  | zero => exact there
  | succ n ih =>
    rw [renewals, Asset.renewEach_append]
    exact (steps (t + n)).asset ih

theorem renewalsAddUp_of_steps : RenewalsAddUp setting limit run where
  stays t n id a there none := by
    rw [asset_of_steps steps there n, none]
    rfl
  addsUp t n id a there some := by
    rw [asset_of_steps steps there n, Asset.renewEach_eq _ _ some]
  answers t n id a years there renewal := by
    obtain ⟨few, a', rest, before, -, items⟩ := (steps (t + n)).renewed renewal
    cases before.symm.trans (asset_of_steps steps there n)
    refine ⟨few, rest, ?_⟩
    have again : (a.renewEach setting.height (renewals setting limit run id t n)).renew
        setting.height years =
          a.renew setting.height ((renewals setting limit run id t n).sum + years) := by
      have all := Asset.renewEach_eq a setting.height
        (List.append_ne_nil_of_right_ne_nil (renewals setting limit run id t n)
          (List.cons_ne_nil years []))
      rw [Asset.renewEach_append, List.sum_append, List.sum_singleton] at all
      exact all
    rw [items, again, Asset.expiration_renew, Asset.renewedExpiration_eq]
  grows t n id a there :=
    ⟨_, asset_of_steps steps there n, Asset.expiration_le_renewEach _ _ _⟩
  fetched k _ _ _ _ _ made popped answer := (steps k).fetched made popped answer

end

/-- **In every run** renewals of one object add up, and an asset that is fetched once more is as the
node has it. -/
theorem renewals_add_up (setting : Setting) (limit : GasLimit) (start : Machine World) :
    RenewalsAddUp setting limit (start.runFor (setting.host limit)) :=
  renewalsAddUp_of_steps (Machine.step_runFor _ _)

end DryRun
