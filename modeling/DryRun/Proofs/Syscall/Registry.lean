import DryRun.Proofs.Table
import DryRun.Syscall
import Mathlib.Data.List.Nodup

/-!
# What the registry holds

The registry is filled from `Syscall.methods`, so every entry that is found in it is a row of that
table under one of its names (`Syscall.mem_methods_of_find?`).  Nothing is computed for this: which
number a name has does not matter, and neither does whether a registration has failed half-way.
-/

set_option autoImplicit false

namespace DryRun

variable {η α β : Type} {P : Registry η → Prop}

namespace Registry

/-- However a registration ends, it leaves a registry in `P` if it began with one. -/
def Maintains (P : Registry η → Prop) (c : EStateM RegistryFault (Registry η) α) : Prop :=
  ∀ registry, P registry →
    match c registry with
    | .ok _ registry' => P registry'
    | .error _ registry' => P registry'

theorem Maintains.bind {c : EStateM RegistryFault (Registry η) α}
    {f : α → EStateM RegistryFault (Registry η) β} (hc : Maintains P c)
    (hf : ∀ a, Maintains P (f a)) : Maintains P (c >>= f) := by
  intro registry h
  have first := hc registry h
  simp only [Bind.bind, EStateM.bind]
  cases outcome : c registry with
  | ok a registry' =>
    rw [outcome] at first
    exact hf a registry' first
  | error fault registry' =>
    rw [outcome] at first
    exact first

theorem Maintains.forM {γ : Type} {f : γ → EStateM RegistryFault (Registry η) PUnit} :
    ∀ l : List γ, (∀ x ∈ l, Maintains P (f x)) → Maintains P (l.forM f)
  | [], _ => fun _ h => h
  | x :: l, hf => (hf x List.mem_cons_self).bind fun _ =>
      Maintains.forM l fun y mem => hf y (List.mem_cons_of_mem x mem)

/-- All entries of the registry satisfy `P`. -/
def All (P : SyscallEntry η → Prop) (registry : Registry η) : Prop :=
  ∀ entry ∈ registry.rows, P entry

theorem All.of_find? {P : SyscallEntry η → Prop} {registry : Registry η} (all : All P registry)
    {id : Nat} {entry : SyscallEntry η} (found : registry.find? id = some entry) : P entry :=
  all entry (List.mem_of_find?_eq_some found)

theorem maintains_registerIn {P : SyscallEntry η → Prop} {method : String} {handler : η}
    {price : Option Int} {space : NameSpace} (h : ∀ id, P ⟨space, method, id, price, handler⟩) :
    Maintains (All P) (registerIn method handler price space) := by
  rw [registerIn]
  dsimp only
  cases idOf (space.name method) with
  | error fault => exact fun registry all => all
  | ok id =>
    refine Maintains.bind (fun registry all => all) fun registry => ?_
    have insert : Maintains (All P)
        (modify fun registry => Table.insert registry ⟨space, method, id, price, handler⟩) :=
      fun registry all => Table.forall_mem_place (h id) all
    split
    · exact Maintains.bind (fun registry all => all) fun _ => insert
    · exact insert

theorem all_filledBy {P : SyscallEntry η → Prop}
    {registration : EStateM RegistryFault (Registry η) Unit}
    (h : Maintains (All P) registration) : All P (filledBy registration) := by
  have all := h .empty fun _ mem => absurd mem List.not_mem_nil
  rw [filledBy, EStateM.run]
  cases outcome : registration .empty with
  | ok u registry =>
    rw [outcome] at all
    exact all
  | error fault registry =>
    rw [outcome] at all
    exact all

end Registry

namespace Syscall

open Registry (All Maintains maintains_registerIn)

/-- The entry is a row of the table of methods. -/
def IsListed (entry : SyscallEntry Syscall) : Prop :=
  ∃ spaces, (entry.method, entry.handler, entry.price, spaces) ∈ methods

theorem all_isListed : All IsListed registry := by
  rw [registry]
  refine Registry.all_filledBy (Maintains.forM _ fun row mem => Maintains.forM _ fun space _ => ?_)
  exact maintains_registerIn fun id => ⟨row.2.2.2, mem⟩

/-- **What the registry finds is listed.** -/
theorem isListed_of_find? {id : Nat} {entry : SyscallEntry Syscall}
    (h : registry.find? id = some entry) : IsListed entry :=
  all_isListed.of_find? h

theorem nodup_methods : (methods.map Prod.fst).Nodup := by decide +kernel

/-- The name of a method says what is to be done and what it costs. -/
theorem IsListed.eq_of_mem {entry : SyscallEntry Syscall} (listed : IsListed entry)
    {call : Syscall} {price : Option Int} {spaces : List NameSpace}
    (row : (entry.method, call, price, spaces) ∈ methods) :
    entry.handler = call ∧ entry.price = price := by
  obtain ⟨spaces', row'⟩ := listed
  have same := List.inj_on_of_nodup_map nodup_methods row' row rfl
  simp only [Prod.mk.injEq] at same
  exact ⟨same.2.1, same.2.2.1⟩

end Syscall

end DryRun
