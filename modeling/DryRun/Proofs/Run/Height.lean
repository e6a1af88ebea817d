import DryRun.Proofs.Run.Receipt

/-!
# The height of a run

A run looks at the chain as it was at one height, which is fixed before the run begins.  So no
question to the node may be about another height, whatever elements of blocks a script makes up and
whatever contracts it calls.

* `Machine.Asks height m m'` — from `m` to `m'` the node was only asked about that height.
* `Machine.Step.asks` — every step asks about the height of the run only.
* `requests_within_height` — so every request of a run is about the height of the run.

That the index of a block is compared with the height before its hash is asked for is part of what
makes the calls keep `Asks` (`Exec.keeps_popBlockHash`).
-/

set_option autoImplicit false

namespace DryRun

open Machine (GrantBlind Outward QueryBlind Step StoreBlind)

namespace Machine

variable {height : Nat} {m m' : Machine World}

/-- From `m` to `m'` requests were sent, and all of them are about the chain as it was at a
height. -/
def Asks (height : Nat) (m m' : Machine World) : Prop :=
  ∃ asked, m'.world.link.sent = asked ++ m.world.link.sent ∧
    ∀ request ∈ asked, request.query.Within height

theorem Asks.of_link (h : m'.world.link = m.world.link) : Asks height m m' :=
  ⟨[], by rw [h, List.nil_append], fun _ mem => absurd mem List.not_mem_nil⟩

instance : Outward (Asks height) where
  trans := by
    rintro a b c ⟨first, hb, within⟩ ⟨second, hc, within'⟩
    refine ⟨second ++ first, by rw [hc, hb, List.append_assoc], fun request mem => ?_⟩
    rcases List.mem_append.1 mem with later | earlier
    · exact within' request later
    · exact within request earlier
  of_same world _ := .of_link (by rw [world])

instance : StoreBlind (Asks height) where
  announced _ := Exec.keeps_modify fun _ => .of_link rfl
  evolved _ _ _ := .of_link rfl
  stored _ _ := .of_link rfl
  deployed _ _ _ _ := .of_link rfl
  destroyed _ _ := .of_link rfl

instance : GrantBlind (Asks height) := ⟨fun _ _ => .of_link rfl⟩

/-- A question sends one request, whether or not there is an answer. -/
instance : QueryBlind height (Asks height) where
  asked node query read within m := by
    rw [Exec.wp, Exec.asking_eq, Node.query_eq]
    have asks (w : World) (h : w.link = m.world.link.asked query) :
        Asks height m { m with world := w } := by
      refine ⟨[⟨m.world.link.count + 1, query⟩], by rw [h]; rfl, fun request mem => ?_⟩
      cases List.mem_singleton.1 mem
      exact within
    cases node.outcome ⟨m.world.link.count + 1, query⟩ read with
    | ok a => exact asks _ rfl
    | error e => exact asks _ rfl

/-- **Every step** asks the node about the height of the run only. -/
theorem Step.asks {setting : Setting} {limit : GasLimit}
    (step : Step (setting.host limit) m m') : Asks setting.height m m' :=
  step.keeps (fun name => Exec.keeps_findCallee name) (Syscall.keeps_run_all setting)

theorem asks_runFor (setting : Setting) (limit : GasLimit) (m : Machine World) (n : Nat) :
    Asks setting.height m (m.runFor (setting.host limit) n) :=
  runFor_invariant _ (fun _ asks => Outward.trans asks (step_spec _ _).asks) (.of_link rfl) n

end Machine

/-- **Every request of a run is about its height**: it asks for the hash of a block that is not
above that height, or it carries exactly that height.  This is so in every state of the run, and
the state after `p.steps` steps is the one in which it ends. -/
theorem requests_within_height (p : Prepared) (node : Node) (link : Link) (n : Nat) :
    ∃ asked, (p.state node link n).world.link.sent = asked ++ link.sent ∧
      ∀ request ∈ asked,
        (∃ index ≤ p.height, request.query = .hashAt index) ∨
          request.query.params.field? "Height" = some (.int p.height) := by
  obtain ⟨asked, sent, within⟩ :=
    Machine.asks_runFor (p.setting node) p.configuration.gasLimit (p.start link) n
  exact ⟨asked, sent, fun request mem => (within request mem).symm⟩

end DryRun
