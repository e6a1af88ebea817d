import DryRun.Proofs.Run.Receipt
import DryRun.Proofs.Syscall.Commutes

/-!
# Runs are independent of each other

A run that was prepared can be made any number of times in one conversation with the node.  Each
run gets a fresh world, but the conversation goes on, so its requests have later numbers.  If the
node answers without regard to the numbers, that is the only trace of the runs before.

In terms of `World.after` this is one equation: a run in the middle of a conversation is the run in
a conversation that has not begun, with the conversation put in front (`Prepared.run_after`).  Two
runs that are made after different conversations are therefore the same up to the conversation,
step by step (`Machine.Repeats`), and `runs_are_independent` says so of the runs that are made one
after another.
-/

set_option autoImplicit false

namespace DryRun

/-- Two machines are the same but for the conversations with the node, which began with `base` and
`base'` and in which the same has been asked since. -/
structure Machine.Repeats (base base' : Link) (m m' : Machine World) : Prop where
  /-- The frames. -/
  frames : m'.frames = m.frames
  /-- The evaluation stack. -/
  stack : m'.stack = m.stack
  /-- The alternative stack. -/
  alt : m'.alt = m.alt
  /-- The collections and objects, among them iterators and assets that were renewed. -/
  heap : m'.heap = m.heap
  /-- The gas. -/
  gas : m'.gas = m.gas
  /-- How far the run has come, and the fault if it has failed. -/
  status : m'.status = m.status
  /-- What was written into storage. -/
  storage : m'.world.storage = m.world.storage
  /-- What was deployed and destroyed. -/
  contracts : m'.world.contracts = m.world.contracts
  /-- What was announced. -/
  events : m'.world.events = m.world.events
  /-- The requests since then have the same questions in the same order. -/
  requests : ∃ sent sent' : List Request, m.world.link.sent = sent ++ base.sent ∧
    m'.world.link.sent = sent' ++ base'.sent ∧ sent'.map (·.query) = sent.map (·.query)

theorem Machine.Repeats.receipt {base base' : Link} {m m' : Machine World}
    (h : Repeats base base' m m') (script : Bytes) : m'.receipt script = m.receipt script := by
  rw [Machine.receipt, Machine.receipt, Machine.parameters, Machine.parameters, h.status, h.gas,
    h.stack, h.heap]

/-- The same machine with two conversations in front. -/
theorem Machine.repeats_mapWorld (base base' : Link) (m : Machine World) :
    Repeats base base' (m.mapWorld (World.after base)) (m.mapWorld (World.after base')) where
  frames := rfl
  stack := rfl
  alt := rfl
  heap := rfl
  gas := rfl
  status := rfl
  storage := rfl
  contracts := rfl
  events := rfl
  requests := by
    refine ⟨_, _, rfl, rfl, ?_⟩
    rw [List.map_map, List.map_map]
    rfl

namespace Prepared

variable (p : Prepared)

/-- What two runs have in common that are made after different conversations. -/
structure SameRuns (node : Node) (base base' : Link) : Prop where
  /-- They are in the same state after the same number of steps. -/
  states : ∀ n, (p.state node base n).Repeats base base' (p.state node base' n)
  /-- They end in the same state. -/
  ends : (p.run node base).Repeats base base' (p.run node base')
  /-- They leave the same receipt. -/
  receipt : (p.run node base').receipt p.configuration.script =
    (p.run node base).receipt p.configuration.script

/-- What a conversation has come to after some runs, made one after another. -/
def linkAfter (node : Node) (link : Link) : Nat → Link
  | 0 => link
  | runs + 1 => (p.run node (linkAfter node link runs)).world.link

variable {node : Node}

/-- A run begins in a fresh world, whatever was asked before. -/
theorem start_after (base : Link) :
    p.start base = (p.start .fresh).mapWorld (World.after base) := rfl

/-- **A run in the middle of a conversation** is the run in one that has not begun, with the
conversation in front. -/
theorem state_after (ignores : node.IgnoresNumbers) (base : Link) (n : Nat) :
    p.state node base n = (p.state node .fresh n).mapWorld (World.after base) := by
  rw [state, start_after]
  exact Machine.runFor_mapWorld ((p.setting node).host_commutes ignores base _) n _

theorem sameRuns (ignores : node.IgnoresNumbers) (base base' : Link) :
    p.SameRuns node base base' := by
  have states (n : Nat) : (p.state node base n).Repeats base base' (p.state node base' n) := by
    rw [p.state_after ignores base, p.state_after ignores base']
    exact Machine.repeats_mapWorld base base' _
  exact ⟨states, states p.steps, (states p.steps).receipt _⟩

end Prepared

/-- **Runs are independent of each other.**  Of the runs that are made one after another in one
conversation, any two are the same up to the numbers of their requests, and each is the same as a
run before which nothing was asked at all. -/
theorem runs_are_independent (p : Prepared) (node : Node) (ignores : node.IgnoresNumbers)
    (link : Link) (i j : Nat) :
    p.SameRuns node (p.linkAfter node link i) (p.linkAfter node link j) ∧
      p.SameRuns node (p.linkAfter node link i) .fresh :=
  ⟨p.sameRuns ignores _ _, p.sameRuns ignores _ _⟩

/-- A script that asks for the time, twice, at a node that gives no answer but always the same
reason. -/
theorem runs_are_independent_without_answers :
    let node : Node := fun request => .unavailable (.ofString request.query.method)
    let p : Prepared :=
      { configuration :=
          { script := 0x68 :: 22 :: Utf8.encode "System.Runtime.GetTime", gasLimit := .units 500
            witnesses := .empty, timeout := Settings.defaultTimeout
            logLevel := .ofString Settings.defaultLogLevel }
        height := 0 }
    node.IgnoresNumbers ∧ p.SameRuns node (p.linkAfter node .fresh 0) (p.linkAfter node .fresh 1) ∧
      p.SameRuns node (p.linkAfter node .fresh 0) .fresh := by
  intro node p
  have ignores : node.IgnoresNumbers := fun _ _ method _ =>
    congrArg (fun method => Reply.unavailable (.ofString method)) method
  exact ⟨ignores, runs_are_independent p node ignores .fresh 0 1⟩

end DryRun
