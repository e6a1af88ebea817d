import DryRun.Proofs.Machine.Shuffle
import DryRun.Proofs.Run.Receipt

/-!
# Runs that halt without a receipt

A run leaves no receipt if an item that it leaves is nested too deep to be shown.  However deep a
host can nest calls, there is a script for which this happens: it packs what lies on the stack into
an array, again and again.  Two bytes and a thousandth of a unit of gas are enough for each array.

* `Packing.At` — where a machine stands in this script, and what it has packed so far.
* `Packing.At.again` — in two steps an array is packed into another one.
* `Packing.halts_without_receipt` — the run halts with one item that is not recursive, and there is
  no receipt.
-/

set_option autoImplicit false

namespace DryRun

namespace Packing

/-- `times` times, what lies on the stack is packed into an array. -/
def packs (times : Nat) : Bytes := (List.replicate times [0x51, 0xC1]).flatten

/-- The number one is pushed and packed `times` times. -/
def script (times : Nat) : Bytes := 0x51 :: packs times

/-- What has been packed `k` times. -/
def item : (k : Nat) → Item
  | 0 => .ofInt 1
  | k + 1 => .seq ⟨.array, k⟩

/-- The heap after `k` times. -/
def heap : (k : Nat) → Heap
  | 0 => .empty
  | k + 1 => ((heap k).makeSequence .array [item k]).1

variable {k n times : Nat}

/-! ## What has been packed -/

theorem sequenceCount_heap (n : Nat) : (heap n).sequenceCount .array = n := by
  induction n with
  | zero => rfl
  | succ n ih => rw [heap, Heap.sequenceCount_makeSequence, ih]; simp

/-- Each array stays as it was made. -/
theorem elements_heap (h : k < n) : (heap n).elements ⟨.array, k⟩ = [item k] := by
  induction n with
  | zero => exact absurd h (Nat.not_lt_zero k)
  | succ n ih =>
    rw [heap, Heap.elements_makeSequence, sequenceCount_heap]
    rcases Nat.lt_succ_iff_lt_or_eq.1 h with before | rfl
    · rw [if_neg (by simp [before.ne]), ih before]
    · rw [if_pos rfl]

theorem deep_item (h : k ≤ n) : (heap n).Deep k (item k) := by
  induction k with
  | zero => exact .here _
  | succ k ih =>
    refine .inside (.element ?_) (ih (Nat.le_of_succ_le h))
    rw [elements_heap h]
    exact List.mem_singleton_self _

theorem not_recursive_item (h : k ≤ n) : ¬(heap n).Recursive (item k) := by
  refine Heap.not_recursive_of_acc ?_
  induction k with
  | zero => exact .intro _ fun part holds => by cases holds
  | succ k ih =>
    refine .intro _ fun part holds => ?_
    cases holds with
    | element mem =>
      rw [elements_heap h] at mem
      rw [List.mem_singleton.1 mem]
      exact ih (Nat.le_of_succ_le h)

/-! ## The script -/

theorem getElem?_packs (h : k < times) :
    (packs times)[2 * k]? = some 0x51 ∧ (packs times)[2 * k + 1]? = some 0xC1 := by
  induction times generalizing k with
  | zero => exact absurd h (Nat.not_lt_zero k)
  | succ times ih =>
    have first : packs (times + 1) = 0x51 :: 0xC1 :: packs times := by
      simp [packs, List.replicate_succ]
    rw [first]
    cases k with
    | zero => exact ⟨rfl, rfl⟩
    | succ k => exact ih (Nat.lt_of_succ_lt_succ h)

theorem length_packs (times : Nat) : (packs times).length = 2 * times := by
  simp [packs, Nat.mul_comm]

theorem size_script (times : Nat) : (Script.ofBytes (script times)).size = 2 * times + 1 := by
  rw [Script.size_eq_length, Script.bytes_ofBytes, script, List.length_cons, length_packs]

theorem fetch_start (times : Nat) :
    Instruction.fetch (.ofBytes (script times)) 0 = .ok ⟨0x51, []⟩ 1 := by
  rw [Instruction.fetch, Script.byte?_eq_getElem?, Script.bytes_ofBytes]
  rfl

theorem fetch_one (h : k < times) :
    Instruction.fetch (.ofBytes (script times)) (2 * k + 1) = .ok ⟨0x51, []⟩ (2 * k + 2) := by
  rw [Instruction.fetch, Script.byte?_eq_getElem?, Script.bytes_ofBytes, script,
    List.getElem?_cons_succ, (getElem?_packs h).1]
  rfl

theorem fetch_pack (h : k < times) :
    Instruction.fetch (.ofBytes (script times)) (2 * k + 2) = .ok ⟨0xC1, []⟩ (2 * k + 3) := by
  rw [Instruction.fetch, Script.byte?_eq_getElem?, Script.bytes_ofBytes, script,
    List.getElem?_cons_succ, (getElem?_packs h).2]
  rfl

theorem fetch_end (times : Nat) : Instruction.fetch (.ofBytes (script times)) (2 * times + 1) =
    .ok .impliedReturn (2 * times + 1) := by
  rw [Instruction.fetch, Script.byte?_eq_getElem?, Script.bytes_ofBytes, script,
    List.getElem?_cons_succ, List.getElem?_eq_none (length_packs times).le]

/-! ## The run -/

/-- The limit allows for `times` arrays. -/
def Allowed (limit : GasLimit) (times : Nat) : Prop :=
  limit.amount = 0 ∨ times * 100000 ≤ limit.amount

theorem Allowed.within {limit : GasLimit} {gas : Int} (allowed : Allowed limit times)
    (h : gas ≤ times * 100000) : limit.isExceededBy gas = false := by
  rw [GasLimit.isExceededBy, Bool.and_eq_false_iff, decide_eq_false_iff_not,
    decide_eq_false_iff_not, not_not, Int.not_lt]
  exact allowed.imp_right h.trans

/-- The machine has packed `k` times and goes on at a position of the script. -/
structure At (times k position : Nat) (items : List Item) (gas : Int) (m : Machine World) :
    Prop where
  /-- It is running. -/
  running : m.status = .running
  /-- The script is its only one. -/
  frames : m.frames = [⟨.ofBytes (script times), position, true⟩]
  /-- The items on the evaluation stack are given. -/
  items : m.stack.items = items
  /-- The alternative stack is empty. -/
  alt : m.alt.items = []
  /-- The heap has the arrays that were packed, and nothing else. -/
  heap : m.heap = heap k
  /-- The gas that was consumed is given. -/
  gas : m.gas = gas

namespace At

variable {setting : Setting} {limit : GasLimit} {m m' : Machine World} {items : List Item}
  {k' position next : Nat} {i : Instruction} {gas amount : Int}

theorem ready (h : At times k position items gas m) (next : Nat) (due : Option Int) :
    At times k next items (gas + due.getD 0) (m.ready next due) where
  running := (m.status_ready next due).trans h.running
  frames := m.frames_moveTo next h.frames
  items := by rw [m.stack_ready, h.items]
  alt := by rw [m.alt_ready, h.alt]
  heap := (m.heap_ready next due).trans h.heap
  gas := by rw [m.gas_ready, h.gas]

theorem frames_eq (h : At times k position items gas m) :
    m.frames = ⟨.ofBytes (script times), position, true⟩ :: m.frames.tail := by
  rw [h.frames, List.tail_cons]

theorem depth_le (h : At times k position items gas m) (few : items.length ≤ 2) :
    m.stack.depth + m.alt.depth ≤ Machine.maxStackItems := by
  rw [Stack.depth, Stack.depth, h.items, h.alt]
  exact few.trans (by decide)

/-- An instruction is done that the limit allows. -/
theorem step {items' : List Item} (h : At times k position items gas m)
    (fetched : Instruction.fetch (.ofBytes (script times)) position = .ok i next)
    (inside : position < 2 * times + 1)
    (priced : Price.amount Syscall.registry i (m.moveTo next) = .ok amount)
    (within : limit.isExceededBy (gas + amount) = false)
    (done : Exec.execute (setting.host limit) ⟨.ofBytes (script times), position, true⟩ i
      (m.ready next (some amount)) = .ok () m')
    (after : At times k' next items' (gas + amount) m') (few : items'.length ≤ 2) :
    At times k' next items' (gas + amount) (m.step (setting.host limit)) := by
  have due : (setting.host limit).due ⟨.ofBytes (script times), position, true⟩ i
      (m.moveTo next) = .ok (some amount) := by
    rw [Setting.host_eq_hostWith, Host.due, Setting.price_hostWith]
    dsimp only
    rw [if_pos (inside.trans_eq (size_script times).symm), priced]
    rfl
  have paid : ∀ a, some amount = some a →
      (setting.host limit).gasLimit.isExceededBy (m.gas + a) = false := by
    rintro _ ⟨⟩
    rw [Setting.gasLimit_host, h.gas]
    exact within
  rw [(Machine.Step.done ⟨⟨h.running, h.frames_eq, fetched⟩, due, paid⟩ done
    (after.depth_le few)).eq]
  exact after

/-- A one is pushed for nothing. -/
theorem push (h : At times k position items gas m)
    (fetched : Instruction.fetch (.ofBytes (script times)) position = .ok ⟨0x51, []⟩ next)
    (inside : position < 2 * times + 1) (within : limit.isExceededBy gas = false)
    (few : items.length ≤ 1) :
    At times k next (.ofInt 1 :: items) gas (m.step (setting.host limit)) := by
  have r := h.ready next (some 0)
  have free : Price.amount Syscall.registry ⟨0x51, []⟩ (m.moveTo next) = .ok 0 := rfl
  rw [← Int.add_zero gas] at within ⊢
  exact h.step fetched inside free within (Exec.push_eq _ _)
    ⟨r.running, r.frames, congrArg (Item.ofInt 1 :: ·) r.items, r.alt, r.heap, r.gas⟩
    (Nat.succ_le_succ few)

/-- What lies below a one is packed. -/
theorem pack (h : At times k position [.ofInt 1, item k] gas m)
    (fetched : Instruction.fetch (.ofBytes (script times)) position = .ok ⟨0xC1, []⟩ next)
    (inside : position < 2 * times + 1) (within : limit.isExceededBy (gas + 100000) = false) :
    At times (k + 1) next [item (k + 1)] (gas + 100000) (m.step (setting.host limit)) := by
  have r := h.ready next (some 100000)
  have packed := Exec.pack_eq_ok_iff.2
    ⟨.ofInt 1, [item k], [], r.items, rfl, (by decide : 1 ≤ 1024), rfl⟩
  refine h.step fetched inside rfl within packed ⟨r.running, r.frames, ?_, r.alt, ?_, r.gas⟩
    (by simp)
  · show [Item.seq ((m.ready next _).heap.makeSequence .array [Packing.item k]).2] = _
    rw [r.heap, Heap.makeSequence_snd, sequenceCount_heap, Packing.item]
  · show ((m.ready next _).heap.makeSequence .array [Packing.item k]).1 = _
    rw [r.heap, Packing.heap]

/-- **In two steps** an array is packed into another one. -/
theorem again (h : At times k (2 * k + 1) [item k] (k * 100000) m) (more : k < times)
    (allowed : Allowed limit times) :
    At times (k + 1) (2 * (k + 1) + 1) [item (k + 1)] ((k + 1 : Nat) * 100000)
      ((m.step (setting.host limit)).step (setting.host limit)) := by
  have pushed : At times k (2 * k + 2) [.ofInt 1, item k] (k * 100000)
      (m.step (setting.host limit)) :=
    h.push (fetch_one more) (by omega) (allowed.within (by omega)) (Nat.le_refl 1)
  have sum : ((k + 1 : Nat) : Int) * 100000 = k * 100000 + 100000 := by omega
  rw [sum]
  exact pushed.pack (fetch_pack more) (by omega) (allowed.within (by omega))

/-- Behind the end of the script the run halts. -/
theorem finish (setting : Setting) (limit : GasLimit) (h : At times k (2 * times + 1) items gas m)
    (few : items.length ≤ 2) :
    (m.step (setting.host limit)).status = .halted ∧
      (m.step (setting.host limit)).stack.items = items ∧
      (m.step (setting.host limit)).heap = Packing.heap k := by
  have r := h.ready (2 * times + 1) none
  have due : (setting.host limit).due ⟨.ofBytes (script times), 2 * times + 1, true⟩
      .impliedReturn (m.moveTo (2 * times + 1)) = .ok none :=
    Host.due_eq_none (size_script times).le
  have done : Exec.execute (setting.host limit) ⟨.ofBytes (script times), 2 * times + 1, true⟩
      .impliedReturn (m.ready (2 * times + 1) none) = _ := Exec.ret_eq r.frames
  rw [(Machine.Step.done ⟨⟨h.running, h.frames_eq, fetch_end times⟩, due, nofun⟩ done
    (r.depth_le few)).eq]
  exact ⟨rfl, r.items, r.heap⟩

end At

/-- When the first number has been pushed, each array takes two steps. -/
theorem at_runFor (setting : Setting) {limit : GasLimit} (link : Link)
    (allowed : Allowed limit times) (h : k ≤ times) :
    At times k (2 * k + 1) [item k] (k * 100000)
      ((Machine.load (script times) true (.fresh link)).runFor (setting.host limit)
        (2 * k + 1)) := by
  induction k with
  | zero =>
    have start : At times 0 0 [] (0 : Nat) (Machine.load (script times) true (.fresh link)) :=
      ⟨rfl, rfl, rfl, rfl, rfl, rfl⟩
    exact start.push (fetch_start times) (by omega) (allowed.within (by omega)) (Nat.zero_le 1)
  | succ k ih =>
    rw [show 2 * (k + 1) + 1 = 2 * k + 1 + 1 + 1 from rfl, Machine.runFor_succ, Machine.runFor_succ]
    exact (ih (Nat.le_of_succ_le h)).again h allowed

/-- **However deep calls can be nested**, a run whose limit allows for as many arrays halts with
nothing recursive on its stack, and leaves no receipt. -/
theorem halts_without_receipt (p : Prepared) (node : Node) (link : Link) (depth : Nat)
    (packing : p.configuration.script = script depth)
    (allowed : Allowed p.configuration.gasLimit depth) :
    ∃ n, (p.state node link n).status = .halted ∧
      (∀ item ∈ (p.state node link n).stack.items, ¬(p.state node link n).heap.Recursive item) ∧
      (p.state node link n).leave p.configuration.script depth = .error .tooDeep := by
  have packed := at_runFor (p.setting node) link allowed (Nat.le_refl depth)
  obtain ⟨halted, items, heap⟩ : (p.state node link (2 * depth + 2)).status = .halted ∧
      (p.state node link (2 * depth + 2)).stack.items = [item depth] ∧
      (p.state node link (2 * depth + 2)).heap = heap depth := by
    rw [Prepared.state, Prepared.start, packing, Machine.runFor_succ]
    exact packed.finish (p.setting node) p.configuration.gasLimit (Nat.le_succ 1)
  have turns : ∀ item ∈ (p.state node link (2 * depth + 2)).stack.items,
      ¬(p.state node link (2 * depth + 2)).heap.Recursive item := by
    intro item left
    rw [items] at left
    rw [heap, List.mem_singleton.1 left]
    exact not_recursive_item (Nat.le_refl depth)
  have deep : (p.state node link (2 * depth + 2)).NestsTooDeep depth := by
    rw [Machine.nestsTooDeep_iff_deep turns, items, heap]
    exact ⟨_, List.mem_singleton_self _, deep_item (Nat.le_refl depth)⟩
  refine ⟨2 * depth + 2, halted, turns, ?_⟩
  rcases (p.state node link (2 * depth + 2)).leave_eq p.configuration.script depth with
    ⟨-, lost⟩ | ⟨flat, -⟩
  · exact lost
  · exact absurd deep flat

end Packing

end DryRun
