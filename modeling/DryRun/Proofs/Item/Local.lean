import DryRun.Proofs.Item.Codec
import DryRun.Proofs.Wire.Span

/-!
# Serialized items depend on their own bytes only

The reader of items is given a bound on the nesting, and `Tree.deserialize` takes the number of
bytes for it.  In front of more bytes the same item would be read with a larger bound.  This makes
no difference, since every level of nesting takes a byte.

* `Tree.local_read` — with any bound, what is read of an item depends on the bytes taken only;
* `Tree.sameUpTo_read` — bounds that are no less than the number of bytes are the same;
* `Tree.readItem` — the reader that is bounded by the bytes in front of it, and nothing else;
* `Tree.local_readItem` — it is local too.
-/

set_option autoImplicit false

namespace DryRun

variable {α β ε : Type}

/-! ## Readings of few bytes -/

/-- Two readings are the same in front of at most `n` bytes. -/
def SameUpTo (n : Nat) (c c' : EStateM ε Cursor α) : Prop :=
  ∀ start, start.rest.length ≤ n → c start = c' start

namespace SameUpTo

variable {n : Nat} {c c' : EStateM ε Cursor α} {f f' : α → EStateM ε Cursor β}

theorem refl (n : Nat) (c : EStateM ε Cursor α) : SameUpTo n c c := fun _ _ => rfl

/-- Behind a part that takes `k` bytes there are as many bytes fewer. -/
theorem behind {k : Nat} (hc : Takes (fun _ m => k ≤ m) c) (hf : ∀ a, SameUpTo n (f a) (f' a)) :
    SameUpTo (n + k) (c >>= f) (c >>= f') := by
  intro start hstart
  simp only [Bind.bind, EStateM.bind]
  split
  · next a middle ha =>
    obtain ⟨m, taken, hm⟩ := hc _ _ _ ha
    exact hf a middle (by omega)
  · rfl

theorem bind (own : Local c) (same : SameUpTo n c c') (hf : ∀ a, SameUpTo n (f a) (f' a)) :
    SameUpTo n (c >>= f) (c' >>= f') := by
  have some : Takes (fun _ m => 0 ≤ m) c := fun start a stop he => by
    obtain ⟨bytes, rest, -⟩ := own start a stop he
    exact ⟨bytes.length, by rw [rest, List.length_append], Nat.zero_le _⟩
  intro start hstart
  have first : (c' >>= f') start = (c >>= f') start := by
    simp only [Bind.bind, EStateM.bind, same start hstart]
  rw [first]
  exact behind some hf start hstart

theorem times (own : Local c) (same : SameUpTo n c c') :
    ∀ count, SameUpTo n (Reader.times c count) (Reader.times c' count)
  | 0 => refl n _
  | count + 1 => same.bind own fun _ =>
      (times own same count).bind (Reader.local_times own count) fun _ => refl n _

end SameUpTo

namespace Tree

/-! ## Reading with a bound on the nesting -/

theorem local_within {read : Reader α} (h : Local read) : Local (within read) := by
  intro start a stop he
  rw [within] at he
  split at he
  · next taken =>
    cases he
    obtain ⟨bytes, rest, parses⟩ := h _ _ _ taken
    exact ⟨bytes, rest, parses_within parses⟩
  · cases he

theorem local_readEntry {read : ItemReader Tree} (h : Local read) : Local (readEntry read) := by
  refine h.bind fun key => h.bind fun value => ?_
  split
  · exact .pure _
  · exact .throw _

theorem local_count : Local (within (Reader.varUint maxCollectionSize)) :=
  local_within (Reader.local_varUint _)

theorem local_read (fuel : Nat) : Local (read fuel) := by
  induction fuel with
  | zero => exact local_within (Reader.local_u8.bind fun _ => .throw _)
  | succ fuel ih =>
    refine (local_within Reader.local_u8).bind fun mark => ?_
    -- the kinds in the order of their marks: bytes, truth values, integers, arrays, structs, maps
    split
    · exact (local_within (Reader.local_varBytes _)).bind fun _ => .pure _
    · exact (local_within Reader.local_bool).bind fun _ => .pure _
    · exact (local_within (Reader.local_varBytes _)).bind fun _ => .pure _
    · exact local_count.bind fun count => (Reader.local_times ih count).bind fun _ => .pure _
    · exact local_count.bind fun count => (Reader.local_times ih count).bind fun _ => .pure _
    · exact local_count.bind fun count =>
        (Reader.local_times (local_readEntry ih) count).bind fun _ => .pure _
    · exact local_within (.throw _)

theorem sameUpTo_readEntry {n : Nat} {read read' : ItemReader Tree} (own : Local read)
    (same : SameUpTo n read read') : SameUpTo n (readEntry read) (readEntry read') :=
  same.bind own fun _ => same.bind own fun _ => .refl n _

/-- **The bound makes no difference** if it is no less than the number of bytes. -/
theorem sameUpTo_read {n m : Nat} (h : n ≤ m) : SameUpTo n (read n) (read m) := by
  induction n generalizing m with
  | zero =>
    cases m with
    | zero => exact .refl 0 _
    | succ m =>
      -- there is no byte to tell the kind of the item
      rintro ⟨offset, rest⟩ hrest
      cases List.length_eq_zero_iff.1 (Nat.le_zero.1 hrest)
      rfl
  | succ n ih =>
    obtain ⟨m, rfl⟩ : ∃ below, m = below + 1 := ⟨m - 1, by omega⟩
    have below : SameUpTo n (read n) (read m) := ih (by omega)
    have elements (count : Nat) (make : List Tree → Tree) :
        SameUpTo n (make <$> Reader.times (read n) count) (make <$> Reader.times (read m) count) :=
      (below.times (local_read n) count).bind (Reader.local_times (local_read n) count) fun _ =>
        .refl n _
    have byte : Takes (fun _ k => 1 ≤ k) (within Reader.u8) :=
      (takes_within Reader.takes_u8).mono fun _ _ h => Nat.le_of_eq h.symm
    refine SameUpTo.behind byte fun mark => ?_
    -- only in a collection are there other items
    split
    · exact .refl n _
    · exact .refl n _
    · exact .refl n _
    · exact (SameUpTo.refl n _).bind local_count fun count => elements count _
    · exact (SameUpTo.refl n _).bind local_count fun count => elements count _
    · have own := local_readEntry (local_read n)
      exact (SameUpTo.refl n _).bind local_count fun count =>
        ((sameUpTo_readEntry (local_read n) below).times own count).bind
          (Reader.local_times own count) fun _ => .refl n _
    · exact .refl n _

/-! ## Reading an item -/

/-- Read a tree, however deep it is nested. -/
def readItem : ItemReader Tree := fun cursor => read (cursor.rest.length + 1) cursor

/-- An item is read from the same bytes with every bound that is no less than their number. -/
theorem parses_read_of_le {n m : Nat} {bytes : Bytes} {tree : Tree}
    (h : Parses (read n) bytes tree) (hn : bytes.length ≤ n) (hm : bytes.length ≤ m) :
    Parses (read m) bytes tree := by
  have alone := h 0 []
  rw [List.append_nil, ← sameUpTo_read hn _ (Nat.le_refl _), sameUpTo_read hm _ (Nat.le_refl _)]
    at alone
  obtain ⟨taken, rest, -, parses⟩ := (local_read m).taken alone
  rw [List.append_nil] at rest
  dsimp only at rest
  rwa [rest]

theorem parses_readItem {n : Nat} {bytes : Bytes} {tree : Tree} (h : Parses (read n) bytes tree)
    (hn : bytes.length ≤ n) : Parses readItem bytes tree := by
  intro offset rest
  refine parses_read_of_le h hn ?_ offset rest
  dsimp only
  rw [List.length_append]
  omega

/-- **An item depends on its own bytes only**, and how many follow is no bound on it. -/
theorem local_readItem : Local readItem := by
  intro start tree stop he
  obtain ⟨bytes, rest, -, parses⟩ := (local_read _).taken he
  refine ⟨bytes, rest, parses_readItem parses ?_⟩
  rw [rest, List.length_append]
  omega

end Tree

end DryRun
