import DryRun.Proofs.Wire.Reader

/-!
# The bytes that a reading takes

`Parses` says what becomes of bytes that are known.  Here it is the other way round: something has
been read from a buffer, and the question is from which of its bytes.

* `Spans P c` — whatever `c` gives stands in `P` to the bytes it took.  A number of fixed width is
  read from the bytes it is written as, and a number of variable length from one of its spellings
  (`Wire.Spelling`), of which the shortest is the one it is written as (`Wire.Spelling.eq_varUint`).
* `Local c` — what `c` gives depends on the bytes it took and on nothing else: not on what stands
  before or behind them.  All readers are local, and this is what allows an object to be cut out of
  the buffer in which it was found and read again.
-/

set_option autoImplicit false

namespace DryRun

variable {α β ε : Type}

/-- Whatever a reading gives stands in `P` to the bytes it took. -/
def Spans (P : α → Bytes → Prop) (c : EStateM ε Cursor α) : Prop :=
  ∀ start a stop, c start = .ok a stop → ∃ bytes, start.rest = bytes ++ stop.rest ∧ P a bytes

namespace Spans

variable {P P' : α → Bytes → Prop} {Q : β → Bytes → Prop} {c : EStateM ε Cursor α}

theorem pure {a : α} (h : P a []) : Spans P (Pure.pure a : EStateM ε Cursor α) := by
  intro start b stop he
  cases he
  exact ⟨[], rfl, h⟩

theorem throw (e : ε) : Spans P (MonadExcept.throw e : EStateM ε Cursor α) := by
  intro start b stop he
  cases he

theorem bind {f : α → EStateM ε Cursor β} (hc : Spans P c)
    (hf : ∀ a bytes, P a bytes → Spans (fun b more => Q b (bytes ++ more)) (f a)) :
    Spans Q (c >>= f) := by
  intro start b stop he
  simp only [Bind.bind, EStateM.bind] at he
  split at he
  · next a middle ha =>
    obtain ⟨bytes, taken, first⟩ := hc _ _ _ ha
    obtain ⟨more, taken', second⟩ := hf a bytes first _ _ _ he
    exact ⟨bytes ++ more, by rw [taken, taken', List.append_assoc], second⟩
  · cases he

theorem mono (hc : Spans P c) (h : ∀ a bytes, P a bytes → P' a bytes) : Spans P' c := by
  intro start a stop he
  obtain ⟨bytes, taken, ha⟩ := hc _ _ _ he
  exact ⟨bytes, taken, h a bytes ha⟩

/-- Two facts about the same bytes. -/
theorem and (hc : Spans P c) (hc' : Spans P' c) :
    Spans (fun a bytes => P a bytes ∧ P' a bytes) c := by
  intro start a stop he
  obtain ⟨bytes, taken, ha⟩ := hc _ _ _ he
  obtain ⟨bytes', taken', ha'⟩ := hc' _ _ _ he
  cases List.append_cancel_right (taken.symm.trans taken')
  exact ⟨bytes, taken, ha, ha'⟩

/-- What is known of the number of bytes is known of the bytes. -/
theorem of_takes {R : α → Nat → Prop} (hc : Spans P c) (h : Takes R c) :
    Spans (fun a bytes => R a bytes.length) c := by
  intro start a stop he
  obtain ⟨bytes, taken, -⟩ := hc _ _ _ he
  obtain ⟨n, hn, ha⟩ := h _ _ _ he
  rw [taken, List.length_append, Nat.add_right_cancel_iff] at hn
  subst hn
  exact ⟨bytes, taken, ha⟩

theorem map {f : α → β} (hc : Spans (fun a bytes => Q (f a) bytes) c) : Spans Q (f <$> c) := by
  rw [map_eq_pure_bind]
  exact hc.bind fun _ _ h => .pure (by rwa [List.append_nil])

/-- Behind a check that fails where `p` holds, `p` does not hold. -/
theorem guarded {p : Prop} [Decidable p] {e : ε} {f : Unit → EStateM ε Cursor β}
    (hf : ¬p → Spans Q (f ())) : Spans Q (if p then MonadExcept.throw e >>= f else f ()) := by
  split
  · exact (throw (P := fun _ _ => False) e).bind fun _ _ h => h.elim
  · next h => exact hf h

end Spans

/-! ## Spellings -/

/-- The ways to spell a number of variable length: by a byte of its own if it is small, and behind
a mark that announces two, four or eight bytes. -/
inductive Wire.Spelling (v : Nat) : Bytes → Prop
  /-- The number itself. -/
  | one (small : v < 0xFD) : Spelling v [UInt8.ofNat v]
  /-- Two bytes. -/
  | two (fits : v < Nat.pow 256 2) : Spelling v (0xFD :: Bytes.ofNatLE 2 v)
  /-- Four bytes. -/
  | four (fits : v < Nat.pow 256 4) : Spelling v (0xFE :: Bytes.ofNatLE 4 v)
  /-- Eight bytes. -/
  | eight (fits : v < Nat.pow 256 8) : Spelling v (0xFF :: Bytes.ofNatLE 8 v)

namespace Wire

/-- A number is written in one of its spellings. -/
theorem Spelling.varUint {v : Nat} (h : v < Nat.pow 256 8) : Spelling v (Wire.varUint v) := by
  rw [Wire.varUint]
  split
  · next small => exact .one small
  · split
    · next fits => exact .two (Nat.lt_succ_of_le fits)
    · split
      · next fits => exact .four (Nat.lt_succ_of_le fits)
      · exact .eight h

theorem Spelling.ne_nil {v : Nat} {bytes : Bytes} (h : Spelling v bytes) : bytes ≠ [] := by
  cases h <;> simp

/-- No spelling is shorter than the one that is written. -/
theorem Spelling.length_le {v : Nat} {bytes : Bytes} (h : Spelling v bytes) :
    (Wire.varUint v).length ≤ bytes.length := by
  cases h with
  | one small => exact Nat.le_of_eq (congrArg List.length (if_pos small))
  | two fits =>
    have fits : v ≤ 0xFFFF := Nat.le_of_lt_succ fits
    have most := Reader.length_varUint_le fits
    rwa [List.length_cons, Bytes.length_ofNatLE]
  | four fits =>
    have fits : v ≤ 0xFFFFFFFF := Nat.le_of_lt_succ fits
    have most := Reader.length_varUint_le fits
    rwa [List.length_cons, Bytes.length_ofNatLE]
  | eight fits =>
    have fits : v ≤ Reader.maxU64 := Nat.le_of_lt_succ fits
    have most := Reader.length_varUint_le fits
    rwa [List.length_cons, Bytes.length_ofNatLE]

/-- **The shortest spelling is the one that is written.** -/
theorem Spelling.eq_varUint {v : Nat} {bytes : Bytes} (h : Spelling v bytes)
    (short : bytes.length ≤ (Wire.varUint v).length) : bytes = Wire.varUint v := by
  have one {n : Nat} : ¬ n + 1 + 1 ≤ 1 := by omega
  cases h with
  | one small => rw [Wire.varUint, if_pos small]
  | two fits =>
    rw [Wire.varUint] at short ⊢
    split at short
    · exact absurd short one
    · next large => rw [if_neg large, if_pos (Nat.le_of_lt_succ fits)]
  | four fits =>
    rw [Wire.varUint] at short ⊢
    split at short
    · exact absurd short one
    · next large =>
      rw [if_neg large]
      split at short
      · simp only [List.length_cons, Bytes.length_ofNatLE] at short
        omega
      · next larger => rw [if_neg larger, if_pos (Nat.le_of_lt_succ fits)]
  | eight fits =>
    rw [Wire.varUint] at short ⊢
    split at short
    · exact absurd short one
    · next large =>
      rw [if_neg large]
      split at short
      · simp only [List.length_cons, Bytes.length_ofNatLE] at short
        omega
      · next larger =>
        rw [if_neg larger]
        split at short
        · simp only [List.length_cons, Bytes.length_ofNatLE] at short
          omega
        · next largest => rw [if_neg largest]

/-- No spelling of the same number is shorter. -/
def Shortest (v : Nat) (bytes : Bytes) : Prop :=
  ∀ other, Spelling v other → bytes.length ≤ other.length

theorem Spelling.shortest_iff {v : Nat} {bytes : Bytes} (h : Spelling v bytes)
    (fits : v < Nat.pow 256 8) : Shortest v bytes ↔ bytes = Wire.varUint v := by
  constructor
  · exact fun shortest => h.eq_varUint (shortest _ (.varUint fits))
  · rintro rfl other spelled
    exact spelled.length_le

end Wire

/-! ## Readers -/

namespace Bytes

/-- Bytes are the low bytes of the number that they spell. -/
theorem ofNatLE_toNatLE (bytes : Bytes) : ofNatLE bytes.length (toNatLE bytes) = bytes := by
  induction bytes with
  | nil => rfl
  | cons b rest ih =>
    have low : UInt8.ofNat (b.toNat + 256 * toNatLE rest) = b := by
      apply UInt8.toNat_inj.1
      rw [UInt8.toNat_ofNat']
      have := b.toNat_lt
      omega
    have high : (b.toNat + 256 * toNatLE rest) / 256 = toNatLE rest := by
      have := b.toNat_lt
      omega
    rw [List.length_cons, toNatLE, ofNatLE, low, high, ih]

end Bytes

namespace Reader

theorem spans_take (n : Nat) :
    Spans (fun data bytes => bytes = data ∧ data.length = n) (take n) := by
  intro start data stop he
  rw [take, List.splitAt_eq] at he
  dsimp only at he
  split at he
  · next enough =>
    cases he
    exact ⟨start.rest.take n, (List.take_append_drop n start.rest).symm, rfl, enough⟩
  · cases he

theorem spans_unsigned (width : Nat) :
    Spans (fun v bytes => bytes = Bytes.ofNatLE width v ∧ v < Nat.pow 256 width)
      (unsigned width) := by
  refine ((spans_take width).mono ?_).map
  rintro data bytes ⟨rfl, rfl⟩
  exact ⟨(Bytes.ofNatLE_toNatLE _).symm, Bytes.toNatLE_lt _⟩

/-- A field that keeps all numbers of its width is written as it was read. -/
theorem spans_field {width : Nat} {make : Nat → α} {write : α → Bytes}
    (h : ∀ v, v < Nat.pow 256 width → write (make v) = Bytes.ofNatLE width v) :
    Spans (fun a bytes => bytes = write a) (make <$> unsigned width) := by
  refine ((spans_unsigned width).mono ?_).map
  rintro v bytes ⟨rfl, fits⟩
  exact (h v fits).symm

theorem spans_u8 : Spans (fun v bytes => bytes = Wire.u8 v) u8 :=
  spans_field fun _ _ => rfl

theorem spans_u16 : Spans (fun v bytes => bytes = Wire.u16 v) u16 :=
  spans_field fun v fits => by
    rw [Wire.u16, UInt16.toNat_ofNat', Nat.mod_eq_of_lt fits]

theorem spans_u32 : Spans (fun v bytes => bytes = Wire.u32 v) u32 :=
  spans_field fun v fits => by
    rw [Wire.u32, UInt32.toNat_ofNat', Nat.mod_eq_of_lt fits]

theorem spans_u64 : Spans (fun v bytes => bytes = Wire.u64 v) u64 :=
  spans_field fun v fits => by
    rw [Wire.u64, UInt64.toNat_ofNat', Nat.mod_eq_of_lt fits]

theorem spans_i64 : Spans (fun v bytes => bytes = Wire.i64 v) i64 :=
  spans_field fun v fits => by
    have same : (Int64.ofNat v).toUInt64 = UInt64.ofNat v := rfl
    rw [Wire.i64, same, UInt64.toNat_ofNat', Nat.mod_eq_of_lt fits]

/-- A number is read from one of its spellings. -/
theorem spans_varUint (limit : Int) :
    Spans (fun (v : Nat) bytes => Wire.Spelling v bytes ∧ (v : Int) ≤ limit) (varUint limit) := by
  have number (width : Nat) {limit : Int} : Spans (fun (v : Nat) bytes =>
      (bytes = Bytes.ofNatLE width v ∧ v < Nat.pow 256 width) ∧ (v : Int) ≤ limit)
      (limited limit (unsigned width)) := by
    refine (spans_unsigned width).bind fun v bytes h => .guarded fun hlimit => .pure ?_
    rw [List.append_nil]
    exact ⟨h, Int.not_lt.1 hlimit⟩
  rw [varUint_eq]
  refine spans_u8.bind fun mark first hmark => ?_
  subst hmark
  rw [behindMark]
  split
  · next two =>
    subst two
    refine (number 2).mono fun v bytes h => ⟨?_, h.2⟩
    rw [h.1.1]
    exact .two h.1.2
  · split
    · next four =>
      subst four
      refine (number 4).mono fun v bytes h => ⟨?_, h.2⟩
      rw [h.1.1]
      exact .four h.1.2
    · split
      · next eight =>
        subst eight
        refine (number 8).mono fun v bytes h => ⟨?_, h.2⟩
        rw [h.1.1]
        exact .eight h.1.2
      · next h₁ h₂ h₃ =>
        refine Spans.bind (P := fun v bytes => v = mark.toNat ∧ bytes = []) (.pure ⟨rfl, rfl⟩)
          fun v bytes h => .guarded fun hlimit => .pure ⟨?_, Int.not_lt.1 hlimit⟩
        rw [h.1, h.2, List.append_nil, List.append_nil, Wire.u8]
        have itself : UInt8.ofNat mark.toNat = mark := UInt8.ofNat_toNat
        have spelled := Wire.Spelling.one (toNat_lt_of_not_mark h₁ h₂ h₃)
        rwa [itself] at spelled

/-- Bytes are read from a spelling of their number and then themselves. -/
theorem spans_varBytes (limit : Int) :
    Spans (fun data bytes => ∃ len, Wire.Spelling data.length len ∧ bytes = len ++ data)
      (varBytes limit) := by
  refine (spans_varUint limit).bind fun size len hsize => (spans_take size).mono ?_
  rintro data bytes ⟨rfl, rfl⟩
  exact ⟨len, hsize.1, rfl⟩

/-- Values that are written as the bytes they were read from are so written one after another. -/
theorem spans_times {read : EStateM ε Cursor α} {P : α → Prop} {write : α → Bytes}
    (h : Spans (fun x bytes => bytes = write x ∧ P x) read) (count : Nat) :
    Spans (fun xs bytes => bytes = xs.flatMap write ∧ xs.length = count ∧ ∀ x ∈ xs, P x)
      (times read count) := by
  induction count with
  | zero => exact .pure ⟨rfl, rfl, fun _ mem => absurd mem List.not_mem_nil⟩
  | succ count ih =>
    refine h.bind fun x bytes hx => ih.bind fun xs more hxs => .pure ?_
    refine ⟨?_, by rw [List.length_cons, hxs.2.1], List.forall_mem_cons.2 ⟨hx.2, hxs.2.2⟩⟩
    rw [hx.1, hxs.1, List.append_nil, List.flatMap_cons]

theorem spans_array {read : Reader α} {P : α → Prop} {write : α → Bytes}
    (h : Spans (fun x bytes => bytes = write x ∧ P x) read) (limit : Nat) :
    Spans (fun xs bytes => (∃ len, Wire.Spelling xs.length len ∧ bytes = len ++ xs.flatMap write) ∧
      xs.length ≤ limit ∧ ∀ x ∈ xs, P x) (array read limit) := by
  refine (spans_varUint limit).bind fun count len hcount => (spans_times h count).mono ?_
  rintro xs bytes ⟨rfl, rfl, hall⟩
  exact ⟨⟨len, hcount.1, rfl⟩, Int.ofNat_le.1 hcount.2, hall⟩

end Reader

/-! ## Readings that depend on nothing else -/

/-- What a reading gives depends on the bytes it takes, and on nothing before or behind them. -/
def Local (c : EStateM ε Cursor α) : Prop :=
  Spans (fun a bytes => Parses c bytes a) c

namespace Local

variable {c : EStateM ε Cursor α}

theorem pure (a : α) : Local (Pure.pure a : EStateM ε Cursor α) := Spans.pure (.pure a)

theorem throw (e : ε) : Local (MonadExcept.throw e : EStateM ε Cursor α) := Spans.throw e

theorem bind {f : α → EStateM ε Cursor β} (hc : Local c) (hf : ∀ a, Local (f a)) :
    Local (c >>= f) :=
  Spans.bind hc fun a _ first => (hf a).mono fun _ _ second => first.bind second

theorem map (f : α → β) (hc : Local c) : Local (f <$> c) := by
  rw [map_eq_pure_bind]
  exact hc.bind fun _ => .pure _

/-- A check that fails does not look at any bytes. -/
theorem guarded {p : Prop} [Decidable p] {e : ε} {f : Unit → EStateM ε Cursor β}
    (hf : Local (f ())) : Local (if p then MonadExcept.throw e >>= f else f ()) := by
  split
  · exact (throw e).bind fun _ => hf
  · exact hf

/-- **What has been read is read again** from the bytes it was read from, wherever these stand. -/
theorem taken (hc : Local c) {start stop : Cursor} {a : α} (he : c start = .ok a stop) :
    ∃ bytes, start.rest = bytes ++ stop.rest ∧ stop.offset = start.offset + bytes.length ∧
      Parses c bytes a := by
  obtain ⟨bytes, rest, parses⟩ := hc start a stop he
  refine ⟨bytes, rest, ?_, parses⟩
  have again := parses start.offset stop.rest
  rw [← rest, show c start = .ok a stop from he] at again
  have place := (EStateM.Result.ok.inj again).2
  rw [place]

end Local

/-- The bytes that a reading takes are those that it was found to take. -/
theorem Parses.over {c : EStateM ε Cursor α} {bytes : Bytes} {a b : α} {start stop : Cursor}
    {more : Bytes} (h : Parses c bytes a) (rest : start.rest = bytes ++ more)
    (he : c start = .ok b stop) :
    b = a ∧ stop = ⟨start.offset + bytes.length, more⟩ := by
  have again := h start.offset more
  rw [← rest] at again
  cases he.symm.trans again
  exact ⟨rfl, rfl⟩

namespace Reader

theorem local_take (n : Nat) : Local (take n) := by
  refine (spans_take n).mono ?_
  rintro data bytes ⟨rfl, rfl⟩
  exact parses_take _

theorem local_unsigned (width : Nat) : Local (unsigned width) := (local_take width).map _

theorem local_u8 : Local u8 := (local_unsigned 1).map _

theorem local_u16 : Local u16 := (local_unsigned 2).map _

theorem local_u32 : Local u32 := (local_unsigned 4).map _

theorem local_u64 : Local u64 := (local_unsigned 8).map _

theorem local_i64 : Local i64 := (local_unsigned 8).map _

theorem local_bool : Local bool := local_u8.map _

theorem local_hash160 : Local hash160 := local_take _

theorem local_hash256 : Local hash256 := local_take _

theorem local_varUint (limit : Int) : Local (varUint limit) := by
  have check (read : Reader Nat) (h : Local read) : Local (limited limit read) :=
    h.bind fun _ => .guarded (.pure _)
  rw [varUint_eq]
  refine local_u8.bind fun mark => check _ ?_
  rw [behindMark]
  repeat' split
  · exact local_unsigned 2
  · exact local_unsigned 4
  · exact local_unsigned 8
  · exact .pure _

theorem local_varBytes (limit : Int) : Local (varBytes limit) :=
  (local_varUint limit).bind fun size => local_take size

theorem local_varString (limit : Int) : Local (varString limit) := by
  refine (local_varBytes limit).bind fun data => ?_
  split
  · exact .pure _
  · exact .throw _

theorem local_curvePoint : Local curvePoint := by
  have coordinates (mark : UInt8) (n : Nat) : Local (do return mark :: (← take n)) :=
    (local_take n).bind fun _ => .pure _
  refine local_u8.bind fun mark => ?_
  split
  · exact .pure _
  · split
    · exact coordinates mark 32
    · split
      · exact coordinates mark 64
      · exact .throw _

theorem local_times {read : EStateM ε Cursor α} (h : Local read) :
    ∀ count, Local (times read count)
  | 0 => .pure _
  | count + 1 => h.bind fun _ => (local_times h count).bind fun _ => .pure _

theorem local_array {read : Reader α} (h : Local read) (limit : Int) : Local (array read limit) :=
  (local_varUint limit).bind fun count => local_times h count

/-! ### Spans -/

theorem withSpan_eq (read : Reader α) (start : Cursor) :
    withSpan read start =
      match read start with
      | .ok a stop => .ok (a, start.rest.take (stop.offset - start.offset)) stop
      | .error e stop => .error e stop := by
  show EStateM.bind read _ start = _
  rw [EStateM.bind]
  cases read start <;> rfl

/-- A value and its bytes are read wherever the value is. -/
theorem parses_withSpan {read : Reader α} {bytes : Bytes} {a : α} (h : Parses read bytes a) :
    Parses (withSpan read) bytes (a, bytes) := by
  intro offset rest
  rw [withSpan_eq, h]
  dsimp only
  rw [Nat.add_sub_cancel_left, List.take_left]

/-- **The span of a value is the bytes it was read from.** -/
theorem withSpan_eq_ok {read : Reader α} (h : Local read) {start stop : Cursor} {a : α}
    {span : Bytes} (he : withSpan read start = .ok (a, span) stop) :
    read start = .ok a stop ∧ start.rest = span ++ stop.rest ∧
      stop.offset = start.offset + span.length ∧ Parses read span a := by
  rw [withSpan_eq] at he
  split at he
  · next b middle hread =>
    obtain ⟨bytes, rest, offset, parses⟩ := h.taken hread
    have span : start.rest.take (middle.offset - start.offset) = bytes := by
      rw [offset, rest, Nat.add_sub_cancel_left, List.take_left]
    rw [span] at he
    cases he
    exact ⟨hread, rest, offset, parses⟩
  · cases he

/-- What is known of a value and its bytes is known of the two together. -/
theorem spans_withSpan {P : α → Bytes → Prop} {read : Reader α} (h : Spans P read)
    (own : Local read) :
    Spans (fun found bytes => bytes = found.2 ∧ P found.1 bytes) (withSpan read) := by
  rintro start ⟨a, span⟩ stop he
  obtain ⟨hread, rest, -, -⟩ := withSpan_eq_ok own he
  obtain ⟨bytes, taken, ha⟩ := h _ _ _ hread
  cases List.append_cancel_right (rest.symm.trans taken)
  exact ⟨span, rest, rfl, ha⟩

theorem local_withSpan {read : Reader α} (h : Local read) : Local (withSpan read) := by
  rintro start ⟨a, span⟩ stop he
  obtain ⟨-, rest, -, parses⟩ := withSpan_eq_ok h he
  exact ⟨span, rest, parses_withSpan parses⟩

end Reader

/-! ### Whole byte strings -/

/-- **A whole byte string is read as one value** exactly if that value is read from it in front of
anything. -/
theorem Local.readAll_iff {read : Reader α} (h : Local read) {data : Bytes} {a : α} :
    Reader.readAll read data = .ok a ↔ Parses read data a := by
  rw [Reader.readAll_eq_ok_iff]
  constructor
  · rintro ⟨size, he⟩
    obtain ⟨bytes, rest, -, parses⟩ := h.taken he
    rw [List.append_nil] at rest
    dsimp only at rest
    rwa [rest]
  · intro parses
    have whole := parses 0 []
    rw [List.append_nil] at whole
    exact ⟨_, whole⟩

end DryRun
