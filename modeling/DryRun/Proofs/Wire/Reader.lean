import DryRun.Wire.Reader
import DryRun.Wire.Writer
import Mathlib.Algebra.GroupWithZero.Nat

/-!
# What reading gives back, and what it takes

Two statements about a computation that reads bytes, and the rules by which they are composed.

* `Parses c bytes a` — in front of anything, `c` takes exactly `bytes` and gives `a`.  This is how
  a reader is known to be the counterpart of a writer.
* `Takes P c` — whatever `c` gives stands in the relation `P` to the number of bytes it took.  This
  is what is known of a reader on bytes that no writer has made.

A number of variable length is written in as few bytes as possible, and read from more than that;
so `parses_varUint` is about `Wire.varUint`, and `takes_varUint` compares with it.
-/

set_option autoImplicit false

namespace DryRun

variable {α β ε : Type}

/-- In front of anything, a reading takes exactly these bytes and gives `a`. -/
def Parses (c : EStateM ε Cursor α) (bytes : Bytes) (a : α) : Prop :=
  ∀ offset rest, c ⟨offset, bytes ++ rest⟩ = .ok a ⟨offset + bytes.length, rest⟩

/-- Whatever a reading gives stands in `P` to the number of bytes it took. -/
def Takes (P : α → Nat → Prop) (c : EStateM ε Cursor α) : Prop :=
  ∀ start a stop, c start = .ok a stop →
    ∃ n, start.rest.length = n + stop.rest.length ∧ P a n

/-! ## Composing -/

namespace Parses

variable {c : EStateM ε Cursor α} {bytes more : Bytes} {a : α} {b : β}

theorem pure (a : α) : Parses (Pure.pure a : EStateM ε Cursor α) [] a := fun _ _ => rfl

theorem bind {f : α → EStateM ε Cursor β} (hc : Parses c bytes a) (hf : Parses (f a) more b) :
    Parses (c >>= f) (bytes ++ more) b := by
  intro offset rest
  show EStateM.bind c f _ = _
  rw [EStateM.bind, List.append_assoc, hc]
  dsimp only
  rw [hf, List.length_append, Nat.add_assoc]

/-- The second part takes nothing more. -/
theorem bind_nil {f : α → EStateM ε Cursor β} (hc : Parses c bytes a) (hf : Parses (f a) [] b) :
    Parses (c >>= f) bytes b := by
  have whole := hc.bind hf
  rwa [List.append_nil] at whole

theorem map (f : α → β) (hc : Parses c bytes a) : Parses (f <$> c) bytes (f a) := by
  rw [map_eq_pure_bind]
  exact hc.bind_nil (.pure _)

end Parses

namespace Takes

variable {P P' : α → Nat → Prop} {Q : β → Nat → Prop} {c : EStateM ε Cursor α}

theorem pure {a : α} (h : P a 0) : Takes P (Pure.pure a : EStateM ε Cursor α) := by
  intro start b stop he
  cases he
  exact ⟨0, (Nat.zero_add _).symm, h⟩

theorem throw (e : ε) : Takes P (MonadExcept.throw e : EStateM ε Cursor α) := by
  intro start b stop he
  cases he

theorem bind {f : α → EStateM ε Cursor β} (hc : Takes P c)
    (hf : ∀ a n, P a n → Takes (fun b k => Q b (n + k)) (f a)) : Takes Q (c >>= f) := by
  intro start b stop he
  simp only [Bind.bind, EStateM.bind] at he
  split at he
  · next a middle ha =>
    obtain ⟨n, hn, first⟩ := hc _ _ _ ha
    obtain ⟨k, hk, second⟩ := hf a n first _ _ _ he
    exact ⟨n + k, by omega, second⟩
  · cases he

theorem mono (hc : Takes P c) (h : ∀ a n, P a n → P' a n) : Takes P' c := by
  intro start a stop he
  obtain ⟨n, hn, ha⟩ := hc _ _ _ he
  exact ⟨n, hn, h a n ha⟩

theorem map {f : α → β} (hc : Takes (fun a n => Q (f a) n) c) : Takes Q (f <$> c) := by
  rw [map_eq_pure_bind]
  exact hc.bind fun _ _ h => .pure h

/-- Behind a check that fails where `p` holds, `p` does not hold. -/
theorem guarded {p : Prop} [Decidable p] {e : ε} {f : Unit → EStateM ε Cursor β}
    (hf : ¬p → Takes Q (f ())) : Takes Q (if p then MonadExcept.throw e >>= f else f ()) := by
  split
  · exact (throw (P := fun _ _ => False) e).bind fun _ _ h => h.elim
  · next h => exact hf h

end Takes

/-! ## Readers -/

/-- A number that is spelled by some bytes is less than there are byte strings of that length. -/
theorem Bytes.toNatLE_lt (bytes : Bytes) : toNatLE bytes < Nat.pow 256 bytes.length := by
  induction bytes with
  | nil => exact Nat.one_pos
  | cons b rest ih =>
    have byte : b.toNat < 256 := b.toNat_lt
    have power : Nat.pow 256 (rest.length + 1) = 256 * Nat.pow 256 rest.length := Nat.pow_succ'
    rw [toNatLE, List.length_cons, power]
    omega

namespace Reader

open Wire

/-! ### Numbers of a fixed width -/

theorem parses_take (bytes : Bytes) : Parses (take bytes.length) bytes bytes := by
  intro offset rest
  rw [take, List.splitAt_eq, List.take_left, List.drop_left]
  exact if_pos rfl

theorem takes_take (n : Nat) : Takes (fun bytes k => bytes.length = n ∧ k = n) (take n) := by
  intro start bytes stop he
  rw [take, List.splitAt_eq] at he
  dsimp only at he
  split at he
  · next enough =>
    cases he
    rw [List.length_take] at enough
    refine ⟨n, ?_, List.length_take_of_le (by omega), rfl⟩
    show start.rest.length = n + (start.rest.drop n).length
    rw [List.length_drop]
    omega
  · cases he

theorem parses_unsigned {width v : Nat} (h : v < Nat.pow 256 width) :
    Parses (unsigned width) (Bytes.ofNatLE width v) v := by
  have taken := (parses_take (Bytes.ofNatLE width v)).map Bytes.toNatLE
  rwa [Bytes.length_ofNatLE, Bytes.toNatLE_ofNatLE, Nat.mod_eq_of_lt h] at taken

theorem takes_unsigned (width : Nat) :
    Takes (fun v n => v < Nat.pow 256 width ∧ n = width) (unsigned width) := by
  refine ((takes_take width).mono fun bytes n h => ?_).map
  obtain ⟨hlength, hn⟩ := h
  have bound := Bytes.toNatLE_lt bytes
  rw [hlength] at bound
  exact ⟨bound, hn⟩

theorem parses_u8 (b : UInt8) : Parses u8 [b] b := by
  have taken := ((parses_take [b]).map Bytes.toNatLE).map UInt8.ofNat
  have byte : UInt8.ofNat (Bytes.toNatLE [b]) = b := by simp [Bytes.toNatLE]
  rwa [byte] at taken

theorem takes_u8 : Takes (fun _ n => n = 1) u8 :=
  ((takes_unsigned 1).mono fun _ _ h => h.2).map

/-- A field that keeps all numbers of its width is read from what it is written as. -/
theorem parses_field {width v : Nat} {make : Nat → α} {a : α} (h : v < Nat.pow 256 width)
    (same : make v = a) : Parses (make <$> unsigned width) (Bytes.ofNatLE width v) a :=
  same ▸ (parses_unsigned h).map make

theorem takes_field (width : Nat) (make : Nat → α) :
    Takes (fun _ n => n = width) (make <$> unsigned width) :=
  ((takes_unsigned width).mono fun _ _ h => h.2).map

theorem parses_u32 (v : UInt32) : Parses u32 (Wire.u32 v) v :=
  parses_field v.toNat_lt UInt32.ofNat_toNat

theorem parses_u64 (v : UInt64) : Parses u64 (Wire.u64 v) v :=
  parses_field v.toNat_lt UInt64.ofNat_toNat

theorem parses_i64 (v : Int64) : Parses i64 (Wire.i64 v) v :=
  parses_field v.toUInt64.toNat_lt (congrArg UInt64.toInt64 (UInt64.ofNat_toNat (x := v.toUInt64)))

/-- As many bytes as are asked for are read from themselves. -/
theorem parses_take_of_length {bytes : Bytes} {n : Nat} (h : bytes.length = n) :
    Parses (take n) bytes bytes :=
  h ▸ parses_take bytes

theorem parses_hash160 {hash : Bytes} (h : hash.length = hash160Size) :
    Parses hash160 hash hash := parses_take_of_length h

theorem parses_hash256 {hash : Bytes} (h : hash.length = hash256Size) :
    Parses hash256 hash hash := parses_take_of_length h

theorem parses_bool (b : Bool) : Parses bool (Wire.bool b) b := by
  have taken := (parses_u8 (if b then 1 else 0)).map (· != 0)
  cases b with
  | false => exact taken
  | true => exact taken

theorem takes_bool : Takes (fun _ n => n = 1) bool :=
  takes_u8.map

/-! ### Numbers of a variable length -/

/-- Greater numbers take no fewer bytes. -/
theorem length_varUint_le {v w : Nat} (h : v ≤ w) :
    (Wire.varUint v).length ≤ (Wire.varUint w).length := by
  simp only [Wire.varUint]
  repeat' split
  all_goals simp only [List.length_cons, List.length_nil, Bytes.length_ofNatLE]
  all_goals omega

/-- A number that must not be above a limit. -/
def limited (limit : Int) (read : Reader Nat) : Reader Nat := do
  let value ← read
  if limit < value then throw (.numberAboveLimit value limit)
  return value

theorem parses_limited {limit : Int} {read : Reader Nat} {bytes : Bytes} {v : Nat}
    (h : Parses read bytes v) (hlimit : (v : Int) ≤ limit) :
    Parses (limited limit read) bytes v := by
  refine h.bind_nil ?_
  dsimp only
  rw [if_neg (Int.not_lt.2 hlimit)]
  exact .pure v

theorem takes_limited {limit : Int} {read : Reader Nat} {P : Nat → Nat → Prop} (h : Takes P read) :
    Takes (fun (v : Nat) n => (v : Int) ≤ limit ∧ P v n) (limited limit read) :=
  h.bind fun _ _ hv => .guarded fun hlimit => .pure ⟨Int.not_lt.1 hlimit, hv⟩

/-- The number behind a mark. -/
def behindMark (mark : UInt8) : Reader Nat :=
  if mark = 0xFD then unsigned 2
  else if mark = 0xFE then unsigned 4
  else if mark = 0xFF then unsigned 8
  else pure mark.toNat

theorem varUint_eq (limit : Int) :
    varUint limit = (u8 >>= fun mark => limited limit (behindMark mark)) := by
  rw [varUint]
  congr 1
  funext mark
  rw [behindMark]
  repeat' split
  all_goals rfl

theorem parses_varUint {v : Nat} {limit : Int} (hlimit : (v : Int) ≤ limit) (hmax : v ≤ maxU64) :
    Parses (varUint limit) (Wire.varUint v) v := by
  rw [varUint_eq, Wire.varUint]
  split
  · next small =>
    refine (parses_u8 _).bind_nil (parses_limited ?_ hlimit)
    have value : (UInt8.ofNat v).toNat = v := by
      rw [UInt8.toNat_ofNat']
      omega
    have other : ∀ b : UInt8, 0xFD ≤ b.toNat → UInt8.ofNat v ≠ b := by
      rintro b hb rfl
      omega
    rw [behindMark, if_neg (other 0xFD (by decide)), if_neg (other 0xFE (by decide)),
      if_neg (other 0xFF (by decide)), value]
    exact .pure v
  · split
    · next fits =>
      have bound : v < Nat.pow 256 2 := Nat.lt_succ_of_le fits
      exact (parses_u8 0xFD).bind (parses_limited (parses_unsigned bound) hlimit)
    · split
      · next fits =>
        have bound : v < Nat.pow 256 4 := Nat.lt_succ_of_le fits
        exact (parses_u8 0xFE).bind (parses_limited (parses_unsigned bound) hlimit)
      · have bound : v < Nat.pow 256 8 := Nat.lt_succ_of_le hmax
        exact (parses_u8 0xFF).bind (parses_limited (parses_unsigned bound) hlimit)

/-- A byte that is no mark is a small number. -/
theorem toNat_lt_of_not_mark {mark : UInt8} (h₁ : mark ≠ 0xFD) (h₂ : mark ≠ 0xFE)
    (h₃ : mark ≠ 0xFF) : mark.toNat < 0xFD := by
  have byte := mark.toNat_lt
  have other : ∀ b : UInt8, mark ≠ b → mark.toNat ≠ b.toNat := fun b h same =>
    h (UInt8.toNat_inj.1 same)
  have : mark.toNat ≠ 0xFD := other 0xFD h₁
  have : mark.toNat ≠ 0xFE := other 0xFE h₂
  have : mark.toNat ≠ 0xFF := other 0xFF h₃
  omega

/-- The mark says how many bytes there are, and so how great the number can be. -/
theorem takes_behindMark (mark : UInt8) :
    Takes (fun v n => (Wire.varUint v).length ≤ n + 1) (behindMark mark) := by
  have most : ∀ {width v bound : Nat}, v < Nat.pow 256 width → Nat.pow 256 width = bound + 1 →
      (Wire.varUint v).length ≤ (Wire.varUint bound).length := fun hv hbound =>
    length_varUint_le (by omega)
  rw [behindMark]
  split
  · refine (takes_unsigned 2).mono fun v n h => ?_
    rw [h.2]
    exact most h.1 rfl
  · split
    · refine (takes_unsigned 4).mono fun v n h => ?_
      rw [h.2]
      exact most h.1 rfl
    · split
      · refine (takes_unsigned 8).mono fun v n h => ?_
        rw [h.2]
        exact most h.1 rfl
      · next h₁ h₂ h₃ =>
        refine .pure ?_
        rw [Wire.varUint, if_pos (toNat_lt_of_not_mark h₁ h₂ h₃)]
        exact Nat.le_refl 1

/-- A number may be read from more bytes than it is written in, but not from fewer. -/
theorem takes_varUint (limit : Int) :
    Takes (fun (v : Nat) n => (v : Int) ≤ limit ∧ (Wire.varUint v).length ≤ n)
      (varUint limit) := by
  rw [varUint_eq]
  refine takes_u8.bind fun mark n hn => (takes_limited (takes_behindMark mark)).mono ?_
  rintro v k ⟨hlimit, hlength⟩
  exact ⟨hlimit, by omega⟩

/-! ### Byte strings -/

theorem parses_varBytes {bytes : Bytes} {limit : Int} (hlimit : (bytes.length : Int) ≤ limit)
    (hmax : bytes.length ≤ maxU64) :
    Parses (varBytes limit) (Wire.varBytes bytes) bytes :=
  (parses_varUint hlimit hmax).bind (parses_take bytes)

theorem takes_varBytes (limit : Int) :
    Takes (fun bytes n => (bytes.length : Int) ≤ limit ∧ (Wire.varBytes bytes).length ≤ n)
      (varBytes limit) := by
  refine (takes_varUint limit).bind fun size n hsize => (takes_take size).mono ?_
  rintro bytes k ⟨rfl, rfl⟩
  refine ⟨hsize.1, ?_⟩
  rw [Wire.varBytes, List.length_append]
  omega

theorem parses_varString {text : String} {limit : Int}
    (hlimit : ((Utf8.encode text).length : Int) ≤ limit)
    (hmax : (Utf8.encode text).length ≤ maxU64) :
    Parses (varString limit) (Wire.varString text) text := by
  refine (parses_varBytes hlimit hmax).bind_nil ?_
  rw [Utf8.decodeString?_encode]
  exact .pure text

/-- Text is written as the bytes that it was read from. -/
theorem takes_varString (limit : Int) :
    Takes (fun text n => ((Utf8.encode text).length : Int) ≤ limit ∧
      (Wire.varString text).length ≤ n) (varString limit) := by
  refine (takes_varBytes limit).bind fun bytes n h => ?_
  split
  · next text decoded =>
    rw [← Utf8.encode_of_decodeString? decoded] at h
    exact .pure h
  · exact .throw _

/-! ### Curve points -/

/-- An encoded curve point: a zero alone, or a mark and one or two coordinates. -/
inductive IsPoint : Bytes → Prop
  /-- The point at infinity. -/
  | infinity : IsPoint [0x00]
  /-- One coordinate, and a mark for the sign of the other. -/
  | compressed (mark : UInt8) (x : Bytes) (known : mark = 0x02 ∨ mark = 0x03)
      (size : x.length = 32) : IsPoint (mark :: x)
  /-- Both coordinates. -/
  | plain (xy : Bytes) (size : xy.length = 64) : IsPoint (0x04 :: xy)

/-- A point is read from itself. -/
theorem parses_curvePoint {point : Bytes} (h : IsPoint point) : Parses curvePoint point point := by
  cases h with
  | infinity => exact (parses_u8 0x00).bind_nil (.pure _)
  | compressed mark x known size =>
    have zero : mark ≠ 0x00 := by
      rintro rfl
      exact known.elim (fun h => nomatch h) fun h => nomatch h
    have coordinate : Parses (do return mark :: (← take 32) : Reader Bytes) x (mark :: x) :=
      (parses_take_of_length size).bind_nil (.pure _)
    refine (parses_u8 mark).bind ?_
    rw [if_neg zero, if_pos known]
    exact coordinate
  | plain xy size =>
    exact (parses_u8 0x04).bind ((parses_take_of_length size).bind_nil (.pure _))

theorem takes_curvePoint : Takes (fun point n => IsPoint point ∧ point.length = n) curvePoint := by
  refine takes_u8.bind fun mark n hn => ?_
  subst hn
  split
  · exact .pure ⟨.infinity, rfl⟩
  · split
    · next known =>
      refine (takes_take 32).bind fun x k h => .pure ⟨.compressed mark x known h.1, ?_⟩
      rw [List.length_cons, h.1, h.2]
    · split
      · next four =>
        refine (takes_take 64).bind fun xy k h => .pure ⟨four ▸ .plain xy h.1, ?_⟩
        rw [List.length_cons, h.1, h.2]
      · exact .throw _

/-! ### Repeated reading -/

theorem parses_times_cons {read : EStateM ε Cursor α} {n : Nat} {bytes more : Bytes} {x : α}
    {xs : List α} (first : Parses read bytes x) (rest : Parses (times read n) more xs) :
    Parses (times read (n + 1)) (bytes ++ more) (x :: xs) :=
  first.bind (rest.bind_nil (.pure _))

/-- Values that each pay for their weight pay for it together. -/
theorem takes_times {read : EStateM ε Cursor α} {P : α → Prop} {weight : α → Nat}
    (h : Takes (fun x n => P x ∧ weight x ≤ n) read) (count : Nat) :
    Takes (fun xs n => xs.length = count ∧ (∀ x ∈ xs, P x) ∧ (xs.map weight).sum ≤ n)
      (times read count) := by
  induction count with
  | zero => exact .pure ⟨rfl, by simp⟩
  | succ count ih =>
    refine h.bind fun x n hx => ih.bind fun xs k hxs => .pure ?_
    obtain ⟨hlength, hall, hsum⟩ := hxs
    refine ⟨by rw [List.length_cons, hlength], List.forall_mem_cons.2 ⟨hx.1, hall⟩, ?_⟩
    rw [List.map_cons, List.sum_cons]
    omega

/-- Values that are each read from their bytes are read one after another. -/
theorem parses_times {read : EStateM ε Cursor α} {write : α → Bytes} {xs : List α}
    (h : ∀ x ∈ xs, Parses read (write x) x) :
    Parses (times read xs.length) (xs.flatMap write) xs := by
  induction xs with
  | nil => exact .pure []
  | cons x xs ih =>
    obtain ⟨first, rest⟩ := List.forall_mem_cons.1 h
    exact parses_times_cons first (ih rest)

theorem parses_array {read : Reader α} {write : α → Bytes} {xs : List α} {limit : Nat}
    (h : ∀ x ∈ xs, Parses read (write x) x) (hlimit : xs.length ≤ limit)
    (hmax : xs.length ≤ maxU64) :
    Parses (array read limit) (Wire.varUint xs.length ++ xs.flatMap write) xs :=
  (parses_varUint (Int.ofNat_le.2 hlimit) hmax).bind (parses_times h)

theorem takes_array {read : Reader α} {P : α → Prop} {weight : α → Nat}
    (h : Takes (fun x n => P x ∧ weight x ≤ n) read) (limit : Nat) :
    Takes (fun xs n => xs.length ≤ limit ∧ (∀ x ∈ xs, P x) ∧
      (Wire.varUint xs.length).length + (xs.map weight).sum ≤ n) (array read limit) := by
  refine (takes_varUint limit).bind fun count n hcount => (takes_times h count).mono ?_
  rintro xs k ⟨rfl, hall, hsum⟩
  exact ⟨Int.ofNat_le.1 hcount.1, hall, by omega⟩

theorem takes_expectEnd : Takes (fun _ n => n = 0) expectEnd := by
  intro start u stop he
  rw [expectEnd] at he
  change (if start.rest.length ≠ 0 then throw (.trailingBytes start.rest.length) else pure () :
    Reader Unit) start = _ at he
  split at he
  · cases he
  · cases he
    exact ⟨0, (Nat.zero_add _).symm, rfl⟩

/-- A whole byte string is read if nothing is left. -/
theorem readAll_eq_ok_iff {read : Reader α} {data : Bytes} {a : α} :
    readAll read data = .ok a ↔ ∃ size, read ⟨0, data⟩ = .ok a ⟨size, []⟩ := by
  have whole : (do let value ← read; expectEnd; pure value : Reader α).run ⟨0, data⟩ =
      match read ⟨0, data⟩ with
      | .ok value ⟨size, []⟩ => .ok value ⟨size, []⟩
      | .ok _ ⟨size, b :: rest⟩ => .error (.trailingBytes (rest.length + 1)) ⟨size, b :: rest⟩
      | .error cause stop => .error cause stop := by
    show EStateM.bind read _ _ = _
    rw [EStateM.bind]
    cases read ⟨0, data⟩ with
    | error cause stop => rfl
    | ok value stop =>
      obtain ⟨size, rest⟩ := stop
      cases rest with
      | nil => rfl
      | cons b rest => rfl
  rw [readAll, whole]
  cases read ⟨0, data⟩ with
  | error cause stop => exact iff_of_false (fun h => nomatch h) fun ⟨_, h⟩ => nomatch h
  | ok value stop =>
    obtain ⟨size, rest⟩ := stop
    cases rest with
    | nil =>
      constructor
      · rintro ⟨⟩
        exact ⟨size, rfl⟩
      · rintro ⟨_, ⟨⟩⟩
        rfl
    | cons b rest => exact iff_of_false (fun h => nomatch h) fun ⟨_, h⟩ => nomatch h

end Reader

end DryRun
