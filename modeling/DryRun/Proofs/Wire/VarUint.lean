import DryRun.Proofs.Wire.Span
import DryRun.Proofs.Wire.Writer

/-!
# Numbers of variable length

Every length and every count is stored as a number of variable length.  There is one way to write
such a number, and up to four ways to spell it that are read (`Wire.Spelling`).

* `Writer.varUint_eq` — what becomes of every integer that is written, whether it fits or not.
* `Wire.Reads` — how the reading of a number can end: with a number within the limit, with one above
  it, or where the data ends before the number does.  `Reader.varUint_eq_iff` says that this is what
  the reader does, on any data.
* `numbers_are_coded_shortest` — so what is written is read back, and nothing shorter is read as the
  same number.
-/

set_option autoImplicit false

namespace DryRun

/-! ## Writing -/

namespace Writer

theorem fixed_of_not_fits {width : Nat} {v : Int} (h : v < 0 ∨ (Nat.pow 256 width : Nat) ≤ v)
    (buffer : Bytes) : fixed width false v buffer = .error ⟨v⟩ buffer := by
  have outside : ¬(0 ≤ v ∧ v < 0 + (Nat.pow 256 width : Nat)) := by omega
  rw [fixed]
  simp only [Bool.false_eq_true, if_false]
  rw [if_neg outside]
  rfl

/-- **An integer is written if eight bytes can hold it.**  One that is too large is refused when its
mark has been written already. -/
theorem varUint_eq (v : Int) (buffer : Bytes) :
    varUint v buffer =
      if v < 0 then .error ⟨v⟩ buffer
      else if v < Nat.pow 2 64 then .ok () (buffer ++ Wire.varUint v.toNat)
      else .error ⟨v⟩ (buffer ++ [0xFF]) := by
  split
  · next negative =>
    rw [varUint, if_pos (by omega)]
    exact fixed_of_not_fits (.inl negative) buffer
  · next natural =>
    obtain ⟨n, rfl⟩ := Int.eq_ofNat_of_zero_le (Int.not_lt.1 natural)
    split
    · next fits => exact writes_varUint (Int.ofNat_lt.1 fits) buffer
    · next large =>
      have large : Nat.pow 256 8 ≤ n := Int.ofNat_le.1 (Int.not_lt.1 large)
      have power : Nat.pow 256 8 = 0xFFFFFFFFFFFFFFFF + 1 := rfl
      have marked := writes_u8 0xFF buffer
      rw [varUint, if_neg (by omega), if_neg (by omega), if_neg (by omega)]
      show EStateM.bind (fixed 1 false 0xFF) _ buffer = _
      rw [EStateM.bind, show fixed 1 false 0xFF buffer = _ from marked]
      exact fixed_of_not_fits (.inr (Int.ofNat_le.2 large)) _

end Writer

/-! ## Reading -/

namespace Wire

/-- How many bytes a mark announces. -/
def announced (mark : UInt8) : Nat :=
  if mark = 0xFD then 2
  else if mark = 0xFE then 4
  else if mark = 0xFF then 8
  else 0

/-- How the reading of a number ends. -/
inductive Reads (limit : Int) (start : Cursor) : EStateM.Result FormatError Cursor Nat → Prop
  /-- The data begins with a spelling of a number within the limit. -/
  | within {v : Nat} {bytes rest : Bytes} (spelled : Spelling v bytes)
      (front : start.rest = bytes ++ rest) (small : (v : Int) ≤ limit) :
      Reads limit start (.ok v ⟨start.offset + bytes.length, rest⟩)
  /-- It begins with a spelling of a number above the limit. -/
  | above {v : Nat} {bytes rest : Bytes} (spelled : Spelling v bytes)
      (front : start.rest = bytes ++ rest) (large : limit < v) :
      Reads limit start
        (.error (.numberAboveLimit v limit) ⟨start.offset + bytes.length, rest⟩)
  /-- There is no data. -/
  | missing (nothing : start.rest = []) :
      Reads limit start (.error (.unexpectedEnd 1 start.offset 0) start)
  /-- There is a mark with fewer bytes behind it than it announces. -/
  | cut {mark : UInt8} {more : Bytes} (front : start.rest = mark :: more)
      (short : more.length < announced mark) :
      Reads limit start (.error (.unexpectedEnd (announced mark) (start.offset + 1) more.length)
        ⟨start.offset + 1, more⟩)

end Wire

namespace Reader

open Wire

variable {limit : Int} {start : Cursor} {v : Nat} {bytes : Bytes}

/-- Read a number without a limit. -/
def number : Reader Nat := do
  behindMark (← u8)

theorem varUint_eq_limited (limit : Int) : varUint limit = limited limit number := by
  rw [varUint_eq, number, limited, bind_assoc]
  rfl

theorem limited_eq (limit : Int) (read : Reader Nat) (start : Cursor) :
    limited limit read start =
      match read start with
      | .ok v stop =>
        if limit < v then .error (.numberAboveLimit v limit) stop else .ok v stop
      | .error cause stop => .error cause stop := by
  show EStateM.bind read _ start = _
  rw [EStateM.bind]
  rcases read start with ⟨v, stop⟩ | ⟨cause, stop⟩
  · dsimp only
    split <;> rfl
  · rfl

/-- A number that is its own limit is read as it is without one. -/
theorem varUint_self_iff {stop : Cursor} :
    varUint v start = .ok v stop ↔ number start = .ok v stop := by
  rw [varUint_eq_limited, limited_eq]
  rcases number start with ⟨w, stop'⟩ | ⟨cause, stop'⟩
  · dsimp only
    split
    · next larger =>
      have other : w ≠ v := by omega
      simp [other]
    · rfl
  · rfl

/-! ### Spellings -/

/-- **Every spelling of a number is read** as that number. -/
theorem parses_number (spelled : Spelling v bytes) : Parses number bytes v := by
  rcases spelled with small | fits | fits | fits
  · intro offset rest
    have written : Wire.varUint v = [UInt8.ofNat v] := if_pos small
    have counted : v ≤ maxU64 := Nat.le_trans (Nat.le_of_lt small) (by decide)
    have parses : Parses (varUint v) (Wire.varUint v) v := parses_varUint le_rfl counted
    rw [written] at parses
    exact varUint_self_iff.1 (parses offset rest)
  · exact (parses_u8 0xFD).bind (parses_unsigned fits)
  · exact (parses_u8 0xFE).bind (parses_unsigned fits)
  · exact (parses_u8 0xFF).bind (parses_unsigned fits)

/-- **Nothing but a spelling** is read as a number. -/
theorem spans_number : Spans Spelling number := by
  intro start v stop read
  obtain ⟨bytes, front, spelled, -⟩ := spans_varUint v start v stop (varUint_self_iff.2 read)
  exact ⟨bytes, front, spelled⟩

/-! ### Data that ends too early -/

theorem take_eq (n : Nat) (start : Cursor) :
    take n start =
      if n ≤ start.rest.length then
        .ok (start.rest.take n) ⟨start.offset + n, start.rest.drop n⟩
      else .error (.unexpectedEnd n start.offset start.rest.length) start := by
  have enough : (start.rest.take n).length = n ↔ n ≤ start.rest.length := by
    rw [List.length_take]
    omega
  simp only [take, List.splitAt_eq, enough]

theorem unsigned_eq (width : Nat) (start : Cursor) :
    unsigned width start =
      if width ≤ start.rest.length then
        .ok (Bytes.toNatLE (start.rest.take width))
          ⟨start.offset + width, start.rest.drop width⟩
      else .error (.unexpectedEnd width start.offset start.rest.length) start := by
  show EStateM.map _ _ start = _
  rw [EStateM.map, take_eq]
  by_cases enough : width ≤ start.rest.length <;> simp only [enough, if_true, if_false]

theorem behindMark_eq (mark : UInt8) :
    behindMark mark =
      if announced mark = 0 then pure mark.toNat else unsigned (announced mark) := by
  by_cases two : mark = 0xFD
  · simp [behindMark, announced, two]
  by_cases four : mark = 0xFE
  · simp [behindMark, announced, four]
  by_cases eight : mark = 0xFF
  · simp [behindMark, announced, eight]
  · simp [behindMark, announced, two, four, eight]

theorem number_cons (offset : Nat) (mark : UInt8) (more : Bytes) :
    number ⟨offset, mark :: more⟩ = behindMark mark ⟨offset + 1, more⟩ := by
  have marked := parses_u8 mark offset more
  show EStateM.bind u8 _ _ = _
  rw [EStateM.bind, show u8 ⟨offset, mark :: more⟩ = _ from marked]
  rfl

/-- A number that is not read is not there, or there is not enough of it. -/
theorem reads_of_number_eq_error {cause : FormatError} {stop : Cursor}
    (failed : number start = .error cause stop) : Reads limit start (.error cause stop) := by
  rcases start with ⟨offset, _ | ⟨mark, more⟩⟩
  · cases failed
    exact .missing rfl
  · rw [number_cons, behindMark_eq] at failed
    split at failed
    · cases failed
    · rw [unsigned_eq] at failed
      split at failed
      · cases failed
      · next short =>
        cases failed
        exact .cut rfl (Nat.lt_of_not_le short)

/-! ### All outcomes -/

/-- **Every reading of a number** ends in one of these ways. -/
theorem reads_varUint (limit : Int) (start : Cursor) : Reads limit start (varUint limit start) := by
  rw [varUint_eq_limited, limited_eq]
  rcases read : number start with ⟨v, stop⟩ | ⟨cause, stop⟩
  · obtain ⟨bytes, front, spelled⟩ := spans_number start v stop read
    obtain ⟨-, place⟩ := (parses_number spelled).over front read
    dsimp only
    rw [place]
    split
    · next large => exact .above spelled front large
    · next small => exact .within spelled front (Int.not_lt.1 small)
  · exact reads_of_number_eq_error read

/-- **The data decides** how the reading of a number ends. -/
theorem varUint_of_reads {result : EStateM.Result FormatError Cursor Nat}
    (h : Reads limit start result) : varUint limit start = result := by
  obtain ⟨offset, data⟩ := start
  rcases h with ⟨spelled, front, small⟩ | ⟨spelled, front, large⟩ | nothing | ⟨front, short⟩
  · obtain rfl : data = _ ++ _ := front
    rw [varUint_eq_limited, limited_eq, parses_number spelled]
    exact if_neg (Int.not_lt.2 small)
  · obtain rfl : data = _ ++ _ := front
    rw [varUint_eq_limited, limited_eq, parses_number spelled]
    exact if_pos large
  · cases nothing
    rfl
  · cases front
    rw [varUint_eq_limited, limited_eq, number_cons, behindMark_eq,
      if_neg (Nat.ne_of_gt (Nat.zero_lt_of_lt short)), unsigned_eq,
      if_neg (Nat.not_le_of_lt short)]

theorem varUint_eq_iff {result : EStateM.Result FormatError Cursor Nat} :
    varUint limit start = result ↔ Reads limit start result :=
  ⟨fun same => same ▸ reads_varUint limit start, varUint_of_reads⟩

end Reader

namespace Wire

/-- What is read as a number is no shorter than what it is written as, and nothing else is as
short. -/
theorem Reads.shortest {limit : Int} {start stop : Cursor} {v : Nat}
    (h : Reads limit start (.ok v stop)) :
    ∃ bytes, start.rest = bytes ++ stop.rest ∧ (Wire.varUint v).length ≤ bytes.length ∧
      (bytes.length = (Wire.varUint v).length → bytes = Wire.varUint v) := by
  rcases h with ⟨spelled, front, -⟩
  exact ⟨_, front, spelled.length_le, fun same => spelled.eq_varUint (Nat.le_of_eq same)⟩

/-- **Numbers are coded, as short as possible.**

* Every natural number below `2 ^ 64` is written, behind anything, and every other integer is
  refused.
* What is written is read back, in front of anything, and exactly the written bytes are taken.
* Whatever is read as a number is at least as long as what the number is written as, and nothing
  else of that length is read as the same number.
* With any limit and on any data the reader gives a number within the limit or refuses the data: the
  outcome is the one that `Wire.Reads` lists. -/
theorem numbers_are_coded_shortest :
    (∀ (v : Int) (buffer : Bytes), Writer.varUint v buffer =
      if v < 0 then .error ⟨v⟩ buffer
      else if v < Nat.pow 2 64 then .ok () (buffer ++ Wire.varUint v.toNat)
      else .error ⟨v⟩ (buffer ++ [0xFF])) ∧
    (∀ v < Nat.pow 2 64, ∀ offset rest,
      Reader.varUint Reader.maxU64 ⟨offset, Wire.varUint v ++ rest⟩ =
        .ok v ⟨offset + (Wire.varUint v).length, rest⟩) ∧
    (∀ limit start v stop, Reader.varUint limit start = .ok v stop →
      ∃ bytes, start.rest = bytes ++ stop.rest ∧ (Wire.varUint v).length ≤ bytes.length ∧
        (bytes.length = (Wire.varUint v).length → bytes = Wire.varUint v)) ∧
    ∀ limit start result, Reader.varUint limit start = result ↔ Reads limit start result := by
  refine ⟨Writer.varUint_eq, fun v fits offset rest => ?_, fun limit start v stop read => ?_,
    fun limit start result => Reader.varUint_eq_iff⟩
  · have counted : v ≤ Reader.maxU64 := Nat.le_of_lt_succ fits
    exact Reader.parses_varUint (Int.ofNat_le.2 counted) counted offset rest
  · exact (Reader.varUint_eq_iff.1 read).shortest

/-- The greatest number that can be written is read back, the next one is refused behind its mark,
and a small number that is spelled in three bytes is read although one would do. -/
theorem numbers_are_coded_shortest_at_bounds :
    (Writer.varUint 0xFFFFFFFFFFFFFFFF [7] = .ok () (7 :: List.replicate 9 0xFF) ∧
      Writer.varUint 0x10000000000000000 [7] = .error ⟨0x10000000000000000⟩ [7, 0xFF]) ∧
    (0xFFFFFFFFFFFFFFFF < Nat.pow 2 64 ∧
      Reader.varUint Reader.maxU64 ⟨0, Wire.varUint 0xFFFFFFFFFFFFFFFF ++ [7]⟩ =
        .ok 0xFFFFFFFFFFFFFFFF ⟨9, [7]⟩) ∧
    (Reader.varUint 5 ⟨0, [0xFD, 5, 0]⟩ = .ok 5 ⟨3, []⟩ ∧ (Wire.varUint 5).length ≤ 3) ∧
    Reads 4 ⟨0, [0xFD, 5, 0]⟩ (.error (.numberAboveLimit 5 4) ⟨3, []⟩) := by
  obtain ⟨writes, reads, shortest, outcomes⟩ := numbers_are_coded_shortest
  have fits : 0xFFFFFFFFFFFFFFFF < Nat.pow 2 64 := by decide
  have read : Reader.varUint 5 ⟨0, [0xFD, 5, 0]⟩ = .ok 5 ⟨3, []⟩ := rfl
  obtain ⟨bytes, front, enough, -⟩ := shortest 5 _ _ _ read
  have all : [0xFD, 5, 0] = bytes := front.trans (List.append_nil bytes)
  refine ⟨⟨(writes _ _).trans rfl, (writes _ _).trans rfl⟩, ⟨fits, reads _ fits 0 [7]⟩,
    ⟨read, ?_⟩, (outcomes _ _ _).1 rfl⟩
  rwa [← all] at enough

end Wire

end DryRun
