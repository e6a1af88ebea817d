import DryRun.Wire.Error
import Mathlib.Data.List.TakeWhile

/-!
# Displayed identifiers in a text

An identifier is displayed as the hexadecimal digits of its bytes in reverse order.  In a text from
outside it may carry a mark, have letters of both cases and stand between blanks, and several of
them may be listed with a separator between them.  What all this means is said here apart from the
functions that read it.

* `RawText.Parts` — the parts of a text between separators, which `RawText.splitAt` finds.
* `Hex.Spells` — the bytes that digits stand for, which `Hex.decode?` reads.  Without blanks, and
  but for the case of letters, the digits are those of `Hex.encode` (`Hex.spells_iff_encode`).
* `Hex.Displays` — the identifier that a text displays, which `Hex.readDisplay` reads from what is
  left of the text without the blanks around it (`Hex.readDisplay_trim_eq_ok`).  Without blanks, and
  but for the mark and the case of letters, the text is that of `Hex.display`
  (`Hex.displays_iff_display`).
-/

set_option autoImplicit false

namespace DryRun

namespace RawText

variable {text core before after : RawText} {parts : List RawText} {separator : Nat}

/-! ## Parts -/

/-- A text is taken apart at all its separators. -/
structure Parts (separator : Nat) (text : RawText) (parts : List RawText) : Prop where
  /-- There is a part. -/
  ne_nil : parts ≠ []
  /-- There is no separator in a part. -/
  apart : ∀ part ∈ parts, separator ∉ part
  /-- With separators between them the parts are the text. -/
  joined : [separator].intercalate parts = text

theorem splitAt_cons (separator c : Nat) (rest : RawText) : splitAt separator (c :: rest) =
    if c = separator then [] :: splitAt separator rest
    else match splitAt separator rest with
      | [] => [[c]]
      | part :: more => (c :: part) :: more := rfl

theorem splitAt_eq_splitOn (separator : Nat) (text : RawText) :
    splitAt separator text = text.splitOn separator := by
  induction text with
  | nil => rw [List.splitOn_nil]; rfl
  | cons c rest ih =>
    rw [List.splitOn_cons_eq_if_modifyHead, splitAt_cons, ← ih]
    by_cases same : c = separator
    · rw [if_pos same, if_pos (beq_iff_eq.2 same)]
    · rw [if_neg same, if_neg fun h => same (beq_iff_eq.1 h)]
      have some : splitAt separator rest ≠ [] := ih ▸ List.splitOn_ne_nil _ _
      cases parts : splitAt separator rest with
      | nil => exact absurd parts some
      | cons part more => rfl

theorem separator_not_mem_of_mem_splitAt : ∀ part ∈ splitAt separator text, separator ∉ part := by
  induction text with
  | nil => exact List.forall_mem_singleton.2 List.not_mem_nil
  | cons c rest ih =>
    rw [splitAt_cons]
    split
    · exact List.forall_mem_cons.2 ⟨List.not_mem_nil, ih⟩
    · next other =>
      have alone : separator ∉ [c] := fun mem => other (List.mem_singleton.1 mem).symm
      split
      · exact List.forall_mem_singleton.2 alone
      · next part more parts =>
        rw [parts, List.forall_mem_cons] at ih
        refine List.forall_mem_cons.2 ⟨fun mem => ?_, ih.2⟩
        rcases List.mem_cons.1 mem with same | mem
        · exact other same.symm
        · exact ih.1 mem

/-- **The parts of a text** are those that it is split into. -/
theorem parts_iff : Parts separator text parts ↔ splitAt separator text = parts := by
  constructor
  · rintro ⟨some, apart, rfl⟩
    rw [splitAt_eq_splitOn, List.splitOn_intercalate separator apart some]
  · rintro rfl
    refine ⟨?_, separator_not_mem_of_mem_splitAt, ?_⟩
    · rw [splitAt_eq_splitOn]
      exact List.splitOn_ne_nil _ _
    · rw [splitAt_eq_splitOn, List.intercalate_splitOn]

/-! ## Blanks at the ends -/

/-- There are only blanks in a text. -/
def Blank (text : RawText) : Prop := ∀ c ∈ text, isBlank c

theorem exists_dropWhile (p : Nat → Bool) (text : RawText) :
    ∃ before, (∀ c ∈ before, p c) ∧ text = before ++ text.dropWhile p :=
  ⟨text.takeWhile p, fun _ mem => List.mem_takeWhile_imp mem, List.takeWhile_append_dropWhile.symm⟩

theorem exists_dropWhile_eq (text : RawText) :
    ∃ after : RawText, Blank after ∧ text.dropWhile isBlank = text.trim ++ after := by
  obtain ⟨after, blank, back⟩ := exists_dropWhile isBlank (text.dropWhile isBlank).reverse
  have turned := congrArg List.reverse back
  rw [List.reverse_reverse, List.reverse_append] at turned
  exact ⟨after.reverse, fun c mem => blank c (List.mem_reverse.1 mem), turned⟩

/-- Only blanks are trimmed. -/
theorem exists_trim (text : RawText) : ∃ before after : RawText, Blank before ∧ Blank after ∧
    text = before ++ text.trim ++ after := by
  obtain ⟨before, blank, front⟩ := exists_dropWhile isBlank text
  obtain ⟨after, blank', back⟩ := exists_dropWhile_eq text
  exact ⟨before, after, blank, blank', by rw [List.append_assoc, ← back, ← front]⟩

/-- A text that neither begins nor ends with a blank. -/
structure Bare (core : RawText) : Prop where
  /-- It does not begin with a blank. -/
  head : ∀ c, core.head? = some c → isBlank c = false
  /-- It does not end with a blank. -/
  last : ∀ c, core.getLast? = some c → isBlank c = false

theorem head?_dropWhile (p : Nat → Bool) (text : RawText) :
    ∀ c, (text.dropWhile p).head? = some c → p c = false := by
  intro c first
  have bare := List.head?_dropWhile_not p text
  rwa [first] at bare

theorem dropWhile_of_head? {p : Nat → Bool} (h : ∀ c, text.head? = some c → p c = false) :
    text.dropWhile p = text := by
  cases text with
  | nil => rfl
  | cons c rest => rw [List.dropWhile_cons_of_neg (by rw [h c rfl]; exact Bool.false_ne_true)]

theorem bare_trim (text : RawText) : Bare text.trim := by
  obtain ⟨after, blank, back⟩ := exists_dropWhile_eq text
  refine ⟨fun c first => head?_dropWhile isBlank text c ?_, fun c final => ?_⟩
  · rw [back, List.head?_append, first]
    rfl
  · rw [trim, trimWhile, List.getLast?_reverse] at final
    exact head?_dropWhile isBlank _ c final

/-- What begins and ends without a blank is left when the blanks around it are trimmed. -/
theorem Bare.trim_eq (bare : Bare core) (blank : Blank before) (blank' : Blank after) :
    trim (before ++ core ++ after) = core := by
  rw [trim, trimWhile, List.append_assoc, List.dropWhile_append_of_pos blank]
  cases core with
  | nil =>
    rw [List.nil_append, List.dropWhile_eq_nil_iff.2 blank']
    rfl
  | cons c rest =>
    have front : (c :: rest ++ after).dropWhile isBlank = c :: rest ++ after :=
      dropWhile_of_head? fun d first => bare.head d first
    rw [front, List.reverse_append,
      List.dropWhile_append_of_pos fun d mem => blank' d (List.mem_reverse.1 mem),
      dropWhile_of_head?, List.reverse_reverse]
    intro d final
    rw [List.head?_reverse] at final
    exact bare.last d final

theorem Bare.trim_self (bare : Bare core) : core.trim = core := by
  have none : Blank [] := nofun
  have whole := bare.trim_eq none none
  rwa [List.nil_append, List.append_nil] at whole

/-- Nothing is left of a text of blanks, and only of such a text. -/
theorem trim_eq_nil_iff : text.trim = [] ↔ Blank text := by
  constructor
  · intro none
    obtain ⟨before, after, blank, blank', same⟩ := exists_trim text
    rw [same, none, List.append_nil]
    exact fun c mem => (List.mem_append.1 mem).elim (blank c) (blank' c)
  · intro blank
    have bare : Bare [] := ⟨nofun, nofun⟩
    have none : Blank [] := nofun
    have left := bare.trim_eq blank none
    rwa [List.append_nil, List.append_nil] at left

end RawText

namespace Hex

variable {text body mark before after : RawText} {bytes account : Bytes}

/-! ## Digits -/

/-- A text spells bytes with two digits for each, and with blanks before, between and after them. -/
inductive Spells : RawText → Bytes → Prop where
  /-- Nothing spells nothing. -/
  | nil : Spells [] []
  /-- A blank. -/
  | blank {c : Nat} {text : RawText} {bytes : Bytes} (blank : isBlank c)
    (rest : Spells text bytes) : Spells (c :: text) bytes
  /-- Two digits. -/
  | pair {c d high low : Nat} {text : RawText} {bytes : Bytes} (first : digitValue? c = some high)
    (second : digitValue? d = some low) (rest : Spells text bytes) :
    Spells (c :: d :: text) (UInt8.ofNat (16 * high + low) :: bytes)

/-- A letter in lower case, if it is a digit. -/
def lower (c : Nat) : Nat := if 0x41 ≤ c ∧ c ≤ 0x46 then c + 0x20 else c

theorem toNat_hexDigit : ∀ v < 16,
    (Quoted.hexDigit v).toNat = if v < 10 then 0x30 + v else 0x57 + v := by
  decide

/-- Digits are read as they are written, but for the case. -/
theorem digitValue?_eq_some {c v : Nat} :
    digitValue? c = some v ↔ v < 16 ∧ lower c = (Quoted.hexDigit v).toNat := by
  have range : digitValue? c = some v ↔
      v < 16 ∧ lower c = if v < 10 then 0x30 + v else 0x57 + v := by
    grind [digitValue?, lower]
  rw [range]
  exact and_congr_right fun small => by rw [toNat_hexDigit v small]

/-- A digit is not a blank of any kind. -/
theorem isBlank_of_digitValue? {c v : Nat} (digit : digitValue? c = some v) :
    RawText.isBlank c = false := by
  have range : 0x30 ≤ c ∧ c ≤ 0x66 := by
    grind [digitValue?]
  rw [← Bool.not_eq_true]
  simp only [RawText.isBlank, Bool.or_eq_true, Bool.and_eq_true, decide_eq_true_eq, beq_iff_eq]
  omega

theorem isBlank_of_ascii {c : Nat} (blank : isBlank c) : RawText.isBlank c := by
  simp only [isBlank, RawText.isBlank, Bool.or_eq_true, Bool.and_eq_true, decide_eq_true_eq,
    beq_iff_eq] at blank ⊢
  omega

theorem digitValue?_of_isBlank {c : Nat} (blank : RawText.isBlank c) : digitValue? c = none := by
  cases digit : digitValue? c with
  | none => rfl
  | some v =>
    rw [isBlank_of_digitValue? digit] at blank
    cases blank

/-- What is read is what is spelled, behind what has been read before. -/
theorem readPairs_eq_some {done : Bytes} : readPairs text done = some bytes ↔
    ∃ more, Spells text more ∧ bytes = done.reverse ++ more := by
  induction text, done using readPairs.induct with
  | case1 done =>
    rw [readPairs, Option.some.injEq]
    constructor
    · rintro rfl
      exact ⟨[], .nil, (List.append_nil _).symm⟩
    · rintro ⟨more, spells, rfl⟩
      cases spells
      rw [List.append_nil]
  | case2 c done blank =>
    rw [readPairs, if_pos blank, Option.some.injEq]
    constructor
    · rintro rfl
      exact ⟨[], .blank blank .nil, (List.append_nil _).symm⟩
    · rintro ⟨more, spells, rfl⟩
      cases spells with
      | blank _ rest =>
        cases rest
        rw [List.append_nil]
  | case3 c done plain =>
    rw [readPairs, if_neg plain]
    refine iff_of_false nofun ?_
    rintro ⟨more, spells, -⟩
    cases spells with
    | blank blank => exact plain blank
  | case4 c d rest done blank ih =>
    rw [readPairs, if_pos blank, ih]
    refine exists_congr fun more => and_congr_left fun _ => ⟨.blank blank, fun spells => ?_⟩
    cases spells with
    | blank _ rest => exact rest
    | pair first =>
      rw [digitValue?_of_isBlank (isBlank_of_ascii blank)] at first
      cases first
  | case5 c d rest done plain high low second first ih =>
    rw [readPairs, if_neg plain, first, second]
    dsimp only
    rw [ih]
    constructor
    · rintro ⟨more, spells, rfl⟩
      exact ⟨_, .pair first second spells, by rw [List.reverse_cons, List.append_assoc]; rfl⟩
    · rintro ⟨more, spells, rfl⟩
      cases spells with
      | blank blank => exact absurd blank plain
      | pair first' second' rest =>
        rw [first, Option.some.injEq] at first'
        rw [second, Option.some.injEq] at second'
        subst first' second'
        exact ⟨_, rest, by rw [List.reverse_cons, List.append_assoc]; rfl⟩
  | case6 c d rest done plain none =>
    rw [readPairs, if_neg plain]
    split
    · next high low first second => exact absurd second (none high low first)
    · refine iff_of_false nofun ?_
      rintro ⟨more, spells, -⟩
      cases spells with
      | blank blank => exact plain blank
      | pair first second => exact none _ _ first second

/-- **What a text spells** is what it is read as. -/
theorem decode?_eq_some : decode? text = some bytes ↔ Spells text bytes := by
  rw [decode?, readPairs_eq_some]
  simp only [List.reverse_nil, List.nil_append, exists_eq_right']

theorem Spells.eq (h : Spells text bytes) {bytes' : Bytes} (h' : Spells text bytes') :
    bytes = bytes' :=
  Option.some.inj ((decode?_eq_some.2 h).symm.trans (decode?_eq_some.2 h'))

theorem Spells.of_cons {c : Nat} (blank : RawText.isBlank c) (h : Spells (c :: text) bytes) :
    Spells text bytes := by
  cases h with
  | blank _ rest => exact rest
  | pair first =>
    rw [digitValue?_of_isBlank blank] at first
    cases first

/-- Blanks of any kind in front spell nothing. -/
theorem Spells.of_append_left (blank : RawText.Blank before) (h : Spells (before ++ text) bytes) :
    Spells text bytes := by
  induction before with
  | nil => exact h
  | cons c before ih =>
    rw [RawText.Blank, List.forall_mem_cons] at blank
    exact ih blank.2 (h.of_cons blank.1)

/-- Neither do blanks of any kind at the end. -/
theorem Spells.of_append_right (blank : RawText.Blank after) (h : Spells (text ++ after) bytes) :
    Spells text bytes := by
  have digit {c v : Nat} (digit : digitValue? c = some v) : c ∉ after := fun mem => by
    rw [digitValue?_of_isBlank (blank c mem)] at digit
    cases digit
  generalize whole : text ++ after = t at h
  induction h generalizing text with
  | nil =>
    rw [(List.append_eq_nil_iff.1 whole).1]
    exact .nil
  | blank plain rest ih =>
    cases text with
    | nil =>
      have spells := Spells.blank plain rest
      rw [← whole, List.nil_append, ← List.append_nil after] at spells
      exact spells.of_append_left blank
    | cons c text =>
      cases whole
      exact .blank plain (ih rfl)
  | pair first second rest ih =>
    match text with
    | [] =>
      rw [List.nil_append] at whole
      exact absurd (whole ▸ List.mem_cons_self) (digit first)
    | [c] =>
      cases whole
      exact absurd List.mem_cons_self (digit second)
    | c :: d :: text =>
      cases whole
      exact .pair first second (ih rfl)

/-- The digits of a byte are those of its two halves. -/
theorem ofString_encode_cons (b : UInt8) (bytes : Bytes) :
    RawText.ofString (encode (b :: bytes)) =
      (Quoted.hexDigit (b.toNat / 16)).toNat :: (Quoted.hexDigit (b.toNat % 16)).toNat ::
        RawText.ofString (encode bytes) := by
  simp only [RawText.ofString, encode, String.toList_ofList, digits, List.flatMap_cons,
    List.map_cons, List.cons_append, List.nil_append]

theorem spells_of_map_lower (written : text.map lower = RawText.ofString (encode bytes)) :
    Spells text bytes := by
  induction bytes generalizing text with
  | nil =>
    rw [List.map_eq_nil_iff.1 written]
    exact .nil
  | cons b bytes ih =>
    rw [ofString_encode_cons] at written
    obtain ⟨c, text, rfl, first, written⟩ := List.map_eq_cons_iff.1 written
    obtain ⟨d, text, rfl, second, written⟩ := List.map_eq_cons_iff.1 written
    have small := b.toNat_lt
    have spells := Spells.pair (digitValue?_eq_some.2 ⟨by omega, first⟩)
      (digitValue?_eq_some.2 ⟨Nat.mod_lt _ (by decide), second⟩) (ih written)
    rwa [Nat.div_add_mod, UInt8.ofNat_toNat] at spells

/-- **Without blanks** the digits are those that are written, but for the case of letters. -/
theorem spells_iff_encode (plain : ∀ c ∈ text, isBlank c = false) :
    Spells text bytes ↔ text.map lower = RawText.ofString (encode bytes) := by
  refine ⟨fun spells => ?_, spells_of_map_lower⟩
  induction spells with
  | nil => rfl
  | blank blank =>
    rw [plain _ List.mem_cons_self] at blank
    cases blank
  | @pair c d high low text bytes first second rest ih =>
    obtain ⟨high_lt, first⟩ := digitValue?_eq_some.1 first
    obtain ⟨low_lt, second⟩ := digitValue?_eq_some.1 second
    have whole : (UInt8.ofNat (16 * high + low)).toNat = 16 * high + low := by
      rw [UInt8.toNat_ofNat']
      omega
    rw [List.forall_mem_cons, List.forall_mem_cons] at plain
    rw [ofString_encode_cons, whole, List.map_cons, List.map_cons, first, second, ih plain.2.2,
      show (16 * high + low) / 16 = high by omega, show (16 * high + low) % 16 = low by omega]

/-! ## Displayed identifiers -/

/-- What may stand in front of the digits. -/
def marks : List RawText := [[], RawText.ofString "0x", RawText.ofString "0X"]

/-- A text displays an identifier of a given size: between blanks it has the digits of the bytes in
reverse order, with or without a mark. -/
def Displays (size : Nat) (identifier : Bytes) (text : RawText) : Prop :=
  identifier.length = size ∧ ∃ before mark body after : RawText,
    text = before ++ mark ++ body ++ after ∧ RawText.Blank before ∧ mark ∈ marks ∧
      Spells body identifier.reverse ∧ RawText.Blank after

theorem head?_mark : ∀ mark ∈ marks, mark = [] ∨ mark.head? = some 0x30 := by
  decide

theorem exists_mark (text : RawText) : ∃ mark ∈ marks, text = mark ++ dropMark text := by
  rw [dropMark.eq_def]
  split
  · exact ⟨_, .tail _ (.head _), rfl⟩
  · exact ⟨_, .tail _ (.tail _ (.head _)), rfl⟩
  · exact ⟨[], .head _, rfl⟩

/-- Digits do not begin like a mark. -/
theorem Spells.dropMark_eq (h : Spells body bytes) (marked : mark ∈ marks) :
    dropMark (mark ++ body) = body := by
  have digits {c : Nat} {rest : RawText} (cross : digitValue? c = none)
      (plain : isBlank c = false) : body ≠ 0x30 :: c :: rest := by
    rintro rfl
    cases h with
    | blank blank => cases blank
    | pair first second =>
      rw [cross] at second
      cases second
  rcases List.mem_cons.1 marked with rfl | marked
  · rw [List.nil_append, dropMark.eq_def]
    split
    · next rest => exact absurd rfl (digits rfl rfl)
    · next rest => exact absurd rfl (digits rfl rfl)
    · rfl
  · rcases List.mem_cons.1 marked with rfl | marked
    · rfl
    · rw [List.mem_singleton.1 marked]
      rfl

/-- The blanks around a displayed identifier can be taken so that none is left inside. -/
theorem Displays.exists_bare {size : Nat} (h : Displays size account text) (positive : 0 < size) :
    ∃ before mark body after : RawText, text = before ++ (mark ++ body) ++ after ∧
      RawText.Blank before ∧ mark ∈ marks ∧ Spells body account.reverse ∧ RawText.Blank after ∧
        RawText.Bare (mark ++ body) := by
  obtain ⟨length, before, mark, body, after, rfl, blank, marked, spells, blank'⟩ := h
  obtain ⟨front, back, blank_front, blank_back, parts⟩ := RawText.exists_trim body
  have bare := RawText.bare_trim body
  generalize body.trim = core at parts bare
  subst parts
  have spells := spells.of_append_right blank_back
  have inner := spells.of_append_left blank_front
  have around {a b : RawText} (blank : RawText.Blank a) (blank' : RawText.Blank b) :
      RawText.Blank (a ++ b) := fun c mem => (List.mem_append.1 mem).elim (blank c) (blank' c)
  rcases head?_mark mark marked with rfl | zero
  · refine ⟨before ++ front, [], core, back ++ after, ?_, around blank blank_front, marked, inner,
      around blank_back blank', bare⟩
    simp only [List.append_assoc, List.nil_append]
  · -- after a mark the blanks in front of the digits stay
    refine ⟨before, mark, front ++ core, back ++ after, ?_, blank, marked, spells,
      around blank_back blank', ⟨fun c first => ?_, fun c final => bare.last c ?_⟩⟩
    · simp only [List.append_assoc]
    · rw [List.head?_append, zero] at first
      cases first
      rfl
    · have digits : core ≠ [] := by
        rintro rfl
        have none := inner.eq .nil
        rw [List.reverse_eq_nil_iff] at none
        subst none
        exact absurd length (Nat.ne_of_lt positive)
      rw [← List.append_assoc, List.getLast?_append] at final
      cases last : core.getLast? with
      | none => exact absurd (List.getLast?_eq_none_iff.1 last) digits
      | some d => rwa [last] at final

/-- What is read is what the digits after the mark spell. -/
theorem readDisplay_eq_ok {size : Nat} : readDisplay text size = .ok account ↔
    account.length = size ∧ Spells (dropMark text) account.reverse := by
  rw [← decode?_eq_some, readDisplay]
  cases decode? (dropMark text) with
  | none => exact iff_of_false nofun fun h => nomatch h.2
  | some bytes =>
    dsimp only
    rw [Option.some.injEq]
    constructor
    · intro read
      split at read
      · next length =>
        cases read
        rw [List.reverse_reverse, List.length_reverse]
        exact ⟨Int.ofNat_inj.1 length, rfl⟩
      · cases read
    · rintro ⟨length, rfl⟩
      rw [if_pos (by rw [List.length_reverse, length]), List.reverse_reverse]

/-- **What a text displays** is what is read from it without the blanks around it. -/
theorem readDisplay_trim_eq_ok {size : Nat} (positive : 0 < size) :
    readDisplay text.trim size = .ok account ↔ Displays size account text := by
  rw [readDisplay_eq_ok]
  constructor
  · rintro ⟨length, spells⟩
    obtain ⟨before, after, blank, blank', parts⟩ := RawText.exists_trim text
    obtain ⟨mark, marked, same⟩ := exists_mark text.trim
    refine ⟨length, before, mark, dropMark text.trim, after, ?_, blank, marked, spells, blank'⟩
    rw [List.append_assoc before, ← same, ← parts]
  · intro displays
    obtain ⟨before, mark, body, after, parts, blank, marked, spells, blank', bare⟩ :=
      displays.exists_bare positive
    rw [parts, bare.trim_eq blank blank', spells.dropMark_eq marked]
    exact ⟨displays.1, spells⟩

/-- **A text without blanks** displays an identifier just if it is what is written for it, but for
the mark and the case of letters. -/
theorem displays_iff_display {size : Nat} (positive : 0 < size)
    (plain : ∀ c ∈ text, RawText.isBlank c = false) : Displays size account text ↔
      account.length = size ∧ (dropMark text).map lower = RawText.ofString (display account) := by
  have bare : RawText.Bare text :=
    ⟨fun c first => plain c (List.mem_of_head? first), fun c last =>
      plain c (List.mem_of_getLast? last)⟩
  have none (c : Nat) (mem : c ∈ dropMark text) : isBlank c = false := by
    obtain ⟨mark, -, same⟩ := exists_mark text
    have wide := plain c (same ▸ List.mem_append_right mark mem)
    rw [← Bool.not_eq_true] at wide ⊢
    exact fun blank => wide (isBlank_of_ascii blank)
  rw [← readDisplay_trim_eq_ok positive, bare.trim_self, readDisplay_eq_ok, spells_iff_encode none,
    display]

end Hex

end DryRun
