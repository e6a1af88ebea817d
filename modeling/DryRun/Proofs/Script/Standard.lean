import DryRun.Script.Standard
import Mathlib.Data.List.Basic

/-!
# Scripts that check signatures

A script that checks one signature pushes 33 bytes and checks (`isSignature_iff`).  For several
signatures there is more to be said.  `Standard.isMultisig` takes a script apart from the front.
What it accepts is written down here the other way round: `Standard.Multisig` holds the parts of
such a script, and `Multisig.script` puts them together.  The scripts that are accepted are exactly
those that can be put together.

* `takeNumber_eq_some_iff` — what `takeNumber` accepts is what `Pushes` describes.
* `takeKeys_pushedKeys`, `exists_keys_of_takeKeys` — keys that were put one after the other are
  found again, and whatever is found was put there, unless the script ends within a key.
* `exists_multisig`, `isMultisig_script` — the two directions, and `isMultisig_iff` both together.

Taking a list apart cannot go wrong, but whoever scans the bytes of a script by their positions can
read behind the end, since the scan leaps over keys without looking at them.  `Standard.scan` is
that scan, in which such a reading is a failure, and `scan_eq` says that there is none.
-/

set_option autoImplicit false

namespace DryRun.Standard

/-! ## The form -/

/-- An instruction that pushes a number: up to sixteen in the code itself, or in one byte, or in two
bytes with the low one first. -/
inductive Pushes : Nat → Bytes → Prop where
  /-- The number is in the code. -/
  | code {n : Nat} (positive : 1 ≤ n) (small : n ≤ 16) : Pushes n [UInt8.ofNat (0x50 + n)]
  /-- The number is in one byte. -/
  | byte (a : UInt8) : Pushes a.toNat [0x01, a]
  /-- The number is in two bytes. -/
  | word (a b : UInt8) : Pushes (a.toNat + 256 * b.toNat) [0x02, a, b]

/-- Keys one after the other, each behind the code that pushes it. -/
def pushedKeys (keys : List Bytes) : Bytes := keys.flatMap (0x21 :: ·)

/-- The parts of a script that checks several signatures. -/
structure Multisig where
  /-- How many signatures are required. -/
  required : Nat
  /-- The keys. -/
  keys : List Bytes
  /-- The instruction that pushes how many signatures are required. -/
  pushRequired : Bytes
  /-- The instruction that pushes how many keys there are. -/
  pushCount : Bytes
  /-- It pushes that number. -/
  pushes_required : Pushes required pushRequired
  /-- It pushes that number. -/
  pushes_count : Pushes keys.length pushCount
  /-- All keys have 33 bytes. -/
  length_key : ∀ key ∈ keys, key.length = 33
  /-- One signature is required at least. -/
  one_le_required : 1 ≤ required
  /-- There are no fewer keys than signatures are required. -/
  required_le : required ≤ keys.length
  /-- There are not too many keys. -/
  keys_le : keys.length ≤ 1024

/-- The parts in their order, and the check at the end. -/
def Multisig.script (parts : Multisig) : Bytes :=
  parts.pushRequired ++ pushedKeys parts.keys ++ parts.pushCount ++ [0xAE]

variable {script rest : Bytes} {n : Nat}

/-! ## One signature -/

/-- **A script checks one signature** if it is the code that pushes 33 bytes, 33 bytes, and the
check. -/
theorem isSignature_iff : isSignature script = true ↔
    ∃ key, key.length = 33 ∧ 0x21 :: key ++ [0xAC] = script := by
  rw [isSignature, Bool.and_eq_true, Bool.and_eq_true, beq_iff_eq, beq_iff_eq, beq_iff_eq]
  constructor
  · rintro ⟨⟨size, push⟩, check⟩
    obtain ⟨code, rest, rfl⟩ := List.exists_cons_of_length_eq_add_one size
    cases push
    rw [List.getElem?_cons_succ] at check
    have size := Nat.succ_inj.1 size
    have last : rest.drop 33 = [checkSig] := by
      rw [List.drop_eq_getElem?_toList_append, check, List.drop_of_length_le (by omega)]
      rfl
    refine ⟨rest.take 33, by rw [List.length_take, size]; rfl, ?_⟩
    show pushKey :: (rest.take 33 ++ [checkSig]) = pushKey :: rest
    rw [← last, List.take_append_drop]
  · rintro ⟨key, size, rfl⟩
    simp [size, pushKey, checkSig]

/-! ## Numbers -/

theorem takeNumber_cons (code : UInt8) (rest : Bytes) : takeNumber (code :: rest) =
    if 0x51 ≤ code ∧ code ≤ 0x60 then some (code.toNat - 0x50, rest)
    else match code, rest with
    | 0x01, a :: rest => some (a.toNat, rest)
    | 0x02, a :: b :: rest => some (Bytes.toNatLE [a, b], rest)
    | _, _ => none := rfl

/-- An instruction that pushes a number does not begin like one that pushes a key. -/
theorem Pushes.exists_cons {push : Bytes} (h : Pushes n push) :
    ∃ code more, push = code :: more ∧ code ≠ pushKey := by
  cases h with
  | code positive small =>
    refine ⟨_, _, rfl, fun same => ?_⟩
    have same := congrArg UInt8.toNat same
    rw [UInt8.toNat_ofNat_of_lt' (by change _ < 256; omega), pushKey] at same
    change _ = 33 at same
    omega
  | byte a => exact ⟨_, _, rfl, by decide⟩
  | word a b => exact ⟨_, _, rfl, by decide⟩

theorem Pushes.takeNumber_append {push : Bytes} (h : Pushes n push) (rest : Bytes) :
    takeNumber (push ++ rest) = some (n, rest) := by
  cases h with
  | code positive small =>
    have value : (UInt8.ofNat (0x50 + n)).toNat = 0x50 + n :=
      UInt8.toNat_ofNat_of_lt' (by change _ < 256; omega)
    have low : (0x51 : UInt8) ≤ UInt8.ofNat (0x50 + n) := by
      rw [UInt8.le_iff_toNat_le, value]
      change 81 ≤ _
      omega
    have high : UInt8.ofNat (0x50 + n) ≤ (0x60 : UInt8) := by
      rw [UInt8.le_iff_toNat_le, value]
      change _ ≤ 96
      omega
    rw [List.singleton_append, takeNumber_cons, if_pos ⟨low, high⟩, value, Nat.add_sub_cancel_left]
  | byte a => rfl
  | word a b => rfl

/-- **A number is taken** just where an instruction pushes it. -/
theorem takeNumber_eq_some_iff :
    takeNumber script = some (n, rest) ↔ ∃ push, Pushes n push ∧ script = push ++ rest := by
  constructor
  · intro h
    cases script with
    | nil => cases h
    | cons code more =>
      rw [takeNumber_cons] at h
      split at h
      · next within =>
        obtain ⟨low, high⟩ := within
        rw [UInt8.le_iff_toNat_le] at low high
        change 81 ≤ code.toNat at low
        change code.toNat ≤ 96 at high
        cases h
        refine ⟨[code], ?_, rfl⟩
        have push := Pushes.code (n := code.toNat - 0x50) (by omega) (by omega)
        rwa [show 0x50 + (code.toNat - 0x50) = code.toNat by omega, UInt8.ofNat_toNat] at push
      · split at h
        · next a more _ =>
          cases h
          exact ⟨[0x01, a], .byte a, rfl⟩
        · next a b more _ =>
          cases h
          exact ⟨[0x02, a, b], .word a b, rfl⟩
        · cases h
  · rintro ⟨push, pushes, rfl⟩
    exact pushes.takeNumber_append rest

/-! ## Keys -/

theorem pushedKeys_cons (key : Bytes) (keys : List Bytes) :
    pushedKeys (key :: keys) = pushKey :: (key ++ pushedKeys keys) := rfl

/-- Keys that are followed by something else are all found. -/
theorem takeKeys_pushedKeys {keys : List Bytes} (sizes : ∀ key ∈ keys, key.length = keySize)
    {code : UInt8} {more : Bytes} (other : code ≠ pushKey) (fuel count : Nat)
    (enough : keys.length < fuel) :
    takeKeys fuel count (pushedKeys keys ++ code :: more) =
      (count + keys.length, code :: more) := by
  induction keys generalizing fuel count with
  | nil =>
    obtain ⟨fuel, rfl⟩ := Nat.exists_eq_succ_of_ne_zero (Nat.ne_of_gt enough)
    exact if_neg other
  | cons key keys ih =>
    obtain ⟨fuel, rfl⟩ := Nat.exists_eq_succ_of_ne_zero (Nat.ne_of_gt (Nat.zero_lt_of_lt enough))
    rw [List.forall_mem_cons] at sizes
    rw [pushedKeys_cons, List.cons_append, List.append_assoc, takeKeys, if_pos rfl, ← sizes.1,
      List.drop_left, ih sizes.2 _ _ (Nat.lt_of_succ_lt_succ enough), List.length_cons,
      Nat.add_assoc, Nat.add_comm 1]

/-- What was taken for keys are keys, unless nothing follows them: then the last one may have been
cut short. -/
theorem exists_keys_of_takeKeys {fuel count : Nat} (h : takeKeys fuel count script = (n, rest))
    (follows : rest ≠ []) : ∃ keys : List Bytes, (∀ key ∈ keys, key.length = keySize) ∧
      n = count + keys.length ∧ script = pushedKeys keys ++ rest := by
  induction fuel generalizing count script with
  | zero =>
    cases h
    exact ⟨[], List.forall_mem_nil _, rfl, rfl⟩
  | succ fuel ih =>
    cases script with
    | nil =>
      cases h
      exact absurd rfl follows
    | cons code more =>
      rw [takeKeys] at h
      split at h
      · next same =>
        obtain ⟨keys, sizes, count_eq, more_eq⟩ := ih h
        have long : keySize ≤ more.length := by
          have nonempty : more.drop keySize ≠ [] := by
            rw [more_eq]
            exact List.append_ne_nil_of_right_ne_nil _ follows
          exact Nat.le_of_lt (Nat.not_le.1 fun short => nonempty (List.drop_eq_nil_of_le short))
        refine ⟨more.take keySize :: keys,
          List.forall_mem_cons.2 ⟨List.length_take_of_le long, sizes⟩, ?_, ?_⟩
        · rw [count_eq, List.length_cons]
          omega
        · rw [same, pushedKeys_cons, List.cons_append, List.append_assoc, ← more_eq,
            List.take_append_drop]
      · cases h
        exact ⟨[], List.forall_mem_nil _, rfl, rfl⟩

theorem length_pushedKeys {keys : List Bytes} (sizes : ∀ key ∈ keys, key.length = keySize) :
    (pushedKeys keys).length = 34 * keys.length := by
  induction keys with
  | nil => rfl
  | cons key keys ih =>
    rw [List.forall_mem_cons] at sizes
    rw [pushedKeys_cons, List.length_cons, List.length_append, sizes.1, ih sizes.2, keySize,
      List.length_cons]
    omega

/-! ## Whole scripts -/

/-- The script after the number of required signatures. -/
theorem Multisig.script_eq (parts : Multisig) : ∃ code more,
    parts.pushCount ++ [checkMultisig] = code :: more ∧ code ≠ pushKey ∧
      parts.script = parts.pushRequired ++ (pushedKeys parts.keys ++ code :: more) := by
  obtain ⟨code, more, count, other⟩ := parts.pushes_count.exists_cons
  refine ⟨code, more ++ [checkMultisig], by rw [count, List.cons_append], other, ?_⟩
  rw [script, ← List.cons_append, ← count, List.append_assoc, List.append_assoc]
  rfl

/-- No such script is shorter than one with a single key. -/
theorem Multisig.length_le (parts : Multisig) : 37 ≤ parts.script.length := by
  obtain ⟨code, more, required, -⟩ := parts.pushes_required.exists_cons
  obtain ⟨code', more', count, -⟩ := parts.pushes_count.exists_cons
  have keys := length_pushedKeys parts.length_key
  have one := parts.one_le_required
  have le := parts.required_le
  simp only [script, required, count, List.length_append, List.length_cons, List.length_nil, keys]
  omega

/-- A script that is accepted can be put together. -/
theorem exists_multisig (h : isMultisig script = true) :
    ∃ parts : Multisig, parts.script = script := by
  rw [isMultisig] at h
  split at h
  · cases h
  · next required after taken =>
    cases found : takeKeys script.length 0 after with
    | mk count behind =>
      rw [found] at h
      dsimp only at h
      split at h
      · next declared code declares =>
        simp only [Bool.and_eq_true, decide_eq_true_eq, beq_iff_eq] at h
        obtain ⟨⟨⟨⟨one_le, le⟩, most⟩, same⟩, last⟩ := h
        obtain ⟨pushRequired, pushes, rfl⟩ := takeNumber_eq_some_iff.1 taken
        obtain ⟨pushCount, pushes', rfl⟩ := takeNumber_eq_some_iff.1 declares
        obtain ⟨keys, sizes, count_eq, rfl⟩ := exists_keys_of_takeKeys found
          (List.append_ne_nil_of_right_ne_nil _ (List.cons_ne_nil _ _))
        rw [Nat.zero_add] at count_eq
        subst last same count_eq
        refine ⟨⟨required, keys, pushRequired, pushCount, pushes, pushes', sizes, one_le, le,
          most⟩, ?_⟩
        rw [Multisig.script, List.append_assoc, List.append_assoc]
        rfl
      · cases h

/-- A script that was put together is accepted. -/
theorem isMultisig_script (parts : Multisig) : isMultisig parts.script = true := by
  obtain ⟨code, more, behind, other, script_eq⟩ := parts.script_eq
  have enough : parts.keys.length < parts.script.length := by
    have keys := length_pushedKeys parts.length_key
    rw [script_eq, List.length_append, List.length_append, List.length_cons, keys]
    omega
  rw [isMultisig, script_eq, parts.pushes_required.takeNumber_append, ← script_eq]
  dsimp only
  rw [takeKeys_pushedKeys parts.length_key other _ _ enough]
  dsimp only
  rw [← behind, parts.pushes_count.takeNumber_append]
  simp [parts.one_le_required, parts.required_le, maxKeys, parts.keys_le]

/-- **The scripts that are accepted** are those that can be put together. -/
theorem isMultisig_iff : isMultisig script = true ↔ ∃ parts : Multisig, parts.script = script :=
  ⟨exists_multisig, fun ⟨parts, same⟩ => same ▸ isMultisig_script parts⟩

/-! ## Scanning by positions -/

/-- A scan has read behind the end of a script. -/
inductive ScanFault where
  /-- There is no byte at a position. -/
  | behindEnd (position : Nat)

/-- The byte at a position. -/
def byteAt (script : Bytes) (position : Nat) : Except ScanFault UInt8 :=
  match script[position]? with
  | some byte => .ok byte
  | none => .error (.behindEnd position)

/-- The number that is pushed at a position and the position after it, if one is pushed. -/
def numberAt (script : Bytes) (position : Nat) : Except ScanFault (Option (Nat × Nat)) := do
  let code ← byteAt script position
  if 0x51 ≤ code ∧ code ≤ 0x60 then
    return some (code.toNat - 0x50, position + 1)
  else if code = 0x01 ∧ position + 1 < script.length then
    return some ((← byteAt script (position + 1)).toNat, position + 2)
  else if code = 0x02 ∧ position + 2 < script.length then
    let low ← byteAt script (position + 1)
    let high ← byteAt script (position + 2)
    return some (Bytes.toNatLE [low, high], position + 3)
  else
    return none

/-- How many keys are pushed from a position on, added to those before, and the position after
them.  Only the codes are looked at, so the last leap may go behind the end. -/
def keysAt (script : Bytes) (position count : Nat) : Except ScanFault (Nat × Nat) :=
  if position < script.length then do
    if (← byteAt script position) = pushKey then
      keysAt script (position + 1 + keySize) (count + 1)
    else
      return (count, position)
  else
    return (count, position)
termination_by script.length - position
decreasing_by omega

/-- Does the script check several signatures? -/
def scan (script : Bytes) : Except ScanFault Bool := do
  if script.length < 37 then return false
  match ← numberAt script 0 with
  | none => return false
  | some (required, position) =>
    let (count, position) ← keysAt script position 0
    if script.length ≤ position ∨ ¬(1 ≤ required ∧ required ≤ count ∧ count ≤ maxKeys) then
      return false
    match ← numberAt script position with
    | none => return false
    | some (declared, position) =>
      if declared ≠ count ∨ position + 1 ≠ script.length then return false
      return (← byteAt script position) == checkMultisig

theorem byteAt_eq {script : Bytes} {position : Nat} {code : UInt8} {more : Bytes}
    (here : script.drop position = code :: more) : byteAt script position = .ok code := by
  have found : script[position]? = some code := by
    rw [← List.head?_drop, here, List.head?_cons]
  rw [byteAt, found]

theorem drop_succ {script : Bytes} {position : Nat} {code : UInt8} {more : Bytes}
    (here : script.drop position = code :: more) : script.drop (position + 1) = more := by
  rw [← List.drop_drop, here]
  rfl

/-- Inside the script the number is read as it is taken from the front. -/
theorem numberAt_eq {script : Bytes} {position : Nat} (inside : position < script.length) :
    (takeNumber (script.drop position) = none ∧ numberAt script position = .ok none) ∨
      ∃ n next, takeNumber (script.drop position) = some (n, script.drop next) ∧
        numberAt script position = .ok (some (n, next)) := by
  obtain ⟨code, more, here⟩ :=
    List.exists_cons_of_ne_nil fun h => absurd (List.drop_eq_nil_iff.1 h) (Nat.not_le.2 inside)
  have after := drop_succ here
  have left : more.length = script.length - (position + 1) := by rw [← after, List.length_drop]
  rw [numberAt, byteAt_eq here, here, takeNumber_cons]
  dsimp only [bind, Except.bind]
  by_cases within : 0x51 ≤ code ∧ code ≤ 0x60
  · rw [if_pos within, if_pos within]
    exact .inr ⟨_, position + 1, by rw [after], rfl⟩
  rw [if_neg within, if_neg within]
  by_cases one : code = 0x01
  · subst one
    cases more with
    | nil =>
      rw [if_neg fun h => by rw [List.length_nil] at left; omega]
      exact .inl ⟨rfl, rfl⟩
    | cons a more =>
      rw [List.length_cons] at left
      rw [if_pos ⟨rfl, by omega⟩, byteAt_eq after]
      exact .inr ⟨_, position + 2, by rw [drop_succ after]; rfl, rfl⟩
  rw [if_neg fun h => one h.1]
  by_cases two : code = 0x02
  · subst two
    match more, left, after with
    | [], left, _ | [_], left, _ =>
      rw [if_neg fun h => by simp only [List.length_cons, List.length_nil] at left; omega]
      exact .inl ⟨rfl, rfl⟩
    | a :: b :: more, left, after =>
      simp only [List.length_cons] at left
      rw [if_pos ⟨rfl, by omega⟩, byteAt_eq after, byteAt_eq (drop_succ after)]
      exact .inr ⟨_, position + 3, by rw [drop_succ (drop_succ after)]; rfl, rfl⟩
  rw [if_neg fun h => two h.1]
  refine .inl ⟨?_, rfl⟩
  split
  · exact absurd rfl one
  · exact absurd rfl two
  · rfl

theorem keysAt_eq {script : Bytes} {fuel position : Nat} (count : Nat)
    (enough : script.length - position ≤ fuel) : ∃ n next,
      takeKeys fuel count (script.drop position) = (n, script.drop next) ∧
        keysAt script position count = .ok (n, next) := by
  induction fuel generalizing position count with
  | zero =>
    have outside : ¬position < script.length := by omega
    rw [keysAt, if_neg outside]
    exact ⟨count, position, rfl, rfl⟩
  | succ fuel ih =>
    by_cases inside : position < script.length
    · obtain ⟨code, more, here⟩ := List.exists_cons_of_ne_nil fun h =>
        absurd (List.drop_eq_nil_iff.1 h) (Nat.not_le.2 inside)
      rw [keysAt, if_pos inside, byteAt_eq here, here, takeKeys]
      dsimp only [bind, Except.bind]
      by_cases same : code = pushKey
      · rw [if_pos same, if_pos same, ← drop_succ here, List.drop_drop]
        exact ih _ (by omega)
      · rw [if_neg same, if_neg same]
        exact ⟨count, position, by rw [here], rfl⟩
    · rw [keysAt, if_neg inside, List.drop_eq_nil_of_le (Nat.not_lt.1 inside)]
      exact ⟨count, position, by rw [List.drop_eq_nil_of_le (Nat.not_lt.1 inside)]; rfl, rfl⟩

/-- Behind the keys the number of keys must follow, and then the check as the last byte. -/
theorem scan_end {position required count : Nat} (inside : position < script.length)
    (bounds : 1 ≤ required ∧ required ≤ count ∧ count ≤ maxKeys) :
    (do match ← numberAt script position with
        | none => return false
        | some (declared, position) =>
          if declared ≠ count ∨ position + 1 ≠ script.length then return false
          return (← byteAt script position) == checkMultisig : Except ScanFault Bool) =
      .ok (match takeNumber (script.drop position) with
        | some (declared, [code]) =>
          1 ≤ required && required ≤ count && count ≤ maxKeys && declared == count &&
            code == checkMultisig
        | _ => false) := by
  rcases numberAt_eq inside with ⟨none, read⟩ | ⟨declared, last, taken, read⟩
  · rw [read, none]
    rfl
  rw [read, taken]
  dsimp only [bind, Except.bind]
  by_cases ends : last + 1 = script.length
  · obtain ⟨code, here⟩ : ∃ code, script.drop last = [code] :=
      List.length_eq_one_iff.1 (by rw [List.length_drop]; omega)
    rw [byteAt_eq here, here]
    have bounded : (decide (1 ≤ required) && decide (required ≤ count) &&
        decide (count ≤ maxKeys)) = true := by simp [bounds]
    dsimp only
    rw [bounded]
    by_cases same : declared = count
    · rw [if_neg fun h => h.elim (· same) (· ends), same, beq_self_eq_true]
      rfl
    · rw [if_pos (.inl same), beq_false_of_ne same]
      rfl
  · rw [if_pos (.inr ends)]
    split
    · next here =>
      have one := congrArg List.length (Prod.mk.inj (Option.some.inj here)).2
      rw [List.length_drop, List.length_singleton] at one
      omega
    · rfl

/-- **The scan** never reads behind the end, and it accepts the same scripts. -/
theorem scan_eq (script : Bytes) : scan script = .ok (isMultisig script) := by
  by_cases short : script.length < 37
  · have refused : isMultisig script = false := by
      rw [← Bool.not_eq_true, isMultisig_iff]
      rintro ⟨parts, rfl⟩
      exact Nat.not_lt.2 parts.length_le short
    rw [scan, if_pos short, refused]
    rfl
  rw [scan, if_neg short, isMultisig]
  rcases numberAt_eq (Nat.zero_lt_of_lt (Nat.not_lt.1 short)) with
    ⟨none, read⟩ | ⟨required, position, taken, read⟩
  · rw [List.drop_zero] at none
    rw [read, none]
    rfl
  rw [List.drop_zero] at taken
  obtain ⟨count, behind, found, read'⟩ := keysAt_eq 0 (Nat.sub_le script.length position)
  rw [read, taken]
  dsimp only [bind, Except.bind]
  rw [read', found]
  dsimp only
  by_cases outside : script.length ≤ behind
  · rw [if_pos (.inl outside), List.drop_eq_nil_of_le outside]
    rfl
  by_cases bounds : 1 ≤ required ∧ required ≤ count ∧ count ≤ maxKeys
  · rw [if_neg fun h => h.elim outside fun h => h bounds]
    exact scan_end (Nat.not_le.1 outside) bounds
  · rw [if_pos (.inr bounds)]
    split
    · have refused : (decide (1 ≤ required) && decide (required ≤ count) &&
          decide (count ≤ maxKeys)) = false := by
        simpa [Bool.and_eq_false_iff, and_assoc] using bounds
      rw [refused]
      rfl
    · rfl

/-- **A script is recognized** without reading behind its end, and just where it is the push of a
number of signatures, the pushes of no fewer keys, the push of the number of keys and the check. -/
theorem multisig_is_recognized (script : Bytes) : scan script = .ok (isMultisig script) ∧
    (isMultisig script = true ↔ ∃ parts : Multisig, parts.script = script) :=
  ⟨scan_eq script, isMultisig_iff⟩

/-- Numbers may be longer than they need to be, and keys may not be cut short. -/
example :
    let key : Bytes := 0x21 :: List.replicate 33 2
    isMultisig ([0x01, 1] ++ key ++ key ++ [0x02, 2, 0, 0xAE]) = true ∧
      isMultisig ([0x51] ++ key ++ key.dropLast ++ [0x52, 0xAE]) = false := by decide

end DryRun.Standard
