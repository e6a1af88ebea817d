import DryRun.Bytes
import DryRun.Text.Quoted

/-!
# Operation codes

The first byte of an instruction says what it does.  The codes form families, one for each part of
the machine that an instruction works on; `Opcode.ofByte` finds the operation of a code and
`Opcode.nameOf` the name of a number read as a code.
-/

set_option autoImplicit false

namespace DryRun

/-- Operations on the order of execution. -/
inductive FlowOp where
  /-- Do nothing. -/
  | nop
  /-- Jump. -/
  | jump
  /-- Jump if the top item is true. -/
  | jumpIf
  /-- Jump if the top item is false. -/
  | jumpIfNot
  /-- Run another place of the same script, then go on. -/
  | call
  /-- Leave the frame. -/
  | ret
  /-- Run another contract, then go on. -/
  | appCall
  /-- Ask the system. -/
  | sysCall
  /-- Run another contract in place of this frame. -/
  | tailCall
  /-- Fail. -/
  | throw
  /-- Fail unless the top item is true. -/
  | throwIfNot
deriving DecidableEq

/-- Rearrangements of the two stacks. -/
inductive StackOp where
  /-- Copy the top of the alternative stack. -/
  | dupFromAlt
  /-- Move the top to the alternative stack. -/
  | toAlt
  /-- Move the top of the alternative stack back. -/
  | fromAlt
  /-- Drop the item at a given position. -/
  | dropAt
  /-- Exchange the top with the item at a given position. -/
  | swapAt
  /-- Copy the top to a given position. -/
  | tuckAt
  /-- Push the number of items. -/
  | depth
  /-- Drop the top. -/
  | drop
  /-- Copy the top. -/
  | dup
  /-- Drop the second item. -/
  | nip
  /-- Copy the second item. -/
  | over
  /-- Copy the item at a given position. -/
  | pick
  /-- Move the item at a given position to the top. -/
  | roll
  /-- Move the third item to the top. -/
  | rot
  /-- Exchange the top two items. -/
  | swap
  /-- Copy the top below the second item. -/
  | tuck
deriving DecidableEq

/-- Operations on byte strings. -/
inductive SpliceOp where
  /-- Join two byte strings. -/
  | cat
  /-- Cut out a part. -/
  | substr
  /-- Keep the first bytes. -/
  | left
  /-- Keep the last bytes. -/
  | right
  /-- The number of bytes. -/
  | size
deriving DecidableEq

/-- Functions of one integer. -/
inductive UnaryOp where
  /-- Every bit flipped. -/
  | invert
  /-- One more. -/
  | inc
  /-- One less. -/
  | dec
  /-- The sign. -/
  | sign
  /-- The negative. -/
  | negate
  /-- The absolute value. -/
  | abs
deriving DecidableEq

/-- Functions of two integers whose result is an integer. -/
inductive BinaryOp where
  /-- The common bits. -/
  | and
  /-- The bits of either. -/
  | or
  /-- The bits of exactly one. -/
  | xor
  /-- The sum. -/
  | add
  /-- The difference. -/
  | sub
  /-- The product. -/
  | mul
  /-- The quotient, rounded toward zero. -/
  | div
  /-- The remainder, with the sign of the first operand. -/
  | mod
  /-- The smaller. -/
  | min
  /-- The larger. -/
  | max
deriving DecidableEq

/-- Comparisons of two integers. -/
inductive CompareOp where
  /-- Equal. -/
  | numEqual
  /-- Not equal. -/
  | numNotEqual
  /-- Less. -/
  | lt
  /-- Greater. -/
  | gt
  /-- Less or equal. -/
  | lte
  /-- Greater or equal. -/
  | gte
deriving DecidableEq

/-- The two directions of a shift. -/
inductive ShiftOp where
  /-- Multiply by a power of two. -/
  | left
  /-- Divide by a power of two, rounding down. -/
  | right
deriving DecidableEq

/-- Operations whose result is a truth value. -/
inductive LogicOp where
  /-- Are two items equal? -/
  | equal
  /-- Not. -/
  | not
  /-- Is an integer other than zero? -/
  | nonzero
  /-- Both. -/
  | and
  /-- At least one. -/
  | or
  /-- Does an integer lie in a range? -/
  | within
deriving DecidableEq

/-- Digests and signatures. -/
inductive CryptoOp where
  /-- The SHA-1 digest. -/
  | sha1
  /-- The SHA-256 digest. -/
  | sha256
  /-- The digest that names scripts. -/
  | hash160
  /-- The digest that names blocks and transactions. -/
  | hash256
  /-- Check a signature of the message of the run. -/
  | checkSig
  /-- Check a signature of a given message. -/
  | verify
  /-- Check several signatures against several keys. -/
  | checkMultisig
deriving DecidableEq

/-- Operations on collections. -/
inductive CollectionOp where
  /-- The number of elements. -/
  | arraySize
  /-- Make an array of the top items. -/
  | pack
  /-- Push the elements of a sequence. -/
  | unpack
  /-- Look up an element. -/
  | pickItem
  /-- Replace an element. -/
  | setItem
  /-- Make an array. -/
  | newArray
  /-- Make a struct. -/
  | newStruct
  /-- Make a map. -/
  | newMap
  /-- Add an element at the end. -/
  | append
  /-- Reverse the order of the elements. -/
  | reverse
  /-- Drop an element. -/
  | remove
  /-- Is there an element? -/
  | hasKey
  /-- The keys of a map. -/
  | keys
  /-- The values of a collection. -/
  | values
deriving DecidableEq

/-- What an instruction does. -/
inductive Opcode where
  /-- Push the operand, of which there are `n` bytes if the code itself says so. -/
  | pushBytes (n : Nat)
  /-- Push the operand, whose length stands in front in `width` bytes. -/
  | pushData (width : Nat)
  /-- Push an integer. -/
  | pushInt (value : Int)
  /-- Change the order of execution. -/
  | flow (op : FlowOp)
  /-- Rearrange the stacks. -/
  | stack (op : StackOp)
  /-- Work on byte strings. -/
  | splice (op : SpliceOp)
  /-- A function of one integer. -/
  | unary (op : UnaryOp)
  /-- A function of two integers. -/
  | binary (op : BinaryOp)
  /-- A comparison. -/
  | compare (op : CompareOp)
  /-- A shift. -/
  | shift (op : ShiftOp)
  /-- A truth value. -/
  | logic (op : LogicOp)
  /-- A digest or a signature. -/
  | crypto (op : CryptoOp)
  /-- Work on collections. -/
  | collection (op : CollectionOp)
  /-- A code among those of arithmetic that has no operation of its own: it takes two integers and
  then fails. -/
  | reserved
  /-- A code without an operation. -/
  | unknown
deriving DecidableEq

namespace Opcode

/-- The operation of a code. -/
def ofByte (code : UInt8) : Opcode :=
  if code ≤ 0x4B then .pushBytes code.toNat
  else if 0x51 ≤ code ∧ code ≤ 0x60 then .pushInt (code.toNat - 0x50)
  else match code with
  | 0x4C => .pushData 1
  | 0x4D => .pushData 2
  | 0x4E => .pushData 4
  | 0x4F => .pushInt (-1)
  | 0x61 => .flow .nop
  | 0x62 => .flow .jump
  | 0x63 => .flow .jumpIf
  | 0x64 => .flow .jumpIfNot
  | 0x65 => .flow .call
  | 0x66 => .flow .ret
  | 0x67 => .flow .appCall
  | 0x68 => .flow .sysCall
  | 0x69 => .flow .tailCall
  | 0x6A => .stack .dupFromAlt
  | 0x6B => .stack .toAlt
  | 0x6C => .stack .fromAlt
  | 0x6D => .stack .dropAt
  | 0x72 => .stack .swapAt
  | 0x73 => .stack .tuckAt
  | 0x74 => .stack .depth
  | 0x75 => .stack .drop
  | 0x76 => .stack .dup
  | 0x77 => .stack .nip
  | 0x78 => .stack .over
  | 0x79 => .stack .pick
  | 0x7A => .stack .roll
  | 0x7B => .stack .rot
  | 0x7C => .stack .swap
  | 0x7D => .stack .tuck
  | 0x7E => .splice .cat
  | 0x7F => .splice .substr
  | 0x80 => .splice .left
  | 0x81 => .splice .right
  | 0x82 => .splice .size
  | 0x83 => .unary .invert
  | 0x84 => .binary .and
  | 0x85 => .binary .or
  | 0x86 => .binary .xor
  | 0x87 => .logic .equal
  | 0x88 | 0x89 | 0x8A | 0x8E | 0x9D => .reserved
  | 0x8B => .unary .inc
  | 0x8C => .unary .dec
  | 0x8D => .unary .sign
  | 0x8F => .unary .negate
  | 0x90 => .unary .abs
  | 0x91 => .logic .not
  | 0x92 => .logic .nonzero
  | 0x93 => .binary .add
  | 0x94 => .binary .sub
  | 0x95 => .binary .mul
  | 0x96 => .binary .div
  | 0x97 => .binary .mod
  | 0x98 => .shift .left
  | 0x99 => .shift .right
  | 0x9A => .logic .and
  | 0x9B => .logic .or
  | 0x9C => .compare .numEqual
  | 0x9E => .compare .numNotEqual
  | 0x9F => .compare .lt
  | 0xA0 => .compare .gt
  | 0xA1 => .compare .lte
  | 0xA2 => .compare .gte
  | 0xA3 => .binary .min
  | 0xA4 => .binary .max
  | 0xA5 => .logic .within
  | 0xA7 => .crypto .sha1
  | 0xA8 => .crypto .sha256
  | 0xA9 => .crypto .hash160
  | 0xAA => .crypto .hash256
  | 0xAC => .crypto .checkSig
  | 0xAD => .crypto .verify
  | 0xAE => .crypto .checkMultisig
  | 0xC0 => .collection .arraySize
  | 0xC1 => .collection .pack
  | 0xC2 => .collection .unpack
  | 0xC3 => .collection .pickItem
  | 0xC4 => .collection .setItem
  | 0xC5 => .collection .newArray
  | 0xC6 => .collection .newStruct
  | 0xC7 => .collection .newMap
  | 0xC8 => .collection .append
  | 0xC9 => .collection .reverse
  | 0xCA => .collection .remove
  | 0xCB => .collection .hasKey
  | 0xCC => .collection .keys
  | 0xCD => .collection .values
  | 0xF0 => .flow .throw
  | 0xF1 => .flow .throwIfNot
  | _ => .unknown

/-! ## Names -/

/-- The name of an operation on the order of execution. -/
def flowName : FlowOp → String
  | .nop => "NOP"
  | .jump => "JMP"
  | .jumpIf => "JMPIF"
  | .jumpIfNot => "JMPIFNOT"
  | .call => "CALL"
  | .ret => "RET"
  | .appCall => "APPCALL"
  | .sysCall => "SYSCALL"
  | .tailCall => "TAILCALL"
  | .throw => "THROW"
  | .throwIfNot => "THROWIFNOT"

/-- The name of a rearrangement. -/
def stackName : StackOp → String
  | .dupFromAlt => "DUPFROMALTSTACK"
  | .toAlt => "TOALTSTACK"
  | .fromAlt => "FROMALTSTACK"
  | .dropAt => "XDROP"
  | .swapAt => "XSWAP"
  | .tuckAt => "XTUCK"
  | .depth => "DEPTH"
  | .drop => "DROP"
  | .dup => "DUP"
  | .nip => "NIP"
  | .over => "OVER"
  | .pick => "PICK"
  | .roll => "ROLL"
  | .rot => "ROT"
  | .swap => "SWAP"
  | .tuck => "TUCK"

/-- The name of an operation on byte strings. -/
def spliceName : SpliceOp → String
  | .cat => "CAT"
  | .substr => "SUBSTR"
  | .left => "LEFT"
  | .right => "RIGHT"
  | .size => "SIZE"

/-- The name of a function of one integer. -/
def unaryName : UnaryOp → String
  | .invert => "INVERT"
  | .inc => "INC"
  | .dec => "DEC"
  | .sign => "SIGN"
  | .negate => "NEGATE"
  | .abs => "ABS"

/-- The name of a function of two integers. -/
def binaryName : BinaryOp → String
  | .and => "AND"
  | .or => "OR"
  | .xor => "XOR"
  | .add => "ADD"
  | .sub => "SUB"
  | .mul => "MUL"
  | .div => "DIV"
  | .mod => "MOD"
  | .min => "MIN"
  | .max => "MAX"

/-- The name of a comparison. -/
def compareName : CompareOp → String
  | .numEqual => "NUMEQUAL"
  | .numNotEqual => "NUMNOTEQUAL"
  | .lt => "LT"
  | .gt => "GT"
  | .lte => "LTE"
  | .gte => "GTE"

/-- The name of an operation whose result is a truth value. -/
def logicName : LogicOp → String
  | .equal => "EQUAL"
  | .not => "NOT"
  | .nonzero => "NZ"
  | .and => "BOOLAND"
  | .or => "BOOLOR"
  | .within => "WITHIN"

/-- The name of a digest or signature operation. -/
def cryptoName : CryptoOp → String
  | .sha1 => "SHA1"
  | .sha256 => "SHA256"
  | .hash160 => "HASH160"
  | .hash256 => "HASH256"
  | .checkSig => "CHECKSIG"
  | .verify => "VERIFY"
  | .checkMultisig => "CHECKMULTISIG"

/-- The name of an operation on collections. -/
def collectionName : CollectionOp → String
  | .arraySize => "ARRAYSIZE"
  | .pack => "PACK"
  | .unpack => "UNPACK"
  | .pickItem => "PICKITEM"
  | .setItem => "SETITEM"
  | .newArray => "NEWARRAY"
  | .newStruct => "NEWSTRUCT"
  | .newMap => "NEWMAP"
  | .append => "APPEND"
  | .reverse => "REVERSE"
  | .remove => "REMOVE"
  | .hasKey => "HASKEY"
  | .keys => "KEYS"
  | .values => "VALUES"

/-- The name of an operation, if it has one. -/
def name? : Opcode → Option String
  | .pushBytes 0 => some "PUSH0"
  | .pushBytes n => some s!"PUSHBYTES{n}"
  | .pushData width => some s!"PUSHDATA{width}"
  | .pushInt (-1) => some "PUSHM1"
  | .pushInt value => some s!"PUSH{value}"
  | .flow op => some (flowName op)
  | .stack op => some (stackName op)
  | .splice op => some (spliceName op)
  | .unary op => some (unaryName op)
  | .binary op => some (binaryName op)
  | .compare op => some (compareName op)
  | .shift .left => some "SHL"
  | .shift .right => some "SHR"
  | .logic op => some (logicName op)
  | .crypto op => some (cryptoName op)
  | .collection op => some (collectionName op)
  | .reserved => none
  | .unknown => none

/-- An integer in hexadecimal with at least two characters after the mark. -/
def numberText (n : Int) : String :=
  let digits := Nat.toDigits 16 n.natAbs
  let lead := if n < 0 then ['-'] else List.replicate (2 - digits.length) '0'
  "0x" ++ String.ofList (lead ++ digits)

/-- The name of a number read as a code: the name of the operation, or else the number. -/
def nameOf (code : Int) : String :=
  if 0 ≤ code ∧ code < 256 then
    ((ofByte (.ofNat code.toNat)).name?).getD (numberText code)
  else numberText code

end Opcode

end DryRun
