import GhitaBrowser.Lib.Outcome
import Mathlib.Data.Nat.Bitwise

/-!
# Runtime values and the numeric instructions

`exec_numeric` of `wasm_interp.rs`. The operand stack is a list with its top first.
A float is kept as its bits; an operation on it goes through Lean's `Float32` and
`Float`, or through the bits where Rust's own does (`abs`, `-`, `copysign`, the
rounding functions).

Rust panics on a shift by the width or more and on an integer division by zero. The
checked forms below keep that, and `execNumeric_returns` shows that no opcode
reaches it.
-/

namespace GhitaBrowser.Wasm

inductive WasmValue where
  | i32 (value : BitVec 32)
  | i64 (value : BitVec 64)
  | f32 (bits : BitVec 32)
  | f64 (bits : BitVec 64)
deriving DecidableEq, Repr

abbrev OperandStack : Type := List WasmValue

/-! ## Values in messages -/

/-- The shortest decimal that stands for the positive float `value / unit`, which rounds from
every number between `value - minus` and `value + plus`: its digits and where its point is. -/
def shortestDigits (value minus plus unit : Nat) (inclusive : Bool) : Option (List Char × Int) := do
  let within (low high : Nat) : Bool := if inclusive then low ≤ high else low < high
  let place ← (List.range 700).find? fun place =>
    !within (unit * 10 ^ place) ((value + plus) * 10 ^ 345)
  (List.range 18).findSome? fun count => do
    let scale := 10 ^ (345 + count)
    let step := unit * 10 ^ place
    let (digits, rest) := (value * scale / step, value * scale % step)
    let (down, up) := (within rest (minus * scale), within (step - rest) (plus * scale))
    guard (down || up)
    let digits := Nat.toDigits 10 (if up && (!down || step ≤ 2 * rest) then digits + 1 else digits)
    let point := Int.ofNat (place + digits.length) - Int.ofNat (345 + count)
    some ((digits.reverse.dropWhile (· = '0')).reverse, point)

/-- The text of `{:?}` for the IEEE number with these bits. -/
def debugFloat (mantissa bias : Nat) {w : Nat} (bits : BitVec w) : String :=
  let magnitude := bits.toNat % 2 ^ (w - 1)
  let (exponent, fraction) := (magnitude / 2 ^ mantissa, magnitude % 2 ^ mantissa)
  let sign := if bits.msb then "-" else ""
  if exponent = 2 * bias + 1 then if fraction = 0 then sign ++ "inf" else "NaN"
  else if magnitude = 0 then sign ++ "0.0"
  else
    -- In quarters of the last place: a power of two has its lower neighbour half as far away.
    let value := 4 * (if exponent = 0 then fraction else 2 ^ mantissa + fraction)
    let minus := if fraction = 0 then 1 else 2
    let (up, down) := (max exponent 1 - (bias + mantissa + 2), bias + mantissa + 2 - max exponent 1)
    match shortestDigits (value * 2 ^ up) (minus * 2 ^ up) (2 * 2 ^ up) (2 ^ down)
        (exponent = 0 || fraction % 2 = 0) with
    | none => sign
    | some (digits, point) =>
      let text :=
        if point ≤ -4 || 17 ≤ point then
          digits.take 1 ++ (if digits.length = 1 then [] else '.' :: digits.drop 1) ++
            'e' :: (toString (point - 1)).toList
        else if point ≤ 0 then "0.".toList ++ List.replicate (-point).toNat '0' ++ digits
        else
          let whole := digits ++ List.replicate (point.toNat - digits.length) '0'
          let rest := whole.drop point.toNat
          whole.take point.toNat ++ '.' :: (if rest.isEmpty then ['0'] else rest)
      sign ++ String.ofList text

def WasmValue.debug : WasmValue → String
  | .i32 value => s!"I32({value.toInt})"
  | .i64 value => s!"I64({value.toInt})"
  | .f32 bits => "F32(" ++ debugFloat 23 127 bits ++ ")"
  | .f64 bits => "F64(" ++ debugFloat 52 1023 bits ++ ")"

/-! ## Operations that panic -/

section Checked

variable {w : Nat}

def checkedShl (value : BitVec w) (amount : Nat) : Outcome (BitVec w) :=
  if amount < w then .ok (value <<< amount) else .panic

def checkedUshr (value : BitVec w) (amount : Nat) : Outcome (BitVec w) :=
  if amount < w then .ok (value >>> amount) else .panic

def checkedSshr (value : BitVec w) (amount : Nat) : Outcome (BitVec w) :=
  if amount < w then .ok (value.sshiftRight amount) else .panic

/-- An integer division or remainder: `op` on a divisor that is not zero. -/
def checkedDiv (op : BitVec w → BitVec w → BitVec w) (a b : BitVec w) : Outcome (BitVec w) :=
  if b = 0 then .panic else .ok (op a b)

theorem checkedShl_of_lt (value : BitVec w) {amount : Nat} (h : amount < w) :
    checkedShl value amount = .ok (value <<< amount) := if_pos h

theorem checkedUshr_of_lt (value : BitVec w) {amount : Nat} (h : amount < w) :
    checkedUshr value amount = .ok (value >>> amount) := if_pos h

theorem checkedSshr_of_lt (value : BitVec w) {amount : Nat} (h : amount < w) :
    checkedSshr value amount = .ok (value.sshiftRight amount) := if_pos h

theorem checkedDiv_of_ne (op : BitVec w → BitVec w → BitVec w) (a : BitVec w) {b : BitVec w}
    (h : b ≠ 0) : checkedDiv op a b = .ok (op a b) := if_neg h

end Checked

/-! ## Floats -/

inductive Rounding where
  | ceil | floor | trunc | nearest
deriving DecidableEq, Repr

/-- Whether rounding goes away from zero, given the sign and how the dropped part
compares with one half (`half`) and with an odd integer below it (`tie`). -/
def Rounding.away : Rounding → Bool → Bool → Bool → Bool
  | .ceil, negative, _, _ => !negative
  | .floor, negative, _, _ => negative
  | .trunc, _, _, _ => false
  | .nearest, _, half, tie => half || tie

/-- Round the IEEE number with these bits to an integral one. `mantissa` is the number
of stored mantissa bits and `bias` the exponent bias. -/
def roundIntegral (mode : Rounding) (mantissa bias : Nat) {w : Nat} (bits : BitVec w) :
    BitVec w :=
  let negative := bits.msb
  let magnitude := bits.toNat % 2 ^ (w - 1)
  let exponent := magnitude / 2 ^ mantissa
  let rounded :=
    if exponent ≥ bias + mantissa then magnitude
    else if exponent < bias then
      let half := (bias - 1) * 2 ^ mantissa
      if magnitude ≠ 0 ∧ mode.away negative (magnitude > half) false then bias * 2 ^ mantissa
      else 0
    else
      let unit := 2 ^ (bias + mantissa - exponent)
      let dropped := magnitude % unit
      let base := magnitude - dropped
      let tie := 2 * dropped = unit ∧ base / unit % 2 = 1
      if dropped ≠ 0 ∧ mode.away negative (2 * dropped > unit) tie then base + unit else base
  BitVec.ofNat w (rounded + if negative then 2 ^ (w - 1) else 0)

def toF32 (bits : BitVec 32) : Float32 := Float32.ofBits ⟨bits⟩
def toF64 (bits : BitVec 64) : Float := Float.ofBits ⟨bits⟩
def ofF32 (value : Float32) : WasmValue := .f32 value.toBits.toBitVec
def ofF64 (value : Float) : WasmValue := .f64 value.toBits.toBitVec
/-- `from_le_bytes`. -/
def littleEndian (w : Nat) : List UInt8 → BitVec w
  | [] => 0
  | byte :: rest => byte.toBitVec.setWidth w ||| (littleEndian w rest <<< 8)

/-- The low `count` bytes of `to_le_bytes`. -/
def toLittleEndian {w : Nat} : Nat → BitVec w → List UInt8
  | 0, _ => []
  | count + 1, value => ⟨value.setWidth 8⟩ :: toLittleEndian count (value >>> 8)

def ofBool (b : Bool) : WasmValue := .i32 (if b then 1 else 0)

def absBits {w : Nat} (bits : BitVec w) : BitVec w := bits &&& ~~~BitVec.intMin w
def negBits {w : Nat} (bits : BitVec w) : BitVec w := bits ^^^ BitVec.intMin w
def copysignBits {w : Nat} (a b : BitVec w) : BitVec w :=
  absBits a ||| (b &&& BitVec.intMin w)

def wasmMinF32 (a b : BitVec 32) : WasmValue :=
  let (x, y) := (toF32 a, toF32 b)
  if x.isNaN || y.isNaN then .f32 0x7FC00000
  else if x == 0 && y == 0 then .f32 (if a.msb then a else b)
  else .f32 (if x < y then a else b)

def wasmMaxF32 (a b : BitVec 32) : WasmValue :=
  let (x, y) := (toF32 a, toF32 b)
  if x.isNaN || y.isNaN then .f32 0x7FC00000
  else if x == 0 && y == 0 then .f32 (if !a.msb then a else b)
  else .f32 (if x > y then a else b)

def wasmMinF64 (a b : BitVec 64) : WasmValue :=
  let (x, y) := (toF64 a, toF64 b)
  if x.isNaN || y.isNaN then .f64 0x7FF8000000000000
  else if x == 0 && y == 0 then .f64 (if a.msb then a else b)
  else .f64 (if x < y then a else b)

def wasmMaxF64 (a b : BitVec 64) : WasmValue :=
  let (x, y) := (toF64 a, toF64 b)
  if x.isNaN || y.isNaN then .f64 0x7FF8000000000000
  else if x == 0 && y == 0 then .f64 (if !a.msb then a else b)
  else .f64 (if x > y then a else b)

/-- `value as u64` of a float that is an integer of magnitude below 2^64, with its sign. -/
def integralToInt (value : Float) : Int :=
  if value < 0 then -(value.abs.toUInt64.toNat : Int) else value.toUInt64.toNat

/-- The four `trunc_f64_to_*`: truncate, then trap outside the open or half-open
range that `inRange` tests. -/
def truncF64 (w : Nat) (inRange : Float → Bool) (bits : BitVec 64) : Outcome (BitVec w) :=
  if (toF64 bits).isNaN then .err "invalid conversion to integer"
  else
    let truncated := toF64 (roundIntegral .trunc 52 1023 bits)
    if !inRange truncated then .err "integer overflow"
    else .ok (BitVec.ofInt w (integralToInt truncated))

def truncF64ToI32 : BitVec 64 → Outcome (BitVec 32) :=
  truncF64 32 fun t => -2147483648 ≤ t && t < 2147483648
def truncF64ToU32 : BitVec 64 → Outcome (BitVec 32) :=
  truncF64 32 fun t => -1 < t && t < 4294967296
def truncF64ToI64 : BitVec 64 → Outcome (BitVec 64) :=
  truncF64 64 fun t => -9223372036854775808 ≤ t && t < 9223372036854775808
def truncF64ToU64 : BitVec 64 → Outcome (BitVec 64) :=
  truncF64 64 fun t => -1 < t && t < 18446744073709551616

/-- `f32 as f64`, on bits. -/
def promote (bits : BitVec 32) : BitVec 64 := (toF32 bits).toFloat.toBits.toBitVec

/-! ## Popping operands -/

def popI32 : OperandStack → Outcome (BitVec 32 × OperandStack)
  | .i32 value :: stack => .ok (value, stack)
  | [] => .err "numeric op on empty stack"
  | other :: _ => .err ("Expected i32, got " ++ other.debug)

def popI64 : OperandStack → Outcome (BitVec 64 × OperandStack)
  | .i64 value :: stack => .ok (value, stack)
  | [] => .err "numeric op on empty stack"
  | other :: _ => .err ("Expected i64, got " ++ other.debug)

def popF32 : OperandStack → Outcome (BitVec 32 × OperandStack)
  | .f32 bits :: stack => .ok (bits, stack)
  | [] => .err "numeric op on empty stack"
  | other :: _ => .err ("Expected f32, got " ++ other.debug)

def popF64 : OperandStack → Outcome (BitVec 64 × OperandStack)
  | .f64 bits :: stack => .ok (bits, stack)
  | [] => .err "numeric op on empty stack"
  | other :: _ => .err ("Expected f64, got " ++ other.debug)

section Shapes

variable {α : Type} (pop : OperandStack → Outcome (α × OperandStack))

/-- Pop one operand, push one result. -/
def unary (f : α → Outcome WasmValue) (stack : OperandStack) : Outcome OperandStack := do
  let (a, stack) ← pop stack
  let result ← f a
  pure (result :: stack)

/-- Pop the second operand, then the first, push one result. -/
def binary (f : α → α → Outcome WasmValue) (stack : OperandStack) : Outcome OperandStack := do
  let (b, stack) ← pop stack
  let (a, stack) ← pop stack
  let result ← f a b
  pure (result :: stack)

end Shapes

def unI32 (f : BitVec 32 → WasmValue) := unary popI32 fun a => .ok (f a)
def unI64 (f : BitVec 64 → WasmValue) := unary popI64 fun a => .ok (f a)
def unF32 (f : BitVec 32 → WasmValue) := unary popF32 fun a => .ok (f a)
def unF64 (f : BitVec 64 → WasmValue) := unary popF64 fun a => .ok (f a)
def binI32 (f : BitVec 32 → BitVec 32 → WasmValue) := binary popI32 fun a b => .ok (f a b)
def binI64 (f : BitVec 64 → BitVec 64 → WasmValue) := binary popI64 fun a b => .ok (f a b)
def binF32 (f : BitVec 32 → BitVec 32 → WasmValue) := binary popF32 fun a b => .ok (f a b)
def binF64 (f : BitVec 64 → BitVec 64 → WasmValue) := binary popF64 fun a b => .ok (f a b)
def cmpF32 (f : Float32 → Float32 → Bool) := binF32 fun a b => ofBool (f (toF32 a) (toF32 b))
def cmpF64 (f : Float → Float → Bool) := binF64 fun a b => ofBool (f (toF64 a) (toF64 b))
def arithF32 (f : Float32 → Float32 → Float32) := binF32 fun a b => ofF32 (f (toF32 a) (toF32 b))
def arithF64 (f : Float → Float → Float) := binF64 fun a b => ofF64 (f (toF64 a) (toF64 b))

/-- `/` and `%` of either signedness: a zero divisor is an error before the operation. -/
def divide {w : Nat} (wrap : BitVec w → WasmValue) (op : BitVec w → BitVec w → BitVec w)
    (a b : BitVec w) : Outcome WasmValue :=
  if b = 0 then .err "integer divide by zero" else do return wrap (← checkedDiv op a b)

/-- `div_s` also traps on `MIN / -1`. -/
def divideSigned {w : Nat} (wrap : BitVec w → WasmValue) (a b : BitVec w) : Outcome WasmValue :=
  if b = 0 then .err "integer divide by zero"
  else if a = BitVec.intMin w ∧ b = -1 then .err "integer overflow"
  else do return wrap (← checkedDiv BitVec.sdiv a b)

/-- A shift whose amount is masked to the width first. -/
def shift {w : Nat} (wrap : BitVec w → WasmValue)
    (op : BitVec w → Nat → Outcome (BitVec w)) (a b : BitVec w) : Outcome WasmValue := do
  return wrap (← op a (b.toNat % w))

/-! ## The opcodes, group by group as in the source -/

def execI32Comparison (op : Nat) (stack : OperandStack) : Outcome OperandStack :=
  match op with
  | 0x45 => unI32 (fun a => ofBool (a == 0)) stack
  | 0x46 => binI32 (fun a b => ofBool (a == b)) stack
  | 0x47 => binI32 (fun a b => ofBool (a != b)) stack
  | 0x48 => binI32 (fun a b => ofBool (a.slt b)) stack
  | 0x49 => binI32 (fun a b => ofBool (a.ult b)) stack
  | 0x4A => binI32 (fun a b => ofBool (b.slt a)) stack
  | 0x4B => binI32 (fun a b => ofBool (b.ult a)) stack
  | 0x4C => binI32 (fun a b => ofBool (a.sle b)) stack
  | 0x4D => binI32 (fun a b => ofBool (a.ule b)) stack
  | 0x4E => binI32 (fun a b => ofBool (b.sle a)) stack
  | _ => binI32 (fun a b => ofBool (b.ule a)) stack

def execI64Comparison (op : Nat) (stack : OperandStack) : Outcome OperandStack :=
  match op with
  | 0x50 => unI64 (fun a => ofBool (a == 0)) stack
  | 0x51 => binI64 (fun a b => ofBool (a == b)) stack
  | 0x52 => binI64 (fun a b => ofBool (a != b)) stack
  | 0x53 => binI64 (fun a b => ofBool (a.slt b)) stack
  | 0x54 => binI64 (fun a b => ofBool (a.ult b)) stack
  | 0x55 => binI64 (fun a b => ofBool (b.slt a)) stack
  | 0x56 => binI64 (fun a b => ofBool (b.ult a)) stack
  | 0x57 => binI64 (fun a b => ofBool (a.sle b)) stack
  | 0x58 => binI64 (fun a b => ofBool (a.ule b)) stack
  | 0x59 => binI64 (fun a b => ofBool (b.sle a)) stack
  | _ => binI64 (fun a b => ofBool (b.ule a)) stack

def execFloatComparison (op : Nat) (stack : OperandStack) : Outcome OperandStack :=
  match op with
  | 0x5B => cmpF32 (· == ·) stack
  | 0x5C => cmpF32 (· != ·) stack
  | 0x5D => cmpF32 (· < ·) stack
  | 0x5E => cmpF32 (· > ·) stack
  | 0x5F => cmpF32 (· ≤ ·) stack
  | 0x60 => cmpF32 (· ≥ ·) stack
  | 0x61 => cmpF64 (· == ·) stack
  | 0x62 => cmpF64 (· != ·) stack
  | 0x63 => cmpF64 (· < ·) stack
  | 0x64 => cmpF64 (· > ·) stack
  | 0x65 => cmpF64 (· ≤ ·) stack
  | _ => cmpF64 (· ≥ ·) stack

def execI32Arithmetic (op : Nat) (stack : OperandStack) : Outcome OperandStack :=
  match op with
  | 0x67 => unI32 (fun a => .i32 a.clz) stack
  | 0x68 => unI32 (fun a => .i32 a.ctz) stack
  | 0x69 => unI32 (fun a => .i32 a.cpop) stack
  | 0x6A => binI32 (fun a b => .i32 (a + b)) stack
  | 0x6B => binI32 (fun a b => .i32 (a - b)) stack
  | 0x6C => binI32 (fun a b => .i32 (a * b)) stack
  | 0x6D => binary popI32 (divideSigned .i32) stack
  | 0x6E => binary popI32 (divide .i32 BitVec.udiv) stack
  | 0x6F => binary popI32 (divide .i32 BitVec.srem) stack
  | 0x70 => binary popI32 (divide .i32 BitVec.umod) stack
  | 0x71 => binI32 (fun a b => .i32 (a &&& b)) stack
  | 0x72 => binI32 (fun a b => .i32 (a ||| b)) stack
  | 0x73 => binI32 (fun a b => .i32 (a ^^^ b)) stack
  | 0x74 => binary popI32 (shift .i32 checkedShl) stack
  | 0x75 => binary popI32 (shift .i32 checkedSshr) stack
  | 0x76 => binary popI32 (shift .i32 checkedUshr) stack
  | 0x77 => binI32 (fun a b => .i32 (a.rotateLeft (b.toNat % 32))) stack
  | _ => binI32 (fun a b => .i32 (a.rotateRight (b.toNat % 32))) stack

def execI64Arithmetic (op : Nat) (stack : OperandStack) : Outcome OperandStack :=
  match op with
  | 0x79 => unI64 (fun a => .i64 a.clz) stack
  | 0x7A => unI64 (fun a => .i64 a.ctz) stack
  | 0x7B => unI64 (fun a => .i64 a.cpop) stack
  | 0x7C => binI64 (fun a b => .i64 (a + b)) stack
  | 0x7D => binI64 (fun a b => .i64 (a - b)) stack
  | 0x7E => binI64 (fun a b => .i64 (a * b)) stack
  | 0x7F => binary popI64 (divideSigned .i64) stack
  | 0x80 => binary popI64 (divide .i64 BitVec.udiv) stack
  | 0x81 => binary popI64 (divide .i64 BitVec.srem) stack
  | 0x82 => binary popI64 (divide .i64 BitVec.umod) stack
  | 0x83 => binI64 (fun a b => .i64 (a &&& b)) stack
  | 0x84 => binI64 (fun a b => .i64 (a ||| b)) stack
  | 0x85 => binI64 (fun a b => .i64 (a ^^^ b)) stack
  | 0x86 => binary popI64 (shift .i64 checkedShl) stack
  | 0x87 => binary popI64 (shift .i64 checkedSshr) stack
  | 0x88 => binary popI64 (shift .i64 checkedUshr) stack
  | 0x89 => binI64 (fun a b => .i64 (a.rotateLeft (b.toNat % 64))) stack
  | _ => binI64 (fun a b => .i64 (a.rotateRight (b.toNat % 64))) stack

def execF32Arithmetic (op : Nat) (stack : OperandStack) : Outcome OperandStack :=
  match op with
  | 0x8B => unF32 (fun a => .f32 (absBits a)) stack
  | 0x8C => unF32 (fun a => .f32 (negBits a)) stack
  | 0x8D => unF32 (fun a => .f32 (roundIntegral .ceil 23 127 a)) stack
  | 0x8E => unF32 (fun a => .f32 (roundIntegral .floor 23 127 a)) stack
  | 0x8F => unF32 (fun a => .f32 (roundIntegral .trunc 23 127 a)) stack
  | 0x90 => unF32 (fun a => .f32 (roundIntegral .nearest 23 127 a)) stack
  | 0x91 => unF32 (fun a => ofF32 (toF32 a).sqrt) stack
  | 0x92 => arithF32 (· + ·) stack
  | 0x93 => arithF32 (· - ·) stack
  | 0x94 => arithF32 (· * ·) stack
  | 0x95 => arithF32 (· / ·) stack
  | 0x96 => binF32 wasmMinF32 stack
  | 0x97 => binF32 wasmMaxF32 stack
  | _ => binF32 (fun a b => .f32 (copysignBits a b)) stack

def execF64Arithmetic (op : Nat) (stack : OperandStack) : Outcome OperandStack :=
  match op with
  | 0x99 => unF64 (fun a => .f64 (absBits a)) stack
  | 0x9A => unF64 (fun a => .f64 (negBits a)) stack
  | 0x9B => unF64 (fun a => .f64 (roundIntegral .ceil 52 1023 a)) stack
  | 0x9C => unF64 (fun a => .f64 (roundIntegral .floor 52 1023 a)) stack
  | 0x9D => unF64 (fun a => .f64 (roundIntegral .trunc 52 1023 a)) stack
  | 0x9E => unF64 (fun a => .f64 (roundIntegral .nearest 52 1023 a)) stack
  | 0x9F => unF64 (fun a => ofF64 (toF64 a).sqrt) stack
  | 0xA0 => arithF64 (· + ·) stack
  | 0xA1 => arithF64 (· - ·) stack
  | 0xA2 => arithF64 (· * ·) stack
  | 0xA3 => arithF64 (· / ·) stack
  | 0xA4 => binF64 wasmMinF64 stack
  | 0xA5 => binF64 wasmMaxF64 stack
  | _ => binF64 (fun a b => .f64 (copysignBits a b)) stack

def execConversion (op : Nat) (stack : OperandStack) : Outcome OperandStack :=
  match op with
  | 0xA7 => unI64 (fun a => .i32 (a.setWidth 32)) stack
  | 0xA8 => unary popF32 (fun a => do return .i32 (← truncF64ToI32 (promote a))) stack
  | 0xA9 => unary popF32 (fun a => do return .i32 (← truncF64ToU32 (promote a))) stack
  | 0xAA => unary popF64 (fun a => do return .i32 (← truncF64ToI32 a)) stack
  | 0xAB => unary popF64 (fun a => do return .i32 (← truncF64ToU32 a)) stack
  | 0xAC => unI32 (fun a => .i64 (a.signExtend 64)) stack
  | 0xAD => unI32 (fun a => .i64 (a.setWidth 64)) stack
  | 0xAE => unary popF32 (fun a => do return .i64 (← truncF64ToI64 (promote a))) stack
  | 0xAF => unary popF32 (fun a => do return .i64 (← truncF64ToU64 (promote a))) stack
  | 0xB0 => unary popF64 (fun a => do return .i64 (← truncF64ToI64 a)) stack
  | 0xB1 => unary popF64 (fun a => do return .i64 (← truncF64ToU64 a)) stack
  | 0xB2 => unI32 (fun a => ofF32 (Float32.ofInt a.toInt)) stack
  | 0xB3 => unI32 (fun a => ofF32 (Float32.ofNat a.toNat)) stack
  | 0xB4 => unI64 (fun a => ofF32 (Float32.ofInt a.toInt)) stack
  | 0xB5 => unI64 (fun a => ofF32 (Float32.ofNat a.toNat)) stack
  | 0xB6 => unF64 (fun a => ofF32 (toF64 a).toFloat32) stack
  | 0xB7 => unI32 (fun a => ofF64 (Float.ofInt a.toInt)) stack
  | 0xB8 => unI32 (fun a => ofF64 (Float.ofNat a.toNat)) stack
  | 0xB9 => unI64 (fun a => ofF64 (Float.ofInt a.toInt)) stack
  | 0xBA => unI64 (fun a => ofF64 (Float.ofNat a.toNat)) stack
  | 0xBB => unF32 (fun a => .f64 (promote a)) stack
  | 0xBC => unF32 (fun a => .i32 a) stack
  | 0xBD => unF64 (fun a => .i64 a) stack
  | 0xBE => unI32 (fun a => .f32 a) stack
  | 0xBF => unI64 (fun a => .f64 a) stack
  | 0xC0 => unI32 (fun a => .i32 ((a.setWidth 8).signExtend 32)) stack
  | 0xC1 => unI32 (fun a => .i32 ((a.setWidth 16).signExtend 32)) stack
  | 0xC2 => unI64 (fun a => .i64 ((a.setWidth 8).signExtend 64)) stack
  | 0xC3 => unI64 (fun a => .i64 ((a.setWidth 16).signExtend 64)) stack
  | _ => unI64 (fun a => .i64 ((a.setWidth 32).signExtend 64)) stack

def execNumeric (opcode : UInt8) (stack : OperandStack) : Outcome OperandStack :=
  let op := opcode.toNat
  if op < 0x45 then .err ("Unsupported numeric opcode " ++ hexByte opcode)
  else if op ≤ 0x4F then execI32Comparison op stack
  else if op ≤ 0x5A then execI64Comparison op stack
  else if op ≤ 0x66 then execFloatComparison op stack
  else if op ≤ 0x78 then execI32Arithmetic op stack
  else if op ≤ 0x8A then execI64Arithmetic op stack
  else if op ≤ 0x98 then execF32Arithmetic op stack
  else if op ≤ 0xA6 then execF64Arithmetic op stack
  else if op ≤ 0xC4 then execConversion op stack
  else .err ("Unsupported numeric opcode " ++ hexByte opcode)

/-! ## No numeric instruction panics -/

theorem popI32_returns (stack : OperandStack) : (popI32 stack).Returns := by
  unfold popI32
  split <;> simp [Outcome.Returns]

theorem popI64_returns (stack : OperandStack) : (popI64 stack).Returns := by
  unfold popI64
  split <;> simp [Outcome.Returns]

theorem popF32_returns (stack : OperandStack) : (popF32 stack).Returns := by
  unfold popF32
  split <;> simp [Outcome.Returns]

theorem popF64_returns (stack : OperandStack) : (popF64 stack).Returns := by
  unfold popF64
  split <;> simp [Outcome.Returns]

theorem unary_returns {α : Type} {pop : OperandStack → Outcome (α × OperandStack)}
    {f : α → Outcome WasmValue} (hpop : ∀ stack, (pop stack).Returns)
    (hf : ∀ a, (f a).Returns) (stack : OperandStack) : (unary pop f stack).Returns := by
  unfold unary
  rcases hpop stack with ⟨⟨a, below⟩, popped⟩ | ⟨message, popped⟩
  · rcases hf a with ⟨result, applied⟩ | ⟨message, applied⟩
    · simp [popped, applied, Outcome.Returns]
    · simp [popped, applied, Outcome.Returns]
  · simp [popped, Outcome.Returns]

theorem binary_returns {α : Type} {pop : OperandStack → Outcome (α × OperandStack)}
    {f : α → α → Outcome WasmValue} (hpop : ∀ stack, (pop stack).Returns)
    (hf : ∀ a b, (f a b).Returns) (stack : OperandStack) : (binary pop f stack).Returns := by
  unfold binary
  rcases hpop stack with ⟨⟨b, below⟩, popped⟩ | ⟨message, popped⟩
  · have rest := unary_returns hpop (fun a => hf a b) below
    simpa [popped, unary] using rest
  · simp [popped, Outcome.Returns]

section Returns

variable (stack : OperandStack)

@[simp] theorem unI32_returns (f : BitVec 32 → WasmValue) : (unI32 f stack).Returns :=
  unary_returns popI32_returns (by simp) stack
@[simp] theorem unI64_returns (f : BitVec 64 → WasmValue) : (unI64 f stack).Returns :=
  unary_returns popI64_returns (by simp) stack
@[simp] theorem unF32_returns (f : BitVec 32 → WasmValue) : (unF32 f stack).Returns :=
  unary_returns popF32_returns (by simp) stack
@[simp] theorem unF64_returns (f : BitVec 64 → WasmValue) : (unF64 f stack).Returns :=
  unary_returns popF64_returns (by simp) stack
@[simp] theorem binI32_returns (f : BitVec 32 → BitVec 32 → WasmValue) :
    (binI32 f stack).Returns := binary_returns popI32_returns (by simp) stack
@[simp] theorem binI64_returns (f : BitVec 64 → BitVec 64 → WasmValue) :
    (binI64 f stack).Returns := binary_returns popI64_returns (by simp) stack
@[simp] theorem binF32_returns (f : BitVec 32 → BitVec 32 → WasmValue) :
    (binF32 f stack).Returns := binary_returns popF32_returns (by simp) stack
@[simp] theorem binF64_returns (f : BitVec 64 → BitVec 64 → WasmValue) :
    (binF64 f stack).Returns := binary_returns popF64_returns (by simp) stack

variable {w : Nat}

theorem divide_returns (wrap : BitVec w → WasmValue)
    (op : BitVec w → BitVec w → BitVec w) (a b : BitVec w) : (divide wrap op a b).Returns := by
  unfold divide
  split
  case isTrue => exact Outcome.err_returns _
  case isFalse nonzero =>
    rw [checkedDiv_of_ne op a nonzero]
    exact Outcome.ok_returns _

theorem divideSigned_returns (wrap : BitVec w → WasmValue) (a b : BitVec w) :
    (divideSigned wrap a b).Returns := by
  unfold divideSigned
  split
  case isTrue => exact Outcome.err_returns _
  case isFalse nonzero =>
    split
    · exact Outcome.err_returns _
    · rw [checkedDiv_of_ne BitVec.sdiv a nonzero]
      exact Outcome.ok_returns _

theorem shift_returns (positive : 0 < w) (wrap : BitVec w → WasmValue)
    (op : BitVec w → Nat → Outcome (BitVec w))
    (inRange : ∀ value amount, amount < w → (op value amount).Returns) (a b : BitVec w) :
    (shift wrap op a b).Returns := by
  unfold shift
  rcases inRange a (b.toNat % w) (Nat.mod_lt _ positive) with ⟨result, shifted⟩ | ⟨m, shifted⟩
  · simp [shifted]
  · simp [shifted]

theorem checkedShl_returns (value : BitVec w) (amount : Nat) (small : amount < w) :
    (checkedShl value amount).Returns := by simp [checkedShl_of_lt value small]
theorem checkedUshr_returns (value : BitVec w) (amount : Nat) (small : amount < w) :
    (checkedUshr value amount).Returns := by simp [checkedUshr_of_lt value small]
theorem checkedSshr_returns (value : BitVec w) (amount : Nat) (small : amount < w) :
    (checkedSshr value amount).Returns := by simp [checkedSshr_of_lt value small]

theorem truncF64_returns (w : Nat) (inRange : Float → Bool) (bits : BitVec 64) :
    (truncF64 w inRange bits).Returns := by
  unfold truncF64
  split
  · simp
  · dsimp only
    split <;> simp

/-- A truncating conversion: the truncation, wrapped. -/
theorem truncation_returns {v : Nat} (wrap : BitVec w → WasmValue)
    {truncate : BitVec v → Outcome (BitVec w)} (h : ∀ bits, (truncate bits).Returns)
    (bits : BitVec v) :
    (truncate bits >>= fun result => pure (wrap result) : Outcome WasmValue).Returns := by
  rcases h bits with ⟨result, truncated⟩ | ⟨message, truncated⟩
  · simp [truncated]
  · simp [truncated]

variable (op : Nat)

theorem execI32Comparison_returns : (execI32Comparison op stack).Returns := by
  unfold execI32Comparison
  split <;> simp

theorem execI64Comparison_returns : (execI64Comparison op stack).Returns := by
  unfold execI64Comparison
  split <;> simp

theorem execFloatComparison_returns : (execFloatComparison op stack).Returns := by
  unfold execFloatComparison cmpF32 cmpF64
  split <;> simp

theorem execI32Arithmetic_returns : (execI32Arithmetic op stack).Returns := by
  have division := fun op => binary_returns popI32_returns (divide_returns .i32 op) stack
  have shifting := fun op inRange =>
    binary_returns popI32_returns (shift_returns (by decide) .i32 op inRange) stack
  unfold execI32Arithmetic
  split
  case h_7 => exact binary_returns popI32_returns (divideSigned_returns .i32) stack
  case h_8 | h_9 | h_10 => exact division _
  case h_14 => exact shifting _ checkedShl_returns
  case h_15 => exact shifting _ checkedSshr_returns
  case h_16 => exact shifting _ checkedUshr_returns
  all_goals simp

theorem execI64Arithmetic_returns : (execI64Arithmetic op stack).Returns := by
  have division := fun op => binary_returns popI64_returns (divide_returns .i64 op) stack
  have shifting := fun op inRange =>
    binary_returns popI64_returns (shift_returns (by decide) .i64 op inRange) stack
  unfold execI64Arithmetic
  split
  case h_7 => exact binary_returns popI64_returns (divideSigned_returns .i64) stack
  case h_8 | h_9 | h_10 => exact division _
  case h_14 => exact shifting _ checkedShl_returns
  case h_15 => exact shifting _ checkedSshr_returns
  case h_16 => exact shifting _ checkedUshr_returns
  all_goals simp

theorem execF32Arithmetic_returns : (execF32Arithmetic op stack).Returns := by
  unfold execF32Arithmetic arithF32
  split <;> simp

theorem execF64Arithmetic_returns : (execF64Arithmetic op stack).Returns := by
  unfold execF64Arithmetic arithF64
  split <;> simp

theorem execConversion_returns : (execConversion op stack).Returns := by
  have fromF32 := fun w (wrap : BitVec w → WasmValue) inRange =>
    unary_returns popF32_returns
      (truncation_returns wrap fun bits => truncF64_returns w inRange (promote bits)) stack
  have fromF64 := fun w (wrap : BitVec w → WasmValue) inRange =>
    unary_returns popF64_returns (truncation_returns wrap (truncF64_returns w inRange)) stack
  unfold execConversion truncF64ToI32 truncF64ToU32 truncF64ToI64 truncF64ToU64
  split
  case h_2 | h_3 | h_8 | h_9 => exact fromF32 _ _ _
  case h_4 | h_5 | h_10 | h_11 => exact fromF64 _ _ _
  all_goals simp

theorem execNumeric_returns (opcode : UInt8) : (execNumeric opcode stack).Returns := by
  unfold execNumeric
  dsimp only
  refine .ite (fun _ => Outcome.err_returns _) fun _ => ?_
  refine .ite (fun _ => execI32Comparison_returns stack _) fun _ => ?_
  refine .ite (fun _ => execI64Comparison_returns stack _) fun _ => ?_
  refine .ite (fun _ => execFloatComparison_returns stack _) fun _ => ?_
  refine .ite (fun _ => execI32Arithmetic_returns stack _) fun _ => ?_
  refine .ite (fun _ => execI64Arithmetic_returns stack _) fun _ => ?_
  refine .ite (fun _ => execF32Arithmetic_returns stack _) fun _ => ?_
  refine .ite (fun _ => execF64Arithmetic_returns stack _) fun _ => ?_
  refine .ite (fun _ => execConversion_returns stack _) fun _ => ?_
  exact Outcome.err_returns _

end Returns

end GhitaBrowser.Wasm
