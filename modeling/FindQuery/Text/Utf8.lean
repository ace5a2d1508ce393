import FindQuery.Text.Basic

/-! Decoding of UTF-8, one byte at a time. -/

namespace FindQuery.Utf8

inductive Fault
  | badStart
  | badContinuation
  | cutShort
deriving DecidableEq

def Fault.message : Fault → Text
  | .badStart => "invalid start byte".toList
  | .badContinuation => "invalid continuation byte".toList
  | .cutShort => "unexpected end of data".toList

inductive State
  | between
  | inside (owed low high code : Nat)
deriving DecidableEq

abbrev Outcome := Except Fault (Option Char × State)

def first (b : Nat) : Outcome :=
  if b < 0x80 then .ok (some (Char.ofNat b), .between)
  else if b < 0xC2 then .error .badStart
  else if b < 0xE0 then .ok (none, .inside 1 0x80 0xBF (b - 0xC0))
  else if b < 0xF0 then
    .ok (none, .inside 2 (if b = 0xE0 then 0xA0 else 0x80) (if b = 0xED then 0x9F else 0xBF)
      (b - 0xE0))
  else if b < 0xF5 then
    .ok (none, .inside 3 (if b = 0xF0 then 0x90 else 0x80) (if b = 0xF4 then 0x8F else 0xBF)
      (b - 0xF0))
  else .error .badStart

def step (state : State) (b : Nat) : Outcome :=
  match state with
  | .between => first b
  | .inside owed low high code =>
    if low ≤ b ∧ b ≤ high then
      let code := code * 64 + (b - 0x80)
      if owed = 1 then .ok (some (Char.ofNat code), .between)
      else .ok (none, .inside (owed - 1) 0x80 0xBF code)
    else .error .badContinuation

def State.close : State → Except Fault Unit
  | .between => .ok ()
  | .inside .. => .error .cutShort

def encode (c : Char) : List Nat :=
  let n := c.toNat
  if n < 0x80 then [n]
  else if n < 0x800 then [0xC0 + n / 64, 0x80 + n % 64]
  else if n < 0x10000 then [0xE0 + n / 4096, 0x80 + n / 64 % 64, 0x80 + n % 64]
  else [0xF0 + n / 262144, 0x80 + n / 4096 % 64, 0x80 + n / 64 % 64, 0x80 + n % 64]

end FindQuery.Utf8
