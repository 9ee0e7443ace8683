import Emission.Label

/-!
# Labels of words

A word of 32 bits is labelled with no more room than a row of six slots. The digits of the word are put
into the slots, the last digit first, and are then read from the last slot that was filled back to the
first.

Nothing is put past the last slot, and no digit is taken from past the end of the alphabet: where one
of the two would happen there is no label (`none`). That there is always one, and that it is the label
of the number, is the subject of `Emission.Proofs.Label.Codec`.
-/

namespace Emission.Label

/-- How many slots there are. -/
def slotCount : Nat := 6

/-- A row of slots for digits, filled from the first one on. -/
structure Slots where
  digits : Vector Char slotCount
  /-- How many slots are filled. -/
  used : Nat
  used_le : used ≤ slotCount

namespace Slots

/-- No slot is filled. -/
def empty : Slots := ⟨.replicate slotCount '\x00', 0, Nat.zero_le slotCount⟩

/-- Fills the next slot, if there is one. -/
def put? (c : Char) (s : Slots) : Option Slots :=
  if h : s.used < slotCount then some ⟨s.digits.set s.used c h, s.used + 1, h⟩ else none

/-- Fills the next slots with the digits of `rest`, the last digit first. -/
def fill? (rest : UInt32) (s : Slots) : Option Slots :=
  if h : rest = 0 then some s
  else do
    let c ← alphabet[(rest % 62).toNat]?
    let s ← s.put? c
    s.fill? (rest / 62)
termination_by rest.toNat
decreasing_by
  have hpos : rest.toNat ≠ 0 := fun h0 => h (UInt32.toNat_inj.mp h0)
  rw [UInt32.toNat_div]
  exact Nat.div_lt_self (by omega) (by decide)

/-- What is in the slots that are filled. -/
def filled (s : Slots) : List Char :=
  s.digits.toList.take s.used

end Slots

/-- Writes the label of `n` after `out`, with the digits of `n` in slots meanwhile. -/
def writeWord? (n : UInt32) (out : String) : Option String :=
  let out := out.push lead
  if n = 0 then some (out.push '0')
  else (Slots.empty.fill? n).map fun s => s.filled.reverse.foldl String.push out

/-- Writes the labels of some words after `out`, one after another with nothing between them. -/
def writeWords? (ns : List UInt32) (out : String) : Option String :=
  ns.foldlM (fun out n => writeWord? n out) out

end Emission.Label
