import StoaCore.Library.Js.Utf8

/-!
# Hex — bytes as hexadecimal text

`Buffer.from(text, 'hex')` and `buffer.toString('hex')`.  The decoder reads either case and ends at
the first pair that is not hexadecimal.
-/

namespace Library
namespace Js

/-- `Buffer.from(text, 'hex')` -/
def bufferFromHex : JsString → Bytes
  | high :: low :: rest =>
      match hexVal high, hexVal low with
      | some h, some l => UInt8.ofNat (16 * h + l) :: bufferFromHex rest
      | _, _ => []
  | _ => []

/-- `buffer.toString('hex')` -/
def bufferToHex (bytes : Bytes) : JsString :=
  bytes.flatMap fun b => [hexDigit (b.toNat / 16), hexDigit (b.toNat % 16)]

/-- The code unit is a hexadecimal digit. -/
def isHexUnit (c : CodeUnit) : Bool :=
  (hexVal c).isSome

@[simp] theorem bufferToHex_nil : bufferToHex [] = [] := rfl

theorem bufferToHex_cons (b : UInt8) (bytes : Bytes) :
    bufferToHex (b :: bytes) =
      hexDigit (b.toNat / 16) :: hexDigit (b.toNat % 16) :: bufferToHex bytes := rfl

theorem length_bufferToHex (bytes : Bytes) : (bufferToHex bytes).length = 2 * bytes.length := by
  induction bytes with
  | nil => rfl
  | cons b bytes ih =>
      rw [bufferToHex_cons, List.length_cons, List.length_cons, ih, List.length_cons]
      omega

theorem byte_halves (b : UInt8) : UInt8.ofNat (16 * (b.toNat / 16) + b.toNat % 16) = b := by
  rw [Nat.div_add_mod, UInt8.ofNat_toNat]

/-- Decoding gives the encoded bytes back, whatever follows them. -/
theorem bufferFromHex_bufferToHex_append (bytes : Bytes) (rest : JsString) :
    bufferFromHex (bufferToHex bytes ++ rest) = bytes ++ bufferFromHex rest := by
  induction bytes with
  | nil => rfl
  | cons b bytes ih =>
      have hlt := b.toNat_lt
      rw [bufferToHex_cons, List.cons_append, List.cons_append, bufferFromHex,
        hexVal_hexDigit (by omega), hexVal_hexDigit (by omega)]
      dsimp only
      rw [ih, byte_halves, List.cons_append]

theorem bufferFromHex_bufferToHex (bytes : Bytes) : bufferFromHex (bufferToHex bytes) = bytes := by
  have happend := bufferFromHex_bufferToHex_append bytes []
  rw [List.append_nil] at happend
  have hnil : bufferFromHex [] = [] := rfl
  rw [happend, hnil, List.append_nil]

/-- Two texts one behind the other: the first is read to its end and the second follows, or the
decoder stops in the first. -/
theorem bufferFromHex_append {front : JsString} {n : Nat} (h : front.length = 2 * n)
    (rest : JsString) :
    ((bufferFromHex front).length = n ∧
      bufferFromHex (front ++ rest) = bufferFromHex front ++ bufferFromHex rest) ∨
    ((bufferFromHex front).length < n ∧ bufferFromHex (front ++ rest) = bufferFromHex front) := by
  induction n generalizing front with
  | zero =>
      rw [List.length_eq_zero_iff.1 h]
      exact Or.inl ⟨rfl, rfl⟩
  | succ n ih =>
      match front, h with
      | high :: low :: front, h =>
          have hlength : front.length = 2 * n := by
            rw [List.length_cons, List.length_cons] at h
            omega
          rw [List.cons_append, List.cons_append, bufferFromHex, bufferFromHex]
          cases hexVal high with
          | none => exact Or.inr ⟨Nat.zero_lt_succ n, rfl⟩
          | some hi =>
              cases hexVal low with
              | none => exact Or.inr ⟨Nat.zero_lt_succ n, rfl⟩
              | some lo =>
                  dsimp only
                  rcases ih hlength with ⟨hread, happend⟩ | ⟨hstops, happend⟩
                  · rw [happend, List.length_cons, hread]
                    exact Or.inl ⟨rfl, rfl⟩
                  · rw [happend, List.length_cons]
                    exact Or.inr ⟨Nat.succ_lt_succ hstops, rfl⟩

end Js
end Library
