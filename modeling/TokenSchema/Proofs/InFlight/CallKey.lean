import TokenSchema.Contract
import TokenSchema.Proofs.Text.Separator

/-!
# Call keys — what two calls have in common that share an answer

Calls are shared by a text: the deployment, a colon, and the data in hexadecimal digits. The address in
it may hold any characters, colons too. Still the text tells chain, address and data apart
(`callKey_injective`): no colon stands in a decimal number, so the first one ends the chain, and none in
hexadecimal digits, so the last one begins the data.
-/

namespace TokenSchema

/-- The text under which a call of a deployment with some data is shared. -/
def callKey (call : Deployment × List UInt8) : String :=
  call.1.text ++ ":" ++ Text.Hex.encode call.2

/-! ## The parts of a key -/

theorem Text.Hex.digit_ne_colon : ∀ n < 16, digit n ≠ ':' := by
  decide

theorem Text.Hex.colon_notMem_encodeChars (bytes : List UInt8) : ':' ∉ encodeChars bytes := by
  induction bytes with
  | nil => simp [encodeChars]
  | cons b rest ih =>
      have size := b.toNat_lt
      have high := digit_ne_colon (b.toNat / 16) (by omega)
      have low := digit_ne_colon (b.toNat % 16) (by omega)
      simp [encodeChars, ih, high.symm, low.symm]

theorem toList_callKey (chainId : Nat) (address : String) (data : List UInt8) :
    (callKey (⟨chainId, address⟩, data)).toList =
      Nat.toDigits 10 chainId ++ ':' :: (address.toList ++ ':' :: Text.Hex.encodeChars data) := by
  simp [callKey, Deployment.text, Text.Hex.encode, Text.toList_decimal]

theorem callKey_injective : Function.Injective callKey := by
  rintro ⟨⟨chain₁, address₁⟩, data₁⟩ ⟨⟨chain₂, address₂⟩, data₂⟩ same
  have chars := congrArg String.toList same
  rw [toList_callKey, toList_callKey] at chars
  obtain ⟨chain, rest⟩ := append_separator_inj (Text.colon_notMem_toDigits chain₁)
    (Text.colon_notMem_toDigits chain₂) chars
  obtain ⟨address, data⟩ := append_last_separator_inj (Text.Hex.colon_notMem_encodeChars data₁)
    (Text.Hex.colon_notMem_encodeChars data₂) rest
  have bytes : some data₁ = some data₂ := by
    rw [← Text.Hex.decodeChars_encodeChars data₁, data, Text.Hex.decodeChars_encodeChars]
  rw [Text.toDigits_injective chain, String.toList_injective address, Option.some.inj bytes]

/-- A call for a balance. -/
def Traffic.balanceCall : Deployment × List UInt8 :=
  (⟨1, "0xaa"⟩, [112, 160, 130, 49])

end TokenSchema
