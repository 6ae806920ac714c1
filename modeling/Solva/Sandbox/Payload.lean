import Solva.Codec.GoJson

/-!
# What the sandbox custodian signs

The signed fields of a balance as compact JSON, its keys in alphabetical order.
-/

namespace Solva.Sandbox

open Codec

/-- `CanonicalPayload`. -/
def canonicalPayload (sourceID balance currency asOf : String) : List UInt8 :=
  GoJson.marshal [("as_of", asOf), ("balance", balance), ("currency", currency),
    ("source_id", sourceID)]

/-- Different statements have different payloads. -/
theorem canonicalPayload_inj {sourceID balance currency asOf : String}
    {sourceID' balance' currency' asOf' : String}
    (equal : canonicalPayload sourceID balance currency asOf =
      canonicalPayload sourceID' balance' currency' asOf') :
    sourceID = sourceID' ∧ balance = balance' ∧ currency = currency' ∧ asOf = asOf' := by
  unfold canonicalPayload at equal
  have fields := GoJson.marshal_inj (by rfl) equal
  simp only [List.cons.injEq, Prod.mk.injEq, true_and, and_true] at fields
  exact ⟨fields.2.2.2, fields.2.1, fields.2.2.1, fields.1⟩

end Solva.Sandbox
