import Solva.Field.Bn254
import Solva.Field.Prime
import Solva.Verifier.Relations

/-!
# Proofs, keys and challenges

The types of the vendored UltraHonk verifier. Field elements are reduced when they are
read from bytes, points stay bytes until the host computes with them.
-/

namespace Solva.Verifier

open Bn254 Codec

scoped instance factPrime : Fact p.Prime :=
  ⟨prime_p⟩

abbrev CONST_PROOF_SIZE_LOG_N : Nat :=
  28

abbrev BATCHED_RELATION_PARTIAL_LENGTH : Nat :=
  8

abbrev NUMBER_OF_ENTITIES : Nat :=
  40

abbrev NUMBER_UNSHIFTED : Nat :=
  35

abbrev PAIRING_POINTS_SIZE : Nat :=
  16

/-- The commitments of a key. -/
abbrev NUM_POINTS : Nat :=
  27

/-- `Wire::index`. -/
def Wire.index : Wire → Fin NUMBER_OF_ENTITIES
  | .qm => 0 | .qc => 1 | .ql => 2 | .qr => 3 | .qo => 4 | .q4 => 5
  | .qLookup => 6 | .qArith => 7 | .qRange => 8 | .qElliptic => 9 | .qAux => 10
  | .qPoseidon2External => 11 | .qPoseidon2Internal => 12
  | .sigma1 => 13 | .sigma2 => 14 | .sigma3 => 15 | .sigma4 => 16
  | .id1 => 17 | .id2 => 18 | .id3 => 19 | .id4 => 20
  | .table1 => 21 | .table2 => 22 | .table3 => 23 | .table4 => 24
  | .lagrangeFirst => 25 | .lagrangeLast => 26
  | .wl => 27 | .wr => 28 | .wo => 29 | .w4 => 30 | .zPerm => 31
  | .lookupInverses => 32 | .lookupReadCounts => 33 | .lookupReadTags => 34
  | .wlShift => 35 | .wrShift => 36 | .woShift => 37 | .w4Shift => 38 | .zPermShift => 39

/-- An affine point of BN254: 64 bytes, `x` before `y`. -/
abbrev G1Point : Type :=
  BytesN 64

/-- The header and the commitments of a key, these in the order of the first 27 wires. -/
structure VerificationKey where
  circuitSize : U64
  logCircuitSize : U64
  publicInputsSize : U64
  pubInputsOffset : U64
  points : Fin NUM_POINTS → G1Point

structure Proof where
  pairingPointObject : Fin PAIRING_POINTS_SIZE → Fr
  w1 : G1Point
  w2 : G1Point
  w3 : G1Point
  w4 : G1Point
  lookupReadCounts : G1Point
  lookupReadTags : G1Point
  lookupInverses : G1Point
  zPerm : G1Point
  sumcheckUnivariates : Fin CONST_PROOF_SIZE_LOG_N → Fin BATCHED_RELATION_PARTIAL_LENGTH → Fr
  sumcheckEvaluations : Fin NUMBER_OF_ENTITIES → Fr
  geminiFoldComms : Fin (CONST_PROOF_SIZE_LOG_N - 1) → G1Point
  geminiAEvaluations : Fin CONST_PROOF_SIZE_LOG_N → Fr
  shplonkQ : G1Point
  kzgQuotient : G1Point

/-- All challenges of the verifier. -/
structure Transcript where
  relParams : RelationParameters Fr
  alphas : Fin NUMBER_OF_ALPHAS → Fr
  gateChallenges : Fin CONST_PROOF_SIZE_LOG_N → Fr
  sumcheckUChallenges : Fin CONST_PROOF_SIZE_LOG_N → Fr
  rho : Fr
  geminiR : Fr
  shplonkNu : Fr
  shplonkZ : Fr

end Solva.Verifier
