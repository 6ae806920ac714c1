import Solva.Contract.Core
import Solva.Permutation.GrandProduct
import Solva.Verifier.Load
import Solva.Verifier.Shplemini

/-!
# The verifier

`verifier.rs`: the checks of `verify` in their order, and the factor by which the public
inputs enter the permutation argument.
-/

namespace Solva.Verifier

open Bn254 Codec

/-! ## `verifier.rs` -/

/-- `VerifyError`. -/
inductive VerifyError where
  | invalidInput
  | sumcheckFailed
  | shplonkFailed
  deriving DecidableEq

/-- The products so far, and the terms of the next public input. -/
structure DeltaState where
  numerator : Fr
  denominator : Fr
  numeratorAcc : Fr
  denominatorAcc : Fr

def deltaStep (beta : Fr) (state : DeltaState) (publicInput : Fr) : DeltaState where
  numerator := state.numerator * (state.numeratorAcc + publicInput)
  denominator := state.denominator * (state.denominatorAcc + publicInput)
  numeratorAcc := state.numeratorAcc + beta
  denominatorAcc := state.denominatorAcc - beta

/-- The words of the public inputs. -/
def publicInputWords (publicInputs : List UInt8) : List Fr :=
  (blocks 32 (publicInputs.length / 32) publicInputs).map frFromArray

/-- `compute_public_input_delta`. `none` is an overflow. -/
def computePublicInputDelta (publicInputs : List UInt8)
    (pairingPointObject : Fin PAIRING_POINTS_SIZE → Fr) (beta gamma : Fr) (offset n : U64) :
    Option (Except String Fr) :=
  if n.val + offset.val ≥ 2 ^ 64 ∨ offset.val + 1 ≥ 2 ^ 64 then none
  else
    let start : DeltaState := {
      numerator := 1
      denominator := 1
      numeratorAcc := gamma + beta * ((n.val + offset.val : Nat) : Fr)
      denominatorAcc := gamma - beta * ((offset.val + 1 : Nat) : Fr) }
    let words := (publicInputWords publicInputs).foldl (deltaStep beta) start
    let state := (List.ofFn pairingPointObject).foldl (deltaStep beta) words
    if state.denominator = 0 then some (.error "denominator is zero in public_input_delta")
    else some (.ok (state.numerator * state.denominator⁻¹))

section Verify

variable {G : Type*} (keccak : Keccak) (curve : Curve G)

/-- What the transcript is started with. -/
def preambleOf (vk : VerificationKey) (publicInputs : List UInt8) : Preamble where
  publicInputs := publicInputs
  circuitSize := vk.circuitSize
  publicInputsSize := Fin.ofNat (2 ^ 64) (publicInputs.length / 32 + PAIRING_POINTS_SIZE)
  pubInputsOffset := vk.pubInputsOffset

/-- The challenges with the factor of the public inputs. -/
def withDelta (tp : Transcript) (delta : Fr) : Transcript :=
  { tp with relParams := { tp.relParams with publicInputsDelta := delta } }

/-- `verify`. `none` is a trap. -/
def verify (vk : VerificationKey) (proofBytes publicInputs : List UInt8) :
    Option (Except VerifyError Unit) :=
  match loadProof proofBytes with
  | .error _ => some (.error .invalidInput)
  | .ok proof =>
      if publicInputs.length % 32 ≠ 0 then some (.error .invalidInput)
      else if vk.publicInputsSize.val < PAIRING_POINTS_SIZE then some (.error .invalidInput)
      else if vk.publicInputsSize.val - PAIRING_POINTS_SIZE ≠ publicInputs.length / 32 then
        some (.error .invalidInput)
      else
        let t := generateTranscript keccak proof (preambleOf vk publicInputs)
        match computePublicInputDelta publicInputs proof.pairingPointObject t.relParams.beta
            t.relParams.gamma vk.pubInputsOffset vk.circuitSize with
        | none => none
        | some (.error _) => some (.error .invalidInput)
        | some (.ok delta) =>
            match verifySumcheck proof (withDelta t delta) vk with
            | .error _ => some (.error .sumcheckFailed)
            | .ok _ =>
                match verifyShplemini curve proof vk (withDelta t delta) with
                | none => none
                | some (.error _) => some (.error .shplonkFailed)
                | some (.ok _) => some (.ok ())

/-- The verifier of the contract: a key that does not load verifies nothing. -/
def ultraHonkVerifier : Contract.Verifier := fun vkBytes proofBytes publicInputs =>
  match loadVkFromBytes vkBytes with
  | .error _ => some false
  | .ok vk => (verify keccak curve vk proofBytes publicInputs).map Except.isOk

end Verify

/-! ## The factor of the public inputs -/

/-- All public inputs: the words and then the pairing points. -/
def publicInputsOf (proof : Proof) (publicInputs : List UInt8) : List Fr :=
  publicInputWords publicInputs ++ List.ofFn proof.pairingPointObject

/-- The public inputs with the labels of the cells that they come from. -/
def numeratorEntries (vk : VerificationKey) (inputs : List Fr) : List (Fr × Fr) :=
  inputs.zipIdx.map fun input =>
    (input.1, ((vk.circuitSize.val + vk.pubInputsOffset.val + input.2 : Nat) : Fr))

/-- The public inputs with labels of their own, below all cells. -/
def denominatorEntries (vk : VerificationKey) (inputs : List Fr) : List (Fr × Fr) :=
  inputs.zipIdx.map fun input =>
    (input.1, -((vk.pubInputsOffset.val + 1 + input.2 : Nat) : Fr))

theorem foldl_deltaStep (beta gamma : Fr) (numLabel denLabel : Nat) (num den : Fr)
    (inputs : List Fr) (start : Nat) :
    inputs.foldl (deltaStep beta) ⟨num, den, gamma + beta * ((numLabel + start : Nat) : Fr),
        gamma - beta * ((denLabel + start : Nat) : Fr)⟩ =
      ⟨num * ((inputs.zipIdx start).map fun input => Permutation.factor beta gamma
          (input.1, ((numLabel + input.2 : Nat) : Fr))).prod,
        den * ((inputs.zipIdx start).map fun input => Permutation.factor beta gamma
          (input.1, -((denLabel + input.2 : Nat) : Fr))).prod,
        gamma + beta * ((numLabel + (start + inputs.length) : Nat) : Fr),
        gamma - beta * ((denLabel + (start + inputs.length) : Nat) : Fr)⟩ := by
  induction inputs generalizing start num den with
  | nil => simp
  | cons input inputs ih =>
      have more : gamma + beta * ((numLabel + start : Nat) : Fr) + beta =
          gamma + beta * ((numLabel + (start + 1) : Nat) : Fr) := by
        push_cast
        ring
      have less : gamma - beta * ((denLabel + start : Nat) : Fr) - beta =
          gamma - beta * ((denLabel + (start + 1) : Nat) : Fr) := by
        push_cast
        ring
      have numTerm : gamma + beta * ((numLabel + start : Nat) : Fr) + input =
          Permutation.factor beta gamma (input, ((numLabel + start : Nat) : Fr)) := by
        rw [Permutation.factor]
        ring
      have denTerm : gamma - beta * ((denLabel + start : Nat) : Fr) + input =
          Permutation.factor beta gamma (input, -((denLabel + start : Nat) : Fr)) := by
        rw [Permutation.factor]
        ring
      rw [List.foldl_cons, deltaStep, more, less, ih, List.zipIdx_cons, List.map_cons,
        List.map_cons, List.prod_cons, List.prod_cons, List.length_cons, numTerm, denTerm,
        mul_assoc, mul_assoc, Nat.add_assoc start, Nat.add_comm 1]

/-- The factor is the fraction of the two products over all public inputs. -/
theorem computePublicInputDelta_eq (vk : VerificationKey) (proof : Proof)
    (publicInputs : List UInt8) (beta gamma : Fr) :
    computePublicInputDelta publicInputs proof.pairingPointObject beta gamma vk.pubInputsOffset
        vk.circuitSize =
      if vk.circuitSize.val + vk.pubInputsOffset.val ≥ 2 ^ 64 ∨
          vk.pubInputsOffset.val + 1 ≥ 2 ^ 64 then none
      else if ((denominatorEntries vk (publicInputsOf proof publicInputs)).map
          (Permutation.factor beta gamma)).prod = 0 then
        some (.error "denominator is zero in public_input_delta")
      else some (.ok (((numeratorEntries vk (publicInputsOf proof publicInputs)).map
          (Permutation.factor beta gamma)).prod *
        ((denominatorEntries vk (publicInputsOf proof publicInputs)).map
          (Permutation.factor beta gamma)).prod⁻¹)) := by
  have run := foldl_deltaStep beta gamma (vk.circuitSize.val + vk.pubInputsOffset.val)
    (vk.pubInputsOffset.val + 1) 1 1 (publicInputsOf proof publicInputs) 0
  rw [Nat.add_zero, Nat.add_zero, one_mul, one_mul, publicInputsOf, List.foldl_append] at run
  rw [computePublicInputDelta]
  dsimp only
  rw [run, numeratorEntries, denominatorEntries, List.map_map, List.map_map]
  rfl

/-! ## What is accepted -/

/-- The proof, the challenges and the checks of an accepted call. -/
structure Accepted {G : Type*} (keccak : Keccak) (curve : Curve G) (vk : VerificationKey)
    (proofBytes publicInputs : List UInt8) (proof : Proof) (tp : Transcript) : Prop where
  loaded : loadProof proofBytes = .ok proof
  words : publicInputs.length = 32 * (publicInputs.length / 32)
  count : vk.publicInputsSize.val = publicInputs.length / 32 + PAIRING_POINTS_SIZE
  bounded : vk.circuitSize.val + vk.pubInputsOffset.val < 2 ^ 64 ∧
    vk.pubInputsOffset.val + 1 < 2 ^ 64
  denominator : ((denominatorEntries vk (publicInputsOf proof publicInputs)).map
    (Permutation.factor tp.relParams.beta tp.relParams.gamma)).prod ≠ 0
  challenges : ∃ delta,
    tp = withDelta (generateTranscript keccak proof (preambleOf vk publicInputs)) delta
  delta : tp.relParams.publicInputsDelta =
    ((numeratorEntries vk (publicInputsOf proof publicInputs)).map
      (Permutation.factor tp.relParams.beta tp.relParams.gamma)).prod *
    ((denominatorEntries vk (publicInputsOf proof publicInputs)).map
      (Permutation.factor tp.relParams.beta tp.relParams.gamma)).prod⁻¹
  sumcheck : verifySumcheck proof tp vk = .ok ()
  opening : verifyShplemini curve proof vk tp = some (.ok ())

theorem verify_eq_ok_iff {G : Type*} {keccak : Keccak} {curve : Curve G} {vk : VerificationKey}
    {proofBytes publicInputs : List UInt8} :
    verify keccak curve vk proofBytes publicInputs = some (.ok ()) ↔
      ∃ proof tp, Accepted keccak curve vk proofBytes publicInputs proof tp := by
  constructor
  · intro accepted
    rw [verify] at accepted
    cases loaded : loadProof proofBytes with
    | error message =>
        rw [loaded] at accepted
        cases accepted
    | ok proof =>
        rw [loaded] at accepted
        dsimp only at accepted
        by_cases ragged : publicInputs.length % 32 ≠ 0
        · rw [if_pos ragged] at accepted
          cases accepted
        rw [if_neg ragged] at accepted
        by_cases few : vk.publicInputsSize.val < PAIRING_POINTS_SIZE
        · rw [if_pos few] at accepted
          cases accepted
        rw [if_neg few] at accepted
        by_cases other : vk.publicInputsSize.val - PAIRING_POINTS_SIZE ≠ publicInputs.length / 32
        · rw [if_pos other] at accepted
          cases accepted
        rw [if_neg other, computePublicInputDelta_eq] at accepted
        generalize transcript : generateTranscript keccak proof (preambleOf vk publicInputs) = t
          at accepted
        by_cases overflow : vk.circuitSize.val + vk.pubInputsOffset.val ≥ 2 ^ 64 ∨
            vk.pubInputsOffset.val + 1 ≥ 2 ^ 64
        · rw [if_pos overflow] at accepted
          cases accepted
        rw [if_neg overflow] at accepted
        by_cases zero : ((denominatorEntries vk (publicInputsOf proof publicInputs)).map
            (Permutation.factor t.relParams.beta t.relParams.gamma)).prod = 0
        · rw [if_pos zero] at accepted
          cases accepted
        rw [if_neg zero] at accepted
        dsimp only at accepted
        generalize delta_eq : ((numeratorEntries vk (publicInputsOf proof publicInputs)).map
          (Permutation.factor t.relParams.beta t.relParams.gamma)).prod * _ = delta at accepted
        cases summed : verifySumcheck proof (withDelta t delta) vk with
        | error message =>
            rw [summed] at accepted
            cases accepted
        | ok _ =>
            rw [summed] at accepted
            cases opened : verifyShplemini curve proof vk (withDelta t delta) with
            | none =>
                rw [opened] at accepted
                cases accepted
            | some result =>
                cases result with
                | error message =>
                    rw [opened] at accepted
                    cases accepted
                | ok _ =>
                    refine ⟨proof, withDelta t delta, loaded, ?_, ?_, ?_, zero, ⟨delta, ?_⟩, ?_,
                      summed, opened⟩
                    · omega
                    · omega
                    · omega
                    · rw [transcript]
                    · exact delta_eq.symm
  · rintro ⟨proof, tp, accepted⟩
    rcases accepted.challenges with ⟨delta, rfl⟩
    have delta_eq := accepted.delta
    have denominator := accepted.denominator
    have summed := accepted.sumcheck
    have opened := accepted.opening
    rcases accepted with ⟨loaded, words, count, bounded⟩
    rw [verify, loaded]
    dsimp only
    rw [computePublicInputDelta_eq]
    generalize generateTranscript keccak proof (preambleOf vk publicInputs) = t
      at delta_eq denominator summed opened ⊢
    dsimp only [withDelta] at delta_eq denominator
    rw [if_neg (by omega), if_neg (by omega), if_neg (by omega), if_neg (by omega),
      if_neg denominator]
    dsimp only
    rw [← delta_eq, summed]
    dsimp only
    rw [opened]

end Solva.Verifier
