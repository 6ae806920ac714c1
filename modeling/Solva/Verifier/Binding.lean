import Solva.Codec.Keccak
import Solva.Verifier.Load

/-!
# What the challenges stand for

The last challenge is drawn behind the preamble and all of the proof but its last point.
Two inputs with the same last challenge are the same up to that point, or two strings that
were hashed collide in the part of the digest that a challenge is made of.
-/

namespace Solva.Verifier

open Bn254 Codec BigEndian FiatShamir

/-! ## The messages determine the proof -/

theorem u64ToBe32_injective : Function.Injective u64ToBe32 := by
  intro x y same
  rw [← u64FromBeBytes_u64Bytes x, ← u64FromBeBytes_u64Bytes y]
  exact congrArg u64FromBeBytes (List.append_cancel_left same)

theorem scalars_inj {count : Nat} {f g : Fin count → Fr}
    (same : (List.ofFn f).flatMap frBytes = (List.ofFn g).flatMap frBytes) : f = g := by
  apply List.ofFn_injective
  apply flatMap_inj frBytes_length frBytes_injective _ same
  rw [List.length_ofFn, List.length_ofFn]

theorem points_inj {points others : List G1Point} (count : points.length = others.length)
    (same : points.flatMap pointBytes = others.flatMap pointBytes) : points = others :=
  flatMap_inj pointBytes_length pointBytes_injective count same

theorem preambleBytes_inj {proof proof' : Proof} {pre pre' : Preamble}
    (same : preambleBytes proof pre = preambleBytes proof' pre') :
    pre = pre' ∧ proof.pairingPointObject = proof'.pairingPointObject ∧ proof.w1 = proof'.w1 ∧
      proof.w2 = proof'.w2 ∧ proof.w3 = proof'.w3 := by
  have wires_length (wires : G1Point × G1Point × G1Point) :
      ([wires.1, wires.2.1, wires.2.2].flatMap pointBytes).length = 128 * 3 :=
    length_flatMap pointBytes_length _
  have object_length (proof : Proof) :
      ((List.ofFn proof.pairingPointObject).flatMap frBytes).length = 32 * PAIRING_POINTS_SIZE := by
    rw [length_flatMap frBytes_length, List.length_ofFn]
  rcases List.append_inj' same ((wires_length (proof.w1, proof.w2, proof.w3)).trans
    (wires_length (proof'.w1, proof'.w2, proof'.w3)).symm) with ⟨same, wires⟩
  rcases List.append_inj' same ((object_length proof).trans (object_length proof').symm)
    with ⟨same, object⟩
  rw [List.append_assoc, List.append_assoc, List.append_assoc, List.append_assoc] at same
  rcases List.append_inj same ((u64ToBe32_length _).trans (u64ToBe32_length _).symm)
    with ⟨circuitSize, same⟩
  rcases List.append_inj same ((u64ToBe32_length _).trans (u64ToBe32_length _).symm)
    with ⟨publicInputsSize, same⟩
  rcases List.append_inj same ((u64ToBe32_length _).trans (u64ToBe32_length _).symm)
    with ⟨pubInputsOffset, publicInputs⟩
  have points := points_inj (by rfl) wires
  refine ⟨?_, scalars_inj object, ?_⟩
  · cases pre
    cases pre'
    cases publicInputs
    cases u64ToBe32_injective circuitSize
    cases u64ToBe32_injective publicInputsSize
    cases u64ToBe32_injective pubInputsOffset
    rfl
  · rw [List.cons.injEq, List.cons.injEq, List.cons.injEq] at points
    exact ⟨points.1, points.2.1, points.2.2.1⟩

/-- The proof without its last point. -/
structure Proof.SameButLast (proof proof' : Proof) : Prop where
  pairingPointObject : proof.pairingPointObject = proof'.pairingPointObject
  w1 : proof.w1 = proof'.w1
  w2 : proof.w2 = proof'.w2
  w3 : proof.w3 = proof'.w3
  w4 : proof.w4 = proof'.w4
  lookupReadCounts : proof.lookupReadCounts = proof'.lookupReadCounts
  lookupReadTags : proof.lookupReadTags = proof'.lookupReadTags
  lookupInverses : proof.lookupInverses = proof'.lookupInverses
  zPerm : proof.zPerm = proof'.zPerm
  sumcheckUnivariates : proof.sumcheckUnivariates = proof'.sumcheckUnivariates
  sumcheckEvaluations : proof.sumcheckEvaluations = proof'.sumcheckEvaluations
  geminiFoldComms : proof.geminiFoldComms = proof'.geminiFoldComms
  geminiAEvaluations : proof.geminiAEvaluations = proof'.geminiAEvaluations
  shplonkQ : proof.shplonkQ = proof'.shplonkQ

theorem length_messages (proof : Proof) : (messages proof).length = 75 := by
  rw [messages, List.length_append, List.length_append, length_oinkMessages,
    length_sumcheckMessages]
  rfl

theorem sumcheckMessages_inj {proof proof' : Proof}
    (same : sumcheckMessages proof = sumcheckMessages proof') :
    proof.sumcheckUnivariates = proof'.sumcheckUnivariates := by
  funext r
  exact scalars_inj (List.map_inj_left.mp same r (List.mem_finRange r))

/-- The first message and the later ones tell all but the last point. -/
theorem sameButLast_of_messages {proof proof' : Proof} {pre pre' : Preamble}
    (first : preambleBytes proof pre = preambleBytes proof' pre')
    (rest : messages proof = messages proof') : pre = pre' ∧ proof.SameButLast proof' := by
  rcases preambleBytes_inj first with ⟨same, object, w1, w2, w3⟩
  rcases List.append_inj rest (by
    rw [List.length_append, List.length_append, length_oinkMessages, length_oinkMessages,
      length_sumcheckMessages, length_sumcheckMessages]) with ⟨front, opening⟩
  rcases List.append_inj front (length_oinkMessages.trans length_oinkMessages.symm)
    with ⟨oink, sumcheck⟩
  have lookups : [proof.lookupReadCounts, proof.lookupReadTags, proof.w4].flatMap pointBytes =
      [proof'.lookupReadCounts, proof'.lookupReadTags, proof'.w4].flatMap pointBytes :=
    Option.some.inj (congrArg (·[1]?) oink)
  have inverses : [proof.lookupInverses, proof.zPerm].flatMap pointBytes =
      [proof'.lookupInverses, proof'.zPerm].flatMap pointBytes :=
    Option.some.inj (congrArg (·[2]?) oink)
  have counts := points_inj (by rfl) lookups
  have perms := points_inj (by rfl) inverses
  rw [List.cons.injEq, List.cons.injEq, List.cons.injEq] at counts
  rw [List.cons.injEq, List.cons.injEq] at perms
  rw [openingMessages, openingMessages, List.cons.injEq, List.cons.injEq, List.cons.injEq,
    List.cons.injEq] at opening
  rcases opening with ⟨evaluations, folds, values, quotient, _⟩
  have comms := points_inj (by rw [List.length_ofFn, List.length_ofFn]) folds
  exact ⟨same, {
    pairingPointObject := object
    w1 := w1
    w2 := w2
    w3 := w3
    w4 := counts.2.2.1
    lookupReadCounts := counts.1
    lookupReadTags := counts.2.1
    lookupInverses := perms.1
    zPerm := perms.2.1
    sumcheckUnivariates := sumcheckMessages_inj sumcheck
    sumcheckEvaluations := scalars_inj evaluations
    geminiFoldComms := List.ofFn_injective comms
    geminiAEvaluations := scalars_inj values
    shplonkQ := pointBytes_injective quotient }⟩

/-! ## The last challenge -/

/-- The part of a digest that a challenge is made of. -/
def challengePart (keccak : Keccak) (query : List UInt8) : Fr :=
  (splitChallenge (hashToFr keccak query)).1

/-- All strings that a transcript hashes. -/
def hashed (keccak : Keccak) (proof : Proof) (pre : Preamble) : List (List UInt8) :=
  preambleBytes proof pre :: queries (hashToFr keccak) frBytes
    (hashToFr keccak (preambleBytes proof pre)) (messages proof)

/-- One last challenge belongs to one input, but for the last point of the proof and for
collisions. -/
theorem generateTranscript_binding {keccak : Keccak} {proof proof' : Proof} {pre pre' : Preamble}
    (same : (generateTranscript keccak proof pre).shplonkZ =
      (generateTranscript keccak proof' pre').shplonkZ) :
    (pre = pre' ∧ proof.SameButLast proof') ∨
      ∃ query ∈ hashed keccak proof pre, ∃ query' ∈ hashed keccak proof' pre',
        query ≠ query' ∧ challengePart keccak query = challengePart keccak query' := by
  have final (proof : Proof) (pre : Preamble) : stateAt keccak proof pre 75 =
      last (hashToFr keccak) frBytes (hashToFr keccak (preambleBytes proof pre))
        (messages proof) := by
    rw [stateAt, List.take_of_length_le (length_messages proof).le]
  rw [generateTranscript_eq, generateTranscript_eq, challengesOf, challengesOf, final,
    final] at same
  rcases eq_or_collision (fun state => (splitChallenge state).1) frBytes_length frBytes_injective
    ((length_messages proof).trans (length_messages proof').symm) same with equal | collision
  · exact Or.inl (sameButLast_of_messages equal.1 equal.2)
  · exact Or.inr collision

def samplePreamble : Preamble where
  publicInputs := List.replicate 32 7
  circuitSize := 2
  publicInputsSize := 17
  pubInputsOffset := 0

/-- Another last point does not change the challenges. -/
theorem shplonkZ_kzgQuotient (keccak : Keccak) (proof : Proof) (pre : Preamble) (pt : G1Point) :
    (generateTranscript keccak proof pre).shplonkZ =
      (generateTranscript keccak { proof with kzgQuotient := pt } pre).shplonkZ := by
  have first : preambleBytes { proof with kzgQuotient := pt } pre = preambleBytes proof pre := rfl
  have rest : messages { proof with kzgQuotient := pt } = messages proof := rfl
  have states : stateAt keccak { proof with kzgQuotient := pt } pre =
      stateAt keccak proof pre := by
    funext count
    rw [stateAt, stateAt, first, rest]
  rw [generateTranscript_eq, generateTranscript_eq, states]

theorem generateTranscript_binding_last :
    (samplePreamble = samplePreamble ∧ (sampleProof (fun _ => 4) (constantRow 5 (-5))).SameButLast
        { sampleProof (fun _ => 4) (constantRow 5 (-5)) with
          kzgQuotient := BytesN.ofNat 64 1 }) ∨
      ∃ query ∈ hashed Keccak.keccak256 (sampleProof (fun _ => 4) (constantRow 5 (-5)))
          samplePreamble,
        ∃ query' ∈ hashed Keccak.keccak256
            { sampleProof (fun _ => 4) (constantRow 5 (-5)) with
              kzgQuotient := BytesN.ofNat 64 1 } samplePreamble,
          query ≠ query' ∧ challengePart Keccak.keccak256 query =
            challengePart Keccak.keccak256 query' :=
  generateTranscript_binding (shplonkZ_kzgQuotient _ _ _ _)

end Solva.Verifier
